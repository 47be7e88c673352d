import Dyndxt.Loader.WellFormed

/-!
# Loading a well-formed DLL

The image a loader is to produce, said of the file and the resolver's answers
only, and the theorem that `DLLLoad` produces it.
-/

namespace Dyndxt.Loader
open Dyndxt.Mem Dyndxt.Pool Dyndxt.Run

/-- No slot and no fixup takes in the byte. -/
def Untouched (slots : List (Nat × UInt32)) (words : List Nat) (a : Nat) : Prop :=
  (∀ slot ∈ slots, a < slot.1 ∨ slot.1 + 4 ≤ a) ∧ ∀ w ∈ words, a < w ∨ w + 4 ≤ a

/-- The image of a file bound to `slots` and rebased by the listed `words`:
each slot holds its address, each fixup the file's word moved once for every
time it is listed, and every other byte is the file's where the file lays one
out and what the block held where it does not. -/
structure DllLoaderInput.ReferenceImage (b : Build) (inp : DllLoaderInput) (base : UInt32)
    (slots : List (Nat × UInt32)) (words : List Nat) (stale image : Bytes) : Prop where
  slotWords : ∀ slot ∈ slots, u32 b.space image slot.1 = slot.2
  fixupWords : ∀ header ∈ inp.peSections b, ∀ w ∈ words, header.Holds w →
    u32 b.space image w =
      u32 b.space inp.raw (header.pointerToRawData.toNat + (w - header.virtualAddress.toNat)) +
        .ofNat (words.count w) * (base - (inp.peHeader b).optionalHeader.imageBase)
  headers : ∀ i < (inp.peHeader b).optionalHeader.sizeOfHeaders.toNat, Untouched slots words i →
    image i = inp.raw i
  sections : ∀ header ∈ inp.peSections b, ∀ i < header.sizeOfRawData.toNat,
    Untouched slots words (header.virtualAddress.toNat + i) →
    image (header.virtualAddress.toNat + i) = inp.raw (header.pointerToRawData.toNat + i)
  rest : ∀ a < b.space, inp.peByte b a = none → image a = stale a

variable {b : Build} {inp : DllLoaderInput} {ds : List ImportModule} {blocks : List RelocBlock}
  {stale : Bytes} {slots : List (Nat × UInt32)} {ctx : DllContext} {output : DllLoaderOutput}

/-- The import pass on a well-formed file. -/
theorem imports_bound (wf : inp.WellFormed b ds blocks) (header : ctx.output.header = inp.peHeader b)
    (image : ctx.image = inp.laidOut b stale)
    (resolved : inp.resolveAll ctx.queries (importList ds) = some slots) :
    ∃ n ctx', (∀ budget ≥ n, dllResolveImports b inp budget ctx = .leave (.ok ctx')) ∧
      Kept ctx ctx' ∧ ctx'.image = putAll b.space slots ctx.image := by
  by_cases none : (inp.peDirectory b imageDirectoryEntryImport).size = 0
  · obtain rfl := wf.noImports none
    cases resolved
    refine ⟨0, _, fun budget _ => dllResolveImports_none ?_ budget, kept_setErrorContext _, rfl⟩
    rw [header]
    exact none
  · have directory : (ctx.output.header.optionalHeader.dataDirectory
        imageDirectoryEntryImport).size ≠ 0 := by
      rw [header]
      exact none
    obtain ⟨ctx', returns, bound⟩ := @imports_run b inp _ _ (ctx.setErrorContext .resolveImports) ds slots
      (wf.bindable none) (by
        have agree := wf.imports_agree stale none
        rwa [← image] at agree) resolved
    obtain ⟨n, leaves⟩ := dllResolveImports_returns directory (by
      rw [importEntry, header]
      exact returns)
    exact ⟨n, ctx', leaves, (kept_setErrorContext _).trans bound.toKept, bound.image⟩

/-- Every slot lies in a section's raw data. -/
theorem resolved_held (wf : inp.WellFormed b ds blocks) (resolved : inp.resolveAll [] (importList ds) = some slots) :
    ∀ slot ∈ slots, ∃ header ∈ inp.peSections b, header.Holds slot.1 :=
  resolveAll_forall resolved (P := fun w => ∃ header ∈ inp.peSections b, header.Holds w) wf.slotsHeld

theorem resolved_fits (wf : inp.WellFormed b ds blocks) (resolved : inp.resolveAll [] (importList ds) = some slots) :
    ∀ slot ∈ slots, slot.1 + 4 ≤ b.space := by
  intro slot listed
  have small := @peSize_lt b inp
  have := wf.held_fits (resolved_held wf resolved slot listed)
  omega

theorem fixups_fit (wf : inp.WellFormed b ds blocks) : ∀ w ∈ fixups blocks, w + 4 ≤ b.space := by
  intro w listed
  have small := @peSize_lt b inp
  have := wf.held_fits (wf.fixupsHeld w listed)
  omega

theorem resolved_fixups (wf : inp.WellFormed b ds blocks) (resolved : inp.resolveAll [] (importList ds) = some slots) :
    ∀ slot ∈ slots, ∀ w ∈ fixups blocks, w + 4 ≤ slot.1 ∨ slot.1 + 4 ≤ w :=
  resolveAll_forall resolved (P := fun s => ∀ w ∈ fixups blocks, w + 4 ≤ s ∨ s + 4 ≤ w) wf.slotsFixups

/-- A fixup's word as the imports left it is the file's. -/
theorem fixup_kept (wf : inp.WellFormed b ds blocks) (resolved : inp.resolveAll [] (importList ds) = some slots)
    {header : ImageSectionHeader} {w : Nat} (held : header ∈ inp.peSections b) (listed : w ∈ fixups blocks)
    (holds : header.Holds w) : u32 b.space (putAll b.space slots (inp.laidOut b stale)) w =
      u32 b.space inp.raw (header.pointerToRawData.toNat + (w - header.virtualAddress.toNat)) := by
  have fits := fixups_fit wf w listed
  have copy : header.copy ∈ inp.peCopies b := List.mem_cons_of_mem _ (List.mem_map_of_mem held)
  obtain ⟨low, high⟩ := holds
  have inFile := wf.inFile _ copy (by simp only [ImageSectionHeader.copy]; omega)
  have inSpace := wf.inSpace
  simp only [ImageSectionHeader.copy] at inFile
  apply u32_shift fits (by omega)
  intro i lt
  rw [putAll_outside (resolved_fits wf resolved) (by omega)]
  · have byte := wf.laidOut_copy stale copy (i := w - header.virtualAddress.toNat + i)
      (by simp only [ImageSectionHeader.copy]; omega)
    simp only [ImageSectionHeader.copy] at byte
    rwa [← Nat.add_assoc, ← Nat.add_assoc, Nat.add_sub_cancel' low] at byte
  · intro slot listed'
    have := resolved_fixups wf resolved slot listed' w listed
    omega

/-- What the image holds once the slots of a well-formed file are filled and
its fixups moved. -/
theorem referenceImage (wf : inp.WellFormed b ds blocks) {base : UInt32} {image : Bytes}
    (resolved : inp.resolveAll [] (importList ds) = some slots)
    (patched : ∀ a < b.space, image a =
      addAll b.space (base - (inp.peHeader b).optionalHeader.imageBase) (fixups blocks)
        (putAll b.space slots (inp.laidOut b stale)) a) :
    inp.ReferenceImage b base slots (fixups blocks) stale image := by
  have small := @peSize_lt b inp
  have slotFits := resolved_fits wf resolved
  have fixupFits := fixups_fit wf
  have slotsApart : (slots.map Prod.fst).Pairwise fun w w' => w + 4 ≤ w' ∨ w' + 4 ≤ w := by
    rw [resolveAll_slots resolved]
    exact wf.slotsApart
  have untouched : ∀ a < b.space, Untouched slots (fixups blocks) a → image a = inp.laidOut b stale a := by
    intro a lt untouched
    rw [patched a lt, addAll_outside fixupFits lt untouched.2, putAll_outside slotFits lt untouched.1]
  constructor
  · intro slot listed
    have fits := slotFits slot listed
    apply u32_of_bytes fits
    intro k lt
    rw [patched _ (by omega), addAll_outside fixupFits (by omega)]
    · exact putAll_inside slotFits slotsApart listed lt
    · intro w listed'
      have := resolved_fixups wf resolved slot listed w listed'
      omega
  · intro header held w listed holds
    have fits := fixupFits w listed
    have word : u32 b.space image w =
        u32 b.space (addAll b.space (base - (inp.peHeader b).optionalHeader.imageBase) (fixups blocks)
          (putAll b.space slots (inp.laidOut b stale))) w :=
      u32_congr fun i _ => patched _ (Nat.mod_lt _ b.space_pos)
    rw [word, u32_addAll fixupFits fits (fun w' listed' => wf.fixupsApart w' listed' w listed),
      fixup_kept wf resolved held listed holds]
  · intro i lt clear
    have inImage : 0 + (inp.peHeader b).optionalHeader.sizeOfHeaders.toNat ≤ inp.peSize b :=
      wf.inImage _ List.mem_cons_self (by simp only; omega)
    have byte := wf.laidOut_copy stale List.mem_cons_self lt
    simp only [Nat.zero_add] at byte
    rw [untouched i (by omega) clear, byte]
  · intro header held i lt clear
    have copy : header.copy ∈ inp.peCopies b := List.mem_cons_of_mem _ (List.mem_map_of_mem held)
    have inImage := wf.inImage _ copy (by simp only [ImageSectionHeader.copy]; omega)
    have byte := wf.laidOut_copy stale copy lt
    simp only [ImageSectionHeader.copy] at byte inImage
    rw [untouched _ (by omega) clear, byte]
  · intro a lt none
    -- slots and fixups lie in raw data
    have clear : ∀ w, (∃ header ∈ inp.peSections b, header.Holds w) → a < w ∨ w + 4 ≤ a := by
      intro w held
      obtain ⟨header, held, holds⟩ := held
      by_contra inside
      have some := (wf.filled_held held holds).2 (a - w) (by simp only; omega)
      simp only [show w + (a - w) = a by omega, none] at some
      cases some
    rw [untouched a lt ⟨fun slot listed => clear _ (resolved_held wf resolved slot listed),
      fun w listed => clear w (wf.fixupsHeld w listed)⟩, DllLoaderInput.laidOut, none, Option.getD_none]

/-- `DLLLoad` returns true on a well-formed file, with the reference image,
when every import is resolved and the two blocks it asks for are allocated,
wherever the image is put. -/
theorem dllLoad_reference (wf : inp.WellFormed b ds blocks) (tableBlock : inp.tableBlock b [] ≠ 0)
    (imageBlock : inp.imageBlock b [] ≠ 0)
    (space : inp.imageBlock b [] + inp.peSize b ≤ b.space)
    (resolved : inp.resolveAll [] (importList ds) = some slots) (output : DllLoaderOutput)
    (stale : Bytes) :
    ∃ n c, (∀ budget ≥ n, dllLoad b inp budget (.initial output stale) = .leave (.ok c)) ∧
      inp.ReferenceImage b (.ofNat (inp.imageBlock b [])) slots (fixups blocks) stale c.image := by
  have passes : inp.FilePasses b (DllContext.initial output stale).calls :=
    wf.filePasses tableBlock imageBlock
  have mapped : ((DllContext.initial output stale).reset.fileParsed b inp).image =
      inp.laidOut b stale := by
    rw [fileParsed_image, wf.mapped_eq]
    rfl
  obtain ⟨_, _, _, header, _⟩ :=
    Kept.loaded (Kept.refl ((DllContext.initial output stale).reset.fileParsed b inp))
  rw [wf.ntHeader_eq] at header
  obtain ⟨n₁, ctx₁, imports, kept, filled⟩ := @imports_bound b inp ds blocks stale slots _ wf header mapped
    (by rw [fileParsed_queries]; exact resolved)
  obtain ⟨_, _, imagePtr₁, header₁, _⟩ := kept.loaded
  rw [wf.ntHeader_eq] at header₁
  rw [mapped] at filled
  have relocatable : Relocatable b ctx₁ blocks := by
    refine wf.relocatable ?_ filled header₁ ?_
    · exact resolveAll_forall resolved (P := fun w => ∃ entry ∈ importList ds, entry.1 = w)
        fun entry listed => ⟨entry, listed, rfl⟩
    · rw [imagePtr₁]
      exact space
  obtain ⟨n₂, ctx₂, relocs, relocated⟩ :=
    dllRelocate_relocates relocatable (.ofNat (inp.imageBlock b []))
  refine ⟨n₁ + n₂, ctx₂, ?_, ?_⟩
  · intro budget enough
    have imports := imports budget (by omega)
    have relocs := relocs budget (by omega)
    rw [dllLoad_eq passes, imports]
    show cleanedUp (dllRelocate b budget (.ofNat (inp.imageBlock b [])) ctx₁) = _
    rw [relocs]
    rfl
  · apply referenceImage wf resolved
    intro a lt
    rw [relocated.image a lt, header₁, filled]

/-- A DLL for base `0x30000`, loaded at `0x40000`: one section, two imports of
a module `a` (ordinal 5 and `f`) with slots at `0x250`, and one fixup at
`0x25C`. -/
def boundDll : DllLoaderInput :=
  fileOf (headerWords 1 0x30000 0x300 0x160 0x1234 ++
    [(88, 0x10B), (192, 0x200), (196, 40), (224, 0x270), (228, 12), (324, 0x200), (328, 0x80), (332, 0x160),
      (0x160, 0x240), (0x16C, 0x260), (0x170, 0x250), (0x1A0, 0x80000005), (0x1A4, 0x268),
      (0x1BC, 0x30123), (0x1C0, 0x61), (0x1C8, 0x660000), (0x1D0, 0x200), (0x1D4, 12), (0x1D8, 0x305C)])
    0x1E0 0x40000

def boundDllImports : List ImportModule :=
  [⟨0x240, 0x260, 0x250, [0x61], [⟨0x80000005, []⟩, ⟨0x268, [0x66]⟩]⟩]

def boundDllBlocks : List RelocBlock := [⟨0x200, [0x305C, 0]⟩]

theorem boundDll_wellFormed : boundDll.WellFormed .target boundDllImports boundDllBlocks := by
  constructor
  case imports =>
    intro _
    refine ⟨⟨⟨by decide +kernel, by decide +kernel, by decide +kernel, by decide +kernel, by decide +kernel⟩,
      ⟨by decide +kernel, by decide +kernel, by decide +kernel, by decide +kernel⟩, ?_⟩, ?_⟩
    · refine ⟨⟨by decide +kernel, by decide, ?_⟩, ⟨by decide +kernel, by decide, fun _ => ?_⟩, ?_⟩
      · exact fun snap => absurd snap (by decide)
      · exact ⟨by decide +kernel, by decide +kernel, by decide +kernel, by decide +kernel⟩
      · show u32 _ _ _ = 0
        decide +kernel
    · show u32 _ _ _ = 0
      decide +kernel
  case blocksOk =>
    simp only [boundDllBlocks, List.mem_singleton, forall_eq]
    exact ⟨by decide, by decide,
      List.forall_mem_cons.mpr ⟨by decide, List.forall_mem_singleton.mpr (by decide)⟩⟩
  case relocs =>
    refine ⟨by decide +kernel, by decide +kernel, by decide +kernel, ?_⟩
    show u32 _ _ _ = 0
    decide +kernel
  all_goals decide +kernel

theorem boundDll_reference : ∃ n c,
    (∀ budget ≥ n, dllLoad .target boundDll budget (.initial {} fun _ => 0xCC) = .leave (.ok c)) ∧
    u32 (2 ^ 32) c.image 0x250 = 0xA0005 ∧ u32 (2 ^ 32) c.image 0x254 = 0xB0001 ∧
    u32 (2 ^ 32) c.image 0x25C = 0x40123 ∧ c.image 0x2FF = 0xCC := by
  obtain ⟨n, c, loads, image⟩ := @dllLoad_reference .target boundDll _ _ [(0x250, 0xA0005), (0x254, 0xB0001)]
    boundDll_wellFormed (by decide +kernel) (by decide +kernel) (by decide +kernel) (by decide +kernel) {} fun _ => 0xCC
  have fixup := image.fixupWords (.read (2 ^ 32) boundDll.raw 312) (by decide +kernel) 0x25C
    (by decide +kernel) (by decide +kernel)
  refine ⟨n, c, loads, image.slotWords _ List.mem_cons_self, image.slotWords (0x254, 0xB0001) (by simp), ?_,
    image.rest 0x2FF (by decide) (by decide +kernel)⟩
  exact fixup.trans (by decide +kernel)

end Dyndxt.Loader
