import Dyndxt.Loader.BothBuilds
import Dyndxt.Loader.LoadOutcome

/-!
# Loading elsewhere and rebasing

A well-formed DLL that was loaded anywhere, on either build, and is then
relocated to a block of the target: byte for byte the image that the target's
own loader makes of the file in that block, with its header and entrypoint.
-/

namespace Dyndxt.Loader
open Dyndxt.Mem Dyndxt.Run

variable {b : Build} {inp inp' : DllLoaderInput} {ds : List ImportModule} {blocks : List RelocBlock}
  {slots : List (Nat × UInt32)} {ctx c : DllContext} {stale stale' : Bytes}

theorem dllLoad_loadedFrom (wf : inp.WellFormed b ds blocks) (tableBlock : inp.tableBlock b [] ≠ 0)
    (imageBlock : inp.imageBlock b [] ≠ 0) (space : inp.imageBlock b [] + inp.peSize b ≤ b.space)
    (resolved : inp.resolveAll [] (importList ds) = some slots) (output : DllLoaderOutput) (stale : Bytes) :
    ∃ n ctx c, (∀ budget ≥ n, dllLoad b inp budget (.initial output stale) = .leave (.ok c)) ∧
      LoadedFrom b inp blocks stale [] slots ctx c := by
  obtain ⟨mapped, header⟩ := @fileParsed_laidOut b inp ds blocks (.initial output stale) wf
  obtain ⟨n, ctx, imports, kept, filled⟩ := imports_bound wf header mapped (by rw [fileParsed_queries]; exact resolved)
  rw [mapped] at filled
  obtain ⟨n, c, loads, loaded⟩ := @loadedFrom_imports b inp ds blocks (.initial output stale) slots ctx n wf
    (wf.filePasses tableBlock imageBlock) space imports kept filled
    (resolveAll_forall resolved (P := fun w => ∃ entry ∈ importList ds, entry.1 = w)
      fun entry listed => ⟨entry, listed, rfl⟩)
  exact ⟨n, ctx, c, loads, loaded⟩

/-- Two loads of one file refer to the same image. -/
theorem SameFile.referenceImage {base : UInt32} {words : List Nat} {image : Bytes} (file : SameFile inp inp')
    (wf : inp.WellFormed .target ds blocks) (loaded : inp'.ReferenceImage .target base slots words stale image) :
    inp.ReferenceImage .target base slots words stale image := by
  have inFile : ∀ header ∈ inp.peSections .target, header.sizeOfRawData.toNat ≠ 0 →
      header.pointerToRawData.toNat + header.sizeOfRawData.toNat ≤ inp.rawDataSize.toNat := fun header listed =>
    wf.inFile header.copy (List.mem_cons_of_mem _ (List.mem_map_of_mem listed))
  have sections : inp'.peSections .target = inp.peSections .target := file.peSections wf
  have header : inp'.peHeader .target = inp.peHeader .target := file.peHeader wf
  constructor
  · exact loaded.slotWords
  · intro section_ held w listed holds
    have room := inFile section_ held (by have := holds.1; have := holds.2; omega)
    rw [loaded.fixupWords section_ (by rwa [sections]) w listed holds, header]
    congr 1
    exact file.raw.u32 (Nat.zero_le _) (by have := holds.1; have := holds.2; omega) rawDataSize_le
  · intro i lt clear
    have headers : 0 + (inp.peHeader .target).optionalHeader.sizeOfHeaders.toNat ≤ inp.rawDataSize.toNat :=
      wf.inFile _ List.mem_cons_self (by dsimp only; omega)
    rw [loaded.headers i (by rwa [header]) clear]
    exact file.raw i (Nat.zero_le i) (by omega)
  · intro section_ held i lt clear
    have room := inFile section_ held (by omega)
    rw [loaded.sections section_ (by rwa [sections]) i lt clear]
    exact file.raw _ (Nat.zero_le _) (by omega)
  · intro a lt none
    refine loaded.rest a lt ?_
    rw [file.peByte wf lt]
    exact none

theorem DllLoaderInput.ReferenceImage.own {base : UInt32} {words : List Nat} {image : Bytes}
    (loaded : (inp.resolvedBy inp').ReferenceImage b base slots words stale image) :
    inp.ReferenceImage b base slots words stale image := by
  cases loaded
  constructor <;> assumption

/-- A byte of the image that both loads lay out alike: the file's, or what both
blocks held. -/
def SharedByte (inp : DllLoaderInput) (stale stale' : Bytes) (a : Nat) : Prop :=
  a < Build.target.space ∧ ((inp.peByte .target a).isSome ∨ stale' a = stale a)

/-- The two images, with their slots filled and moved by the same amount. -/
theorem shared_moved (wf : inp.WellFormed .target ds blocks) (file : SameFile inp inp')
    (resolved : inp.resolveAll [] (importList ds) = some slots) (amount : UInt32) : ∀ a, SharedByte inp stale stale' a →
    addAll b.space amount (fixups blocks) (putAll b.space slots (inp'.laidOut b stale')) a =
      addAll Build.target.space amount (fixups blocks) (putAll Build.target.space slots (inp.laidOut .target stale)) a := by
  have small := @peSize_lt .target inp
  have laid : ∀ a, SharedByte inp stale stale' a → inp'.laidOut b stale' a = inp.laidOut .target stale a := by
    rintro a ⟨lt, shared⟩
    rw [DllLoaderInput.laidOut, DllLoaderInput.laidOut, file.peByte wf lt]
    cases byte : inp.peByte .target a with
    | some v => rfl
    | none =>
      rw [byte] at shared
      exact shared.resolve_left Bool.false_ne_true
  have filled := putAll_space laid (fun a shared => shared.1) b.space_ge (resolved_fits wf resolved)
  refine addAll_space filled (fun a shared => shared.1) b.space_ge fun w listed k lt => ?_
  obtain ⟨header, held, holds⟩ := wf.fixupsHeld w listed
  obtain ⟨inImage, bytes⟩ := wf.filled_held held holds
  have inImage : w + 4 ≤ inp.peSize .target := inImage
  exact ⟨by omega, .inl (bytes k lt)⟩

/-- Loaded on either build in any block and relocated to a block of the target,
a well-formed DLL is what the target loads there. -/
theorem dllLoad_rebased (b : Build) (inp inp' : DllLoaderInput) (ds : List ImportModule) (blocks : List RelocBlock)
    (slots : List (Nat × UInt32)) (output output' : DllLoaderOutput) (stale stale' : Bytes)
    (wf : inp.WellFormed .target ds blocks) (file : SameFile inp inp')
    (room : inp'.rawData + inp'.rawDataSize.toNat < b.space)
    (resolved : inp.resolveAll [] (importList ds) = some slots)
    (allocated : inp.tableBlock .target [] ≠ 0 ∧ inp.imageBlock .target [] ≠ 0 ∧
      inp.imageBlock .target [] + inp.peSize .target ≤ Build.target.space)
    (allocated' : inp'.tableBlock b [] ≠ 0 ∧ inp'.imageBlock b [] ≠ 0 ∧ inp'.imageBlock b [] + inp'.peSize b ≤ b.space) :
    ∃ n c moved rebased, (∀ budget ≥ n,
        dllLoad .target inp budget (.initial output stale) = .leave (.ok c) ∧
        dllLoad b inp' budget (.initial output' stale') = .leave (.ok moved) ∧
        dllRelocate b budget (.ofNat (inp.imageBlock .target [])) moved = .leave (.ok rebased)) ∧
      (∀ a, SharedByte inp stale stale' a → rebased.image a = c.image a) ∧
      rebased.output.header = c.output.header ∧
      (UInt32.ofNat (inp.imageBlock .target []) ≠ (inp.peHeader .target).optionalHeader.imageBase →
        rebased.output.entrypoint = c.output.entrypoint) := by
  have wf' : inp'.WellFormed b ds blocks := file.wellFormed wf room
  have resolved' : inp'.resolveAll [] (importList ds) = some slots := (file.resolveAll _ _).trans resolved
  obtain ⟨n, ctx, c, load, here⟩ := dllLoad_loadedFrom wf allocated.1 allocated.2.1 allocated.2.2 resolved output stale
  obtain ⟨n', ctx', moved, load', there⟩ :=
    dllLoad_loadedFrom wf' allocated'.1 allocated'.2.1 allocated'.2.2 resolved' output' stale'
  -- by way of the block it was loaded in, and at once
  obtain ⟨n₂, rebased, again, second⟩ := dllRelocate_relocates (there.relocated.relocatable there.relocatable)
    (.ofNat (inp.imageBlock .target []))
  obtain ⟨-, direct, -, once⟩ := dllRelocate_relocates there.relocatable (.ofNat (inp.imageBlock .target []))
  obtain ⟨image, header, entry⟩ := Relocated.trans there.relocatable there.relocated second once
  have headers : ctx'.output.header = ctx.output.header := by rw [there.header, here.header, file.peHeader wf]
  refine ⟨n + n' + n₂, c, moved, rebased, fun budget enough => ⟨load budget (by omega), load' budget (by omega),
    again budget (by omega)⟩, fun a shared => ?_, ?_, fun differs => ?_⟩
  · have lt : a < b.space := Nat.lt_of_lt_of_le shared.1 b.space_ge
    rw [image a lt, once.image a lt, here.relocated.image a shared.1, headers, here.image, there.image]
    exact shared_moved wf file resolved _ a shared
  · rw [header, once.header, here.relocated.header, headers]
  · have base : ctx'.output.header.optionalHeader.imageBase = (inp.peHeader .target).optionalHeader.imageBase := by
      rw [headers, here.header]
    rw [entry (by rwa [base]), once.entrypoint, if_neg (by rwa [base]), here.relocated.entrypoint,
      if_neg (by rwa [here.header]), headers]

/-- The file of `boundDll` on the host, beyond the target's addresses. -/
def hostedDll : DllLoaderInput :=
  { boundDll with rawData := 0x7F0000000000, alloc := fun calls _ => 0x7F0000100000 + 0x10000 * calls.length }

theorem hostedDll_rebased : ∃ n c moved rebased, (∀ budget ≥ n,
      dllLoad .target boundDll budget (.initial {} fun _ => 0xCC) = .leave (.ok c) ∧
      dllLoad .host hostedDll budget (.initial {} fun _ => 0xCC) = .leave (.ok moved) ∧
      dllRelocate .host budget 0x40000 moved = .leave (.ok rebased)) ∧
    (∀ a < 2 ^ 32, rebased.image a = c.image a) ∧ rebased.output.entrypoint = c.output.entrypoint := by
  have file : SameFile boundDll hostedDll := ⟨rfl, fun _ _ _ => rfl, rfl, rfl⟩
  have block : boundDll.imageBlock .target [] = 0x40000 := by decide +kernel
  obtain ⟨n, c, moved, rebased, runs, image, -, entry⟩ := dllLoad_rebased .host boundDll hostedDll boundDllImports
    boundDllBlocks [(0x250, 0xA0005), (0x254, 0xB0001)] {} {} (fun _ => 0xCC) (fun _ => 0xCC) boundDll_wellFormed file
    (by decide +kernel) (by decide +kernel) (by decide +kernel) (by decide +kernel)
  rw [block] at runs entry
  exact ⟨n, c, moved, rebased, runs, fun a lt => image a ⟨lt, .inr rfl⟩, entry (by decide +kernel)⟩

end Dyndxt.Loader
