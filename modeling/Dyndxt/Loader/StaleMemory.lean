import Dyndxt.Mem.Untouched
import Dyndxt.Loader.MappedImage
import Dyndxt.Loader.ImageWrites

/-!
# What the image block held before

Nothing fills the bytes of the image that the file does not. A load whose file
puts a byte everywhere in the image does not depend on the block's old
contents; one that leaves a byte out, and does not happen to read or write it
while it binds and rebases, leaves it as it was.
-/

namespace Dyndxt.Loader
open Dyndxt.Mem Dyndxt.Pool Dyndxt.Run

section Definitions

variable (b : Build) (inp : DllLoaderInput)

/-- `SizeOfImage`, as the loader reads it. -/
def DllLoaderInput.imageSize : Nat := (inp.ntHeader b).optionalHeader.sizeOfImage.toNat

/-- The headers or some section's raw data cover every byte of the image. -/
def DllLoaderInput.AllCovered : Prop := ∀ a < inp.imageSize b, (inp.fileByte b a).isSome

/-- Loads of the same file at the same address leave the same image, whatever
the block held, and zero where the file puts nothing. -/
structure DllLoaderInput.StaleFree : Prop where
  same : ∀ output output' stale stale' n n' c c', (∀ a ≥ inp.imageSize b, stale a = stale' a) →
    dllLoad b inp n (.initial output stale) = .leave (.ok c) →
    dllLoad b inp n' (.initial output' stale') = .leave (.ok c') →
    ∀ a < inp.imageSize b, c.image a = c'.image a
  zero : ∀ output stale n c, dllLoad b inp n (.initial output stale) = .leave (.ok c) →
    ∀ a < inp.imageSize b, inp.fileByte b a = none → c.image a = 0

/-- A round of the import loops that is not refused reads or writes the byte. -/
def ImportTouches : ImportPc × DllContext → Nat → Prop
  | (.descriptor at_, _), a => dist b.space at_ a < sizeofImageImportDescriptor
  | (.thunk _ imageName thunk function, ctx), a => dist b.space thunk a < 4 ∨ ctx.load32 b thunk ≠ 0 ∧
    (dist b.space imageName a ≤ (ctx.str b imageName).length ∨
      imageSnapByOrdinal (ctx.load32 b thunk) = false ∧
        dist b.space (((ctx.load32 b thunk).toNat + 2) % b.space) a ≤
          (ctx.str b (((ctx.load32 b thunk).toNat + 2) % b.space)).length ∨
      dist b.space function a < 4)

/-- A round of the relocation loops reads or writes the byte. -/
def RelocTouches : RelocPc × DllContext → Nat → Prop
  | (.block relocationStart, _), a =>
    dist b.space relocationStart a < 4 ∨ dist b.space (relocationStart + 4) a < 4
  | (.entry dest entry relocationEnd, ctx), a => dist b.space entry a < 2 ∨
    IsFixup b ctx entry relocationEnd ∧ dist b.space (fixupTarget b ctx dest entry) a < 4

/-- A load from `stale` returns true without having touched the byte, in the
image and not covered. -/
structure DllLoaderInput.LeavesStale (stale : Bytes) (a : Nat) : Prop where
  inImage : a < inp.imageSize b
  uncovered : inp.fileByte b a = none
  loads : ∃ n c, dllLoad b inp n (.initial {} stale) = .leave (.ok c)
  imports : ∀ s, AtImport b inp (.initial {} stale) s → ¬ ImportTouches b s a
  relocs : ∀ resolved s, AtReloc b inp (.initial {} stale) resolved s → ¬ RelocTouches b s a

end Definitions

/-- The context with one byte of its image changed. -/
def DllContext.poke (ctx : DllContext) (a : Nat) (v : UInt8) : DllContext :=
  { ctx with image := Function.update ctx.image a v }

variable {b : Build} {inp : DllLoaderInput} {ctx ctx' : DllContext} {a : Nat} {v : UInt8}
  {output output' : DllLoaderOutput} {stale stale' : Bytes}

/-! ## Loads of a covered image -/

/-- The file passes depend on the block in the image only. -/
theorem fileParsed_withImage (m : Bytes) : ({ ctx with image := m } : DllContext).fileParsed b inp =
    { ctx.fileParsed b inp with image := inp.mapped b m } := by
  have sections (headers : List ImageSectionHeader) (ctx : DllContext) (m : Bytes) :
      ({ ctx with image := m } : DllContext).withSections b inp headers =
        { ctx.withSections b inp headers with
          image := (({ ctx with image := m } : DllContext).withSections b inp headers).image } := by
    induction headers generalizing ctx m with
    | nil => rfl
    | cons header headers ih =>
      have step (ctx : DllContext) : ctx.withSections b inp (header :: headers) =
          (ctx.withSection b inp header).withSections b inp headers := rfl
      have one : ({ ctx with image := m } : DllContext).withSection b inp header =
          { ctx.withSection b inp header with
            image := (({ ctx with image := m } : DllContext).withSection b inp header).image } := by
        unfold DllContext.withSection
        split <;> rfl
      rw [step, step, one]
      exact ih _ _
  have parsed := sections (inp.sections b) (((ctx.withHeaders b inp).withTable b inp).withImage b inp)
    (store b.space m 0 ((inp.ntHeader b).optionalHeader.sizeOfHeaders.toNat) fun i =>
      inp.raw ((0 + i) % b.space))
  have image := @fileParsed_image b inp { ctx with image := m }
  have fold : ({ ctx with image := m } : DllContext).fileParsed b inp =
      ({ ((ctx.withHeaders b inp).withTable b inp).withImage b inp with
        image := store b.space m 0 ((inp.ntHeader b).optionalHeader.sizeOfHeaders.toNat) fun i =>
          inp.raw ((0 + i) % b.space) } : DllContext).withSections b inp (inp.sections b) := rfl
  rw [← fold, image] at parsed
  exact parsed

theorem initial_fileParsed (output : DllLoaderOutput) (stale : Bytes) :
    (DllContext.initial output stale).reset.fileParsed b inp =
    { (DllContext.initial {} fun _ => 0).reset.fileParsed b inp with image := inp.mapped b stale } :=
  @fileParsed_withImage b inp (DllContext.initial {} fun _ => 0).reset stale

/-- Blocks that differ only where the file puts a byte are loaded alike. -/
theorem dllLoad_covered (covered : inp.AllCovered b) (same : ∀ a ≥ inp.imageSize b, stale a = stale' a)
    (passes : inp.FilePasses b []) (n : Nat) :
    dllLoad b inp n (.initial output stale) = dllLoad b inp n (.initial output' stale') := by
  have mapped : inp.mapped b stale = inp.mapped b stale' := by
    funext a
    rcases Nat.lt_or_ge a (inp.imageSize b) with inside | outside
    · exact mapped_congr (covered a inside)
    · rw [DllLoaderInput.mapped, same a outside]
      rfl
  have passes' : inp.FilePasses b (DllContext.initial output stale).calls := passes
  have passes'' : inp.FilePasses b (DllContext.initial output' stale').calls := passes
  rw [dllLoad_eq passes', dllLoad_eq passes'', initial_fileParsed, initial_fileParsed _ stale', mapped]
  rfl

theorem staleFree_of_covered (covered : inp.FilePasses b [] → inp.AllCovered b) : inp.StaleFree b := by
  constructor
  · intro output output' stale stale' n n' c c' same load load' a _
    have loaded : Loaded b inp [] c := dllLoad_ends load clean_nil
    rw [dllLoad_covered (covered loaded.passes) same loaded.passes] at load
    have long := @dllLoad_ok_mono b inp (.initial output' stale') c n (n + n') loaded.passes load (by omega)
    have long' := @dllLoad_ok_mono b inp (.initial output' stale') c' n' (n + n') loaded.passes load'
      (by omega)
    rw [long] at long'
    cases long'
    rfl
  · intro output stale n c load a inside none
    have loaded : Loaded b inp [] c := dllLoad_ends load clean_nil
    have some := covered loaded.passes a inside
    rw [none] at some
    cases some

/-! ## Rounds that leave a byte alone -/

theorem load32_poke {p : Nat} (far : 4 ≤ dist b.space p a) :
    (ctx.poke a v).load32 b p = ctx.load32 b p := by
  have room := b.space_ge
  exact u32_update (by omega) far

theorem load16_poke {p : Nat} (far : 2 ≤ dist b.space p a) :
    (ctx.poke a v).load16 b p = ctx.load16 b p := by
  have room := b.space_ge
  exact u16_update (by omega) far

theorem str_poke {p : Nat} (far : (ctx.str b p).length < dist b.space p a) :
    (ctx.poke a v).str b p = ctx.str b p := cstring_update far

theorem store32_poke {p : Nat} {w : UInt32} (far : 4 ≤ dist b.space p a) :
    (ctx.poke a v).store32 b p w = (ctx.store32 b p w).poke a v := by
  simp only [DllContext.store32, DllContext.poke, store32_update far]

/-- A descriptor that does not take in the byte. -/
theorem descriptor_poke {at_ : Nat} (lt : a < b.space)
    (far : sizeofImageImportDescriptor ≤ dist b.space at_ a) :
    ImageImportDescriptor.read b (ctx.poke a v).image at_ = ImageImportDescriptor.read b ctx.image at_ := by
  have room := b.space_ge
  have field (k : Nat) (part : k + 4 ≤ sizeofImageImportDescriptor) :
      u32 b.space (ctx.poke a v).image (at_ + k) = u32 b.space ctx.image (at_ + k) :=
    load32_poke (dist_part lt far part (by unfold sizeofImageImportDescriptor; omega))
  have first := field 0 (by decide)
  rw [Nat.add_zero] at first
  simp only [ImageImportDescriptor.read, first, field 8 (by decide), field 12 (by decide),
    field 16 (by decide)]

section Thunk

variable {at_ imageName thunk function : Nat}
  (untouched : ¬ ImportTouches b (.thunk at_ imageName thunk function, ctx) a)

include untouched

theorem thunk_poke : (ctx.poke a v).load32 b thunk = ctx.load32 b thunk := by
  apply load32_poke
  by_contra near
  exact untouched (.inl (by omega))

theorem answered_poke (nonzero : ctx.load32 b thunk ≠ 0) :
    (ctx.poke a v).answered b inp imageName function (ctx.load32 b thunk) =
        (ctx.answered b inp imageName function (ctx.load32 b thunk)).poke a v ∧
      thunkQuery b imageName (ctx.load32 b thunk) (ctx.poke a v) =
        thunkQuery b imageName (ctx.load32 b thunk) ctx := by
  have image : (ctx.poke a v).str b imageName = ctx.str b imageName := by
    apply str_poke
    by_contra near
    exact untouched (.inr ⟨nonzero, .inl (by omega)⟩)
  have query : thunkQuery b imageName (ctx.load32 b thunk) (ctx.poke a v) =
      thunkQuery b imageName (ctx.load32 b thunk) ctx := by
    unfold thunkQuery
    cases snap : imageSnapByOrdinal (ctx.load32 b thunk) with
    | true => simp only [if_true, image]
    | false =>
      have name : (ctx.poke a v).str b (((ctx.load32 b thunk).toNat + 2) % b.space) =
          ctx.str b (((ctx.load32 b thunk).toNat + 2) % b.space) := by
        apply str_poke
        by_contra near
        exact untouched (.inr ⟨nonzero, .inr (.inl ⟨snap, by omega⟩)⟩)
      simp only [Bool.false_eq_true, if_false, image, name]
  refine ⟨?_, query⟩
  have slot : 4 ≤ dist b.space function a := by
    by_contra near
    exact untouched (.inr ⟨nonzero, .inr (.inr (by omega))⟩)
  simp only [DllContext.answered, query, DllContext.callResolve]
  have queries : (ctx.poke a v).queries = ctx.queries := rfl
  rw [queries]
  cases (inp.answer ctx.queries (thunkQuery b imageName (ctx.load32 b thunk) ctx)).result with
  | none => rfl
  | some w =>
    exact @store32_poke b { ctx with
      queries := thunkQuery b imageName (ctx.load32 b thunk) ctx :: ctx.queries } a v function w slot

theorem resolveThunk_poke (nonzero : ctx.load32 b thunk ≠ 0)
    (h : resolveThunk b inp imageName function (ctx.load32 b thunk) ctx = .ok ctx') :
    resolveThunk b inp imageName function (ctx.load32 b thunk) (ctx.poke a v) = .ok (ctx'.poke a v) := by
  obtain ⟨answered, query⟩ := @answered_poke b inp ctx a v at_ imageName thunk function untouched nonzero
  have ends := @resolveThunk_ends b inp ctx imageName function (ctx.load32 b thunk)
  have ends' := @resolveThunk_ends b inp (ctx.poke a v) imageName function (ctx.load32 b thunk)
  rw [h] at ends
  obtain ⟨found, rfl⟩ := ends
  cases resolved : resolveThunk b inp imageName function (ctx.load32 b thunk) (ctx.poke a v) with
  | ok c =>
    rw [resolved] at ends'
    rw [ends'.2, answered]
  | error c =>
    rw [resolved, query] at ends'
    have refused := ends'.1
    have queries : (ctx.poke a v).queries = ctx.queries := rfl
    rw [queries, found] at refused
    cases refused

end Thunk

/-- A round of the import loops that does not touch the byte. -/
theorem importTurn_poke {pc pc' : ImportPc} (lt : a < b.space) (untouched : ¬ ImportTouches b (pc, ctx) a)
    (h : importTurn b inp (pc, ctx) = .again (pc', ctx')) :
    importTurn b inp (pc, ctx.poke a v) = .again (pc', ctx'.poke a v) := by
  cases pc with
  | descriptor at_ =>
    have same := @descriptor_poke b ctx a v at_ lt (Nat.not_lt.mp untouched)
    simp only [importTurn, same] at h ⊢
    split at h
    · cases h
    · next named =>
      split at h
      · cases h
      · next chain =>
        cases h
        rw [if_neg named, if_neg chain]
  | thunk at_ imageName thunk function =>
    have same := @thunk_poke b ctx a v at_ imageName thunk function untouched
    by_cases zero : ctx.load32 b thunk = 0
    · simp only [importTurn, same, if_pos zero] at h ⊢
      cases h
      rfl
    · rw [importTurn_thunk (by rwa [same]), same]
      rw [importTurn_thunk zero] at h
      cases resolved : resolveThunk b inp imageName function (ctx.load32 b thunk) ctx with
      | error c => rw [resolved] at h; cases h
      | ok c =>
        rw [resolved] at h
        cases h
        rw [resolveThunk_poke untouched zero resolved]

/-- The round that ends the import loops. -/
theorem importTurn_poke_leave {pc : ImportPc} (lt : a < b.space)
    (untouched : ¬ ImportTouches b (pc, ctx) a) (h : importTurn b inp (pc, ctx) = .leave (.ok ctx')) :
    importTurn b inp (pc, ctx.poke a v) = .leave (.ok (ctx'.poke a v)) := by
  cases pc with
  | descriptor at_ =>
    have same := @descriptor_poke b ctx a v at_ lt (Nat.not_lt.mp untouched)
    simp only [importTurn, same] at h ⊢
    split at h
    · next ends =>
      cases h
      rw [if_pos ends]
    · split at h <;> cases h
  | thunk at_ imageName thunk function =>
    simp only [importTurn] at h
    split at h
    · cases h
    · cases resolved : resolveThunk b inp imageName function (ctx.load32 b thunk) ctx with
      | error c => rw [resolved] at h; cases h
      | ok c => rw [resolved] at h; cases h

section Relocs

variable {newBase : UInt32} {delta : Int32}

/-- A round of the relocation loops that does not touch the byte. -/
theorem relocTurn_poke {pc pc' : RelocPc} (untouched : ¬ RelocTouches b (pc, ctx) a)
    (h : relocTurn b newBase delta (pc, ctx) = .again (pc', ctx')) :
    relocTurn b newBase delta (pc, ctx.poke a v) = .again (pc', ctx'.poke a v) := by
  cases pc with
  | block start =>
    obtain ⟨address, size⟩ := not_or.mp untouched
    have sameAddress := @load32_poke b ctx a v start (Nat.not_lt.mp address)
    have sameSize := @load32_poke b ctx a v (start + 4) (Nat.not_lt.mp size)
    simp only [relocTurn, sameAddress, sameSize] at h ⊢
    split at h
    · next positive =>
      cases h
      rw [if_pos positive]
    · cases h
  | entry dest entry relocationEnd =>
    obtain ⟨word, target⟩ := not_or.mp untouched
    have same := @load16_poke b ctx a v entry (Nat.not_lt.mp word)
    by_cases fixup : IsFixup b ctx entry relocationEnd
    · have fixup' : IsFixup b (ctx.poke a v) entry relocationEnd := by
        refine ⟨fixup.1, ?_⟩
        rw [same]
        exact fixup.2
      have sameTarget : fixupTarget b (ctx.poke a v) dest entry = fixupTarget b ctx dest entry := by
        rw [fixupTarget, same]
        rfl
      have far : 4 ≤ dist b.space (fixupTarget b ctx dest entry) a := by
        by_contra near
        exact target ⟨fixup, by omega⟩
      rw [relocTurn_fixup fixup] at h
      rw [relocTurn_fixup fixup', sameTarget, load32_poke far, store32_poke far]
      cases h
      rfl
    · have image : (ctx.poke a v).output = ctx.output := rfl
      simp only [relocTurn, same, image] at h ⊢
      split at h
      · next below =>
        split at h
        · next absolute =>
          cases h
          rw [if_pos below, if_pos absolute]
        · split at h
          · next high => exact absurd ⟨below, high⟩ fixup
          · cases h
      · next past =>
        cases h
        rw [if_neg past]

theorem relocTurn_poke_leave {pc : RelocPc} (untouched : ¬ RelocTouches b (pc, ctx) a)
    (h : relocTurn b newBase delta (pc, ctx) = .leave (.ok ctx')) :
    relocTurn b newBase delta (pc, ctx.poke a v) = .leave (.ok (ctx'.poke a v)) := by
  cases pc with
  | block start =>
    obtain ⟨address, _⟩ := not_or.mp untouched
    have sameAddress := @load32_poke b ctx a v start (Nat.not_lt.mp address)
    simp only [relocTurn, sameAddress] at h ⊢
    split at h
    · cases h
    · next zero =>
      cases h
      rw [if_neg zero]
      rfl
  | entry dest entry relocationEnd =>
    simp only [relocTurn] at h
    split at h
    · split at h
      · cases h
      · split at h <;> cases h
    · cases h

end Relocs

/-! ## Loads that leave a byte alone -/

theorem stopped_leave {pc : Type} {t : Turn (pc × DllContext) Pass} {r : Pass}
    (h : stopped t = .leave r) : t = .leave r := by
  cases t with
  | again s => cases h
  | leave r' => cases h; rfl

/-- The import pass, when no round of it touches the byte. -/
theorem dllResolveImports_poke {n : Nat} (lt : a < b.space)
    (untouched : (ctx.output.header.optionalHeader.dataDirectory imageDirectoryEntryImport).size ≠ 0 →
      ∀ s, Steps (importTurn b inp) (importEntry ctx) s → ¬ ImportTouches b s a)
    (h : dllResolveImports b inp n ctx = .leave (.ok ctx')) :
    ∃ n', dllResolveImports b inp n' (ctx.poke a v) = .leave (.ok (ctx'.poke a v)) := by
  by_cases none : (ctx.output.header.optionalHeader.dataDirectory imageDirectoryEntryImport).size = 0
  · rw [dllResolveImports_none none] at h
    cases h
    exact ⟨0, @dllResolveImports_none b inp (ctx.poke a v) none 0⟩
  · rw [dllResolveImports_run none] at h
    obtain ⟨⟨pc, c⟩, steps, leave⟩ := run_returns _ _ (stopped_leave h)
    have poked := steps.map (f := fun s => (s.1, s.2.poke a v)) fun t t' reached turn =>
      importTurn_poke lt (untouched none t reached) turn
    have left := importTurn_poke_leave (v := v) lt (untouched none _ steps) leave
    obtain ⟨n', runs⟩ := @dllResolveImports_returns b inp (ctx.poke a v) _ none ⟨_, poked, left⟩
    exact ⟨n', runs n' (Nat.le_refl _)⟩

/-- The relocation pass, likewise. -/
theorem dllRelocate_poke {n : Nat} {newBase : UInt32}
    (untouched : newBase ≠ ctx.output.header.optionalHeader.imageBase →
      (ctx.output.header.optionalHeader.dataDirectory imageDirectoryEntryBaseReloc).size ≠ 0 →
      ∀ s, Steps (rebaseTurn b newBase ctx) (relocEntry ctx) s → ¬ RelocTouches b s a)
    (h : dllRelocate b n newBase ctx = .leave (.ok ctx')) :
    ∃ n', dllRelocate b n' newBase (ctx.poke a v) = .leave (.ok (ctx'.poke a v)) := by
  by_cases same : newBase = ctx.output.header.optionalHeader.imageBase
  · rw [dllRelocate_same same] at h
    cases h
    exact ⟨0, @dllRelocate_same b (ctx.poke a v) newBase same 0⟩
  by_cases none :
      (ctx.output.header.optionalHeader.dataDirectory imageDirectoryEntryBaseReloc).size = 0
  · rw [dllRelocate_none same none] at h
    cases h
  · rw [dllRelocate_run same none] at h
    obtain ⟨⟨pc, c⟩, steps, leave⟩ := run_returns _ _ (stopped_leave h)
    have poked := steps.map (f := fun s => (s.1, s.2.poke a v)) fun t t' reached turn => by
      have next := relocTurn_poke (v := v) (untouched same none t reached) turn
      exact next
    have left := relocTurn_poke_leave (v := v) (untouched same none _ steps) leave
    obtain ⟨n', runs⟩ := @dllRelocate_returns b (ctx.poke a v) newBase _ same none ⟨_, poked, left⟩
    exact ⟨n', runs n' (Nat.le_refl _)⟩

/-- A byte that a load leaves stale is in its image, whatever it is. -/
theorem leavesStale_loads (leaves : inp.LeavesStale b stale a) (v : UInt8) :
    ∃ n c, dllLoad b inp n (.initial {} (Function.update stale a v)) = .leave (.ok c) ∧
      c.image a = v := by
  obtain ⟨n, c, load⟩ := leaves.loads
  have loaded : Loaded b inp [] c := dllLoad_ends load clean_nil
  have lt : a < b.space := Nat.lt_trans leaves.inImage (b.word_lt _)
  obtain ⟨c₁, imports, relocs⟩ := (@dllLoad_ok_iff b inp (.initial {} stale) c n loaded.passes).mp load
  have header := (Kept.loaded (dllResolveImports_ends imports)).2.2.2.1
  have header₀ := (Kept.loaded (Kept.refl ((DllContext.initial {} stale).reset.fileParsed b inp))).2.2.2.1
  -- the file passes put nothing there
  have mapped : (DllContext.initial {} (Function.update stale a v)).reset.fileParsed b inp =
      ((DllContext.initial {} stale).reset.fileParsed b inp).poke a v := by
    rw [initial_fileParsed, initial_fileParsed _ stale]
    simp only [DllContext.poke]
    congr 1
    funext a'
    by_cases same : a' = a
    · subst same
      rw [mapped_stale leaves.uncovered, Function.update_self, Function.update_self]
    · rw [Function.update_of_ne same, DllLoaderInput.mapped, Function.update_of_ne same]
      rfl
  obtain ⟨n₁, imports'⟩ := @dllResolveImports_poke b inp _ _ a v n lt (fun directory s steps =>
    leaves.imports s ⟨loaded.passes, by rwa [header₀] at directory, steps⟩) imports
  obtain ⟨n₂, relocs'⟩ := @dllRelocate_poke b _ _ a v n _ (fun differs directory s steps =>
    leaves.relocs c₁ s ⟨loaded.passes, ⟨n, imports⟩, by rwa [header] at differs,
      by rwa [header] at directory, steps⟩) relocs
  refine ⟨n₁ + n₂, c.poke a v, ?_, Function.update_self _ _ _⟩
  apply (@dllLoad_ok_iff b inp (.initial {} (Function.update stale a v)) _ _ loaded.passes).mpr
  rw [mapped]
  exact ⟨_, dllResolveImports_mono imports' (by omega), dllRelocate_mono relocs' (by omega)⟩

/-- The image does not depend on what its block held when the file, if it is
mapped at all, covers all of the image; it does when some load leaves a byte
stale. -/
theorem dllLoad_stale : ((inp.FilePasses b [] → inp.AllCovered b) → inp.StaleFree b) ∧
    ((∃ stale a, inp.LeavesStale b stale a) → ¬ inp.StaleFree b) := by
  refine ⟨staleFree_of_covered, fun ⟨stale, a, leaves⟩ free => ?_⟩
  obtain ⟨n, c, load, byte⟩ := leavesStale_loads leaves 1
  have zero := free.zero _ _ n c load a leaves.inImage leaves.uncovered
  rw [byte] at zero
  cases zero

/-- A file whose image is `0x200` bytes, of which its headers cover `0x138`. -/
def bssDll : DllLoaderInput := fileOf (headerWords 0 0x30000 0x200 0x138 0x1234) 0x138 0x30000

/-- A block of `0x200` bytes that all hold `0xCC`. -/
def filledBlock : Bytes := fun a => if a < 0x200 then 0xCC else 0

/-- The byte at `0x1FF` is what the block held there. -/
theorem bssDll_stale : ¬ bssDll.StaleFree .target := by
  intro free
  have run : (loaded? (dllLoad .target bssDll 0 (.initial {} filledBlock))).map (·.image 0x1FF) =
      some 0xCC := by decide +kernel
  have run' : (loaded? (dllLoad .target bssDll 0 (.initial {} fun _ => 0))).map (·.image 0x1FF) =
      some 0 := by decide +kernel
  obtain ⟨c, load, byte⟩ := loaded?_eq run
  obtain ⟨c', load', byte'⟩ := loaded?_eq run'
  have size : bssDll.imageSize .target = 0x200 := by decide +kernel
  have outside : ∀ a ≥ bssDll.imageSize .target, filledBlock a = 0 := by
    intro a beyond
    rw [size] at beyond
    exact if_neg (Nat.not_lt.mpr beyond)
  have same := free.same {} {} _ _ _ _ c c' outside load load' 0x1FF (by rw [size]; decide)
  rw [byte, byte'] at same
  cases same

theorem staleFree_samples : emptyDll.StaleFree .target ∧ ¬ bssDll.StaleFree .target := by
  refine ⟨dllLoad_stale.1 fun _ => ?_, dllLoad_stale.2 ⟨fun _ => 0, 0x1FF, ?_⟩⟩
  · show ∀ a < emptyDll.imageSize .target, _
    decide +kernel
  · have run : (loaded? (dllLoad .target bssDll 0 (.initial {} fun _ => 0))).map (·.output.image) =
        some 0x30000 := by decide +kernel
    obtain ⟨c, load, _⟩ := loaded?_eq run
    refine ⟨by decide +kernel, by decide +kernel, ⟨0, c, load⟩, ?_, ?_⟩
    · intro s reached
      exact absurd (by decide +kernel) reached.directory
    · intro resolved s reached
      exact absurd (by decide +kernel) reached.differs

end Dyndxt.Loader
