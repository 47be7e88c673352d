import Dyndxt.Mem.Patch
import Dyndxt.Loader.ImageWrites

/-!
# Relocating by a table

A relocation table as data, and where an image holds it. On such an image the
relocation loops visit each entry once and come to the terminating zero: what
they do is add the delta to each fixup listed. Their entry pointer starts
`sizeof(relocation_start)` bytes into a block, so on the target they read the
two halves of `SizeOfBlock` as entries first, of the type that is skipped.
-/

namespace Dyndxt.Loader
open Dyndxt.Mem Dyndxt.Pool Dyndxt.Run

/-- A block of a relocation table, of `8 + 2 * entries.length` bytes. -/
structure RelocBlock where
  virtualAddress : UInt32
  entries : List UInt16
deriving DecidableEq, Repr

/-- `SizeOfBlock`. -/
def RelocBlock.size (block : RelocBlock) : Nat := 8 + 2 * block.entries.length

/-- The words the entries of a block are about. -/
def fixupsOf (dest : Nat) (entries : List UInt16) : List Nat :=
  (entries.filter fun e : UInt16 => decide (e >>> 12 = imageRelBasedHighLow)).map
    fun e : UInt16 => dest + (e &&& 0x0FFF).toNat

/-- The words a table lists. -/
def fixups (blocks : List RelocBlock) : List Nat :=
  blocks.flatMap fun block => fixupsOf block.virtualAddress.toNat block.entries

/-- The types the loader knows. -/
def KnownType (e : UInt16) : Prop := e >>> 12 = imageRelBasedAbsolute ∨ e >>> 12 = imageRelBasedHighLow

instance (e : UInt16) : Decidable (KnownType e) := inferInstanceAs (Decidable (_ ∨ _))

/-- A block the loader can walk. -/
structure RelocBlock.Ok (block : RelocBlock) : Prop where
  virtualAddress : block.virtualAddress ≠ 0
  size : block.size < 0x1000
  types : ∀ e ∈ block.entries, KnownType e

/-- The blocks stand at `p`, one after another, and a zero follows them. -/
def RelocTableAt (M : Nat) (m : Bytes) : Nat → List RelocBlock → Prop
  | p, [] => u32 M m p = 0
  | p, block :: blocks =>
    u32 M m p = block.virtualAddress ∧ (u32 M m (p + 4)).toNat = block.size ∧
      (∀ i (h : i < block.entries.length), u16 M m (p + 8 + 2 * i) = block.entries[i]) ∧
      RelocTableAt M m (p + block.size) blocks

/-- One past a table at `p`, its terminating zero included. -/
def relocTableEnd : Nat → List RelocBlock → Nat
  | p, [] => p + 4
  | p, block :: blocks => relocTableEnd (p + block.size) blocks

variable {b : Build} {M p : Nat} {m m' : Bytes} {blocks : List RelocBlock} {ctx ctx' : DllContext}
  {newBase : UInt32} {delta : Int32} {dest : Nat}

theorem le_relocTableEnd : p + 4 ≤ relocTableEnd p blocks := by
  induction blocks generalizing p with
  | nil => exact Nat.le_refl _
  | cons block blocks ih =>
    have rest := @ih (p + block.size)
    simp only [relocTableEnd]
    omega

/-- A table is where its bytes are. -/
theorem RelocTableAt.congr (h : RelocTableAt M m p blocks)
    (same : SameOn p (relocTableEnd p blocks) m m') (fits : relocTableEnd p blocks ≤ M) :
    RelocTableAt M m' p blocks := by
  induction blocks generalizing p with
  | nil => exact (same.u32 (Nat.le_refl p) (Nat.le_refl _) fits).trans h
  | cons block blocks ih =>
    obtain ⟨address, size, entries, rest⟩ := h
    have room : p + block.size + 4 ≤ relocTableEnd (p + block.size) blocks := le_relocTableEnd
    have length : block.size = 8 + 2 * block.entries.length := rfl
    refine ⟨?_, ?_, ?_, ?_⟩
    · exact (same.u32 (Nat.le_refl p) (by simp only [relocTableEnd]; omega) fits).trans address
    · rw [same.u32 (by omega) (by simp only [relocTableEnd]; omega) fits]
      exact size
    · intro i lt
      rw [same.u16 (by omega) (by simp only [relocTableEnd]; omega) fits]
      exact entries i lt
    · exact ih rest (same.mono (by omega) (Nat.le_refl _)) fits

/-! ## The entry loop -/

/-- The delta added to each word listed, and nothing else changed. -/
structure Patched (b : Build) (delta : Int32) (words : List Nat) (ctx ctx' : DllContext) : Prop
    extends Kept ctx ctx' where
  image : ctx'.image = addAll b.space delta.toUInt32 words ctx.image

theorem Patched.refl : Patched b delta [] ctx ctx := ⟨Kept.refl ctx, rfl⟩

theorem Patched.trans {words words' : List Nat} {ctx'' : DllContext} (h : Patched b delta words ctx ctx')
    (h' : Patched b delta words' ctx' ctx'') : Patched b delta (words ++ words') ctx ctx'' :=
  ⟨h.toKept.trans h'.toKept, by rw [addAll_append, h'.image, h.image]⟩

theorem fixupsOf_cons {e : UInt16} {entries : List UInt16} : fixupsOf dest (e :: entries) =
    (if e >>> 12 = imageRelBasedHighLow then [dest + (e &&& 0x0FFF).toNat] else []) ++
      fixupsOf dest entries := by
  unfold fixupsOf
  by_cases high : e >>> 12 = imageRelBasedHighLow
  · simp [high]
  · simp [high]

/-- An entry's round. -/
theorem entry_again {e : UInt16} {entry relocationEnd : Nat} (here : ctx.load16 b entry = e)
    (known : KnownType e) (next : entry + 2 ≤ relocationEnd)
    (room : ctx.output.image + relocationEnd < b.space)
    (fits : ∀ w ∈ fixupsOf dest [e], w + 4 ≤ b.space) :
    ∃ ctx', relocTurn b newBase delta (.entry dest entry relocationEnd, ctx) =
        .again (.entry dest (entry + 2) relocationEnd, ctx') ∧
      Patched b delta (fixupsOf dest [e]) ctx ctx' := by
  have below : (ctx.output.image + entry) % b.space < (ctx.output.image + relocationEnd) % b.space := by
    rw [Nat.mod_eq_of_lt (by omega), Nat.mod_eq_of_lt room]
    omega
  have step : (entry + 2) % b.space = entry + 2 := Nat.mod_eq_of_lt (by omega)
  rcases known with absolute | high
  · refine ⟨ctx, ?_, ?_⟩
    · simp only [relocTurn, if_pos below, here, if_pos absolute, step]
    · have skipped : fixupsOf dest [e] = [] := by
        simp [fixupsOf, absolute, imageRelBasedAbsolute, imageRelBasedHighLow]
      rw [skipped]
      exact Patched.refl
  · have listed : fixupsOf dest [e] = [dest + (e &&& 0x0FFF).toNat] := by simp [fixupsOf, high]
    have target : fixupTarget b ctx dest entry = dest + (e &&& 0x0FFF).toNat := by
      have := fits _ (by rw [listed]; exact List.mem_singleton_self _)
      rw [fixupTarget, here]
      exact Nat.mod_eq_of_lt (by omega)
    have turn := @relocTurn_fixup b ctx newBase delta dest entry relocationEnd
      ⟨below, by rw [here]; exact high⟩
    rw [step] at turn
    refine ⟨_, turn, ?_⟩
    rw [listed, target]
    exact ⟨kept_store32 _ _, rfl⟩

/-- The entry loop, over entries that none of its fixups overlaps. -/
theorem entries_run (entries : List UInt16) {entry relocationEnd : Nat}
    (here : ∀ i (h : i < entries.length), ctx.load16 b (entry + 2 * i) = entries[i])
    (length : relocationEnd = entry + 2 * entries.length) (known : ∀ e ∈ entries, KnownType e)
    (room : ctx.output.image + relocationEnd < b.space)
    (fits : ∀ w ∈ fixupsOf dest entries, w + 4 ≤ b.space)
    (clear : ∀ w ∈ fixupsOf dest entries, w + 4 ≤ entry ∨ relocationEnd ≤ w) :
    ∃ ctx', Steps (relocTurn b newBase delta) (.entry dest entry relocationEnd, ctx)
        (.entry dest relocationEnd relocationEnd, ctx') ∧
      Patched b delta (fixupsOf dest entries) ctx ctx' := by
  induction entries generalizing ctx entry with
  | nil =>
    obtain rfl : relocationEnd = entry := length
    exact ⟨ctx, .refl _, Patched.refl⟩
  | cons e entries ih =>
    have split : fixupsOf dest (e :: entries) = fixupsOf dest [e] ++ fixupsOf dest entries := by
      rw [fixupsOf_cons, fixupsOf_cons]
      simp [fixupsOf]
    rw [split] at fits clear ⊢
    simp only [List.length_cons] at length
    obtain ⟨ctx₁, first, patched⟩ := @entry_again b ctx newBase delta dest e entry relocationEnd
      (here 0 (by simp)) (known e (by simp)) (by omega) room
      (fun w listed => fits w (List.mem_append_left _ listed))
    have same : SameOn entry relocationEnd ctx.image ctx₁.image := by
      rw [patched.image]
      apply addAll_sameOn (fun w listed => fits w (List.mem_append_left _ listed)) (by omega)
      exact fun w listed => clear w (List.mem_append_left _ listed)
    obtain ⟨ctx', rest, patched'⟩ := @ih ctx₁ (entry + 2)
      (by
        intro i lt
        have before := here (i + 1) (by simp only [List.length_cons]; omega)
        rw [List.getElem_cons_succ, show entry + 2 * (i + 1) = entry + 2 + 2 * i by omega] at before
        exact (same.u16 (by omega) (by omega) (by omega)).trans before)
      (by omega) (fun e listed => known e (by simp [listed]))
      (by rw [patched.imagePtr]; exact room)
      (fun w listed => fits w (List.mem_append_right _ listed))
      (fun w listed => by
        have := clear w (List.mem_append_right _ listed)
        omega)
    exact ⟨ctx', .step first rest, patched.trans patched'⟩

/-! ## The block loop -/

/-- What the loop reads of a block as entries: on the target the halves of its
size come first. -/
def RelocBlock.words (b : Build) (block : RelocBlock) : List UInt16 :=
  match b with
  | .target => .ofNat block.size :: 0 :: block.entries
  | .host => block.entries

/-- The size of a block, read as an entry, is skipped. -/
theorem RelocBlock.Ok.size_absolute {block : RelocBlock} (ok : block.Ok) :
    (UInt16.ofNat block.size) >>> 12 = imageRelBasedAbsolute := by
  have small := ok.size
  apply UInt16.toNat_inj.mp
  rw [UInt16.toNat_shiftRight, UInt16.toNat_ofNat', Nat.mod_eq_of_lt (by omega)]
  show block.size >>> 12 = 0
  rw [Nat.shiftRight_eq_div_pow]
  exact Nat.div_eq_of_lt small

theorem RelocBlock.Ok.words_known {block : RelocBlock} (ok : block.Ok) :
    ∀ e ∈ block.words b, KnownType e := by
  cases b with
  | host => exact ok.types
  | target =>
    simp only [RelocBlock.words, List.mem_cons, forall_eq_or_imp]
    exact ⟨.inl ok.size_absolute, .inl (by decide), ok.types⟩

theorem RelocBlock.Ok.words_fixups {block : RelocBlock} (ok : block.Ok) :
    fixupsOf dest (block.words b) = fixupsOf dest block.entries := by
  cases b with
  | host => rfl
  | target =>
    have size : ¬ (UInt16.ofNat block.size) >>> 12 = imageRelBasedHighLow := by
      rw [ok.size_absolute]
      decide
    have zero : ¬ (0 : UInt16) >>> 12 = imageRelBasedHighLow := by decide
    rw [RelocBlock.words, fixupsOf_cons, fixupsOf_cons, if_neg size, if_neg zero]
    rfl

/-- The entry loop's range is that of the words. -/
theorem RelocBlock.size_words (block : RelocBlock) :
    block.size = b.sizeofPtr + 2 * (block.words b).length := by
  cases b with
  | host => rfl
  | target =>
    simp only [RelocBlock.size, RelocBlock.words, Build.sizeofPtr, List.length_cons]
    omega

theorem RelocBlock.Ok.words_at {block : RelocBlock} (ok : block.Ok)
    (size : (u32 M m (p + 4)).toNat = block.size)
    (entries : ∀ i (h : i < block.entries.length), u16 M m (p + 8 + 2 * i) = block.entries[i]) :
    ∀ i (h : i < (block.words b).length), u16 M m (p + b.sizeofPtr + 2 * i) = (block.words b)[i] := by
  cases b with
  | host => exact entries
  | target =>
    have small := ok.size
    intro i lt
    match i, lt with
    | 0, _ =>
      apply UInt16.toNat_inj.mp
      show (u16 M m (p + 4)).toNat = (UInt16.ofNat block.size).toNat
      rw [u16_low, size, UInt16.toNat_ofNat']
    | 1, _ =>
      apply UInt16.toNat_inj.mp
      show (u16 M m (p + 4 + 2)).toNat = 0
      rw [u16_high, size]
      omega
    | i + 2, lt =>
      have inner : i < block.entries.length := by
        simpa [RelocBlock.words] using lt
      show u16 M m (p + 4 + 2 * (i + 2)) = block.entries[i]
      rw [← entries i inner]
      congr 1
      omega

/-- The rounds of one block that its fixups do not overlap. -/
theorem block_run {block : RelocBlock} (blockOk : block.Ok)
    (address : ctx.load32 b p = block.virtualAddress) (size : (ctx.load32 b (p + 4)).toNat = block.size)
    (entries : ∀ i (h : i < block.entries.length), ctx.load16 b (p + 8 + 2 * i) = block.entries[i])
    (room : ctx.output.image + (p + block.size) < b.space)
    (fits : ∀ w ∈ fixupsOf block.virtualAddress.toNat block.entries, w + 4 ≤ b.space)
    (clear : ∀ w ∈ fixupsOf block.virtualAddress.toNat block.entries, w + 4 ≤ p ∨ p + block.size ≤ w) :
    ∃ ctx', Steps (relocTurn b newBase delta) (.block p, ctx) (.block (p + block.size), ctx') ∧
      Patched b delta (fixupsOf block.virtualAddress.toNat block.entries) ctx ctx' := by
  have words := @RelocBlock.size_words b block
  have enter : relocTurn b newBase delta (.block p, ctx) =
      .again (.entry block.virtualAddress.toNat (p + b.sizeofPtr) (p + block.size), ctx) := by
    have turn := @relocTurn_block b ctx newBase delta p (by rw [address]; exact blockOk.virtualAddress)
      (by omega) (by rw [size]; omega)
    rwa [address, size] at turn
  obtain ⟨ctx₁, walk, patched⟩ := @entries_run b ctx newBase delta block.virtualAddress.toNat
    (block.words b) (p + b.sizeofPtr) (p + block.size) (blockOk.words_at size entries) (by omega)
    blockOk.words_known room
    (by rw [blockOk.words_fixups]; exact fits)
    (by
      rw [blockOk.words_fixups]
      intro w listed
      have := clear w listed
      omega)
  rw [blockOk.words_fixups] at patched
  have leave : relocTurn b newBase delta
      (.entry block.virtualAddress.toNat (p + block.size) (p + block.size), ctx₁) =
      .again (.block (p + block.size), ctx₁) := if_neg (Nat.lt_irrefl _)
  exact ⟨ctx₁, .step enter (walk.snoc leave), patched⟩

/-- The loops over a table that its fixups do not overlap: each fixup patched,
and then the code behind them. -/
theorem table_run (ok : ∀ block ∈ blocks, block.Ok) (table : RelocTableAt b.space ctx.image p blocks)
    (room : ctx.output.image + relocTableEnd p blocks ≤ b.space)
    (fits : ∀ w ∈ fixups blocks, w + 4 ≤ b.space)
    (clear : ∀ w ∈ fixups blocks, w + 4 ≤ p ∨ relocTableEnd p blocks ≤ w) :
    ∃ ctx', Returns (relocTurn b newBase delta) (.block p, ctx) (.ok (rebased newBase ctx')) ∧
      Patched b delta (fixups blocks) ctx ctx' := by
  induction blocks generalizing ctx p with
  | nil =>
    refine ⟨ctx, returns_leave ?_, Patched.refl⟩
    have ends : ctx.load32 b p = 0 := table
    simp [relocTurn, ends]
  | cons block blocks ih =>
    obtain ⟨address, size, entries, rest⟩ := table
    have behind : p + block.size + 4 ≤ relocTableEnd (p + block.size) blocks := le_relocTableEnd
    have tableEnd : relocTableEnd p (block :: blocks) = relocTableEnd (p + block.size) blocks := rfl
    have split : fixups (block :: blocks) =
        fixupsOf block.virtualAddress.toNat block.entries ++ fixups blocks := List.flatMap_cons
    rw [tableEnd] at room clear
    rw [split] at fits clear ⊢
    obtain ⟨ctx₁, walk, patched⟩ := @block_run b p ctx newBase delta block (ok block (by simp)) address size
      entries (by omega) (fun w listed => fits w (List.mem_append_left _ listed)) (by
        intro w listed
        have := clear w (List.mem_append_left _ listed)
        omega)
    -- the rest of the table is not patched
    have same : SameOn (p + block.size) (relocTableEnd (p + block.size) blocks) ctx.image ctx₁.image := by
      rw [patched.image]
      apply addAll_sameOn (fun w listed => fits w (List.mem_append_left _ listed)) (by omega)
      intro w listed
      have := clear w (List.mem_append_left _ listed)
      omega
    obtain ⟨ctx', returns, patched'⟩ := @ih (p + block.size) ctx₁
      (fun block listed => ok block (by simp [listed])) (rest.congr same (by omega))
      (by rw [patched.imagePtr]; exact room) (fun w listed => fits w (List.mem_append_right _ listed))
      (by
        intro w listed
        have := clear w (List.mem_append_right _ listed)
        omega)
    exact ⟨ctx', walk.returns returns, patched.trans patched'⟩

/-! ## `DLLRelocate` -/

/-- The two signed branches are one subtraction modulo `2 ^ 32`. -/
theorem imageDelta_toUInt32 (headerImageBase newBase : UInt32) :
    (imageDelta headerImageBase newBase).toUInt32 = newBase - headerImageBase := by
  unfold imageDelta
  split
  case isTrue => rfl
  case isFalse =>
    have minusOne : (-1 : Int32).toUInt32 = -1 := by decide
    rw [Int32.toUInt32_mul, minusOne, UInt32.toUInt32_toInt32]
    grind

/-- An image with a relocation table that the loader can walk: the table, its
terminating zero included, lies in the image, and so do the fixups, which are
equal or disjoint and clear of the table. -/
structure Relocatable (b : Build) (ctx : DllContext) (blocks : List RelocBlock) : Prop where
  directory : (ctx.output.header.optionalHeader.dataDirectory imageDirectoryEntryBaseReloc).size ≠ 0
  ok : ∀ block ∈ blocks, block.Ok
  table : RelocTableAt b.space ctx.image
    (ctx.output.header.optionalHeader.dataDirectory imageDirectoryEntryBaseReloc).virtualAddress.toNat blocks
  inImage : relocTableEnd
    (ctx.output.header.optionalHeader.dataDirectory imageDirectoryEntryBaseReloc).virtualAddress.toNat
    blocks ≤ ctx.output.header.optionalHeader.sizeOfImage.toNat
  space : ctx.output.image + ctx.output.header.optionalHeader.sizeOfImage.toNat ≤ b.space
  fixupsIn : ∀ w ∈ fixups blocks, w + 4 ≤ ctx.output.header.optionalHeader.sizeOfImage.toNat
  apart : ∀ w ∈ fixups blocks, ∀ w' ∈ fixups blocks, Apart w w'
  clear : ∀ w ∈ fixups blocks,
    w + 4 ≤ (ctx.output.header.optionalHeader.dataDirectory
      imageDirectoryEntryBaseReloc).virtualAddress.toNat ∨
    relocTableEnd (ctx.output.header.optionalHeader.dataDirectory
      imageDirectoryEntryBaseReloc).virtualAddress.toNat blocks ≤ w

/-- What relocating an image from its base to another leaves: the difference
added to every fixup. -/
structure Relocated (b : Build) (blocks : List RelocBlock) (newBase : UInt32) (ctx ctx' : DllContext) :
    Prop where
  image : ∀ a < b.space, ctx'.image a =
    addAll b.space (newBase - ctx.output.header.optionalHeader.imageBase) (fixups blocks) ctx.image a
  header : ctx'.output.header =
    { ctx.output.header with optionalHeader.imageBase := newBase }
  imagePtr : ctx'.output.image = ctx.output.image
  status : ctx'.output.status = ctx.output.status
  entrypoint : ctx'.output.entrypoint =
    if newBase = ctx.output.header.optionalHeader.imageBase then ctx.output.entrypoint
    else newBase + ctx.output.header.optionalHeader.addressOfEntryPoint

theorem Relocatable.fits (h : Relocatable b ctx blocks) : ∀ w ∈ fixups blocks, w + 4 ≤ b.space := by
  intro w listed
  have inside := h.fixupsIn w listed
  have := b.word_lt ctx.output.header.optionalHeader.sizeOfImage
  omega

/-- `DLLRelocate` returns true on a relocatable image, with the image
relocated. -/
theorem dllRelocate_relocates (h : Relocatable b ctx blocks) (newBase : UInt32) :
    ∃ n ctx', (∀ budget ≥ n, dllRelocate b budget newBase ctx = .leave (.ok ctx')) ∧
      Relocated b blocks newBase ctx ctx' := by
  by_cases same : newBase = ctx.output.header.optionalHeader.imageBase
  · refine ⟨0, _, fun budget _ => dllRelocate_same same budget, ?_⟩
    constructor
    · intro a lt
      rw [same, UInt32.sub_self, addAll_zero h.fits h.apart lt]
      rfl
    · rw [same]; rfl
    · rfl
    · rfl
    · rw [if_pos same]; rfl
  · have table := h.table
    obtain ⟨ctx', returns, patched⟩ := @table_run b _ blocks (ctx.setErrorContext .relocate) newBase
      (imageDelta ctx.output.header.optionalHeader.imageBase newBase) h.ok table
      (by have := h.inImage; have := h.space; exact Nat.le_trans (Nat.add_le_add_left h.inImage _) h.space)
      h.fits h.clear
    obtain ⟨n, leaves⟩ := dllRelocate_returns same h.directory returns
    refine ⟨n, _, leaves, ?_⟩
    have header : ctx'.output.header = ctx.output.header := patched.header
    constructor
    · intro a lt
      rw [← imageDelta_toUInt32]
      exact congrFun patched.image a
    · simp only [rebased, header]
    · exact patched.imagePtr
    · exact patched.status
    · simp only [rebased, header, if_neg same]

/-- Relocating leaves an image that can be relocated again, by the same
table. -/
theorem Relocated.relocatable (moved : Relocated b blocks newBase ctx ctx')
    (h : Relocatable b ctx blocks) : Relocatable b ctx' blocks := by
  have header := moved.header
  have inImage := h.inImage
  have space := h.space
  have fits := h.fits
  refine ⟨?_, h.ok, ?_, ?_, ?_, ?_, h.apart, ?_⟩
  · rw [header]; exact h.directory
  · rw [header]
    refine h.table.congr ?_ (by omega)
    intro a low high
    rw [moved.image a (by omega)]
    exact addAll_sameOn fits (by omega) h.clear a low high
  · rw [header]; exact inImage
  · rw [header, moved.imagePtr]; exact space
  · rw [header]; exact h.fixupsIn
  · rw [header]; exact h.clear

/-- Two relocations are the second one. -/
theorem Relocated.trans {base₁ base₂ : UInt32} {ctx₁ ctx₂ ctx₁₂ : DllContext}
    (h : Relocatable b ctx blocks) (first : Relocated b blocks base₁ ctx ctx₁)
    (second : Relocated b blocks base₂ ctx₁ ctx₁₂) (direct : Relocated b blocks base₂ ctx ctx₂) :
    (∀ a < b.space, ctx₁₂.image a = ctx₂.image a) ∧ ctx₁₂.output.header = ctx₂.output.header ∧
      (base₂ ≠ ctx.output.header.optionalHeader.imageBase →
        ctx₁₂.output.entrypoint = ctx₂.output.entrypoint) := by
  refine ⟨?_, ?_, ?_⟩
  · intro a lt
    have base : ctx₁.output.header.optionalHeader.imageBase = base₁ := by rw [first.header]
    have total : base₁ - ctx.output.header.optionalHeader.imageBase + (base₂ - base₁) =
        base₂ - ctx.output.header.optionalHeader.imageBase := by grind
    rw [second.image a lt, direct.image a lt, base, addAll_congr h.fits h.apart first.image lt,
      addAll_addAll h.fits h.apart lt, total]
  · rw [second.header, direct.header, first.header]
  · intro differs
    rw [second.entrypoint, direct.entrypoint, first.entrypoint, first.header, if_neg differs]
    by_cases same : base₂ = base₁
    · rw [if_pos same, ← same, if_neg differs]
    · rw [if_neg same]

/-- Relocating to one base and then another is relocating to the other; back
to the original base it restores every byte. -/
theorem dllRelocate_compose (h : Relocatable b ctx blocks) (base₁ base₂ : UInt32) :
    ∃ n ctx₁ ctx₁₂ ctx₂, (∀ budget ≥ n,
        dllRelocate b budget base₁ ctx = .leave (.ok ctx₁) ∧
        dllRelocate b budget base₂ ctx₁ = .leave (.ok ctx₁₂) ∧
        dllRelocate b budget base₂ ctx = .leave (.ok ctx₂)) ∧
      (∀ a < b.space, ctx₁₂.image a = ctx₂.image a) ∧
      ctx₁₂.output.header.optionalHeader.imageBase = base₂ ∧
      ctx₂.output.header.optionalHeader.imageBase = base₂ ∧
      (base₂ = ctx.output.header.optionalHeader.imageBase → ∀ a < b.space, ctx₁₂.image a = ctx.image a) ∧
      (base₂ ≠ ctx.output.header.optionalHeader.imageBase →
        ctx₁₂.output.entrypoint = ctx₂.output.entrypoint) := by
  obtain ⟨n₁, ctx₁, run₁, first⟩ := dllRelocate_relocates h base₁
  obtain ⟨n₁₂, ctx₁₂, run₁₂, second⟩ := dllRelocate_relocates (first.relocatable h) base₂
  obtain ⟨n₂, ctx₂, run₂, direct⟩ := dllRelocate_relocates h base₂
  obtain ⟨image, header, entry⟩ := Relocated.trans h first second direct
  have moved : ctx₂.output.header.optionalHeader.imageBase = base₂ := by rw [direct.header]
  refine ⟨n₁ + n₁₂ + n₂, ctx₁, ctx₁₂, ctx₂, ?_, image, header ▸ moved, moved, ?_, entry⟩
  · intro budget enough
    exact ⟨run₁ budget (by omega), run₁₂ budget (by omega), run₂ budget (by omega)⟩
  · intro back a lt
    rw [image a lt, direct.image a lt, back, UInt32.sub_self]
    exact addAll_zero h.fits h.apart lt

/-- An image for base `0x400000` with one fixup, at `0x104`, in a block with a
padding entry. -/
def patchedImage : DllContext where
  output := {
    header := { optionalHeader := {
      imageBase := 0x400000
      addressOfEntryPoint := 0x40
      sizeOfImage := 0x200
      dataDirectory := fun i => if i = imageDirectoryEntryBaseReloc then ⟨0x10, 12⟩ else {} } }
    image := 0x50000 }
  image := ofWords [(0x10, 0x100), (0x14, 12), (0x18, 0x3004), (0x104, 0x400123)]

theorem patchedImage_restored : ∃ n ctx₁ ctx₁₂, (∀ budget ≥ n,
      dllRelocate .target budget 0x50000 patchedImage = .leave (.ok ctx₁) ∧
      dllRelocate .target budget 0x400000 ctx₁ = .leave (.ok ctx₁₂)) ∧
    ∀ a < 2 ^ 32, ctx₁₂.image a = patchedImage.image a := by
  have relocatable : Relocatable .target patchedImage [⟨0x100, [0x3004, 0]⟩] := by
    refine ⟨by decide, ?_, ?_, by decide, by decide, by decide, by decide, by decide⟩
    · simp only [List.mem_singleton, forall_eq]
      exact ⟨by decide, by decide,
        List.forall_mem_cons.mpr ⟨by decide, List.forall_mem_singleton.mpr (by decide)⟩⟩
    · refine ⟨by decide +kernel, by decide +kernel, by decide +kernel, ?_⟩
      show u32 _ _ _ = 0
      decide +kernel
  obtain ⟨n, ctx₁, ctx₁₂, _, runs, _, _, _, back, _⟩ :=
    dllRelocate_compose relocatable 0x50000 0x400000
  exact ⟨n, ctx₁, ctx₁₂, fun budget le => ⟨(runs budget le).1, (runs budget le).2.1⟩, back rfl⟩

end Dyndxt.Loader
