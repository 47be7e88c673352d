import Dyndxt.Run.Simulation
import Dyndxt.Loader.RelocEnds
import Dyndxt.Loader.RelocTable

/-!
# The words read as entries

The entry pointer starts `sizeof(relocation_start)` bytes into a block. On the
host that is the end of its header; on the target the two halves of
`SizeOfBlock` are read first. They are skipped as padding when neither has type
bits, and then the builds do the same.
-/

namespace Dyndxt.Loader
open Dyndxt.Mem Dyndxt.Pool Dyndxt.Run

/-- Where the loops come to from a block, up to the next one. -/
inductive BlockRun (turn : RelocPc × DllContext → Turn (RelocPc × DllContext) Pass)
    (s : RelocPc × DllContext) : RelocPc × DllContext → Prop where
  | enter {s' : RelocPc × DllContext} : turn s = .again s' → BlockRun turn s s'
  | next {dest entry relocationEnd : Nat} {c : DllContext} {s' : RelocPc × DllContext} :
      BlockRun turn s (.entry dest entry relocationEnd, c) →
      turn (.entry dest entry relocationEnd, c) = .again s' → BlockRun turn s s'

/-- Where a block has entries: behind its header and below its size. -/
def EntryOffset (size : UInt32) (w : Nat) : Prop := 8 ≤ w ∧ w % 2 = 0 ∧ w < size.toNat

/-- Neither half of a `SizeOfBlock` has type bits when it is read as an entry. -/
def PlainSize (size : UInt32) : Prop := size.toNat % 2 ^ 16 < 2 ^ 12 ∧ size.toNat / 2 ^ 16 < 2 ^ 12

section Entries

variable (b : Build) (newBase : UInt32) (delta : Int32) (p : Nat) (c : DllContext)

/-- `SizeOfBlock` of the block at `p`. -/
def sizeOfBlock : UInt32 := c.load32 b (p + 4)

/-- A block below the top of the address space. -/
structure BlockBelow : Prop where
  virtualAddress : c.load32 b p ≠ 0
  room : c.output.image + p + (sizeOfBlock b p c).toNat + 8 < b.space

/-- A block with a whole header. -/
structure Walkable : Prop extends BlockBelow b p c where
  size : 8 ≤ (sizeOfBlock b p c).toNat

/-- The word `e` at offset `w` of the block is read as an entry. -/
def ReadsEntry (w : Nat) (e : UInt16) : Prop := ∃ dest relocationEnd c',
  BlockRun (relocTurn b newBase delta) (.block p, c) (.entry dest (p + w) relocationEnd, c') ∧
    (c'.output.image + (p + w)) % b.space < (c'.output.image + relocationEnd) % b.space ∧
    c'.load16 b (p + w) = e

/-- Every entry of the block is read, unless one before it is refused. -/
def ReadsEvery : Prop := ∀ w, EntryOffset (sizeOfBlock b p c) w →
  (∃ e, ReadsEntry b newBase delta p c w e) ∨
    ∃ w' < w, ∃ e, ReadsEntry b newBase delta p c w' e ∧ ¬ KnownType e

/-- The words read as entries are the entries of the block. -/
structure EntriesAfterHeader : Prop where
  only : ∀ w e, ReadsEntry b newBase delta p c w e → EntryOffset (sizeOfBlock b p c) w
  every : ReadsEvery b newBase delta p c

/-- The words that are not skipped as padding are entries of the block. -/
structure ActsAfterHeader : Prop where
  only : ∀ w e, ReadsEntry b newBase delta p c w e → e >>> 12 ≠ imageRelBasedAbsolute →
    EntryOffset (sizeOfBlock b p c) w
  every : ReadsEvery b newBase delta p c

end Entries

variable {b : Build} {newBase : UInt32} {delta : Int32} {p w : Nat} {c c' : DllContext}
  {s s' : RelocPc × DllContext}

/-! ## The rounds of a block -/

theorem padding_iff {e : UInt16} : e >>> 12 = imageRelBasedAbsolute ↔ e.toNat < 2 ^ 12 := by
  rw [← UInt16.toNat_inj, UInt16.toNat_shiftRight]
  show e.toNat >>> 12 = 0 ↔ _
  rw [Nat.shiftRight_eq_div_pow]
  omega

/-- The halves of a plain `SizeOfBlock` are padding. -/
theorem PlainSize.padding (plain : PlainSize (sizeOfBlock b p c)) :
    c.load16 b (p + 4) >>> 12 = imageRelBasedAbsolute ∧ c.load16 b (p + 6) >>> 12 = imageRelBasedAbsolute := by
  obtain ⟨low, high⟩ := plain
  refine ⟨padding_iff.mpr ?_, padding_iff.mpr ?_⟩
  · rw [DllContext.load16, u16_low]
    exact low
  · rw [DllContext.load16, show p + 6 = p + 4 + 2 from rfl, u16_high]
    exact high

theorem plainSize_of_padding (low : c.load16 b (p + 4) >>> 12 = imageRelBasedAbsolute)
    (high : c.load16 b (p + 6) >>> 12 = imageRelBasedAbsolute) : PlainSize (sizeOfBlock b p c) := by
  have lowHalf := padding_iff.mp low
  have highHalf := padding_iff.mp high
  rw [DllContext.load16, u16_low] at lowHalf
  rw [DllContext.load16, show p + 6 = p + 4 + 2 from rfl, u16_high] at highHalf
  exact ⟨lowHalf, highHalf⟩

/-- An entry round of the block at `p`: the pointer has moved in steps of two
from where it starts, and a plain header leaves the context as it was. -/
structure EntryRound (b : Build) (p : Nat) (c : DllContext) (w : Nat) (c' : DllContext) : Prop where
  start : b.sizeofPtr ≤ w
  even : w % 2 = 0
  near : w ≤ (sizeOfBlock b p c).toNat + 8
  imagePtr : c'.output.image = c.output.image
  header : PlainSize (sizeOfBlock b p c) → w ≤ 8 → c' = c

/-- The rounds from a block that lies below the top. -/
theorem BlockRun.cases (below : BlockBelow b p c)
    (ran : BlockRun (relocTurn b newBase delta) (.block p, c) s) :
    (∃ w c', s = (.entry (c.load32 b p).toNat (p + w) (p + (sizeOfBlock b p c).toNat), c') ∧
        EntryRound b p c w c') ∨
      ∃ c', s = (.block (p + (sizeOfBlock b p c).toNat), c') := by
  have room := below.room
  have pointer : b.sizeofPtr ≤ 8 ∧ b.sizeofPtr % 2 = 0 := by cases b <;> decide
  induction ran with
  | enter turn =>
    rw [block_turn below.virtualAddress room] at turn
    cases turn
    exact .inl ⟨b.sizeofPtr, c, rfl, Nat.le_refl _, pointer.2, by omega, rfl, fun _ _ => rfl⟩
  | @next dest entry relocationEnd c₁ s' before turn ih =>
    rcases ih with ⟨w, c', same, round⟩ | ⟨c', same⟩
    · cases same
      obtain ⟨start, even, near, imagePtr, header⟩ := round
      obtain ⟨pc, c₂⟩ := s'
      have kept : c₂.output.image = c₁.output.image := (relocTurn_kept turn).imagePtr
      rw [entry_turn (by omega) (by omega)] at turn
      split at turn
      case isFalse =>
        cases turn
        exact .inr ⟨c₁, rfl⟩
      case isTrue inside =>
        refine .inl ⟨w + 2, c₂, ?_, by omega, by omega, by omega, by omega, ?_⟩
        · split at turn
          · cases turn; rfl
          · split at turn <;> cases turn
            rfl
        · intro plain low
          have here : c₁ = c := header plain (by omega)
          subst here
          -- only the target has a round before offset 8
          have half : w = 4 ∨ w = 6 := by
            cases b with
            | target => simp only [Build.sizeofPtr] at start; omega
            | host => simp only [Build.sizeofPtr] at start; omega
          have padding : c₁.load16 b (p + w) >>> 12 = imageRelBasedAbsolute := by
            rcases half with rfl | rfl
            · exact plain.padding.1
            · exact plain.padding.2
          rw [if_pos padding] at turn
          cases turn
          rfl
    · cases same

/-- A word read as an entry. -/
theorem ReadsEntry.round {e : UInt16} (below : BlockBelow b p c) (reads : ReadsEntry b newBase delta p c w e) :
    ∃ c', EntryRound b p c w c' ∧ w < (sizeOfBlock b p c).toNat ∧ c'.load16 b (p + w) = e := by
  have room := below.room
  obtain ⟨dest, relocationEnd, c', ran, before, here⟩ := reads
  rcases ran.cases below with ⟨w', c₁, same, round⟩ | ⟨c₁, same⟩
  · obtain ⟨rfl, rfl⟩ : w' = w ∧ c₁ = c' := by
      simp only [Prod.mk.injEq, RelocPc.entry.injEq] at same
      exact ⟨by omega, same.2.symm⟩
    have near := round.near
    have ends : relocationEnd = p + (sizeOfBlock b p c).toNat := by
      simp only [Prod.mk.injEq, RelocPc.entry.injEq] at same
      exact same.1.2.2
    subst ends
    rw [round.imagePtr, Nat.mod_eq_of_lt (by omega), Nat.mod_eq_of_lt (by omega)] at before
    exact ⟨c₁, round, by omega, here⟩
  · cases same

/-- Every offset on the way is come to, unless an entry before it is refused. -/
theorem readsEvery (below : BlockBelow b p c) : ReadsEvery b newBase delta p c := by
  have room := below.room
  have pointer : b.sizeofPtr ≤ 8 ∧ b.sizeofPtr % 2 = 0 := by cases b <;> decide
  have comes (k : Nat) : b.sizeofPtr + 2 * k < (sizeOfBlock b p c).toNat →
      (∃ c', BlockRun (relocTurn b newBase delta) (.block p, c)
        (.entry (c.load32 b p).toNat (p + (b.sizeofPtr + 2 * k)) (p + (sizeOfBlock b p c).toNat), c') ∧
        c'.output.image = c.output.image) ∨
      ∃ w' < b.sizeofPtr + 2 * k, ∃ e, ReadsEntry b newBase delta p c w' e ∧ ¬ KnownType e := by
    induction k with
    | zero => exact fun _ => .inl ⟨c, .enter (block_turn below.virtualAddress room), rfl⟩
    | succ k ih =>
      intro inside
      rcases ih (by omega) with ⟨c', ran, imagePtr⟩ | ⟨w', before, refused⟩
      · have turn := @entry_turn b newBase delta c' (c.load32 b p).toNat (p + (b.sizeofPtr + 2 * k))
          (p + (sizeOfBlock b p c).toNat) (by omega) (by omega)
        rw [if_pos (by omega)] at turn
        split at turn
        · exact .inl ⟨c', .next ran turn, imagePtr⟩
        · next absolute =>
          split at turn
          · exact .inl ⟨_, .next ran turn, imagePtr⟩
          · next high =>
            refine .inr ⟨b.sizeofPtr + 2 * k, by omega, _, ⟨_, _, c', ran, ?_, rfl⟩, ?_⟩
            · rw [Nat.mod_eq_of_lt (by omega), Nat.mod_eq_of_lt (by omega)]
              omega
            · rintro (known | known)
              · exact absolute known
              · exact high known
      · exact .inr ⟨w', by omega, refused⟩
  rintro w ⟨header, even, inside⟩
  obtain ⟨k, rfl⟩ : ∃ k, w = b.sizeofPtr + 2 * k := ⟨(w - b.sizeofPtr) / 2, by omega⟩
  rcases comes k inside with ⟨c', ran, imagePtr⟩ | refused
  · refine .inl ⟨_, _, _, c', ran, ?_, rfl⟩
    rw [Nat.mod_eq_of_lt (by omega), Nat.mod_eq_of_lt (by omega)]
    omega
  · exact .inr refused

/-! ## Contexts alike -/

/-- The same context, but that the image block may be elsewhere and that only
the bytes below `top` are known to be the same. -/
def Alike (top : Nat) (c c' : DllContext) : Prop := ∃ ptr image,
  c' = { c with output := { c.output with image := ptr }, image } ∧ SameOn 0 top c.image image

/-- The same value returned, with contexts that are like each other. -/
inductive SameReturn (like : DllContext → DllContext → Prop) : Pass → Pass → Prop where
  | ok {c c' : DllContext} : like c c' → SameReturn like (.ok c) (.ok c')
  | error {c c' : DllContext} : like c c' → SameReturn like (.error c) (.error c')

section

variable {top : Nat}

theorem Alike.setErrorStatus (alike : Alike top c c') (status : DllLoaderStatus) :
    Alike top (c.setErrorStatus status) (c'.setErrorStatus status) := by
  obtain ⟨ptr, image, rfl, same⟩ := alike
  exact ⟨ptr, image, rfl, same⟩

theorem Alike.setErrorContext (alike : Alike top c c') (value : DllLoaderContext) :
    Alike top (c.setErrorContext value) (c'.setErrorContext value) := by
  obtain ⟨ptr, image, rfl, same⟩ := alike
  exact ⟨ptr, image, rfl, same⟩

theorem Alike.rebased (alike : Alike top c c') (newBase : UInt32) : Alike top (rebased newBase c) (rebased newBase c') := by
  obtain ⟨ptr, image, rfl, same⟩ := alike
  exact ⟨ptr, image, rfl, same⟩

theorem Alike.header (alike : Alike top c c') : c'.output.header = c.output.header := by
  obtain ⟨ptr, image, rfl, -⟩ := alike
  rfl

end

theorem SameReturn.flip {like : DllContext → DllContext → Prop} {r r' : Pass}
    (same : SameReturn (fun c' c => like c c') r' r) : SameReturn like r r' := by
  cases same with
  | ok alike => exact .ok alike
  | error alike => exact .error alike

/-- Two rounds that do the same, to contexts that are like each other. -/
inductive SameTurn (like : DllContext → DllContext → Prop) :
    Turn (RelocPc × DllContext) Pass → Turn (RelocPc × DllContext) Pass → Prop where
  | again (pc : RelocPc) {c c' : DllContext} : like c c' → SameTurn like (.again (pc, c)) (.again (pc, c'))
  | leave {r r' : Pass} : SameReturn like r r' → SameTurn like (.leave r) (.leave r')

theorem SameTurn.of_again {like : DllContext → DllContext → Prop} {t t' : Turn (RelocPc × DllContext) Pass}
    (same : SameTurn like t t') (turn : t = .again s) : ∃ c', t' = .again (s.1, c') ∧ like s.2 c' := by
  subst turn
  cases same with
  | again pc alike => exact ⟨_, rfl, alike⟩

theorem SameTurn.of_leave {like : DllContext → DllContext → Prop} {t t' : Turn (RelocPc × DllContext) Pass}
    {r : Pass} (same : SameTurn like t t') (left : t = .leave r) : ∃ r', t' = .leave r' ∧ SameReturn like r r' := by
  subst left
  cases same with
  | leave same => exact ⟨_, rfl, same⟩

/-- The round of one entry, in two contexts that hold the same word. -/
theorem entry_same {b' : Build} {like : DllContext → DllContext → Prop} {dest e relocationEnd : Nat}
    (alike : like c c') (near : e ≤ relocationEnd + 8) (room : c.output.image + relocationEnd + 8 < b.space)
    (room' : c'.output.image + relocationEnd + 8 < b'.space)
    (word : e < relocationEnd → c'.load16 b' e = c.load16 b e)
    (refused : like (c.setErrorStatus .unsupportedRelocationType) (c'.setErrorStatus .unsupportedRelocationType))
    (fixup : e < relocationEnd → c.load16 b e >>> 12 = imageRelBasedHighLow →
      dest + (c.load16 b e &&& 0x0FFF).toNat + 4 ≤ min b.space b'.space ∧
      ∀ p, p + 4 ≤ min b.space b'.space →
        like (c.store32 b p (c.load32 b p + delta.toUInt32)) (c'.store32 b' p (c'.load32 b' p + delta.toUInt32))) :
    SameTurn like (relocTurn b newBase delta (.entry dest e relocationEnd, c))
      (relocTurn b' newBase delta (.entry dest e relocationEnd, c')) := by
  rw [entry_turn room near, entry_turn room' near]
  by_cases inside : e < relocationEnd
  · rw [if_pos inside, if_pos inside, word inside]
    by_cases absolute : c.load16 b e >>> 12 = imageRelBasedAbsolute
    · rw [if_pos absolute, if_pos absolute]
      exact .again _ alike
    · rw [if_neg absolute, if_neg absolute]
      by_cases high : c.load16 b e >>> 12 = imageRelBasedHighLow
      · obtain ⟨fits, patched⟩ := fixup inside high
        rw [if_pos high, if_pos high, Nat.mod_eq_of_lt (by omega), Nat.mod_eq_of_lt (by omega)]
        exact .again _ (patched _ fits)
      · rw [if_neg high, if_neg high]
        exact .leave (.error refused)
  · rw [if_neg inside, if_neg inside]
    exact .again _ alike

/-- `DLLRelocate` on another context with the same header, by what its loops
return there. -/
theorem dllRelocate_carries {b' : Build} {ctx ctx' : DllContext} {like : DllContext → DllContext → Prop} {n : Nat}
    {r : Pass} (header : ctx'.output.header = ctx.output.header)
    (entered : like (ctx.setErrorContext .relocate) (ctx'.setErrorContext .relocate))
    (refused : like ((ctx.setErrorContext .relocate).setErrorStatus .noRelocationData)
      ((ctx'.setErrorContext .relocate).setErrorStatus .noRelocationData))
    (loops : newBase ≠ ctx.output.header.optionalHeader.imageBase → ctx.relocDirectory.size ≠ 0 →
      Returns (rebaseTurn b newBase ctx) (relocEntry ctx) r →
        ∃ r', Returns (rebaseTurn b' newBase ctx') (relocEntry ctx') r' ∧ SameReturn like r r')
    (left : dllRelocate b n newBase ctx = .leave r) :
    ∃ m r', dllRelocate b' m newBase ctx' = .leave r' ∧ SameReturn like r r' := by
  by_cases differs : newBase = ctx.output.header.optionalHeader.imageBase
  · have differs' : newBase = ctx'.output.header.optionalHeader.imageBase := by rw [header]; exact differs
    rw [dllRelocate_same differs] at left
    cases left
    exact ⟨0, _, dllRelocate_same differs' 0, .ok entered⟩
  have differs' : newBase ≠ ctx'.output.header.optionalHeader.imageBase := by rw [header]; exact differs
  by_cases none : ctx.relocDirectory.size = 0
  · have none' : ctx'.relocDirectory.size = 0 := by rw [DllContext.relocDirectory, header]; exact none
    rw [dllRelocate_none differs none] at left
    cases left
    exact ⟨0, _, dllRelocate_none differs' none' 0, .error refused⟩
  have some' : ctx'.relocDirectory.size ≠ 0 := by rw [DllContext.relocDirectory, header]; exact none
  obtain ⟨r', returns, same⟩ := loops differs none (returns_of_leave differs none left)
  obtain ⟨m, leaves⟩ := dllRelocate_returns differs' some' returns
  exact ⟨m, r', leaves m (Nat.le_refl m), same⟩

/-! ## Beside a loop that starts behind the header -/

/-- The pointers beside those of loops whose entries start at offset 8: the
same, or in the halves of the size while those are at the first entry. -/
inductive Beside (b : Build) (c : DllContext) : RelocPc → RelocPc → Prop where
  | same (pc : RelocPc) : Beside b c pc pc
  | half (dest p w relocationEnd : Nat) : w = 4 ∨ w = 6 →
      c.load16 b (p + 4) >>> 12 = imageRelBasedAbsolute → c.load16 b (p + 6) >>> 12 = imageRelBasedAbsolute →
      Beside b c (.entry dest (p + w) relocationEnd) (.entry dest (p + 8) relocationEnd)

/-- Beside at the start of a block: in step on the host, and two rounds behind
on the target. -/
theorem beside_start (plain : b = .host ∨ PlainSize (sizeOfBlock b p c)) (dest relocationEnd : Nat) :
    Beside b c (.entry dest (p + b.sizeofPtr) relocationEnd) (.entry dest (p + 8) relocationEnd) := by
  cases b with
  | host => exact .same _
  | target =>
    obtain ⟨low, high⟩ := (plain.resolve_left nofun).padding
    exact .half dest p 4 relocationEnd (.inl rfl) low high

/-- The rounds to come in an entry loop. -/
def entriesLeft (s : RelocPc × DllContext) : Nat :=
  match s.1 with
  | .block _ => 0
  | .entry _ e relocationEnd => relocationEnd - e

/-- A round in the halves of a size skips it. -/
theorem half_turn {dest relocationEnd : Nat} (room : c.output.image + relocationEnd + 8 < b.space)
    (near : p + w ≤ relocationEnd + 8) (side : w = 4 ∨ w = 6)
    (low : c.load16 b (p + 4) >>> 12 = imageRelBasedAbsolute)
    (high : c.load16 b (p + 6) >>> 12 = imageRelBasedAbsolute) :
    relocTurn b newBase delta (.entry dest (p + w) relocationEnd, c) =
      if p + w < relocationEnd then .again (.entry dest (p + w + 2) relocationEnd, c)
      else .again (.block relocationEnd, c) := by
  have padding : c.load16 b (p + w) >>> 12 = imageRelBasedAbsolute := by
    rcases side with rfl | rfl
    · exact low
    · exact high
  rw [entry_turn room near, if_pos padding]

/-- Behind a half is the other half, or the first entry. -/
theorem beside_next {dest relocationEnd : Nat} (side : w = 4 ∨ w = 6)
    (low : c.load16 b (p + 4) >>> 12 = imageRelBasedAbsolute)
    (high : c.load16 b (p + 6) >>> 12 = imageRelBasedAbsolute) :
    Beside b c (.entry dest (p + w + 2) relocationEnd) (.entry dest (p + 8) relocationEnd) := by
  rcases side with rfl | rfl
  · exact .half dest p 6 relocationEnd (.inr rfl) low high
  · exact .same _

theorem entriesBelow_entry {dest e relocationEnd : Nat}
    (room : c.output.image + relocationEnd + 8 < b.space) (near : e ≤ relocationEnd + 8) :
    EntriesBelow b (.entry dest e relocationEnd, c) := by
  rintro _ _ _ same
  cases same
  exact ⟨room, near⟩

theorem entriesBelow_block : EntriesBelow b (.block p, c) := fun _ _ _ same => (nomatch same)

/-! ## The first words -/

/-- The target starts with the low half of `SizeOfBlock`. -/
theorem reads_low (walkable : Walkable .target p c) :
    ReadsEntry .target newBase delta p c 4 (c.load16 .target (p + 4)) := by
  have room := walkable.room
  have size := walkable.size
  refine ⟨_, p + (sizeOfBlock .target p c).toNat, c, .enter (block_turn walkable.virtualAddress room), ?_, rfl⟩
  rw [Nat.mod_eq_of_lt (by omega), Nat.mod_eq_of_lt (by omega)]
  omega

/-- When that is skipped, it goes on with the high half. -/
theorem reads_high (walkable : Walkable .target p c)
    (low : c.load16 .target (p + 4) >>> 12 = imageRelBasedAbsolute) :
    ReadsEntry .target newBase delta p c 6 (c.load16 .target (p + 6)) := by
  have room := walkable.room
  have size := walkable.size
  have below : p + 4 < p + (sizeOfBlock .target p c).toNat := by omega
  have first := @entry_turn .target newBase delta c (c.load32 .target p).toNat (p + 4)
    (p + (sizeOfBlock .target p c).toNat) (by omega) (by omega)
  rw [if_pos below, if_pos low] at first
  refine ⟨_, _, c, .next (.enter (block_turn walkable.virtualAddress room)) first, ?_, rfl⟩
  rw [Nat.mod_eq_of_lt (by omega), Nat.mod_eq_of_lt (by omega)]
  omega

/-- What is acted on is behind the header, when the halves of `SizeOfBlock` are
padding. -/
theorem ReadsEntry.behind {e : UInt16} (below : BlockBelow b p c)
    (side : b = .host ∨ PlainSize (sizeOfBlock b p c)) (reads : ReadsEntry b newBase delta p c w e)
    (typed : e >>> 12 ≠ imageRelBasedAbsolute) : 8 ≤ w := by
  obtain ⟨c', round, -, here⟩ := reads.round below
  rcases side with rfl | plain
  · exact round.start
  · by_contra early
    have start := round.start
    have even := round.even
    have same : c' = c := round.header plain (by omega)
    subst same
    have half : w = 4 ∨ w = 6 := by
      cases b with
      | target => simp only [Build.sizeofPtr] at start; omega
      | host => simp only [Build.sizeofPtr] at start; omega
    rcases half with rfl | rfl
    · exact typed (here ▸ plain.padding.1)
    · exact typed (here ▸ plain.padding.2)

/-- Only the host reads the entries alone. -/
theorem entriesAfterHeader_iff (walkable : Walkable b p c) :
    EntriesAfterHeader b newBase delta p c ↔ b = .host := by
  constructor
  · intro after
    cases b with
    | host => rfl
    | target =>
      obtain ⟨behind, -, -⟩ := after.only 4 _ (reads_low walkable)
      exact absurd behind (by decide)
  · rintro rfl
    refine ⟨fun w e reads => ?_, readsEvery walkable.toBlockBelow⟩
    obtain ⟨c', round, inside, -⟩ := reads.round walkable.toBlockBelow
    exact ⟨round.start, round.even, inside⟩

/-- The target acts on the entries alone when the halves of `SizeOfBlock` are
padding. -/
theorem actsAfterHeader_iff (walkable : Walkable b p c) :
    ActsAfterHeader b newBase delta p c ↔ b = .host ∨ PlainSize (sizeOfBlock b p c) := by
  constructor
  · intro after
    cases b with
    | host => exact .inl rfl
    | target =>
      have low : c.load16 .target (p + 4) >>> 12 = imageRelBasedAbsolute := by
        by_contra typed
        obtain ⟨behind, -, -⟩ := after.only 4 _ (reads_low walkable) typed
        exact absurd behind (by decide)
      have high : c.load16 .target (p + 6) >>> 12 = imageRelBasedAbsolute := by
        by_contra typed
        obtain ⟨behind, -, -⟩ := after.only 6 _ (reads_high walkable low) typed
        exact absurd behind (by decide)
      exact .inr (plainSize_of_padding low high)
  · intro side
    refine ⟨fun w e reads typed => ?_, readsEvery walkable.toBlockBelow⟩
    obtain ⟨c', round, inside, -⟩ := reads.round walkable.toBlockBelow
    exact ⟨reads.behind walkable.toBlockBelow side typed, round.even, inside⟩

/-- Only a block that is entered has rounds. -/
theorem BlockRun.entered {turn : RelocPc × DllContext → Turn (RelocPc × DllContext) Pass}
    (ran : BlockRun turn s s') : ∃ s₁, turn s = .again s₁ := by
  induction ran with
  | enter first => exact ⟨_, first⟩
  | next _ _ ih => exact ih

end Dyndxt.Loader
