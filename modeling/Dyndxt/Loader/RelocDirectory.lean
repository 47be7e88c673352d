import Dyndxt.Loader.EntryWords

/-!
# Where relocation stops

Nothing bounds the loops by the size of the relocation directory: they stop at
a zero `VirtualAddress`, wherever that is. Beside them here are loops that walk
the blocks of the directory, up to its end and whatever their pages. The two do
the same exactly when the table is terminated in its directory, with nothing to
apply behind the terminator; loops that stop at either end connect them.
-/

namespace Dyndxt.Loader
open Dyndxt.Mem Dyndxt.Pool Dyndxt.Run

/-- One past the relocation directory. -/
def DllContext.relocEnd (ctx : DllContext) : Nat :=
  ctx.relocDirectory.virtualAddress.toNat + ctx.relocDirectory.size.toNat

section Directory

variable (b : Build) (newBase : UInt32) (ctx : DllContext)

/-- A block that lies in the directory, with the words of its entries, and
below the top of the address space. -/
structure InDirectory (p : Nat) (c : DllContext) : Prop where
  header : p + 8 ≤ ctx.relocEnd
  words : p + (sizeOfBlock b p c).toNat + (sizeOfBlock b p c).toNat % 2 ≤ ctx.relocEnd
  room : c.output.image + p + (sizeOfBlock b p c).toNat + 8 < b.space

instance (p : Nat) (c : DllContext) : Decidable (InDirectory b ctx p c) :=
  decidable_of_iff (_ ∧ _ ∧ _) ⟨fun ⟨header, words, room⟩ => ⟨header, words, room⟩,
    fun h => ⟨h.header, h.words, h.room⟩⟩

/-- One round of loops over the blocks of the directory, whose entries start
behind their headers. Only the directory's end bounds them; a block without a
size is not passed. -/
def directoryTurn : RelocPc × DllContext → Turn (RelocPc × DllContext) Pass
  | (.block p, c) =>
    if InDirectory b ctx p c ∧ sizeOfBlock b p c ≠ 0 then
      .again (.entry (c.load32 b p).toNat (p + 8) (p + (sizeOfBlock b p c).toNat), c)
    else .leave (.ok (rebased newBase c))
  | s => rebaseTurn b newBase ctx s

/-- One round of loops that a zero `VirtualAddress` ends, and so does a block
that is not in the directory. -/
def tableTurn : RelocPc × DllContext → Turn (RelocPc × DllContext) Pass
  | (.block p, c) =>
    if c.load32 b p ≠ 0 ∧ InDirectory b ctx p c then
      .again (.entry (c.load32 b p).toNat (p + 8) (p + (sizeOfBlock b p c).toNat), c)
    else .leave (.ok (rebased newBase c))
  | s => rebaseTurn b newBase ctx s

/-- The loops over the table come to `s`. -/
structure WalksTable (s : RelocPc × DllContext) : Prop where
  differs : newBase ≠ ctx.output.header.optionalHeader.imageBase
  some : ctx.relocDirectory.size ≠ 0
  steps : Steps (tableTurn b newBase ctx) (relocEntry ctx) s

/-- From `p` to the end of the directory all entries are padding. -/
def NothingBehind (p : Nat) (c : DllContext) : Prop := ∀ dest e relocationEnd c',
  Steps (directoryTurn b newBase ctx) (.block p, c) (.entry dest e relocationEnd, c') → e < relocationEnd →
    c'.load16 b e >>> 12 = imageRelBasedAbsolute

/-- The table ends in its directory: each header that the loops over the table
come to lies in it, and is a zero `VirtualAddress`, with nothing behind, or
starts a block that lies in it. No block is empty, and on the target no size
has type bits. -/
structure EndsInDirectory : Prop where
  blocks : ∀ p c, WalksTable b newBase ctx (.block p, c) →
    p + 4 ≤ ctx.relocEnd ∧ (c.load32 b p ≠ 0 → InDirectory b ctx p c ∧ sizeOfBlock b p c ≠ 0 ∧
      (b = .host ∨ PlainSize (sizeOfBlock b p c)))
  behind : ∀ p c, WalksTable b newBase ctx (.block p, c) → c.load32 b p = 0 → NothingBehind b newBase ctx p c

/-- No fixup runs over the top of the address space. -/
def FixupsBelowTop : Prop := ∀ dest e relocationEnd c, Reaches b newBase ctx (.entry dest e relocationEnd, c) →
  e < relocationEnd → c.load16 b e >>> 12 = imageRelBasedHighLow →
  dest + (c.load16 b e &&& 0x0FFF).toNat + 4 ≤ b.space

/-- The same context, but for bytes behind the directory. -/
def AlikeBefore (c c' : DllContext) : Prop :=
  Alike (min ctx.relocEnd b.space) c c' ∧ c'.output.image = c.output.image

/-- Whatever bytes follow the directory, `DLLRelocate` returns the same. -/
def IgnoresWhatFollows : Prop := ∀ ctx', AlikeBefore b ctx ctx ctx' → ∀ n r,
  dllRelocate b n newBase ctx = .leave r →
    ∃ m r', dllRelocate b m newBase ctx' = .leave r' ∧ SameReturn (AlikeBefore b ctx) r r'

/-- The blocks walked lie in the directory, and so does the zero behind them. -/
def BlocksInDirectory : Prop := ∀ p c, Reaches b newBase ctx (.block p, c) →
  p + 4 ≤ ctx.relocEnd ∧ (c.load32 b p ≠ 0 → InDirectory b ctx p c)

/-- `DLLRelocate` keeps to its directory: it walks blocks that lie in it, acts
on their entries only, leaves with what the loops over the directory leave
with, and does the same whatever follows. -/
structure KeepsToDirectory : Prop where
  blocks : BlocksInDirectory b newBase ctx
  entries : ∀ p c w e, Reaches b newBase ctx (.block p, c) →
    ReadsEntry b newBase (imageDelta ctx.output.header.optionalHeader.imageBase newBase) p c w e →
    e >>> 12 ≠ imageRelBasedAbsolute → 8 ≤ w
  applies : newBase ≠ ctx.output.header.optionalHeader.imageBase → ctx.relocDirectory.size ≠ 0 →
    ∃ r, Returns (rebaseTurn b newBase ctx) (relocEntry ctx) r ∧
      Returns (directoryTurn b newBase ctx) (relocEntry ctx) r
  ignores : FixupsBelowTop b newBase ctx → IgnoresWhatFollows b newBase ctx

end Directory

variable {b : Build} {newBase : UInt32} {ctx ctx' c c' : DllContext} {p : Nat}
  {s t : RelocPc × DllContext}

/-! ## Beside the loops over the table -/

/-- The loops beside those over the table, in the same context. -/
structure InStep (b : Build) (newBase : UInt32) (ctx : DllContext) (s t : RelocPc × DllContext) : Prop where
  same : s.2 = t.2
  reaches : Reaches b newBase ctx s
  walks : WalksTable b newBase ctx t
  beside : Beside b s.2 s.1 t.1
  below : EntriesBelow b s
  belowWalk : EntriesBelow b t

/-- Each block that both come to is one for both. -/
def BlocksFit (b : Build) (newBase : UInt32) (ctx : DllContext) : Prop := ∀ p c,
  Reaches b newBase ctx (.block p, c) → WalksTable b newBase ctx (.block p, c) → c.load32 b p ≠ 0 →
    InDirectory b ctx p c ∧ (b = .host ∨ PlainSize (sizeOfBlock b p c))

theorem WalksTable.snoc {t' : RelocPc × DllContext} (walks : WalksTable b newBase ctx t)
    (turn : tableTurn b newBase ctx t = .again t') : WalksTable b newBase ctx t' :=
  ⟨walks.differs, walks.some, walks.steps.snoc turn⟩

theorem address_of_again {s' : RelocPc × DllContext} (turn : rebaseTurn b newBase ctx (.block p, c) = .again s') :
    c.load32 b p ≠ 0 := by
  intro zero
  simp [rebaseTurn, relocTurn, zero] at turn

theorem block_leave (zero : c.load32 b p = 0) :
    rebaseTurn b newBase ctx (.block p, c) = .leave (.ok (rebased newBase c)) := by
  simp [rebaseTurn, relocTurn, zero]

/-- The round of a block that both come to. -/
theorem InStep.block {s' : RelocPc × DllContext} (fit : BlocksFit b newBase ctx)
    (inStep : InStep b newBase ctx (.block p, c) (.block p, c))
    (turn : rebaseTurn b newBase ctx (.block p, c) = .again s') :
    ∃ t', tableTurn b newBase ctx (.block p, c) = .again t' ∧ InStep b newBase ctx s' t' := by
  have address := address_of_again turn
  obtain ⟨inside, plain⟩ := fit p c inStep.reaches inStep.walks address
  have pointer := sizeofPtr_le b
  have room : c.output.image + (p + (sizeOfBlock b p c).toNat) + 8 < b.space := by
    rw [← Nat.add_assoc]
    exact inside.room
  have enter : tableTurn b newBase ctx (.block p, c) =
      .again (.entry (c.load32 b p).toNat (p + 8) (p + (sizeOfBlock b p c).toNat), c) :=
    if_pos ⟨address, inside⟩
  have code : rebaseTurn b newBase ctx (.block p, c) =
      .again (.entry (c.load32 b p).toNat (p + b.sizeofPtr) (p + (sizeOfBlock b p c).toNat), c) :=
    block_turn address inside.room
  obtain rfl : (RelocPc.entry (c.load32 b p).toNat (p + b.sizeofPtr) (p + (sizeOfBlock b p c).toNat), c) = s' := by
    rw [code] at turn
    exact Turn.again.inj turn
  exact ⟨_, enter, rfl, inStep.reaches.snoc code, inStep.walks.snoc enter, beside_start plain _ _,
    entriesBelow_entry room (by omega), entriesBelow_entry room (by omega)⟩

/-- The loops follow those over the table. -/
theorem inStep_follows (fit : BlocksFit b newBase ctx) :
    Follows (rebaseTurn b newBase ctx) (tableTurn b newBase ctx) (InStep b newBase ctx) (· = ·)
      entriesLeft := by
  constructor
  · rintro ⟨pc, c⟩ ⟨pc', c'⟩ s' inStep turn
    obtain rfl : c = c' := inStep.same
    have beside : Beside b c pc pc' := inStep.beside
    cases beside with
    | same =>
      cases pc with
      | block p => exact .inl (inStep.block fit turn)
      | entry dest e relocationEnd =>
        have there : tableTurn b newBase ctx (.entry dest e relocationEnd, c) = .again s' := turn
        have climbs := (entry_climbs turn inStep.below).1
        exact .inl ⟨s', there, rfl, inStep.reaches.snoc turn, inStep.walks.snoc there, .same _, climbs, climbs⟩
    | half dest p w relocationEnd side low high =>
      obtain ⟨room, near⟩ : c.output.image + relocationEnd + 8 < b.space ∧ p + w ≤ relocationEnd + 8 :=
        inStep.below _ _ _ rfl
      have reaches := inStep.reaches.snoc turn
      have climbs := (entry_climbs turn inStep.below).1
      have code : rebaseTurn b newBase ctx (.entry dest (p + w) relocationEnd, c) = _ :=
        half_turn room near side low high
      rw [code] at turn
      by_cases inside : p + w < relocationEnd
      · rw [if_pos inside] at turn
        cases turn
        refine .inr ⟨⟨rfl, reaches, inStep.walks, beside_next side low high, climbs, inStep.belowWalk⟩, ?_⟩
        simp only [entriesLeft]
        omega
      · rw [if_neg inside] at turn
        cases turn
        have nearWalk : p + 8 ≤ relocationEnd + 8 := (inStep.belowWalk _ _ _ rfl).2
        have there : tableTurn b newBase ctx (.entry dest (p + 8) relocationEnd, c) = _ :=
          @entry_turn b newBase _ c dest (p + 8) relocationEnd room nearWalk
        rw [if_neg (by omega)] at there
        exact .inl ⟨_, there, rfl, reaches, inStep.walks.snoc there, .same _, entriesBelow_block,
          entriesBelow_block⟩
  · rintro ⟨pc, c⟩ ⟨pc', c'⟩ r inStep left
    obtain rfl : c = c' := inStep.same
    have beside : Beside b c pc pc' := inStep.beside
    cases beside with
    | same =>
      cases pc with
      | block p =>
        by_cases zero : c.load32 b p = 0
        · cases left.symm.trans (block_leave zero)
          exact ⟨_, if_neg fun both => both.1 zero, rfl⟩
        · obtain ⟨inside, -⟩ := fit p c inStep.reaches inStep.walks zero
          cases left.symm.trans (block_turn zero inside.room)
      | entry dest e relocationEnd => exact ⟨r, left, rfl⟩
    | half dest p w relocationEnd side low high =>
      obtain ⟨room, near⟩ := inStep.below _ _ _ rfl
      have code : rebaseTurn b newBase ctx (.entry dest (p + w) relocationEnd, c) = _ :=
        half_turn room near side low high
      rw [code] at left
      split at left <;> cases left

theorem inStep_start (differs : newBase ≠ ctx.output.header.optionalHeader.imageBase)
    (some : ctx.relocDirectory.size ≠ 0) : InStep b newBase ctx (relocEntry ctx) (relocEntry ctx) :=
  ⟨rfl, ⟨differs, some, .refl _⟩, ⟨differs, some, .refl _⟩, .same _, entriesBelow_block, entriesBelow_block⟩

/-- A block that the loops come to, so do those over the table, and the
other way round. -/
theorem InStep.walked (fit : BlocksFit b newBase ctx) (reaches : Reaches b newBase ctx (.block p, c)) :
    WalksTable b newBase ctx (.block p, c) := by
  obtain ⟨⟨pc, c'⟩, -, inStep⟩ := (inStep_follows fit).steps (inStep_start reaches.differs reaches.some) reaches.steps
  obtain rfl : c = c' := inStep.same
  have beside : Beside b c (.block p) pc := inStep.beside
  cases beside
  exact inStep.walks

theorem InStep.reached (fit : BlocksFit b newBase ctx) (walks : WalksTable b newBase ctx (.block p, c)) :
    Reaches b newBase ctx (.block p, c) := by
  obtain ⟨⟨pc, c'⟩, -, inStep⟩ := (inStep_follows fit).reached (inStep_start walks.differs walks.some) walks.steps
  obtain rfl : c' = c := inStep.same
  have beside : Beside b c' pc (.block p) := inStep.beside
  cases beside
  exact inStep.reaches

/-- Blocks that are not empty take the loops over the table to their
end. -/
theorem table_returns (whole : ∀ p c, WalksTable b newBase ctx (.block p, c) → c.load32 b p ≠ 0 →
      InDirectory b ctx p c ∧ sizeOfBlock b p c ≠ 0)
    (differs : newBase ≠ ctx.output.header.optionalHeader.imageBase) (some : ctx.relocDirectory.size ≠ 0) :
    ∃ r, Returns (tableTurn b newBase ctx) (relocEntry ctx) r := by
  refine returns_of_lowers (fun s => climb b s.1)
    (I := fun s => WalksTable b newBase ctx s ∧ EntriesBelow b s) ?_
    ⟨⟨differs, some, .refl _⟩, entriesBelow_block⟩
  rintro ⟨pc, c⟩ s' ⟨walks, below⟩ turn
  have next := walks.snoc turn
  cases pc with
  | entry dest e relocationEnd =>
    have code : rebaseTurn b newBase ctx (.entry dest e relocationEnd, c) = .again s' := turn
    obtain ⟨below', lower⟩ := entry_climbs code below
    exact ⟨⟨next, below'⟩, lower⟩
  | block p =>
    simp only [tableTurn] at turn
    split at turn
    case isFalse => cases turn
    case isTrue both =>
      obtain ⟨address, inside⟩ := both
      have room := inside.room
      have moves := (whole p c walks address).2
      have up : 0 < (sizeOfBlock b p c).toNat := UInt32.lt_iff_toNat_lt.mp (UInt32.pos_iff_ne_zero.mpr moves)
      cases turn
      refine ⟨⟨next, entriesBelow_entry (by omega) (by omega)⟩, Prod.Lex.toLex_lt_toLex.mpr (.inl ?_)⟩
      simp only
      omega

/-! ## Behind the terminator -/

theorem tableTurn_ends (address : c.load32 b p = 0) :
    tableTurn b newBase ctx (.block p, c) = .leave (.ok (rebased newBase c)) := if_neg fun both => both.1 address

/-- The loops over the directory go the way of those over the table. -/
theorem table_steps (whole : ∀ p c, WalksTable b newBase ctx (.block p, c) → c.load32 b p ≠ 0 →
      InDirectory b ctx p c ∧ sizeOfBlock b p c ≠ 0) (walks : WalksTable b newBase ctx s)
    (steps : Steps (tableTurn b newBase ctx) s t) :
    Steps (directoryTurn b newBase ctx) s t ∧ WalksTable b newBase ctx t := by
  induction steps with
  | refl s => exact ⟨.refl s, walks⟩
  | @step s s' _ turn _ ih =>
    obtain ⟨rest, there⟩ := ih (walks.snoc turn)
    refine ⟨.step ?_ rest, there⟩
    obtain ⟨pc, c⟩ := s
    cases pc with
    | entry dest e relocationEnd => exact turn
    | block p =>
      simp only [tableTurn] at turn
      split at turn
      case isFalse => cases turn
      case isTrue both =>
        obtain ⟨address, inside⟩ := both
        exact (if_pos ⟨inside, (whole p c walks address).2⟩).trans turn

/-- The entries of a block in the directory lie below the top of the address
space. -/
theorem directory_below {s' : RelocPc × DllContext} (turn : directoryTurn b newBase ctx s = .again s')
    (below : EntriesBelow b s) : EntriesBelow b s' ∧ climb b s'.1 < climb b s.1 := by
  obtain ⟨pc, c⟩ := s
  cases pc with
  | entry dest e relocationEnd => exact @entry_climbs b newBase _ c dest e relocationEnd s' turn below
  | block p =>
    simp only [directoryTurn] at turn
    split at turn
    case isFalse => cases turn
    case isTrue both =>
      obtain ⟨inside, moves⟩ := both
      have room := inside.room
      have up : 0 < (sizeOfBlock b p c).toNat := UInt32.lt_iff_toNat_lt.mp (UInt32.pos_iff_ne_zero.mpr moves)
      cases turn
      refine ⟨entriesBelow_entry (by omega) (by omega), Prod.Lex.toLex_lt_toLex.mpr (.inl ?_)⟩
      simp only
      omega

/-- Past padding the context stays. -/
theorem padding_turn {s' : RelocPc × DllContext} (turn : directoryTurn b newBase ctx s = .again s')
    (below : EntriesBelow b s) (padding : ∀ dest e relocationEnd, s.1 = .entry dest e relocationEnd →
      e < relocationEnd → s.2.load16 b e >>> 12 = imageRelBasedAbsolute) : s'.2 = s.2 := by
  obtain ⟨pc, c⟩ := s
  cases pc with
  | entry dest e relocationEnd =>
    obtain ⟨room, near⟩ := below _ _ _ rfl
    have code : directoryTurn b newBase ctx (.entry dest e relocationEnd, c) = _ :=
      @entry_turn b newBase _ c dest e relocationEnd room near
    rw [code] at turn
    split at turn
    case isTrue inside =>
      rw [if_pos (padding _ _ _ rfl inside)] at turn
      cases turn
      rfl
    case isFalse =>
      cases turn
      rfl
  | block p =>
    simp only [directoryTurn] at turn
    split at turn <;> cases turn
    rfl

/-- Past padding the loops leave at the end of a block only. -/
theorem padding_leave {r : Pass} (left : directoryTurn b newBase ctx s = .leave r)
    (below : EntriesBelow b s) (padding : ∀ dest e relocationEnd, s.1 = .entry dest e relocationEnd →
      e < relocationEnd → s.2.load16 b e >>> 12 = imageRelBasedAbsolute) : r = .ok (rebased newBase s.2) := by
  obtain ⟨pc, c⟩ := s
  cases pc with
  | entry dest e relocationEnd =>
    obtain ⟨room, near⟩ := below _ _ _ rfl
    have code : directoryTurn b newBase ctx (.entry dest e relocationEnd, c) = _ :=
      @entry_turn b newBase _ c dest e relocationEnd room near
    rw [code] at left
    split at left
    case isTrue inside =>
      rw [if_pos (padding _ _ _ rfl inside)] at left
      cases left
    case isFalse => cases left
  | block p =>
    simp only [directoryTurn] at left
    split at left <;> cases left
    rfl

/-- With nothing behind it, a terminator ends the loops over the directory
too. -/
theorem NothingBehind.returns (nothing : NothingBehind b newBase ctx p c) :
    Returns (directoryTurn b newBase ctx) (.block p, c) (.ok (rebased newBase c)) := by
  let I (s : RelocPc × DllContext) :=
    Steps (directoryTurn b newBase ctx) (.block p, c) s ∧ s.2 = c ∧ EntriesBelow b s
  have padding {s : RelocPc × DllContext} (held : I s) (dest e relocationEnd : Nat)
      (at_ : s.1 = .entry dest e relocationEnd) (inside : e < relocationEnd) :
      s.2.load16 b e >>> 12 = imageRelBasedAbsolute := by
    obtain ⟨pc, c'⟩ := s
    obtain rfl : pc = _ := at_
    exact nothing _ _ _ _ held.1 inside
  have kept (s s' : RelocPc × DllContext) (held : I s) (turn : directoryTurn b newBase ctx s = .again s') :
      I s' ∧ climb b s'.1 < climb b s.1 := by
    obtain ⟨below, lower⟩ := directory_below turn held.2.2
    exact ⟨⟨held.1.snoc turn, (padding_turn turn held.2.2 (padding held)).trans held.2.1, below⟩, lower⟩
  have start : I (.block p, c) := ⟨.refl _, rfl, entriesBelow_block⟩
  obtain ⟨r, returns⟩ := returns_of_lowers (fun s => climb b s.1) kept start
  have ended : r = .ok (rebased newBase c) :=
    returns.invariant (Q := (· = .ok (rebased newBase c))) (fun s s' held turn => (kept s s' held turn).1)
      (fun s r held left => held.2.1 ▸ padding_leave left held.2.2 (padding held)) start
  exact ended ▸ returns

/-- The loops over the directory only add to the log. -/
theorem directory_grows {s' : RelocPc × DllContext} (turn : directoryTurn b newBase ctx s = .again s') :
    s.2.imageWrites.length ≤ s'.2.imageWrites.length := by
  obtain ⟨pc, c⟩ := s
  obtain ⟨pc', c'⟩ := s'
  cases pc with
  | entry dest e relocationEnd =>
    have code : rebaseTurn b newBase ctx (.entry dest e relocationEnd, c) = .again (pc', c') := turn
    rcases relocTurn_again code with rfl | ⟨_, _, _, _, _, _, rfl⟩
    · exact Nat.le_refl _
    · exact Nat.le_succ _
  | block p =>
    simp only [directoryTurn] at turn
    split at turn <;> cases turn
    exact Nat.le_refl _

theorem directory_leaves {c' : DllContext} (left : directoryTurn b newBase ctx s = .leave (.ok c')) :
    c' = rebased newBase s.2 := by
  obtain ⟨pc, c⟩ := s
  cases pc with
  | entry dest e relocationEnd =>
    have code : rebaseTurn b newBase ctx (.entry dest e relocationEnd, c) = .leave (.ok c') := left
    exact relocTurn_leave code
  | block p =>
    simp only [directoryTurn] at left
    split at left <;> cases left
    rfl

/-- Loops over the directory that end as a terminator does come to padding
only. -/
theorem nothing_of_returns
    (returns : Returns (directoryTurn b newBase ctx) (.block p, c) (.ok (rebased newBase c))) :
    NothingBehind b newBase ctx p c := by
  intro dest e relocationEnd c' steps inside
  have below : EntriesBelow b (.entry dest e relocationEnd, c') :=
    steps.invariant (fun _ _ below turn => (directory_below turn below).1) entriesBelow_block
  obtain ⟨room, near⟩ := below _ _ _ rfl
  have rest := steps.returns_from returns
  have grown : c.imageWrites.length ≤ c'.imageWrites.length :=
    steps.invariant (I := fun s => c.imageWrites.length ≤ s.2.imageWrites.length)
      (fun _ _ grown turn => Nat.le_trans grown (directory_grows turn)) (Nat.le_refl _)
  have code : directoryTurn b newBase ctx (.entry dest e relocationEnd, c') = _ :=
    @entry_turn b newBase _ c' dest e relocationEnd room near
  rw [if_pos inside] at code
  by_contra typed
  rw [if_neg typed] at code
  split at code
  · -- a fixup stays on the log
    obtain ⟨s, steps', left⟩ := (Steps.one code).returns_from rest
    have more := steps'.invariant (I := fun s => c'.imageWrites.length + 1 ≤ s.2.imageWrites.length)
      (fun _ _ grown turn => Nat.le_trans grown (directory_grows turn)) (Nat.le_refl _)
    have same : (rebased newBase c).imageWrites = (rebased newBase s.2).imageWrites := by rw [directory_leaves left]
    have same : c.imageWrites = s.2.imageWrites := same
    rw [same] at grown
    omega
  · cases rest.unique (returns_leave code)

/-! ## Whatever follows -/

theorem AlikeBefore.load32 (alike : AlikeBefore b ctx c c') (inside : p + 4 ≤ ctx.relocEnd) :
    c'.load32 b p = c.load32 b p := by
  obtain ⟨⟨ptr, image, rfl, same⟩, -⟩ := alike
  refine u32_congr fun i lt => same _ (Nat.zero_le _) ?_
  have space := Nat.mod_lt (p + i) b.space_pos
  have low := Nat.mod_le (p + i) b.space
  omega

theorem AlikeBefore.load16 (alike : AlikeBefore b ctx c c') (inside : p + 2 ≤ ctx.relocEnd) :
    c'.load16 b p = c.load16 b p := by
  obtain ⟨⟨ptr, image, rfl, same⟩, -⟩ := alike
  refine u16_congr fun i lt => same _ (Nat.zero_le _) ?_
  have space := Nat.mod_lt (p + i) b.space_pos
  have low := Nat.mod_le (p + i) b.space
  omega

/-- A fixup of the same word leaves contexts alike, whatever the word holds
behind the directory. -/
theorem AlikeBefore.fixup (alike : AlikeBefore b ctx c c') (fits : p + 4 ≤ b.space) (amount : UInt32) :
    AlikeBefore b ctx (c.store32 b p (c.load32 b p + amount)) (c'.store32 b p (c'.load32 b p + amount)) := by
  obtain ⟨⟨ptr, image, rfl, same⟩, imagePtr⟩ := alike
  exact ⟨⟨ptr, _, rfl, addAt_sameOn fits (Nat.min_le_right _ _) same⟩, imagePtr⟩

/-- An entry loop whose words lie in the directory. -/
def EntriesInDirectory (ctx : DllContext) (s : RelocPc × DllContext) : Prop :=
  ∀ dest e relocationEnd, s.1 = .entry dest e relocationEnd → e < relocationEnd →
    relocationEnd + (relocationEnd - e) % 2 ≤ ctx.relocEnd

/-- The loops on two contexts that differ behind the directory. -/
structure Agreeing (b : Build) (newBase : UInt32) (ctx : DllContext) (s t : RelocPc × DllContext) : Prop where
  pc : s.1 = t.1
  alike : AlikeBefore b ctx s.2 t.2
  reaches : Reaches b newBase ctx s
  below : EntriesBelow b s
  inside : EntriesInDirectory ctx s

theorem entriesInDirectory_block : EntriesInDirectory ctx (.block p, c) := fun _ _ _ same => (nomatch same)

theorem entriesInDirectory_entry {dest e relocationEnd : Nat}
    (inside : e < relocationEnd → relocationEnd + (relocationEnd - e) % 2 ≤ ctx.relocEnd) :
    EntriesInDirectory ctx (.entry dest e relocationEnd, c) := by
  rintro _ _ _ same
  cases same
  exact inside

/-- The round of a block, on both. -/
theorem Agreeing.block {s' : RelocPc × DllContext} (blocks : BlocksInDirectory b newBase ctx)
    (agreeing : Agreeing b newBase ctx (.block p, c) (.block p, c'))
    (turn : rebaseTurn b newBase ctx (.block p, c) = .again s') :
    ∃ t', rebaseTurn b newBase ctx (.block p, c') = .again t' ∧ Agreeing b newBase ctx s' t' := by
  have address := address_of_again turn
  have inside := (blocks p c agreeing.reaches).2 address
  have header := inside.header
  have words := inside.words
  have room := inside.room
  have pointer : b.sizeofPtr ≤ 8 ∧ b.sizeofPtr % 2 = 0 := by cases b <;> decide
  have alike : AlikeBefore b ctx c c' := agreeing.alike
  have sameAddress : c'.load32 b p = c.load32 b p := alike.load32 (by omega)
  have sameSize : c'.load32 b (p + 4) = c.load32 b (p + 4) := alike.load32 (by omega)
  have code : rebaseTurn b newBase ctx (.block p, c) =
      .again (.entry (c.load32 b p).toNat (p + b.sizeofPtr) (p + (sizeOfBlock b p c).toNat), c) :=
    block_turn address room
  have there : rebaseTurn b newBase ctx (.block p, c') = _ :=
    block_turn (sameAddress ▸ address) (by rw [sameSize, alike.2]; exact room)
  rw [sameAddress, sameSize] at there
  have reaches := agreeing.reaches.snoc code
  rw [code] at turn
  cases turn
  exact ⟨_, there, rfl, alike, reaches, entriesBelow_entry (by omega) (by omega),
    entriesInDirectory_entry (by omega)⟩

/-- The round of an entry, on both. -/
theorem Agreeing.entry {dest e relocationEnd : Nat} (fixups : FixupsBelowTop b newBase ctx)
    (agreeing : Agreeing b newBase ctx (.entry dest e relocationEnd, c) (.entry dest e relocationEnd, c')) :
    SameTurn (AlikeBefore b ctx) (rebaseTurn b newBase ctx (.entry dest e relocationEnd, c))
      (rebaseTurn b newBase ctx (.entry dest e relocationEnd, c')) := by
  have alike : AlikeBefore b ctx c c' := agreeing.alike
  obtain ⟨room, near⟩ : c.output.image + relocationEnd + 8 < b.space ∧ e ≤ relocationEnd + 8 :=
    agreeing.below _ _ _ rfl
  have words := agreeing.inside _ _ _ rfl
  have room' : c'.output.image + relocationEnd + 8 < b.space := by rw [alike.2]; exact room
  refine entry_same alike near room room' (fun inside => ?_) ⟨alike.1.setErrorStatus _, alike.2⟩
    fun inside high => ?_
  · have lies := words inside
    exact alike.load16 (by omega)
  · rw [Nat.min_self]
    exact ⟨fixups dest e relocationEnd c agreeing.reaches inside high, fun p fits => alike.fixup fits _⟩

/-- The next entry lies in the directory as the last one does. -/
theorem Agreeing.next {s' : RelocPc × DllContext} {dest e relocationEnd : Nat}
    (agreeing : Agreeing b newBase ctx (.entry dest e relocationEnd, c) t)
    (turn : rebaseTurn b newBase ctx (.entry dest e relocationEnd, c) = .again s') :
    EntriesInDirectory ctx s' := by
  have inside := agreeing.inside _ _ _ rfl
  obtain ⟨room, near⟩ : c.output.image + relocationEnd + 8 < b.space ∧ e ≤ relocationEnd + 8 :=
    agreeing.below _ _ _ rfl
  have code : rebaseTurn b newBase ctx (.entry dest e relocationEnd, c) = _ := entry_turn room near
  rw [code] at turn
  split at turn
  · have rest : e + 2 < relocationEnd → relocationEnd + (relocationEnd - (e + 2)) % 2 ≤ ctx.relocEnd := by omega
    split at turn
    · cases turn
      exact entriesInDirectory_entry rest
    · split at turn <;> cases turn
      exact entriesInDirectory_entry rest
  · cases turn
    exact entriesInDirectory_block

theorem agreeing_leaves {r : Pass} (blocks : BlocksInDirectory b newBase ctx)
    (fixups : FixupsBelowTop b newBase ctx)
    (agreeing : Agreeing b newBase ctx s t) (left : rebaseTurn b newBase ctx s = .leave r) :
    ∃ r', rebaseTurn b newBase ctx t = .leave r' ∧ SameReturn (AlikeBefore b ctx) r r' := by
  obtain ⟨pc, c⟩ := s
  obtain ⟨pc', c'⟩ := t
  obtain rfl : pc = pc' := agreeing.pc
  have alike : AlikeBefore b ctx c c' := agreeing.alike
  cases pc with
  | block p =>
    obtain ⟨header, inside⟩ := blocks p c agreeing.reaches
    by_cases zero : c.load32 b p = 0
    · have zero' : c'.load32 b p = 0 := (alike.load32 header).trans zero
      cases left.symm.trans (block_leave zero)
      exact ⟨_, block_leave zero', .ok ⟨alike.1.rebased newBase, alike.2⟩⟩
    · cases left.symm.trans (block_turn zero (inside zero).room)
  | entry dest e relocationEnd => exact (agreeing.entry fixups).of_leave left

theorem agreeing_follows (blocks : BlocksInDirectory b newBase ctx) (fixups : FixupsBelowTop b newBase ctx) :
    Follows (rebaseTurn b newBase ctx) (rebaseTurn b newBase ctx) (Agreeing b newBase ctx)
      (SameReturn (AlikeBefore b ctx)) fun _ => 0 := by
  refine ⟨?_, fun s t r agreeing left => agreeing_leaves blocks fixups agreeing left⟩
  rintro ⟨pc, c⟩ ⟨pc', c'⟩ s' agreeing turn
  obtain rfl : pc = pc' := agreeing.pc
  cases pc with
  | block p => exact .inl (agreeing.block blocks turn)
  | entry dest e relocationEnd =>
    obtain ⟨d', there, alike⟩ := (agreeing.entry fixups).of_again turn
    exact .inl ⟨_, there, rfl, alike, agreeing.reaches.snoc turn, (entry_climbs turn agreeing.below).1,
      agreeing.next turn⟩

/-- What the blocks walked allow is all that is needed to ignore what follows. -/
theorem ignores_of_blocks (blocks : BlocksInDirectory b newBase ctx) (fixups : FixupsBelowTop b newBase ctx) :
    IgnoresWhatFollows b newBase ctx := by
  rintro ctx' alike n r left
  have header : ctx'.output.header = ctx.output.header := alike.1.header
  have entered : AlikeBefore b ctx (ctx.setErrorContext .relocate) (ctx'.setErrorContext .relocate) :=
    ⟨alike.1.setErrorContext _, alike.2⟩
  refine dllRelocate_carries header entered ⟨entered.1.setErrorStatus _, entered.2⟩
    (fun differs some returns => ?_) left
  have sameTurn : rebaseTurn b newBase ctx' = rebaseTurn b newBase ctx := by rw [rebaseTurn, header]; rfl
  have start : Agreeing b newBase ctx (relocEntry ctx) (relocEntry ctx') := by
    refine ⟨?_, entered, ⟨differs, some, .refl _⟩, entriesBelow_block, entriesInDirectory_block⟩
    simp only [relocEntry, header]
  rw [sameTurn]
  exact (agreeing_follows blocks fixups).returns start returns

/-! ## `DLLRelocate` -/

theorem plain_of_entries {delta : Int32} (below : BlockBelow b p c)
    (entries : ∀ w e, ReadsEntry b newBase delta p c w e → e >>> 12 ≠ imageRelBasedAbsolute → 8 ≤ w) :
    b = .host ∨ PlainSize (sizeOfBlock b p c) := by
  rcases Nat.lt_or_ge (sizeOfBlock b p c).toNat 8 with small | whole
  · exact .inr ⟨by omega, by omega⟩
  · refine (@actsAfterHeader_iff b newBase delta p c ⟨below, whole⟩).mp ⟨fun w e reads typed => ?_, readsEvery below⟩
    obtain ⟨c', round, inside, -⟩ := reads.round below
    exact ⟨entries w e reads typed, round.even, inside⟩

theorem InDirectory.below (inside : InDirectory b ctx p c) (address : c.load32 b p ≠ 0) : BlockBelow b p c :=
  ⟨address, inside.room⟩

/-- The loops and those over the table leave alike, if the blocks fit and are
not empty. -/
theorem InStep.returns (fit : BlocksFit b newBase ctx) (whole : ∀ p c, WalksTable b newBase ctx (.block p, c) →
      c.load32 b p ≠ 0 → InDirectory b ctx p c ∧ sizeOfBlock b p c ≠ 0)
    (differs : newBase ≠ ctx.output.header.optionalHeader.imageBase) (some : ctx.relocDirectory.size ≠ 0) :
    ∃ r, Returns (rebaseTurn b newBase ctx) (relocEntry ctx) r ∧
      Returns (tableTurn b newBase ctx) (relocEntry ctx) r := by
  obtain ⟨r, returns⟩ := table_returns whole differs some
  obtain ⟨r', code, rfl⟩ := (inStep_follows fit).returns_of (inStep_start differs some) returns
  exact ⟨r', code, returns⟩

/-- `DLLRelocate` keeps to its directory exactly when the table ends in it. -/
theorem dllRelocate_keeps_iff (b : Build) (newBase : UInt32) (ctx : DllContext) :
    KeepsToDirectory b newBase ctx ↔ EndsInDirectory b newBase ctx := by
  constructor
  · intro keeps
    have plain (p : Nat) (c : DllContext) (reaches : Reaches b newBase ctx (.block p, c))
        (address : c.load32 b p ≠ 0) : b = .host ∨ PlainSize (sizeOfBlock b p c) :=
      plain_of_entries (((keeps.blocks p c reaches).2 address).below address)
        fun w e => keeps.entries p c w e reaches
    have fit : BlocksFit b newBase ctx := fun p c reaches _ address =>
      ⟨(keeps.blocks p c reaches).2 address, plain p c reaches address⟩
    have blocks (p : Nat) (c : DllContext) (walks : WalksTable b newBase ctx (.block p, c)) :
        p + 4 ≤ ctx.relocEnd ∧ (c.load32 b p ≠ 0 → InDirectory b ctx p c ∧ sizeOfBlock b p c ≠ 0 ∧
          (b = .host ∨ PlainSize (sizeOfBlock b p c))) := by
      have reaches := InStep.reached fit walks
      obtain ⟨header, inside⟩ := keeps.blocks p c reaches
      refine ⟨header, fun address => ⟨inside address, fun none => ?_, plain p c reaches address⟩⟩
      -- an empty block is walked forever
      obtain ⟨r, returns, -⟩ := keeps.applies walks.differs walks.some
      have terminates := (terminates_iff_returns walks.differs walks.some).mpr ⟨r, returns⟩
      have room := (inside address).room
      rw [none] at room
      exact terminates_iff_not_comesBack.mp terminates (stays reaches address none (by simpa using room))
    have whole (p : Nat) (c : DllContext) (walks : WalksTable b newBase ctx (.block p, c)) (address : c.load32 b p ≠ 0) :
        InDirectory b ctx p c ∧ sizeOfBlock b p c ≠ 0 :=
      ⟨((blocks p c walks).2 address).1, ((blocks p c walks).2 address).2.1⟩
    refine ⟨blocks, fun p c walks zero => ?_⟩
    -- what the loops leave with at the terminator, those over the directory leave with behind it
    obtain ⟨r, returns, directory⟩ := keeps.applies walks.differs walks.some
    obtain ⟨r', returns', table⟩ := InStep.returns fit whole walks.differs walks.some
    cases returns.unique returns'
    cases (walks.steps.returns_from table).unique (returns_leave (tableTurn_ends zero))
    exact nothing_of_returns ((table_steps whole ⟨walks.differs, walks.some, .refl _⟩ walks.steps).1.returns_from directory)
  · rintro ⟨ends, behind⟩
    have whole (p : Nat) (c : DllContext) (walks : WalksTable b newBase ctx (.block p, c)) (address : c.load32 b p ≠ 0) :
        InDirectory b ctx p c ∧ sizeOfBlock b p c ≠ 0 :=
      ⟨((ends p c walks).2 address).1, ((ends p c walks).2 address).2.1⟩
    have fit : BlocksFit b newBase ctx := fun p c _ walks address =>
      ⟨((ends p c walks).2 address).1, ((ends p c walks).2 address).2.2⟩
    have blocks : BlocksInDirectory b newBase ctx := fun p c reaches =>
      ⟨(ends p c (InStep.walked fit reaches)).1, fun address => ((ends p c (InStep.walked fit reaches)).2 address).1⟩
    refine ⟨blocks, ?_, ?_, fun fixups => ignores_of_blocks blocks fixups⟩
    · intro p c w e reaches reads typed
      have ⟨_, _, _, ran, _⟩ := reads
      obtain ⟨s₁, first⟩ := ran.entered
      have address : c.load32 b p ≠ 0 := @address_of_again b newBase ctx c p s₁ first
      exact reads.behind (((blocks p c reaches).2 address).below address)
        (fit p c reaches (InStep.walked fit reaches) address).2 typed
    · intro differs some
      obtain ⟨r, code, s, steps, left⟩ := InStep.returns fit whole differs some
      obtain ⟨past, walks⟩ := table_steps whole ⟨differs, some, .refl _⟩ steps
      refine ⟨r, code, past.returns ?_⟩
      obtain ⟨pc, c⟩ := s
      cases pc with
      | entry dest e relocationEnd => exact returns_leave left
      | block p =>
        by_cases zero : c.load32 b p = 0
        · cases (tableTurn_ends zero).symm.trans left
          exact (behind p c walks zero).returns
        · cases left.symm.trans (if_pos ⟨zero, (whole p c walks zero).1⟩)

/-- An image for base `0x400000` whose relocation directory holds one block,
for the page `0x100`, and is followed by bytes that look like another. -/
def fullDirectory : DllContext where
  output := {
    header := { optionalHeader := {
      imageBase := 0x400000
      addressOfEntryPoint := 0x40
      sizeOfImage := 0x200
      dataDirectory := fun i => if i = imageDirectoryEntryBaseReloc then ⟨0x10, 12⟩ else {} } }
    image := 0x50000 }
  image := ofWords [(0x10, 0x100), (0x14, 12), (0x18, 0x3004), (0x1C, 0x140), (0x20, 12), (0x24, 0x3004)]

/-- The loops come to a header behind the directory. -/
theorem fullDirectory_passed : ¬ KeepsToDirectory .target 0x50000 fullDirectory := by
  intro keeps
  have ok : RelocBlock.Ok ⟨0x100, [0x3004, 0]⟩ := by
    exact ⟨by decide, by decide, List.forall_mem_cons.mpr ⟨by decide, List.forall_mem_singleton.mpr (by decide)⟩⟩
  obtain ⟨c, walk, -⟩ := @block_run .target 0x10 (fullDirectory.setErrorContext .relocate) 0x50000
    (imageDelta fullDirectory.output.header.optionalHeader.imageBase 0x50000) ⟨0x100, [0x3004, 0]⟩ ok
    (by decide +kernel) (by decide +kernel) (by decide +kernel) (by decide) (by decide) (by decide)
  have passed := (keeps.blocks 0x1C c ⟨by decide, by decide, walk⟩).1
  exact absurd passed (by decide)

end Dyndxt.Loader
