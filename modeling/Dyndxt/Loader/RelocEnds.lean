import Mathlib.Data.Finite.Prod
import Mathlib.Data.Prod.Lex
import Mathlib.Data.Set.Finite.Range
import Dyndxt.Run.Recurrence
import Dyndxt.Run.Countdown
import Dyndxt.Mem.Patch
import Dyndxt.Loader.Runs

/-!
# When the relocation loops end

What a round does depends on its pointers and on the bytes of the image, and
those are finitely many: the loops end exactly when they never come back to
pointers and an image that they had before. Where no pointer leaves the address
space the only way back is a block whose `SizeOfBlock` is 0, as every other
block moves the next one up.
-/

namespace Dyndxt.Loader
open Dyndxt.Mem Dyndxt.Pool Dyndxt.Run

/-- Where the base relocation directory says the blocks are. -/
def DllContext.relocDirectory (ctx : DllContext) : ImageDataDirectory :=
  ctx.output.header.optionalHeader.dataDirectory imageDirectoryEntryBaseReloc

section Endings

variable (b : Build) (newBase : UInt32) (ctx : DllContext)

/-- `DLLRelocate` returns true or false. -/
def Terminates : Prop := ∃ n r, ∀ budget, n ≤ budget → dllRelocate b budget newBase ctx = .leave r

/-- The loops are entered, and come to `s`. -/
structure Reaches (s : RelocPc × DllContext) : Prop where
  differs : newBase ≠ ctx.output.header.optionalHeader.imageBase
  some : ctx.relocDirectory.size ≠ 0
  steps : Steps (rebaseTurn b newBase ctx) (relocEntry ctx) s

/-- The loops come back to pointers and an image that they had before. -/
def ComesBack : Prop := ∃ s s', Reaches b newBase ctx s ∧ Goes (rebaseTurn b newBase ctx) s s' ∧
  s'.1 = s.1 ∧ SameOn 0 b.space s.2.image s'.2.image

/-- Every block the loops come to, and a header behind it, lie below the top of
the address space. -/
def BelowTop : Prop := ∀ p c, Reaches b newBase ctx (.block p, c) → c.load32 b p ≠ 0 →
  c.output.image + p + (c.load32 b (p + 4)).toNat + 8 < b.space

end Endings

variable {b : Build} {newBase : UInt32} {delta : Int32} {ctx ctx' c : DllContext} {pc : RelocPc}
  {p dest entry relocationEnd : Nat} {s : RelocPc × DllContext}

/-! ## What a round depends on -/

theorem load32_same (same : SameOn 0 b.space ctx.image ctx'.image) (p : Nat) :
    ctx'.load32 b p = ctx.load32 b p :=
  u32_congr fun _ _ => same _ (Nat.zero_le _) (Nat.mod_lt _ b.space_pos)

theorem load16_same (same : SameOn 0 b.space ctx.image ctx'.image) (p : Nat) :
    ctx'.load16 b p = ctx.load16 b p :=
  u16_congr fun _ _ => same _ (Nat.zero_le _) (Nat.mod_lt _ b.space_pos)

/-- The pointers and bytes a round depends on. -/
def observed (b : Build) (s : RelocPc × DllContext) : RelocPc × Nat × (Fin b.space → UInt8) :=
  (s.1, s.2.output.image, fun a => s.2.image a)

theorem observed_eq_iff {s s' : RelocPc × DllContext} : observed b s = observed b s' ↔
    s.1 = s'.1 ∧ s.2.output.image = s'.2.output.image ∧ SameOn 0 b.space s.2.image s'.2.image := by
  simp only [observed, Prod.mk.injEq, funext_iff, SameOn]
  constructor
  · rintro ⟨pc, ptr, bytes⟩
    exact ⟨pc, ptr, fun a _ lt => (bytes ⟨a, lt⟩).symm⟩
  · rintro ⟨pc, ptr, bytes⟩
    exact ⟨pc, ptr, fun a => (bytes a (Nat.zero_le _) a.isLt).symm⟩

theorem relocTurn_observes : Observes (relocTurn b newBase delta) (observed b) := by
  rintro ⟨pc, c⟩ ⟨pc', c'⟩ ⟨next, d⟩ same turn
  obtain ⟨rfl, ptr, bytes⟩ := observed_eq_iff.mp same
  simp only at ptr bytes
  cases pc with
  | block p =>
    simp only [relocTurn, load32_same bytes] at turn ⊢
    split at turn
    · cases turn
      rw [if_pos ‹_›]
      exact ⟨_, rfl, observed_eq_iff.mpr ⟨rfl, ptr, bytes⟩⟩
    · cases turn
  | entry dest e relocationEnd =>
    simp only [relocTurn, load32_same bytes, load16_same bytes, ← ptr] at turn ⊢
    split at turn
    · rw [if_pos ‹_›]
      split at turn
      · cases turn
        rw [if_pos ‹_›]
        exact ⟨_, rfl, observed_eq_iff.mpr ⟨rfl, ptr, bytes⟩⟩
      · rw [if_neg ‹_›]
        split at turn
        · cases turn
          rw [if_pos ‹_›]
          refine ⟨_, rfl, observed_eq_iff.mpr ⟨rfl, ptr, fun a low lt => ?_⟩⟩
          exact store_congr (bytes a low lt)
        · cases turn
    · cases turn
      rw [if_neg ‹_›]
      exact ⟨_, rfl, observed_eq_iff.mpr ⟨rfl, ptr, bytes⟩⟩

/-! ## Finitely many states -/

instance finiteUInt8 : Finite UInt8 := .of_injective UInt8.toFin fun _ _ => UInt8.toFin_inj.mp

def RelocPc.Below (n : Nat) : RelocPc → Prop
  | .block p => p < n
  | .entry dest e relocationEnd => dest < n ∧ e < n ∧ relocationEnd < n

theorem RelocPc.finite_below (n : Nat) : {pc | RelocPc.Below n pc}.Finite := by
  refine ((Set.finite_range fun p : Fin n => RelocPc.block p).union
    (Set.finite_range fun w : Fin n × Fin n × Fin n => RelocPc.entry w.1 w.2.1 w.2.2)).subset ?_
  rintro (p | ⟨dest, e, relocationEnd⟩) below
  · exact .inl ⟨⟨p, below⟩, rfl⟩
  · obtain ⟨destLt, entryLt, endLt⟩ := below
    exact .inr ⟨⟨⟨dest, destLt⟩, ⟨e, entryLt⟩, ⟨relocationEnd, endLt⟩⟩, rfl⟩

theorem relocTurn_below {pc' : RelocPc} (below : pc.Below b.space)
    (turn : relocTurn b newBase delta (pc, ctx) = .again (pc', ctx')) : pc'.Below b.space := by
  have wraps (n : Nat) : n % b.space < b.space := Nat.mod_lt n b.space_pos
  cases pc with
  | block p =>
    simp only [relocTurn] at turn
    split at turn <;> cases turn
    exact ⟨b.word_lt _, wraps _, wraps _⟩
  | entry dest e relocationEnd =>
    obtain ⟨destLt, -, endLt⟩ := below
    simp only [relocTurn] at turn
    split at turn
    · split at turn
      · cases turn
        exact ⟨destLt, wraps _, endLt⟩
      · split at turn <;> cases turn
        exact ⟨destLt, wraps _, endLt⟩
    · cases turn
      exact endLt

/-- The pointers stay in the address space and the image where it is. -/
theorem Reaches.bounded (reaches : Reaches b newBase ctx s) :
    s.1.Below b.space ∧ s.2.output.image = ctx.output.image := by
  refine reaches.steps.invariant (I := fun s => s.1.Below b.space ∧ s.2.output.image = ctx.output.image)
    ?_ ⟨b.word_lt _, rfl⟩
  rintro ⟨pc, c⟩ ⟨pc', c'⟩ ⟨below, ptr⟩ turn
  exact ⟨relocTurn_below below turn, (relocTurn_kept turn).imagePtr.trans ptr⟩

theorem observations_finite (differs : newBase ≠ ctx.output.header.optionalHeader.imageBase)
    (some : ctx.relocDirectory.size ≠ 0) :
    {o | ∃ t, Steps (rebaseTurn b newBase ctx) (relocEntry ctx) t ∧ observed b t = o}.Finite := by
  refine ((RelocPc.finite_below b.space).prod ((Set.finite_singleton ctx.output.image).prod
    Set.finite_univ)).subset ?_
  rintro _ ⟨t, steps, rfl⟩
  obtain ⟨below, ptr⟩ := Reaches.bounded ⟨differs, some, steps⟩
  exact ⟨below, ptr, trivial⟩

/-! ## Coming back -/

theorem Reaches.snoc {s' : RelocPc × DllContext} (reaches : Reaches b newBase ctx s)
    (turn : rebaseTurn b newBase ctx s = .again s') : Reaches b newBase ctx s' :=
  ⟨reaches.differs, reaches.some, reaches.steps.snoc turn⟩

/-- With the loops entered, a pass that leaves has left them. -/
theorem returns_of_leave {n : Nat} {r : Pass} (differs : newBase ≠ ctx.output.header.optionalHeader.imageBase)
    (some : ctx.relocDirectory.size ≠ 0) (left : dllRelocate b n newBase ctx = .leave r) :
    Returns (rebaseTurn b newBase ctx) (relocEntry ctx) r := by
  rw [dllRelocate_run differs some] at left
  cases ran : run (rebaseTurn b newBase ctx) n (relocEntry ctx) with
  | again s =>
    rw [ran] at left
    cases left
  | leave r' =>
    rw [ran] at left
    cases left
    exact run_returns n _ ran

theorem terminates_iff_returns (differs : newBase ≠ ctx.output.header.optionalHeader.imageBase)
    (some : ctx.relocDirectory.size ≠ 0) :
    Terminates b newBase ctx ↔ ∃ r, Returns (rebaseTurn b newBase ctx) (relocEntry ctx) r := by
  constructor
  · rintro ⟨n, r, leaves⟩
    exact ⟨r, returns_of_leave differs some (leaves n (Nat.le_refl n))⟩
  · rintro ⟨r, returns⟩
    obtain ⟨n, leaves⟩ := dllRelocate_returns differs some returns
    exact ⟨n, r, leaves⟩

theorem terminates_iff_not_comesBack : Terminates b newBase ctx ↔ ¬ ComesBack b newBase ctx := by
  by_cases differs : newBase = ctx.output.header.optionalHeader.imageBase
  · refine iff_of_true ⟨0, _, fun budget _ => dllRelocate_same differs budget⟩ ?_
    rintro ⟨s, s', reaches, -⟩
    exact reaches.differs differs
  by_cases some : ctx.relocDirectory.size = 0
  · refine iff_of_true ⟨0, _, fun budget _ => dllRelocate_none differs some budget⟩ ?_
    rintro ⟨s, s', reaches, -⟩
    exact reaches.some some
  have observes : Observes (rebaseTurn b newBase ctx) (observed b) := relocTurn_observes
  rw [terminates_iff_returns differs some, observes.returns_iff (observations_finite differs some)]
  refine not_congr ⟨?_, ?_⟩
  · rintro ⟨s, s', steps, goes, same⟩
    obtain ⟨pc, -, bytes⟩ := observed_eq_iff.mp same
    exact ⟨s, s', ⟨differs, some, steps⟩, goes, pc.symm, bytes⟩
  · rintro ⟨s, s', reaches, goes, pc, bytes⟩
    obtain ⟨next, first, rest⟩ := goes
    have later : Reaches b newBase ctx s' :=
      ⟨differs, some, reaches.steps.trans (.step first rest)⟩
    refine ⟨s, s', reaches.steps, ⟨next, first, rest⟩, observed_eq_iff.mpr ⟨pc.symm, ?_, bytes⟩⟩
    rw [reaches.bounded.2, later.bounded.2]

/-! ## Below the top -/

/-- An entry loop whose range ends below the top. -/
def EntriesBelow (b : Build) (s : RelocPc × DllContext) : Prop :=
  ∀ dest e relocationEnd, s.1 = .entry dest e relocationEnd →
    s.2.output.image + relocationEnd + 8 < b.space ∧ e ≤ relocationEnd + 8

/-- How far the loops have to go: blocks first, then entries. -/
def climb (b : Build) : RelocPc → ℕ ×ₗ ℕ
  | .block p => toLex (b.space - p, 0)
  | .entry _ e relocationEnd => toLex (b.space - relocationEnd, b.space - e + 1)

theorem sizeofPtr_le (b : Build) : b.sizeofPtr ≤ 8 := by cases b <;> decide

/-- The round of a block that lies below the top. -/
theorem block_turn (address : c.load32 b p ≠ 0)
    (room : c.output.image + p + (c.load32 b (p + 4)).toNat + 8 < b.space) :
    relocTurn b newBase delta (.block p, c) =
      .again (.entry (c.load32 b p).toNat (p + b.sizeofPtr) (p + (c.load32 b (p + 4)).toNat), c) := by
  have pointer := sizeofPtr_le b
  exact relocTurn_block address (by omega) (by omega)

/-- The round of an entry that lies below the top. -/
theorem entry_turn (room : c.output.image + relocationEnd + 8 < b.space) (near : entry ≤ relocationEnd + 8) :
    relocTurn b newBase delta (.entry dest entry relocationEnd, c) =
      if entry < relocationEnd then
        if c.load16 b entry >>> 12 = imageRelBasedAbsolute then .again (.entry dest (entry + 2) relocationEnd, c)
        else if c.load16 b entry >>> 12 = imageRelBasedHighLow then
          .again (.entry dest (entry + 2) relocationEnd, c.store32 b
            ((dest + (c.load16 b entry &&& 0x0FFF).toNat) % b.space)
            (c.load32 b ((dest + (c.load16 b entry &&& 0x0FFF).toNat) % b.space) + delta.toUInt32))
        else .leave (.error (c.setErrorStatus .unsupportedRelocationType))
      else .again (.block relocationEnd, c) := by
  simp only [relocTurn]
  rw [Nat.mod_eq_of_lt (by omega : c.output.image + entry < b.space),
    Nat.mod_eq_of_lt (by omega : c.output.image + relocationEnd < b.space)]
  by_cases inside : entry < relocationEnd
  · rw [if_pos inside, if_pos (by omega), Nat.mod_eq_of_lt (by omega : entry + 2 < b.space)]
  · rw [if_neg inside, if_neg (by omega)]

/-- A block that moves the next one up. -/
theorem block_climbs {s' : RelocPc × DllContext} (turn : relocTurn b newBase delta (.block p, c) = .again s')
    (address : c.load32 b p ≠ 0) (some : c.load32 b (p + 4) ≠ 0)
    (room : c.output.image + p + (c.load32 b (p + 4)).toNat + 8 < b.space) :
    EntriesBelow b s' ∧ climb b s'.1 < climb b (.block p) := by
  have pointer := sizeofPtr_le b
  have up : 0 < (c.load32 b (p + 4)).toNat := UInt32.lt_iff_toNat_lt.mp (UInt32.pos_iff_ne_zero.mpr some)
  rw [block_turn address room] at turn
  cases turn
  constructor
  · rintro dest e relocationEnd same
    cases same
    simp only
    omega
  · refine Prod.Lex.toLex_lt_toLex.mpr (.inl ?_)
    simp only
    omega

/-- A round of the entry loop. -/
theorem entry_climbs {s' : RelocPc × DllContext}
    (turn : relocTurn b newBase delta (.entry dest entry relocationEnd, c) = .again s')
    (below : EntriesBelow b (.entry dest entry relocationEnd, c)) :
    EntriesBelow b s' ∧ climb b s'.1 < climb b (.entry dest entry relocationEnd) := by
  obtain ⟨room, near⟩ := below _ _ _ rfl
  simp only at room
  obtain ⟨pc', c'⟩ := s'
  have kept : c'.output.image = c.output.image := (relocTurn_kept turn).imagePtr
  rw [entry_turn room near] at turn
  split at turn
  case isFalse =>
    cases turn
    refine ⟨fun _ _ _ same => (nomatch same), Prod.Lex.toLex_lt_toLex.mpr (.inr ⟨rfl, ?_⟩)⟩
    simp only
    omega
  case isTrue inside =>
    have next : pc' = .entry dest (entry + 2) relocationEnd := by
      split at turn
      · cases turn; rfl
      · split at turn <;> cases turn
        rfl
    subst next
    constructor
    · rintro _ _ _ same
      cases same
      simp only [kept]
      omega
    · refine Prod.Lex.toLex_lt_toLex.mpr (.inr ⟨rfl, ?_⟩)
      simp only
      omega

/-- A block that does not move is walked forever. -/
theorem stays {c : DllContext} (reaches : Reaches b newBase ctx (.block p, c)) (address : c.load32 b p ≠ 0)
    (none : c.load32 b (p + 4) = 0) (room : c.output.image + p + 8 < b.space) :
    ComesBack b newBase ctx := by
  have pointer := sizeofPtr_le b
  have enter : rebaseTurn b newBase ctx (.block p, c) =
      .again (.entry (c.load32 b p).toNat (p + b.sizeofPtr) p, c) := by
    have turn : rebaseTurn b newBase ctx (.block p, c) = _ := block_turn address (by simpa [none] using room)
    simpa [none] using turn
  have leave : rebaseTurn b newBase ctx (.entry (c.load32 b p).toNat (p + b.sizeofPtr) p, c) =
      .again (.block p, c) := by
    refine (entry_turn room (by omega)).trans (if_neg ?_)
    omega
  exact ⟨_, _, reaches, ⟨_, enter, .one leave⟩, rfl, fun _ _ _ => rfl⟩

/-- `DLLRelocate` terminates exactly when the loops do not come back. Where
every block lies below the top of the address space, that is when none of them
has a `SizeOfBlock` of 0. -/
theorem dllRelocate_terminates_iff (b : Build) (newBase : UInt32) (ctx : DllContext) :
    (Terminates b newBase ctx ↔ ¬ ComesBack b newBase ctx) ∧
      (BelowTop b newBase ctx → (Terminates b newBase ctx ↔
        ∀ p c, Reaches b newBase ctx (.block p, c) → c.load32 b p ≠ 0 → c.load32 b (p + 4) ≠ 0)) := by
  refine ⟨terminates_iff_not_comesBack, fun belowTop => ⟨?_, ?_⟩⟩
  · intro terminates p c reaches address none
    have room := belowTop p c reaches address
    rw [none] at room
    exact terminates_iff_not_comesBack.mp terminates (stays reaches address none (by simpa using room))
  · intro moves
    by_cases entered : newBase ≠ ctx.output.header.optionalHeader.imageBase ∧ ctx.relocDirectory.size ≠ 0
    · obtain ⟨differs, some⟩ := entered
      refine (terminates_iff_returns differs some).mpr (returns_of_lowers (fun s => climb b s.1)
        (I := fun s => Reaches b newBase ctx s ∧ EntriesBelow b s) ?_
        ⟨⟨differs, some, .refl _⟩, fun _ _ _ same => (nomatch same)⟩)
      rintro ⟨pc, c⟩ s' ⟨reaches, below⟩ turn
      cases pc with
      | block p =>
        have address : c.load32 b p ≠ 0 := by
          intro zero
          simp [rebaseTurn, relocTurn, zero] at turn
        obtain ⟨below', lower⟩ := block_climbs turn address (moves p c reaches address)
          (belowTop p c reaches address)
        exact ⟨⟨reaches.snoc turn, below'⟩, lower⟩
      | entry dest e relocationEnd =>
        obtain ⟨below', lower⟩ := entry_climbs turn below
        exact ⟨⟨reaches.snoc turn, below'⟩, lower⟩
    · refine terminates_iff_not_comesBack.mpr ?_
      rintro ⟨s, s', reaches, -⟩
      exact entered ⟨reaches.differs, reaches.some⟩

/-- An image for base `0x400000` whose relocation table starts with a block for
`0x100` of no bytes. -/
def emptyBlock : DllContext where
  output := {
    header := { optionalHeader := {
      imageBase := 0x400000
      addressOfEntryPoint := 0x40
      sizeOfImage := 0x200
      dataDirectory := fun i => if i = imageDirectoryEntryBaseReloc then ⟨0x10, 12⟩ else {} } }
    image := 0x50000 }
  image := ofWords [(0x10, 0x100)]

theorem emptyBlock_stays : ¬ Terminates .target 0x50000 emptyBlock := by
  have reaches : Reaches .target 0x50000 emptyBlock (.block 0x10, emptyBlock.setErrorContext .relocate) :=
    ⟨by decide, by decide, .refl _⟩
  have address : (emptyBlock.setErrorContext .relocate).load32 .target 0x10 = 0x100 := by decide +kernel
  have none : (emptyBlock.setErrorContext .relocate).load32 .target (0x10 + 4) = 0 := by decide +kernel
  have room : (emptyBlock.setErrorContext .relocate).output.image + 0x10 + 8 < Build.target.space := by decide
  refine fun terminates => terminates_iff_not_comesBack.mp terminates (stays reaches ?_ none room)
  rw [address]
  decide

end Dyndxt.Loader
