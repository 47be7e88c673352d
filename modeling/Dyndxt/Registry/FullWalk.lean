import Dyndxt.Registry.Walk

/-!
# Walking an unchanged registry

From the start of a walk `MREnumerateRegistry` returns the slots in order, one
a call, and false from then on. `MREnumerateRegistryBegin` takes the first
module without asking whether there is one.
-/

namespace Dyndxt.Registry
open Dyndxt.Pool Dyndxt.Map Dyndxt.Run

/-- What so many calls of `MREnumerateRegistry` return; `none` is a read of
something else through the cursor. -/
def enumerate (r : ModuleRegistry) : Nat → ModuleRegistryCursor → Option (List (Option (List UInt8 × ModuleExport)))
  | 0, _ => some []
  | n + 1, cursor => do
    let (found, cursor) ← mrEnumerateRegistry cursor r
    return found :: (← enumerate r n cursor)

/-- The slot of an export returned. -/
def foundSlot (found : List UInt8 × ModuleExport) : Slot := (found.1, found.2.ordinal)

/-- The slots that registrations fill. -/
def slotsOf (regs : List Registration) : List Slot := regs.map fun reg => (reg.1, reg.2.ordinal)

/-- A walk can be started and returns each registered slot once, as many as are
counted, and then false for ever. -/
def EnumeratesAll (regs : List Registration) (r : ModuleRegistry) : Prop :=
  ∃ cursor, mrEnumerateRegistryBegin r = some cursor ∧ ∃ found : List (List UInt8 × ModuleExport),
    found.length = (mrGetTotalNumExports r).toNat ∧ (found.map foundSlot).Nodup ∧
    (∀ slot, slot ∈ found.map foundSlot ↔ slot ∈ slotsOf regs) ∧
    ∀ n, enumerate r n cursor = some ((List.range n).map fun i => found[i]?)

variable {r : ModuleRegistry} {cursor : ModuleRegistryCursor} {passed ahead : List Slot}

/-- At its end a walk stays there. -/
theorem enumerate_ended (ended : mrEnumerateRegistry cursor r = some (none, cursor)) (n : Nat) :
    enumerate r n cursor = some (List.replicate n none) := by
  induction n with
  | zero => rfl
  | succ n ih =>
    rw [enumerate, ended]
    simp only [Option.bind_eq_bind, Option.bind_some, ih, List.replicate_succ]
    rfl

/-- From its place a walk returns what is ahead. -/
theorem Stands.enumerate (sturdy : Sturdy r.exportTable) (stands : Stands r.exportTable cursor passed ahead) :
    ∃ found : List (List UInt8 × ModuleExport), found.map foundSlot = ahead ∧
      ∀ n, Registry.enumerate r n cursor = some ((List.range n).map fun i => found[i]?) := by
  induction ahead generalizing cursor passed with
  | nil =>
    rcases stands.next sturdy with ⟨-, ended⟩ | ⟨name, e, rest, cursor', some_, -⟩
    · refine ⟨[], rfl, fun n => ?_⟩
      rw [enumerate_ended ended]
      simp
    · cases some_
  | cons slot ahead ih =>
    rcases stands.next sturdy with ⟨null, -⟩ | ⟨name, e, rest, cursor', some_, read, stands'⟩
    · cases stands.null sturdy null
    · cases some_
      obtain ⟨found, slots, calls⟩ := ih stands'
      refine ⟨(name, e) :: found, congrArg (_ :: ·) slots, fun n => ?_⟩
      cases n with
      | zero => rfl
      | succ n =>
        rw [Registry.enumerate, read]
        simp only [Option.bind_eq_bind, Option.bind_some, calls, List.range_succ_eq_map, List.map_cons, List.map_map]
        rfl

/-- Without registrations there is no module to start at. -/
theorem Sound.null {regs : List Registration} (sound : Sound regs r) (none : regs = []) :
    mrEnumerateRegistryBegin r = .none := by
  have empty := sound.contents
  rw [none] at empty
  unfold mrEnumerateRegistryBegin
  rw [List.map_eq_nil_iff.mp empty]

/-- After a history whose allocations succeeded a walk returns everything
registered exactly when something has been registered since the last reset,
and no more than the counter can count. -/
theorem enumeration_agrees (b : Build) (alloc : Ledger → Nat → Nat) (history : List RegistryCall) (r : ModuleRegistry)
    (reached : execOwnedAll b alloc history {} = .ok r) (granted : Granted r.calls) (fresh : Fresh r.calls) :
    EnumeratesAll (sinceReset history) r ↔
      sinceReset history ≠ [] ∧ (slotsOf (sinceReset history)).toFinset.card < 2 ^ 32 := by
  have ends := @execOwnedAll_sound b alloc {} [] history fun _ => sound_empty
  rw [reached] at ends
  have sound : Sound (sinceReset history) r := ends.2 granted
  have sturdy := sound.sturdy fresh
  have counted : r.contents.slots.length = (slotsOf (sinceReset history)).toFinset.card := by
    rw [sound.contents]
    exact length_slots_contentsOf
  have registered (slot : Slot) : slot ∈ r.contents.slots ↔ slot ∈ slotsOf (sinceReset history) := by
    rw [sound.contents]
    exact mem_slots_contentsOf
  constructor
  · rintro ⟨cursor, begun, found, length, nodup, listed, -⟩
    constructor
    · intro none
      rw [sound.null none] at begun
      cases begun
    · have same : (slotsOf (sinceReset history)).toFinset = (found.map foundSlot).toFinset := by
        ext slot
        rw [List.mem_toFinset, List.mem_toFinset, listed slot]
      rw [same, List.toFinset_card_of_nodup nodup, List.length_map, length]
      exact UInt32.toNat_lt _
  · rintro ⟨some_, few⟩
    have slots : r.contents.slots ≠ [] := by
      intro none
      obtain ⟨reg, regs, whole⟩ := List.exists_cons_of_ne_nil some_
      have listed : (reg.1, reg.2.ordinal) ∈ slotsOf (sinceReset history) := by rw [whole]; exact List.mem_cons_self
      rw [← registered, none] at listed
      cases listed
    obtain ⟨cursor, begun, stands⟩ := mrEnumerateRegistryBegin_stands sturdy slots
    obtain ⟨found, whole, calls⟩ := stands.enumerate sturdy
    refine ⟨cursor, begun, found, ?_, ?_, fun slot => ?_, calls⟩
    · rw [mrGetTotalNumExports_eq, UInt32.toNat_ofNat', ← List.length_map (f := foundSlot), whole,
        Nat.mod_eq_of_lt (counted ▸ few)]
    · rw [whole, sound.contents]
      exact (contentsOf_valid _).nodup_slots
    · rw [whole]
      exact registered slot

/-- One module with two exports, and another. -/
def threeExports : List RegistryCall :=
  [.register [109] ⟨1, none, none, 16⟩, .register [109] ⟨2, none, none, 32⟩, .register [110] ⟨1, none, none, 48⟩]

theorem threeExports_enumerated : ∃ r, execOwnedAll .target bump threeExports {} = .ok r ∧
    mrGetTotalNumExports r = 3 ∧ EnumeratesAll (sinceReset threeExports) r := by
  have outcome : (execOwnedAll .target bump threeExports {}).map (fun r =>
      (decide (Granted r.calls ∧ Fresh r.calls), mrGetTotalNumExports r)) = .ok (true, 3) := by decide +kernel
  cases reached : execOwnedAll .target bump threeExports {} with
  | error calls => rw [reached] at outcome; cases outcome
  | ok r =>
    rw [reached] at outcome
    obtain ⟨served, total⟩ := Prod.mk.inj (Except.ok.inj outcome)
    obtain ⟨granted, fresh⟩ := of_decide_eq_true served
    refine ⟨r, rfl, total, (enumeration_agrees .target bump threeExports r reached granted fresh).mpr ⟨?_, ?_⟩⟩
    · decide
    · decide

/-- Before the first registration, and directly after a reset, the null
`export_table` is dereferenced. -/
theorem emptyRegistry_undefined : ∃ r, execOwnedAll .target bump (threeExports ++ [.reset]) {} = .ok r ∧
    mrEnumerateRegistryBegin {} = none ∧ mrEnumerateRegistryBegin r = none ∧ ¬ EnumeratesAll [] {} ∧
    ¬ EnumeratesAll (sinceReset (threeExports ++ [.reset])) r := by
  have outcome : (execOwnedAll .target bump (threeExports ++ [.reset]) {}).map mrEnumerateRegistryBegin = .ok none := by
    decide +kernel
  cases reached : execOwnedAll .target bump (threeExports ++ [.reset]) {} with
  | error calls => rw [reached] at outcome; cases outcome
  | ok r =>
    rw [reached] at outcome
    have null : mrEnumerateRegistryBegin r = none := Except.ok.inj outcome
    refine ⟨r, rfl, rfl, null, ?_, ?_⟩
    · rintro ⟨cursor, begun, -⟩
      cases begun
    · rintro ⟨cursor, begun, -⟩
      cases null.symm.trans begun

end Dyndxt.Registry
