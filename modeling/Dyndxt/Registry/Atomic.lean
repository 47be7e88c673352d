import Dyndxt.Registry.Enumerate
import Dyndxt.Registry.LastWrite
import Dyndxt.Registry.Registering

/-!
# Registrations that fail

`SetExportEntry` misses a failed allocation. A registration is all or nothing
when the node it needs, if it needs one and gets that far, is allocated, and
only then.
-/

namespace Dyndxt.Registry
open Dyndxt.Pool Dyndxt.Map Dyndxt.Run

/-- Every observer sees the same registry. -/
structure SameView (r r' : ModuleRegistry) : Prop where
  modules : mrGetNumRegisteredModules r' = mrGetNumRegisteredModules r
  exports : mrGetTotalNumExports r' = mrGetTotalNumExports r
  byOrdinal : ∀ moduleName ordinal, mrGetMethodByOrdinal moduleName ordinal r' = mrGetMethodByOrdinal moduleName ordinal r
  byName : ∀ moduleName name, mrGetMethodByName moduleName name r' = mrGetMethodByName moduleName name r
  begins : mrEnumerateRegistryBegin r' = mrEnumerateRegistryBegin r
  enumerates : ∀ cursor, mrEnumerateRegistry cursor r' = mrEnumerateRegistry cursor r

/-- The call has returned true and registered, or false and changed nothing. -/
def AllOrNothing (moduleName : List UInt8) (e : ModuleExport) (r : ModuleRegistry)
    (x : Except Ledger (Bool × ModuleRegistry)) : Prop :=
  ∃ registered r', x = .ok (registered, r') ∧
    (registered = true ∧ r'.contents = r.contents.record (moduleName, e) ∨ registered = false ∧ SameView r r')

section

variable (b : Build) (alloc : Ledger → Nat → Nat)

/-- The allocation of an export node, where the call needs one and gets to it,
succeeds. -/
def NodeAllocated (moduleName : List UInt8) (e : ModuleExport) (r : ModuleRegistry) : Prop :=
  match row ModuleExportTable.name moduleName r.exportTable with
  | some table => (row ExportNode.ordinal e.ordinal table.exports).isSome ∨ alloc r.calls (sizeofExportNode b) ≠ 0
  | none => alloc r.calls (sizeofModuleExportTable b) = 0 ∨
      alloc (tableCalls b alloc r) ((moduleName.length + 1) % 2 ^ 32) = 0 ∨
      alloc (nameCalls b alloc moduleName r) (sizeofExportNode b) ≠ 0

end

variable {b : Build} {alloc : Ledger → Nat → Nat} {r r' : ModuleRegistry} {moduleName : List UInt8}
  {e : ModuleExport}

/-- The observers read the lists only. -/
theorem sameView_of_lists (same : r'.exportTable = r.exportTable) : SameView r r' := by
  obtain ⟨tables, calls⟩ := r
  obtain ⟨tables', calls'⟩ := r'
  cases same
  constructor <;> intros <;> rfl

theorem allOrNothing_true (registered : mrRegisterMethod b alloc moduleName e r = .ok (true, r')) :
    AllOrNothing moduleName e r (.ok (true, r')) := by
  have ends := @mrRegisterMethod_ends b alloc r moduleName e
  rw [registered] at ends
  obtain ⟨-, recorded | failed⟩ := ends
  · exact ⟨true, r', rfl, .inl recorded⟩
  · cases failed.1

theorem allOrNothing_false (same : r'.exportTable = r.exportTable) :
    AllOrNothing moduleName e r (.ok (false, r')) :=
  ⟨false, r', rfl, .inr ⟨rfl, sameView_of_lists same⟩⟩

theorem not_allOrNothing_error {calls : Ledger} : ¬ AllOrNothing moduleName e r (.error calls) := by
  intro h
  obtain ⟨_, _, returned, _⟩ := h
  cases returned

/-- A registration is all or nothing exactly when its node is allocated. -/
theorem mrRegisterMethod_all_or_nothing (b : Build) (alloc : Ledger → Nat → Nat) (moduleName : List UInt8)
    (e : ModuleExport) (r : ModuleRegistry) :
    AllOrNothing moduleName e r (mrRegisterMethod b alloc moduleName e r) ↔
      NodeAllocated b alloc moduleName e r := by
  have outcome := mrRegisterMethod_registering b alloc moduleName e r
  unfold NodeAllocated
  generalize called : mrRegisterMethod b alloc moduleName e r = x at outcome
  cases outcome with
  | replaced module_ node_ =>
    rw [module_.row]
    exact iff_of_true (allOrNothing_true called) (.inl (by rw [node_.row]; rfl))
  | added module_ absent made some_ =>
    rw [module_.row]
    exact iff_of_true (allOrNothing_true called) (.inr (made ▸ some_))
  | nodeFailed module_ absent null =>
    rw [module_.row]
    refine iff_of_false not_allOrNothing_error fun allocated => ?_
    dsimp only at allocated
    rw [absent.row] at allocated
    rcases allocated with known | some_
    · cases known
    · exact some_ null
  | tableFailed absent null =>
    rw [absent.row]
    exact iff_of_true (allOrNothing_false rfl) (.inl null)
  | nameFailed absent made some_ null =>
    rw [absent.row]
    exact iff_of_true (allOrNothing_false rfl) (.inr (.inl null))
  | firstFailed absent some_ named null =>
    rw [absent.row]
    refine iff_of_false not_allOrNothing_error fun allocated => ?_
    rcases allocated with noTable | noName | noded
    · exact some_ noTable
    · exact named noName
    · exact noded null
  | opened absent made some_ named nameSome noded nodeSome =>
    rw [absent.row]
    exact iff_of_true (allOrNothing_true called) (.inr (.inr (noded ▸ nodeSome)))

/-- The node of the first export of a new module is not allocated: it is
written through a null pointer. -/
theorem mrRegisterMethod_starved : ¬ AllOrNothing [109] ⟨1, none, none, 16⟩ {}
    (mrRegisterMethod .target (fun calls size => if calls.length = 2 then 0 else bump calls size) [109]
      ⟨1, none, none, 16⟩ {}) := by
  have called : mrRegisterMethod .target (fun calls size => if calls.length = 2 then 0 else bump calls size) [109]
      ⟨1, none, none, 16⟩ {} = .error [.alloc 20 0, .alloc 2 4160, .alloc 12 4096] := by decide +kernel
  rw [called]
  exact not_allOrNothing_error

end Dyndxt.Registry
