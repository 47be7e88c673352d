import Dyndxt.Registry.ModuleRegistry
import Dyndxt.Pool.Held

/-!
# What a registration can do

The ways a call of `MRRegisterMethod` can go, with the lists and the pool
calls it leaves: three that register, two that refuse and two that write
through a null pointer.
-/

namespace Dyndxt.Registry
open Dyndxt.Pool Dyndxt.Map

/-- The strings of an export. -/
def ModuleExport.strings (e : ModuleExport) : List Nat := stringBlock e.methodName ++ stringBlock e.alias_

/-- The module with the name stands between these tables. -/
abbrev ModuleAt (moduleName : List UInt8) (r : ModuleRegistry) (before : List ModuleExportTable)
    (table : ModuleExportTable) (after : List ModuleExportTable) : Prop :=
  Located ModuleExportTable.name moduleName r.exportTable before table after

/-- The node with the ordinal stands between these nodes. -/
abbrev NodeAt (ordinal : UInt32) (table : ModuleExportTable) (first : List ExportNode) (node : ExportNode)
    (last : List ExportNode) : Prop :=
  Located ExportNode.ordinal ordinal table.exports first node last

abbrev NoModule (moduleName : List UInt8) (r : ModuleRegistry) : Prop :=
  Absent ModuleExportTable.name moduleName r.exportTable

abbrev NoNode (ordinal : UInt32) (table : ModuleExportTable) : Prop :=
  Absent ExportNode.ordinal ordinal table.exports

section

variable (b : Build) (alloc : Ledger → Nat → Nat)

/-- The ledger after the allocation of a table. -/
def tableCalls (r : ModuleRegistry) : Ledger :=
  .alloc (sizeofModuleExportTable b) (alloc r.calls (sizeofModuleExportTable b)) :: r.calls

/-- The ledger after the allocations of a table and its name. -/
def nameCalls (moduleName : List UInt8) (r : ModuleRegistry) : Ledger :=
  .alloc ((moduleName.length + 1) % 2 ^ 32) (alloc (tableCalls b alloc r) ((moduleName.length + 1) % 2 ^ 32)) ::
    tableCalls b alloc r

/-- The outcomes of `MRRegisterMethod`. -/
inductive Registering (moduleName : List UInt8) (e : ModuleExport) (r : ModuleRegistry) :
    Except Ledger (Bool × ModuleRegistry) → Prop where
  | replaced {before after : List ModuleExportTable} {table : ModuleExportTable} {first last : List ExportNode}
      {node : ExportNode} : ModuleAt moduleName r before table after → NodeAt e.ordinal table first node last →
      Registering moduleName e r (.ok (true,
        { exportTable := before ++ { table with exports := first ++ { node with entry := e } :: last } :: after
          calls := freeAll node.entry.strings r.calls }))
  | added {before after : List ModuleExportTable} {table : ModuleExportTable} {block : Nat} :
      ModuleAt moduleName r before table after → NoNode e.ordinal table →
      alloc r.calls (sizeofExportNode b) = block → block ≠ 0 →
      Registering moduleName e r (.ok (true,
        { exportTable := before ++ { table with exports := table.exports ++ [⟨block, e⟩] } :: after
          calls := .alloc (sizeofExportNode b) block :: r.calls }))
  | nodeFailed {before after : List ModuleExportTable} {table : ModuleExportTable} :
      ModuleAt moduleName r before table after → NoNode e.ordinal table →
      alloc r.calls (sizeofExportNode b) = 0 →
      Registering moduleName e r (.error (.alloc (sizeofExportNode b) 0 :: r.calls))
  | tableFailed : NoModule moduleName r → alloc r.calls (sizeofModuleExportTable b) = 0 →
      Registering moduleName e r (.ok (false, { r with calls := tableCalls b alloc r }))
  | nameFailed {block : Nat} : NoModule moduleName r →
      alloc r.calls (sizeofModuleExportTable b) = block → block ≠ 0 →
      alloc (tableCalls b alloc r) ((moduleName.length + 1) % 2 ^ 32) = 0 →
      Registering moduleName e r (.ok (false, { r with calls := .free block :: nameCalls b alloc moduleName r }))
  | firstFailed : NoModule moduleName r →
      alloc r.calls (sizeofModuleExportTable b) ≠ 0 →
      alloc (tableCalls b alloc r) ((moduleName.length + 1) % 2 ^ 32) ≠ 0 →
      alloc (nameCalls b alloc moduleName r) (sizeofExportNode b) = 0 →
      Registering moduleName e r (.error (.alloc (sizeofExportNode b) 0 :: nameCalls b alloc moduleName r))
  | opened {block nameBlock nodeBlock : Nat} : NoModule moduleName r →
      alloc r.calls (sizeofModuleExportTable b) = block → block ≠ 0 →
      alloc (tableCalls b alloc r) ((moduleName.length + 1) % 2 ^ 32) = nameBlock → nameBlock ≠ 0 →
      alloc (nameCalls b alloc moduleName r) (sizeofExportNode b) = nodeBlock → nodeBlock ≠ 0 →
      Registering moduleName e r (.ok (true,
        { exportTable := r.exportTable ++ [⟨block, ⟨nameBlock, moduleName⟩, [⟨nodeBlock, e⟩]⟩]
          calls := .alloc (sizeofExportNode b) nodeBlock :: nameCalls b alloc moduleName r }))

end

variable {b : Build} {alloc : Ledger → Nat → Nat} {r : ModuleRegistry} {moduleName : List UInt8} {e : ModuleExport}

theorem setExportEntry_null {calls : Ledger} (null : alloc calls (sizeofExportNode b) = 0) :
    setExportEntry b alloc calls e = .error (.alloc (sizeofExportNode b) 0 :: calls) := by
  simp only [setExportEntry, dmAllocatePoolWithTag, null, if_true]

theorem setExportEntry_some {calls : Ledger} (some_ : alloc calls (sizeofExportNode b) ≠ 0) :
    setExportEntry b alloc calls e = .ok (⟨alloc calls (sizeofExportNode b), e⟩,
      .alloc (sizeofExportNode b) (alloc calls (sizeofExportNode b)) :: calls) := by
  simp only [setExportEntry, dmAllocatePoolWithTag, some_, if_false]

theorem mrRegisterMethod_registering (b : Build) (alloc : Ledger → Nat → Nat) (moduleName : List UInt8)
    (e : ModuleExport) (r : ModuleRegistry) :
    Registering b alloc moduleName e r (mrRegisterMethod b alloc moduleName e r) := by
  unfold mrRegisterMethod
  split
  · next before table after found =>
    have module_ := located_of_seek found
    unfold appendExport
    split
    · next first node last found =>
      have replaced := @Registering.replaced b alloc moduleName e r _ _ _ _ _ _ module_ (located_of_seek found)
      rw [ModuleExport.strings, freeAll_append, ← freeString_eq, ← freeString_eq] at replaced
      exact replaced
    · next first found =>
      obtain ⟨whole, absent⟩ := absent_of_seek found
      subst whole
      by_cases null : alloc r.calls (sizeofExportNode b) = 0
      · rw [setExportEntry_null null]
        exact .nodeFailed module_ absent null
      · rw [setExportEntry_some null]
        exact .added module_ absent rfl null
  · next before found =>
    obtain ⟨-, absent⟩ := absent_of_seek found
    unfold appendExportTable
    by_cases noTable : alloc r.calls (sizeofModuleExportTable b) = 0
    · simp only [setExportTableEntry, dmAllocatePoolWithTag, noTable, if_true]
      have failed := Registering.tableFailed (e := e) absent noTable
      rwa [tableCalls, noTable] at failed
    by_cases noName : alloc (tableCalls b alloc r) ((moduleName.length + 1) % 2 ^ 32) = 0
    · have failed := Registering.nameFailed (e := e) absent rfl noTable noName
      rw [nameCalls, noName] at failed
      rw [tableCalls] at noName failed
      simp only [setExportTableEntry, poolStrdup, dmAllocatePoolWithTag, noTable, noName, if_false, if_true]
      exact failed
    have made : setExportTableEntry b alloc r.calls moduleName =
        (some ⟨alloc r.calls (sizeofModuleExportTable b),
          ⟨alloc (tableCalls b alloc r) ((moduleName.length + 1) % 2 ^ 32), moduleName⟩, []⟩,
        nameCalls b alloc moduleName r) := by
      rw [nameCalls]
      rw [tableCalls] at noName ⊢
      simp only [setExportTableEntry, poolStrdup, dmAllocatePoolWithTag, noTable, noName, if_false]
    rw [made]
    simp only [appendExport, seek, List.span_eq_takeWhile_dropWhile, List.takeWhile_nil, List.dropWhile_nil]
    by_cases noNode : alloc (nameCalls b alloc moduleName r) (sizeofExportNode b) = 0
    · rw [setExportEntry_null noNode]
      exact .firstFailed absent noTable noName noNode
    · rw [setExportEntry_some noNode]
      exact .opened absent rfl noTable rfl noName rfl noNode

end Dyndxt.Registry
