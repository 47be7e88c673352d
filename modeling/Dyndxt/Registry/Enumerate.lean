import Dyndxt.Registry.ModuleRegistry

/-!
# Enumerating the registry

A cursor is a pair of addresses. What stands at an address is looked up among
the blocks of the registry; reading anything else is undefined.
-/

namespace Dyndxt.Registry
open Dyndxt.Map

/-- `ModuleRegistryCursor`; null is 0. -/
structure ModuleRegistryCursor where
  module_ : Nat
  export_ : Nat
deriving DecidableEq, Repr

/-- The table at an address, and the tables after it. -/
def ModuleRegistry.tableAt (r : ModuleRegistry) (p : Nat) :
    Option (ModuleExportTable × List ModuleExportTable) :=
  match (seek ModuleExportTable.block p r.exportTable).2 with
  | [] => none
  | table :: later => some (table, later)

/-- The node at an address, and the nodes after it. -/
def ModuleRegistry.nodeAt (r : ModuleRegistry) (p : Nat) : Option (ExportNode × List ExportNode) :=
  r.exportTable.findSome? fun table => match (seek ExportNode.block p table.exports).2 with
    | [] => none
    | node :: later => some (node, later)

/-- The pointer to a list of nodes. -/
def nodesPtr : List ExportNode → Nat
  | [] => 0
  | node :: _ => node.block

/-- `MREnumerateRegistryBegin`; `none` is the null `export_table` dereferenced. -/
def mrEnumerateRegistryBegin (r : ModuleRegistry) : Option ModuleRegistryCursor :=
  match r.exportTable with
  | [] => none
  | table :: _ => some { module_ := table.block, export_ := nodesPtr table.exports }

/-- `MREnumerateRegistry`: the module's name and the entry, if it returns true,
and the cursor. `none` is a read of something else through the cursor. -/
def mrEnumerateRegistry (cursor : ModuleRegistryCursor) (r : ModuleRegistry) :
    Option (Option (List UInt8 × ModuleExport) × ModuleRegistryCursor) :=
  if cursor.module_ = 0 ∨ cursor.export_ = 0 then some (none, cursor)
  else do
    let (table, laterTables) ← r.tableAt cursor.module_
    let (node, laterNodes) ← r.nodeAt cursor.export_
    let found := some (table.name, node.entry)
    match laterNodes, laterTables with
    | next :: _, _ => some (found, { module_ := table.block, export_ := next.block })
    | [], next :: _ => some (found, { module_ := next.block, export_ := nodesPtr next.exports })
    | [], [] => some (found, { module_ := 0, export_ := 0 })

end Dyndxt.Registry
