import Dyndxt.Build
import Dyndxt.Pool.DmPool
import Dyndxt.Map.Rows

/-!
# `module_registry.c`

The registry's linked lists as Lean lists: the place a loop appends at is the
end of its list, and a node is known by its pool block. Every call of the pool
is on a ledger. An error is a null pointer dereferenced, with the pool calls
made until then.
-/

namespace Dyndxt.Registry
open Dyndxt.Pool Dyndxt.Map

/-- `ModuleExport`; a null string is `none`. -/
structure ModuleExport where
  ordinal : UInt32
  methodName : Option PoolString
  alias_ : Option PoolString
  address : UInt32
deriving DecidableEq, Repr

structure ExportNode where
  block : Nat
  entry : ModuleExport
deriving DecidableEq, Repr

structure ModuleExportTable where
  block : Nat
  moduleName : PoolString
  exports : List ExportNode
deriving DecidableEq, Repr

/-- `export_table`, with the pool calls made so far. -/
structure ModuleRegistry where
  exportTable : List ModuleExportTable := []
  calls : Ledger := []
deriving DecidableEq, Repr

def ExportNode.ordinal (n : ExportNode) : UInt32 := n.entry.ordinal

def ModuleExportTable.name (e : ModuleExportTable) : List UInt8 := e.moduleName.chars

def sizeofExportNode : Build → Nat
  | .target => 20
  | .host => 40

def sizeofModuleExportTable (b : Build) : Nat := 3 * b.sizeofPtr

section

variable (b : Build) (alloc : Ledger → Nat → Nat)

/-! ## Registration -/

/-- `SetExportEntry`. It tests the place `n` and not the block there, so that
a failed allocation is written through. -/
def setExportEntry (calls : Ledger) (moduleExport : ModuleExport) : Except Ledger (ExportNode × Ledger) :=
  let (n, calls) := dmAllocatePoolWithTag alloc calls (sizeofExportNode b)
  if n = 0 then .error calls else .ok (⟨n, moduleExport⟩, calls)

/-- `AppendExport`, with the table as it leaves it; it never returns false. -/
def appendExport (calls : Ledger) (table : ModuleExportTable) (moduleExport : ModuleExport) :
    Except Ledger (ModuleExportTable × Ledger) :=
  match seek ExportNode.ordinal moduleExport.ordinal table.exports with
  | (before, n :: after) =>
    let calls := freeString calls n.entry.methodName
    let calls := freeString calls n.entry.alias_
    .ok ({ table with exports := before ++ { n with entry := moduleExport } :: after }, calls)
  | (before, []) => do
    let (last, calls) ← setExportEntry b alloc calls moduleExport
    return ({ table with exports := before ++ [last] }, calls)

/-- `SetExportTableEntry`; `none` is a return of false, the place left null. -/
def setExportTableEntry (calls : Ledger) (moduleName : List UInt8) : Option ModuleExportTable × Ledger :=
  let (dest, calls) := dmAllocatePoolWithTag alloc calls (sizeofModuleExportTable b)
  if dest = 0 then (none, calls)
  else match poolStrdup alloc calls moduleName with
    | (some name, calls) => (some ⟨dest, name, []⟩, calls)
    | (none, calls) => (none, .free dest :: calls)

/-- `AppendExportTable`. -/
def appendExportTable (moduleName : List UInt8) (moduleExport : ModuleExport) (r : ModuleRegistry) :
    Except Ledger (Bool × ModuleRegistry) :=
  match setExportTableEntry b alloc r.calls moduleName with
  | (none, calls) => .ok (false, { r with calls })
  | (some e, calls) => do
    let (e, calls) ← appendExport b alloc calls e moduleExport
    return (true, { exportTable := r.exportTable ++ [e], calls })

/-- `MRRegisterMethod`. -/
def mrRegisterMethod (moduleName : List UInt8) (moduleExport : ModuleExport) (r : ModuleRegistry) :
    Except Ledger (Bool × ModuleRegistry) :=
  match seek ModuleExportTable.name moduleName r.exportTable with
  | (before, e :: after) => do
    let (e, calls) ← appendExport b alloc r.calls e moduleExport
    return (true, { exportTable := before ++ e :: after, calls })
  | (_, []) => appendExportTable b alloc moduleName moduleExport r

end

/-! ## Lookups and counters -/

/-- `MRGetMethodByOrdinal`, with `*result`. -/
def mrGetMethodByOrdinal (moduleName : List UInt8) (ordinal : UInt32) (r : ModuleRegistry) : Bool × UInt32 :=
  match row ModuleExportTable.name moduleName r.exportTable with
  | none => (false, 0)
  | some table => match row ExportNode.ordinal ordinal table.exports with
    | none => (false, 0)
    | some node => (true, node.entry.address)

/-- One of the two names an entry is found by. -/
def ExportNode.isNamed (node : ExportNode) (name : List UInt8) : Bool :=
  node.entry.methodName.map (·.chars) = some name ∨ node.entry.alias_.map (·.chars) = some name

/-- `MRGetMethodByName`, with `*result`. -/
def mrGetMethodByName (moduleName name : List UInt8) (r : ModuleRegistry) : Bool × UInt32 :=
  match row ModuleExportTable.name moduleName r.exportTable with
  | none => (false, 0)
  | some table => match table.exports.find? fun node => node.isNamed name with
    | none => (false, 0)
    | some node => (true, node.entry.address)

/-- `MRGetNumRegisteredModules`. -/
def mrGetNumRegisteredModules (r : ModuleRegistry) : UInt32 :=
  r.exportTable.foldl (fun ret _ => ret + 1) 0

/-- `MRGetTotalNumExports`. -/
def mrGetTotalNumExports (r : ModuleRegistry) : UInt32 :=
  r.exportTable.foldl (fun ret table => table.exports.foldl (fun ret _ => ret + 1) ret) 0

/-! ## Reset -/

/-- The frees of one node. -/
def freeExportNode (calls : Ledger) (node : ExportNode) : Ledger :=
  .free node.block :: freeString (freeString calls node.entry.methodName) node.entry.alias_

/-- The frees of one table: its nodes, its name and itself. -/
def freeExportTable (calls : Ledger) (table : ModuleExportTable) : Ledger :=
  .free table.block :: .free table.moduleName.block :: table.exports.foldl freeExportNode calls

/-- `MRResetRegistry`. -/
def mrResetRegistry (r : ModuleRegistry) : ModuleRegistry where
  exportTable := []
  calls := r.exportTable.foldl freeExportTable r.calls

/-! ## Histories of calls -/

/-- The calls that change the registry. -/
inductive RegistryCall where
  | register (moduleName : List UInt8) (moduleExport : ModuleExport)
  | reset
deriving DecidableEq, Repr

section

variable (b : Build) (alloc : Ledger → Nat → Nat)

def RegistryCall.exec (r : ModuleRegistry) : RegistryCall → Except Ledger ModuleRegistry
  | .register moduleName moduleExport =>
    (mrRegisterMethod b alloc moduleName moduleExport r).map Prod.snd
  | .reset => .ok (mrResetRegistry r)

/-- The calls of a history, in order. -/
def execAll (history : List RegistryCall) (r : ModuleRegistry) : Except Ledger ModuleRegistry :=
  history.foldlM (RegistryCall.exec b alloc) r

end

end Dyndxt.Registry
