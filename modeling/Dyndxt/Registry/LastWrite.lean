import Dyndxt.Run.Ends
import Dyndxt.Registry.Contents

/-!
# The last write wins

The registry's lists hold what its contents say: registering records, a reset
empties, and lookups and counters read the contents off. So over any history
whose allocations succeed, the registry is the map of the latest
registrations since the last reset.
-/

namespace Dyndxt.Registry
open Dyndxt.Pool Dyndxt.Map Dyndxt.Run

def ModuleExportTable.contents (e : ModuleExportTable) : List UInt8 × List ModuleExport :=
  (e.name, e.exports.map ExportNode.entry)

def ModuleRegistry.contents (r : ModuleRegistry) : Contents := r.exportTable.map ModuleExportTable.contents

/-- The names are distinct, the ordinals of each module are, and each module
has an export. -/
structure ModuleRegistry.Distinct (r : ModuleRegistry) : Prop where
  names : (r.exportTable.map ModuleExportTable.name).Nodup
  ordinals : ∀ e ∈ r.exportTable, (e.exports.map ExportNode.ordinal).Nodup
  nonempty : ∀ e ∈ r.exportTable, e.exports ≠ []

/-- The pool calls a run has made, whichever way it ended. -/
def ledgerOf : Except Ledger ModuleRegistry → Ledger
  | .ok r => r.calls
  | .error calls => calls

variable {b : Build} {alloc : Ledger → Nat → Nat} {r r' : ModuleRegistry} {calls : Ledger}
  {moduleName : List UInt8} {moduleExport : ModuleExport} {regs : List Registration}

/-! ## Registering records -/

theorem setExportEntry_ends : Ends (fun p => p.1.entry = moduleExport ∧ calls <:+ p.2) (Starved calls)
    (setExportEntry b alloc calls moduleExport) := by
  simp only [setExportEntry, dmAllocatePoolWithTag]
  refine .ite (fun null => ?_) fun _ => ⟨rfl, List.suffix_cons _ _⟩
  rw [null]
  exact ⟨List.suffix_cons _ _, not_granted_null⟩

/-- A new table is named and empty. -/
theorem setExportTableEntry_some {e : ModuleExportTable} {calls' : Ledger}
    (made : setExportTableEntry b alloc calls moduleName = (some e, calls')) :
    e.contents = (moduleName, []) ∧ calls <:+ calls' := by
  unfold setExportTableEntry dmAllocatePoolWithTag at made
  dsimp only at made
  split at made
  · cases made
  · split at made
    · next name calls' copied =>
      obtain ⟨chars, later⟩ := poolStrdup_some copied
      cases made
      exact ⟨Prod.ext chars rfl, (List.suffix_cons _ _).trans later⟩
    · cases made

/-- Without a table an allocation has failed. -/
theorem setExportTableEntry_none {calls' : Ledger}
    (made : setExportTableEntry b alloc calls moduleName = (none, calls')) : Starved calls calls' := by
  unfold setExportTableEntry dmAllocatePoolWithTag at made
  dsimp only at made
  split at made
  · next null =>
    cases made
    rw [null]
    exact ⟨List.suffix_cons _ _, not_granted_null⟩
  · split at made
    · cases made
    · next calls' copied =>
      obtain ⟨later, failed⟩ := poolStrdup_none copied
      cases made
      refine ⟨((List.suffix_cons _ _).trans later).trans (List.suffix_cons _ _), fun granted => ?_⟩
      exact failed (granted.of_suffix (List.suffix_cons _ _))

/-- An export appended or replaced is recorded. -/
theorem appendExport_ends (table : ModuleExportTable) :
    Ends (fun p => p.1.contents = recordIn moduleExport table.contents ∧ calls <:+ p.2) (Starved calls)
      (appendExport b alloc calls table moduleExport) := by
  have mapped : seek ModuleExport.ordinal moduleExport.ordinal (table.exports.map ExportNode.entry) =
      ((seek ExportNode.ordinal moduleExport.ordinal table.exports).1.map ExportNode.entry,
        (seek ExportNode.ordinal moduleExport.ordinal table.exports).2.map ExportNode.entry) :=
    seek_map fun _ => rfl
  simp only [recordIn, ModuleExportTable.contents, amend_seek, mapped]
  unfold appendExport
  cases found : seek ExportNode.ordinal moduleExport.ordinal table.exports with
  | mk before rest =>
    cases rest with
    | nil =>
      refine Ends.bind setExportEntry_ends ?_
      intro p appended
      obtain ⟨last, calls'⟩ := p
      obtain ⟨entry, later⟩ := appended
      have entry : last.entry = moduleExport := entry
      refine ⟨?_, later⟩
      simp only [List.map_append, List.map_cons, List.map_nil, entry]
      rfl
    | cons n after =>
      refine ⟨?_, (suffix_freeString _).trans (suffix_freeString _)⟩
      simp only [List.map_append, List.map_cons]
      rfl

/-- `MRRegisterMethod` records the export, unless an allocation failed. -/
theorem mrRegisterMethod_ends :
    Ends (fun p => r.calls <:+ p.2.calls ∧
        (p.1 = true ∧ p.2.contents = r.contents.record (moduleName, moduleExport) ∨
          p.1 = false ∧ ¬ Granted p.2.calls))
      (Starved r.calls) (mrRegisterMethod b alloc moduleName moduleExport r) := by
  have mapped : seek Prod.fst moduleName r.contents =
      ((seek ModuleExportTable.name moduleName r.exportTable).1.map ModuleExportTable.contents,
        (seek ModuleExportTable.name moduleName r.exportTable).2.map ModuleExportTable.contents) :=
    seek_map fun _ => rfl
  have whole := @seek_append _ _ _ ModuleExportTable.name moduleName r.exportTable
  simp only [Contents.record, amend_seek, mapped]
  unfold mrRegisterMethod
  cases found : seek ModuleExportTable.name moduleName r.exportTable with
  | mk before rest =>
    rw [found] at whole
    cases rest with
    | cons e after =>
      refine Ends.bind (appendExport_ends e) ?_
      intro p recorded
      obtain ⟨e', calls'⟩ := p
      obtain ⟨contents, later⟩ := recorded
      have contents : e'.contents = recordIn moduleExport e.contents := contents
      refine ⟨later, .inl ⟨rfl, ?_⟩⟩
      simp only [ModuleRegistry.contents, List.map_append, List.map_cons, contents]
      rfl
    | nil =>
      have all : before = r.exportTable := by simpa using whole
      simp only [appendExportTable]
      cases made : setExportTableEntry b alloc r.calls moduleName with
      | mk table calls =>
        cases table with
        | none =>
          obtain ⟨later, failed⟩ := setExportTableEntry_none made
          exact ⟨later, .inr ⟨rfl, failed⟩⟩
        | some e =>
          obtain ⟨empty, later⟩ := setExportTableEntry_some made
          refine Ends.bind ((appendExport_ends e).mono (fun _ h => h) ?_) ?_
          · exact fun calls' starved => starved.later later
          · intro p recorded
            obtain ⟨e', calls'⟩ := p
            obtain ⟨contents, later'⟩ := recorded
            have contents : e'.contents = recordIn moduleExport e.contents := contents
            refine ⟨later.trans later', .inl ⟨rfl, ?_⟩⟩
            simp only [ModuleRegistry.contents, List.map_append, List.map_cons, List.map_nil, contents,
              empty, all]
            rfl

/-! ## Histories -/

theorem suffix_freeExportNode (calls : Ledger) (node : ExportNode) : calls <:+ freeExportNode calls node :=
  ((suffix_freeString _).trans (suffix_freeString _)).trans (List.suffix_cons _ _)

theorem suffix_freeExportTable (calls : Ledger) (table : ModuleExportTable) :
    calls <:+ freeExportTable calls table := by
  have nodes := suffix_foldl suffix_freeExportNode table.exports calls
  exact (nodes.trans (List.suffix_cons _ _)).trans (List.suffix_cons _ _)

theorem suffix_reset : r.calls <:+ (mrResetRegistry r).calls :=
  suffix_foldl suffix_freeExportTable r.exportTable r.calls

/-- The registry holds the registrations, unless an allocation failed. -/
def Follows (regs : List Registration) (r : ModuleRegistry) : Prop :=
  r.contents = contentsOf regs ∨ ¬ Granted r.calls

/-- One call, whatever it is. -/
theorem exec_ends (call : RegistryCall) (follows : Follows regs r) :
    Ends (fun r' => r.calls <:+ r'.calls ∧ Follows (afterCall regs call) r') (Starved r.calls)
      (call.exec b alloc r) := by
  cases call with
  | reset => exact ⟨suffix_reset, .inl rfl⟩
  | register moduleName moduleExport =>
    have ends := @mrRegisterMethod_ends b alloc r moduleName moduleExport
    simp only [RegistryCall.exec]
    cases registered : mrRegisterMethod b alloc moduleName moduleExport r with
    | error calls => rw [registered] at ends; exact ends
    | ok p =>
      rw [registered] at ends
      obtain ⟨later, recorded | failed⟩ := ends
      · refine ⟨later, follows.imp (fun holds => ?_) fun failed granted => ?_⟩
        · rw [afterCall, contentsOf_snoc, ← holds]
          exact recorded.2
        · exact failed (granted.of_suffix later)
      · exact ⟨later, .inr failed.2⟩

/-- A history of calls. -/
theorem execAll_ends (history : List RegistryCall) (follows : Follows regs r) :
    Ends (fun r' => r.calls <:+ r'.calls ∧ Follows (history.foldl afterCall regs) r') (Starved r.calls)
      (execAll b alloc history r) := by
  induction history generalizing r regs with
  | nil => exact ⟨List.suffix_rfl, follows⟩
  | cons call history ih =>
    unfold execAll
    rw [List.foldlM_cons, List.foldl_cons]
    have first := @exec_ends b alloc r regs call follows
    cases executed : call.exec b alloc r with
    | error calls => rw [executed] at first; exact first
    | ok r' =>
      rw [executed] at first
      refine (ih first.2).mono (fun r'' h => ?_) fun calls starved => ?_
      · exact ⟨first.1.trans h.1, h.2⟩
      · exact starved.later first.1

/-! ## Reading the contents -/

/-- A lookup finds the address of what the contents hold. -/
theorem mrGetMethodByOrdinal_eq (moduleName : List UInt8) (ordinal : UInt32) :
    mrGetMethodByOrdinal moduleName ordinal r = match r.contents.find moduleName ordinal with
      | some e => (true, e.address)
      | none => (false, 0) := by
  have modules : row Prod.fst moduleName r.contents =
      (row ModuleExportTable.name moduleName r.exportTable).map ModuleExportTable.contents :=
    row_map fun _ => rfl
  unfold mrGetMethodByOrdinal Contents.find
  rw [modules]
  cases row ModuleExportTable.name moduleName r.exportTable with
  | none => rfl
  | some table =>
    have exports : row ModuleExport.ordinal ordinal (table.exports.map ExportNode.entry) =
        (row ExportNode.ordinal ordinal table.exports).map ExportNode.entry := row_map fun _ => rfl
    simp only [Option.map_some, Option.bind_some, ModuleExportTable.contents, exports]
    cases row ExportNode.ordinal ordinal table.exports <;> rfl

/-- Counting the nodes of a list. -/
theorem foldl_count {α : Type} (nodes : List α) (ret : UInt32) :
    nodes.foldl (fun ret _ => ret + 1) ret = ret + .ofNat nodes.length := by
  induction nodes generalizing ret with
  | nil => simp
  | cons node nodes ih =>
    rw [List.foldl_cons, ih, List.length_cons, UInt32.ofNat_add, UInt32.add_assoc, UInt32.add_comm 1]
    rfl

theorem mrGetNumRegisteredModules_eq : mrGetNumRegisteredModules r = .ofNat r.contents.length := by
  unfold mrGetNumRegisteredModules
  rw [foldl_count, ModuleRegistry.contents, List.length_map, UInt32.zero_add]

theorem mrGetTotalNumExports_eq : mrGetTotalNumExports r = .ofNat r.contents.slots.length := by
  have tables (tables : List ModuleExportTable) (ret : UInt32) :
      tables.foldl (fun ret table => table.exports.foldl (fun ret _ => ret + 1) ret) ret =
        ret + .ofNat (Contents.slots (tables.map ModuleExportTable.contents)).length := by
    induction tables generalizing ret with
    | nil => simp [Contents.slots]
    | cons table tables ih =>
      rw [List.foldl_cons, ih, foldl_count, UInt32.add_assoc, ← UInt32.ofNat_add]
      simp [Contents.slots, ModuleExportTable.contents]
  unfold mrGetTotalNumExports
  rw [tables, UInt32.zero_add]
  rfl

theorem ModuleRegistry.distinct_of_valid (valid : r.contents.Valid) : r.Distinct := by
  constructor
  · have names := valid.names
    rwa [ModuleRegistry.contents, List.map_map] at names
  · intro e listed
    have ordinals := valid.ordinals e.contents (List.mem_map_of_mem listed)
    rwa [ModuleExportTable.contents, List.map_map] at ordinals
  · intro e listed none
    refine valid.nonempty e.contents (List.mem_map_of_mem listed) ?_
    rw [ModuleExportTable.contents, none, List.map_nil]

/-- The registry after a history whose allocations all succeeded is the map of
the latest registrations since the last reset. -/
theorem registry_last_write_wins (b : Build) (alloc : Ledger → Nat → Nat) (history : List RegistryCall)
    (granted : Granted (ledgerOf (execAll b alloc history {}))) :
    ∃ r, execAll b alloc history {} = .ok r ∧ r.Distinct ∧
      (∀ moduleName ordinal, mrGetMethodByOrdinal moduleName ordinal r =
        match latest (sinceReset history) moduleName ordinal with
        | some e => (true, e.address)
        | none => (false, 0)) ∧
      mrGetNumRegisteredModules r = .ofNat ((sinceReset history).map Prod.fst).toFinset.card ∧
      mrGetTotalNumExports r =
        .ofNat ((sinceReset history).map fun reg => (reg.1, reg.2.ordinal)).toFinset.card := by
  have ends := @execAll_ends b alloc {} [] history (.inl rfl)
  cases executed : execAll b alloc history {} with
  | error calls =>
    rw [executed] at ends granted
    exact absurd granted ends.2
  | ok r =>
    rw [executed] at ends granted
    have holds : r.contents = contentsOf (sinceReset history) := ends.2.resolve_right fun h => h granted
    refine ⟨r, rfl, ModuleRegistry.distinct_of_valid ?_, fun moduleName ordinal => ?_, ?_, ?_⟩
    · rw [holds]
      exact contentsOf_valid _
    · rw [mrGetMethodByOrdinal_eq, holds, find_contentsOf]
    · rw [mrGetNumRegisteredModules_eq, holds, length_contentsOf]
    · rw [mrGetTotalNumExports_eq, holds, length_slots_contentsOf]

/-- A module lost at a reset, then two exports of which one is replaced. -/
def replacedExport : List RegistryCall :=
  [.register [107] ⟨1, none, none, 16⟩, .reset, .register [109] ⟨1, none, none, 32⟩,
    .register [109] ⟨2, none, none, 48⟩, .register [109] ⟨1, none, none, 64⟩]

theorem replacedExport_last_write : ∃ r, execAll .target bump replacedExport {} = .ok r ∧
    mrGetMethodByOrdinal [109] 1 r = (true, 64) ∧ mrGetMethodByOrdinal [107] 1 r = (false, 0) ∧
    mrGetNumRegisteredModules r = 1 ∧ mrGetTotalNumExports r = 2 := by
  obtain ⟨r, executed, -, lookups, modules, exports⟩ :=
    registry_last_write_wins .target bump replacedExport (by decide +kernel)
  exact ⟨r, executed, lookups [109] 1, lookups [107] 1, modules, exports⟩

end Dyndxt.Registry
