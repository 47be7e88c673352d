import Dyndxt.Registry.Enumerate
import Dyndxt.Registry.Ownership

/-!
# Walking the registry while it grows

A cursor stands between the slots it has passed and those ahead. Registering
only adds to the lists' tails, so what is ahead stays ahead and what is passed
stays passed, wherever the new slot goes.
-/

namespace Dyndxt.Registry
open Dyndxt.Pool Dyndxt.Map Dyndxt.Run

/-- A module and an ordinal. -/
abbrev Slot := List UInt8 × UInt32

def slotOf (name : List UInt8) (node : ExportNode) : Slot := (name, node.ordinal)

def ModuleExportTable.slots (table : ModuleExportTable) : List Slot := table.exports.map (slotOf table.name)

/-- A cursor between the slots passed and those ahead. -/
inductive Stands (tables : List ModuleExportTable) : ModuleRegistryCursor → List Slot → List Slot → Prop where
  | at_ {done later : List ModuleExportTable} {table : ModuleExportTable} {first last : List ExportNode}
      {node : ExportNode} : tables = done ++ table :: later → table.exports = first ++ node :: last →
      Stands tables ⟨table.block, node.block⟩
        (done.flatMap ModuleExportTable.slots ++ first.map (slotOf table.name))
        ((node :: last).map (slotOf table.name) ++ later.flatMap ModuleExportTable.slots)
  | finished (export_ : Nat) : Stands tables ⟨0, export_⟩ (tables.flatMap ModuleExportTable.slots) []

/-- Addresses tell tables and nodes apart, and no table is empty. -/
structure Sturdy (tables : List ModuleExportTable) : Prop where
  tableBlocks : (tables.map ModuleExportTable.block).Nodup
  nodeBlocks : ((tables.flatMap ModuleExportTable.exports).map ExportNode.block).Nodup
  tableSome : ∀ table ∈ tables, table.block ≠ 0
  nodeSome : ∀ table ∈ tables, ∀ node ∈ table.exports, node.block ≠ 0
  nonempty : ∀ table ∈ tables, table.exports ≠ []

/-- A node's address and ordinal. -/
def ExportNode.key (node : ExportNode) : Nat × UInt32 := (node.block, node.ordinal)

/-- A table after more registrations: entries rewritten, nodes added last. -/
structure TableGrows (table table' : ModuleExportTable) : Prop where
  block : table'.block = table.block
  name : table'.name = table.name
  nodes : ∃ extra, table'.exports.map ExportNode.key = table.exports.map ExportNode.key ++ extra

/-- The tables after more registrations: those there were, and new ones last. -/
inductive Grows : List ModuleExportTable → List ModuleExportTable → Prop where
  | opened (new : List ModuleExportTable) : Grows [] new
  | kept {table table' : ModuleExportTable} {tables tables' : List ModuleExportTable} :
      TableGrows table table' → Grows tables tables' → Grows (table :: tables) (table' :: tables')

/-- What may happen between two calls of `MREnumerateRegistry`. -/
inductive WalkCall where
  | register (moduleName : List UInt8) (e : ModuleExport)
  | next
deriving DecidableEq, Repr

/-- A walk: the registry, the cursor, what was returned and whether false was. -/
structure Walk where
  registry : ModuleRegistry
  cursor : ModuleRegistryCursor
  yielded : List (List UInt8 × ModuleExport) := []
  ended : Bool := false
deriving DecidableEq, Repr

/-- One call; `none` is a null pointer or a stray address dereferenced. -/
def Walk.step (b : Build) (alloc : Ledger → Nat → Nat) (w : Walk) : WalkCall → Option Walk
  | .register moduleName e => match execOwned b alloc w.registry (.register moduleName e) with
    | .error _ => none
    | .ok registry => some { w with registry }
  | .next => match mrEnumerateRegistry w.cursor w.registry with
    | none => none
    | some (none, cursor) => some { w with cursor, ended := true }
    | some (some found, cursor) => some { w with cursor, yielded := w.yielded ++ [found] }

def Walk.slots (w : Walk) : List Slot := w.yielded.map fun found => (found.1, found.2.ordinal)

variable {b : Build} {alloc : Ledger → Nat → Nat} {r r' : ModuleRegistry} {cursor : ModuleRegistryCursor}
  {passed ahead : List Slot} {tables tables' done later : List ModuleExportTable} {table table' : ModuleExportTable}
  {first last : List ExportNode} {node : ExportNode}

/-! ## Addresses -/

theorem tableAt_eq (sturdy : Sturdy r.exportTable) (whole : r.exportTable = done ++ table :: later) :
    r.tableAt table.block = some (table, later) := by
  rw [ModuleRegistry.tableAt, (located_of_nodup sturdy.tableBlocks whole).seek]

theorem nodeAt_eq (sturdy : Sturdy r.exportTable) (whole : r.exportTable = done ++ table :: later)
    (nodes : table.exports = first ++ node :: last) : r.nodeAt node.block = some (node, last) := by
  have distinct := sturdy.nodeBlocks
  rw [whole, List.flatMap_append, List.flatMap_cons, List.map_append, List.map_append] at distinct
  have here : (table.exports.map ExportNode.block).Nodup := (List.nodup_append.mp distinct).2.1.of_append_left
  have earlier : ∀ t ∈ done, Absent ExportNode.block node.block t.exports := by
    intro t listed n exported same
    refine (List.disjoint_of_nodup_append distinct) (a := node.block) ?_ ?_
    · rw [← same]
      exact List.mem_map_of_mem (List.mem_flatMap.mpr ⟨t, listed, exported⟩)
    · rw [nodes, List.mem_append]
      exact .inl (List.mem_map_of_mem (by simp))
  rw [ModuleRegistry.nodeAt, whole, List.findSome?_append, List.findSome?_cons,
    (located_of_nodup here nodes).seek, List.findSome?_eq_none_iff.mpr fun t listed => by
      rw [(earlier t listed).seek]]
  rfl

/-- One call returns the first slot ahead and passes it, or has reached the end. -/
theorem Stands.next (sturdy : Sturdy r.exportTable) (stands : Stands r.exportTable cursor passed ahead) :
    (cursor.module_ = 0 ∧ mrEnumerateRegistry cursor r = some (none, cursor)) ∨
      ∃ name e rest cursor', ahead = (name, e.ordinal) :: rest ∧
        mrEnumerateRegistry cursor r = some (some (name, e), cursor') ∧
        Stands r.exportTable cursor' (passed ++ [(name, e.ordinal)]) rest := by
  cases stands with
  | finished export_ => exact .inl ⟨rfl, if_pos (.inl rfl)⟩
  | @at_ done later table first last node whole nodes =>
    have listed : table ∈ r.exportTable := by rw [whole]; simp
    have exported : node ∈ table.exports := by rw [nodes]; simp
    have some_ : ¬ (table.block = 0 ∨ node.block = 0) := by
      rw [not_or]
      exact ⟨sturdy.tableSome table listed, sturdy.nodeSome table listed node exported⟩
    unfold mrEnumerateRegistry
    rw [if_neg some_, tableAt_eq sturdy whole, nodeAt_eq sturdy whole nodes]
    right
    cases last with
    | cons n last =>
      refine ⟨table.name, node.entry, _, ⟨table.block, n.block⟩, rfl, rfl, ?_⟩
      have moved := @Stands.at_ r.exportTable done later table (first ++ [node]) last n whole (nodes.trans (by simp))
      rw [List.map_append, ← List.append_assoc] at moved
      exact moved
    | nil =>
      have all : done.flatMap ModuleExportTable.slots ++ first.map (slotOf table.name) ++
          [(table.name, node.entry.ordinal)] = (done ++ [table]).flatMap ModuleExportTable.slots := by
        rw [List.flatMap_append, List.flatMap_singleton, ModuleExportTable.slots, nodes, List.map_append,
          ← List.append_assoc]
        rfl
      cases later with
      | cons t later =>
        obtain ⟨n, rest, exports⟩ := List.exists_cons_of_ne_nil (sturdy.nonempty t (by rw [whole]; simp))
        refine ⟨table.name, node.entry, _, ⟨t.block, nodesPtr t.exports⟩, rfl, rfl, ?_⟩
        have moved := @Stands.at_ r.exportTable (done ++ [table]) later t [] rest n (whole.trans (by simp)) exports
        have pointer : nodesPtr t.exports = n.block := by rw [exports, nodesPtr]
        rw [all, pointer]
        rw [← exports, ← ModuleExportTable.slots, ← List.flatMap_cons, List.map_nil, List.append_nil] at moved
        exact moved
      | nil =>
        refine ⟨table.name, node.entry, _, ⟨0, 0⟩, rfl, rfl, ?_⟩
        rw [all, ← whole]
        exact .finished 0

/-! ## Growth -/

theorem map_slotOf (name : List UInt8) (nodes : List ExportNode) :
    nodes.map (slotOf name) = (nodes.map ExportNode.key).map fun k => (name, k.2) := by
  rw [List.map_map]
  rfl

theorem tableGrows_refl (table : ModuleExportTable) : TableGrows table table :=
  ⟨rfl, rfl, [], (List.append_nil _).symm⟩

theorem TableGrows.slots (grows : TableGrows table table') : table.slots.Sublist table'.slots := by
  obtain ⟨extra, nodes⟩ := grows.nodes
  rw [ModuleExportTable.slots, ModuleExportTable.slots, map_slotOf, map_slotOf, nodes, grows.name, List.map_append]
  exact List.sublist_append_left _ _

/-- A node stays where it is. -/
theorem TableGrows.split (grows : TableGrows table table') (nodes : table.exports = first ++ node :: last) :
    ∃ first' node' last', table'.exports = first' ++ node' :: last' ∧ node'.block = node.block ∧
      first'.map (slotOf table'.name) = first.map (slotOf table.name) ∧
      ((node :: last).map (slotOf table.name)).Sublist ((node' :: last').map (slotOf table'.name)) := by
  obtain ⟨extra, keys⟩ := grows.nodes
  rw [nodes, List.map_append, List.append_assoc, List.map_eq_append_iff] at keys
  obtain ⟨first', rest', whole, firstKeys, restKeys⟩ := keys
  rw [List.map_cons, List.cons_append, List.map_eq_cons_iff] at restKeys
  obtain ⟨node', last', rfl, same, lastKeys⟩ := restKeys
  refine ⟨first', node', last', whole, congrArg Prod.fst same, ?_, ?_⟩
  · rw [map_slotOf, map_slotOf, firstKeys, grows.name]
  · have rest : (node' :: last').map ExportNode.key = (node :: last).map ExportNode.key ++ extra := by
      rw [List.map_cons, List.map_cons, same, lastKeys, List.cons_append]
    rw [map_slotOf, map_slotOf, rest, grows.name, List.map_append]
    exact List.sublist_append_left _ _

theorem grows_refl (tables : List ModuleExportTable) : Grows tables tables := by
  induction tables with
  | nil => exact .opened []
  | cons table tables ih => exact .kept (tableGrows_refl table) ih

theorem grows_at (done later : List ModuleExportTable) (grows : TableGrows table table') :
    Grows (done ++ table :: later) (done ++ table' :: later) := by
  induction done with
  | nil => exact .kept grows (grows_refl later)
  | cons t done ih => exact .kept (tableGrows_refl t) ih

theorem grows_append (tables new : List ModuleExportTable) : Grows tables (tables ++ new) := by
  induction tables with
  | nil => exact .opened new
  | cons t tables ih => exact .kept (tableGrows_refl t) ih

theorem Grows.slots (grows : Grows tables tables') :
    (tables.flatMap ModuleExportTable.slots).Sublist (tables'.flatMap ModuleExportTable.slots) := by
  induction grows with
  | opened new => exact List.nil_sublist _
  | kept table _ ih => exact table.slots.append ih

/-- A table stays where it is. -/
theorem Grows.split (grows : Grows tables tables') (whole : tables = done ++ table :: later) :
    ∃ done' table' later', tables' = done' ++ table' :: later' ∧ TableGrows table table' ∧
      (done.flatMap ModuleExportTable.slots).Sublist (done'.flatMap ModuleExportTable.slots) ∧
      Grows later later' := by
  induction done generalizing tables tables' with
  | nil =>
    subst whole
    cases grows with
    | kept table_ rest => exact ⟨[], _, _, rfl, table_, .refl _, rest⟩
  | cons t done ih =>
    subst whole
    cases grows with
    | @kept _ t' _ tables' table_ rest =>
      obtain ⟨done', table', later', rfl, here, earlier, after⟩ := ih rest rfl
      exact ⟨t' :: done', table', later', rfl, here, table_.slots.append earlier, after⟩

/-- A cursor keeps its place. -/
theorem Stands.grows (stands : Stands tables cursor passed ahead) (grows : Grows tables tables') :
    ∃ passed' ahead', Stands tables' cursor passed' ahead' ∧ passed.Sublist passed' ∧ ahead.Sublist ahead' := by
  cases stands with
  | finished export_ => exact ⟨_, _, .finished export_, grows.slots, .refl _⟩
  | @at_ done later table first last node whole nodes =>
    obtain ⟨done', table', later', whole', here, earlier, after⟩ := grows.split whole
    obtain ⟨first', node', last', nodes', block, before, rest⟩ := here.split nodes
    have stands := Stands.at_ whole' nodes'
    rw [here.block, block] at stands
    refine ⟨_, _, stands, ?_, rest.append after.slots⟩
    rw [before]
    exact earlier.append (.refl _)

/-- A registration only adds to the tails. -/
theorem mrRegisterMethod_grows {moduleName : List UInt8} {e : ModuleExport} {ok : Bool}
    (registered : mrRegisterMethod b alloc moduleName e r = .ok (ok, r')) : Grows r.exportTable r'.exportTable := by
  have outcome := mrRegisterMethod_registering b alloc moduleName e r
  rw [registered] at outcome
  cases outcome with
  | replaced module_ node_ =>
    rw [module_.whole]
    refine grows_at _ _ ⟨rfl, rfl, [], ?_⟩
    rw [node_.whole, List.append_nil, List.map_append, List.map_append, List.map_cons, List.map_cons]
    refine congrArg _ (congrArg (· :: _) ?_)
    exact congrArg (Prod.mk _) node_.here.symm
  | added module_ absent made some_ =>
    rw [module_.whole]
    exact grows_at _ _ ⟨rfl, rfl, _, List.map_append⟩
  | tableFailed => exact grows_refl _
  | nameFailed => exact grows_refl _
  | opened => exact grows_append _ _

/-! ## Walks -/

theorem slots_contents : r.contents.slots = r.exportTable.flatMap ModuleExportTable.slots := by
  rw [Contents.slots, ModuleRegistry.contents, List.flatMap_map]
  refine List.flatMap_congr fun table _ => ?_
  rw [ModuleExportTable.contents, List.map_map]
  rfl

/-- Each element's own block among its blocks. -/
theorem map_sublist_flatMap {α : Type} {block : α → Nat} {blocks : α → List Nat} (own : ∀ x, block x ∈ blocks x)
    (xs : List α) : (xs.map block).Sublist (xs.flatMap blocks) := by
  rw [List.map_eq_flatMap]
  exact List.Sublist.flatMap_right _ fun x _ => List.singleton_sublist.mpr (own x)

/-- The blocks of a registry tell its tables and nodes apart. -/
theorem Sound.sturdy {regs : List Registration} (sound : Sound regs r) (fresh : Fresh r.calls) :
    Sturdy r.exportTable := by
  have distinct := sound.held.nodup fresh
  have some_ : ∀ ptr ∈ r.blocks, ptr ≠ 0 := fun ptr listed => sound.held.some ptr listed
  have valid : r.contents.Valid := by
    rw [sound.contents]
    exact contentsOf_valid regs
  constructor
  · have own (table : ModuleExportTable) : table.block ∈ table.blocks := by simp [ModuleExportTable.blocks]
    exact distinct.sublist (map_sublist_flatMap own _)
  · refine distinct.sublist ?_
    rw [List.map_flatMap]
    refine List.Sublist.flatMap_right _ fun table _ => ?_
    have own (node : ExportNode) : node.block ∈ node.blocks := by simp [ExportNode.blocks]
    exact (map_sublist_flatMap own table.exports).trans (List.sublist_append_left _ _)
  · intro table listed
    refine some_ _ (List.mem_flatMap.mpr ⟨table, listed, ?_⟩)
    simp [ModuleExportTable.blocks]
  · intro table listed node exported
    refine some_ _ (List.mem_flatMap.mpr ⟨table, listed, ?_⟩)
    refine List.mem_append_left _ (List.mem_flatMap.mpr ⟨node, exported, ?_⟩)
    simp [ExportNode.blocks]
  · exact (ModuleRegistry.distinct_of_valid valid).nonempty

theorem Stands.whole (stands : Stands tables cursor passed ahead) :
    passed ++ ahead = tables.flatMap ModuleExportTable.slots := by
  cases stands with
  | finished export_ => rw [List.append_nil]
  | @at_ done later table first last node whole nodes =>
    have here : table.slots = first.map (slotOf table.name) ++ (node :: last).map (slotOf table.name) := by
      rw [ModuleExportTable.slots, nodes, List.map_append]
    rw [whole, List.flatMap_append, List.flatMap_cons, here, List.append_assoc, List.append_assoc]

/-- The start of a walk. -/
theorem mrEnumerateRegistryBegin_stands (sturdy : Sturdy r.exportTable) (some_ : r.contents.slots ≠ []) :
    ∃ cursor, mrEnumerateRegistryBegin r = some cursor ∧ Stands r.exportTable cursor [] r.contents.slots := by
  rw [slots_contents] at some_ ⊢
  unfold mrEnumerateRegistryBegin
  cases whole : r.exportTable with
  | nil =>
    rw [whole] at some_
    exact absurd rfl some_
  | cons table later =>
    obtain ⟨node, last, nodes⟩ := List.exists_cons_of_ne_nil (sturdy.nonempty table (by rw [whole]; simp))
    have pointer : nodesPtr table.exports = node.block := by rw [nodes, nodesPtr]
    refine ⟨⟨table.block, nodesPtr table.exports⟩, rfl, ?_⟩
    have stands := @Stands.at_ (table :: later) [] later table [] last node rfl nodes
    rw [pointer, List.flatMap_cons, ModuleExportTable.slots, nodes]
    exact stands

/-- In a walk over a registry that had the `old` slots: what has been returned
was passed in this order, and the old slots not yet returned are ahead. -/
structure Walking (old : List Slot) (turns : Nat) (w : Walk) : Prop where
  sound : ∃ regs, Sound regs w.registry
  place : ∃ passed ahead seen left, Stands w.registry.exportTable w.cursor passed ahead ∧
    w.slots.Sublist passed ∧ old = seen ++ left ∧ seen.Sublist w.slots ∧ left.Sublist ahead
  ended : w.ended = true → w.cursor.module_ = 0
  counted : w.ended = false → turns = w.slots.length

variable {w w' : Walk} {old : List Slot} {turns : Nat}

theorem Walking.sturdy (walking : Walking old turns w) (fresh : Fresh w.registry.calls) :
    Sturdy w.registry.exportTable := by
  obtain ⟨regs, sound⟩ := walking.sound
  exact sound.sturdy fresh

/-- A cursor that is null has nothing ahead. -/
theorem Stands.null (stands : Stands tables cursor passed ahead) (sturdy : Sturdy tables) (null : cursor.module_ = 0) :
    ahead = [] := by
  cases stands with
  | finished export_ => rfl
  | at_ whole nodes => exact absurd null (sturdy.tableSome _ (by rw [whole]; simp))

theorem Walking.register {moduleName : List UInt8} {e : ModuleExport} {registry : ModuleRegistry}
    (walking : Walking old turns w)
    (executed : execOwned b alloc w.registry (.register moduleName e) = .ok registry)
    (granted : Granted registry.calls) : Walking old turns { w with registry } := by
  obtain ⟨⟨regs, sound⟩, ⟨passed, ahead, seen, left, stands, returned, whole, done, rest⟩, ended, counted⟩ := walking
  have grows : Grows w.registry.exportTable registry.exportTable := by
    simp only [execOwned, RegistryCall.exec] at executed
    generalize registered : mrRegisterMethod b alloc moduleName e
      { w.registry with calls := (RegistryCall.register moduleName e).handOver w.registry.calls } = x at executed
    cases x with
    | error calls => cases executed
    | ok x =>
      cases executed
      exact mrRegisterMethod_grows
        (r := { w.registry with calls := (RegistryCall.register moduleName e).handOver w.registry.calls }) registered
  obtain ⟨passed', ahead', stands', passedMore, aheadMore⟩ := stands.grows grows
  refine ⟨⟨_, sound.exec executed granted⟩, ?_, ended, counted⟩
  exact ⟨passed', ahead', seen, left, stands', returned.trans passedMore, whole, done, rest.trans aheadMore⟩

theorem slots_snoc (w : Walk) (cursor : ModuleRegistryCursor) (name : List UInt8) (e : ModuleExport) :
    Walk.slots { w with cursor, yielded := w.yielded ++ [(name, e)] } = w.slots ++ [(name, e.ordinal)] :=
  List.map_append

/-- A call of `MREnumerateRegistry` has something to read, and keeps the place. -/
theorem Walking.next (b : Build) (alloc : Ledger → Nat → Nat) (walking : Walking old turns w) (fresh : Fresh w.registry.calls) :
    ∃ w', w.step b alloc .next = some w' ∧ w'.registry = w.registry ∧ Walking old (turns + 1) w' := by
  have sturdy := walking.sturdy fresh
  obtain ⟨sound, ⟨passed, ahead, seen, left, stands, returned, whole, done, rest⟩, ended, counted⟩ := walking
  unfold Walk.step
  rcases stands.next sturdy with ⟨null, read⟩ | ⟨name, e, ahead', cursor', some_, read, stands'⟩
  · rw [read]
    refine ⟨_, rfl, rfl, sound, ?_, fun _ => null, fun going => by cases going⟩
    exact ⟨passed, ahead, seen, left, stands, returned, whole, done, rest⟩
  · rw [read]
    subst some_
    refine ⟨_, rfl, rfl, sound, ?_, fun finished => ?_, fun going => ?_⟩
    · rw [slots_snoc]
      have returned' := returned.append (List.Sublist.refl [(name, e.ordinal)])
      rcases List.sublist_cons_iff.mp rest with skipped | ⟨left', rfl, rest'⟩
      · exact ⟨_, ahead', seen, left, stands', returned', whole, done.trans (List.sublist_append_left _ _), skipped⟩
      · refine ⟨_, ahead', seen ++ [(name, e.ordinal)], left', stands', returned', ?_, done.append (.refl _), rest'⟩
        rw [whole, List.append_assoc, List.singleton_append]
    · cases stands.null sturdy (ended finished)
    · rw [slots_snoc, List.length_append, counted going]
      rfl

theorem suffix_step {call : WalkCall} (stepped : w.step b alloc call = some w') :
    w.registry.calls <:+ w'.registry.calls := by
  unfold Walk.step at stepped
  cases call with
  | register moduleName e =>
    have ends := @execOwned_ends b alloc w.registry (.register moduleName e)
    dsimp only at stepped
    split at stepped
    · cases stepped
    · next registry executed =>
      cases stepped
      rw [executed] at ends
      exact ends
  | next =>
    dsimp only at stepped
    split at stepped
    · cases stepped
    · cases stepped; exact List.suffix_rfl
    · cases stepped; exact List.suffix_rfl

/-- The calls that ask for the next slot. -/
def turnsOf (calls : List WalkCall) : Nat := calls.count .next

theorem Walking.step {call : WalkCall} (walking : Walking old turns w) (stepped : w.step b alloc call = some w')
    (granted : Granted w'.registry.calls) (fresh : Fresh w'.registry.calls) :
    Walking old (turns + turnsOf [call]) w' := by
  cases call with
  | register moduleName e =>
    unfold Walk.step at stepped
    dsimp only at stepped
    split at stepped
    · cases stepped
    · next registry executed =>
      cases stepped
      exact walking.register executed granted
  | next =>
    obtain ⟨w'', stepped', -, walking'⟩ := walking.next b alloc (fresh.of_suffix (suffix_step stepped))
    cases stepped.symm.trans stepped'
    exact walking'

/-- A walk keeps its place. -/
theorem Walking.run (calls : List WalkCall) (walking : Walking old turns w)
    (ran : calls.foldlM (Walk.step b alloc) w = some w') (granted : Granted w'.registry.calls)
    (fresh : Fresh w'.registry.calls) : Walking old (turns + turnsOf calls) w' := by
  induction calls using List.reverseRecOn generalizing w' with
  | nil =>
    cases ran
    exact walking
  | append_singleton calls call ih =>
    rw [List.foldlM_append, Option.bind_eq_bind, Option.bind_eq_some_iff] at ran
    obtain ⟨w₁, before, last⟩ := ran
    rw [List.foldlM_cons, Option.bind_eq_bind, Option.bind_eq_some_iff] at last
    obtain ⟨w₂, stepped, last⟩ := last
    cases last
    have earlier := suffix_step stepped
    have walking₁ := ih before (granted.of_suffix earlier) (fresh.of_suffix earlier)
    rw [turnsOf, List.count_append, ← Nat.add_assoc]
    exact walking₁.step stepped granted fresh

/-- Whatever is registered while a cursor walks the registry, what it returns
is in the registry's order and without repeats, and when false is returned all
slots that were there at the start have been. -/
theorem enumeration_survives_registrations (b : Build) (alloc : Ledger → Nat → Nat) (history : List RegistryCall)
    (r : ModuleRegistry) (reached : execOwnedAll b alloc history {} = .ok r) (granted : Granted r.calls)
    (fresh : Fresh r.calls) (some_ : r.contents.slots ≠ []) :
    ∃ cursor, mrEnumerateRegistryBegin r = some cursor ∧
      ∀ (calls : List WalkCall) (w : Walk), calls.foldlM (Walk.step b alloc) { registry := r, cursor } = some w →
        Granted w.registry.calls → Fresh w.registry.calls →
        (w.step b alloc .next).isSome ∧
        w.slots.Sublist w.registry.contents.slots ∧ w.registry.contents.slots.Nodup ∧
        (w.ended = true → r.contents.slots.Sublist w.slots) ∧
        (w.registry.contents.slots.length < calls.count .next → w.ended = true) := by
  have ends := @execOwnedAll_sound b alloc {} [] history fun _ => sound_empty
  rw [reached] at ends
  have sound := ends.2 granted
  obtain ⟨cursor, begun, stands⟩ := mrEnumerateRegistryBegin_stands (sound.sturdy fresh) some_
  refine ⟨cursor, begun, fun calls w ran granted' fresh' => ?_⟩
  have start : Walking r.contents.slots 0 { registry := r, cursor } :=
    ⟨⟨_, sound⟩, ⟨[], _, [], _, stands, .refl _, rfl, .refl _, .refl _⟩, nofun, fun _ => rfl⟩
  have walking := start.run calls ran granted' fresh'
  have sturdy := walking.sturdy fresh'
  obtain ⟨w', stepped, -⟩ := walking.next b alloc fresh'
  obtain ⟨⟨regs, sound'⟩, ⟨passed, ahead, seen, left, stands', returned, whole, done, rest⟩, ended, counted⟩ := walking
  have all := stands'.whole
  rw [← slots_contents] at all
  have inside : w.slots.Sublist w.registry.contents.slots := by
    rw [← all]
    exact returned.trans (List.sublist_append_left _ _)
  refine ⟨by rw [stepped]; rfl, inside, ?_, fun finished => ?_, fun many => ?_⟩
  · rw [sound'.contents]
    exact (contentsOf_valid regs).nodup_slots
  · have none := stands'.null sturdy (ended finished)
    rw [none, List.sublist_nil] at rest
    rw [whole, rest, List.append_nil]
    exact done
  · by_contra going
    have counted := counted (by simpa using going)
    have few := inside.length_le
    rw [Nat.zero_add, turnsOf] at counted
    omega

/-- Two modules with an export each. -/
def twoModules : List RegistryCall :=
  [.register [109] ⟨1, none, none, 16⟩, .register [110] ⟨5, none, none, 32⟩]

/-- The first module grows behind the cursor and the second one ahead of it. -/
def grownWalk : List WalkCall :=
  [.next, .register [109] ⟨2, none, none, 48⟩, .register [110] ⟨6, none, none, 64⟩, .next, .next, .next]

theorem twoModules_walked : ∃ r cursor w, execOwnedAll .target bump twoModules {} = .ok r ∧
    mrEnumerateRegistryBegin r = some cursor ∧
    grownWalk.foldlM (Walk.step .target bump) { registry := r, cursor } = some w ∧
    w.slots = [([109], 1), ([110], 5), ([110], 6)] ∧ r.contents.slots.Sublist w.slots := by
  have outcome : (execOwnedAll .target bump twoModules {}).map (fun r =>
      (decide (Granted r.calls ∧ Fresh r.calls ∧ r.contents.slots ≠ []),
        ((mrEnumerateRegistryBegin r).bind fun cursor =>
          grownWalk.foldlM (Walk.step .target bump) { registry := r, cursor }).map fun w =>
            (w.slots, decide (Granted w.registry.calls ∧ Fresh w.registry.calls ∧ w.ended = true)))) =
      .ok (true, some ([([109], 1), ([110], 5), ([110], 6)], true)) := by rfl
  cases reached : execOwnedAll .target bump twoModules {} with
  | error calls => rw [reached] at outcome; cases outcome
  | ok r =>
    rw [reached] at outcome
    have outcome := Except.ok.inj outcome
    rw [Prod.mk.injEq, decide_eq_true_eq] at outcome
    obtain ⟨⟨granted, fresh, some_⟩, walked⟩ := outcome
    obtain ⟨cursor, begun, walks⟩ := enumeration_survives_registrations .target bump twoModules r reached granted
      fresh some_
    rw [begun, Option.bind_some, Option.map_eq_some_iff] at walked
    obtain ⟨w, ran, found⟩ := walked
    rw [Prod.mk.injEq, decide_eq_true_eq] at found
    obtain ⟨slots, granted', fresh', ended⟩ := found
    exact ⟨r, cursor, w, rfl, begun, ran, slots, (walks grownWalk w ran granted' fresh').2.2.2.1 ended⟩

end Dyndxt.Registry
