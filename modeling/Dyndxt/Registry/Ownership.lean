import Dyndxt.Registry.LastWrite
import Dyndxt.Registry.Registering

/-!
# The blocks of the registry

The registry owns its tables, their names, its nodes and the strings of its
entries. In a history the caller allocates the strings of an export before it
registers the export and hands them over with it.
-/

namespace Dyndxt.Registry
open Dyndxt.Pool Dyndxt.Map Dyndxt.Run

def ExportNode.blocks (n : ExportNode) : List Nat := n.entry.strings ++ [n.block]

def ModuleExportTable.blocks (table : ModuleExportTable) : List Nat :=
  table.exports.flatMap ExportNode.blocks ++ [table.moduleName.block, table.block]

def ModuleRegistry.blocks (r : ModuleRegistry) : List Nat := r.exportTable.flatMap ModuleExportTable.blocks

/-- The caller's allocation of a string that is not null. -/
def allocString (calls : Ledger) : Option PoolString → Ledger
  | some s => .alloc ((s.chars.length + 1) % 2 ^ 32) s.block :: calls
  | none => calls

/-- The strings that a call hands over are allocated before it. -/
def RegistryCall.handOver (calls : Ledger) : RegistryCall → Ledger
  | .register _ e => allocString (allocString calls e.methodName) e.alias_
  | .reset => calls

/-- What a call frees: the strings of the entry it replaces, or everything. -/
def ModuleRegistry.released (r : ModuleRegistry) : RegistryCall → List Nat
  | .register moduleName e => ((row ModuleExportTable.name moduleName r.exportTable).bind fun table =>
      (row ExportNode.ordinal e.ordinal table.exports).map fun node => node.entry.strings).getD []
  | .reset => r.blocks

section

variable (b : Build) (alloc : Ledger → Nat → Nat)

/-- A call with the strings it hands over. -/
def execOwned (r : ModuleRegistry) (call : RegistryCall) : Except Ledger ModuleRegistry :=
  call.exec b alloc { r with calls := call.handOver r.calls }

def execOwnedAll (history : List RegistryCall) (r : ModuleRegistry) : Except Ledger ModuleRegistry :=
  history.foldlM (execOwned b alloc) r

end

variable {b : Build} {alloc : Ledger → Nat → Nat} {r r' : ModuleRegistry} {calls : Ledger} {e : ModuleExport}
  {moduleName : List UInt8} {regs : List Registration} {bs : List Nat} {ptr : Nat}

/-! ## Reset -/

theorem freeExportNode_eq (node : ExportNode) : freeExportNode calls node = freeAll node.blocks calls := by
  rw [freeExportNode, freeString_eq, freeString_eq, ExportNode.blocks, ModuleExport.strings, freeAll_append,
    freeAll_append]
  rfl

theorem freeExportTable_eq (table : ModuleExportTable) : freeExportTable calls table = freeAll table.blocks calls := by
  have nodes : table.exports.foldl freeExportNode calls = freeAll (table.exports.flatMap ExportNode.blocks) calls := by
    rw [← freeAll_flatMap]
    congr 1
    funext calls node
    exact freeExportNode_eq node
  rw [freeExportTable, nodes, ModuleExportTable.blocks, freeAll_append]
  rfl

/-- A reset frees all the registry owns. -/
theorem mrResetRegistry_eq : mrResetRegistry r = { exportTable := [], calls := freeAll r.blocks r.calls } := by
  have tables : r.exportTable.foldl freeExportTable r.calls = freeAll r.blocks r.calls := by
    rw [ModuleRegistry.blocks, ← freeAll_flatMap]
    congr 1
    funext calls table
    exact freeExportTable_eq table
  rw [mrResetRegistry, tables]

/-! ## Registering -/

theorem ModuleAt.blocks {before after : List ModuleExportTable} {table : ModuleExportTable}
    (module_ : ModuleAt moduleName r before table after) : r.blocks =
      before.flatMap ModuleExportTable.blocks ++ (table.blocks ++ after.flatMap ModuleExportTable.blocks) := by
  rw [ModuleRegistry.blocks, module_.whole, List.flatMap_append, List.flatMap_cons]

/-- The strings of an entry exchanged for those of its replacement. -/
theorem replaced_blocks {before after : List ModuleExportTable} {table : ModuleExportTable}
    {first last : List ExportNode} {node : ExportNode} (module_ : ModuleAt moduleName r before table after)
    (node_ : NodeAt e.ordinal table first node last) : (e.strings ++ r.blocks).Perm (node.entry.strings ++
      (before ++ { table with exports := first ++ { node with entry := e } :: last } :: after).flatMap
        ModuleExportTable.blocks) := by
  rw [module_.blocks, List.flatMap_append, List.flatMap_cons]
  simp only [ModuleExportTable.blocks, node_.whole, List.flatMap_append, List.flatMap_cons, ExportNode.blocks]
  rw [List.perm_iff_count]
  intro ptr
  simp only [List.count_append]
  omega

theorem added_blocks {before after : List ModuleExportTable} {table : ModuleExportTable}
    (module_ : ModuleAt moduleName r before table after) (block : Nat) :
    (block :: (e.strings ++ r.blocks)).Perm
      ((before ++ { table with exports := table.exports ++ [⟨block, e⟩] } :: after).flatMap
        ModuleExportTable.blocks) := by
  rw [module_.blocks, List.flatMap_append, List.flatMap_cons]
  simp only [ModuleExportTable.blocks, List.flatMap_append, List.flatMap_singleton, ExportNode.blocks]
  rw [List.perm_iff_count]
  intro ptr
  simp only [List.count_append, List.count_cons, List.count_nil]
  omega

theorem opened_blocks (block nameBlock nodeBlock : Nat) :
    (nodeBlock :: nameBlock :: block :: (e.strings ++ r.blocks)).Perm
      ((r.exportTable ++ [(⟨block, ⟨nameBlock, moduleName⟩, [⟨nodeBlock, e⟩]⟩ : ModuleExportTable)]).flatMap
        ModuleExportTable.blocks) := by
  rw [List.flatMap_append, List.flatMap_singleton, ModuleExportTable.blocks, List.flatMap_singleton,
    ExportNode.blocks, ← ModuleRegistry.blocks]
  rw [List.perm_iff_count]
  intro ptr
  simp only [List.count_append, List.count_cons, List.count_nil]
  omega

/-- What a registration does to the blocks, its strings being handed over. -/
structure Hands (r : ModuleRegistry) (call : RegistryCall) (r' : ModuleRegistry) : Prop where
  held : Held r'.blocks r'.calls
  frees : ∀ ptr, frees ptr r'.calls = Pool.frees ptr r.calls + (r.released call).count ptr
  dangling : Fresh r'.calls → ∀ ptr ∈ r.released call, ptr ∉ r'.blocks

theorem released_replaced {before after : List ModuleExportTable} {table : ModuleExportTable}
    {first last : List ExportNode} {node : ExportNode} (module_ : ModuleAt moduleName r before table after)
    (node_ : NodeAt e.ordinal table first node last) : r.released (.register moduleName e) = node.entry.strings := by
  rw [ModuleRegistry.released, module_.row, Option.bind_some, node_.row]
  rfl

theorem released_added {before after : List ModuleExportTable} {table : ModuleExportTable}
    (module_ : ModuleAt moduleName r before table after) (absent : NoNode e.ordinal table) :
    r.released (.register moduleName e) = [] := by
  rw [ModuleRegistry.released, module_.row, Option.bind_some, absent.row]
  rfl

theorem released_opened (absent : NoModule moduleName r) : r.released (.register moduleName e) = [] := by
  rw [ModuleRegistry.released, absent.row]
  rfl

/-- A registration keeps the account, unless an allocation fails. -/
theorem mrRegisterMethod_hands (owned : Held (e.strings ++ r.blocks) r.calls) {x : Bool × ModuleRegistry}
    (registered : mrRegisterMethod b alloc moduleName e r = .ok x) (granted : Granted x.2.calls) :
    Hands r (.register moduleName e) x.2 := by
  have cases_ := mrRegisterMethod_registering b alloc moduleName e r
  rw [registered] at cases_
  cases cases_ with
  | replaced module_ node_ =>
    have swapped := owned.perm (replaced_blocks module_ node_)
    have released := released_replaced module_ node_
    refine ⟨swapped.freeAll, fun ptr => ?_, fun fresh ptr listed => ?_⟩
    · rw [released]
      exact frees_freeAll
    · rw [released] at listed
      have earlier := fresh.of_suffix (suffix_foldl (fun calls ptr => List.suffix_cons _ calls) _ r.calls)
      exact (List.disjoint_of_nodup_append (swapped.nodup earlier)) listed
  | @added before after table block module_ absent made some_ =>
    have grown := (@Held.alloc _ _ (sizeofExportNode b) _ owned some_).perm (added_blocks module_ block)
    have released := released_added (e := e) module_ absent
    rw [← made] at grown ⊢
    exact ⟨grown, fun ptr => by rw [released]; rfl, fun _ ptr listed => by rw [released] at listed; cases listed⟩
  | tableFailed absent null =>
    rw [tableCalls, null] at granted
    exact absurd granted not_granted_null
  | nameFailed absent made some_ null =>
    rw [nameCalls, null] at granted
    exact absurd (granted.of_suffix (List.suffix_cons _ _)) not_granted_null
  | @opened block nameBlock nodeBlock absent made some_ named nameSome noded nodeSome =>
    have released := released_opened (e := e) absent
    refine ⟨?_, fun ptr => by rw [released]; rfl, fun _ ptr listed => by rw [released] at listed; cases listed⟩
    rw [nameCalls, named, tableCalls, made]
    exact (((owned.alloc some_).alloc nameSome).alloc nodeSome).perm (opened_blocks block nameBlock nodeBlock)

/-! ## Histories -/

theorem allocString_held {s : Option PoolString} (held : Held bs calls) (granted : Granted (allocString calls s)) :
    Held (stringBlock s ++ bs) (allocString calls s) := by
  cases s with
  | none => exact held
  | some s => exact held.alloc (granted _ List.mem_cons_self)

theorem suffix_allocString (s : Option PoolString) : calls <:+ allocString calls s := by
  cases s with
  | none => exact List.suffix_rfl
  | some s => exact List.suffix_cons _ _

theorem suffix_handOver (call : RegistryCall) : calls <:+ call.handOver calls := by
  cases call with
  | reset => exact List.suffix_rfl
  | register moduleName e => exact (suffix_allocString _).trans (suffix_allocString _)

theorem frees_allocString (s : Option PoolString) : frees ptr (allocString calls s) = frees ptr calls := by
  cases s <;> rfl

/-- One call, its strings handed over. -/
theorem execOwned_hands {call : RegistryCall} (owned : Held r.blocks r.calls)
    (executed : execOwned b alloc r call = .ok r') (granted : Granted r'.calls) : Hands r call r' := by
  cases call with
  | reset =>
    cases executed
    show Hands r .reset (mrResetRegistry r)
    rw [mrResetRegistry_eq]
    have all : Held (r.blocks ++ []) r.calls := by rwa [List.append_nil]
    refine ⟨all.freeAll, fun ptr => frees_freeAll, fun _ ptr _ listed => ?_⟩
    cases listed
  | register moduleName e =>
    simp only [execOwned, RegistryCall.exec] at executed
    cases registered : mrRegisterMethod b alloc moduleName e
        { r with calls := (RegistryCall.register moduleName e).handOver r.calls } with
    | error calls => rw [registered] at executed; cases executed
    | ok x =>
      rw [registered] at executed
      cases executed
      have later : (RegistryCall.register moduleName e).handOver r.calls <:+ x.2.calls := by
        have ends := @mrRegisterMethod_ends b alloc
          { r with calls := (RegistryCall.register moduleName e).handOver r.calls } moduleName e
        rw [registered] at ends
        exact ends.1
      have handed := granted.of_suffix later
      have named := allocString_held (s := e.methodName) owned (handed.of_suffix (suffix_allocString _))
      have both := allocString_held (s := e.alias_) named handed
      rw [← List.append_assoc] at both
      have handedOver : Held (e.strings ++ r.blocks) ((RegistryCall.register moduleName e).handOver r.calls) :=
        both.perm (List.perm_append_comm.append_right _)
      have hands := mrRegisterMethod_hands
        (r := { r with calls := (RegistryCall.register moduleName e).handOver r.calls }) handedOver registered granted
      refine ⟨hands.held, fun ptr => (hands.frees ptr).trans ?_, hands.dangling⟩
      refine congrArg (· + _) ?_
      exact (frees_allocString _).trans (frees_allocString _)

/-- The ledger only grows, and only a failed allocation stops a call. -/
theorem execOwned_ends (call : RegistryCall) :
    Ends (fun r' => r.calls <:+ r'.calls) (Starved r.calls) (execOwned b alloc r call) := by
  cases call with
  | reset => exact suffix_reset
  | register moduleName e =>
    have handed := @suffix_handOver r.calls (.register moduleName e)
    have ends := @mrRegisterMethod_ends b alloc
      { r with calls := (RegistryCall.register moduleName e).handOver r.calls } moduleName e
    simp only [execOwned, RegistryCall.exec]
    generalize mrRegisterMethod b alloc moduleName e
      { r with calls := (RegistryCall.register moduleName e).handOver r.calls } = x at ends
    cases x with
    | error calls => exact ends.later handed
    | ok x => exact handed.trans ends.1

/-- The registry holds the registrations and owns its blocks. -/
structure Sound (regs : List Registration) (r : ModuleRegistry) : Prop where
  held : Held r.blocks r.calls
  contents : r.contents = contentsOf regs

theorem sound_empty : Sound [] {} := ⟨⟨trivial, .refl _⟩, rfl⟩

theorem Sound.exec {call : RegistryCall} (sound : Sound regs r) (executed : execOwned b alloc r call = .ok r')
    (granted : Granted r'.calls) : Sound (afterCall regs call) r' := by
  refine ⟨(execOwned_hands sound.held executed granted).held, ?_⟩
  have follows : Follows regs { r with calls := call.handOver r.calls } := .inl sound.contents
  have ends := @exec_ends b alloc _ _ call follows
  have executed : call.exec b alloc { r with calls := call.handOver r.calls } = .ok r' := executed
  rw [executed] at ends
  exact ends.2.resolve_right fun failed => failed granted

/-- A history whose allocations succeed. -/
theorem execOwnedAll_sound (history : List RegistryCall) (sound : Granted r.calls → Sound regs r) :
    Ends (fun r' => r.calls <:+ r'.calls ∧ (Granted r'.calls → Sound (history.foldl afterCall regs) r'))
      (Starved r.calls) (execOwnedAll b alloc history r) := by
  induction history generalizing r regs with
  | nil => exact ⟨List.suffix_rfl, sound⟩
  | cons call history ih =>
    unfold execOwnedAll
    rw [List.foldlM_cons]
    have first := @execOwned_ends b alloc r call
    cases executed : execOwned b alloc r call with
    | error calls => rw [executed] at first; exact first
    | ok r₁ =>
      rw [executed] at first
      have sound₁ : Granted r₁.calls → Sound (afterCall regs call) r₁ := fun granted =>
        (sound (granted.of_suffix first)).exec executed granted
      refine (ih sound₁).mono (fun r' last => ?_) fun calls starved => ?_
      · exact ⟨first.trans last.1, last.2⟩
      · exact starved.later first

/-- The registry's blocks are live, each string is freed when its entry is
replaced or at a reset, and a reset frees all. -/
theorem registry_owns_its_blocks (b : Build) (alloc : Ledger → Nat → Nat) (history : List RegistryCall)
    (granted : Granted (ledgerOf (execOwnedAll b alloc history {})))
    (fresh : Fresh (ledgerOf (execOwnedAll b alloc history {}))) :
    ∃ r, execOwnedAll b alloc history {} = .ok r ∧ Clean r.calls ∧ (live r.calls).Perm r.blocks ∧ r.blocks.Nodup ∧
      (∀ ptr, ptr ≠ 0 → frees ptr r.calls + (if ptr ∈ r.blocks then 1 else 0) = allocs ptr r.calls) ∧
      (∀ call r', execOwned b alloc r call = .ok r' → Granted r'.calls → Fresh r'.calls →
        (∀ ptr, frees ptr r'.calls = frees ptr r.calls + (r.released call).count ptr) ∧
        ∀ ptr ∈ r.released call, ptr ∉ r'.blocks) ∧
      live (mrResetRegistry r).calls = [] := by
  have ends := @execOwnedAll_sound b alloc {} [] history fun _ => sound_empty
  cases executed : execOwnedAll b alloc history {} with
  | error calls =>
    rw [executed] at ends granted
    exact absurd granted ends.2
  | ok r =>
    rw [executed] at ends granted fresh
    have held := (ends.2 granted).held
    have nodup := held.nodup fresh
    refine ⟨r, rfl, held.clean, held.live, nodup, fun ptr some_ => ?_, fun call r' next granted' fresh' => ?_, ?_⟩
    · rw [← held.balance some_, nodup.count, Nat.add_comm]
    · have hands := execOwned_hands held next granted'
      exact ⟨hands.frees, hands.dangling fresh'⟩
    · have all : Held (r.blocks ++ []) r.calls := by rwa [List.append_nil]
      rw [mrResetRegistry_eq]
      exact all.freeAll.live.eq_nil

/-- A string handed over, replaced with its entry, and another kept. -/
def handedStrings : List RegistryCall :=
  [.register [109] ⟨1, some ⟨8, [97]⟩, none, 32⟩, .register [109] ⟨2, some ⟨16, [98]⟩, some ⟨24, [99]⟩, 48⟩,
    .register [109] ⟨1, none, none, 64⟩]

theorem handedStrings_owned : ∃ r, execOwnedAll .target bump handedStrings {} = .ok r ∧
    frees 8 r.calls = 1 ∧ frees 16 r.calls = 0 ∧ 16 ∈ live r.calls ∧ live (mrResetRegistry r).calls = [] := by
  obtain ⟨r, executed, -, -, -, -, -, reset⟩ := registry_owns_its_blocks .target bump handedStrings
    (by decide +kernel) (by decide +kernel)
  have counts : (execOwnedAll .target bump handedStrings {}).map (fun r => (frees 8 r.calls, frees 16 r.calls,
      decide (16 ∈ live r.calls))) = .ok (1, 0, true) := by decide +kernel
  rw [executed] at counts
  have counts := Except.ok.inj counts
  simp only [Prod.mk.injEq, decide_eq_true_eq] at counts
  exact ⟨r, executed, counts.1, counts.2.1, counts.2.2, reset⟩

end Dyndxt.Registry
