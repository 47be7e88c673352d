import Mathlib.Data.List.Forall2
import Dyndxt.Link.LoadedModules
import Dyndxt.Registry.ByName
import Dyndxt.Session.Service

/-!
# `DXTMain`

The loader registers its own functions for the DLLs to come and links the
modules that the kernel has loaded. It goes on whatever fails, and the strings
of an export that `MRRegisterMethod` refuses stay allocated.
-/

namespace Dyndxt.Session
open Dyndxt.Mem Dyndxt.Pool Dyndxt.Params Dyndxt.Registry Dyndxt.Loader Dyndxt.Link Dyndxt.Run

/-- A function that the loader exports, by its decorated name and its plain
one. -/
structure LoaderExport where
  name : Chars
  alias_ : Option Chars
  ordinal : UInt32
deriving DecidableEq, Repr

def LoaderExport.names (x : LoaderExport) : List Chars := x.name :: x.alias_.toList

/-- `kDynamicDXTLoaderDLLName` -/
def dynamicDxtLoaderDllName : Chars := ascii "dynamic_dxt_loader.dll"

def loaderExport (name alias_ : String) (ordinal : UInt32) : LoaderExport :=
  { name := ascii name, alias_ := some (ascii alias_), ordinal }

/-- What `DXTMain` registers, in this order. -/
def loaderExports : List LoaderExport :=
  [loaderExport "CPDelete@4" "CPDelete" 2, loaderExport "CPParseCommandParameters@8" "CPParseCommandParameters" 3,
    loaderExport "CPPrintError@12" "CPPrintError" 4, loaderExport "CPHasKey@8" "CPHasKey" 5,
    loaderExport "CPGetString@12" "CPGetString" 6, loaderExport "CPGetUInt32@12" "CPGetUInt32" 7,
    loaderExport "CPGetInt32@12" "CPGetInt32" 8, loaderExport "MRRegisterMethod@8" "MRRegisterMethod" 9,
    loaderExport "MRGetMethodByOrdinal@12" "MRGetMethodByOrdinal" 10,
    loaderExport "MRGetMethodByName@12" "MRGetMethodByName" 11]

section

variable (alloc : Ledger → Nat → Nat) (address : UInt32 → UInt32)

/-- `RegisterExport`; `address` is where the function with an ordinal is. -/
def registerExport (x : LoaderExport) (r : ModuleRegistry) : Except Ledger (Bool × ModuleRegistry) :=
  match poolStrdup alloc r.calls x.name with
  | (none, calls) => .ok (false, { r with calls })
  | (some methodName, calls) => match strdupFound alloc calls x.alias_ with
    | (none, calls) => .ok (false, { r with calls := .free methodName.block :: calls })
    | (some alias_, calls) =>
      let entry : ModuleExport :=
        { ordinal := x.ordinal, methodName := some methodName, alias_, address := address x.ordinal }
      mrRegisterMethod .target alloc dynamicDxtLoaderDllName entry { r with calls }

/-- One after the other, whatever each returns. -/
def registerAll : List LoaderExport → ModuleRegistry → Except Ledger ModuleRegistry
  | [], r => .ok r
  | x :: xs, r => do
    let (_, r) ← registerExport alloc address x r
    registerAll xs r

/-- `DXTMain`; `registerProcessor` is what `DmRegisterCommandProcessor` returns. -/
def dxtMain (m : Bytes) (modules : List DmnModload) (registerProcessor : UInt32) (r : ModuleRegistry) :
    Except Ledger (UInt32 × ModuleRegistry) := do
  let r ← registerAll alloc address loaderExports r
  let (_, _, r) ← linkLoadedModules m alloc modules r
  return (registerProcessor, r)

/-- The entry is the function's. -/
structure LoaderExport.Denotes (x : LoaderExport) (reg : Registration) : Prop where
  moduleName : reg.1 = dynamicDxtLoaderDllName
  ordinal : reg.2.ordinal = x.ordinal
  methodName : reg.2.methodName.map PoolString.chars = some x.name
  alias_ : reg.2.alias_.map PoolString.chars = x.alias_
  address : reg.2.address = address x.ordinal

/-- The functions in `made` are found, and under no other name or ordinal than
their own. -/
structure Serves (made : List LoaderExport) (r : ModuleRegistry) : Prop where
  byOrdinal : ∀ x ∈ loaderExports, mrGetMethodByOrdinal dynamicDxtLoaderDllName x.ordinal r =
    if x ∈ made then (true, address x.ordinal) else (false, 0)
  byName : ∀ x ∈ loaderExports, ∀ name ∈ x.names, mrGetMethodByName dynamicDxtLoaderDllName name r =
    if x ∈ made then (true, address x.ordinal) else (false, 0)
  unknownOrdinal : ∀ ordinal, (∀ x ∈ loaderExports, x.ordinal ≠ ordinal) →
    mrGetMethodByOrdinal dynamicDxtLoaderDllName ordinal r = (false, 0)
  unknownName : ∀ name, (∀ x ∈ loaderExports, name ∉ x.names) →
    mrGetMethodByName dynamicDxtLoaderDllName name r = (false, 0)

/-- How registering some functions ends: those in `made` are registered, and
the blocks in `lost` belong to nobody. -/
inductive RegisterEnds (xs : List LoaderExport) (r : ModuleRegistry) (rest : List Nat) :
    Except Ledger ModuleRegistry → Prop where
  | ended {r' : ModuleRegistry} (made : List LoaderExport) (regs : List Registration) (lost : List Nat) :
      made.Sublist xs → List.Forall₂ (LoaderExport.Denotes address) made regs →
      r'.contents = regs.foldl Contents.record r.contents → Held (r'.blocks ++ (lost ++ rest)) r'.calls →
      lost.length + 2 * made.length ≤ 2 * xs.length →
      (Served r.calls r'.calls ∧ made = xs ∧ lost = [] ∨ Denied alloc r.calls r'.calls) →
      RegisterEnds xs r rest (.ok r')
  | crashed {calls earlier : Ledger} : r.calls <:+ earlier → alloc earlier (sizeofExportNode .target) = 0 →
      RegisterEnds xs r rest (.error calls)

/-- How `DXTMain` ends: the loader finds what is in `made`, and the blocks in
`lost` belong to nobody. -/
inductive Started (registerProcessor : UInt32) (r : ModuleRegistry) (rest : List Nat) :
    Except Ledger (UInt32 × ModuleRegistry) → Prop where
  | started {r' : ModuleRegistry} (made : List LoaderExport) (lost : List Nat) : made.Sublist loaderExports →
      Serves address made r' → Held (r'.blocks ++ (lost ++ rest)) r'.calls →
      lost.length + 2 * made.length ≤ 20 → (made = loaderExports ∧ lost = [] ∨ Denied alloc r.calls r'.calls) →
      Started registerProcessor r rest (.ok (registerProcessor, r'))
  | crashed {calls earlier : Ledger} : r.calls <:+ earlier → alloc earlier (sizeofExportNode .target) = 0 →
      Started registerProcessor r rest (.error calls)

end

variable {alloc : Ledger → Nat → Nat} {address : UInt32 → UInt32} {x : LoaderExport} {xs : List LoaderExport}
  {r r' : ModuleRegistry} {rest : List Nat} {calls : Ledger}

/-! ## One function -/

/-- Nothing was registered and nothing is held. -/
theorem ends_refused {r' : ModuleRegistry} (tables : r'.exportTable = r.exportTable) (lost : List Nat)
    (held : Held (r.blocks ++ (lost ++ rest)) r'.calls) (few : lost.length ≤ 2) (denied : Denied alloc r.calls r'.calls) :
    RegisterEnds alloc address [x] r rest (.ok r') := by
  have same : r'.blocks = r.blocks := by rw [ModuleRegistry.blocks, tables]; rfl
  have contents : r'.contents = r.contents := by rw [ModuleRegistry.contents, tables]; rfl
  rw [← same] at held
  exact .ended [] [] lost (List.nil_sublist _) .nil contents held (by simpa using few) (.inr denied)

theorem registerExport_ends (held : Held (r.blocks ++ rest) r.calls) :
    RegisterEnds alloc address [x] r rest ((registerExport alloc address x r).map Prod.snd) := by
  unfold registerExport
  rcases poolStrdup_cases alloc r.calls x.name with ⟨ptr, some_, saved⟩ | ⟨failed, null⟩
  case inr =>
    rw [failed]
    exact ends_refused rfl [] held.allocNull (Nat.zero_le _) (denied_alloc null)
  rw [saved]
  dsimp only
  generalize nameCalls : PoolCall.alloc ((x.name.length + 1) % 2 ^ 32) ptr :: r.calls = calls₁
  have served₁ : Served r.calls calls₁ := nameCalls ▸ served_alloc some_
  have held₁ : Held (ptr :: (r.blocks ++ rest)) calls₁ := nameCalls ▸ held.alloc some_
  have aliased := strdupFound_copied alloc x.alias_ (owned_empty.mpr held₁)
  generalize strdupFound alloc calls₁ x.alias_ = y at aliased
  cases aliased with
  | denied held₂ denied =>
    refine ends_refused rfl [] (owned_empty.mp held₂).free (Nat.zero_le _) ?_
    exact (denied.later served₁.suffix).more (List.suffix_cons _ _)
  | @copied alias_ calls₂ chars held₂ served₂ =>
    dsimp only
    generalize entry : ({ ordinal := x.ordinal, methodName := some ⟨ptr, x.name⟩, alias_, address := address x.ordinal } :
      ModuleExport) = e
    have strings : e.strings = ptr :: stringBlock alias_ := by rw [← entry]; rfl
    have few : e.strings.length ≤ 2 := by
      rw [strings]
      cases alias_ <;> simp [stringBlock]
    have denotes : x.Denotes address (dynamicDxtLoaderDllName, e) := entry ▸ ⟨rfl, rfl, rfl, chars, rfl⟩
    have handed : Held (e.strings ++ (r.blocks ++ rest)) calls₂ := by
      rw [strings]
      exact (owned_empty.mp held₂).perm List.perm_middle
    have served := served₁.trans served₂
    have custody := mrRegisterMethod_custody .target alloc dynamicDxtLoaderDllName (r := { r with calls := calls₂ }) handed
    generalize mrRegisterMethod .target alloc dynamicDxtLoaderDllName e { r with calls := calls₂ } = y at custody
    cases custody with
    | registered held recorded served₃ =>
      refine .ended [x] [(_, e)] [] (.refl _) (.cons denotes .nil) recorded held (by simp) (.inl ⟨?_, rfl, rfl⟩)
      exact served.trans served₃
    | refused tables held denied =>
      refine ends_refused tables e.strings (held.perm ?_) few (denied.later served.suffix)
      show (e.strings ++ (r.blocks ++ rest)).Perm (r.blocks ++ (e.strings ++ rest))
      rw [List.perm_iff_count]
      intro q
      simp only [List.count_append]
      omega
    | crashed later null => exact .crashed (served.suffix.trans later) null

/-! ## All functions -/

theorem registerAll_ends (held : Held (r.blocks ++ rest) r.calls) :
    RegisterEnds alloc address xs r rest (registerAll alloc address xs r) := by
  induction xs generalizing r rest with
  | nil => exact .ended [] [] [] (.refl _) .nil rfl held (Nat.le_refl _) (.inl ⟨.refl _, rfl, rfl⟩)
  | cons x xs ih =>
    have first := @registerExport_ends alloc address x r rest held
    rw [registerAll]
    generalize registerExport alloc address x r = y at first
    cases y with
    | error calls =>
      cases first with
      | crashed later null => exact .crashed later null
    | ok p =>
      obtain ⟨ok, r₁⟩ := p
      show RegisterEnds alloc address (x :: xs) r rest (registerAll alloc address xs r₁)
      cases first with
      | ended made regs lost among denotes contents held₁ count outcome =>
        have later : r.calls <:+ r₁.calls := outcome.elim (·.1.suffix) (·.starved.1)
        have more := @ih r₁ (lost ++ rest) held₁
        generalize registerAll alloc address xs r₁ = y at more
        cases more with
        | @ended r₂ made' regs' lost' among' denotes' contents' held' count' outcome' =>
          have later' : r₁.calls <:+ r₂.calls := outcome'.elim (·.1.suffix) (·.starved.1)
          refine .ended (made ++ made') (regs ++ regs') (lost' ++ lost) (among.append among')
            (List.rel_append denotes denotes') ?_ ?_ ?_ ?_
          · rw [contents', contents, List.foldl_append]
          · rwa [List.append_assoc]
          · simp only [List.length_append, List.length_cons, List.length_nil] at count count' ⊢
            omega
          · rcases outcome with ⟨served, rfl, rfl⟩ | denied
            · rcases outcome' with ⟨served', rfl, rfl⟩ | denied'
              · exact .inl ⟨served.trans served', rfl, rfl⟩
              · exact .inr (denied'.later later)
            · exact .inr (denied.more later')
        | crashed later' null => exact .crashed (later.trans later') null

/-! ## What is found -/

/-- No two functions have an ordinal or a name in common. -/
theorem loaderExports_differ : ∀ x ∈ loaderExports, ∀ y ∈ loaderExports,
    (x.ordinal = y.ordinal ∨ ∃ name ∈ x.names, name ∈ y.names) → x = y := by decide +kernel

theorem loaderExports_ordinals : (loaderExports.map LoaderExport.ordinal).Nodup := by decide +kernel

theorem LoaderExport.Denotes.isNamed {reg : Registration} (denotes : x.Denotes address reg) (name : Chars) :
    reg.2.IsNamed name ↔ name ∈ x.names := by
  unfold ModuleExport.IsNamed LoaderExport.names
  rw [denotes.methodName, denotes.alias_, List.mem_cons, Option.mem_toList, Option.some_inj, eq_comm]

variable {made : List LoaderExport} {regs mods : List Registration}

theorem denoted_named (related : List.Forall₂ (LoaderExport.Denotes address) made regs) :
    ∀ reg ∈ regs, reg.1 = dynamicDxtLoaderDllName := by
  induction related with
  | nil => exact nofun
  | cons denotes related ih => exact List.forall_mem_cons.mpr ⟨denotes.moduleName, ih⟩

theorem denoted_ordinals (related : List.Forall₂ (LoaderExport.Denotes address) made regs) :
    (regs.map Prod.snd).map ModuleExport.ordinal = made.map LoaderExport.ordinal := by
  induction related with
  | nil => rfl
  | cons denotes related ih => exact congrArg₂ List.cons denotes.ordinal ih

/-- A search of the entries is one of the functions. -/
theorem find_denoted (p : ModuleExport → Bool) (q : LoaderExport → Bool)
    (related : List.Forall₂ (LoaderExport.Denotes address) made regs)
    (same : ∀ x reg, LoaderExport.Denotes address x reg → p reg.2 = q x) :
    ((regs.map Prod.snd).find? p).map ModuleExport.address = (made.find? q).map fun x => address x.ordinal := by
  induction related with
  | nil => rfl
  | @cons x reg made regs denotes related ih =>
    rw [List.map_cons, List.find?_cons, List.find?_cons, same x reg denotes]
    cases q x with
    | true => exact congrArg some denotes.address
    | false => exact ih

/-- What only one function has is found if that one was registered. -/
theorem find_made {q : LoaderExport → Bool} (among : made.Sublist loaderExports) (here : q x = true)
    (only : ∀ y ∈ loaderExports, q y = true → y = x) : made.find? q = if x ∈ made then some x else none := by
  cases found : made.find? q with
  | some y =>
    have listed := List.mem_of_find?_eq_some found
    have same := only y (among.subset listed) (List.find?_some found)
    rw [if_pos (same ▸ listed), same]
  | none =>
    rw [if_neg fun listed => ?_]
    exact List.find?_eq_none.mp found x listed here

/-- What a lookup returns. -/
theorem answer_eq {found : Option ModuleExport} {known : Option LoaderExport} :
    (found.map ModuleExport.address = known.map fun x => address x.ordinal) →
    (match found with
      | some e => (true, e.address)
      | none => (false, 0)) = (known.map fun x => (true, address x.ordinal)).getD (false, 0) := by
  intro same
  cases found with
  | none =>
    cases known with
    | none => rfl
    | some x => cases same
  | some e =>
    cases known with
    | none => cases same
    | some x => exact congrArg (Prod.mk true) (Option.some.inj same)

theorem serves_of_contents (among : made.Sublist loaderExports)
    (related : List.Forall₂ (LoaderExport.Denotes address) made regs)
    (others : ∀ reg ∈ mods, reg.1 ≠ dynamicDxtLoaderDllName)
    (contents : r.contents = contentsOf (regs ++ mods)) : Serves address made r := by
  have exports : r.contents.exports dynamicDxtLoaderDllName = regs.map Prod.snd := by
    rw [contents, contentsOf, List.foldl_append, Contents.exports_foldl_others others,
      Contents.exports_foldl_new (denoted_named related)]
    · rfl
    · show ((regs.map Prod.snd).map ModuleExport.ordinal).Nodup
      rw [denoted_ordinals related]
      exact (among.map _).nodup loaderExports_ordinals
  have byOrdinal (ordinal : UInt32) : mrGetMethodByOrdinal dynamicDxtLoaderDllName ordinal r =
      ((made.find? fun x => decide (x.ordinal = ordinal)).map fun x => (true, address x.ordinal)).getD (false, 0) := by
    rw [mrGetMethodByOrdinal_eq, Contents.find_exports, exports]
    exact answer_eq (find_denoted (fun e => decide (e.ordinal = ordinal)) (fun x => decide (x.ordinal = ordinal)) related
      fun x reg denotes => congrArg (fun o => decide (o = ordinal)) denotes.ordinal)
  have byName (name : Chars) : mrGetMethodByName dynamicDxtLoaderDllName name r =
      ((made.find? fun x => decide (name ∈ x.names)).map fun x => (true, address x.ordinal)).getD (false, 0) := by
    rw [mrGetMethodByName_eq, exports]
    exact answer_eq (find_denoted (fun e => decide (e.IsNamed name)) (fun x => decide (name ∈ x.names)) related
      fun x reg denotes => decide_eq_decide.mpr (denotes.isNamed name))
  -- what a search gives that only `x` can end
  have answers (x : LoaderExport) : ((if x ∈ made then some x else none).map fun x => (true, address x.ordinal)).getD
      (false, 0) = if x ∈ made then (true, address x.ordinal) else (false, 0) := by
    by_cases known : x ∈ made
    · rw [if_pos known, if_pos known]
      rfl
    · rw [if_neg known, if_neg known]
      rfl
  constructor
  · intro x listed
    rw [byOrdinal, find_made among (decide_eq_true rfl) fun y listed' same =>
      loaderExports_differ y listed' x listed (.inl (of_decide_eq_true same)), answers]
  · intro x listed name named
    rw [byName, find_made among (decide_eq_true named) fun y listed' same =>
      loaderExports_differ y listed' x listed (.inr ⟨name, of_decide_eq_true same, named⟩), answers]
  · intro ordinal unknown
    rw [byOrdinal, List.find?_eq_none.mpr fun x listed => ?_]
    · rfl
    · simpa using unknown x (among.subset listed)
  · intro name unknown
    rw [byName, List.find?_eq_none.mpr fun x listed => ?_]
    · rfl
    · simpa using unknown x (among.subset listed)

/-! ## The loader starts -/

/-- All that linking registers has the name of a loaded module. -/
theorem moduleRegistrations_named {m : Bytes} {modules : List DmnModload} {reg : Registration}
    (listed : reg ∈ modules.flatMap (moduleRegistrations m)) : ∃ i ∈ modules, reg.1 = i.name := by
  obtain ⟨i, among, listed⟩ := List.mem_flatMap.mp listed
  refine ⟨i, among, ?_⟩
  unfold moduleRegistrations at listed
  split at listed
  · cases listed
  · obtain ⟨j, -, rfl⟩ := List.mem_map.mp listed
    rfl

/-- What linking the loaded modules does to the registry. -/
theorem linked_registers {m : Bytes} {modules : List DmnModload} {p : UInt32 × Nat × ModuleRegistry}
    (ends : LinkedModules m alloc modules r rest (.ok p)) :
    (∃ mods : List Registration, (∀ reg ∈ mods, reg ∈ modules.flatMap (moduleRegistrations m)) ∧
      p.2.2.contents = mods.foldl Contents.record r.contents) ∧
    Held (p.2.2.blocks ++ rest) p.2.2.calls ∧ r.calls <:+ p.2.2.calls := by
  cases ends with
  | linked signed contents held served => exact ⟨⟨_, fun _ => id, contents⟩, held, served.suffix⟩
  | unsigned before bad after whole signed unsigned contents held served =>
    refine ⟨⟨_, fun reg listed => ?_, contents⟩, held, served.suffix⟩
    rw [whole, List.flatMap_append]
    exact List.mem_append_left _ listed
  | stopped before failed after done reg left whole signed registered contents held denied =>
    refine ⟨⟨_, fun reg listed => ?_, contents⟩, held, denied.starved.1⟩
    rw [whole, List.flatMap_append, List.flatMap_cons, registered, List.append_assoc, ← List.append_assoc]
    exact List.mem_append_left _ listed

theorem dxtMain_ends (m : Bytes) (modules : List DmnModload) (registerProcessor : UInt32)
    (empty : r.exportTable = []) (held : Held rest r.calls)
    (others : ∀ i ∈ modules, i.name ≠ dynamicDxtLoaderDllName) :
    Started alloc address registerProcessor r rest (dxtMain alloc address m modules registerProcessor r) := by
  have blocks : r.blocks = [] := by rw [ModuleRegistry.blocks, empty]; rfl
  have contents : r.contents = [] := by rw [ModuleRegistry.contents, empty]; rfl
  have first := @registerAll_ends alloc address loaderExports r rest (by rwa [blocks])
  unfold dxtMain
  generalize registerAll alloc address loaderExports r = x at first
  cases first with
  | crashed later null => exact .crashed later null
  | @ended r₁ made regs lost among denotes made_ held₁ count outcome =>
    have later : r.calls <:+ r₁.calls := outcome.elim (·.1.suffix) (·.starved.1)
    have second := linkLoadedModules_ends alloc m modules r₁ (lost ++ rest) held₁
    show Started alloc address registerProcessor r rest
      (linkLoadedModules m alloc modules r₁ >>= fun p => .ok (registerProcessor, p.2.2))
    generalize linkLoadedModules m alloc modules r₁ = y at second
    cases y with
    | error calls =>
      cases second with
      | crashed later' null => exact .crashed (later.trans later') null
    | ok p =>
      obtain ⟨⟨mods, linked, contents'⟩, held', later'⟩ := linked_registers second
      have whole : p.2.2.contents = contentsOf (regs ++ mods) := by
        rw [contents', made_, contents, contentsOf, List.foldl_append]
      have apart : ∀ reg ∈ mods, reg.1 ≠ dynamicDxtLoaderDllName := fun reg listed same => by
        obtain ⟨i, among, named⟩ := moduleRegistrations_named (linked reg listed)
        exact others i among (named.symm.trans same)
      refine .started made lost among (serves_of_contents among denotes apart whole) held' count ?_
      exact outcome.imp (·.2) (·.more later')

/-- Whatever the pool grants and the loaded modules hold: the loader finds what
of its own functions it could register, under their names and ordinals and no
others, all of them if no allocation was denied. Every block is the registry's
or one of the few strings whose export was refused. -/
theorem dxtMain_serves (alloc : Ledger → Nat → Nat) (address : UInt32 → UInt32) (m : Bytes)
    (modules : List DmnModload) (registerProcessor : UInt32) (r : ModuleRegistry) (rest : List Nat)
    (empty : r.exportTable = []) (held : Held rest r.calls)
    (others : ∀ i ∈ modules, i.name ≠ dynamicDxtLoaderDllName) :
    (∃ calls earlier, dxtMain alloc address m modules registerProcessor r = .error calls ∧ r.calls <:+ earlier ∧
      alloc earlier (sizeofExportNode .target) = 0) ∨
    ∃ r' made lost, dxtMain alloc address m modules registerProcessor r = .ok (registerProcessor, r') ∧
      made.Sublist loaderExports ∧ Serves address made r' ∧ Held (r'.blocks ++ (lost ++ rest)) r'.calls ∧
      lost.length + 2 * made.length ≤ 20 ∧ (made = loaderExports ∧ lost = [] ∨ Denied alloc r.calls r'.calls) := by
  have ends := @dxtMain_ends alloc address r rest m modules registerProcessor empty held others
  generalize dxtMain alloc address m modules registerProcessor r = x at ends
  cases ends with
  | crashed later null => exact .inl ⟨_, _, rfl, later, null⟩
  | @started r' made lost among serves held count outcome =>
    exact .inr ⟨r', made, lost, rfl, among, serves, held, count, outcome⟩

/-- With one module loaded and a pool that denies nothing. -/
theorem exportImage_started : ∃ r', dxtMain bump id (exportImage 5 [0x1000]) [⟨[109], 0x10000⟩] xboxSOk {} =
      .ok (xboxSOk, r') ∧ Serves id loaderExports r' ∧ Held r'.blocks r'.calls := by
  rcases dxtMain_serves bump id (exportImage 5 [0x1000]) [⟨[109], 0x10000⟩] xboxSOk {} [] rfl (held_live clean_nil)
    (by decide +kernel) with ⟨_, earlier, _, _, null⟩ | ⟨r', made, lost, started, among, serves, held, _, whole | denied⟩
  · exact absurd null (bump_some earlier _)
  · obtain ⟨rfl, rfl⟩ := whole
    rw [List.append_nil, List.append_nil] at held
    exact ⟨r', started, serves, held⟩
  · obtain ⟨earlier, size, _, _, null⟩ := denied
    exact absurd null (bump_some earlier size)

end Dyndxt.Session
