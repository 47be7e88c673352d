import Dyndxt.Link.Exports
import Dyndxt.Registry.Custody

/-!
# `LinkLoadedModules`

The modules that the kernel has loaded are linked one after the other, up to
the first whose headers are bad or which could not be registered as a whole.
With a pool that runs out, a beginning of what would have been registered is.
-/

namespace Dyndxt.Link
open Dyndxt.Mem Dyndxt.Pool Dyndxt.Loader Dyndxt.Registry Dyndxt.Session Dyndxt.Run

/-- `DMN_MODLOAD` -/
structure DmnModload where
  name : List UInt8
  base : UInt32
deriving DecidableEq, Repr

section

variable (m : Bytes) (alloc : Ledger → Nat → Nat)

/-- The loop with the modules that `DmWalkLoadedModules` has yet to return and
the number of those that it has returned. -/
def linkModules (ret : UInt32) (walked : Nat) : List DmnModload → ModuleRegistry →
    Except Ledger (UInt32 × Nat × ModuleRegistry)
  | [], r => .ok (ret, walked, r)
  | moduleInfo :: modules, r =>
    if ret ≠ xboxSOk then .ok (ret, walked + 1, r)
    else do
      let (ret, r) ← registerModuleExports m moduleInfo.base alloc moduleInfo.name r
      linkModules ret (walked + 1) modules r

/-- `LinkLoadedModules`: what it returns, how many modules the walk returned
and the registry. -/
def linkLoadedModules (modules : List DmnModload) (r : ModuleRegistry) : Except Ledger (UInt32 × Nat × ModuleRegistry) :=
  linkModules m alloc xboxSOk 0 modules r

/-- The signatures are there. -/
def Signed (moduleInfo : DmnModload) : Prop :=
  (dosHeader m moduleInfo.base).eMagic = imageDosSignature ∧ (ntHeader m moduleInfo.base).signature = imageNtSignature

instance : DecidablePred (Signed m) := fun _ => inferInstanceAs (Decidable (_ ∧ _))

/-- What a module has to register. -/
def moduleRegistrations (moduleInfo : DmnModload) : List Registration :=
  if (directoryInfo m moduleInfo.base).size = 0 then []
  else registrations m moduleInfo.base moduleInfo.name (exportDirectory m moduleInfo.base).numberOfFunctions.toNat

/-- How registering one export after the other ends: all of them are
registered, a proper beginning of them, or a node could not be allocated. -/
inductive LinkEnds (regs : List Registration) (r : ModuleRegistry) (rest : List Nat) :
    Except Ledger (Bool × ModuleRegistry) → Prop where
  | linked {r' : ModuleRegistry} : r'.contents = regs.foldl Contents.record r.contents →
      Held (r'.blocks ++ rest) r'.calls → Served r.calls r'.calls → LinkEnds regs r rest (.ok (true, r'))
  | stopped {r' : ModuleRegistry} (before : List Registration) (reg : Registration) (after : List Registration) :
      regs = before ++ reg :: after → r'.contents = before.foldl Contents.record r.contents →
      Held (r'.blocks ++ rest) r'.calls → Denied alloc r.calls r'.calls → LinkEnds regs r rest (.ok (false, r'))
  | crashed {calls earlier : Ledger} : r.calls <:+ earlier → alloc earlier (sizeofExportNode .target) = 0 →
      LinkEnds regs r rest (.error calls)

/-- How linking `modules` ends. A walk that was stopped has returned one module
more than was linked, if there was one. -/
inductive LinkedModules (modules : List DmnModload) (r : ModuleRegistry) (rest : List Nat) :
    Except Ledger (UInt32 × Nat × ModuleRegistry) → Prop where
  | linked {r' : ModuleRegistry} : (∀ moduleInfo ∈ modules, Signed m moduleInfo) →
      r'.contents = (modules.flatMap (moduleRegistrations m)).foldl Contents.record r.contents →
      Held (r'.blocks ++ rest) r'.calls → Served r.calls r'.calls →
      LinkedModules modules r rest (.ok (xboxSOk, modules.length, r'))
  | unsigned {r' : ModuleRegistry} (before : List DmnModload) (bad : DmnModload) (after : List DmnModload) :
      modules = before ++ bad :: after → (∀ moduleInfo ∈ before, Signed m moduleInfo) → ¬ Signed m bad →
      r'.contents = (before.flatMap (moduleRegistrations m)).foldl Contents.record r.contents →
      Held (r'.blocks ++ rest) r'.calls → Served r.calls r'.calls →
      LinkedModules modules r rest (.ok (xboxETypeInvalid, min (before.length + 2) modules.length, r'))
  | stopped {r' : ModuleRegistry} (before : List DmnModload) (failed : DmnModload) (after : List DmnModload)
      (done : List Registration) (reg : Registration) (left : List Registration) :
      modules = before ++ failed :: after → (∀ moduleInfo ∈ before ++ [failed], Signed m moduleInfo) →
      moduleRegistrations m failed = done ++ reg :: left →
      r'.contents = (before.flatMap (moduleRegistrations m) ++ done).foldl Contents.record r.contents →
      Held (r'.blocks ++ rest) r'.calls → Denied alloc r.calls r'.calls →
      LinkedModules modules r rest (.ok (xboxEFail, min (before.length + 2) modules.length, r'))
  | crashed {calls earlier : Ledger} : r.calls <:+ earlier → alloc earlier (sizeofExportNode .target) = 0 →
      LinkedModules modules r rest (.error calls)

end

variable {m : Bytes} {alloc : Ledger → Nat → Nat} {moduleBase : UInt32} {moduleName : List UInt8}
  {r r' : ModuleRegistry} {rest : List Nat} {regs regs' : List Registration} {modules : List DmnModload}
  {moduleInfo : DmnModload} {ret : UInt32} {x : Except Ledger (Bool × ModuleRegistry)}

/-! ## One module -/

/-- More exports, if the first ones were all registered. -/
theorem LinkEnds.andThen {next : ModuleRegistry → Except Ledger (Bool × ModuleRegistry)}
    (ends : LinkEnds alloc regs r rest x)
    (more : ∀ r', Held (r'.blocks ++ rest) r'.calls → LinkEnds alloc regs' r' rest (next r')) :
    LinkEnds alloc (regs ++ regs') r rest (x >>= fun p => if p.1 = true then next p.2 else .ok (false, p.2)) := by
  cases ends with
  | @linked r' contents held served =>
    show LinkEnds alloc (regs ++ regs') r rest (next r')
    have ends := more r' held
    generalize next r' = x at ends
    cases ends with
    | linked contents' held served' =>
      refine .linked ?_ held (served.trans served')
      rw [contents', contents, List.foldl_append]
    | stopped before reg after whole contents' held denied =>
      refine .stopped (regs ++ before) reg after ?_ ?_ held (denied.later served.suffix)
      · rw [whole, List.append_assoc]
      · rw [contents', contents, List.foldl_append]
    | crashed later null => exact .crashed (served.suffix.trans later) null
  | stopped before reg after whole contents held denied =>
    refine .stopped before reg (after ++ regs') ?_ contents held denied
    rw [whole, List.append_assoc, List.cons_append]
  | crashed later null => exact .crashed later null

theorem mrRegisterMethod_linkEnds (e : ModuleExport) (strings : e.strings = [])
    (held : Held (r.blocks ++ rest) r.calls) :
    LinkEnds alloc [(moduleName, e)] r rest (mrRegisterMethod .target alloc moduleName e r) := by
  have owned : Held (e.strings ++ (r.blocks ++ rest)) r.calls := by rwa [strings]
  have custody := mrRegisterMethod_custody .target alloc moduleName owned
  generalize mrRegisterMethod .target alloc moduleName e r = x at custody
  cases custody with
  | registered held recorded served => exact .linked recorded held served
  | @refused r' tables held denied =>
    have same : r'.blocks = r.blocks := by rw [ModuleRegistry.blocks, tables]; rfl
    have contents : r'.contents = r.contents := by rw [ModuleRegistry.contents, tables]; rfl
    rw [strings, List.nil_append, ← same] at held
    exact .stopped [] (moduleName, e) [] rfl contents held denied
  | crashed later null => exact .crashed later null

/-- The rounds from `i` on. -/
theorem registerExports_linkEnds (left i : Nat) (held : Held (r.blocks ++ rest) r.calls) :
    LinkEnds alloc ((List.range' i left).map fun i => (moduleName, moduleExport m moduleBase (.ofNat i))) r rest
      (registerExports m moduleBase alloc moduleName left (.ofNat i) r) := by
  induction left generalizing r i with
  | zero => exact .linked rfl held (.refl _)
  | succ left ih =>
    have first := @mrRegisterMethod_linkEnds alloc moduleName r rest (moduleExport m moduleBase (.ofNat i)) rfl held
    have next : UInt32.ofNat i + 1 = .ofNat (i + 1) := (UInt32.ofNat_add i 1).symm
    rw [List.range'_succ, List.map_cons, ← List.singleton_append, registerExports, next]
    exact first.andThen fun r' held => ih (i + 1) held

/-- A module whose headers are good. -/
theorem registerModuleExports_linkEnds (signed : Signed m moduleInfo) (held : Held (r.blocks ++ rest) r.calls) :
    ∃ x, registerModuleExports m moduleInfo.base alloc moduleInfo.name r =
        x.map (fun p => (if p.1 = true then xboxSOk else xboxEFail, p.2)) ∧
      LinkEnds alloc (moduleRegistrations m moduleInfo) r rest x := by
  unfold registerModuleExports moduleRegistrations
  rw [if_neg (not_not.mpr signed.1), if_neg (not_not.mpr signed.2)]
  by_cases none : (directoryInfo m moduleInfo.base).size = 0
  · rw [if_pos none, if_pos none]
    exact ⟨.ok (true, r), rfl, .linked rfl held (.refl _)⟩
  · rw [if_neg none, if_neg none]
    refine ⟨registerExports m moduleInfo.base alloc moduleInfo.name
      (exportDirectory m moduleInfo.base).numberOfFunctions.toNat 0 r, ?_, ?_⟩
    · cases registerExports m moduleInfo.base alloc moduleInfo.name
        (exportDirectory m moduleInfo.base).numberOfFunctions.toNat 0 r <;> rfl
    · rw [registrations, List.range_eq_range']
      exact registerExports_linkEnds _ 0 held

/-! ## All modules -/

/-- After a failure one more module is asked for. -/
theorem linkModules_failed (failed : ret ≠ xboxSOk) (walked : Nat) (modules : List DmnModload) (r : ModuleRegistry) :
    linkModules m alloc ret walked modules r = .ok (ret, walked + min 1 modules.length, r) := by
  cases modules with
  | nil => rfl
  | cons moduleInfo modules =>
    rw [linkModules, if_pos failed, List.length_cons, Nat.min_eq_left (by omega)]

theorem registerModuleExports_unsigned (bad : ¬ Signed m moduleInfo) :
    registerModuleExports m moduleInfo.base alloc moduleInfo.name r = .ok (xboxETypeInvalid, r) := by
  unfold registerModuleExports
  by_cases magic : (dosHeader m moduleInfo.base).eMagic = imageDosSignature
  · rw [if_neg (not_not.mpr magic)]
    exact if_pos fun signature => bad ⟨magic, signature⟩
  · exact if_pos magic

/-- What was walked before is counted as well. -/
def addWalked (walked : Nat) (p : UInt32 × Nat × ModuleRegistry) : UInt32 × Nat × ModuleRegistry :=
  (p.1, walked + p.2.1, p.2.2)

/-- The failure of a module ends the loop. -/
theorem linkModules_stops (failed : ret ≠ xboxSOk) (walked : Nat) (modules : List DmnModload) (r : ModuleRegistry) :
    linkModules m alloc ret (walked + 1) modules r =
      (Except.ok (ret, min (0 + 2) (modules.length + 1), r)).map (addWalked walked) := by
  rw [linkModules_failed failed]
  show Except.ok (ret, walked + 1 + min 1 modules.length, r) = .ok (ret, walked + min (0 + 2) (modules.length + 1), r)
  rw [show walked + 1 + min 1 modules.length = walked + min (0 + 2) (modules.length + 1) by omega]

/-- A module that was linked, before others. -/
theorem LinkedModules.cons {x : Except Ledger (UInt32 × Nat × ModuleRegistry)} (signed : Signed m moduleInfo)
    (contents : r'.contents = (moduleRegistrations m moduleInfo).foldl Contents.record r.contents)
    (served : Served r.calls r'.calls) (ends : LinkedModules m alloc modules r' rest x) :
    LinkedModules m alloc (moduleInfo :: modules) r rest (x.map (addWalked 1)) := by
  cases ends with
  | @linked r'' all contents' held served' =>
    have whole : r''.contents = ((moduleInfo :: modules).flatMap (moduleRegistrations m)).foldl Contents.record r.contents := by
      rw [contents', contents, List.flatMap_cons, List.foldl_append]
    have ends := @LinkedModules.linked _ alloc _ _ _ _ (List.forall_mem_cons.mpr ⟨signed, all⟩) whole held
      (served.trans served')
    rwa [List.length_cons, Nat.add_comm] at ends
  | @unsigned r'' before bad after whole all unsigned contents' held served' =>
    have all' : r''.contents = ((moduleInfo :: before).flatMap (moduleRegistrations m)).foldl Contents.record r.contents := by
      rw [contents', contents, List.flatMap_cons, List.foldl_append]
    have ends := @LinkedModules.unsigned _ alloc _ _ _ _ (moduleInfo :: before) bad after (congrArg (moduleInfo :: ·) whole)
      (List.forall_mem_cons.mpr ⟨signed, all⟩) unsigned all' held (served.trans served')
    rw [List.length_cons, List.length_cons] at ends
    show LinkedModules m alloc (moduleInfo :: modules) r rest (.ok (_, 1 + min (before.length + 2) modules.length, r''))
    rwa [show 1 + min (before.length + 2) modules.length = min (before.length + 1 + 2) (modules.length + 1) by omega]
  | @stopped r'' before failed after done reg left whole all registered contents' held denied =>
    have all' : r''.contents =
        ((moduleInfo :: before).flatMap (moduleRegistrations m) ++ done).foldl Contents.record r.contents := by
      rw [contents', contents, List.flatMap_cons, List.append_assoc, ← List.foldl_append]
    have ends := @LinkedModules.stopped _ alloc _ _ _ _ (moduleInfo :: before) failed after done reg left (congrArg (moduleInfo :: ·) whole)
      (List.forall_mem_cons.mpr ⟨signed, all⟩) registered all' held (denied.later served.suffix)
    rw [List.length_cons, List.length_cons] at ends
    show LinkedModules m alloc (moduleInfo :: modules) r rest (.ok (_, 1 + min (before.length + 2) modules.length, r''))
    rwa [show 1 + min (before.length + 2) modules.length = min (before.length + 1 + 2) (modules.length + 1) by omega]
  | crashed later null => exact .crashed (served.suffix.trans later) null

theorem map_addWalked (walked : Nat) (x : Except Ledger (UInt32 × Nat × ModuleRegistry)) :
    x.map (addWalked (walked + 1)) = (x.map (addWalked 1)).map (addWalked walked) := by
  cases x with
  | error calls => rfl
  | ok p => simp only [Except.map, addWalked, Nat.add_assoc]

theorem linkModules_ends (walked : Nat) (held : Held (r.blocks ++ rest) r.calls) :
    ∃ x, linkModules m alloc xboxSOk walked modules r = x.map (addWalked walked) ∧
      LinkedModules m alloc modules r rest x := by
  induction modules generalizing r walked with
  | nil => exact ⟨.ok (xboxSOk, 0, r), rfl, .linked nofun rfl held (.refl _)⟩
  | cons moduleInfo modules ih =>
    rw [linkModules, if_neg (not_not.mpr rfl)]
    by_cases signed : Signed m moduleInfo
    · obtain ⟨y, registered, ends⟩ := @registerModuleExports_linkEnds m alloc r rest moduleInfo signed held
      rw [registered]
      cases ends with
      | @linked r' contents held served =>
        obtain ⟨x, linked, ends⟩ := ih (walked + 1) held
        exact ⟨_, linked.trans (map_addWalked walked x), ends.cons signed contents served⟩
      | @stopped r' done reg left whole contents held denied =>
        have failed : xboxEFail ≠ xboxSOk := by decide
        refine ⟨_, linkModules_stops failed walked modules r', ?_⟩
        exact .stopped [] moduleInfo modules done reg left rfl (List.forall_mem_singleton.mpr signed) whole contents held
          denied
      | crashed later null => exact ⟨.error _, rfl, .crashed later null⟩
    · rw [registerModuleExports_unsigned signed]
      refine ⟨_, linkModules_stops (by decide) walked modules r, ?_⟩
      exact .unsigned [] moduleInfo modules rfl nofun signed rfl held (.refl _)

/-- Whatever the memory holds and the pool grants: all modules are registered,
or all before the first with bad headers, or a proper beginning of what there
was to register. Every block that was allocated is the registry's. -/
theorem linkLoadedModules_ends (alloc : Ledger → Nat → Nat) (m : Bytes) (modules : List DmnModload)
    (r : ModuleRegistry) (rest : List Nat) (held : Held (r.blocks ++ rest) r.calls) :
    LinkedModules m alloc modules r rest (linkLoadedModules m alloc modules r) := by
  obtain ⟨x, linked, ends⟩ := @linkModules_ends m alloc r rest modules 0 held
  have same : x.map (addWalked 0) = x := by
    cases x with
    | error calls => rfl
    | ok p => simp only [Except.map, addWalked, Nat.zero_add]
  rwa [linkLoadedModules, linked, same]

/-- One module, and then a place that holds none. -/
theorem exportImage_stops : ∃ r', linkLoadedModules (exportImage 5 [0x1000]) bump
      [⟨[109], 0x10000⟩, ⟨[110], 0⟩, ⟨[111], 0x10000⟩, ⟨[112], 0x10000⟩] {} = .ok (xboxETypeInvalid, 3, r') ∧
    mrGetMethodByOrdinal [109] 5 r' = (true, 0x11000) ∧ Held r'.blocks r'.calls := by
  have outcome : (linkLoadedModules (exportImage 5 [0x1000]) bump
      [⟨[109], 0x10000⟩, ⟨[110], 0⟩, ⟨[111], 0x10000⟩, ⟨[112], 0x10000⟩] {}).map (fun p =>
        (p.1, p.2.1, mrGetMethodByOrdinal [109] 5 p.2.2)) = .ok (xboxETypeInvalid, 3, true, 0x11000) := by decide +kernel
  have ends := linkLoadedModules_ends bump (exportImage 5 [0x1000])
    [⟨[109], 0x10000⟩, ⟨[110], 0⟩, ⟨[111], 0x10000⟩, ⟨[112], 0x10000⟩] {} [] (held_live clean_nil)
  generalize linkLoadedModules _ bump _ {} = x at outcome ends
  cases ends with
  | linked _ _ held =>
    cases outcome
  | @unsigned r' before bad after whole _ _ _ held =>
    simp only [Except.map, Except.ok.injEq, Prod.mk.injEq] at outcome
    rw [List.append_nil] at held
    exact ⟨r', by rw [outcome.2.1], outcome.2.2, held⟩
  | stopped _ _ _ _ _ _ _ _ _ _ held =>
    cases outcome
  | crashed => cases outcome

end Dyndxt.Link
