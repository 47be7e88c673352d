import Dyndxt.Registry.Ownership

/-!
# Registering with a pool that may run out

Whoever registers an export holds its strings. A registration that is made
takes them over, one that is refused leaves them, and a node that could not be
allocated is written through.
-/

namespace Dyndxt.Registry
open Dyndxt.Pool Dyndxt.Run

section

variable (b : Build) (alloc : Ledger → Nat → Nat) (moduleName : List UInt8) (e : ModuleExport) (r : ModuleRegistry)
  (rest : List Nat)

/-- What a registration does to the blocks of the caller, `rest` being what
else is held. -/
inductive Custody : Except Ledger (Bool × ModuleRegistry) → Prop where
  | registered {r' : ModuleRegistry} : Held (r'.blocks ++ rest) r'.calls →
      r'.contents = r.contents.record (moduleName, e) → Served r.calls r'.calls → Custody (.ok (true, r'))
  | refused {r' : ModuleRegistry} : r'.exportTable = r.exportTable →
      Held (e.strings ++ (r.blocks ++ rest)) r'.calls → Denied alloc r.calls r'.calls → Custody (.ok (false, r'))
  | crashed {calls earlier : Ledger} : r.calls <:+ earlier → alloc earlier (sizeofExportNode b) = 0 →
      Custody (.error calls)

end

variable {b : Build} {alloc : Ledger → Nat → Nat} {r r' : ModuleRegistry} {calls : Ledger} {e : ModuleExport}
  {moduleName : List UInt8} {rest bs bs' : List Nat} {ok : Bool}

theorem served_freeAll (bs : List Nat) (calls : Ledger) : Served calls (freeAll bs calls) :=
  served_foldl (fun _ _ => served_free) bs calls

/-- Blocks exchanged next to the rest. -/
theorem Held.swap (held : Held (bs ++ rest) calls) (same : bs.Perm bs') : Held (bs' ++ rest) calls :=
  held.perm (same.append_right rest)

theorem recorded_of_true (registered : mrRegisterMethod b alloc moduleName e r = .ok (true, r')) :
    r'.contents = r.contents.record (moduleName, e) := by
  have ends := @mrRegisterMethod_ends b alloc r moduleName e
  rw [registered] at ends
  obtain ⟨-, recorded | failed⟩ := ends
  · exact recorded.2
  · cases failed.1

theorem mrRegisterMethod_custody (b : Build) (alloc : Ledger → Nat → Nat) (moduleName : List UInt8)
    (owned : Held (e.strings ++ (r.blocks ++ rest)) r.calls) :
    Custody b alloc moduleName e r rest (mrRegisterMethod b alloc moduleName e r) := by
  have outcome := mrRegisterMethod_registering b alloc moduleName e r
  have before : Held ((e.strings ++ r.blocks) ++ rest) r.calls := by rwa [List.append_assoc]
  generalize called : mrRegisterMethod b alloc moduleName e r = x at outcome
  cases outcome with
  | replaced module_ node_ =>
    have swapped := Held.swap before (replaced_blocks module_ node_)
    rw [List.append_assoc] at swapped
    exact .registered swapped.freeAll (recorded_of_true called) (served_freeAll _ _)
  | @added _ _ _ block module_ absent made some_ =>
    have grown := @Held.alloc _ _ (sizeofExportNode b) block before some_
    have grown : Held ((block :: (e.strings ++ r.blocks)) ++ rest) _ := grown
    exact .registered (Held.swap grown (added_blocks module_ block))
      (recorded_of_true called) (served_alloc some_)
  | nodeFailed module_ absent null => exact .crashed List.suffix_rfl null
  | tableFailed absent null =>
    rw [tableCalls, null]
    exact .refused rfl owned.allocNull (denied_alloc null)
  | @nameFailed block absent made some_ null =>
    have table : Held (block :: (e.strings ++ (r.blocks ++ rest))) (tableCalls b alloc r) := by
      rw [tableCalls, made]
      exact owned.alloc some_
    have named := denied_alloc null
    rw [nameCalls, null]
    refine .refused rfl table.allocNull.free ?_
    exact (named.later (List.suffix_cons _ _)).more (List.suffix_cons _ _)
  | firstFailed absent some_ named null =>
    exact .crashed ((List.suffix_cons _ _).trans (List.suffix_cons _ _)) null
  | @opened block nameBlock nodeBlock absent made some_ named nameSome noded nodeSome =>
    have grown : Held ((nodeBlock :: nameBlock :: block :: (e.strings ++ r.blocks)) ++ rest)
        (.alloc (sizeofExportNode b) nodeBlock :: nameCalls b alloc moduleName r) := by
      rw [nameCalls, named, tableCalls, made]
      exact ((before.alloc some_).alloc nameSome).alloc nodeSome
    refine .registered (Held.swap grown (opened_blocks block nameBlock nodeBlock)) (recorded_of_true called) ?_
    rw [nameCalls, named, tableCalls, made]
    exact ((served_alloc some_).trans (served_alloc nameSome)).trans (served_alloc nodeSome)

end Dyndxt.Registry
