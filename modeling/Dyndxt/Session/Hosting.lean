import Dyndxt.Registry.Custody
import Dyndxt.Session.Commands

/-!
# Code that registers exports

The DLLs that the loader hosts register methods of their own, which is within
what their code may do.
-/

namespace Dyndxt.Session
open Dyndxt.Mem Dyndxt.Pool Dyndxt.Loader Dyndxt.Registry Dyndxt.Run

/-- Code that registers an export without names, and stops the machine where
the registry would. -/
def registerNameless (alloc : Ledger → Nat → Nat) (moduleName : List UInt8) (ordinal address : UInt32) (s : Hosted) :
    Hosted :=
  match mrRegisterMethod .target alloc moduleName { ordinal, methodName := none, alias_ := none, address } s.registry with
  | .error _ => s
  | .ok (_, registry) => { s with registry }

/-- Registering is within what the code may do. -/
theorem registerNameless_minds (alloc : Ledger → Nat → Nat) (moduleName : List UInt8) (ordinal address : UInt32)
    (s : Hosted) : let s' := registerNameless alloc moduleName ordinal address s
    Minds s.blocks s.registry.calls s'.blocks s'.registry.calls := by
  intro s' rest held
  unfold Hosted.blocks at held ⊢
  rw [List.append_assoc] at held ⊢
  have custody := mrRegisterMethod_custody (e := { ordinal, methodName := none, alias_ := none, address }) .target
    alloc moduleName held
  show Held (s'.registry.blocks ++ (s'.holds ++ rest)) s'.registry.calls
  unfold s' registerNameless
  generalize mrRegisterMethod .target alloc moduleName _ s.registry = x at custody
  cases custody with
  | registered held => exact held
  | @refused r' tables held =>
    have same : r'.blocks = s.registry.blocks := by rw [ModuleRegistry.blocks, tables]; rfl
    dsimp only
    rw [same]
    exact held
  | crashed => exact held

/-- The code registers an export of a DLL at each call. -/
def registeringCode : LoadedCode where
  run address := registerNameless bump [0x6D] 1 (.ofNat address)
  minds address := registerNameless_minds bump [0x6D] 1 (.ofNat address)

end Dyndxt.Session
