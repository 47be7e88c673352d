import Mathlib.Logic.Function.Iterate
import Dyndxt.Loader.Frame

/-!
# `DLLInvokeTLSCallbacks`

The callbacks are code of the loaded DLL: `call` is what one call does to the
state that this code works on. The loop tests the pointer it started with and
the function behind it, which are the same in every round.
-/

namespace Dyndxt.Loader
open Dyndxt.Mem Dyndxt.Run

/-- `DLL_PROCESS_ATTACH` -/
def dllProcessAttach : UInt32 := 1

/-- A call of a TLS callback: the address called, and its arguments but the
null pointer. -/
structure TlsCall where
  callback : UInt32
  h : Nat
  dwReason : UInt32
deriving DecidableEq, Repr

section

variable {σ : Type} (b : Build) (call : TlsCall → σ → σ)

/-- One round of the callback loop. -/
def tlsTurn (callback : TlsCall) (s : σ) : Turn σ σ :=
  if callback.callback ≠ 0 then .again (call callback s) else .leave s

/-- `DLLInvokeTLSCallbacks`. `_WIN32` is defined on the target. -/
def dllInvokeTlsCallbacks (budget : Nat) (ctx : DllContext) (s : σ) : Turn σ (Pass × σ) :=
  let ctx := ctx.setErrorContext .invokeTlsCallbacks
  let directory := ctx.output.header.optionalHeader.dataDirectory imageDirectoryEntryTls
  if directory.size = 0 then .leave (.ok ctx, s)
  else match b with
    | .host => .leave (.ok ctx, s)
    | .target =>
      let addressOfCallBacks := ctx.load32 b (directory.virtualAddress.toNat + 12)
      match run (tlsTurn call ⟨addressOfCallBacks, ctx.output.image, dllProcessAttach⟩) budget s with
      | .again s => .again s
      | .leave s => .leave (.ok ctx, s)

end

variable {σ : Type} {b : Build} {call : TlsCall → σ → σ} {budget : Nat} {ctx : DllContext} {s s' : σ} {r : Pass}

/-- What every call of the DLL's code keeps holds when the callbacks have been
invoked, and the loader's blocks are the same. -/
theorem dllInvokeTlsCallbacks_ends {I : σ → Prop} (kept : ∀ t s, I s → I (call t s))
    (invoked : dllInvokeTlsCallbacks b call budget ctx s = .leave (r, s')) (start : I s) :
    Ends (SameBlocks ctx) (SameBlocks ctx) r ∧ I s' := by
  unfold dllInvokeTlsCallbacks at invoked
  dsimp only at invoked
  split at invoked
  · cases invoked
    exact ⟨⟨rfl, rfl, rfl⟩, start⟩
  · cases b with
    | host =>
      cases invoked
      exact ⟨⟨rfl, rfl, rfl⟩, start⟩
    | target =>
      dsimp only at invoked
      generalize callback : (⟨_, _, _⟩ : TlsCall) = t at invoked
      have held := @run_holds _ _ (tlsTurn call t) s I I
        (fun s s' inv next => by
          unfold tlsTurn at next
          split at next
          · cases next
            exact kept t s inv
          · cases next)
        (fun s s' inv left => by
          unfold tlsTurn at left
          split at left
          · cases left
          · cases left
            exact inv)
        budget start
      split at invoked
      · cases invoked
      · next s₁ left =>
        cases invoked
        rw [left] at held
        exact ⟨⟨rfl, rfl, rfl⟩, held⟩

/-! ## What the loop calls -/

/-- `init->AddressOfCallBacks` -/
def DllContext.addressOfCallBacks (b : Build) (ctx : DllContext) : UInt32 :=
  ctx.load32 b
    ((ctx.output.header.optionalHeader.dataDirectory imageDirectoryEntryTls).virtualAddress.toNat + 12)

/-- The callbacks stand at `p`, and a zero follows them. -/
def CallbacksAt (M : Nat) (m : Bytes) : Nat → List UInt32 → Prop
  | p, [] => u32 M m p = 0
  | p, callback :: callbacks => u32 M m p = callback ∧ callback ≠ 0 ∧ CallbacksAt M m (p + 4) callbacks

/-- An image with a TLS directory, whose `AddressOfCallBacks` is null or the
address of the callbacks' array. -/
structure HasCallbacks (b : Build) (ctx : DllContext) (callbacks : List UInt32) : Prop where
  directory : (ctx.output.header.optionalHeader.dataDirectory imageDirectoryEntryTls).size ≠ 0
  array : ctx.addressOfCallBacks b = 0 ∧ callbacks = [] ∨ ctx.addressOfCallBacks b ≠ 0 ∧
    CallbacksAt b.space ctx.image (dist b.space ctx.output.image (ctx.addressOfCallBacks b).toNat) callbacks

/-- Whatever the callbacks do, each is called once, in order, for the image and
`DLL_PROCESS_ATTACH`, nothing else is, and true is returned. -/
def InvokesEach (b : Build) (ctx : DllContext) (callbacks : List UInt32) : Prop :=
  ∀ (σ : Type) (call : TlsCall → σ → σ) (s : σ), ∃ n ctx', ∀ budget ≥ n,
    dllInvokeTlsCallbacks b call budget ctx s = .leave (.ok ctx',
      callbacks.foldl (fun s callback => call ⟨callback, ctx.output.image, dllProcessAttach⟩ s) s)

/-- A round does not change what the next one tests. -/
theorem run_tlsTurn {t : TlsCall} (some_ : t.callback ≠ 0) (n : Nat) (s : σ) :
    run (tlsTurn call t) n s = .again ((call t)^[n] s) := by
  induction n generalizing s with
  | zero => rfl
  | succ n ih =>
    have next : tlsTurn call t s = .again (call t s) := if_pos some_
    simp only [run, next]
    exact ih (call t s)

theorem dllInvokeTlsCallbacks_target
    (directory : (ctx.output.header.optionalHeader.dataDirectory imageDirectoryEntryTls).size ≠ 0)
    (budget : Nat) (s : σ) : dllInvokeTlsCallbacks .target call budget ctx s =
      match run (tlsTurn call ⟨ctx.addressOfCallBacks .target, ctx.output.image, dllProcessAttach⟩) budget s with
      | .again s => .again s
      | .leave s => .leave (.ok (ctx.setErrorContext .invokeTlsCallbacks), s) := if_neg directory

/-- The address of the array is called as if it were a callback, over and
over. -/
theorem dllInvokeTlsCallbacks_again
    (directory : (ctx.output.header.optionalHeader.dataDirectory imageDirectoryEntryTls).size ≠ 0)
    (array : ctx.addressOfCallBacks .target ≠ 0) (budget : Nat) (s : σ) :
    dllInvokeTlsCallbacks .target call budget ctx s =
      .again ((call ⟨ctx.addressOfCallBacks .target, ctx.output.image, dllProcessAttach⟩)^[budget] s) := by
  rw [dllInvokeTlsCallbacks_target directory, run_tlsTurn array]

/-- The callbacks of an image are invoked exactly when it has no array of
them. -/
theorem dllInvokeTlsCallbacks_each (ctx : DllContext) (callbacks : List UInt32)
    (tls : HasCallbacks .target ctx callbacks) :
    InvokesEach .target ctx callbacks ↔ ctx.addressOfCallBacks .target = 0 := by
  constructor
  · intro each
    by_contra array
    obtain ⟨n, ctx', returns⟩ := each Unit (fun _ s => s) ()
    have stuck := @dllInvokeTlsCallbacks_again _ (fun _ s => s) ctx tls.directory array n ()
    rw [returns n (Nat.le_refl n)] at stuck
    cases stuck
  · intro null σ call s
    obtain ⟨-, rfl⟩ := tls.array.resolve_right fun array => array.1 null
    refine ⟨1, ctx.setErrorContext .invokeTlsCallbacks, fun budget enough => ?_⟩
    obtain ⟨n, rfl⟩ := Nat.exists_eq_add_of_le' enough
    have left : tlsTurn call ⟨ctx.addressOfCallBacks .target, ctx.output.image, dllProcessAttach⟩ s = .leave s :=
      if_neg (not_not.mpr null)
    rw [dllInvokeTlsCallbacks_target tls.directory]
    simp only [run, left, List.foldl_nil]

/-- An image at `0x50000` with a TLS directory at `0x10`. -/
def tlsImage (words : List (Nat × UInt32)) : DllContext where
  output := {
    header := { optionalHeader := {
      dataDirectory := fun i => if i = imageDirectoryEntryTls then ⟨0x10, 24⟩ else {} } }
    image := 0x50000 }
  image := ofWords words

theorem tlsImage_none : InvokesEach .target (tlsImage []) [] := by
  have tls : HasCallbacks .target (tlsImage []) [] := ⟨by decide, .inl ⟨by decide, rfl⟩⟩
  exact (dllInvokeTlsCallbacks_each (tlsImage []) [] tls).mpr (by decide)

/-- One callback, in an array at `0x40`. -/
theorem tlsImage_spins : HasCallbacks .target (tlsImage [(0x1C, 0x50040), (0x40, 0x50100)]) [0x50100] ∧
    ¬ InvokesEach .target (tlsImage [(0x1C, 0x50040), (0x40, 0x50100)]) [0x50100] := by
  have array : (tlsImage [(0x1C, 0x50040), (0x40, 0x50100)]).addressOfCallBacks .target ≠ 0 := by decide
  constructor
  · refine ⟨by decide, .inr ⟨array, ?_⟩⟩
    refine ⟨by decide +kernel, by decide, ?_⟩
    show u32 _ _ _ = 0
    decide +kernel
  · intro each
    obtain ⟨n, ctx', returns⟩ := each Unit (fun _ s => s) ()
    have stuck := @dllInvokeTlsCallbacks_again _ (fun _ s => s) (tlsImage [(0x1C, 0x50040), (0x40, 0x50100)])
      (by decide) array n ()
    rw [returns n (Nat.le_refl n)] at stuck
    cases stuck

end Dyndxt.Loader
