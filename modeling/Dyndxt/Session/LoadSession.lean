import Dyndxt.Params.Memory
import Dyndxt.Session.Hosting
import Dyndxt.Session.Transfer

/-!
# The memory of a load session

A session is an accepted `load` and the calls of `ReceiveImageData` up to the
one that refuses or completes the image. The blocks that change hands are the
raw image, the section headers and the image, next to those that the registry
and the DLLs hold, which the DLL's code may change.
-/

namespace Dyndxt.Session
open Dyndxt.Mem Dyndxt.Pool Dyndxt.Params Dyndxt.Loader Dyndxt.Registry

section

variable (alloc : Ledger → Nat → Nat) (code : LoadedCode) (responseLen : UInt32) (holds : List Nat)

/-- The calls of the handler, with the number of bytes of each, up to the one
that ends the session. What a call does before the image is complete does not
depend on `ReceiveImageDataComplete`, and the DLLs loaded before hold `holds`. -/
inductive LoadSession : CommandContext → ContextStore → ModuleRegistry → List UInt32 → Completed → Prop where
  /-- The handler is to be called again. -/
  | more {ctx : CommandContext} {store : ContextStore} {registry : ModuleRegistry} {size : UInt32}
      {sizes : List UInt32} {o : Outcome} {e : Completed} :
      (∀ complete, serve alloc complete (.proceed size) ctx store registry = some o) →
      goesOn (.proceed size) o = true → LoadSession o.ctx o.store o.registry sizes e →
      LoadSession ctx store registry (size :: sizes) e
  /-- The handler returns an error. -/
  | refused {ctx : CommandContext} {store : ContextStore} {registry : ModuleRegistry} {size : UInt32} {o : Outcome} :
      (∀ complete, serve alloc complete (.proceed size) ctx store registry = some o) →
      goesOn (.proceed size) o = false →
      LoadSession ctx store registry [size]
        { reply := o.reply, image := 0, hosted := { registry := o.registry, holds } }
  /-- The handler returns what `ReceiveImageDataComplete` does. -/
  | completed {ctx : CommandContext} {store : ContextStore} {registry : ModuleRegistry} {size : UInt32} {o : Outcome}
      {budget : Nat} {stale memory : Bytes} {c : Completed} :
      (∀ complete, serve alloc complete (.proceed size) ctx store registry =
        some { o with
          reply := (complete store.receive registry).1
          registry := (complete store.receive registry).2 }) →
      receiveImageDataComplete alloc code.run responseLen budget stale memory store.receive { registry, holds } = some c →
      LoadSession ctx store registry [size] c

end

/-- What a session may leave: the image of a load that succeeded, and what the
registry and the DLLs hold. -/
def Completed.left (e : Completed) : List Nat :=
  (if e.reply.code = xboxSOk then [e.image] else []) ++ e.hosted.blocks

/-- Nothing was returned that was not live, and of the blocks handed out since
`start` and those that the registry and the DLLs held there, all but those left
were returned, each exactly once: so were the raw image and the section
headers, and the image is live exactly after `XBOX_S_OK`. -/
structure SessionSettled (start : Hosted) (e : Completed) : Prop where
  clean : Clean e.hosted.registry.calls
  live : (live e.hosted.registry.calls ++ start.blocks).Perm (e.left ++ live start.registry.calls)
  freed : ∀ ptr, ptr ≠ 0 →
    frees ptr e.hosted.registry.calls + allocs ptr start.registry.calls + e.left.count ptr =
      allocs ptr e.hosted.registry.calls + frees ptr start.registry.calls + start.blocks.count ptr

variable {alloc : Ledger → Nat → Nat} {code : LoadedCode} {responseLen : UInt32} {command : Chars}
  {ctx : CommandContext} {store : ContextStore} {registry : ModuleRegistry} {o : Outcome} {e : Completed}
  {start : Hosted} {rest : List Nat} {size : UInt32} {sizes : List UInt32}

/-! ## The state between two calls -/

/-- The raw image is held, next to what the registry and the DLLs hold as before
and the other blocks that were live. -/
structure Awaits (start : Hosted) (rest : List Nat) (ctx : CommandContext) (store : ContextStore)
    (registry : ModuleRegistry) : Prop where
  handler : ctx.handler = some .receiveImageData
  userData : ctx.userData = .contextStore
  relocation : store.receive.relocationNeeded = true
  blocks : registry.blocks = start.registry.blocks
  held : Held (store.receive.imageBase :: (start.blocks ++ rest)) registry.calls

theorem goesOn_iff (handler : o.ctx.handler = some .receiveImageData) :
    goesOn (.proceed size) o = true ↔ o.reply.code = xboxSOk ∧ o.ctx.bytesRemaining ≠ 0 := by
  unfold goesOn
  rw [handler]
  exact decide_eq_true_iff

theorem xboxEUnexpected_ne_ok : xboxEUnexpected ≠ xboxSOk := by decide

/-- A completion that does nothing but reply. -/
def replies (reply : Reply) (_ : ReceiveImageDataContext) (registry : ModuleRegistry) : Reply × ModuleRegistry :=
  (reply, registry)

/-! ## How a session ends -/

theorem Completed.Accounts.session (accounts : e.Accounts rest)
    (held : Held (start.blocks ++ rest) start.registry.calls) : SessionSettled start e := by
  have owned : Held (e.left ++ rest) e.hosted.registry.calls := by
    unfold Completed.left
    rw [List.append_assoc]
    exact accounts
  refine ⟨owned.clean, List.perm_iff_count.mpr fun ptr => ?_, fun ptr some_ => ?_⟩
  · have after := owned.live.count_eq ptr
    have before := held.live.count_eq ptr
    simp only [List.count_append] at after before ⊢
    omega
  · have after := owned.balance some_
    have before := held.balance some_
    rw [List.count_append] at after before
    omega

/-- An empty call leaves the raw image behind. -/
theorem Awaits.abandoned (awaits : Awaits start rest ctx store registry)
    (held : Held (start.blocks ++ rest) start.registry.calls) : ¬ SessionSettled start
      { reply := .silent xboxEUnexpected, image := 0, hosted := { registry, holds := start.holds } } := by
  intro settled
  have left : Completed.left
      { reply := .silent xboxEUnexpected, image := 0, hosted := { registry, holds := start.holds } } = start.blocks := by
    show registry.blocks ++ start.holds = start.registry.blocks ++ start.holds
    rw [awaits.blocks]
  have lives := settled.live.length_eq
  have still := awaits.held.live.length_eq
  have before := held.live.length_eq
  rw [left] at lives
  simp only [List.length_append, List.length_cons] at lives still before
  omega

/-- Two accounts of one call agree on its reply. -/
theorem same_reply {r : Option Outcome} {o' : Outcome} (first : r = some o) (second : r = some o') :
    o.reply = o'.reply :=
  congrArg Outcome.reply (Option.some.inj (first.symm.trans second))

/-- An empty call ends the session. -/
theorem Awaits.refuses (awaits : Awaits start rest ctx store registry) (alloc : Ledger → Nat → Nat) (code : LoadedCode)
    (responseLen : UInt32) : LoadSession alloc code responseLen start.holds ctx store registry [0]
      { reply := .silent xboxEUnexpected, image := 0, hosted := { registry, holds := start.holds } } := by
  have took : Receives alloc 0 ctx store registry := receives awaits.handler awaits.userData alloc 0
  cases took with
  | empty none called =>
    refine .refused called (Bool.eq_false_of_not_eq_true ?_)
    rw [goesOn_iff awaits.handler]
    exact fun goes => absurd goes.1 xboxEUnexpected_ne_ok
  | more some_ remaining called => cases some_ rfl
  | last some_ remaining called => cases some_ rfl

/-- A session that is awaiting its data settles its memory unless it ends with
an empty call. -/
theorem LoadSession.settled_iff (session : LoadSession alloc code responseLen start.holds ctx store registry sizes e)
    (held : Held (start.blocks ++ rest) start.registry.calls) (awaits : Awaits start rest ctx store registry) :
    SessionSettled start e ↔ 0 ∉ sizes := by
  induction session with
  | @more ctx store registry size sizes o e called goes rest ih =>
    have called := called (replies (.silent xboxSOk))
    cases receives awaits.handler awaits.userData alloc size with
    | empty none took =>
      cases called.symm.trans (took _)
      have accepted := ((goesOn_iff awaits.handler).mp goes).1
      cases accepted
    | more some_ remaining took =>
      cases called.symm.trans (took _)
      rw [ih ⟨awaits.handler, awaits.userData, awaits.relocation, awaits.blocks, awaits.held⟩, List.mem_cons, not_or]
      exact ⟨fun absent => ⟨Ne.symm some_, absent⟩, And.right⟩
    | last some_ remaining took =>
      cases called.symm.trans (took _)
      exact absurd remaining ((goesOn_iff awaits.handler).mp goes).2
  | @refused ctx store registry size o called stops =>
    cases receives awaits.handler awaits.userData alloc size with
    | empty none took =>
      cases (called (replies (.silent xboxSOk))).symm.trans (took _)
      rw [none]
      exact iff_of_false (awaits.abandoned held) fun absent => absent List.mem_cons_self
    | more some_ remaining took =>
      cases (called (replies (.silent xboxSOk))).symm.trans (took _)
      rw [(goesOn_iff awaits.handler).mpr ⟨rfl, remaining⟩] at stops
      cases stops
    | last some_ remaining took =>
      -- the call would refuse with whatever the completion replies
      have first := same_reply (called (replies (.silent xboxSOk))) (took _)
      have second := same_reply (called (replies (.silent xboxEFail))) (took _)
      cases first.symm.trans second
  | @completed ctx store registry size o budget stale memory c called complete =>
    cases receives awaits.handler awaits.userData alloc size with
    | empty none took => cases same_reply (called (replies (.silent xboxSOk))) (took _)
    | more some_ remaining took =>
      cases same_reply (called (replies (.silent xboxEFail))) (took _)
    | last some_ remaining took =>
      have same : Hosted.blocks { registry, holds := start.holds } = start.blocks :=
        congrArg (· ++ start.holds) awaits.blocks
      have accounts := receiveImageDataComplete_accounts (s := { registry, holds := start.holds })
        (same.symm ▸ awaits.held) awaits.relocation complete
      exact iff_of_true (accounts.session held) (by simpa using Ne.symm some_)

/-! ## Every load session -/

/-- An accepted `load` awaits its image. -/
theorem handleDynamicLoad_awaits (held : Held (start.blocks ++ rest) start.registry.calls)
    (loaded : handleDynamicLoad alloc command ctx store start.registry = some o)
    (accepted : o.reply.code = xboxSSendBinary) : Awaits start rest o.ctx o.store o.registry := by
  obtain ⟨n, r, base, -, parsed, some_, rfl⟩ := handleDynamicLoad_accepted loaded accepted
  refine ⟨rfl, rfl, rfl, rfl, Held.alloc ?_ some_⟩
  cases parseString_accounted held parsed with
  | emptied nonpos owned => exact owned
  | filled collected filled owned => exact owned.delete

/-- Next to whatever the registry, the DLLs and others hold, a load session
settles its memory exactly when it does not end with a call that has received
nothing. -/
theorem load_session_settles (alloc : Ledger → Nat → Nat) (code : LoadedCode) (responseLen : UInt32) (command : Chars)
    (ctx : CommandContext) (store : ContextStore) (start : Hosted) (rest : List Nat) (o : Outcome) (sizes : List UInt32)
    (e : Completed) (held : Held (start.blocks ++ rest) start.registry.calls)
    (loaded : handleDynamicLoad alloc command ctx store start.registry = some o)
    (accepted : o.reply.code = xboxSSendBinary)
    (session : LoadSession alloc code responseLen start.holds o.ctx o.store o.registry sizes e) :
    SessionSettled start e ↔ 0 ∉ sizes :=
  session.settled_iff held (handleDynamicLoad_awaits held loaded accepted)

/-- Code that does nothing. -/
def idle : LoadedCode := ⟨fun _ s => s, fun _ _ _ held => held⟩

/-- Before anything is loaded or registered. -/
theorem nothing_held : Held (Hosted.blocks { registry := {} } ++ []) (ModuleRegistry.calls {}) := held_live clean_nil

/-- A connection that hands over no bytes leaves the raw image allocated. -/
theorem emptyCall_leaks : ¬ ∀ (alloc : Ledger → Nat → Nat) (code : LoadedCode) (responseLen : UInt32) (command : Chars)
    (ctx : CommandContext) (store : ContextStore) (start : Hosted) (rest : List Nat) (o : Outcome) (sizes : List UInt32)
    (e : Completed), Held (start.blocks ++ rest) start.registry.calls →
    handleDynamicLoad alloc command ctx store start.registry = some o → o.reply.code = xboxSSendBinary →
    LoadSession alloc code responseLen start.holds o.ctx o.store o.registry sizes e → SessionSettled start e := by
  intro settles
  have accepted : (handleDynamicLoad bump sizeFour {} {} {}).map (·.reply.code) = some xboxSSendBinary := by
    decide +kernel
  cases loaded : handleDynamicLoad bump sizeFour {} {} {} with
  | none => rw [loaded] at accepted; cases accepted
  | some o =>
    rw [loaded] at accepted
    have awaits : Awaits { registry := {} } [] o.ctx o.store o.registry :=
      handleDynamicLoad_awaits nothing_held loaded (Option.some.inj accepted)
    have session := awaits.refuses bump idle 256
    have settled := settles bump idle 256 sizeFour {} {} { registry := {} } [] o [0] _ nothing_held loaded
      (Option.some.inj accepted) session
    exact awaits.abandoned nothing_held settled

/-- ` size=312` -/
def sizeOfMoved : Chars := [32, 115, 105, 122, 101, 61, 51, 49, 50]

/-- A file that is relocated, in the target's memory. -/
def movedAt (base : Nat) : Bytes := fun a => movedDll.raw (a - base)

theorem movedDll_settled : ∃ o e, handleDynamicLoad bump sizeOfMoved {} {} {} = some o ∧
    LoadSession bump registeringCode 256 [] o.ctx o.store o.registry [312] e ∧ e.reply.code = xboxSOk ∧
    e.hosted.blocks ≠ [] ∧ SessionSettled { registry := {} } e := by
  have computed : (handleDynamicLoad bump sizeOfMoved {} {} {}).map (fun o =>
      (o.reply.code, (o.ctx.take 312).bytesRemaining,
        (receiveImageDataComplete bump registeringCode.run 256 1 (fun _ => 0) (movedAt o.store.receive.imageBase) o.store.receive
          { registry := o.registry }).map fun c => (c.reply.code, decide (c.hosted.blocks ≠ [])))) =
      some (xboxSSendBinary, 0, some (xboxSOk, true)) := by
    decide +kernel
  cases loaded : handleDynamicLoad bump sizeOfMoved {} {} {} with
  | none => rw [loaded] at computed; cases computed
  | some o =>
    rw [loaded] at computed
    simp only [Option.map_some, Option.some.injEq, Prod.mk.injEq] at computed
    obtain ⟨accepted, remaining, finished⟩ := computed
    cases complete : receiveImageDataComplete bump registeringCode.run 256 1 (fun _ => 0) (movedAt o.store.receive.imageBase)
        o.store.receive { registry := o.registry } with
    | none => rw [complete] at finished; cases finished
    | some c =>
      rw [complete] at finished
      obtain ⟨replied, registered⟩ := Prod.mk.inj (Option.some.inj finished)
      have awaits : Awaits { registry := {} } [] o.ctx o.store o.registry :=
        handleDynamicLoad_awaits nothing_held loaded accepted
      have took : Receives bump 312 o.ctx o.store o.registry := receives awaits.handler awaits.userData bump 312
      cases took with
      | empty none called => cases none
      | more some_ more called => exact absurd remaining more
      | last some_ remaining called =>
        have session : LoadSession bump registeringCode 256 [] o.ctx o.store o.registry [312] c :=
          @LoadSession.completed bump registeringCode 256 [] o.ctx o.store o.registry 312
            { reply := .silent xboxSOk, ctx := o.ctx.take 312, store := o.store, registry := o.registry }
            1 _ _ c called complete
        have settled := (load_session_settles bump registeringCode 256 sizeOfMoved {} {} { registry := {} } [] o [312] c
          nothing_held loaded accepted session).mpr (by decide)
        exact ⟨o, c, rfl, session, replied, of_decide_eq_true registered, settled⟩

end Dyndxt.Session
