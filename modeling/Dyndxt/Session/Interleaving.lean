import Mathlib.Logic.Function.Basic
import Dyndxt.Run.Paths
import Dyndxt.Session.DxtMain

/-!
# Conversations of several connections

The debug monitor keeps a context for each connection and calls the command
and the handlers of the connections in any order. They share one
`context_store`, so each connection sees what it set up itself as long as no
other one begins a conversation while it is in one.
-/

namespace Dyndxt.Session
open Dyndxt.Pool Dyndxt.Params Dyndxt.Registry Dyndxt.Run

/-- The calls on behalf of a connection. -/
inductive Call where
  /-- A `ddxt` command. -/
  | command (text : Chars)
  /-- The handler, with so many bytes received. -/
  | proceed (dataSize : UInt32)
deriving DecidableEq, Repr

/-- The shared state, the connections' contexts and which of them are in a
conversation. `own` is the store that a connection's own calls alone would
have left. -/
structure Xbdm (Conn : Type) where
  store : ContextStore
  registry : ModuleRegistry
  ctx : Conn → CommandContext
  unfinished : Conn → Bool
  own : Conn → ContextStore

section

variable {Conn : Type} [DecidableEq Conn] (alloc : Ledger → Nat → Nat)
  (complete : ReceiveImageDataContext → ModuleRegistry → Reply × ModuleRegistry)

/-- The function that a call runs. -/
def serve (call : Call) (ctx : CommandContext) (store : ContextStore) (registry : ModuleRegistry) :
    Option Outcome :=
  match call with
  | .command text => processCommand alloc text ctx store registry
  | .proceed dataSize => match ctx.handler with
    | none => none
    | some .sendMethodAddresses => sendMethodAddresses ctx store registry
    | some .receiveImageData => receiveImageData complete { ctx with dataSize } store registry

/-- The replies to a command that begin a conversation. -/
def opens (code : UInt32) : Bool := code = xboxSMultiline ∨ code = xboxSSendBinary

/-- The handler is to be called again. -/
def goesOn (call : Call) (o : Outcome) : Bool :=
  match call with
  | .command _ => opens o.reply.code
  | .proceed _ => match o.ctx.handler with
    | some .receiveImageData => o.reply.code = xboxSOk ∧ o.ctx.bytesRemaining ≠ 0
    | _ => o.reply.code = xboxSOk

/-- Handlers are called in a conversation only. -/
def Xbdm.calls (s : Xbdm Conn) : Conn × Call → Bool
  | (_, .command _) => true
  | (c, .proceed _) => s.unfinished c

/-- One call. -/
def Xbdm.exec (s : Xbdm Conn) (a : Conn × Call) : Option (Xbdm Conn) :=
  if s.calls a = false then none
  else match serve alloc complete a.2 (s.ctx a.1) s.store s.registry with
    | none => none
    | some o => some
      { store := o.store
        registry := o.registry
        ctx := Function.update s.ctx a.1 o.ctx
        unfinished := Function.update s.unfinished a.1 (goesOn a.2 o)
        own := Function.update s.own a.1 <|
          match serve alloc complete a.2 (s.ctx a.1) (s.own a.1) s.registry with
          | none => s.own a.1
          | some o => o.store }

/-- No conversation is begun while another connection is in one. -/
def Alone (s : Xbdm Conn) : Conn × Call → Prop
  | (c, .command text) => ∀ o, processCommand alloc text (s.ctx c) s.store s.registry = some o →
      opens o.reply.code = true → ∀ c', c' ≠ c → s.unfinished c' = false
  | (_, .proceed _) => True

/-- The call runs on what the connection set up itself: at its last chunk the
image base and size of its own `load`, and at each line the cursor of its own
`hello`. -/
def Undisturbed (s : Xbdm Conn) : Conn × Call → Prop
  | (_, .command _) => True
  | (c, .proceed dataSize) => s.unfinished c = true → match (s.ctx c).handler with
    | none => True
    | some .sendMethodAddresses => s.store.cursor = (s.own c).cursor
    | some .receiveImageData => dataSize ≠ 0 → (s.ctx c).bytesRemaining - dataSize = 0 →
      s.store.receive.imageBase = (s.own c).receive.imageBase ∧
        s.store.receive.rawImageSize = (s.own c).receive.rawImageSize

end

/-! ## What a call reads and writes of the store -/

/-- The part of the store that a handler reads. -/
def Sees (handler : Option ContinuationProc) (store own : ContextStore) : Prop :=
  match handler with
  | none => True
  | some .sendMethodAddresses => store.cursor = own.cursor
  | some .receiveImageData => store.receive = own.receive

variable {alloc : Ledger → Nat → Nat}
  {complete : ReceiveImageDataContext → ModuleRegistry → Reply × ModuleRegistry}
  {text : Chars} {ctx : CommandContext} {store : ContextStore} {registry : ModuleRegistry} {o : Outcome}

/-- A function of the store that begins a conversation: it writes what the
conversation's handler reads, whatever was there. -/
def Begins (f : ContextStore → Option Outcome) (o : Outcome) : Prop :=
  opens o.reply.code = true ∧ ∃ change : ContextStore → ContextStore,
    (∀ store, f store = some { o with store := change store }) ∧
    ∀ store store', Sees o.ctx.handler (change store) (change store')

/-- A function of the store that refuses: it writes nothing. -/
def Declines (f : ContextStore → Option Outcome) (o : Outcome) : Prop :=
  opens o.reply.code = false ∧ ∀ store, f store = some { o with store }

theorem opens_multiline : opens xboxSMultiline = true := by decide
theorem opens_sendBinary : opens xboxSSendBinary = true := by decide
theorem not_opens_fail : opens xboxEFail = false := by decide
theorem not_opens_accessDenied : opens xboxEAccessDenied = false := by decide
theorem not_opens_unknownCommand : opens xboxEUnknownCommand = false := by decide

theorem not_opens_cpPrintError (ret : Int) : opens (cpPrintError ret).2 = false := by
  unfold cpPrintError
  repeat' split
  all_goals decide

theorem handleHello_begins (handled : handleHello ctx store registry = some o) :
    Begins (fun store => handleHello ctx store registry) o := by
  unfold handleHello at handled
  unfold Begins handleHello
  split at handled
  · cases handled
  · next cursor _ =>
    cases handled
    exact ⟨opens_multiline, (·.setCursor cursor), fun _ => rfl, fun _ _ => rfl⟩

theorem handleDynamicLoad_shape (handled : handleDynamicLoad alloc text ctx store registry = some o) :
    Begins (fun store => handleDynamicLoad alloc text ctx store registry) o ∨
      Declines (fun store => handleDynamicLoad alloc text ctx store registry) o := by
  cases handleDynamicLoad_ends alloc text ctx registry with
  | overread calls parsed ends => cases (ends store).symm.trans handled
  | malformed r parsed negative ends =>
    cases (ends store).symm.trans handled
    exact .inr ⟨not_opens_cpPrintError r.ret, ends⟩
  | unsized r size parsed nonnegative missing ends =>
    cases (ends store).symm.trans handled
    exact .inr ⟨not_opens_fail, ends⟩
  | starved r size parsed nonnegative found ends =>
    cases (ends store).symm.trans handled
    exact .inr ⟨not_opens_accessDenied, ends⟩
  | accepted r size base parsed nonnegative found some_ ends =>
    cases (ends store).symm.trans handled
    exact .inl ⟨opens_sendBinary, fun _ => .setReceive _, ends, fun _ _ => rfl⟩

/-- A command begins a conversation or writes nothing. -/
theorem processCommand_shape (processed : processCommand alloc text ctx store registry = some o) :
    Begins (fun store => processCommand alloc text ctx store registry) o ∨
      Declines (fun store => processCommand alloc text ctx store registry) o := by
  unfold processCommand at processed ⊢
  dsimp only at processed ⊢
  split at processed
  · cases processed
  · next long =>
    simp only [if_neg long]
    split at processed
    · next hello =>
      simp only [if_pos hello]
      exact .inl (handleHello_begins processed)
    · next other =>
      simp only [if_neg other]
      split at processed
      · next load =>
        simp only [if_pos load]
        exact handleDynamicLoad_shape processed
      · next unknown =>
        cases processed
        exact .inr ⟨not_opens_unknownCommand, fun _ => if_neg unknown⟩

/-- `SendMethodAddresses` reads the cursor only. -/
theorem sendMethodAddresses_sees {own : ContextStore} (same : store.cursor = own.cursor)
    (served : sendMethodAddresses ctx store registry = some o) :
    o.ctx.handler = ctx.handler ∧ ∃ o', sendMethodAddresses ctx own registry = some o' ∧
      o.store.cursor = o'.store.cursor := by
  unfold sendMethodAddresses at served ⊢
  rw [← same]
  split at served
  · cases served
  · next shared =>
    rw [if_neg shared]
    split at served
    · cases served
    · cases served
      exact ⟨rfl, _, rfl, rfl⟩
    · cases served
      exact ⟨rfl, _, rfl, rfl⟩

/-- `ReceiveImageData` reads the record of the image only. -/
theorem receiveImageData_sees {own : ContextStore} (same : store.receive = own.receive)
    (served : receiveImageData complete ctx store registry = some o) :
    o.ctx.handler = ctx.handler ∧ ∃ o', receiveImageData complete ctx own registry = some o' ∧
      o.store.receive = o'.store.receive := by
  unfold receiveImageData at served ⊢
  dsimp only at served ⊢
  rw [← same]
  split at served
  · next empty =>
    cases served
    exact ⟨rfl, _, if_pos empty, same⟩
  · next some_ =>
    rw [if_neg some_]
    split at served
    · next more =>
      cases served
      exact ⟨rfl, _, if_pos more, same⟩
    · next last =>
      rw [if_neg last]
      split at served
      · cases served
      · next shared =>
        cases served
        exact ⟨rfl, _, if_neg shared, same⟩

/-- A handler that sees the same part of two stores does the same on both, and
sees the same part of what it leaves. -/
theorem proceed_sees {dataSize : UInt32} {own : ContextStore} (sees : Sees ctx.handler store own)
    (served : serve alloc complete (.proceed dataSize) ctx store registry = some o) :
    o.ctx.handler = ctx.handler ∧ ∃ o', serve alloc complete (.proceed dataSize) ctx own registry = some o' ∧
      Sees ctx.handler o.store o'.store := by
  unfold serve at served ⊢
  cases handler : ctx.handler with
  | none => rw [handler] at served; cases served
  | some proc =>
    rw [handler] at served sees
    cases proc with
    | sendMethodAddresses =>
      obtain ⟨kept, o', same⟩ := sendMethodAddresses_sees sees served
      exact ⟨kept.trans handler, o', same⟩
    | receiveImageData =>
      obtain ⟨kept, o', same⟩ := receiveImageData_sees sees served
      exact ⟨kept, o', same⟩

/-! ## Runs -/

/-- One connection at most is in a conversation, and it sees what it set up. -/
structure Settled {Conn : Type} (s : Xbdm Conn) : Prop where
  single : ∀ c c', s.unfinished c = true → s.unfinished c' = true → c = c'
  own : ∀ c, s.unfinished c = true → Sees (s.ctx c).handler s.store (s.own c)

variable {Conn : Type} {s s' start : Xbdm Conn} {a : Conn × Call}

theorem Settled.undisturbed (settled : Settled s) (a : Conn × Call) : Undisturbed s a := by
  obtain ⟨c, call⟩ := a
  cases call with
  | command text => trivial
  | proceed dataSize =>
    intro unfinished
    have sees := settled.own c unfinished
    cases handler : (s.ctx c).handler with
    | none => trivial
    | some proc =>
      rw [handler] at sees
      cases proc with
      | sendMethodAddresses => exact sees
      | receiveImageData =>
        intro _ _
        have sees : s.store.receive = (s.own c).receive := sees
        rw [sees]
        exact ⟨rfl, rfl⟩

section

variable [DecidableEq Conn]

/-- A call of a connection in which no other one is in a conversation, and
which sees afterwards what its own store has. -/
theorem settled_update {c : Conn} {o : Outcome} {goes : Bool} {own : ContextStore}
    (others : goes = true → ∀ c', c' ≠ c → s.unfinished c' = false)
    (sees : goes = true → Sees o.ctx.handler o.store own)
    (kept : ∀ c', c' ≠ c → s.unfinished c' = true → Sees (s.ctx c').handler o.store (s.own c'))
    (single : ∀ c c', s.unfinished c = true → s.unfinished c' = true → c = c') :
    Settled
      { store := o.store
        registry := o.registry
        ctx := Function.update s.ctx c o.ctx
        unfinished := Function.update s.unfinished c goes
        own := Function.update s.own c own } := by
  constructor
  · intro c₁ c₂ first second
    dsimp only at first second
    by_cases here₁ : c₁ = c
    · by_cases here₂ : c₂ = c
      · rw [here₁, here₂]
      · rw [here₁, Function.update_self] at first
        rw [Function.update_of_ne here₂, others first c₂ here₂] at second
        cases second
    · rw [Function.update_of_ne here₁] at first
      by_cases here₂ : c₂ = c
      · rw [here₂, Function.update_self] at second
        rw [others second c₁ here₁] at first
        cases first
      · rw [Function.update_of_ne here₂] at second
        exact single c₁ c₂ first second
  · intro c' unfinished
    dsimp only at unfinished ⊢
    by_cases here : c' = c
    · subst here
      rw [Function.update_self] at unfinished ⊢
      rw [Function.update_self]
      exact sees unfinished
    · rw [Function.update_of_ne here] at unfinished ⊢
      rw [Function.update_of_ne here]
      exact kept c' here unfinished

theorem exec_settled (settled : Settled s) (alone : Alone alloc s a) (next : s.exec alloc complete a = some s') :
    Settled s' := by
  obtain ⟨c, call⟩ := a
  unfold Xbdm.exec at next
  split at next
  · cases next
  · next called =>
    split at next
    · cases next
    · next o served =>
      cases next
      cases call with
      | command text =>
        have served : processCommand alloc text (s.ctx c) s.store s.registry = some o := served
        rcases processCommand_shape served with ⟨opened, change, writes, sees⟩ | ⟨closed, writes⟩
        · have others := alone o served opened
          have store : o.store = change s.store :=
            congrArg Outcome.store (Option.some.inj (served.symm.trans (writes s.store)))
          refine settled_update (fun _ => others) (fun _ => ?_) (fun c' differs busy => ?_) settled.single
          · have private_ : serve alloc complete (.command text) (s.ctx c) (s.own c) s.registry =
                some { o with store := change (s.own c) } := writes (s.own c)
            dsimp only
            rw [private_, store]
            exact sees _ _
          · rw [others c' differs] at busy
            cases busy
        · have store : o.store = s.store :=
            congrArg Outcome.store (Option.some.inj (served.symm.trans (writes s.store)))
          have stops : goesOn (.command text) o = false := closed
          refine settled_update ?_ ?_ (fun c' _ busy => ?_) settled.single
          · intro goes
            rw [stops] at goes
            cases goes
          · intro goes
            rw [stops] at goes
            cases goes
          · rw [store]
            exact settled.own c' busy
      | proceed dataSize =>
        have busy : s.unfinished c = true := by simpa [Xbdm.calls] using called
        obtain ⟨handler, o', private_, sees⟩ := proceed_sees (settled.own c busy) served
        have others (c' : Conn) (differs : c' ≠ c) : s.unfinished c' = false := by
          cases busy' : s.unfinished c' with
          | false => rfl
          | true => exact absurd (settled.single c' c busy' busy) differs
        refine settled_update (fun _ => others) (fun _ => ?_) (fun c' differs busy' => ?_) settled.single
        · dsimp only
          rw [private_, handler]
          exact sees
        · rw [others c' differs] at busy'
          cases busy'

/-- In every run that starts without conversations and begins none while
another connection is in one, every call runs on what its connection set up. -/
theorem sessions_undisturbed (alloc : Ledger → Nat → Nat)
    (complete : ReceiveImageDataContext → ModuleRegistry → Reply × ModuleRegistry) (start s : Xbdm Conn)
    (idle : ∀ c, start.unfinished c = false)
    (path : Path (Xbdm.exec alloc complete) (Alone alloc) start s) : ∀ a, Undisturbed s a := by
  have settled : Settled start := by
    constructor
    · intro c _ busy
      rw [idle c] at busy
      cases busy
    · intro c busy
      rw [idle c] at busy
      cases busy
  exact (path.invariant (fun s a s' => exec_settled) settled).undisturbed

end

/-! ## Two connections -/

/-- `ddxt!load size=16` -/
def loadSixteen : Chars := [100, 100, 120, 116, 33, 108, 111, 97, 100, 32, 115, 105, 122, 101, 61, 49, 54]

/-- `ddxt!hello` -/
def hello : Chars := [100, 100, 120, 116, 33, 104, 101, 108, 108, 111]

/-- A completion that does nothing more. -/
def done (_ : ReceiveImageDataContext) (registry : ModuleRegistry) : Reply × ModuleRegistry :=
  (.silent xboxSOk, registry)

/-- No conversations, and a registry with one export. -/
def oneExport : Xbdm Bool where
  store := {}
  registry := { exportTable := [⟨64, ⟨65, [109]⟩, [⟨66, ⟨1, none, none, 32⟩⟩]⟩] }
  ctx := fun _ => {}
  unfinished := fun _ => false
  own := fun _ => {}

/-- A `hello` between a `load` and its last chunk replaces the image base by
the address of the first export. -/
theorem hello_disturbs_load : ¬ ∀ start s : Xbdm Bool, (∀ c, start.unfinished c = false) →
    Path (Xbdm.exec bump done) (fun _ _ => True) start s → ∀ a, Undisturbed s a := by
  intro undisturbed
  have overlap : ([(false, .command loadSixteen), (true, .command hello)].foldlM (Xbdm.exec bump done)
      oneExport).map (fun s => (s.unfinished false, (s.ctx false).handler, (s.ctx false).bytesRemaining,
        s.store.receive.imageBase, (s.own false).receive.imageBase)) =
      some (true, some .receiveImageData, 16, 66, 4736) := by decide +kernel
  cases followed : [(false, .command loadSixteen), (true, .command hello)].foldlM (Xbdm.exec bump done)
      oneExport with
  | none => rw [followed] at overlap; cases overlap
  | some s =>
    rw [followed] at overlap
    simp only [Option.map_some, Option.some.injEq, Prod.mk.injEq] at overlap
    obtain ⟨busy, handler, remaining, base, own⟩ := overlap
    have same := undisturbed oneExport s (fun _ => rfl) (path_of_foldlM followed) (false, .proceed 16) busy
    rw [handler] at same
    have bases := (same (by decide) (by rw [remaining]; decide)).1
    rw [base, own] at bases
    cases bases

/-- A whole `load` on one connection, and then a `hello` on the other. -/
theorem helloAfterLoad_undisturbed : ∃ s₁ s₂ s, oneExport.exec bump done (false, .command loadSixteen) = some s₁ ∧
    s₁.exec bump done (false, .proceed 16) = some s₂ ∧ s₂.exec bump done (true, .command hello) = some s ∧
    s.unfinished true = true ∧ Undisturbed s (true, .proceed 64) := by
  have ran : ((oneExport.exec bump done (false, .command loadSixteen)).bind fun s₁ =>
      (s₁.exec bump done (false, .proceed 16)).bind fun s₂ =>
        (s₂.exec bump done (true, .command hello)).map fun s => (s₂.unfinished false, s.unfinished true)) =
      some (false, true) := by decide +kernel
  obtain ⟨s₁, loaded, ran⟩ := Option.bind_eq_some_iff.mp ran
  obtain ⟨s₂, completed, ran⟩ := Option.bind_eq_some_iff.mp ran
  obtain ⟨s, greeted, ran⟩ := Option.map_eq_some_iff.mp ran
  obtain ⟨ended, begun⟩ := Prod.mk.inj ran
  have alone : ∀ c : Bool, c ≠ true → s₂.unfinished c = false := by
    rintro (_ | _) other
    · exact ended
    · exact absurd rfl other
  have path : Path (Xbdm.exec bump done) (Alone bump) oneExport s :=
    .snoc (true, .command hello)
      (.snoc (false, .proceed 16)
        (.snoc (false, .command loadSixteen) .refl (fun _ _ _ _ _ => rfl) loaded) trivial completed)
      (fun _ _ _ => alone) greeted
  exact ⟨s₁, s₂, s, loaded, completed, greeted, begun,
    sessions_undisturbed bump done oneExport s (fun _ => rfl) path _⟩

end Dyndxt.Session
