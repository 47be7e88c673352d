import Mathlib.Logic.Function.Basic
import Dyndxt.Run.Paths
import Dyndxt.Session.ExportCommand
import Dyndxt.Session.Hosting
import Dyndxt.Session.Transfer

/-!
# The service

All the commands, their conversations and the DLLs they load, on one pool. As
long as no conversation is begun in the middle of another, every block that is
live belongs to the registry, to a DLL, to a client that was told of it, or is
the raw image of the transfer that is going on.
-/

namespace Dyndxt.Session
open Dyndxt.Mem Dyndxt.Pool Dyndxt.Params Dyndxt.Registry Dyndxt.Run

/-- What a connection has the debug monitor do. -/
inductive Request where
  /-- A `ddxt` command. -/
  | command (text : Chars)
  /-- The next line of a listing. -/
  | line
  /-- The next bytes of an image. -/
  | data (chunk : List UInt8)
deriving DecidableEq, Repr

/-- The shared state, the blocks that clients were told of, the connections'
contexts and which of them are in a conversation. -/
structure Service (Conn : Type) where
  memory : Bytes
  store : ContextStore
  hosted : Hosted
  given : List Nat
  ctx : Conn → CommandContext
  unfinished : Conn → Bool

/-- The block that a reply tells the client of. -/
def Outcome.tells (o : Outcome) : List Nat :=
  match o.reply, o.registry.calls with
  | .text code _, .alloc _ ptr :: _ => if code = xboxSOk then [ptr] else []
  | _, _ => []

/-- The image that stays after a load. -/
def Completed.keeps (relocationNeeded : Bool) (c : Completed) : List Nat :=
  if relocationNeeded = true ∧ c.reply.code = xboxSOk then [c.image] else []

section

variable {Conn : Type} [DecidableEq Conn] (alloc : Ledger → Nat → Nat) (code : LoadedCode) (responseLen : UInt32)
  (budget : Nat) (stale : Ledger → Bytes)

/-- The state after a call of the command or of a handler. -/
def Service.after (s : Service Conn) (c : Conn) (o : Outcome) (goes : Bool) : Service Conn :=
  { s with
    store := o.store
    hosted := { s.hosted with registry := o.registry }
    ctx := Function.update s.ctx c o.ctx
    unfinished := Function.update s.unfinished c goes }

/-- `ReceiveImageData` is called for a chunk that was put at `ctx->buffer`. -/
def Service.receive (s : Service Conn) (c : Conn) (chunk : List UInt8) : Option (Service Conn) :=
  let memory := place (2 ^ 32) s.memory (s.ctx c).buffer chunk
  let size := UInt32.ofNat chunk.length
  let ends : Bool := size ≠ 0 ∧ ((s.ctx c).take size).bytesRemaining = 0
  let called complete := serve alloc complete (.proceed size) (s.ctx c) s.store s.hosted.registry
  if ends then
    match receiveImageDataComplete alloc code.run responseLen budget (stale s.hosted.registry.calls) memory s.store.receive
        s.hosted with
    | none => none
    | some completed => match called fun _ _ => (completed.reply, completed.hosted.registry) with
      | none => none
      | some o => some
        { s.after c o false with
          memory
          hosted := completed.hosted
          given := completed.keeps s.store.receive.relocationNeeded ++ s.given }
  else match called done with
    | none => none
    | some o => some { s.after c o (goesOn (.proceed size) o) with memory }

/-- One request; a handler is called in its conversation only. -/
def Service.exec (s : Service Conn) : Conn × Request → Option (Service Conn)
  | (c, .command text) => match processCommandFull alloc text (s.ctx c) s.store s.hosted.registry with
    | none => none
    | some o => some { s.after c o (opens o.reply.code) with given := o.tells ++ s.given }
  | (c, .line) =>
    if s.unfinished c = false ∨ (s.ctx c).handler ≠ some .sendMethodAddresses then none
    else match sendMethodAddresses (s.ctx c) s.store s.hosted.registry with
      | none => none
      | some o => some (s.after c o (o.reply.code = xboxSOk))
  | (c, .data chunk) =>
    if s.unfinished c = false ∨ (s.ctx c).handler ≠ some .receiveImageData then none
    else s.receive alloc code responseLen budget stale c chunk

/-- No command comes in the middle of its connection's conversation, no
conversation is begun in the middle of another, and none is broken off. -/
def Sequential (s : Service Conn) : Conn × Request → Prop
  | (c, .command text) => s.unfinished c = false ∧
      ∀ o, processCommandFull alloc text (s.ctx c) s.store s.hosted.registry = some o →
        opens o.reply.code = true → ∀ c', s.unfinished c' = false
  | (_, .line) => True
  | (_, .data chunk) => UInt32.ofNat chunk.length ≠ 0

end

variable {Conn : Type} {s s' : Service Conn} {alloc : Ledger → Nat → Nat} {text : Chars} {ctx : CommandContext}
  {store : ContextStore} {registry : ModuleRegistry} {rest : List Nat} {o : Outcome} {c : Conn}

/-- The connection is sending an image that is to be relocated. -/
structure Service.Loading (s : Service Conn) (c : Conn) : Prop where
  unfinished : s.unfinished c = true
  handler : (s.ctx c).handler = some .receiveImageData
  relocation : s.store.receive.relocationNeeded = true

/-- Who holds the blocks that are live. -/
structure Service.Accounted (s : Service Conn) : Prop where
  single : ∀ c c', s.unfinished c = true → s.unfinished c' = true → c = c'
  loading : ∀ c, s.Loading c →
    Held (s.store.receive.imageBase :: (s.hosted.blocks ++ s.given)) s.hosted.registry.calls
  otherwise : (∀ c, ¬ s.Loading c) → Held (s.hosted.blocks ++ s.given) s.hosted.registry.calls

/-- Whether a connection is loading can be read off three fields. -/
theorem loading_iff : s.Loading c ↔ s.unfinished c = true ∧ (s.ctx c).handler = some .receiveImageData ∧
    s.store.receive.relocationNeeded = true :=
  ⟨fun ⟨unfinished, handler, relocation⟩ => ⟨unfinished, handler, relocation⟩,
    fun ⟨unfinished, handler, relocation⟩ => ⟨unfinished, handler, relocation⟩⟩

theorem loading_with (memory : Bytes) (given : List Nat) :
    ({ s with memory, given } : Service Conn).Loading c ↔ s.Loading c := by
  rw [loading_iff, loading_iff]

/-! ## One command -/

/-- What a command does to the blocks that are held. -/
inductive CommandCustody (store : ContextStore) (rest : List Nat) (o : Outcome) : Prop where
  | listing : opens o.reply.code = true → o.ctx.handler = some .sendMethodAddresses → o.tells = [] →
      Held (o.registry.blocks ++ rest) o.registry.calls → CommandCustody store rest o
  | loading : opens o.reply.code = true → o.ctx.handler = some .receiveImageData →
      o.store.receive.relocationNeeded = true → o.tells = [] →
      Held (o.store.receive.imageBase :: (o.registry.blocks ++ rest)) o.registry.calls → CommandCustody store rest o
  | installing : opens o.reply.code = true → o.store.receive.relocationNeeded = false → o.tells = [] →
      Held (o.registry.blocks ++ rest) o.registry.calls → CommandCustody store rest o
  | closed : opens o.reply.code = false → o.store = store →
      Held (o.registry.blocks ++ (o.tells ++ rest)) o.registry.calls → CommandCustody store rest o

/-- A reply that tells of no block and leaves the registry alone. -/
theorem custody_declined {reply : Reply} {calls : Ledger} (closed : opens reply.code = false)
    (silent : ∀ code text, reply = .text code text → code ≠ xboxSOk) (held : Held (registry.blocks ++ rest) calls) :
    CommandCustody store rest (declined reply ctx store registry calls) := by
  have nothing : (declined reply ctx store registry calls).tells = [] := by
    unfold Outcome.tells declined
    cases reply with
    | text code text =>
      have other := silent code text rfl
      rcases calls with _ | ⟨_ | _, calls⟩
      · rfl
      · exact if_neg other
      · rfl
    | _ => rfl
  refine .closed closed rfl ?_
  rw [nothing]
  exact held

theorem handleHello_custody (handled : handleHello ctx store registry = some o)
    (held : Held (registry.blocks ++ rest) registry.calls) : CommandCustody store rest o := by
  unfold handleHello at handled
  split at handled
  · cases handled
  · cases handled
    have nothing : ∀ (o : Outcome) text, o.reply = .text xboxSMultiline text → o.tells = [] := by
      rintro ⟨_, _, _, ⟨table, calls⟩, _⟩ text ⟨⟩
      rcases calls with _ | ⟨_ | _, calls⟩ <;> rfl
    exact .listing opens_multiline rfl (nothing _ _ rfl) held

theorem handleDynamicLoad_custody (handled : handleDynamicLoad alloc text ctx store registry = some o)
    (held : Held (registry.blocks ++ rest) registry.calls) : CommandCustody store rest o := by
  cases handleDynamicLoad_ends alloc text ctx registry with
  | overread calls parsed ends => cases (ends store).symm.trans handled
  | malformed r parsed negative ends =>
    cases (ends store).symm.trans handled
    exact .closed (not_opens_cpPrintError r.ret) rfl (accounted_refused (parseString_accounted held parsed) negative)
  | unsized r size parsed nonnegative missing ends =>
    cases (ends store).symm.trans handled
    exact .closed not_opens_fail rfl (held_cpDelete (parseString_accounted held parsed))
  | starved r size parsed nonnegative found ends =>
    cases (ends store).symm.trans handled
    exact .closed not_opens_accessDenied rfl (held_cpDelete (parseString_accounted held parsed)).allocNull
  | accepted r size base parsed nonnegative found some_ ends =>
    cases (ends store).symm.trans handled
    exact .loading opens_sendBinary rfl rfl rfl ((held_cpDelete (parseString_accounted held parsed)).alloc some_)

theorem handleReserve_custody (handled : handleReserve alloc text ctx store registry = some o)
    (held : Held (registry.blocks ++ rest) registry.calls) : CommandCustody store rest o := by
  unfold handleReserve at handled
  cases parsed : cpParseCommandParameters .target alloc (some text) (some {}) registry.calls with
  | error calls =>
    rw [parsed] at handled
    cases handled
  | ok r =>
    have accounted := parseString_accounted held parsed
    have deleted := held_cpDelete accounted
    rw [parsed] at handled
    dsimp only at handled
    split at handled
    · next negative =>
      cases handled
      exact custody_declined (not_opens_cpPrintError r.ret) nofun (accounted_refused accounted negative)
    · generalize (cpDelete (r.result.getD {}) r.calls).2 = calls at handled deleted
      generalize cpGetUInt32 32 sizeKey (r.result.getD {}) = size at handled
      split at handled
      · cases handled
        exact custody_declined not_opens_fail nofun deleted
      · split at handled
        · next null =>
          cases handled
          have null : alloc calls size.2.toNat = 0 := null
          refine custody_declined not_opens_accessDenied nofun ?_
          rw [dmAllocatePoolWithTag, null]
          exact deleted.allocNull
        · next some_ =>
          cases handled
          refine .closed (by decide : opens xboxSOk = false) rfl ?_
          have told := @Held.alloc _ _ size.2.toNat _ deleted some_
          exact told.perm List.perm_middle.symm

theorem handleInstall_custody (handled : handleInstall alloc text ctx store registry = some o)
    (held : Held (registry.blocks ++ rest) registry.calls) : CommandCustody store rest o := by
  unfold handleInstall at handled
  cases parsed : cpParseCommandParameters .target alloc (some text) (some {}) registry.calls with
  | error calls =>
    rw [parsed] at handled
    cases handled
  | ok r =>
    have accounted := parseString_accounted held parsed
    have deleted := held_cpDelete accounted
    rw [parsed] at handled
    dsimp only at handled
    split at handled
    · next negative =>
      cases handled
      exact custody_declined (not_opens_cpPrintError r.ret) nofun (accounted_refused accounted negative)
    · split at handled
      · cases handled
        exact custody_declined not_opens_fail nofun deleted
      · cases handled
        exact .installing opens_sendBinary rfl rfl deleted

theorem not_opens_error {code : UInt32} (error : IsError code) : opens code = false := by
  unfold opens
  rw [decide_eq_false_iff_not]
  rintro (rfl | rfl) <;> exact absurd error (by decide)

/-- Only a text that comes with a success tells of a block. -/
theorem tells_nothing (other : ∀ text, o.reply ≠ .text xboxSOk text) : o.tells = [] := by
  unfold Outcome.tells
  split
  · next code text size ptr calls reply _ =>
    refine if_neg fun ok => other text ?_
    rw [reply, ok]
  · rfl

theorem saved_custody {cp : CommandParameters} {request : ExportRequest} {calls : Ledger}
    (owned : Owned (registry.blocks ++ rest) cp calls)
    (saved : saveExport alloc cp request ctx store registry calls = some o) : CommandCustody store rest o := by
  have ends := @saveExport_saved alloc request ctx store registry rest calls _ owned
  rw [saved] at ends
  cases ends with
  | exported exported _ kept =>
    have reply := exported.reply
    refine .closed (by rw [reply]; rfl) kept ?_
    rw [tells_nothing (by rw [reply]; nofun)]
    exact exported.held
  | failed failed _ kept =>
    have same : o.registry.blocks = registry.blocks := by rw [ModuleRegistry.blocks, failed.tables]; rfl
    refine .closed (not_opens_error failed.error) kept ?_
    rw [tells_nothing fun text reply => failed.not_ok (congrArg Reply.code reply), same]
    exact failed.held

theorem handleRegisterModuleExport_custody
    (handled : handleRegisterModuleExport alloc text ctx store registry = some o)
    (held : Held (registry.blocks ++ rest) registry.calls) : CommandCustody store rest o := by
  unfold handleRegisterModuleExport at handled
  cases parsed : cpParseCommandParameters .target alloc (some text) (some {}) registry.calls with
  | error calls =>
    rw [parsed] at handled
    cases handled
  | ok r =>
    have accounted := parseString_accounted held parsed
    rw [parsed] at handled
    dsimp only at handled
    split at handled
    · next negative =>
      cases handled
      exact custody_declined (not_opens_cpPrintError r.ret) nofun (accounted_refused accounted negative)
    · split at handled
      · cases handled
        exact custody_declined not_opens_fail nofun (held_cpDelete accounted)
      · exact saved_custody (owned_of_accounted accounted) handled

theorem processCommandFull_custody (processed : processCommandFull alloc text ctx store registry = some o)
    (held : Held (registry.blocks ++ rest) registry.calls) : CommandCustody store rest o := by
  unfold processCommandFull at processed
  dsimp only at processed
  split at processed
  · cases processed
  split at processed
  · exact handleHello_custody processed held
  split at processed
  · exact handleDynamicLoad_custody processed held
  split at processed
  · exact handleReserve_custody processed held
  split at processed
  · exact handleInstall_custody processed held
  split at processed
  · exact handleRegisterModuleExport_custody processed held
  · cases processed
    exact .closed not_opens_unknownCommand rfl held

/-! ## One request -/

/-- A line of a listing moves the cursor only. -/
theorem sendMethodAddresses_keeps (served : sendMethodAddresses ctx store registry = some o) :
    o.registry = registry ∧ o.ctx = ctx := by
  unfold sendMethodAddresses at served
  split at served
  · cases served
  · split at served <;> cases served <;> exact ⟨rfl, rfl⟩

/-- What is held next to a raw image. -/
def Service.Holds (s : Service Conn) (raw : List Nat) : Prop :=
  Held (s.hosted.blocks ++ (raw ++ s.given)) s.hosted.registry.calls

/-- What is held next to the registry's blocks. -/
theorem Service.Holds.beside {raw : List Nat} (holds : s.Holds raw) :
    Held (s.hosted.registry.blocks ++ (s.hosted.holds ++ (raw ++ s.given))) s.hosted.registry.calls := by
  rw [← List.append_assoc]
  exact holds

/-- The raw image of the transfer that is going on, if there is one. -/
theorem Service.Accounted.holds (accounted : s.Accounted) : ∃ raw, s.Holds raw ∧
    (∀ c, s.Loading c → raw = [s.store.receive.imageBase]) ∧ ((∀ c, ¬ s.Loading c) → raw = []) := by
  by_cases loading : ∃ c, s.Loading c
  · obtain ⟨c, loading⟩ := loading
    refine ⟨[s.store.receive.imageBase], (accounted.loading c loading).perm List.perm_middle.symm, fun _ _ => rfl, ?_⟩
    exact fun none => absurd loading (none c)
  · rw [not_exists] at loading
    exact ⟨[], accounted.otherwise loading, fun c busy => absurd busy (loading c), fun _ => rfl⟩

/-- The other way round, for a state in which one connection at most is busy. -/
theorem accounted_of_holds (raw : List Nat) (single : ∀ c c', s.unfinished c = true → s.unfinished c' = true → c = c')
    (holds : s.Holds raw) (loading : ∀ c, s.Loading c → raw = [s.store.receive.imageBase])
    (otherwise : (∀ c, ¬ s.Loading c) → raw = []) : s.Accounted := by
  refine ⟨single, fun c busy => ?_, fun idle => ?_⟩
  · have held := holds
    rw [loading c busy] at held
    exact Held.perm held List.perm_middle
  · have held := holds
    rw [otherwise idle] at held
    exact held

/-- With nothing being loaded there is no raw image. -/
theorem accounted_of_idle (single : ∀ c c', s.unfinished c = true → s.unfinished c' = true → c = c')
    (holds : s.Holds []) (idle : ∀ c, ¬ s.Loading c) : s.Accounted :=
  accounted_of_holds [] single holds (fun c busy => absurd busy (idle c)) fun _ => rfl

/-- With no conversation going on. -/
theorem accounted_of_quiet (quiet : ∀ c, s.unfinished c = false)
    (held : Held (s.hosted.blocks ++ s.given) s.hosted.registry.calls) : s.Accounted := by
  refine accounted_of_idle (fun c _ busy => nomatch busy.symm.trans (quiet c)) held fun c loads => ?_
  exact nomatch loads.unfinished.symm.trans (quiet c)

section

variable [DecidableEq Conn] {code : LoadedCode} {responseLen : UInt32} {budget : Nat} {stale : Ledger → Bytes}
  {chunk : List UInt8} {goes : Bool}

theorem single_update {unfinished : Conn → Bool}
    (single : ∀ c c', unfinished c = true → unfinished c' = true → c = c')
    (others : goes = true → ∀ c', c' ≠ c → unfinished c' = false) (c₁ c₂ : Conn)
    (first : Function.update unfinished c goes c₁ = true) (second : Function.update unfinished c goes c₂ = true) :
    c₁ = c₂ := by
  by_cases here₁ : c₁ = c
  · by_cases here₂ : c₂ = c
    · rw [here₁, here₂]
    · rw [here₁, Function.update_self] at first
      rw [Function.update_of_ne here₂, others first c₂ here₂] at second
      cases second
  · rw [Function.update_of_ne here₁] at first
    by_cases here₂ : c₂ = c
    · rw [here₂, Function.update_self] at second
      rw [others second c₁ here₁] at first
      cases first
    · rw [Function.update_of_ne here₂] at second
      exact single c₁ c₂ first second

@[simp] theorem after_store : (s.after c o goes).store = o.store := rfl

@[simp] theorem after_ctx : (s.after c o goes).ctx = Function.update s.ctx c o.ctx := rfl

@[simp] theorem after_unfinished : (s.after c o goes).unfinished = Function.update s.unfinished c goes := rfl

@[simp] theorem after_registry : (s.after c o goes).hosted.registry = o.registry := rfl

@[simp] theorem after_blocks : (s.after c o goes).hosted.blocks = o.registry.blocks ++ s.hosted.holds := rfl

@[simp] theorem after_given : (s.after c o goes).given = s.given := rfl

/-- After a call that leaves the record of the image alone, another connection
is loading if it was. -/
theorem loading_after {c' : Conn} (kept : o.store.receive = s.store.receive) (other : c' ≠ c) :
    (s.after c o goes).Loading c' ↔ s.Loading c' := by
  rw [loading_iff, loading_iff, after_unfinished, after_ctx, after_store, kept, Function.update_of_ne other,
    Function.update_of_ne other]

theorem command_accounted (accounted : s.Accounted) (sequential : Sequential alloc s (c, .command text))
    (next : s.exec alloc code responseLen budget stale (c, .command text) = some s') : s'.Accounted := by
  obtain ⟨idle, alone⟩ := sequential
  obtain ⟨raw, holds, loading, otherwise⟩ := accounted.holds
  dsimp only [Service.exec] at next
  split at next
  · cases next
  · next o processed =>
    cases next
    have before := holds.beside
    have single := single_update (c := c) accounted.single fun opened c' _ => alone o processed opened c'
    have none (opened : opens o.reply.code = true) : raw = [] := by
      refine otherwise fun c' busy => ?_
      have idle := alone o processed opened c'
      rw [busy.unfinished] at idle
      cases idle
    -- the connection that opened the conversation is the one that is in one
    have opener {c' : Conn} (opened : opens o.reply.code = true)
        (busy : Function.update s.unfinished c (opens o.reply.code) c' = true) : c' = c :=
      single c' c busy (by rw [Function.update_self, opened])
    cases processCommandFull_custody processed before with
    | listing opened handler nothing held =>
      refine accounted_of_idle single ?_ fun c' busy => ?_
      · rw [none opened, ← List.append_assoc] at held
        rw [Service.Holds, nothing]
        exact held
      · cases opener opened busy.unfinished
        have receives : (Function.update s.ctx c o.ctx c).handler = _ := busy.handler
        rw [Function.update_self, handler] at receives
        cases receives
    | loading opened handler relocation nothing held =>
      refine accounted_of_holds [o.store.receive.imageBase] single ?_ (fun _ _ => rfl) fun none' => ?_
      · rw [none opened] at held
        rw [Service.Holds, nothing]
        have raw : Held (o.store.receive.imageBase :: ((o.registry.blocks ++ s.hosted.holds) ++ s.given))
            o.registry.calls := by
          rw [List.append_assoc]
          exact held
        exact raw.perm List.perm_middle.symm
      · refine absurd ?_ (none' c)
        rw [loading_iff]
        dsimp only [after_unfinished, after_ctx, after_store]
        rw [Function.update_self, Function.update_self]
        exact ⟨opened, handler, relocation⟩
    | installing opened relocation nothing held =>
      refine accounted_of_idle single ?_ fun c' busy => ?_
      · rw [none opened, ← List.append_assoc] at held
        rw [Service.Holds, nothing]
        exact held
      · have relocates : o.store.receive.relocationNeeded = true := busy.relocation
        rw [relocation] at relocates
        cases relocates
    | closed closed kept held =>
      have same (c' : Conn) : ({ s.after c o (opens o.reply.code) with given := o.tells ++ s.given } :
          Service Conn).Loading c' ↔ s.Loading c' := by
        refine (loading_with s.memory (o.tells ++ s.given)).trans ?_
        by_cases here : c' = c
        · subst here
          rw [loading_iff, loading_iff, after_unfinished, Function.update_self, closed, idle]
          exact ⟨fun busy => (nomatch busy.1), fun busy => (nomatch busy.1)⟩
        · exact loading_after (congrArg ContextStore.receive kept) here
      refine accounted_of_holds raw single ?_ (fun c' busy => ?_) fun none' => ?_
      · refine held.perm ?_
        rw [after_blocks, List.perm_iff_count]
        intro ptr
        simp only [List.count_append]
        omega
      · show raw = [o.store.receive.imageBase]
        rw [kept]
        exact loading c' ((same c').mp busy)
      · exact otherwise fun c' busy => none' c' ((same c').mpr busy)

theorem line_accounted (accounted : s.Accounted)
    (next : s.exec alloc code responseLen budget stale (c, .line) = some s') : s'.Accounted := by
  obtain ⟨raw, holds, loading, otherwise⟩ := accounted.holds
  dsimp only [Service.exec] at next
  split at next
  · cases next
  · next called =>
    rw [not_or, not_not] at called
    obtain ⟨busy, handler⟩ := called
    have busy : s.unfinished c = true := by simpa using busy
    have others (c' : Conn) (other : c' ≠ c) : s.unfinished c' = false := by
      cases busy' : s.unfinished c' with
      | false => rfl
      | true => exact absurd (accounted.single c' c busy' busy) other
    have none : raw = [] := by
      refine otherwise fun c' loads => ?_
      cases accounted.single c' c loads.unfinished busy
      cases handler.symm.trans loads.handler
    split at next
    · cases next
    · next o served =>
      cases next
      have kept := sendMethodAddresses_keeps served
      refine accounted_of_idle (single_update accounted.single fun _ => others) ?_ fun c' loads => ?_
      · rw [none] at holds
        rw [Service.Holds, after_blocks, after_registry, kept.1]
        exact holds
      · by_cases here : c' = c
        · have receives := (loading_iff.mp loads).2.1
          rw [here, after_ctx, Function.update_self, kept.2, handler] at receives
          cases receives
        · have unfinished := (loading_iff.mp loads).1
          rw [after_unfinished, Function.update_of_ne here, others c' here] at unfinished
          cases unfinished

/-- A call that leaves something to receive. -/
theorem serve_more {size : UInt32} (handler : ctx.handler = some .receiveImageData) (some_ : size ≠ 0)
    (more : (ctx.take size).bytesRemaining ≠ 0) :
    serve alloc done (.proceed size) ctx store registry =
      some { reply := .silent xboxSOk, ctx := ctx.take size, store, registry } := by
  have served : serve alloc done (.proceed size) ctx store registry =
      receiveImageData done { ctx with dataSize := size } store registry := by
    unfold serve
    rw [handler]
  rw [served]
  exact (if_neg some_).trans (if_pos more)

omit [DecidableEq Conn] in
/-- The image has been completed on the connection that was sending it. -/
theorem Service.Accounted.completed {memory : Bytes} {completed : Completed} (accounted : s.Accounted)
    (busy : s.unfinished c = true) (handler : (s.ctx c).handler = some .receiveImageData)
    (run : receiveImageDataComplete alloc code.run responseLen budget (stale s.hosted.registry.calls) memory s.store.receive
      s.hosted = some completed) :
    Held (completed.hosted.blocks ++ (completed.keeps s.store.receive.relocationNeeded ++ s.given))
      completed.hosted.registry.calls := by
  cases relocation : s.store.receive.relocationNeeded with
  | true =>
    have accounts := receiveImageDataComplete_accounts (accounted.loading c ⟨busy, handler, relocation⟩) relocation run
    refine Held.perm accounts ?_
    unfold Completed.keeps
    simp only [true_and]
    rw [List.perm_iff_count]
    intro ptr
    simp only [List.count_append]
    omega
  | false =>
    rw [receiveImageDataComplete_installed relocation code.run] at run
    cases run
    refine code.minds _ _ _ (accounted.otherwise fun c' loads => ?_)
    rw [loads.relocation] at relocation
    cases relocation

theorem data_accounted (accounted : s.Accounted) (sequential : Sequential alloc s (c, .data chunk))
    (next : s.exec alloc code responseLen budget stale (c, .data chunk) = some s') : s'.Accounted := by
  obtain ⟨raw, holds, loading, otherwise⟩ := accounted.holds
  have some_ : UInt32.ofNat chunk.length ≠ 0 := sequential
  dsimp only [Service.exec] at next
  split at next
  · cases next
  · next called =>
    rw [not_or, not_not] at called
    obtain ⟨busy, handler⟩ := called
    have busy : s.unfinished c = true := by simpa using busy
    have others (c' : Conn) (other : c' ≠ c) : s.unfinished c' = false := by
      cases busy' : s.unfinished c' with
      | false => rfl
      | true => exact absurd (accounted.single c' c busy' busy) other
    unfold Service.receive at next
    dsimp only at next
    split at next
    · next last =>
      split at next
      · cases next
      · next completed run =>
        split at next
        · cases next
        · next o served =>
          cases next
          have idle (c' : Conn) : Function.update s.unfinished c false c' = false := by
            by_cases here : c' = c
            · rw [here, Function.update_self]
            · rw [Function.update_of_ne here, others c' here]
          refine accounted_of_idle (fun c₁ _ first => ?_) ?_ fun c' loads => ?_
          · exact nomatch first.symm.trans (idle c₁)
          · exact accounted.completed busy handler run
          · exact nomatch loads.unfinished.symm.trans (idle c')
    · next more =>
      have more : ((s.ctx c).take (.ofNat chunk.length)).bytesRemaining ≠ 0 := by simpa [some_] using more
      rw [serve_more handler some_ more] at next
      generalize outcome : Outcome.mk _ _ _ _ _ = o at next
      have goes : goesOn (.proceed (.ofNat chunk.length)) o = true := by
        subst outcome
        unfold goesOn
        have kept : ((s.ctx c).take (.ofNat chunk.length)).handler = some .receiveImageData := handler
        dsimp only
        rw [kept]
        exact decide_eq_true ⟨rfl, more⟩
      cases next
      have same (c' : Conn) : ({ s.after c o (goesOn (.proceed (.ofNat chunk.length)) o) with
          memory := place (2 ^ 32) s.memory (s.ctx c).buffer chunk } : Service Conn).Loading c' ↔ s.Loading c' := by
        refine (loading_with (place (2 ^ 32) s.memory (s.ctx c).buffer chunk) s.given).trans ?_
        by_cases here : c' = c
        · subst here
          rw [loading_iff, loading_iff, after_unfinished, after_ctx, Function.update_self, Function.update_self, goes,
            busy, ← outcome]
          rfl
        · exact loading_after (by rw [← outcome]) here
      have registry : o.registry = s.hosted.registry := by rw [← outcome]
      have store : o.store = s.store := by rw [← outcome]
      refine accounted_of_holds raw (single_update accounted.single fun _ => others) ?_ (fun c' busy => ?_)
        fun idle => ?_
      · show Held (o.registry.blocks ++ s.hosted.holds ++ (raw ++ s.given)) o.registry.calls
        rw [registry]
        exact holds
      · show raw = [o.store.receive.imageBase]
        rw [store]
        exact loading c' ((same c').mp busy)
      · exact otherwise fun c' busy => idle c' ((same c').mpr busy)

/-! ## Runs -/

theorem exec_accounted {a : Conn × Request} (accounted : s.Accounted) (sequential : Sequential alloc s a)
    (next : s.exec alloc code responseLen budget stale a = some s') : s'.Accounted := by
  obtain ⟨c, request⟩ := a
  cases request with
  | command text => exact command_accounted accounted sequential next
  | line => exact line_accounted accounted next
  | data chunk => exact data_accounted accounted sequential next

end

/-! ## Two connections -/

/-- Nothing registered and nothing going on. -/
def newService : Service Bool where
  memory _ := 0
  store := {}
  hosted := { registry := {} }
  given := []
  ctx _ := {}
  unfinished _ := false

end Dyndxt.Session
