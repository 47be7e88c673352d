import Dyndxt.Session.RunLog

/-!
# The lean build

With `LEAN_BUILD` the service has `hello` and `load` only. It takes no step that
the one with all commands does not take, so what holds of the runs of that one
holds of its runs, and in these no command registers anything.
-/

namespace Dyndxt.Session
open Dyndxt.Mem Dyndxt.Pool Dyndxt.Params Dyndxt.Loader Dyndxt.Registry Dyndxt.Run

/-- `"ddxt!"` -/
def bareHandlerName : Chars := [0x64, 0x64, 0x78, 0x74, 0x21]

section

variable {Conn : Type} [DecidableEq Conn] (alloc : Ledger → Nat → Nat) (code : LoadedCode) (responseLen : UInt32)
  (budget : Nat) (stale : Ledger → Bytes)

/-- One request to the lean build. -/
def Service.execLeanBuild (s : Service Conn) : Conn × Request → Option (Service Conn)
  | (c, .command text) => match processCommand alloc text (s.ctx c) s.store s.hosted.registry with
    | none => none
    | some o => some { s.after c o (opens o.reply.code) with given := o.tells ++ s.given }
  | a => s.exec alloc code responseLen budget stale a

/-- `Sequential` of the lean build. -/
def SequentialLeanBuild (s : Service Conn) : Conn × Request → Prop
  | (c, .command text) => s.unfinished c = false ∧
      ∀ o, processCommand alloc text (s.ctx c) s.store s.hosted.registry = some o →
        opens o.reply.code = true → ∀ c', s.unfinished c' = false
  | a => Sequential alloc s a

end

variable {alloc : Ledger → Nat → Nat} {text : Chars} {ctx : CommandContext} {store : ContextStore}
  {registry : ModuleRegistry}

/-- The verb of a text is not `export` if it begins with another one. -/
theorem not_export {k : Nat} {verb : Chars} (short : k ≤ 6) (here : text.take k = verb)
    (other : exportCommand.take k ≠ verb) : text.take 6 ≠ exportCommand := by
  intro same
  refine other ?_
  rw [← same, List.take_take, Nat.min_eq_left short]
  exact here

/-- A command of the lean build is the same command of the full one, which is
not `export`, or it is too short to have a verb, or it is unknown. -/
theorem processCommand_full (alloc : Ledger → Nat → Nat) (text : Chars) (ctx : CommandContext) (store : ContextStore)
    (registry : ModuleRegistry) :
    processCommandFull alloc text ctx store registry = processCommand alloc text ctx store registry ∧
        (text.drop sizeofHandlerName).take 6 ≠ exportCommand ∨
      processCommand alloc text ctx store registry = none ∨
      processCommand alloc text ctx store registry =
        some { reply := .errorWithSuffix xboxEUnknownCommand "Unknown command " text, ctx, store, registry } := by
  unfold processCommandFull processCommand
  dsimp only
  by_cases short : text.length < sizeofHandlerName
  · rw [if_pos short]
    exact .inr (.inl (if_pos short))
  rw [if_neg short, if_neg short]
  by_cases hello : (text.drop sizeofHandlerName).take 5 = helloCommand
  · rw [if_pos hello, if_pos hello]
    exact .inl ⟨rfl, not_export (by decide) hello (by decide)⟩
  rw [if_neg hello, if_neg hello]
  by_cases load : (text.drop sizeofHandlerName).take 4 = loadCommand
  · rw [if_pos load, if_pos load]
    exact .inl ⟨rfl, not_export (by decide) load (by decide)⟩
  rw [if_neg load, if_neg load]
  exact .inr (.inr rfl)

/-! ## Runs -/

section

variable {Conn : Type} {Q Q' : Registration → Prop} {s s' : Service Conn} {a : Conn × Request} {c : Conn}

/-- No registration is asked for without the verb. -/
theorem within_of_other (other : (text.drop sizeofHandlerName).take 6 ≠ exportCommand) :
    Within Q (c, .command text) :=
  fun _ asks => absurd asks.1 other

theorem Within.mono (within : Within Q a) (more : ∀ reg, Q reg → Q' reg) : Within Q' a := by
  obtain ⟨c, request⟩ := a
  cases request with
  | command text => exact fun reg asks => more reg (within reg asks)
  | line => trivial
  | data chunk => trivial

variable [DecidableEq Conn] {code : LoadedCode} {responseLen : UInt32} {budget : Nat} {stale : Ledger → Bytes}

/-- What the lean build does the full one does too, if only on a command that
is as unknown to it. -/
theorem exec_full (sequential : SequentialLeanBuild alloc s a)
    (next : s.execLeanBuild alloc code responseLen budget stale a = some s') :
    ∃ b, (Sequential alloc s b ∧ Within (fun _ => False) b) ∧
      s.exec alloc code responseLen budget stale b = some s' := by
  obtain ⟨c, request⟩ := a
  cases request with
  | line => exact ⟨(c, .line), ⟨trivial, trivial⟩, next⟩
  | data chunk => exact ⟨(c, .data chunk), ⟨sequential, trivial⟩, next⟩
  | command text =>
    obtain ⟨idle, alone⟩ := sequential
    dsimp only [Service.execLeanBuild] at next
    rcases processCommand_full alloc text (s.ctx c) s.store s.hosted.registry with ⟨same, other⟩ | crashes | unknown
    · refine ⟨(c, .command text), ⟨⟨idle, fun o processed => alone o (same.symm.trans processed)⟩, ?_⟩, ?_⟩
      · exact within_of_other other
      · dsimp only [Service.exec]
        rw [same]
        exact next
    · rw [crashes] at next
      cases next
    · rw [unknown] at next
      cases next
      refine ⟨(c, .command bareHandlerName), ⟨⟨idle, fun o processed opened => ?_⟩, ?_⟩, rfl⟩
      · cases processed
        exact nomatch opened.symm.trans not_opens_unknownCommand
      · exact within_of_other (by decide)

/-- The lean build refines the full one: in every run of it whose conversations
follow one another, every state is one that the full build reaches without an
`export`. So every block is accounted for in the same way, and only the code of
the DLLs registers anything. -/
theorem lean_refines (alloc : Ledger → Nat → Nat) (code : LoadedCode) (responseLen : UInt32) (budget : Nat)
    (stale : Ledger → Bytes) (Q : Registration → Prop) (start s : Service Conn)
    (idle : ∀ c, start.unfinished c = false)
    (held : Held (start.hosted.blocks ++ start.given) start.hosted.registry.calls)
    (registers : ∀ address h, Logs Q h.registry.contents (code.run address h).registry.contents)
    (path : Path (Service.execLeanBuild alloc code responseLen budget stale) (SequentialLeanBuild alloc) start s) :
    Path (Service.exec alloc code responseLen budget stale)
        (fun s a => Sequential alloc s a ∧ Within (fun _ => False) a) start s ∧
      Logs Q start.hosted.registry.contents s.hosted.registry.contents ∧
      (∀ c, s.Loading c →
        Held (s.store.receive.imageBase :: (s.hosted.blocks ++ s.given)) s.hosted.registry.calls) ∧
      ((∀ c, ¬ s.Loading c) → Held (s.hosted.blocks ++ s.given) s.hosted.registry.calls) := by
  have full := path.refine fun s a s' => exec_full
  obtain ⟨accounted, logs⟩ := full.invariant
    (I := fun s => s.Accounted ∧ Logs Q start.hosted.registry.contents s.hosted.registry.contents)
    (fun s a s' kept allows next => ⟨exec_accounted kept.1 allows.1 next,
      kept.2.trans (exec_logs registers kept.1 allows.1 (allows.2.mono nofun) next)⟩)
    ⟨accounted_of_quiet idle held, .refl _⟩
  exact ⟨full, logs, accounted.loading, accounted.otherwise⟩

end

/-- On one connection an `export` is refused, and on the other one a `load`
begins. -/
theorem newService_lean : ∃ s : Service Bool, s.Loading false ∧
    Logs (fun reg => reg.1 = [0x6D]) [] s.hosted.registry.contents ∧
    Held (s.store.receive.imageBase :: (s.hosted.blocks ++ s.given)) s.hosted.registry.calls := by
  let step (s : Service Bool) := s.execLeanBuild bump registeringCode 256 0 (fun _ _ => 0)
  have idle₁ : (step newService (true, .command (exportPrefix ++ ordinalOne))).map
      (fun s => (s.unfinished true, s.unfinished false)) = some (false, false) := by decide +kernel
  have loading₂ : ((step newService (true, .command (exportPrefix ++ ordinalOne))).bind
      (step · (false, .command loadSixteen))).map
      (fun s => (s.unfinished false, (s.ctx false).handler, s.store.receive.relocationNeeded)) =
      some (true, some .receiveImageData, true) := by decide +kernel
  obtain ⟨s₁, refused, idle⟩ := Option.map_eq_some_iff.mp idle₁
  rw [refused, Option.bind_some] at loading₂
  obtain ⟨s₂, loaded, fields⟩ := Option.map_eq_some_iff.mp loading₂
  simp only [Prod.mk.injEq] at idle fields
  obtain ⟨unfinished, handler, relocation⟩ := fields
  have loading : s₂.Loading false := ⟨unfinished, handler, relocation⟩
  have first : SequentialLeanBuild bump newService (true, .command (exportPrefix ++ ordinalOne)) :=
    ⟨rfl, fun _ _ _ _ => rfl⟩
  have second : SequentialLeanBuild bump s₁ (false, .command loadSixteen) := by
    refine ⟨idle.2, fun _ _ _ c => ?_⟩
    cases c with
    | true => exact idle.1
    | false => exact idle.2
  have path : Path (Service.execLeanBuild bump registeringCode 256 0 fun _ _ => 0) (SequentialLeanBuild bump) newService s₂ :=
    .snoc _ (.snoc _ .refl first refused) second loaded
  obtain ⟨-, logs, held, -⟩ := lean_refines bump registeringCode 256 0 (fun _ _ => 0) (fun reg => reg.1 = [0x6D])
    newService s₂ (fun _ => rfl) (held_live clean_nil) (registeringCode_logs fun _ => rfl) path
  exact ⟨s₂, loading, logs, held false loading⟩

end Dyndxt.Session
