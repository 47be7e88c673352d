import Dyndxt.Session.Startup

/-!
# What a run registers

Over a run the registry is what it was at the start with a list of
registrations recorded: those that accepted `export` commands ask for and those
that the code of the DLLs makes. Nothing is ever taken out.
-/

namespace Dyndxt.Session
open Dyndxt.Mem Dyndxt.Pool Dyndxt.Params Dyndxt.Loader Dyndxt.Registry Dyndxt.Link Dyndxt.Run

/-- The command asks for the registration. -/
def Asks (text : Chars) (reg : Registration) : Prop :=
  (text.drop sizeofHandlerName).take 6 = exportCommand ∧
    ∃ request, requestedExport (text.drop 6) = some request ∧ reg.1 = request.moduleName ∧ request.Denotes reg.2

/-- Registrations within `Q`, one after the other, lead from the one to the
other. -/
def Logs (Q : Registration → Prop) (before after : Contents) : Prop :=
  ∃ regs : List Registration, (∀ reg ∈ regs, Q reg) ∧ after = regs.foldl Contents.record before

/-- All that a request asks to register is within `Q`. -/
def Within {Conn : Type} (Q : Registration → Prop) : Conn × Request → Prop
  | (_, .command text) => ∀ reg, Asks text reg → Q reg
  | _ => True

variable {Q : Registration → Prop} {alloc : Ledger → Nat → Nat} {text : Chars} {ctx : CommandContext}
  {store : ContextStore} {registry : ModuleRegistry} {rest : List Nat} {o : Outcome}
  {before between after : Contents} {moduleName : List UInt8}

/-! ## Logs -/

theorem Logs.refl (c : Contents) : Logs Q c c := ⟨[], nofun, rfl⟩

theorem Logs.trans (first : Logs Q before between) (second : Logs Q between after) : Logs Q before after := by
  obtain ⟨regs, all, rfl⟩ := first
  obtain ⟨regs', all', rfl⟩ := second
  exact ⟨regs ++ regs', List.forall_mem_append.mpr ⟨all, all'⟩, (List.foldl_append).symm⟩

theorem logs_record {reg : Registration} (within : Q reg) (c : Contents) : Logs Q c (c.record reg) :=
  ⟨[reg], List.forall_mem_singleton.mpr within, rfl⟩

/-- The tables are as they were. -/
theorem logs_of_tables {r r' : ModuleRegistry} (tables : r'.exportTable = r.exportTable) :
    Logs Q r.contents r'.contents := by
  have same : r'.contents = r.contents := by rw [ModuleRegistry.contents, tables]; rfl
  rw [same]
  exact .refl _

/-- Whatever `MRRegisterMethod` does, it records its argument or nothing. -/
theorem mrRegisterMethod_logs {b : Build} {e : ModuleExport} {r r' : ModuleRegistry} {ok : Bool}
    (registered : mrRegisterMethod b alloc moduleName e r = .ok (ok, r')) (within : Q (moduleName, e)) :
    Logs Q r.contents r'.contents := by
  cases ok with
  | true =>
    rw [recorded_of_true registered]
    exact logs_record within _
  | false =>
    have outcome := mrRegisterMethod_registering b alloc moduleName e r
    rw [registered] at outcome
    cases outcome with
    | tableFailed => exact .refl _
    | nameFailed => exact .refl _

/-- A module that no registration names keeps its exports. -/
theorem Logs.exports (logs : Logs (fun reg => reg.1 ≠ moduleName) before after) :
    after.exports moduleName = before.exports moduleName := by
  obtain ⟨regs, others, rfl⟩ := logs
  exact Contents.exports_foldl_others others

/-! ## One command -/

/-- What is registered is what the text asks for on its own. -/
theorem handleRegisterModuleExport_asked {command : Chars}
    (handled : handleRegisterModuleExport alloc command ctx store registry = some o)
    (held : Held (registry.blocks ++ rest) registry.calls) : o.registry.exportTable = registry.exportTable ∨
      ∃ request, requestedExport command = some request ∧ Exported request registry rest o := by
  unfold handleRegisterModuleExport at handled
  cases parsed : cpParseCommandParameters .target alloc (some command) (some {}) registry.calls with
  | error calls =>
    rw [parsed] at handled
    cases handled
  | ok r =>
    have owned : ¬ r.ret < 0 → Owned (registry.blocks ++ rest) (r.result.getD {}) r.calls := fun _ =>
      owned_of_accounted (parseString_accounted held parsed)
    rw [parsed] at handled
    dsimp only at handled
    split at handled
    · cases handled
      exact .inl rfl
    · next nonnegative =>
      split at handled
      · cases handled
        exact .inl rfl
      · next request found =>
        have saved := @saveExport_saved alloc request ctx store registry rest r.calls _ (owned nonnegative)
        rw [handled] at saved
        cases saved with
        | failed failed => exact .inl failed.tables
        | exported exported =>
          refine .inr ⟨request, ?_, exported⟩
          -- a string that is cut off is not parsed to its end, whatever the pool does
          rcases parses_or_cutOff command with ⟨out, parses⟩ | cut
          · obtain ⟨r', returned, answers⟩ := parseString_parses .target alloc registry.calls parses
            cases parsed.symm.trans returned
            rcases answers with ⟨reports, -⟩ | ⟨reports, -⟩
            · cases out with
              | error e => exact absurd reports.refused.1 nonnegative
              | ok es =>
                rw [requestedExport_read parses fun k _ => Reports.binding reports k, found]
                rfl
            · exact absurd reports.refused.1 nonnegative
          · have ends := parseString_cutOff .target alloc registry.calls cut
            have returned : parseString .target alloc command registry.calls = .ok r := parsed
            rw [returned] at ends
            exact absurd (Reports.refused ends.1).1 nonnegative

theorem handleReserve_tables {command : Chars} (handled : handleReserve alloc command ctx store registry = some o) :
    o.registry.exportTable = registry.exportTable := by
  unfold handleReserve at handled
  dsimp only at handled
  split at handled
  · cases handled
  · split at handled
    · cases handled
      rfl
    · split at handled
      · cases handled
        rfl
      · split at handled <;> cases handled <;> rfl

theorem handleInstall_tables {command : Chars} (handled : handleInstall alloc command ctx store registry = some o) :
    o.registry.exportTable = registry.exportTable := by
  unfold handleInstall at handled
  dsimp only at handled
  split at handled
  · cases handled
  · split at handled
    · cases handled
      rfl
    · split at handled <;> cases handled <;> rfl

theorem handleDynamicLoad_tables {command : Chars}
    (handled : handleDynamicLoad alloc command ctx store registry = some o) :
    o.registry.exportTable = registry.exportTable := by
  cases handleDynamicLoad_ends alloc command ctx registry with
  | overread calls parsed ends => cases (ends store).symm.trans handled
  | malformed r parsed negative ends =>
    cases (ends store).symm.trans handled
    rfl
  | unsized r size parsed nonnegative missing ends =>
    cases (ends store).symm.trans handled
    rfl
  | starved r size parsed nonnegative found ends =>
    cases (ends store).symm.trans handled
    rfl
  | accepted r size base parsed nonnegative found some_ ends =>
    cases (ends store).symm.trans handled
    rfl

theorem handleHello_tables (handled : handleHello ctx store registry = some o) :
    o.registry.exportTable = registry.exportTable := by
  unfold handleHello at handled
  split at handled <;> cases handled
  rfl

theorem processCommandFull_logs (processed : processCommandFull alloc text ctx store registry = some o)
    (held : Held (registry.blocks ++ rest) registry.calls) (within : ∀ reg, Asks text reg → Q reg) :
    Logs Q registry.contents o.registry.contents := by
  unfold processCommandFull at processed
  dsimp only at processed
  split at processed
  · cases processed
  split at processed
  · exact logs_of_tables (handleHello_tables processed)
  split at processed
  · exact logs_of_tables (handleDynamicLoad_tables processed)
  split at processed
  · exact logs_of_tables (handleReserve_tables processed)
  split at processed
  · exact logs_of_tables (handleInstall_tables processed)
  split at processed
  · next verb =>
    rcases handleRegisterModuleExport_asked processed held with tables | ⟨request, asked, exported⟩
    · exact logs_of_tables tables
    · obtain ⟨e, denotes, recorded⟩ := exported.recorded
      rw [recorded]
      exact logs_record (within _ ⟨verb, request, asked, rfl, denotes⟩) _
  · cases processed
    exact .refl _

/-! ## One completion -/

section

variable {run : Nat → Hosted → Hosted} {responseLen : UInt32} {budget : Nat} {stale memory : Bytes}
  {receiveCtx : ReceiveImageDataContext} {s : Hosted} {c : Completed}

/-- What the code of a DLL registers is all that its completion does. -/
theorem receiveImageDataComplete_logs (registers : ∀ address h, Logs Q h.registry.contents (run address h).registry.contents)
    (completed : receiveImageDataComplete alloc run responseLen budget stale memory receiveCtx s = some c) :
    Logs Q s.registry.contents c.hosted.registry.contents := by
  unfold receiveImageDataComplete at completed
  split at completed
  · cases completed
    exact registers _ s
  · dsimp only at completed
    split at completed
    · cases completed
    · cases completed
      exact .refl _
    · split at completed
      · cases completed
      · next p invoking =>
        obtain ⟨r, s'⟩ := p
        cases completed
        obtain ⟨-, logs⟩ := dllInvokeTlsCallbacks_ends
          (I := fun h : Hosted => Logs Q s.registry.contents h.registry.contents)
          (fun t h logs => logs.trans (registers t.callback.toNat h)) invoking (.refl _)
        cases r with
        | error dll => exact logs
        | ok dll => exact logs.trans (registers _ s')

end

/-! ## One request -/

section

variable {Conn : Type} [DecidableEq Conn] {code : LoadedCode} {responseLen : UInt32} {budget : Nat}
  {stale : Ledger → Bytes} {s s' : Service Conn} {a : Conn × Request} {lost : List Nat}

/-- The service with blocks that belong to nobody. -/
def Service.losing (s : Service Conn) (lost : List Nat) : Service Conn := { s with given := s.given ++ lost }

/-- A request does not look at what clients were told of. -/
theorem exec_losing (next : s.exec alloc code responseLen budget stale a = some s') :
    (s.losing lost).exec alloc code responseLen budget stale a = some (s'.losing lost) := by
  obtain ⟨c, request⟩ := a
  cases request with
  | command text =>
    dsimp only [Service.exec, Service.losing] at next ⊢
    split at next
    · cases next
    · cases next
      simp only [Service.after, List.append_assoc]
  | line =>
    dsimp only [Service.exec, Service.losing] at next ⊢
    split at next
    · cases next
    · next called =>
      rw [if_neg called]
      split at next
      · cases next
      · cases next
        rfl
  | data chunk =>
    dsimp only [Service.exec, Service.receive, Service.losing] at next ⊢
    split at next
    · cases next
    · next called =>
      rw [if_neg called]
      split at next
      · next last =>
        rw [if_pos last]
        split at next
        · cases next
        · split at next
          · cases next
          · cases next
            simp only [Service.after, List.append_assoc]
      · next more =>
        rw [if_neg more]
        split at next
        · cases next
        · cases next
          rfl

theorem exec_logs (registers : ∀ address h, Logs Q h.registry.contents (code.run address h).registry.contents)
    (accounted : s.Accounted) (sequential : Sequential alloc s a) (within : Within Q a)
    (next : s.exec alloc code responseLen budget stale a = some s') :
    Logs Q s.hosted.registry.contents s'.hosted.registry.contents := by
  obtain ⟨c, request⟩ := a
  cases request with
  | command text =>
    obtain ⟨raw, holds, -⟩ := accounted.holds
    dsimp only [Service.exec] at next
    split at next
    · cases next
    · next o processed =>
      cases next
      exact processCommandFull_logs processed holds.beside within
  | line =>
    dsimp only [Service.exec] at next
    split at next
    · cases next
    · split at next
      · cases next
      · next o served =>
        cases next
        rw [after_registry, (sendMethodAddresses_keeps served).1]
        exact .refl _
  | data chunk =>
    have some_ : UInt32.ofNat chunk.length ≠ 0 := sequential
    dsimp only [Service.exec, Service.receive] at next
    split at next
    · cases next
    · next called =>
      rw [not_or, not_not] at called
      split at next
      · split at next
        · cases next
        · next completed run =>
          split at next <;> cases next
          exact receiveImageDataComplete_logs registers run
      · next more =>
        have more : ((s.ctx c).take (.ofNat chunk.length)).bytesRemaining ≠ 0 := by simpa [some_] using more
        rw [serve_more called.2 some_ more] at next
        cases next
        exact .refl _

/-! ## Runs -/

/-- What a run keeps: the blocks are accounted for, and the registry is the
one of the start with what was registered since. -/
structure Service.Logged (Q : Registration → Prop) (start : Contents) (lost : List Nat) (s : Service Conn) : Prop where
  accounted : (s.losing lost).Accounted
  logs : Logs Q start s.hosted.registry.contents

theorem Service.Logged.exec {start : Contents} (logged : s.Logged Q start lost)
    (registers : ∀ address h, Logs Q h.registry.contents (code.run address h).registry.contents)
    (sequential : Sequential alloc s a) (within : Within Q a)
    (next : s.exec alloc code responseLen budget stale a = some s') : s'.Logged Q start lost := by
  have next' := @exec_losing alloc Conn _ code responseLen budget stale s s' a lost next
  have sequential' : Sequential alloc (s.losing lost) a := sequential
  have grown := exec_logs registers logged.accounted sequential' within next'
  exact ⟨exec_accounted logged.accounted sequential' next', logged.logs.trans grown⟩

end

/-- The code that registers an export of `m` at each call. -/
theorem registeringCode_logs (within : ∀ e, Q ([0x6D], e)) (address : Nat) (h : Hosted) :
    Logs Q h.registry.contents (registeringCode.run address h).registry.contents := by
  show Logs Q h.registry.contents (registerNameless bump [0x6D] 1 (.ofNat address) h).registry.contents
  unfold registerNameless
  split
  · exact .refl _
  · next registered => exact mrRegisterMethod_logs registered (within _)

section

variable {address : UInt32 → UInt32} {made : List LoaderExport} {r r' : ModuleRegistry}

/-- What the loader serves is read off the exports of its own name. -/
theorem Serves.congr (serves : Serves address made r)
    (same : r'.contents.exports dynamicDxtLoaderDllName = r.contents.exports dynamicDxtLoaderDllName) :
    Serves address made r' := by
  have byOrdinal (ordinal : UInt32) : mrGetMethodByOrdinal dynamicDxtLoaderDllName ordinal r' =
      mrGetMethodByOrdinal dynamicDxtLoaderDllName ordinal r := by
    rw [mrGetMethodByOrdinal_eq, mrGetMethodByOrdinal_eq, Contents.find_exports, Contents.find_exports, same]
  have byName (name : Chars) : mrGetMethodByName dynamicDxtLoaderDllName name r' =
      mrGetMethodByName dynamicDxtLoaderDllName name r := by
    rw [mrGetMethodByName_eq, mrGetMethodByName_eq, same]
  constructor
  · exact fun x listed => (byOrdinal _).trans (serves.byOrdinal x listed)
  · exact fun x listed name named => (byName _).trans (serves.byName x listed name named)
  · exact fun ordinal unknown => (byOrdinal _).trans (serves.unknownOrdinal ordinal unknown)
  · exact fun name unknown => (byName _).trans (serves.unknownName name unknown)

end

end Dyndxt.Session
