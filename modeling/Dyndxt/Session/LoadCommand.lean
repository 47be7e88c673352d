import Dyndxt.Params.Memory
import Dyndxt.Params.Unclosed
import Dyndxt.Params.Render
import Dyndxt.Session.Transfer

/-!
# The `load` command, from text to transfer state

`ProcessCommand` gives the parser the command from its fifth character on, so
what is parsed of `ddxt!load p` is `!load p`. That reads as the key `!load`
followed by the entries of `p`, and `size` is found where it is in `p`.
-/

namespace Dyndxt.Session
open Dyndxt.Mem Dyndxt.Pool Dyndxt.Params Dyndxt.Registry

/-- `"ddxt!load "` -/
def loadPrefix : Chars := [0x64, 0x64, 0x78, 0x74, 0x21, 0x6C, 0x6F, 0x61, 0x64, 0x20]

/-- `"!load"` -/
def loadKey : Chars := [0x21, 0x6C, 0x6F, 0x61, 0x64]

/-- An error code of `xbdm_err.h`. -/
def IsError (code : UInt32) : Prop := 0x80000000 ≤ code

instance (code : UInt32) : Decidable (IsError code) := inferInstanceAs (Decidable (_ ≤ _))

/-- The transfer state of an accepted `load` of `n` bytes. -/
structure LoadBegun (n : UInt32) (ctx : CommandContext) (registry : ModuleRegistry) (o : Outcome)
    (base : Nat) : Prop where
  block : base ≠ 0
  allocated : ∃ earlier, o.registry.calls = .alloc n.toNat base :: earlier
  ctx : o.ctx =
    { ctx with
      buffer := base
      bufferSize := n
      userData := .contextStore
      bytesRemaining := n
      handler := some .receiveImageData }
  imageBase : o.store.receive.imageBase = base
  rawImageSize : o.store.receive.rawImageSize = n
  held : Held (base :: live registry.calls) o.registry.calls

/-- Nothing has changed, and every block that was allocated is freed. -/
structure LoadDeclined (ctx : CommandContext) (store : ContextStore) (registry : ModuleRegistry)
    (o : Outcome) : Prop where
  code : IsError o.reply.code
  ctx : o.ctx = ctx
  store : o.store = store
  contents : o.registry = { registry with calls := o.registry.calls }
  settled : Settles registry.calls o.registry.calls

variable {alloc : Ledger → Nat → Nat} {p command : Chars} {ctx : CommandContext} {store : ContextStore}
  {registry : ModuleRegistry} {o : Outcome} {n size : UInt32} {r : ParseResult} {es : List Entry}
  {cp : CommandParameters} {calls : Ledger} {base : Nat} {out : Except PcpErr (List Entry)}

/-! ## The text -/

theorem parses_space (parses : Parses p out) : Parses (space :: p) out := by
  have spaces {s : Chars} (blank : Spaces s) : Spaces (space :: s) :=
    List.forall_mem_cons.mpr ⟨rfl, blank⟩
  cases parses with
  | done blank => exact .done (spaces blank)
  | entry blank entry rest => exact .entry (spaces blank) entry rest
  | offends blank offends => exact .offends (spaces blank) offends

/-- What is left of the verb is one more entry before those of `p`. -/
theorem parses_loadKey (parses : Parses p out) :
    Parses (loadKey ++ space :: p) (out.map (⟨loadKey, none⟩ :: ·)) := by
  have key : IsKey loadKey := by
    refine ⟨by decide, ?_⟩
    simp only [loadKey, List.mem_cons, List.not_mem_nil, or_false, forall_eq_or_imp, forall_eq]
    decide
  have stops : AtBreak (space :: p) := by simp [AtBreak]
  exact .entry (s := []) (by simp [Spaces]) (.key key stops) (parses_space parses)

theorem firstBinding_loadKey : firstBinding sizeKey (⟨loadKey, none⟩ :: es) = firstBinding sizeKey es := by
  have other : ¬ loadKey = sizeKey := by decide
  simp only [firstBinding, List.find?_cons, other, decide_false]

theorem processCommand_loadPrefix : processCommand alloc (loadPrefix ++ p) ctx store registry =
    handleDynamicLoad alloc (loadKey ++ space :: p) ctx store registry := rfl

/-- `CPGetUInt32` reads what `CPGetString` finds. -/
theorem cpGetUInt32_congr {cp' : CommandParameters} {key : Chars} (same : cpGetString key cp = cpGetString key cp') :
    cpGetUInt32 32 key cp = cpGetUInt32 32 key cp' := by
  unfold cpGetUInt32
  rw [same]

theorem reports_ok (reports : Reports (.ok es) r) : ¬ r.ret < 0 ∧ ∃ cp, r.result = some cp ∧
    cpGetString sizeKey cp = firstBinding sizeKey es := by
  obtain ⟨ret, cp, result, texts⟩ := reports
  exact ⟨by omega, cp, result, cpGetString_read texts sizeKey⟩

/-- A string's size, by its entries. -/
theorem requestedSize_reports
    (parsed : cpParseCommandParameters .target alloc (some command) (some {}) calls = .ok r)
    (reports : Reports (.ok es) r) : requestedSize alloc command calls = some n ↔
      cpGetUInt32 32 sizeKey (r.result.getD {}) = (true, n) := by
  unfold requestedSize
  rw [parsed]
  dsimp only
  rw [if_neg (reports_ok reports).1]
  cases cpGetUInt32 32 sizeKey (r.result.getD {}) with
  | mk found size =>
    cases found with
    | false => simp
    | true => simp

/-- With a pool that never runs out, a parse reports its string's reading. -/
theorem parse_bump (parses : Parses p out) :
    ∃ r, cpParseCommandParameters .target bump (some p) (some {}) [] = .ok r ∧ Reports out r := by
  obtain ⟨r, returned, answers⟩ := parseString_parses .target bump [] parses
  rcases answers with ⟨reports, -⟩ | ⟨-, earlier, size, -, -, null⟩
  · exact ⟨r, returned, reports⟩
  · exact absurd null (bump_some earlier size)

/-- The size in `!load p` is the one in `p`. -/
theorem requestedSize_loadKey (parses : Parses p (.ok es))
    (reports : Reports (.ok (⟨loadKey, none⟩ :: es)) r) : requestedSize bump p [] = some n ↔
      cpGetUInt32 32 sizeKey (r.result.getD {}) = (true, n) := by
  obtain ⟨r', parsed', reports'⟩ := parse_bump parses
  obtain ⟨-, cp, result, read⟩ := reports_ok reports
  obtain ⟨-, cp', result', read'⟩ := reports_ok reports'
  rw [requestedSize_reports parsed' reports', result, result', Option.getD_some, Option.getD_some]
  rw [firstBinding_loadKey] at read
  rw [cpGetUInt32_congr (read'.trans read.symm)]

/-- A string that is refused has no size. -/
theorem requestedSize_error {e : PcpErr} (parses : Parses p (.error e)) : requestedSize bump p [] ≠ some n := by
  obtain ⟨r, parsed, reports⟩ := parse_bump parses
  have negative := reports.refused.1
  unfold requestedSize
  rw [parsed]
  dsimp only
  rw [if_pos negative]
  exact nofun

/-! ## The ends -/

theorem isError_cpPrintError (ret : Int) : IsError (cpPrintError ret).2 := by
  unfold cpPrintError
  repeat' split
  all_goals decide

/-- `CPDelete` after a parse gives back what the parse holds. -/
theorem held_cpDelete {bs : List Nat} (accounted : Accounted bs r) :
    Held bs (cpDelete (r.result.getD {}) r.calls).2 := by
  cases accounted with
  | emptied _ held => exact held
  | filled _ _ owned => exact owned.delete

theorem accounted_refused {bs : List Nat} (accounted : Accounted bs r) (negative : r.ret < 0) : Held bs r.calls := by
  cases accounted with
  | emptied _ held => exact held
  | @filled es s _ _ _ =>
    have counted : ¬ (s.cp.entries : Int) < 0 := by omega
    exact absurd negative counted

theorem not_served_null {before : Ledger} {bytes : Nat} (earlier : before <:+ calls) :
    ¬ Served before (.alloc bytes 0 :: calls) := by
  rintro ⟨made, whole, granted⟩
  obtain ⟨first, rfl⟩ := earlier
  rw [← List.cons_append, List.append_cancel_right_eq] at whole
  rw [← whole] at granted
  exact granted _ List.mem_cons_self rfl

theorem isError_ne {code : UInt32} (error : IsError code) : code ≠ xboxSSendBinary := by
  rintro rfl
  exact absurd error (by decide)

/-- Parsed on its own `p` asks for `n` bytes, and every allocation of the
command has succeeded. -/
structure LoadGranted (p : Chars) (registry : ModuleRegistry) (o : Outcome) (n : UInt32) : Prop where
  size : requestedSize bump p [] = some n
  served : Served registry.calls o.registry.calls

/-- A refused parse is of a string without a reading, or short of memory. -/
theorem not_granted_of_negative (parses : Parses p out)
    (answers : Answers alloc registry.calls (out.map (⟨loadKey, none⟩ :: ·)) r) (negative : r.ret < 0)
    (calls : o.registry.calls = r.calls) : ¬ LoadGranted p registry o n := by
  rintro ⟨size, served⟩
  rw [calls] at served
  rcases answers with ⟨reports, -⟩ | ⟨-, denied⟩
  · cases out with
    | error e => exact requestedSize_error parses size
    | ok es => exact (reports_ok reports).1 negative
  · exact served.not_denied denied

/-- A parse that is not refused reports its reading. -/
theorem answers_nonnegative (answers : Answers alloc calls (out.map (⟨loadKey, none⟩ :: ·)) r)
    (nonnegative : ¬ r.ret < 0) :
    ∃ es, out = .ok es ∧ Reports (.ok (⟨loadKey, none⟩ :: es)) r ∧ Served calls r.calls := by
  rcases answers with ⟨reports, served⟩ | ⟨reports, -⟩
  · cases out with
    | error e => exact absurd reports.refused.1 nonnegative
    | ok es => exact ⟨es, rfl, reports, served⟩
  · exact absurd reports.refused.1 nonnegative

/-- The command begins the transfer it was asked for, or changes nothing. -/
theorem handleDynamicLoad_load (store : ContextStore) (parses : Parses p out) (clean : Clean registry.calls) :
    ∃ o, handleDynamicLoad alloc (loadKey ++ space :: p) ctx store registry = some o ∧
      ((∃ n base, LoadGranted p registry o n ∧ o.reply.code = xboxSSendBinary ∧
          LoadBegun n ctx registry o base) ∨
        LoadDeclined ctx store registry o ∧ ∀ n, ¬ LoadGranted p registry o n) := by
  obtain ⟨r, returned, answers⟩ :=
    parseString_parses .target alloc registry.calls (parses_loadKey parses)
  have accounted := parseString_accounted (held_live clean) returned
  have returned : cpParseCommandParameters .target alloc (some (loadKey ++ space :: p)) (some {})
      registry.calls = .ok r := returned
  cases handleDynamicLoad_ends alloc (loadKey ++ space :: p) ctx registry with
  | overread calls parsed => exact nomatch returned.symm.trans parsed
  | malformed r' parsed negative handled =>
    cases returned.symm.trans parsed
    refine ⟨_, handled store, .inr ⟨?_, fun n => not_granted_of_negative parses answers negative rfl⟩⟩
    exact ⟨isError_cpPrintError r.ret, rfl, rfl, rfl, (accounted_refused accounted negative).settles clean⟩
  | unsized r' size parsed nonnegative missing handled =>
    cases returned.symm.trans parsed
    obtain ⟨es, rfl, reports, -⟩ := answers_nonnegative answers nonnegative
    refine ⟨_, handled store, .inr ⟨?_, fun n granted => ?_⟩⟩
    · exact ⟨(by decide : IsError xboxEFail), rfl, rfl, rfl, (held_cpDelete accounted).settles clean⟩
    · have found := (requestedSize_loadKey parses reports).mp granted.size
      exact nomatch missing.symm.trans found
  | starved r' size parsed nonnegative found handled =>
    cases returned.symm.trans parsed
    obtain ⟨es, -, -, served⟩ := answers_nonnegative answers nonnegative
    refine ⟨_, handled store, .inr ⟨?_, fun n granted => ?_⟩⟩
    · refine ⟨(by decide : IsError xboxEAccessDenied), rfl, rfl, rfl, ?_⟩
      exact (held_cpDelete accounted).allocNull.settles clean
    · exact not_served_null (served.trans served_cpDelete).suffix granted.served
  | accepted r' size base parsed nonnegative found some_ handled =>
    cases returned.symm.trans parsed
    obtain ⟨es, rfl, reports, served⟩ := answers_nonnegative answers nonnegative
    refine ⟨_, handled store, .inl ⟨size, base, ⟨?_, ?_⟩, rfl, ?_⟩⟩
    · exact (requestedSize_loadKey parses reports).mpr found
    · exact (served.trans served_cpDelete).trans (served_alloc some_)
    · exact ⟨some_, ⟨_, rfl⟩, rfl, rfl, rfl, (held_cpDelete accounted).alloc some_⟩

/-- `ddxt!load p` asks for binary data exactly when `p` on its own has a size
and every allocation succeeds, and then begins the transfer of that many bytes
to the block it allocated. Otherwise it returns an error and changes nothing. -/
theorem processCommand_load (alloc : Ledger → Nat → Nat) (p : Chars) (ctx : CommandContext) (store : ContextStore)
    (registry : ModuleRegistry) (whole : ¬ CutOff p) (clean : Clean registry.calls) :
    ∃ o, processCommand alloc (loadPrefix ++ p) ctx store registry = some o ∧
      (o.reply.code = xboxSSendBinary ↔ ∃ n, LoadGranted p registry o n) ∧
      (∀ n, LoadGranted p registry o n → ∃ base, LoadBegun n ctx registry o base) ∧
      (o.reply.code ≠ xboxSSendBinary → LoadDeclined ctx store registry o) := by
  obtain ⟨out, parses⟩ := (parses_or_cutOff p).resolve_right whole
  obtain ⟨o, handled, ends⟩ := @handleDynamicLoad_load alloc p ctx registry out store parses clean
  refine ⟨o, processCommand_loadPrefix.trans handled, ?_⟩
  rcases ends with ⟨n, base, granted, code, begun⟩ | ⟨declined, never⟩
  · refine ⟨⟨fun _ => ⟨n, granted⟩, fun _ => code⟩, fun n' granted' => ?_, fun other => absurd code other⟩
    cases granted.size.symm.trans granted'.size
    exact ⟨base, begun⟩
  · have other := isError_ne declined.code
    refine ⟨⟨fun code => absurd code other, ?_⟩, fun n granted => absurd granted (never n), fun _ => declined⟩
    exact fun ⟨n, granted⟩ => absurd granted (never n)

/-- `size=0x10` -/
def sizeSixteen : Chars := [0x73, 0x69, 0x7A, 0x65, 0x3D, 0x30, 0x78, 0x31, 0x30]

theorem sizeSixteen_begins : ∃ o base, processCommand bump (loadPrefix ++ sizeSixteen) {} {} {} = some o ∧
    o.reply.code = xboxSSendBinary ∧ LoadBegun 16 {} {} o base := by
  have whole : ¬ CutOff sizeSixteen := by
    intro cut
    obtain ⟨calls, overread⟩ := cut.overread .target []
    have read : (parseString .target bump sizeSixteen []).isOk = true := by decide +kernel
    rw [overread] at read
    cases read
  obtain ⟨o, processed, asks, begins, -⟩ := processCommand_load bump sizeSixteen {} {} {} whole clean_nil
  have code : (processCommand bump (loadPrefix ++ sizeSixteen) {} {} {}).map (·.reply.code) =
      some xboxSSendBinary := by decide +kernel
  have size : requestedSize bump sizeSixteen [] = some 16 := by decide +kernel
  rw [processed] at code
  have code : o.reply.code = xboxSSendBinary := Option.some.inj code
  obtain ⟨n, granted⟩ := asks.mp code
  cases size.symm.trans granted.size
  obtain ⟨base, begun⟩ := begins 16 granted
  exact ⟨o, base, processed, code, begun⟩

end Dyndxt.Session
