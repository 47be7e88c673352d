import Dyndxt.Run.Ends
import Dyndxt.Params.Collect

/-!
# The parser accepts its grammar

A run of the loop over a reading of the rest of the string: each round appends
the reading's next entry, and the loop leaves where the reading ends.
-/

namespace Dyndxt.Params
open Dyndxt.Pool Dyndxt.Run

/-- The keys and values of the entries, in order. -/
def CommandParameters.texts (cp : CommandParameters) : List (Option Chars × Option Chars) :=
  (List.range cp.entries).map fun i =>
    ((cp.key i).map PoolString.chars, (cp.value i).map PoolString.chars)

/-- What is returned for a reading. -/
def Reports : Except PcpErr (List Entry) → ParseResult → Prop
  | .ok entries, r => r.ret = entries.length ∧
    ∃ cp, r.result = some cp ∧ cp.texts = entries.map fun e => (some e.key, e.value)
  | .error e, r => r.ret = e.code ∧ r.result = some {}

/-- How a parse of a string with this reading returns: as the reading says, or
at an allocation that failed. -/
def Answers (alloc : Ledger → Nat → Nat) (calls : Ledger) (out : Except PcpErr (List Entry))
    (r : ParseResult) : Prop :=
  Reports out r ∧ Served calls r.calls ∨
    Reports (.error .outOfMemory) r ∧ Denied alloc calls r.calls

/-- The pool calls of a parse, however it ended. -/
def parseCalls : Except Ledger ParseResult → Ledger
  | .ok r => r.calls
  | .error calls => calls

def entriesOf (es : List PoolEntry) : List Entry :=
  es.map fun e => ⟨e.1.chars, e.2.map PoolString.chars⟩

variable (b : Build) (alloc : Ledger → Nat → Nat) {es : List PoolEntry} {s s' : ParseState}
  {input body keyStop entryEnd : Chars} {value : Option (Chars × Chars)} {esc : Bool} {err : PcpErr}
  {out out' : Except PcpErr (List Entry)} {calls : Ledger} {cp : CommandParameters} {r : ParseResult}

theorem Collected.texts (collected : Collected es s) :
    s.cp.texts = (entriesOf es).map fun e => (some e.key, e.value) := by
  apply List.ext_getElem?
  intro i
  rw [CommandParameters.texts, collected.entries, entriesOf, List.getElem?_map, List.map_map, List.getElem?_map]
  rcases Nat.lt_or_ge i es.length with inside | outside
  · rw [List.getElem?_range inside, List.getElem?_eq_getElem inside]
    simp only [Option.map_some, collected.key, collected.value, List.getElem?_eq_getElem inside,
      Option.bind_some, Function.comp_apply]
  · rw [List.getElem?_eq_none (by rwa [List.length_range]), List.getElem?_eq_none outside]
    rfl

theorem served_cpDelete : Served calls (cpDelete cp calls).2 := by
  have strings := served_foldl (fun calls i =>
    (@served_freeString calls (cp.key i)).trans (served_freeString (cp.value i))) (List.range cp.entries) calls
  exact (strings.trans (served_freeArray _)).trans (served_freeArray _)

/-- A refusal empties the result. -/
theorem refuse_reports (err : PcpErr) (cp : CommandParameters) (calls : Ledger) :
    Reports (.error err) (refuse err cp calls) ∧ Served calls (refuse err cp calls).calls :=
  ⟨⟨rfl, rfl⟩, served_cpDelete⟩

theorem Answers.starved {alloc : Ledger → Nat → Nat} (h : Answers alloc calls out r) : Reports out r ∨ ¬ Granted r.calls :=
  h.imp And.left fun denied => denied.2.starved.2

/-- A result later in the run. -/
theorem Answers.later {alloc : Ledger → Nat → Nat} {earlier : Ledger} (h : Answers alloc calls out r)
    (served : Served earlier calls) : Answers alloc earlier out r :=
  h.imp (fun reports => ⟨reports.1, served.trans reports.2⟩) fun denied =>
    ⟨denied.1, denied.2.later served.suffix⟩

/-! ## Rounds -/

theorem parseTurn_refused (s : ParseState) (some_ : body ≠ []) (scanned : scanEntry body = .refused err) :
    parseTurn b alloc (body, s) = .leave (.ok (refuse err s.cp s.calls)) := by
  cases body with
  | nil => exact absurd rfl some_
  | cons c body => simp only [parseTurn, scanned]

theorem parseTurn_overread (s : ParseState) (some_ : body ≠ []) (scanned : scanEntry body = .overread) :
    parseTurn b alloc (body, s) = .leave (.error s.calls) := by
  cases body with
  | nil => exact absurd rfl some_
  | cons c body => simp only [parseTurn, scanned]

theorem parseTurn_failed (some_ : body ≠ []) (scanned : scanEntry body = .entry keyStop value esc entryEnd)
    (failed : commandParametersAppend b alloc body keyStop value esc s = (some err, s')) :
    parseTurn b alloc (body, s) = .leave (.ok (refuse err s'.cp s'.calls)) := by
  cases body with
  | nil => exact absurd rfl some_
  | cons c body => simp only [parseTurn, scanned, failed]

theorem parseTurn_appended (some_ : body ≠ []) (scanned : scanEntry body = .entry keyStop value esc entryEnd)
    (appended : commandParametersAppend b alloc body keyStop value esc s = (none, s')) :
    parseTurn b alloc (body, s) = .again (firstNonSpace entryEnd, s') := by
  cases body with
  | nil => exact absurd rfl some_
  | cons c body => simp only [parseTurn, scanned, appended]

/-- A round over an entry appends it, unless an allocation fails. -/
theorem round_entry {e : Entry} {rest : Chars} (entry : EntryAt body e rest) (collected : Collected es s) :
    (∃ k v s', parseTurn b alloc (body, s) = .again (firstNonSpace rest, s') ∧
      Collected (es ++ [(k, v)]) s' ∧ entriesOf (es ++ [(k, v)]) = entriesOf es ++ [e] ∧
      Served s.calls s'.calls) ∨
    ∃ r, parseTurn b alloc (body, s) = .leave (.ok r) ∧ Reports (.error .outOfMemory) r ∧
      Denied alloc s.calls r.calls := by
  obtain ⟨keyStop, value, esc, scanned, key, stores⟩ := scanEntry_entry entry
  have some_ := entry.visible.1
  generalize appended : commandParametersAppend b alloc body keyStop value esc s = p
  obtain ⟨set, s'⟩ := p
  cases set with
  | some err =>
    obtain ⟨rfl, denied⟩ := commandParametersAppend_some collected stores appended
    obtain ⟨reports, freed⟩ := refuse_reports .outOfMemory s'.cp s'.calls
    exact .inr ⟨_, parseTurn_failed b alloc some_ scanned appended, reports, denied.more freed.suffix⟩
  | none =>
    obtain ⟨k, v, collected, chars, text, later⟩ := commandParametersAppend_none collected stores appended
    refine .inl ⟨k, v, s', parseTurn_appended b alloc some_ scanned appended, collected, ?_, later⟩
    simp only [entriesOf, List.map_append, List.map_cons, List.map_nil, chars, text, key]

/-! ## Runs -/

/-- The loop over a string with a reading. -/
theorem result_of_parses (parses : Parses input out) (collected : Collected es s) :
    ∃ r, (parseLoop b alloc).result (firstNonSpace input, s) = .ok r ∧
      Answers alloc s.calls (out.map (entriesOf es ++ ·)) r := by
  induction parses generalizing es s with
  | done spaces =>
    rw [firstNonSpace_spaces spaces]
    refine ⟨_, (parseLoop b alloc).result_leave rfl, .inl ⟨⟨?_, s.cp, rfl, ?_⟩, .refl _⟩⟩
    · simp [collected.entries, entriesOf]
    · simpa using collected.texts
  | @entry sp body rest e out spaces entry _ ih =>
    rw [firstNonSpace_append spaces entry.visible.2]
    rcases round_entry b alloc entry collected with
      ⟨k, v, s', next, collected, snoc, later⟩ | ⟨r, left, denied⟩
    · obtain ⟨r, result, answers⟩ := ih collected
      rw [(parseLoop b alloc).result_again next]
      refine ⟨r, result, ?_⟩
      have answers := answers.later later
      rw [snoc] at answers
      cases out with
      | error err => exact answers
      | ok entries => simpa [Except.map] using answers
    · exact ⟨r, (parseLoop b alloc).result_leave left, .inr denied⟩
  | @offends sp body err spaces offends =>
    rw [firstNonSpace_append spaces offends.visible.2]
    have left := parseTurn_refused b alloc s offends.visible.1 (scanEntry_offends offends)
    obtain ⟨reports, later⟩ := refuse_reports err s.cp s.calls
    exact ⟨_, (parseLoop b alloc).result_leave left, .inl ⟨reports, later⟩⟩

/-- The loop over a string that is cut off. -/
theorem result_of_cutOff (cut : CutOff input) (collected : Collected es s) :
    Ends (fun r => Reports (.error .outOfMemory) r ∧ Denied alloc s.calls r.calls) (Served s.calls)
      ((parseLoop b alloc).result (firstNonSpace input, s)) := by
  induction cut generalizing es s with
  | here spaces cut =>
    rw [firstNonSpace_append spaces cut.visible.2]
    have left := parseTurn_overread b alloc s cut.visible.1 (scanEntry_cutsOff cut)
    rw [(parseLoop b alloc).result_leave left]
    exact .refl _
  | later spaces entry _ ih =>
    rw [firstNonSpace_append spaces entry.visible.2]
    rcases round_entry b alloc entry collected with
      ⟨k, v, s', next, collected, -, later⟩ | ⟨r, left, denied⟩
    · rw [(parseLoop b alloc).result_again next]
      refine (ih collected).mono ?_ fun calls served => later.trans served
      exact fun r denied => ⟨denied.1, denied.2.later later.suffix⟩
    · rw [(parseLoop b alloc).result_leave left]
      exact denied

/-- A string without a visible character has no entries. -/
theorem Parses.blank (parses : Parses input out) (blank : firstNonSpace input = []) : out = .ok [] := by
  cases parses with
  | done => rfl
  | entry spaces entry =>
    rw [firstNonSpace_append spaces entry.visible.2] at blank
    exact absurd blank entry.visible.1
  | offends spaces offends =>
    rw [firstNonSpace_append spaces offends.visible.2] at blank
    exact absurd blank offends.visible.1

theorem CutOff.visible (cut : CutOff input) : firstNonSpace input ≠ [] := by
  cases cut with
  | here spaces cut =>
    rw [firstNonSpace_append spaces cut.visible.2]
    exact cut.visible.1
  | later spaces entry =>
    rw [firstNonSpace_append spaces entry.visible.2]
    exact entry.visible.1

theorem defaultReserve_pos : 0 < defaultCommandParameterReserveSize := by decide

/-- The first reservation fails, the string is blank, or the loop runs. -/
theorem parseString_cases (input : Chars) (calls : Ledger) :
    (∃ r, parseString b alloc input calls = .ok r ∧ Reports (.error .outOfMemory) r ∧
      Denied alloc calls r.calls) ∨
    (firstNonSpace input = [] ∧ ∃ r, parseString b alloc input calls = .ok r ∧ Reports (.ok []) r ∧
      Served calls r.calls) ∨
    ∃ s, Collected [] s ∧ Served calls s.calls ∧
      parseString b alloc input calls = (parseLoop b alloc).result (firstNonSpace input, s) := by
  unfold parseString
  dsimp only
  cases reserved : commandParametersReserve b alloc defaultCommandParameterReserveSize {} calls with
  | mk ok p =>
    obtain ⟨cp, calls'⟩ := p
    cases ok with
    | false =>
      have denied := commandParametersReserve_false reserved
      obtain ⟨reports, freed⟩ := refuse_reports .outOfMemory cp calls'
      exact .inl ⟨_, rfl, reports, denied.more freed.suffix⟩
    | true =>
      have later := (commandParametersReserve_true reserved).1
      by_cases blank : firstNonSpace input = []
      · exact .inr (.inl ⟨blank, _, if_pos blank, ⟨rfl, {}, rfl, rfl⟩, later.trans served_cpDelete⟩)
      · exact .inr (.inr ⟨_, collected_nil defaultReserve_pos reserved, later, if_neg blank⟩)

theorem parseString_parses (calls : Ledger) (parses : Parses input out) :
    ∃ r, parseString b alloc input calls = .ok r ∧ Answers alloc calls out r := by
  rcases parseString_cases b alloc input calls with
    ⟨r, returned, denied⟩ | ⟨blank, r, returned, reports⟩ | ⟨s, collected, later, loop⟩
  · exact ⟨r, returned, .inr denied⟩
  · rw [parses.blank blank]
    exact ⟨r, returned, .inl reports⟩
  · rw [loop]
    obtain ⟨r, result, answers⟩ := result_of_parses b alloc parses collected
    refine ⟨r, result, ?_⟩
    have answers := answers.later later
    cases out with
    | error err => exact answers
    | ok entries => exact answers

theorem parseString_cutOff (calls : Ledger) (cut : CutOff input) :
    Ends (fun r => Reports (.error .outOfMemory) r ∧ Denied alloc calls r.calls) (Served calls)
      (parseString b alloc input calls) := by
  rcases parseString_cases b alloc input calls with
    ⟨r, returned, denied⟩ | ⟨blank, -⟩ | ⟨s, collected, later, loop⟩
  · rw [returned]
    exact denied
  · exact absurd blank cut.visible
  · rw [loop]
    refine (result_of_cutOff b alloc cut collected).mono ?_ fun calls served => later.trans served
    exact fun r denied => ⟨denied.1, denied.2.later later.suffix⟩

/-- A string that was read to its NUL is not cut off. -/
theorem not_cutOff_of_ok (returned : parseString b alloc input calls = .ok r) (granted : Granted r.calls) :
    ¬ CutOff input := by
  intro cut
  have ends := parseString_cutOff b alloc calls cut
  rw [returned] at ends
  exact ends.2.starved.2 granted

/-! ## The parser and its grammar -/

theorem PcpErr.code_neg (e : PcpErr) : e.code < 0 := by cases e <;> decide

theorem Reports.refused (h : Reports (.error err) r) : r.ret < 0 ∧ r.result = some {} := by
  refine ⟨?_, h.2⟩
  rw [h.1]
  exact err.code_neg

theorem PcpErr.code_injective : Function.Injective PcpErr.code := by
  intro e e' same
  cases e <;> cases e' <;> first | rfl | cases same

/-- What is returned tells the reading. -/
theorem Reports.unique (h : Reports out r) (h' : Reports out' r) : out = out' := by
  cases out with
  | error e =>
    cases out' with
    | error e' => rw [PcpErr.code_injective (h.1.symm.trans h'.1)]
    | ok entries =>
      have negative := e.code_neg
      have ret := h.1.symm.trans h'.1
      omega
  | ok entries =>
    cases out' with
    | error e' =>
      have negative := e'.code_neg
      have ret := h.1.symm.trans h'.1
      omega
    | ok entries' =>
      obtain ⟨-, cp, result, texts⟩ := h
      obtain ⟨-, cp', result', texts'⟩ := h'
      cases result.symm.trans result'
      have pairs : Function.Injective fun e : Entry => (some e.key, e.value) := by
        intro ⟨key, value⟩ ⟨key', value'⟩ same
        cases same
        rfl
      rw [List.map_injective_iff.mpr pairs (texts.symm.trans texts')]

/-- The parser returns the one reading its grammar gives. -/
theorem cpParseCommandParameters_grammar (b : Build) (alloc : Ledger → Nat → Nat) (params : Chars)
    (stale : CommandParameters) (calls : Ledger) (whole : ¬ CutOff params)
    (granted : Granted (parseCalls (cpParseCommandParameters b alloc (some params) (some stale) calls))) :
    ∃ out r, cpParseCommandParameters b alloc (some params) (some stale) calls = .ok r ∧ Reports out r ∧
      ∀ out', Parses params out' ↔ out' = out := by
  obtain ⟨out, parses⟩ := (parses_or_cutOff params).resolve_right whole
  have reports {out : Except PcpErr (List Entry)} (parses : Parses params out) :
      ∃ r, cpParseCommandParameters b alloc (some params) (some stale) calls = .ok r ∧ Reports out r := by
    obtain ⟨r, returned, answers⟩ := parseString_parses b alloc calls parses
    have returned : cpParseCommandParameters b alloc (some params) (some stale) calls = .ok r := returned
    rw [returned] at granted
    exact ⟨r, returned, answers.starved.resolve_right fun failed => failed granted⟩
  obtain ⟨r, returned, reported⟩ := reports parses
  refine ⟨out, r, returned, reported, fun out' => ⟨fun parses' => ?_, fun same => same ▸ parses⟩⟩
  obtain ⟨r', returned', reported'⟩ := reports parses'
  cases returned.symm.trans returned'
  exact reported'.unique reported

/-- `a=b c d="x\"y"` -/
def threeEntries : Chars := [97, 61, 98, 32, 99, 32, 100, 61, 34, 120, 92, 34, 121, 34]

theorem threeEntries_parsed : ∃ out r,
    cpParseCommandParameters .target bump (some threeEntries) (some {}) [] = .ok r ∧ r.ret = 3 ∧
      Reports out r ∧ Parses threeEntries out := by
  have three : (cpParseCommandParameters .target bump (some threeEntries) (some {}) []).map (·.ret) = .ok 3 := by
    decide +kernel
  have granted : Granted (parseCalls (cpParseCommandParameters .target bump (some threeEntries) (some {}) [])) := by
    decide +kernel
  have whole : ¬ CutOff threeEntries := by
    cases returned : cpParseCommandParameters .target bump (some threeEntries) (some {}) [] with
    | error calls => rw [returned] at three; cases three
    | ok r =>
      rw [returned] at granted
      have read : parseString .target bump threeEntries [] = .ok r := returned
      exact not_cutOff_of_ok .target bump read granted
  obtain ⟨out, r, returned, reports, parses⟩ :=
    cpParseCommandParameters_grammar .target bump threeEntries {} [] whole granted
  rw [returned] at three
  exact ⟨out, r, returned, Except.ok.inj three, reports, (parses out).mpr rfl⟩

end Dyndxt.Params
