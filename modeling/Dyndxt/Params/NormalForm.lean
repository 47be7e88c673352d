import Dyndxt.Params.Render
import Dyndxt.Params.Unclosed

/-!
# What is accepted can be written again

The entries that the parser accepts are ones that a rendering can carry. So an
accepted string has a normal form, single spaces between entries that are
quoted only where they must be, and the parser makes the same of both.
-/

namespace Dyndxt.Params
open Dyndxt.Pool

/-- An entry, quoted only where it must be. -/
def Entry.text (e : Entry) : Chars :=
  match e.value with
  | none => e.key
  | some value =>
    if space ∉ value ∧ value.head? ≠ some quote then e.key ++ equals :: value
    else e.key ++ equals :: quote :: (escape value ++ [quote])

def normalForm : List Entry → Chars
  | [] => []
  | [e] => e.text
  | e :: e' :: es => e.text ++ ([space] ++ normalForm (e' :: es))

variable {e : Entry} {es es' : List Entry} {input rest raw text : Chars}

/-! ## The normal form is a rendering -/

theorem Entry.written (e : Entry) : Written e e.text := by
  obtain ⟨key, value⟩ := e
  unfold Entry.text
  cases value with
  | none => exact .key key
  | some value =>
    dsimp only
    split
    · next bare => exact .bare key bare.1 bare.2
    · exact .quoted key value

theorem joined_normalForm (es : List Entry) : Joined es (normalForm es) := by
  induction es with
  | nil => exact .nil
  | cons e es ih =>
    cases es with
    | nil => exact .last e.written
    | cons e' es =>
      have one : Spaces [space] := List.forall_mem_singleton.mpr rfl
      exact .more e.written one (List.cons_ne_nil _ _) ih

theorem parses_normalForm (renderable : ∀ e ∈ es, Renderable e) : Parses (normalForm es) (.ok es) := by
  have parses : Parses ([] ++ (normalForm es ++ [])) (.ok es) := (joined_normalForm es).parses renderable nofun nofun
  rwa [List.nil_append, List.append_nil] at parses

/-! ## Accepted entries can be rendered -/

theorem Quoted.plainNul (quoted : Quoted raw text) (plain : 0 ∉ raw) : 0 ∉ text := by
  induction quoted with
  | nil => exact plain
  | @plain c raw text _ _ _ ih =>
    rw [List.mem_cons, not_or] at plain ⊢
    exact ⟨plain.1, ih plain.2⟩
  | @escaped c raw text _ ih =>
    rw [List.mem_cons, List.mem_cons, not_or, not_or] at plain
    rw [List.mem_cons, not_or]
    exact ⟨plain.2.1, ih plain.2.2⟩

/-- What is present is not empty. -/
theorem present_plain (plain : 0 ∉ text) : ∀ v ∈ present text, v ≠ [] ∧ 0 ∉ v := by
  unfold present
  split
  · exact nofun
  · next some_ =>
    rintro v ⟨⟩
    exact ⟨some_, plain⟩

theorem EntryAt.renderable (entry : EntryAt input e rest) (plain : 0 ∉ input) : Renderable e ∧ 0 ∉ rest := by
  cases entry with
  | @key key rest isKey stops =>
    rw [List.mem_append, not_or] at plain
    exact ⟨⟨isKey, plain.1, nofun⟩, plain.2⟩
  | @bare key value rest isKey bare stops =>
    rw [List.mem_append, List.mem_cons, List.mem_append, not_or, not_or, not_or] at plain
    obtain ⟨keyPlain, -, valuePlain, restPlain⟩ := plain
    exact ⟨⟨isKey, keyPlain, present_plain valuePlain⟩, restPlain⟩
  | @quoted key raw text rest isKey quoted =>
    rw [List.mem_append, List.mem_cons, List.mem_cons, List.mem_append, List.mem_cons, not_or, not_or, not_or, not_or,
      not_or] at plain
    obtain ⟨keyPlain, -, -, rawPlain, -, restPlain⟩ := plain
    exact ⟨⟨isKey, keyPlain, present_plain (quoted.plainNul rawPlain)⟩, restPlain⟩

theorem Parses.renderable (parses : Parses input (.ok es)) (plain : 0 ∉ input) : ∀ e ∈ es, Renderable e := by
  generalize reading : (Except.ok es : Except PcpErr (List Entry)) = out at parses
  induction parses generalizing es with
  | done => cases reading; exact nofun
  | @entry s body rest e out spaces entry _ ih =>
    rw [List.mem_append, not_or] at plain
    obtain ⟨renderable, restPlain⟩ := entry.renderable plain.2
    cases out with
    | error err => cases reading
    | ok es =>
      cases reading
      exact List.forall_mem_cons.mpr ⟨renderable, ih restPlain rfl⟩
  | offends => cases reading

/-! ## Parsing again -/

/-- A string that was accepted, whatever the pool did. -/
theorem accepted_parses {b : Build} {alloc : Ledger → Nat → Nat} {calls : Ledger} {r : ParseResult}
    (parsed : parseString b alloc input calls = .ok r) (accepted : 0 ≤ r.ret) :
    ∃ es, Parses input (.ok es) ∧ Reports (.ok es) r := by
  have negative {err : PcpErr} (reports : Reports (.error err) r) : False := Int.not_le.mpr reports.refused.1 accepted
  rcases parses_or_cutOff input with ⟨out, parses⟩ | cut
  · obtain ⟨r', parsed', answers⟩ := parseString_parses b alloc calls parses
    cases parsed.symm.trans parsed'
    rcases answers with ⟨reports, -⟩ | ⟨reports, -⟩
    · cases out with
      | error err => exact (negative reports).elim
      | ok es => exact ⟨es, parses, reports⟩
    · exact (negative reports).elim
  · have ends := parseString_cutOff b alloc calls cut
    rw [parsed] at ends
    exact (negative ends.1).elim

/-- A string has one reading, the one that the parser makes with a pool that
denies nothing. -/
theorem Parses.unique {out out' : Except PcpErr (List Entry)} (parses : Parses input out) (parses' : Parses input out') :
    out = out' := by
  obtain ⟨r, returned, answers⟩ := parseString_parses .target bump [] parses
  obtain ⟨r', returned', answers'⟩ := parseString_parses .target bump [] parses'
  cases returned.symm.trans returned'
  have some_ {before : Ledger} : ¬ Denied bump before r.calls := by
    rintro ⟨earlier, size, -, -, null⟩
    exact bump_some earlier size null
  exact (answers.resolve_right fun denied => some_ denied.2).1.unique (answers'.resolve_right fun denied => some_ denied.2).1

/-- Whatever string was accepted: its entries are ones a client can write, the
normal form is accepted with the same entries and finds the same, and no other
entries have it. -/
theorem cpParseCommandParameters_normalForm (b : Build) (alloc alloc' : Ledger → Nat → Nat) (params : Chars)
    (stale stale' : CommandParameters) (calls calls' : Ledger) (r : ParseResult) (plain : 0 ∉ params)
    (parsed : cpParseCommandParameters b alloc (some params) (some stale) calls = .ok r) (accepted : 0 ≤ r.ret) :
    ∃ es cp, r.result = some cp ∧ r.ret = es.length ∧ cp.texts = (es.map fun e => (some e.key, e.value)) ∧
      (∀ e ∈ es, Renderable e) ∧
      (∀ es', (∀ e ∈ es', Renderable e) → normalForm es' = normalForm es → es' = es) ∧
      (Granted (parseCalls (cpParseCommandParameters b alloc' (some (normalForm es)) (some stale') calls')) →
        ∃ r' cp', cpParseCommandParameters b alloc' (some (normalForm es)) (some stale') calls' = .ok r' ∧
          r'.ret = r.ret ∧ r'.result = some cp' ∧ cp'.texts = cp.texts ∧
          ∀ k, cpHasKey k cp' = cpHasKey k cp ∧ cpGetString k cp' = cpGetString k cp) := by
  obtain ⟨es, parses, ret, cp, result, texts⟩ := accepted_parses parsed accepted
  have renderable := parses.renderable plain
  refine ⟨es, cp, result, ret, texts, renderable, fun es' renderable' same => ?_, fun granted => ?_⟩
  · -- both are what the one text is read as
    have parses := parses_normalForm renderable
    have parses' := parses_normalForm renderable'
    rw [same] at parses'
    exact Except.ok.inj (parses'.unique parses)
  · obtain ⟨r', returned, answers⟩ := parseString_parses b alloc' calls' (parses_normalForm renderable)
    have returned : cpParseCommandParameters b alloc' (some (normalForm es)) (some stale') calls' = .ok r' := returned
    rw [returned] at granted
    obtain ⟨ret', cp', result', texts'⟩ := answers.starved.resolve_right fun failed => failed granted
    have same : cp'.texts = cp.texts := texts'.trans texts.symm
    refine ⟨r', cp', returned, ret'.trans ret.symm, result', same, fun k => ?_⟩
    rw [cpHasKey_texts, cpHasKey_texts, cpGetString_texts, cpGetString_texts, same]
    exact ⟨rfl, rfl⟩

/-- `a="x"  b="y z"c` -/
def crowdedPairs : Chars := [97, 61, 34, 120, 34, 32, 32, 98, 61, 34, 121, 32, 122, 34, 99]

/-- `a=x b="y z" c` -/
def tidyPairs : Chars := [97, 61, 120, 32, 98, 61, 34, 121, 32, 122, 34, 32, 99]

theorem crowdedPairs_tidied : ∃ r cp r' cp',
    cpParseCommandParameters .target bump (some crowdedPairs) (some {}) [] = .ok r ∧ r.result = some cp ∧
      cpParseCommandParameters .target bump (some tidyPairs) (some {}) [] = .ok r' ∧ r'.result = some cp' ∧
      r.ret = 3 ∧ r'.ret = 3 ∧ cp'.texts = cp.texts := by
  have three : (cpParseCommandParameters .target bump (some crowdedPairs) (some {}) []).map (fun r =>
      (r.ret, (r.result.getD {}).texts)) =
        .ok (3, [(some [97], some [120]), (some [98], some [121, 32, 122]), (some [99], none)]) := by
    decide +kernel
  have granted : Granted (parseCalls (cpParseCommandParameters .target bump (some tidyPairs) (some {}) [])) := by
    decide +kernel
  cases parsed : cpParseCommandParameters .target bump (some crowdedPairs) (some {}) [] with
  | error calls => rw [parsed] at three; cases three
  | ok r =>
    rw [parsed] at three
    simp only [Except.map, Except.ok.injEq, Prod.mk.injEq] at three
    obtain ⟨es, cp, result, ret, texts, -, -, again⟩ := cpParseCommandParameters_normalForm .target bump bump crowdedPairs
      {} {} [] [] r (by decide) parsed (by omega)
    have pairs : Function.Injective fun e : Entry => (some e.key, e.value) := by
      intro ⟨key, value⟩ ⟨key', value'⟩ same
      cases same
      rfl
    have entries : es = [⟨[97], some [120]⟩, ⟨[98], some [121, 32, 122]⟩, ⟨[99], none⟩] := by
      rw [result, Option.getD_some] at three
      exact List.map_injective_iff.mpr pairs (texts.symm.trans three.2)
    have tidy : normalForm es = tidyPairs := by
      rw [entries]
      decide +kernel
    rw [tidy] at again
    obtain ⟨r', cp', parsed', ret', result', same, -⟩ := again granted
    exact ⟨r, cp, r', cp', rfl, result, parsed', result', three.1, ret'.trans three.1, same⟩

end Dyndxt.Params
