import Dyndxt.Session.Commands
import Dyndxt.Session.LoadCommand

/-!
# What a command parses

The handlers beyond the lean build give the parser the command from the middle
of its verb on. What is left of the verb is one more key, so the parameters
behind it are read as they would be on their own.
-/

namespace Dyndxt.Params
open Dyndxt.Pool

variable {cp : CommandParameters} {calls : Ledger} {rest : List Nat} {size ptr : Nat}

/-! ## Blocks next to those of the parameters -/

theorem Owned.alloc (owned : Owned rest cp calls) (some_ : ptr ≠ 0) :
    Owned (ptr :: rest) cp (.alloc size ptr :: calls) := by
  have grown := @Held.alloc _ _ size _ owned some_
  unfold Owned
  refine grown.perm ?_
  rw [← List.append_assoc, ← List.append_assoc]
  exact List.perm_middle.symm

theorem Owned.allocNull (owned : Owned rest cp calls) : Owned rest cp (.alloc size 0 :: calls) := Held.allocNull owned

theorem Owned.free (owned : Owned (ptr :: rest) cp calls) : Owned rest cp (.free ptr :: calls) := by
  unfold Owned at owned ⊢
  rw [← List.append_assoc] at owned ⊢
  exact (owned.perm List.perm_middle).free

theorem Owned.freeString {s : Option PoolString} (owned : Owned (stringBlock s ++ rest) cp calls) :
    Owned rest cp (Pool.freeString calls s) := by
  cases s with
  | none => exact owned
  | some s =>
    have owned : Owned (s.block :: rest) cp calls := owned
    exact owned.free

end Dyndxt.Params

namespace Dyndxt.Session
open Dyndxt.Pool Dyndxt.Params Dyndxt.Registry

/-- A parse of `p` behind what is left of a verb, by the reading of `p`; `rest`
is what was held before. -/
inductive ParsedBehind (alloc : Ledger → Nat → Nat) (verb : Chars) (calls : Ledger) (rest : List Nat)
    (out : Except PcpErr (List Entry)) (r : ParseResult) : Prop where
  | refused (negative : r.ret < 0) (held : Held rest r.calls)
      (cause : (∃ e, out = .error e) ∨ Denied alloc calls r.calls)
  | read (nonnegative : ¬ r.ret < 0) (es : List Entry) (reading : out = .ok es)
      (owned : Owned rest (r.result.getD {}) r.calls) (served : Served calls r.calls)
      (same : ∀ k, k ≠ verb → cpGetString k (r.result.getD {}) = firstBinding k es)

/-- What a string on its own is read as, with a pool that never runs out. -/
def readParameters (params : Chars) : Option CommandParameters :=
  match cpParseCommandParameters .target bump (some params) (some {}) [] with
  | .error _ => none
  | .ok { ret, result, .. } => if ret < 0 then none else some (result.getD {})

variable {alloc : Ledger → Nat → Nat} {p verb k : Chars} {calls : Ledger} {rest : List Nat}
  {out : Except PcpErr (List Entry)} {es : List Entry} {r : ParseResult} {cp : CommandParameters}

/-- What is left of the verb is one more entry before those of `p`. -/
theorem parses_verb (key : IsKey verb) (parses : Parses p out) :
    Parses (verb ++ space :: p) (out.map (⟨verb, none⟩ :: ·)) := by
  have stops : AtBreak (space :: p) := by simp [AtBreak]
  exact .entry (s := []) (by simp [Spaces]) (.key key stops) (parses_space parses)

theorem firstBinding_verb (other : k ≠ verb) : firstBinding k (⟨verb, none⟩ :: es) = firstBinding k es := by
  have differs : ¬ verb = k := Ne.symm other
  simp only [firstBinding, List.find?_cons, differs, decide_false]

theorem Reports.binding (reports : Reports (.ok es) r) (k : Chars) :
    cpGetString k (r.result.getD {}) = firstBinding k es := by
  obtain ⟨-, cp, result, texts⟩ := reports
  rw [result]
  exact cpGetString_read texts k

theorem owned_of_accounted (accounted : Accounted rest r) : Owned rest (r.result.getD {}) r.calls := by
  cases accounted with
  | emptied _ held => exact owned_empty.mpr held
  | filled _ _ owned => exact owned

/-- The handlers' parse, whatever the pool does. -/
theorem parsedBehind (alloc : Ledger → Nat → Nat) (key : IsKey verb) (parses : Parses p out) (held : Held rest calls) :
    ∃ r, cpParseCommandParameters .target alloc (some (verb ++ space :: p)) (some {}) calls = .ok r ∧
      ParsedBehind alloc verb calls rest out r := by
  obtain ⟨r, returned, answers⟩ := parseString_parses .target alloc calls (parses_verb key parses)
  have accounted := parseString_accounted held returned
  refine ⟨r, returned, ?_⟩
  by_cases negative : r.ret < 0
  · refine .refused negative (accounted_refused accounted negative) ?_
    rcases answers with ⟨reports, -⟩ | ⟨-, denied⟩
    · cases out with
      | error e => exact .inl ⟨e, rfl⟩
      | ok es => exact absurd negative (reports_ok reports).1
    · exact .inr denied
  · rcases answers with ⟨reports, served⟩ | ⟨reports, -⟩
    · cases out with
      | error e => exact absurd reports.refused.1 negative
      | ok es =>
        refine .read negative es rfl (owned_of_accounted accounted) served fun k other => ?_
        exact (Reports.binding reports k).trans (firstBinding_verb other)
    · exact absurd reports.refused.1 negative

/-- On its own, a string with a reading is read. -/
theorem readParameters_ok (parses : Parses p (.ok es)) :
    ∃ cp, readParameters p = some cp ∧ ∀ k, cpGetString k cp = firstBinding k es := by
  obtain ⟨r, returned, reports⟩ := parse_bump parses
  refine ⟨r.result.getD {}, ?_, Reports.binding reports⟩
  unfold readParameters
  rw [returned]
  exact if_neg (reports_ok reports).1

theorem readParameters_error {e : PcpErr} (parses : Parses p (.error e)) : readParameters p = none := by
  obtain ⟨r, returned, reports⟩ := parse_bump parses
  unfold readParameters
  rw [returned]
  exact if_pos reports.refused.1

/-! ## Strings copied out of the parameters -/

/-- A string found is copied, or the pool has run out. -/
inductive Copied (alloc : Ledger → Nat → Nat) (calls : Ledger) (rest : List Nat) (cp : CommandParameters)
    (source : Option Chars) : Option (Option PoolString) × Ledger → Prop where
  | copied {copy : Option PoolString} {calls' : Ledger} : copy.map PoolString.chars = source →
      Owned (stringBlock copy ++ rest) cp calls' → Served calls calls' → Copied alloc calls rest cp source (some copy, calls')
  | denied {calls' : Ledger} : Owned rest cp calls' → Denied alloc calls calls' →
      Copied alloc calls rest cp source (none, calls')

theorem poolStrdup_cases (alloc : Ledger → Nat → Nat) (calls : Ledger) (source : Chars) :
    (∃ ptr, ptr ≠ 0 ∧ poolStrdup alloc calls source =
      (some ⟨ptr, source⟩, .alloc ((source.length + 1) % 2 ^ 32) ptr :: calls)) ∨
    poolStrdup alloc calls source = (none, .alloc ((source.length + 1) % 2 ^ 32) 0 :: calls) ∧
      alloc calls ((source.length + 1) % 2 ^ 32) = 0 := by
  unfold poolStrdup dmAllocatePoolWithTag
  by_cases null : alloc calls ((source.length + 1) % 2 ^ 32) = 0
  · refine .inr ⟨?_, null⟩
    simp only [null, if_true]
  · refine .inl ⟨_, null, ?_⟩
    simp only [null, if_false]

theorem strdupFound_copied (alloc : Ledger → Nat → Nat) (source : Option Chars) (owned : Owned rest cp calls) :
    Copied alloc calls rest cp source (strdupFound alloc calls source) := by
  cases source with
  | none => exact .copied rfl owned (.refl calls)
  | some source =>
    unfold strdupFound
    dsimp only
    rcases poolStrdup_cases alloc calls source with ⟨ptr, some_, copied⟩ | ⟨failed, null⟩
    · rw [copied]
      exact .copied rfl (owned.alloc some_) (served_alloc some_)
    · rw [failed]
      exact .denied owned.allocNull (denied_alloc null)

end Dyndxt.Session
