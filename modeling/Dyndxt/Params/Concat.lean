import Dyndxt.Params.Accepts

/-!
# Parsing a concatenation

However the last entry of a string ends, a space after it leaves the scanners
where an entry may start. So a reading goes on with the reading of whatever
follows the space, and its entries come first.
-/

namespace Dyndxt.Params
open Dyndxt.Pool Dyndxt.Run

variable {s t sp input body rest more : Chars} {e : Entry} {es : List Entry} {out : Except PcpErr (List Entry)}
  {alloc : Ledger → Nat → Nat} {calls : Ledger} {r : ParseResult}

/-! ## Readings -/

theorem AtBreak.append (breaks : AtBreak rest) (breaks' : AtBreak more) : AtBreak (rest ++ more) := by
  cases rest with
  | nil => exact breaks'
  | cons c rest => exact breaks

/-- An entry does not look past the space that follows it. -/
theorem EntryAt.append (entry : EntryAt body e rest) (breaks : AtBreak more) :
    EntryAt (body ++ more) e (rest ++ more) := by
  cases entry with
  | key key_ stops =>
    rw [List.append_assoc]
    exact .key key_ (stops.append breaks)
  | bare key_ bare stops =>
    rw [List.append_assoc, List.cons_append, List.append_assoc]
    exact .bare key_ bare (stops.append breaks)
  | quoted key_ quoted =>
    rw [List.append_assoc, List.cons_append, List.cons_append, List.append_assoc, List.cons_append]
    exact .quoted key_ quoted

/-- Leading spaces are skipped. -/
theorem Parses.spaces (spaces : Spaces sp) (parses : Parses t out) : Parses (sp ++ t) out := by
  have more {sp' : Chars} (spaces' : Spaces sp') : Spaces (sp ++ sp') := by
    intro c listed
    rcases List.mem_append.mp listed with first | second
    · exact spaces c first
    · exact spaces' c second
  cases parses with
  | done spaces' => exact .done (more spaces')
  | entry spaces' entry rest =>
    rw [← List.append_assoc]
    exact .entry (more spaces') entry rest
  | offends spaces' offends =>
    rw [← List.append_assoc]
    exact .offends (more spaces') offends

theorem map_append_cons (e : Entry) (es : List Entry) (out : Except PcpErr (List Entry)) :
    (out.map (es ++ ·)).map (e :: ·) = out.map (e :: es ++ ·) := by
  cases out <;> rfl

/-- A reading, a space and another reading. -/
theorem Parses.append (first : Parses s (.ok es)) (second : Parses t out) :
    Parses (s ++ space :: t) (out.map (es ++ ·)) := by
  have blank : Spaces [space] := fun c listed => List.mem_singleton.mp listed
  generalize whole : (Except.ok es : Except PcpErr (List Entry)) = read at first
  induction first generalizing es with
  | done spaces =>
    cases whole
    have none : out.map ([] ++ ·) = out := by cases out <;> rfl
    rw [none]
    exact (second.spaces blank).spaces spaces
  | @entry sp body rest e tail spaces entry _ ih =>
    cases tail with
    | error err => cases whole
    | ok es' =>
      cases whole
      rw [List.append_assoc, ← map_append_cons]
      refine .entry spaces (entry.append ?_) (ih rfl)
      exact fun c first => (Option.some.inj first).symm
  | offends => cases whole

/-! ## Runs -/

/-- What a string that is accepted was read as. -/
theorem parses_of_accepted {b : Build} (returned : parseString b alloc s calls = .ok r) (accepted : 0 ≤ r.ret) :
    ∃ es, Parses s (.ok es) ∧ Reports (.ok es) r := by
  have denied : ¬ Reports (.error .outOfMemory) r := fun reports => by
    have negative := reports.refused.1
    omega
  rcases parses_or_cutOff s with ⟨out, parses⟩ | cut
  · obtain ⟨r', returned', answers⟩ := parseString_parses b alloc calls parses
    cases returned.symm.trans returned'
    rcases answers with ⟨reports, -⟩ | ⟨starved, -⟩
    · cases out with
      | ok es => exact ⟨es, parses, reports⟩
      | error err =>
        have negative := reports.refused.1
        omega
    · exact absurd starved denied
  · have ends := parseString_cutOff b alloc calls cut
    rw [returned] at ends
    exact absurd ends.1 denied

/-- Behind an accepted string and a space, a string gives its entries after
those, or its own error. -/
theorem cpParseCommandParameters_concat (b : Build) (alloc : Ledger → Nat → Nat) (s t : Chars)
    (stale : CommandParameters) (calls callsS callsT : Ledger) (rs rt : ParseResult) (whole : ¬ CutOff t)
    (first : cpParseCommandParameters b alloc (some s) (some stale) callsS = .ok rs) (accepted : 0 ≤ rs.ret)
    (second : cpParseCommandParameters b alloc (some t) (some stale) callsT = .ok rt) (grantedT : Granted rt.calls)
    (granted : Granted
      (parseCalls (cpParseCommandParameters b alloc (some (s ++ space :: t)) (some stale) calls))) :
    ∃ r, cpParseCommandParameters b alloc (some (s ++ space :: t)) (some stale) calls = .ok r ∧
      (0 ≤ rt.ret → r.ret = rs.ret + rt.ret ∧ ∃ cp cps cpt, r.result = some cp ∧ rs.result = some cps ∧
        rt.result = some cpt ∧ cp.texts = cps.texts ++ cpt.texts) ∧
      (rt.ret < 0 → r.ret = rt.ret ∧ r.result = some {}) := by
  obtain ⟨es, parsesS, retS, cps, resultS, textsS⟩ := parses_of_accepted first accepted
  obtain ⟨out, parsesT⟩ := (parses_or_cutOff t).resolve_right whole
  obtain ⟨rt', second', answersT⟩ := parseString_parses b alloc callsT parsesT
  cases second.symm.trans second'
  have reportsT := answersT.starved.resolve_right fun failed => failed grantedT
  obtain ⟨r, returned, answers⟩ := parseString_parses b alloc calls (parsesS.append parsesT)
  have returned : cpParseCommandParameters b alloc (some (s ++ space :: t)) (some stale) calls = .ok r := returned
  rw [returned] at granted
  have reports := answers.starved.resolve_right fun failed => failed granted
  refine ⟨r, returned, ?_⟩
  cases out with
  | ok es' =>
    obtain ⟨retT, cpt, resultT, textsT⟩ := reportsT
    obtain ⟨ret, cp, result, texts⟩ := reports
    refine ⟨fun _ => ⟨?_, cp, cps, cpt, result, resultS, resultT, ?_⟩, fun negative => by omega⟩
    · rw [ret, retS, retT, List.length_append, Int.natCast_add]
    · rw [texts, textsS, textsT, List.map_append]
  | error err =>
    have negative := reportsT.refused.1
    refine ⟨fun nonnegative => by omega, fun _ => ⟨?_, reports.2⟩⟩
    rw [reports.1, reportsT.1]

/-- The parse of a string with a pool that never runs out. -/
def servedParse (params : Chars) : Except Ledger ParseResult :=
  cpParseCommandParameters .target bump (some params) (some {}) []

theorem served_of_map {params : Chars} {ret : Int}
    (found : (servedParse params).map (fun r => (r.ret, decide (Granted r.calls))) = .ok (ret, true)) :
    ∃ r, servedParse params = .ok r ∧ r.ret = ret ∧ Granted r.calls := by
  cases returned : servedParse params with
  | error calls => rw [returned] at found; cases found
  | ok r =>
    rw [returned] at found
    obtain ⟨ret, granted⟩ := Prod.mk.inj (Except.ok.inj found)
    exact ⟨r, rfl, ret, of_decide_eq_true granted⟩

/-- `a=b` and `c`, joined. -/
theorem joinedStrings_parsed : ∃ r, servedParse [97, 61, 98, 32, 99] = .ok r ∧ r.ret = 2 := by
  obtain ⟨rs, first, retS, -⟩ := @served_of_map [97, 61, 98] 1 (by decide +kernel)
  obtain ⟨rt, second, retT, grantedT⟩ := @served_of_map [99] 1 (by decide +kernel)
  have read : parseString .target bump [99] [] = .ok rt := second
  have whole : ¬ CutOff [99] := not_cutOff_of_ok .target bump read grantedT
  obtain ⟨r, returned, sum, -⟩ := cpParseCommandParameters_concat .target bump [97, 61, 98] [99] {} [] [] [] rs rt
    whole first (by rw [retS]; decide) second grantedT (by decide +kernel)
  refine ⟨r, returned, ?_⟩
  rw [(sum (by rw [retT]; decide)).1, retS, retT]
  rfl

end Dyndxt.Params
