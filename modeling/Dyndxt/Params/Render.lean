import Dyndxt.Params.Accepts
import Dyndxt.Params.Lookup

/-!
# Rendering and parsing

What a client sends for a list of keys and optional values: each pair alone,
bare or quoted, with spaces between them. The grammar reads a rendering back
as the pairs, and the accessors find the first pair of a key.
-/

namespace Dyndxt.Params
open Dyndxt.Pool

/-- A backslash before every double quote and backslash. -/
def escape : Chars → Chars
  | [] => []
  | c :: text =>
    if c = quote ∨ c = backslash then backslash :: c :: escape text else c :: escape text

/-- A pair that a parameter string can carry. -/
structure Renderable (e : Entry) : Prop where
  key : IsKey e.key
  keyNul : 0 ∉ e.key
  value : ∀ v ∈ e.value, v ≠ [] ∧ 0 ∉ v

/-- The ways to write one pair. -/
inductive Written : Entry → Chars → Prop where
  | key (key : Chars) : Written ⟨key, none⟩ key
  | bare (key : Chars) {value : Chars} : space ∉ value → value.head? ≠ some quote →
      Written ⟨key, some value⟩ (key ++ equals :: value)
  | quoted (key value : Chars) : Written ⟨key, some value⟩ (key ++ equals :: quote :: (escape value ++ [quote]))

/-- The pairs written one after the other with one or more spaces between. -/
inductive Joined : List Entry → Chars → Prop where
  | nil : Joined [] []
  | last {e : Entry} {s : Chars} : Written e s → Joined [e] s
  | more {e e' : Entry} {es : List Entry} {s sp rest : Chars} : Written e s → Spaces sp → sp ≠ [] →
      Joined (e' :: es) rest → Joined (e :: e' :: es) (s ++ (sp ++ rest))

/-- Pairs joined, with any leading and trailing spaces. -/
def Rendering (es : List Entry) (input : Chars) : Prop :=
  ∃ lead body trail, Spaces lead ∧ Joined es body ∧ Spaces trail ∧ input = lead ++ (body ++ trail)

instance (s : Chars) : Decidable (Spaces s) := inferInstanceAs (Decidable (∀ _ ∈ _, _))

variable {e : Entry} {es : List Entry} {s lead trail body rest input : Chars} {cp : CommandParameters}

/-! ## The grammar reads a rendering back -/

theorem quoted_escape (text : Chars) : Quoted (escape text) text := by
  induction text with
  | nil => exact .nil
  | cons c text ih =>
    unfold escape
    split
    · exact .escaped c ih
    · next plain =>
      rw [not_or] at plain
      exact .plain plain.1 plain.2 ih

theorem present_of_ne {value : Chars} (some_ : value ≠ []) : present value = some value := if_neg some_

/-- A pair as written is an entry of the grammar. -/
theorem Written.entryAt (written : Written e s) (renderable : Renderable e) (stops : AtBreak rest) :
    EntryAt (s ++ rest) e rest := by
  cases written with
  | key key => exact .key renderable.key stops
  | @bare key value plain unquoted =>
    have nonempty := (renderable.value value rfl).1
    have bare : IsBare value := ⟨unquoted, fun c listed blank => plain (blank ▸ listed)⟩
    have entry := EntryAt.bare renderable.key bare stops
    rw [present_of_ne nonempty] at entry
    rwa [List.append_assoc, List.cons_append]
  | quoted key value =>
    have nonempty := (renderable.value value rfl).1
    have entry := @EntryAt.quoted key (escape value) value rest renderable.key (quoted_escape value)
    rw [present_of_ne nonempty] at entry
    simpa only [List.append_assoc, List.cons_append, List.nil_append] using entry

theorem Spaces.atBreak (spaces : Spaces s) (some_ : s ≠ []) (rest : Chars) : AtBreak (s ++ rest) := by
  cases s with
  | nil => exact absurd rfl some_
  | cons c s =>
    intro first found
    cases found
    exact spaces c List.mem_cons_self

theorem Spaces.atBreak_end (spaces : Spaces s) : AtBreak s := by
  intro first found
  exact spaces first (List.mem_of_mem_head? found)

theorem Joined.parses (joined : Joined es body) (renderable : ∀ e ∈ es, Renderable e) (before : Spaces lead)
    (after : Spaces trail) : Parses (lead ++ (body ++ trail)) (.ok es) := by
  induction joined generalizing lead with
  | nil =>
    refine .done fun c listed => ?_
    rcases List.mem_append.mp listed with blank | blank
    · exact before c blank
    · exact after c blank
  | @last e s written =>
    have entry := written.entryAt (renderable e List.mem_cons_self) after.atBreak_end
    exact .entry before entry (.done after)
  | @more e e' es s sp rest written spaces some_ _ ih =>
    have entry := written.entryAt (renderable e List.mem_cons_self) (spaces.atBreak some_ (rest ++ trail))
    have later := ih (fun e' listed => renderable e' (List.mem_cons_of_mem _ listed)) spaces
    have whole : Parses (lead ++ (s ++ (sp ++ (rest ++ trail)))) (.ok (e :: e' :: es)) :=
      .entry before entry later
    rwa [List.append_assoc, List.append_assoc]

/-! ## The accessors find the first pair -/

theorem cpHasKey_texts (k : Chars) : cpHasKey k cp = cp.texts.any fun t => t.1 = some k := by
  rw [cpHasKey, CommandParameters.texts, List.any_map]
  rfl

theorem cpGetString_texts (k : Chars) : cpGetString k cp =
    match cp.texts.find? fun t => t.1 = some k with
    | none => (false, none)
    | some t => (t.2.isSome, t.2) := by
  rw [cpGetString, CommandParameters.texts, List.find?_map]
  have same : ((fun t : Option Chars × Option Chars => decide (t.1 = some k)) ∘ fun i =>
      ((cp.key i).map PoolString.chars, (cp.value i).map PoolString.chars)) =
        fun i => decide ((cp.key i).map (·.chars) = some k) := rfl
  rw [same]
  cases (List.range cp.entries).find? fun i => decide ((cp.key i).map (·.chars) = some k) <;> rfl

/-- What `CPGetString` finds: the value of the first pair with the key. -/
def firstBinding (k : Chars) (es : List Entry) : Bool × Option Chars :=
  match es.find? fun e => e.key = k with
  | none => (false, none)
  | some e => (e.value.isSome, e.value)

section

variable (read : cp.texts = es.map fun e => (some e.key, e.value))

include read

theorem cpHasKey_read (k : Chars) : cpHasKey k cp = true ↔ k ∈ es.map Entry.key := by
  rw [cpHasKey_texts, read, List.any_map, List.any_eq_true, List.mem_map]
  simp only [Function.comp_apply, Option.some.injEq, decide_eq_true_eq]

theorem cpGetString_read (k : Chars) : cpGetString k cp = firstBinding k es := by
  rw [cpGetString_texts, read, List.find?_map, firstBinding]
  have same : ((fun t : Option Chars × Option Chars => decide (t.1 = some k)) ∘ fun e : Entry =>
      (some e.key, e.value)) = fun e => decide (e.key = k) := by
    funext e
    simp only [Function.comp_apply, Option.some.injEq]
  rw [same]
  cases es.find? fun e => decide (e.key = k) <;> rfl

end

/-- A rendering is parsed back, and each key finds its first pair. -/
theorem cpParseCommandParameters_rendering (b : Build) (alloc : Ledger → Nat → Nat) (pairs : List Entry)
    (params : Chars) (stale : CommandParameters) (calls : Ledger)
    (renderable : ∀ e ∈ pairs, Renderable e) (rendering : Rendering pairs params)
    (granted : Granted (parseCalls (cpParseCommandParameters b alloc (some params) (some stale) calls))) :
    ∃ r cp, cpParseCommandParameters b alloc (some params) (some stale) calls = .ok r ∧
      r.ret = pairs.length ∧ r.result = some cp ∧
      cp.texts = (pairs.map fun e => (some e.key, e.value)) ∧
      ∀ k, (cpHasKey k cp = true ↔ k ∈ pairs.map Entry.key) ∧
        cpGetString k cp = firstBinding k pairs := by
  obtain ⟨lead, body, trail, before, joined, after, rfl⟩ := rendering
  have parses := joined.parses renderable before after
  obtain ⟨r, returned, answers⟩ := parseString_parses b alloc calls parses
  have returned : cpParseCommandParameters b alloc (some (lead ++ (body ++ trail))) (some stale) calls =
      .ok r := returned
  rw [returned] at granted
  obtain ⟨ret, cp, result, texts⟩ := answers.starved.resolve_right fun failed => failed granted
  exact ⟨r, cp, returned, ret, result, texts, fun k => ⟨cpHasKey_read texts k, cpGetString_read texts k⟩⟩

/-- `a="x\"y"` and `b`, with two spaces between and one after. -/
def renderedPairs : Chars := [97, 61, 34, 120, 92, 34, 121, 34, 32, 32, 98, 32]

theorem renderedPairs_parsed : ∃ r cp,
    cpParseCommandParameters .target bump (some renderedPairs) (some {}) [] = .ok r ∧ r.ret = 2 ∧
      r.result = some cp ∧ cpHasKey [98] cp = true ∧ cpGetString [98] cp = (false, none) ∧
      cpGetString [97] cp = (true, some [120, 34, 121]) := by
  have renderable : ∀ e ∈ [(⟨[97], some [120, 34, 121]⟩ : Entry), ⟨[98], none⟩], Renderable e := by
    refine List.forall_mem_cons.mpr ⟨?_, List.forall_mem_singleton.mpr ?_⟩
    · exact ⟨⟨by decide, by decide +kernel⟩, by decide, by decide⟩
    · exact ⟨⟨by decide, by decide +kernel⟩, by decide, by decide⟩
  have rendering : Rendering [⟨[97], some [120, 34, 121]⟩, ⟨[98], none⟩] renderedPairs := by
    refine ⟨[], [97, 61, 34, 120, 92, 34, 121, 34, 32, 32, 98], [32], by decide +kernel, ?_, by decide +kernel, rfl⟩
    exact @Joined.more _ _ _ _ [32, 32] _ (.quoted [97] [120, 34, 121]) (by decide +kernel) (by decide) (.last (.key [98]))
  obtain ⟨r, cp, returned, ret, result, -, lookups⟩ := cpParseCommandParameters_rendering .target bump _ renderedPairs
    {} [] renderable rendering (by decide +kernel)
  exact ⟨r, cp, returned, ret, result, (lookups [98]).1.mpr (by decide), (lookups [98]).2, (lookups [97]).2⟩

end Dyndxt.Params
