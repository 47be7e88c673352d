import Dyndxt.Params.Accepts

/-!
# Quoted values that are not closed

A value whose closing quote is missing is refused, unless its last character
is a backslash that escapes nothing: there the scanner steps over the NUL and
reads on behind it. So the strings the parser keeps to are those that are not
cut off.
-/

namespace Dyndxt.Params
open Dyndxt.Pool Dyndxt.Run

/-- A quoted value of the string is cut off: before its closing quote, or
directly after a backslash. -/
def Unclosed (params : Chars) : Prop :=
  Parses params (.error .invalidInputUnterminatedQuotedKey) ∨ CutOff params

/-- No parse of the string reads behind its NUL, and one of an unclosed value
is an error with an emptied result. -/
def KeepsTo (params : Chars) : Prop :=
  ∀ (b : Build) (alloc : Ledger → Nat → Nat) (stale : CommandParameters) (calls : Ledger),
    ∃ r, cpParseCommandParameters b alloc (some params) (some stale) calls = .ok r ∧
      (Unclosed params → r.ret < 0 ∧ r.result = some {})

variable {params : Chars}

theorem bump_some (calls : Ledger) (size : Nat) : bump calls size ≠ 0 := by
  unfold bump
  omega

/-- With a pool that never runs out, a string that is cut off is read behind
its NUL. -/
theorem CutOff.overread (cut : CutOff params) (b : Build) (calls : Ledger) :
    ∃ calls', parseString b bump params calls = .error calls' := by
  have ends := parseString_cutOff b bump calls cut
  cases returned : parseString b bump params calls with
  | error calls' => exact ⟨calls', rfl⟩
  | ok r =>
    rw [returned] at ends
    obtain ⟨earlier, size, -, -, null⟩ := ends.2
    exact absurd null (bump_some earlier size)

/-- The parser keeps to its string, and refuses a value that is not closed,
exactly when the string is not cut off directly after an escaping backslash. -/
theorem cpParseCommandParameters_keepsTo (params : Chars) : KeepsTo params ↔ ¬ CutOff params := by
  constructor
  · intro keeps cut
    obtain ⟨r, returned, -⟩ := keeps .target bump {} []
    obtain ⟨calls, overread⟩ := cut.overread .target []
    exact nomatch returned.symm.trans overread
  · intro whole b alloc stale calls
    obtain ⟨out, parses⟩ := (parses_or_cutOff params).resolve_right whole
    obtain ⟨r, returned, -⟩ := parseString_parses b alloc calls parses
    refine ⟨r, returned, fun unclosed => ?_⟩
    obtain ⟨r', returned', answers⟩ :=
      parseString_parses b alloc calls (unclosed.resolve_right whole)
    cases returned.symm.trans returned'
    rcases answers with ⟨reports, -⟩ | ⟨reports, -⟩
    · exact reports.refused
    · exact reports.refused

/-- `a="\` -/
def cutValue : Chars := [97, 61, 34, 92]

/-- The arrays are allocated, and the scan of the value runs over the NUL. -/
theorem cutValue_overread : Unclosed cutValue ∧ ¬ KeepsTo cutValue := by
  constructor
  · have key : IsKey [97] := ⟨by simp, List.forall_mem_singleton.mpr (by decide)⟩
    exact .inr (@CutOff.here [] _ (by simp [Spaces]) (.escape key .nil))
  · intro keeps
    obtain ⟨r, returned, -⟩ := keeps .target bump {} []
    have overread : (cpParseCommandParameters .target bump (some cutValue) (some {}) []).isOk = false := by
      decide +kernel
    rw [returned] at overread
    cases overread

end Dyndxt.Params
