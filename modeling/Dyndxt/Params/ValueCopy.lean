import Dyndxt.Run.Turn
import Dyndxt.Params.Scan

/-!
# The scanner and the unescaping copy

The unescaping loop of `CommandParametersAppend` by its pointers: it compares
`value_start` with `value_end` before each character and behind each
backslash. Over a value that `ValueEnd` has closed it keeps to the escapes
that the scanner saw, and stops where the scanner did.
-/

namespace Dyndxt.Params
open Dyndxt.Run

/-- What the unescaping loop comes to, with what was written to `dest`. -/
inductive Unescaped where
  | copied (valueStart written : Chars)
  /-- `PCP_ERR_INVALID_INPUT_UNTERMINATED_ESCAPE` -/
  | unterminated (written : Chars)
  /-- A read behind the NUL. -/
  | overread
deriving DecidableEq, Repr

/-- A round of the unescaping loop: `value_start`, and what was written so far. -/
def unescapeTurn (valueEnd : Chars) : Chars × Chars → Turn (Chars × Chars) Unescaped
  | (valueStart, written) =>
    -- behind the loop, *dest = 0
    if valueStart = valueEnd then .leave (.copied valueStart (written ++ [0]))
    else match valueStart with
      | [] => .leave .overread
      | c :: next =>
        if c = backslash then
          if next = valueEnd then .leave (.unterminated written)
          else match next with
            | [] => .leave .overread
            | d :: next => .again (next, written ++ [d])
        else .again (next, written ++ [c])

/-- `value_size` -/
def valueSize (valueStart valueEnd : Chars) : Nat := 1 + (between valueStart valueEnd).length

/-- What the `memcpy` path writes. -/
def memcpyValue (valueStart valueEnd : Chars) : Chars := between valueStart valueEnd ++ [0]

/-- The copy of the range consumes all of it, fits, and is the plain one where
there are no escapes. -/
def CopiesInStep (valueStart valueEnd : Chars) (hasEscapedValues : Bool) : Prop :=
  ∃ written, Returns (unescapeTurn valueEnd) (valueStart, []) (.copied valueEnd written) ∧
    written.length ≤ valueSize valueStart valueEnd ∧
    (hasEscapedValues = false → written = memcpyValue valueStart valueEnd)

variable {input stop raw text written : Chars} {c d : UInt8} {esc : Bool}

/-! ## The loop over a range -/

theorem unescapeTurn_end : unescapeTurn stop (stop, written) = .leave (.copied stop (written ++ [0])) := if_pos rfl

theorem unescapeTurn_plain (unescaped : c ≠ backslash) :
    unescapeTurn stop (c :: (text ++ stop), written) = .again (text ++ stop, written ++ [c]) := by
  have going : c :: (text ++ stop) ≠ stop := append_ne (List.cons_ne_nil c text) stop
  exact (if_neg going).trans (if_neg unescaped)

theorem unescapeTurn_escape : unescapeTurn stop (backslash :: d :: (text ++ stop), written) =
    .again (text ++ stop, written ++ [d]) := by
  have going : backslash :: d :: (text ++ stop) ≠ stop := append_ne (List.cons_ne_nil backslash (d :: text)) stop
  have inside : d :: (text ++ stop) ≠ stop := append_ne (List.cons_ne_nil d text) stop
  exact (if_neg going).trans ((if_pos rfl).trans (if_neg inside))

theorem unescapeTurn_cut : unescapeTurn stop (backslash :: stop, written) = .leave (.unterminated written) := by
  have going : backslash :: stop ≠ stop := append_ne (List.cons_ne_nil backslash []) stop
  exact (if_neg going).trans ((if_pos rfl).trans (if_pos rfl))

/-- The loop over a range is the decoding of the characters in it, whatever
stands behind. -/
theorem unescapeTurn_returns (text stop written : Chars) :
    Returns (unescapeTurn stop) (text ++ stop, written)
      (if (unescape text).2 then .copied stop (written ++ (unescape text).1 ++ [0])
        else .unterminated (written ++ (unescape text).1)) := by
  fun_induction unescape text generalizing written with
  | case1 =>
    rw [List.append_nil]
    exact returns_leave unescapeTurn_end
  | case2 =>
    rw [List.append_nil]
    exact returns_leave unescapeTurn_cut
  | case3 d text ih =>
    refine (Steps.one unescapeTurn_escape).returns ?_
    simpa only [List.append_assoc, List.singleton_append] using ih (written ++ [d])
  | case4 c text unescaped ih =>
    refine (Steps.one (unescapeTurn_plain unescaped)).returns ?_
    simpa only [List.append_assoc, List.singleton_append] using ih (written ++ [c])

/-! ## What the scanner closes -/

/-- A scan that stops at a closing quote has passed characters whose escapes
are complete. -/
theorem quotedEnd_closing (scanned : quotedEnd false input = some (stop, esc)) (closed : stop.head? = some quote) :
    ∃ raw text, Quoted raw text ∧ input = raw ++ stop ∧ esc = decide (backslash ∈ raw) := by
  obtain ⟨raw, text, quoted, ⟨rest, rfl⟩ | rfl | rfl⟩ := quoted_cases input
  · rw [quotedEnd_closed quoted] at scanned
    cases scanned
    exact ⟨raw, text, quoted, rfl, rfl⟩
  · obtain ⟨esc', unterminated⟩ := quotedEnd_unterminated quoted false
    cases scanned.symm.trans unterminated
    cases closed
  · cases scanned.symm.trans (quotedEnd_cutOff quoted false)

theorem Quoted.length_le (quoted : Quoted raw text) : text.length ≤ raw.length := by
  induction quoted with
  | nil => exact Nat.le_refl _
  | plain _ _ _ ih => exact Nat.succ_le_succ ih
  | escaped c _ ih => exact Nat.le_succ_of_le (Nat.succ_le_succ ih)

/-- Where `ValueEnd` closes a quoted value, the unescaping copy of what is
between the quotes stays in step with it. -/
theorem valueEnd_copies (start stop : Chars) (esc : Bool) (opened : start.head? = some quote)
    (scanned : valueEnd start = some (stop, esc)) (closed : stop.head? = some quote) :
    CopiesInStep start.tail stop esc := by
  rw [valueEnd, if_pos opened] at scanned
  obtain ⟨raw, text, quoted, whole, escapes⟩ := quotedEnd_closing scanned closed
  have returns := unescapeTurn_returns raw stop []
  rw [unescape_quoted quoted, if_pos rfl, List.nil_append] at returns
  rw [whole]
  refine ⟨text ++ [0], returns, ?_, fun plain => ?_⟩
  · rw [valueSize, between_append, List.length_append, List.length_singleton, Nat.add_comm]
    exact Nat.add_le_add_left quoted.length_le 1
  · rw [memcpyValue, between_append, quoted_plain quoted]
    rw [escapes] at plain
    exact of_decide_eq_false plain

/-- `"x\"y"` is copied as `x"y`. -/
theorem escapedQuote_copies : CopiesInStep [120, 92, 34, 121, 34] [34] true :=
  valueEnd_copies [34, 120, 92, 34, 121, 34] [34] true rfl (by decide +kernel) rfl

end Dyndxt.Params
