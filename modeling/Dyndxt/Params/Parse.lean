import Dyndxt.Run.Countdown
import Dyndxt.Params.CommandParameters

/-!
# `CPParseCommandParameters`

The parser's loop over its entries. Every round moves `key_start` on, so the
loop is a function of its state.
-/

namespace Dyndxt.Params
open Dyndxt.Pool Dyndxt.Run

/-- What one entry's scan finds: a read behind the NUL, an error, or the
pointers that are appended. -/
inductive Scanned where
  | overread
  | refused (e : PcpErr)
  | entry (keyEnd : Chars) (value : Option (Chars × Chars)) (valueNeedsUnescaping : Bool) (entryEnd : Chars)
deriving DecidableEq, Repr

/-- The scan of the value after an equals sign. -/
def scanValue (keyStop valueStart : Chars) : Scanned :=
  match valueEnd valueStart with
  | none => .overread
  | some (stop, valueNeedsUnescaping) =>
    if valueStart.head? = some quote then
      if stop.head? ≠ some quote then .refused .invalidInputUnterminatedQuotedKey
      else .entry keyStop (some (valueStart.tail, stop)) valueNeedsUnescaping stop.tail
    else .entry keyStop (some (valueStart, stop)) valueNeedsUnescaping stop

/-- The scan of one entry, in the loop's body. -/
def scanEntry (keyStart : Chars) : Scanned :=
  let keyStop := keyEnd keyStart
  if keyStop = keyStart then .refused .invalidKey
  else if keyStop.head? = some equals then scanValue keyStop keyStop.tail
  else .entry keyStop none false keyStop

/-! ## Scanners only move on -/

theorem quotedEnd_suffix {esc esc' : Bool} {input stop : Chars}
    (h : quotedEnd esc input = some (stop, esc')) : stop <:+ input := by
  fun_induction quotedEnd esc input with
  | case1 esc => cases h; exact List.suffix_rfl
  | case2 esc input => cases h; exact List.suffix_rfl
  | case3 esc => cases h
  | case4 esc c input _ ih => exact (ih h).trans ((List.suffix_cons _ _).trans (List.suffix_cons _ _))
  | case5 esc c input _ _ ih => exact (ih h).trans (List.suffix_cons _ _)

theorem valueEnd_suffix {esc : Bool} {input stop : Chars} (h : valueEnd input = some (stop, esc)) :
    stop <:+ input := by
  unfold valueEnd at h
  split at h
  · exact (quotedEnd_suffix h).trans (List.tail_suffix _)
  · cases h
    exact List.dropWhile_suffix _

theorem scanEntry_shorter {keyStart keyStop entryEnd : Chars} {value : Option (Chars × Chars)} {esc : Bool}
    (h : scanEntry keyStart = .entry keyStop value esc entryEnd) : entryEnd.length < keyStart.length := by
  unfold scanEntry at h
  dsimp only at h
  split at h
  · cases h
  · next moved =>
    have key : keyEnd keyStart <:+ keyStart := List.dropWhile_suffix _
    have shorter : (keyEnd keyStart).length < keyStart.length :=
      Nat.lt_of_le_of_ne key.length_le fun same => moved (key.eq_of_length same)
    split at h
    · refine Nat.lt_of_le_of_lt ?_ shorter
      refine Nat.le_trans ?_ (List.tail_suffix (keyEnd keyStart)).length_le
      unfold scanValue at h
      split at h
      · cases h
      · next stop esc scanned =>
        have inside := (valueEnd_suffix scanned).length_le
        split at h
        · split at h
          · cases h
          · cases h
            exact Nat.le_trans (List.tail_suffix stop).length_le inside
        · cases h
          exact inside
    · cases h
      exact shorter

/-! ## The loop -/

structure ParseResult where
  ret : Int
  result : Option CommandParameters
  calls : Ledger
deriving DecidableEq, Repr

/-- `CPDelete(result)` and the return of an error. -/
def refuse (e : PcpErr) (cp : CommandParameters) (calls : Ledger) : ParseResult :=
  let (cp, calls) := cpDelete cp calls
  { ret := e.code, result := some cp, calls }

section

variable (b : Build) (alloc : Ledger → Nat → Nat)

/-- A round of the loop from `key_start`. An error is a read behind the NUL,
with the pool calls made until then. -/
def parseTurn : Chars × ParseState → Turn (Chars × ParseState) (Except Ledger ParseResult)
  | ([], s) => .leave (.ok { ret := s.cp.entries, result := some s.cp, calls := s.calls })
  | (keyStart@(_ :: _), s) => match scanEntry keyStart with
    | .overread => .leave (.error s.calls)
    | .refused e => .leave (.ok (refuse e s.cp s.calls))
    | .entry keyStop value valueNeedsUnescaping entryEnd =>
      match commandParametersAppend b alloc keyStart keyStop value valueNeedsUnescaping s with
      | (some setResult, s) => .leave (.ok (refuse setResult s.cp s.calls))
      | (none, s) => .again (firstNonSpace entryEnd, s)

theorem parseTurn_lowers (s s' : Chars × ParseState) (h : parseTurn b alloc s = .again s') :
    s'.1.length < s.1.length := by
  unfold parseTurn at h
  split at h
  · cases h
  · split at h
    · cases h
    · cases h
    · next scanned =>
      split at h
      · cases h
      · cases h
        exact Nat.lt_of_le_of_lt (List.dropWhile_suffix _).length_le (scanEntry_shorter scanned)

def parseLoop : Countdown (Chars × ParseState) (Except Ledger ParseResult) where
  turn := parseTurn b alloc
  rank := fun s => s.1.length
  lowers := parseTurn_lowers b alloc

/-- `CPParseCommandParameters` of a string. -/
def parseString (params : Chars) (calls : Ledger) : Except Ledger ParseResult :=
  let maxEntries := defaultCommandParameterReserveSize
  match commandParametersReserve b alloc maxEntries {} calls with
  | (false, cp, calls) => .ok (refuse .outOfMemory cp calls)
  | (true, cp, calls) =>
    let keyStart := firstNonSpace params
    if keyStart = [] then
      let (cp, calls) := cpDelete cp calls
      .ok { ret := 0, result := some cp, calls }
    else (parseLoop b alloc).result (keyStart, { maxEntries, cp, calls })

/-- `CPParseCommandParameters`, either pointer possibly null. -/
def cpParseCommandParameters (params : Option Chars) (result : Option CommandParameters) (calls : Ledger) :
    Except Ledger ParseResult :=
  match result, params with
  | none, _ => .ok { ret := PcpErr.invalidInput.code, result := none, calls }
  | some _, none => .ok { ret := PcpErr.invalidInput.code, result := some {}, calls }
  | some _, some params => parseString b alloc params calls

end

end Dyndxt.Params
