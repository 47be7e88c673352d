import Mathlib.Algebra.Group.Int.Defs
import Dyndxt.Params.Parse

/-!
# Looking up parameters

`CPHasKey`, `CPGetString`, `CPGetUInt32` and `CPGetInt32`, with the standard library's
`strtoul` and `strtol` of base 0: white space, a sign, a prefix that tells the
base, and digits.
-/

namespace Dyndxt.Params

/-! ## `strtoul` -/

/-- `isspace` in the C locale. -/
def isSpace (c : UInt8) : Bool := c = space ∨ 0x09 ≤ c ∧ c ≤ 0x0D

/-- The value of a digit, in any base up to 36. -/
def digitValue (c : UInt8) : Option Nat :=
  if 0x30 ≤ c ∧ c ≤ 0x39 then some (c.toNat - 0x30)
  else if 0x61 ≤ c ∧ c ≤ 0x7A then some (c.toNat - 0x61 + 10)
  else if 0x41 ≤ c ∧ c ≤ 0x5A then some (c.toNat - 0x41 + 10)
  else none

/-- A digit of the base. -/
def digitOf (base : Nat) (c : UInt8) : Option Nat := (digitValue c).filter (· < base)

/-- The digits at a pointer: the value they add to, and the pointer after. -/
def readDigits (base : Nat) (value : Nat) : Chars → Nat × Chars
  | [] => (value, [])
  | c :: input => match digitOf base c with
    | some d => readDigits base (value * base + d) input
    | none => (value, c :: input)

/-- The optional sign; true is a minus. -/
def readSign : Chars → Bool × Chars
  | [] => (false, [])
  | c :: input =>
    if c = 0x2D then (true, input) else if c = 0x2B then (false, input) else (false, c :: input)

/-- The base a prefix tells, and the pointer to the digits. A `0x` counts only
before a digit. -/
def readBase : Chars → Nat × Chars
  | 0x30 :: x :: c :: input =>
    if (x = 0x78 ∨ x = 0x58) ∧ (digitOf 16 c).isSome then (16, c :: input) else (8, 0x30 :: x :: c :: input)
  | 0x30 :: input => (8, 0x30 :: input)
  | input => (10, input)

/-- An integer with base 0 at a pointer: its sign, its magnitude and the
pointer after it; `none` if there are no digits. -/
def readInteger (input : Chars) : Option (Bool × Nat × Chars) :=
  let (negative, digits) := readSign (input.dropWhile isSpace)
  let (base, digits) := readBase digits
  let (magnitude, stop) := readDigits base 0 digits
  if stop.length = digits.length then none else some (negative, magnitude, stop)

/-- `strtoul` with base 0 and a `long` of so many bits, and `*end`. -/
def strtoul (longBits : Nat) (input : Chars) : Nat × Chars :=
  match readInteger input with
  | none => (0, input)
  | some (negative, magnitude, stop) =>
    if 2 ^ longBits ≤ magnitude then (2 ^ longBits - 1, stop)
    else if negative then ((2 ^ longBits - magnitude) % 2 ^ longBits, stop)
    else (magnitude, stop)

/-- `strtol` with base 0 and a `long` of so many bits, and `*end`. -/
def strtol (longBits : Nat) (input : Chars) : Int × Chars :=
  match readInteger input with
  | none => (0, input)
  | some (negative, magnitude, stop) =>
    if negative then
      if 2 ^ (longBits - 1) < magnitude then (-2 ^ (longBits - 1), stop) else (-magnitude, stop)
    else if 2 ^ (longBits - 1) ≤ magnitude then (2 ^ (longBits - 1) - 1, stop)
    else (magnitude, stop)

/-! ## Accessors -/

/-- `CPHasKey` of pointers that are not null. -/
def cpHasKey (key : Chars) (cp : CommandParameters) : Bool :=
  (List.range cp.entries).any fun i => (cp.key i).map (·.chars) = some key

/-- `CPGetString`, with `*result`, of pointers that are not null. -/
def cpGetString (key : Chars) (cp : CommandParameters) : Bool × Option Chars :=
  match (List.range cp.entries).find? fun i => (cp.key i).map (·.chars) = some key with
  | none => (false, none)
  | some i => (((cp.value i).map (·.chars)).isSome, (cp.value i).map (·.chars))

/-- `CPGetUInt32`, with `*result`, of pointers that are not null. -/
def cpGetUInt32 (longBits : Nat) (key : Chars) (cp : CommandParameters) : Bool × UInt32 :=
  match cpGetString key cp with
  | (true, some stringValue) =>
    let (result, stop) := strtoul longBits stringValue
    if stop.length = stringValue.length then (false, .ofNat result)
    else if stop ≠ [] then (false, 0)
    else (true, .ofNat result)
  | _ => (false, 0)

/-- `CPGetInt32`, with `*result`, of pointers that are not null. -/
def cpGetInt32 (longBits : Nat) (key : Chars) (cp : CommandParameters) : Bool × Int32 :=
  match cpGetString key cp with
  | (true, some stringValue) =>
    let (result, stop) := strtol longBits stringValue
    if stop.length = stringValue.length then (false, .ofInt result)
    else if stop ≠ [] then (false, 0)
    else (true, .ofInt result)
  | _ => (false, 0)

end Dyndxt.Params
