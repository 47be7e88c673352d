import Dyndxt.Build
import Dyndxt.Mem.Bytes
import Dyndxt.Run.Turn

/-!
# `bootstrap_l2.asm`: strings and numbers

The bootstrap's subroutines on strings, by registers, in one flat memory. A
loop is a machine that is run on a budget of rounds; `none` is a loop that is
still going when the budget is spent.
-/

namespace Dyndxt.Bootstrap
open Dyndxt.Mem Dyndxt.Run

/-- `byte [p]` -/
def load8 (m : Bytes) (p : UInt32) : UInt8 := m p.toNat

/-- `mov byte [p], v` -/
def store8 (m : Bytes) (p : UInt32) (v : UInt8) : Bytes := store Build.target.space m p.toNat 1 fun _ => v

/-- What a loop leaves with. -/
def left {σ ρ : Type} : Turn σ ρ → Option ρ
  | .again _ => none
  | .leave r => some r

/-! ## `strcpy` -/

/-- A round of `strcpy`: the memory, the destination in `eax` and the source in
`edx`. -/
def strcpyTurn : Bytes × UInt32 × UInt32 → Turn (Bytes × UInt32 × UInt32) (Bytes × UInt32)
  | (m, eax, edx) =>
    let cl := load8 m edx
    if cl = 0 then .leave (store8 m eax 0, eax) else .again (store8 m eax cl, eax + 1, edx + 1)

/-- `strcpy`, with the address of the terminator that it leaves in `eax`. -/
def strcpy (budget : Nat) (m : Bytes) (dst src : UInt32) : Option (Bytes × UInt32) :=
  left (run strcpyTurn budget (m, dst, src))

/-! ## `parse_integer` -/

/-- A round of `parse_integer`: the value in `eax` and the pointer in `esi`. -/
def parseIntegerTurn (m : Bytes) : UInt32 × UInt32 → Turn (UInt32 × UInt32) (UInt32 × UInt32)
  | (eax, esi) =>
    let ecx := load8 m esi
    let accumulate (digit : UInt8) : Turn (UInt32 × UInt32) (UInt32 × UInt32) :=
      .again ((eax <<< 4) + digit.toUInt32, esi + 1)
    if ecx = 0 then .leave (eax, esi)
    else if ecx < 0x30 then .leave (eax, esi)
    else if ecx ≤ 0x39 then accumulate (ecx - 0x30)
    else if ecx < 0x41 then .leave (eax, esi)
    else if ecx ≤ 0x46 then accumulate (ecx - 0x41 + 10)
    else if ecx < 0x61 then .leave (eax, esi)
    -- `jg .lowercase_hex` jumps back to its own comparison
    else if ecx > 0x66 then .again (eax, esi)
    else accumulate (ecx - 0x61 + 10)

/-- `parse_integer`, with `eax` and `esi` as it leaves them. -/
def parseInteger (budget : Nat) (m : Bytes) (eax esi : UInt32) : Option (UInt32 × UInt32) :=
  if load8 m esi = 0x30 ∧ load8 m (esi + 1) = 0x78 then
    left (run (parseIntegerTurn m) budget (0, esi + 2))
  else some (eax, esi)

/-! ## `integer_to_hex` -/

/-- A round of the digit loop: the memory, the rest of the value in `ecx` and
the pointer in `edi`. -/
def hexTurn (gHexChars : UInt32) : Bytes × UInt32 × UInt32 → Turn (Bytes × UInt32 × UInt32) (Bytes × UInt32)
  | (m, ecx, edi) =>
    if ecx = 0 then .leave (m, edi)
    else .again (store8 m edi (load8 m (gHexChars + (ecx &&& 0x0F))), ecx >>> 4, edi + 1)

/-- A round of the reversal: the memory and the two pointers. -/
def reverseTurn : Bytes × UInt32 × UInt32 → Turn (Bytes × UInt32 × UInt32) Bytes
  | (m, edx, edi) =>
    let al := load8 m edx
    let m' := store8 (store8 m edi al) edx (load8 m edi)
    -- jl compares signed
    if (edx + 1).toInt32 < (edi - 1).toInt32 then .again (m', edx + 1, edi - 1) else .leave m'

/-- `integer_to_hex` of `eax` to the buffer at `edi`. -/
def integerToHex (budget : Nat) (gHexChars : UInt32) (m : Bytes) (eax edi : UInt32) : Option Bytes := do
  let m := store8 (store8 m edi 0x30) (edi + 1) 0x78
  let (m, stop) ← left (run (hexTurn gHexChars) budget (m, eax, edi + 2))
  left (run reverseTurn budget (store8 m stop 0, edi + 2, stop - 1))

/-! ## `parse_arg` -/

/-- `repe cmpsb` with `ecx` bytes to compare: the bytes left, `esi`, `edi` and
whether the last comparison was equal. -/
def repeCmpsb (m : Bytes) : Nat → UInt32 → UInt32 → Nat × UInt32 × UInt32 × Bool
  | 0, esi, edi => (0, esi, edi, true)
  | ecx + 1, esi, edi =>
    if load8 m esi = load8 m edi then repeCmpsb m ecx (esi + 1) (edi + 1)
    else (ecx, esi + 1, edi + 1, false)

/-- The registers that `parse_arg` returns. -/
structure ParsedArg where
  eax : UInt32
  ecx : UInt32
  esi : UInt32
deriving DecidableEq, Repr

/-- `parse_arg` of the text at `esi` and the specifier of `ecx` bytes at `edi`. -/
def parseArg (budget : Nat) (m : Bytes) (eax esi edi : UInt32) (ecx : Nat) : Option ParsedArg :=
  let (rest, stop, edi, equal) := repeCmpsb m ecx esi edi
  if equal = false ∨ rest ≠ 0 then some { eax, ecx := 1, esi }
  else match parseInteger budget m esi stop with
    | none => none
    -- `test edi, ecx` is the bits that the two pointers have in common
    | some (eax, esi) => some { eax, ecx := if edi &&& stop = 0 then 1 else 0, esi }

end Dyndxt.Bootstrap
