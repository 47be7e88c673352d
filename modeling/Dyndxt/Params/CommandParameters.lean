import Dyndxt.Build
import Dyndxt.Pool.DmPool

/-!
# `command_processor_util.c`: the parsed parameters and the scanners

A string is the list of its characters before the NUL and a pointer into it
the list from there on: `*p` is `p.head?`, the NUL being `none`, and `p + 1`
is `p.tail`. Of the pool's arrays only the slots that were written are listed.
-/

namespace Dyndxt.Params
open Dyndxt.Pool

/-- The characters from a pointer to the NUL. -/
abbrev Chars := List UInt8

def space : UInt8 := 0x20
def quote : UInt8 := 0x22
def equals : UInt8 := 0x3D
def backslash : UInt8 := 0x5C

/-- The `PCP_ERR_` codes. -/
inductive PcpErr where
  | invalidInput
  | outOfMemory
  | invalidKey
  | invalidInputUnterminatedQuotedKey
  | invalidInputUnterminatedEscape
deriving DecidableEq, Repr

def PcpErr.code : PcpErr → Int
  | .invalidInput => -1
  | .outOfMemory => -2
  | .invalidKey => -10
  | .invalidInputUnterminatedQuotedKey => -11
  | .invalidInputUnterminatedEscape => -12

/-- `DEFAULT_COMMAND_PARAMETER_RESERVE_SIZE`. -/
def defaultCommandParameterReserveSize : Nat := 4

/-- A pool block of string pointers. -/
structure PtrArray where
  block : Nat
  slots : List (Option PoolString)
deriving DecidableEq, Repr

structure CommandParameters where
  entries : Nat := 0
  keys : Option PtrArray := none
  values : Option PtrArray := none
deriving DecidableEq, Repr

/-- `cp->keys[i]`. -/
def CommandParameters.key (cp : CommandParameters) (i : Nat) : Option PoolString :=
  cp.keys.bind fun a => a.slots[i]?.join

/-- `cp->values[i]`. -/
def CommandParameters.value (cp : CommandParameters) (i : Nat) : Option PoolString :=
  cp.values.bind fun a => a.slots[i]?.join

def PtrArray.set (a : PtrArray) (i : Nat) (s : Option PoolString) : PtrArray :=
  { a with slots := a.slots.set i s }

def CommandParameters.setKey (cp : CommandParameters) (i : Nat) (s : Option PoolString) : CommandParameters :=
  { cp with keys := cp.keys.map fun a => a.set i s }

def CommandParameters.setValue (cp : CommandParameters) (i : Nat) (s : Option PoolString) : CommandParameters :=
  { cp with values := cp.values.map fun a => a.set i s }

/-! ## Scanners -/

/-- `FirstNonSpace`. -/
def firstNonSpace (input : Chars) : Chars := input.dropWhile fun c => c = space

/-- `KeyEnd`. -/
def keyEnd (input : Chars) : Chars := input.dropWhile fun c => c ≠ space ∧ c ≠ equals

/-- The loop of `ValueEnd` after an opening quote. A backslash steps over the
character after it; over the NUL, the loop goes on reading behind it. -/
def quotedEnd (hasEscapedValues : Bool) : Chars → Option (Chars × Bool)
  | [] => some ([], hasEscapedValues)
  | c :: input =>
    if c = quote then some (c :: input, hasEscapedValues)
    else if c = backslash then match input with
      | [] => none
      | _ :: input => quotedEnd true input
    else quotedEnd hasEscapedValues input

/-- The loop of `ValueEnd` over a bare value. -/
def bareEnd (input : Chars) : Chars := input.dropWhile fun c => c ≠ space

/-- `ValueEnd`, with `*has_escaped_values`; `none` is a read behind the NUL. -/
def valueEnd (input : Chars) : Option (Chars × Bool) :=
  if input.head? = some quote then quotedEnd false input.tail else some (bareEnd input, false)

/-! ## The pool -/

/-- `DmFreePool` of an array that is not null. -/
def freeArray (calls : Ledger) : Option PtrArray → Ledger
  | some a => .free a.block :: calls
  | none => calls

/-- `CPDelete`. -/
def cpDelete (cp : CommandParameters) (calls : Ledger) : CommandParameters × Ledger :=
  let calls := (List.range cp.entries).foldl
    (fun calls i => freeString (freeString calls (cp.key i)) (cp.value i)) calls
  ({ entries := 0, keys := none, values := none }, freeArray (freeArray calls cp.keys) cp.values)

/-- The slots that a larger array takes over. -/
def CommandParameters.moved (cp : CommandParameters) (old : Option PtrArray) (block : Nat) : PtrArray where
  block := block
  slots := (old.map fun a => a.slots.take cp.entries).getD []

/-- The slots from `entries` on set to null. -/
def PtrArray.clear (a : PtrArray) (entries maxEntries : Nat) : PtrArray :=
  { a with slots := a.slots.take entries ++ List.replicate (maxEntries - entries) none }

section

variable (b : Build) (alloc : Ledger → Nat → Nat)

/-- `CommandParametersReserve`. -/
def commandParametersReserve (maxEntries : Nat) (cp : CommandParameters) (calls : Ledger) :
    Bool × CommandParameters × Ledger :=
  let newSize := b.sizeofPtr * maxEntries % 2 ^ 32
  let (newKeys, calls) := dmAllocatePoolWithTag alloc calls newSize
  if newKeys = 0 then (false, cp, calls)
  else
    let calls := freeArray calls cp.keys
    let cp := { cp with keys := some (cp.moved cp.keys newKeys) }
    let (newValues, calls) := dmAllocatePoolWithTag alloc calls newSize
    if newValues = 0 then (false, cp, calls)
    else
      let calls := freeArray calls cp.values
      let cp := { cp with values := some (cp.moved cp.values newValues) }
      (true, { cp with
        keys := cp.keys.map fun a => a.clear cp.entries maxEntries
        values := cp.values.map fun a => a.clear cp.entries maxEntries }, calls)

/-! ## Appending -/

/-- The characters from one pointer to a later one. -/
def between (start stop : Chars) : Chars := start.take (start.length - stop.length)

/-- The unescaping loop over a value: what it writes, and whether it reaches
the value's end and not an escape without a character. -/
def unescape : Chars → Chars × Bool
  | [] => ([], true)
  | c :: input =>
    if c = backslash then match input with
      | [] => ([], false)
      | d :: input => (d :: (unescape input).1, (unescape input).2)
    else (c :: (unescape input).1, (unescape input).2)

/-- What a parse has collected. -/
structure ParseState where
  maxEntries : Nat
  cp : CommandParameters
  calls : Ledger
deriving DecidableEq, Repr

/-- Room for one more entry. -/
def ParseState.reserve (s : ParseState) : Bool × ParseState :=
  if s.cp.entries = s.maxEntries then
    let maxEntries := s.maxEntries * 2
    let (reserved, cp, calls) := commandParametersReserve b alloc maxEntries s.cp s.calls
    (reserved, { maxEntries, cp, calls })
  else (true, s)

/-- The value of the entry appended last; `none` for a null `value_start`. -/
def appendValue (value : Option (Chars × Chars)) (valueNeedsUnescaping : Bool) (index : Nat)
    (s : ParseState) : Option PcpErr × ParseState :=
  match value with
  | none => (none, s)
  | some (valueStart, valueEnd) =>
    if valueStart = valueEnd then (none, s)
    else
      let text := between valueStart valueEnd
      let valueSize := (1 + text.length) % 2 ^ 32
      let (dest, calls) := dmAllocatePoolWithTag alloc s.calls valueSize
      if dest = 0 then (some .outOfMemory, { s with cp := s.cp.setValue index none, calls })
      else if valueNeedsUnescaping = false then
        (none, { s with cp := s.cp.setValue index (some ⟨dest, text⟩), calls })
      else
        let (written, whole) := unescape text
        let s := { s with cp := s.cp.setValue index (some ⟨dest, written⟩), calls }
        (if whole then none else some .invalidInputUnterminatedEscape, s)

/-- `CommandParametersAppend`; `none` is its return of 0. -/
def commandParametersAppend (keyStart keyEnd : Chars) (value : Option (Chars × Chars))
    (valueNeedsUnescaping : Bool) (s : ParseState) : Option PcpErr × ParseState :=
  match s.reserve b alloc with
  | (false, s) => (some .outOfMemory, s)
  | (true, s) =>
    let index := s.cp.entries
    let keySize := (1 + (between keyStart keyEnd).length) % 2 ^ 32
    let (dest, calls) := dmAllocatePoolWithTag alloc s.calls keySize
    if dest = 0 then (some .outOfMemory, { s with cp := s.cp.setKey index none, calls })
    else
      let cp := s.cp.setKey index (some ⟨dest, between keyStart keyEnd⟩)
      let s := { s with cp := { cp with entries := cp.entries + 1 }, calls }
      appendValue alloc value valueNeedsUnescaping index s

end

end Dyndxt.Params
