import Dyndxt.Build
import Dyndxt.Pool.Ledger
import Dyndxt.Loader.Winnt

/-!
# The loader's context

`DLLLoaderInput`, `DLLLoaderOutput` and the memory a load works on. The raw
file, the section header table and the image are separate objects: a pointer
derived from one of them reads and writes the address space around that one
only, and `raw` and `image` give the byte at each offset from its start. An
access that leaves its object is not stopped here any more than in C; every
raw read and every image write is on a log, so that a theorem can say where
they fall.
-/

namespace Dyndxt.Loader
open Dyndxt.Mem Dyndxt.Pool

inductive DllLoaderContext where
  | notParsed
  | dosHeader
  | ntHeader
  | ntHeaderSectionTable
  | loadImage
  | loadSection
  | resolveImports
  | relocate
  | invokeTlsCallbacks
deriving DecidableEq, Repr

inductive DllLoaderStatus where
  | ok
  | error
  | fileTooSmall
  | invalidSignature
  | wrongMachineType
  | fixedBase
  | outOfMemory
  | dllForwardingNotSupported
  | unresolvedImport
  | noRelocationData
  | unsupportedRelocationType
deriving DecidableEq, Repr

/-- A resolver call. -/
inductive Query where
  | byOrdinal (image : List UInt8) (ordinal : UInt32)
  | byName (image name : List UInt8)
deriving DecidableEq, Repr

/-- A resolver's answer: the value returned, and the address stored through
`result`, if it stored one. -/
structure Resolved where
  found : Bool
  result : Option UInt32
deriving DecidableEq, Repr

/-- `DLLLoaderInput`. `raw` is the memory around `rawData`, by offset. The
allocator and the resolvers may answer by everything they were asked before;
an allocator answers `0` for a failure. -/
structure DllLoaderInput where
  rawData : Nat
  raw : Bytes
  rawDataSize : UInt32
  alloc : Ledger → Nat → Nat
  resolveImportByOrdinal : List Query → List UInt8 → UInt32 → Resolved
  resolveImportByName : List Query → List UInt8 → List UInt8 → Resolved

/-- `DLLLoaderOutput`; a null pointer is `0`. -/
structure DllLoaderOutput where
  header : ImageNtHeaders32 := {}
  sectionHeaders : Nat := 0
  image : Nat := 0
  entrypoint : UInt32 := 0
  context : DllLoaderContext := .notParsed
  status : DllLoaderStatus := .ok
  errorMessage : List UInt8 := []

/-- The output with the memory behind its pointers: the table at
`output.sectionHeaders` and the bytes around `output.image` (before the image
is allocated, what the block holds when it is). `calls` and `queries` are the
calls made so far, newest first; `rawReads` and `imageWrites` are the access
logs. -/
structure DllContext where
  output : DllLoaderOutput := {}
  sectionTable : List ImageSectionHeader := []
  image : Bytes
  calls : Ledger := []
  queries : List Query := []
  rawReads : List Span := []
  imageWrites : List Span := []

/-- A pass over the context: `ok` is `return true`, `error` is `return false`,
each with the context it leaves. -/
abbrev Pass := Except DllContext DllContext

/-- `SET_ERROR_CONTEXT`. -/
def DllContext.setErrorContext (ctx : DllContext) (value : DllLoaderContext) : DllContext :=
  { ctx with output := { ctx.output with context := value } }

/-- `SET_ERROR_STATUS`. -/
def DllContext.setErrorStatus (ctx : DllContext) (value : DllLoaderStatus) : DllContext :=
  { ctx with output := { ctx.output with status := value } }

def dlllMaxErrorLen : Nat := 256

/-- The bytes of a C literal. -/
def ascii (s : String) : List UInt8 := s.toList.map fun c => UInt8.ofNat c.toNat

/-- `SET_ERROR_MESSAGE`. -/
def DllContext.setErrorMessage (ctx : DllContext) (len : Nat) (message : List UInt8) : DllContext :=
  { ctx with output := { ctx.output with
      errorMessage := if len ≥ dlllMaxErrorLen then ascii "TOOSMALL" else message } }

/-- Go on if `p`, else set the status and return false. -/
def DllContext.require (ctx : DllContext) (p : Prop) [Decidable p] (status : DllLoaderStatus) :
    Except DllContext Unit :=
  if p then .ok () else .error (ctx.setErrorStatus status)

/-- A read of `len` raw bytes at offset `off`. -/
def DllContext.readRaw (ctx : DllContext) (off len : Nat) : DllContext :=
  { ctx with rawReads := ⟨off, len⟩ :: ctx.rawReads }

section Accesses

variable (b : Build) (inp : DllLoaderInput)

/-- One past the raw data, as `SETUP_READ_PTR` computes it. -/
def DllLoaderInput.eof : Nat := (inp.rawData + inp.rawDataSize.toNat) % b.space

/-- `ADVANCE_READ_PTR`: the pointer moved up, unless that takes it past `eof`. -/
def DllContext.advanceReadPtr (ctx : DllContext) (readPtr bytes : Nat) : Except DllContext Nat :=
  let readPtr := (readPtr + bytes) % b.space
  if readPtr > inp.eof b then .error (ctx.setErrorStatus .fileTooSmall) else .ok readPtr

/-- A file structure of `field` bytes that is read as one of `size`: the
pointer skips what it has beyond that. -/
def DllContext.skipBeyond (ctx : DllContext) (readPtr field size : Nat) : Except DllContext Nat :=
  if field > size then ctx.advanceReadPtr b inp readPtr (field - size) else .ok readPtr

/-- A `LONG` converted to `size_t`. -/
def sizeT (v : UInt32) : Nat :=
  if v.toNat < 2 ^ 31 then v.toNat else b.space - (2 ^ 32 - v.toNat)

/-- A 32-bit load from the image. -/
def DllContext.load32 (ctx : DllContext) (p : Nat) : UInt32 := u32 b.space ctx.image p

/-- A 16-bit load from the image. -/
def DllContext.load16 (ctx : DllContext) (p : Nat) : UInt16 := u16 b.space ctx.image p

/-- The C string at an image offset. -/
def DllContext.str (ctx : DllContext) (p : Nat) : List UInt8 := cstring b.space ctx.image p

/-- A 32-bit store to the image. -/
def DllContext.store32 (ctx : DllContext) (p : Nat) (v : UInt32) : DllContext :=
  { ctx with
    image := Mem.store32 b.space ctx.image p v
    imageWrites := ⟨p, 4⟩ :: ctx.imageWrites }

/-- `memcpy` of `len` raw bytes at `src` to the image offset `dest`. -/
def DllContext.copyRaw (ctx : DllContext) (dest len src : Nat) : DllContext :=
  { ctx with
    image := store b.space ctx.image dest len fun i => inp.raw ((src + i) % b.space)
    rawReads := ⟨src, len⟩ :: ctx.rawReads
    imageWrites := ⟨dest, len⟩ :: ctx.imageWrites }

/-- `input.alloc(size)`, with the pointer it returned. -/
def DllContext.callAlloc (ctx : DllContext) (size : Nat) : Nat × DllContext :=
  let ptr := inp.alloc ctx.calls size
  (ptr, { ctx with calls := .alloc size ptr :: ctx.calls })

/-- `input.free(ptr)`. -/
def DllContext.callFree (ctx : DllContext) (ptr : Nat) : DllContext :=
  { ctx with calls := .free ptr :: ctx.calls }

/-- A resolver call with `slot` as its `result` argument. -/
def DllContext.callResolve (ctx : DllContext) (query : Query) (slot : Nat) (answer : Resolved) :
    DllContext :=
  let ctx := { ctx with queries := query :: ctx.queries }
  match answer.result with
  | none => ctx
  | some v => ctx.store32 b slot v

end Accesses

end Dyndxt.Loader
