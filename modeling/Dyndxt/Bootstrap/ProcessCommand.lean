import Dyndxt.Bootstrap.GetExportAddress
import Dyndxt.Bootstrap.Strings

/-!
# `bootstrap_l2.asm`: the command and its continuations

`ProcessCommand` with its three handlers, `SendResolvedExports` and
`ReceiveImageData`. The command, the response, the bootstrap's strings and all
images are in one flat memory, and so is the connection's context while
`.HandleResolve` works on it, since it may read and overwrite it there: by an
image at the context's address, or with more ordinals than its block holds.
Between the commands a record stands for the context; the bootstrap's two
variables are apart from the memory. `none` is a loop that is still going when
the budget is spent, or a write through a null pointer.
-/

namespace Dyndxt.Bootstrap
open Dyndxt.Mem Dyndxt.Run Dyndxt.Pool
open Dyndxt.Session (defSuccess xboxSOk xboxSSendBinary xboxSNoMoreData xboxEUnexpected xboxEFail
  xboxEUnknownCommand xboxEAccessDenied)

def xboxSBinary : UInt32 := defSuccess 0x03

/-! ## Data -/

/-- The continuation handlers. -/
inductive Handler where
  | sendResolvedExports
  | receiveImageData
deriving DecidableEq, Repr

structure CommandContext where
  handler : Option Handler := none
  dataSize : UInt32 := 0
  buffer : UInt32 := 0
  bufferSize : UInt32 := 0
  userData : UInt32 := 0
  bytesRemaining : UInt32 := 0
deriving DecidableEq, Repr

/-- The offsets of `struc CommandContext`. -/
def handlerOffset : UInt32 := 0
def bufferOffset : UInt32 := 8
def bufferSizeOffset : UInt32 := 12
def userDataOffset : UInt32 := 16
def bytesRemainingOffset : UInt32 := 20

/-- `section .data` -/
structure Data where
  gImage : UInt32 := 0
  gImageEntrypoint : UInt32 := 0
deriving DecidableEq, Repr

/-- Where the bootstrap's strings and `SendResolvedExports` are. -/
structure Labels where
  gBaseArg : UInt32
  gOrdinalArg : UInt32
  gSizeArg : UInt32
  gEntrypointArg : UInt32
  gHexChars : UInt32
  gMessageInstallFailed : UInt32
  gMessageOutOfMemory : UInt32
  gMessageOk : UInt32
  gMessageUsageResolve : UInt32
  gMessageUsageAlloc : UInt32
  gMessageUsageInstall : UInt32
  sendResolvedExports : UInt32

/-- What the handlers work on, with the pool's ledger. -/
structure Target where
  memory : Bytes
  ctx : CommandContext
  data : Data
  calls : Ledger

/-- The code in `eax` and what the call leaves. -/
structure Outcome where
  eax : UInt32
  target : Target

/-- `mov dword [p], v` -/
def storeDword (m : Bytes) (p v : UInt32) : Bytes := store32 Build.target.space m p.toNat v

/-- The fields that `.HandleResolve` sets in the context at `ctx`, in its
order. -/
def putContext (m : Bytes) (ctx userData buffer bufferSize bytesRemaining : UInt32) : Bytes :=
  let m := storeDword m (ctx + userDataOffset) userData
  let m := storeDword m (ctx + bufferOffset) buffer
  let m := storeDword m (ctx + bufferSizeOffset) bufferSize
  storeDword m (ctx + bytesRemainingOffset) bytesRemaining

/-- The context with these fields as they are in memory. -/
def getContext (m : Bytes) (ctx : UInt32) (context : CommandContext) : CommandContext :=
  { context with
    buffer := load m (ctx + bufferOffset)
    bufferSize := load m (ctx + bufferSizeOffset)
    userData := load m (ctx + userDataOffset)
    bytesRemaining := load m (ctx + bytesRemainingOffset) }

/-- `BASE_ARG_LEN`, and the length of every other specifier. -/
def argLen : Nat := 2

section

variable (alloc : Ledger → Nat → UInt32) (labels : Labels) (budget : Nat)

/-- `call [DmAllocatePoolWithTag]` -/
def Target.allocate (t : Target) (size : UInt32) : UInt32 × Target :=
  let eax := alloc t.calls size.toNat
  (eax, { t with calls := .alloc size.toNat eax.toNat :: t.calls })

/-- `call [DmFreePool]` -/
def Target.freePool (t : Target) (ecx : UInt32) : Target := { t with calls := .free ecx.toNat :: t.calls }

/-- A message in the response, and the code. -/
def respond (response message code : UInt32) (t : Target) : Option Outcome := do
  let (memory, _) ← strcpy budget t.memory response message
  return { eax := code, target := { t with memory } }

/-! ## `.HandleResolve` -/

/-- The registers of the argument loop, with what it works on. -/
structure ResolveState where
  eax : UInt32
  ebx : UInt32
  edx : UInt32
  esi : UInt32
  target : Target

/-- `.check_space`: on to the next argument, or the end; false is a usage
error. -/
def checkSpace (s : ResolveState) : Turn ResolveState (Option (Bool × ResolveState)) :=
  let cl := load8 s.target.memory s.esi
  if cl = 0x20 then .again { s with esi := s.esi + 1 } else .leave (some (cl = 0, s))

/-- An ordinal resolved against the base in `edx`, and counted in the context
at `ctx`. -/
def storeExport (ctx : UInt32) (s : ResolveState) : ResolveState :=
  let m := storeDword s.target.memory s.ebx (getExportAddress s.target.memory s.edx s.eax).2
  let eax := load m (ctx + bytesRemainingOffset) + 4
  { s with
    eax
    ebx := s.ebx + 4
    target := { s.target with memory := storeDword m (ctx + bytesRemainingOffset) eax } }

/-- `.loop_base_or_ordinal`. With a null block `[ebx]` is the null page, which
nothing can be written to. -/
def resolveTurn (ctx : UInt32) (s : ResolveState) : Turn ResolveState (Option (Bool × ResolveState)) :=
  match parseArg budget s.target.memory s.eax s.esi labels.gBaseArg argLen with
  | none => .leave none
  | some arg =>
    let s := { s with eax := arg.eax, esi := arg.esi }
    if arg.ecx = 0 then checkSpace { s with edx := arg.eax }
    else if s.edx = 0 then .leave (some (false, s))
    else match parseArg budget s.target.memory s.eax s.esi labels.gOrdinalArg argLen with
      | none => .leave none
      | some arg =>
        let s := { s with eax := arg.eax, esi := arg.esi }
        if arg.ecx ≠ 0 ∨ arg.eax = 0 then .leave (some (false, s))
        else if s.ebx = 0 then .leave none
        else checkSpace (storeExport ctx s)

/-- `.HandleResolve`, with the arguments at `esi` and the context at `ctx`.
`edx` holds the context's address until a base is given. After an error the
handler is as before, and not called. -/
def handleResolve (ctx response esi : UInt32) (t : Target) : Option Outcome := do
  let (eax, t) := t.allocate alloc (4 * 128)
  let t := { t with memory := putContext t.memory ctx eax eax (4 * 128) 0 }
  let result ← left (run (resolveTurn labels budget ctx) budget { eax, ebx := eax, edx := ctx, esi, target := t })
  let (valid, s) ← result
  let t := s.target
  if valid then
    let memory := storeDword t.memory (ctx + handlerOffset) labels.sendResolvedExports
    let context := getContext memory ctx { t.ctx with handler := some .sendResolvedExports }
    return { eax := xboxSBinary, target := { t with memory, ctx := context } }
  else
    let t := t.freePool (load t.memory (ctx + userDataOffset))
    let t := { t with memory := putContext t.memory ctx 0 0 0 0 }
    let o ← respond budget response labels.gMessageUsageResolve xboxEFail t
    return { o with target := { o.target with ctx := getContext o.target.memory ctx t.ctx } }

/-! ## `.HandleAlloc` and `.HandleInstall` -/

/-- `.HandleAlloc` -/
def handleAlloc (response eax esi : UInt32) (t : Target) : Option Outcome := do
  let arg ← parseArg budget t.memory eax esi labels.gSizeArg argLen
  if arg.ecx ≠ 0 ∨ arg.eax = 0 then respond budget response labels.gMessageUsageAlloc xboxEFail t
  else
    let t := { t with ctx := { t.ctx with bufferSize := arg.eax } }
    let (eax, t) := t.allocate alloc arg.eax
    if eax = 0 then respond budget response labels.gMessageOutOfMemory xboxEAccessDenied t
    else
      let t := { t with data := { t.data with gImage := eax } }
      let (memory, edi) ← strcpy budget t.memory response labels.gMessageOk
      let memory ← integerToHex budget labels.gHexChars memory eax edi
      return { eax := xboxSOk, target := { t with memory } }

/-- `.HandleInstall` -/
def handleInstall (response eax esi : UInt32) (t : Target) : Option Outcome := do
  let arg ← parseArg budget t.memory eax esi labels.gEntrypointArg argLen
  if arg.ecx ≠ 0 ∨ arg.eax = 0 then respond budget response labels.gMessageUsageInstall xboxEFail t
  else
    return {
      eax := xboxSSendBinary
      target := { t with
        data := { t.data with gImageEntrypoint := arg.eax }
        ctx := { t.ctx with
          buffer := t.data.gImage
          bytesRemaining := t.ctx.bufferSize
          handler := some .receiveImageData } } }

/-- The subcommand's character, behind `ldxt!`. -/
def subcommand (memory : Bytes) (command : UInt32) : UInt8 := load8 memory (command + 5)

/-- `ProcessCommand`, with the addresses of its arguments. Of `eax` only the
subcommand is kept. -/
def processCommand (command response ctx : UInt32) (t : Target) : Option Outcome :=
  let al := subcommand t.memory command
  let esi := command + 5 + 1 + 1
  if al = 0x69 then handleInstall labels budget response al.toUInt32 esi t
  else if al = 0x61 then handleAlloc alloc labels budget response al.toUInt32 esi t
  else if al = 0x72 then handleResolve alloc labels budget ctx response esi t
  else some { eax := xboxEUnknownCommand, target := t }

/-! ## Continuations -/

/-- `SendResolvedExports` -/
def sendResolvedExports (t : Target) : Outcome :=
  let ecx := t.ctx.bytesRemaining
  if ecx ≠ 0 then
    { eax := xboxSOk, target := { t with ctx := { t.ctx with dataSize := ecx, bytesRemaining := 0 } } }
  else
    let t := { t with ctx := { t.ctx with dataSize := 0 } }
    { eax := xboxSNoMoreData, target := t.freePool t.ctx.userData }

/-- `ReceiveImageData`; `dxtMain` is what the code at an entrypoint returns and
does to the memory and the pool. -/
def receiveImageData (dxtMain : UInt32 → Bytes × Ledger → UInt32 × Bytes × Ledger) (response : UInt32)
    (t : Target) : Option Outcome :=
  let ecx := t.ctx.dataSize
  if ecx = 0 then respond budget response labels.gMessageInstallFailed xboxEUnexpected t
  else
    let t := { t with ctx := { t.ctx with
      buffer := t.ctx.buffer + ecx
      bufferSize := t.ctx.bufferSize - ecx
      bytesRemaining := t.ctx.bytesRemaining - ecx } }
    if t.ctx.bytesRemaining ≠ 0 then some { eax := xboxSOk, target := t }
    else
      let (eax, memory, calls) := dxtMain t.data.gImageEntrypoint (t.memory, t.calls)
      some { eax, target := { t with memory, calls } }

end

end Dyndxt.Bootstrap
