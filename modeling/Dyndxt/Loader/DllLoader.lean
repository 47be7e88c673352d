import Dyndxt.Run.Turn
import Dyndxt.Loader.DllContext

/-!
# `dll_loader.c`

The loader, pass by pass. A raw pointer (`readPtr`) is an address; a pointer
into the image is its offset from `output.image`, modulo the address space.
The import and relocation loops are machines (`importTurn`, `relocTurn`), as
nothing in the file bounds them: `dllLoad` runs them on a budget of rounds
and is `again` when a loop is still going at its end.
-/

namespace Dyndxt.Loader
open Dyndxt.Mem Dyndxt.Pool Dyndxt.Run

section

variable (b : Build) (inp : DllLoaderInput)

/-- `DLLFreeContext`. -/
def dllFreeContext (ctx : DllContext) (keepImage : Bool) : DllContext :=
  let ctx := if ctx.output.sectionHeaders ≠ 0 then
      let ctx := ctx.callFree ctx.output.sectionHeaders
      { ctx with output := { ctx.output with sectionHeaders := 0 } }
    else ctx
  if keepImage = false ∧ ctx.output.image ≠ 0 then
    let ctx := ctx.callFree ctx.output.image
    { ctx with output := { ctx.output with image := 0 } }
  else ctx

/-! ## `DLLParseHeader`, by its three error contexts -/

/-- `DLLL_DOS_HEADER`: to the position of the NT headers. -/
def parseDosHeader (ctx : DllContext) : Except DllContext (Nat × DllContext) := do
  let ctx := ctx.setErrorContext .dosHeader
  let dosHeader := ImageDosHeader.read b.space inp.raw 0
  let readPtr ← ctx.advanceReadPtr b inp inp.rawData sizeofImageDosHeader
  let ctx := ctx.readRaw 0 2
  ctx.require (dosHeader.eMagic = imageDosSignature) .invalidSignature
  let ctx := ctx.readRaw 60 4
  let eLfanew := sizeT b dosHeader.eLfanew
  let readPtr ← ctx.skipBeyond b inp readPtr eLfanew sizeofImageDosHeader
  return (readPtr, ctx)

/-- `DLLL_NT_HEADER`: the headers are copied and checked, and the optional
header's excess skipped. -/
def parseNtHeader (readPtr : Nat) (ctx : DllContext) : Except DllContext (Nat × DllContext) := do
  let ctx := ctx.setErrorContext .ntHeader
  let ntHeader := dist b.space inp.rawData readPtr
  let readPtr ← ctx.advanceReadPtr b inp readPtr sizeofImageNtHeaders32
  let ctx := ctx.readRaw ntHeader sizeofImageNtHeaders32
  let header := ImageNtHeaders32.read b.space inp.raw ntHeader
  let ctx := { ctx with output := { ctx.output with header } }
  ctx.require (header.signature = imageNtSignature) .invalidSignature
  ctx.require (header.fileHeader.machine = imageFileMachineI386) .wrongMachineType
  ctx.require (header.optionalHeader.dllCharacteristics &&& imageDllCharacteristicsDynamicBase ≠ 0)
    .fixedBase
  let sizeOfOptionalHeader := header.fileHeader.sizeOfOptionalHeader.toNat
  let readPtr ← ctx.skipBeyond b inp readPtr sizeOfOptionalHeader sizeofImageOptionalHeader32
  return (readPtr, ctx)

/-- `DLLL_NT_HEADER_SECTION_TABLE`: the section headers are copied. -/
def parseSectionTable (readPtr : Nat) (ctx : DllContext) : Pass := do
  let ctx := ctx.setErrorContext .ntHeaderSectionTable
  let numSections := ctx.output.header.fileHeader.numberOfSections.toNat
  let sectionHeaderSize := numSections * sizeofImageSectionHeader
  let (sectionHeaders, ctx) := ctx.callAlloc inp sectionHeaderSize
  let ctx := { ctx with output := { ctx.output with sectionHeaders } }
  ctx.require (sectionHeaders ≠ 0) .outOfMemory
  let sectionHeaderBase := dist b.space inp.rawData readPtr
  let _ ← ctx.advanceReadPtr b inp readPtr sectionHeaderSize
  let ctx := ctx.readRaw sectionHeaderBase sectionHeaderSize
  return { ctx with
    sectionTable := ImageSectionHeader.readTable b.space inp.raw sectionHeaderBase numSections }

/-- `DLLParseHeader`. -/
def dllParseHeader (ctx : DllContext) : Pass := do
  let (readPtr, ctx) ← parseDosHeader b inp ctx
  let (readPtr, ctx) ← parseNtHeader b inp readPtr ctx
  parseSectionTable b inp readPtr ctx

/-! ## The image -/

/-- `DLLLoadImage`. -/
def dllLoadImage (ctx : DllContext) : Pass := do
  let ctx := ctx.setErrorContext .loadImage
  let sizeOfImage := ctx.output.header.optionalHeader.sizeOfImage
  let sizeOfHeaders := ctx.output.header.optionalHeader.sizeOfHeaders
  let (image, ctx) := ctx.callAlloc inp sizeOfImage.toNat
  let ctx := { ctx with output := { ctx.output with image } }
  ctx.require (image ≠ 0) .outOfMemory
  ctx.require (¬ sizeOfHeaders > sizeOfImage) .error
  return ctx.copyRaw b inp 0 sizeOfHeaders.toNat 0

/-- `ProcessSection`. -/
def processSection (header : ImageSectionHeader) (ctx : DllContext) : Pass := do
  let ctx := ctx.setErrorContext .loadSection
  if header.sizeOfRawData = 0 then
    return ctx
  else
    let sectionStart ← ctx.advanceReadPtr b inp inp.rawData header.pointerToRawData.toNat
    let _ ← ctx.advanceReadPtr b inp sectionStart header.sizeOfRawData.toNat
    return ctx.copyRaw b inp header.virtualAddress.toNat header.sizeOfRawData.toNat
      (dist b.space inp.rawData sectionStart)

/-- `DLLProcessSections`. -/
def dllProcessSections (ctx : DllContext) : Pass :=
  ctx.sectionTable.foldlM (fun ctx header => processSection b inp header ctx) ctx

/-! ## `DLLResolveImports` -/

/-- `IMAGE_IMPORT_DESCRIPTOR`, less its unread time stamp. -/
structure ImageImportDescriptor where
  originalFirstThunk : UInt32
  forwarderChain : UInt32
  name : UInt32
  firstThunk : UInt32
deriving DecidableEq, Repr

def ImageImportDescriptor.read (m : Bytes) (p : Nat) : ImageImportDescriptor where
  originalFirstThunk := u32 b.space m p
  forwarderChain := u32 b.space m (p + 8)
  name := u32 b.space m (p + 12)
  firstThunk := u32 b.space m (p + 16)

/-- `IMAGE_SNAP_BY_ORDINAL`. -/
def imageSnapByOrdinal (ordinal : UInt32) : Bool := ordinal &&& 0x80000000 != 0

/-- The loop an import round is in, with its pointers. -/
inductive ImportPc where
  | descriptor (descriptor : Nat)
  | thunk (descriptor imageName thunk function : Nat)
deriving DecidableEq, Repr

/-- `%d` of a non-negative number. -/
def decimal (n : Nat) : List UInt8 := (Nat.toDigits 10 n).map fun c => UInt8.ofNat c.toNat

/-- A thunk with the top bit set, resolved by ordinal. -/
def resolveByOrdinal (imageName function : Nat) (thunk : UInt32) (ctx : DllContext) : Pass :=
  let ordinal := thunk &&& 0xFFFF
  let answer := inp.resolveImportByOrdinal ctx.queries (ctx.str b imageName) ordinal
  let ctx := ctx.callResolve b (.byOrdinal (ctx.str b imageName) ordinal) function answer
  if answer.found then .ok ctx else
    let name := ctx.str b imageName
    let ctx := ctx.setErrorMessage ((name.length + 16) % b.space)
      (name ++ ascii " @ " ++ decimal ordinal.toNat)
    .error (ctx.setErrorStatus .unresolvedImport)

/-- Any other thunk, resolved by the name behind its 2-byte hint. -/
def resolveByName (imageName function : Nat) (thunk : UInt32) (ctx : DllContext) : Pass :=
  let importName := (thunk.toNat + 2) % b.space
  let answer := inp.resolveImportByName ctx.queries (ctx.str b imageName) (ctx.str b importName)
  let ctx := ctx.callResolve b (.byName (ctx.str b imageName) (ctx.str b importName)) function answer
  if answer.found then .ok ctx else
    let messageLen := ((ctx.str b imageName).length + (ctx.str b importName).length + 8) % 2 ^ 32
    let ctx := ctx.setErrorMessage messageLen
      (ctx.str b imageName ++ ascii " @ " ++ ctx.str b importName)
    .error (ctx.setErrorStatus .unresolvedImport)

/-- The body of the thunk loop. -/
def resolveThunk (imageName function : Nat) (thunk : UInt32) (ctx : DllContext) : Pass :=
  if imageSnapByOrdinal thunk then resolveByOrdinal b inp imageName function thunk ctx
  else resolveByName b inp imageName function thunk ctx

/-- One round of the import loops. -/
def importTurn : ImportPc × DllContext → Turn (ImportPc × DllContext) Pass
  | (.descriptor at_, ctx) =>
    let descriptor := ImageImportDescriptor.read b ctx.image at_
    if descriptor.name = 0 then .leave (.ok ctx)
    else if descriptor.forwarderChain ≠ 0 then
      .leave (.error (ctx.setErrorStatus .dllForwardingNotSupported))
    else
      let function := descriptor.firstThunk.toNat
      let thunk := if descriptor.originalFirstThunk ≠ 0 then descriptor.originalFirstThunk.toNat
        else function
      .again (.thunk at_ descriptor.name.toNat thunk function, ctx)
  | (.thunk at_ imageName thunk function, ctx) =>
    if ctx.load32 b thunk = 0 then
      .again (.descriptor ((at_ + sizeofImageImportDescriptor) % b.space), ctx)
    else match resolveThunk b inp imageName function (ctx.load32 b thunk) ctx with
      | .ok ctx => .again (.thunk at_ imageName ((thunk + 4) % b.space) ((function + 4) % b.space), ctx)
      | .error ctx => .leave (.error ctx)

/-- Forget the pointers of a loop that is still going. -/
def stopped {pc : Type} : Turn (pc × DllContext) Pass → Turn DllContext Pass
  | .again (_, ctx) => .again ctx
  | .leave r => .leave r

/-- `DLLResolveImports`. -/
def dllResolveImports (budget : Nat) (ctx : DllContext) : Turn DllContext Pass :=
  let ctx := ctx.setErrorContext .resolveImports
  let directory := ctx.output.header.optionalHeader.dataDirectory imageDirectoryEntryImport
  if directory.size = 0 then .leave (.ok ctx)
  else stopped (run (importTurn b inp) budget (.descriptor directory.virtualAddress.toNat, ctx))

/-! ## `DLLRelocate` -/

def imageRelBasedAbsolute : UInt16 := 0
def imageRelBasedHighLow : UInt16 := 3

/-- The loop a relocation round is in, with its pointers. -/
inductive RelocPc where
  | block (relocationStart : Nat)
  | entry (dest entry relocationEnd : Nat)
deriving DecidableEq, Repr

/-- `image_delta`, by the two signed branches. -/
def imageDelta (headerImageBase newBase : UInt32) : Int32 :=
  if newBase > headerImageBase then (newBase - headerImageBase).toInt32
  else -1 * (headerImageBase - newBase).toInt32

/-- The code after the relocation loops. -/
def rebased (newBase : UInt32) (ctx : DllContext) : DllContext :=
  let optionalHeader := { ctx.output.header.optionalHeader with imageBase := newBase }
  { ctx with output := { ctx.output with
      header := { ctx.output.header with optionalHeader }
      entrypoint := newBase + optionalHeader.addressOfEntryPoint } }

/-- One round of the relocation loops. The entries of a block start
`sizeof(relocation_start)` bytes into it. -/
def relocTurn (newBase : UInt32) (delta : Int32) :
    RelocPc × DllContext → Turn (RelocPc × DllContext) Pass
  | (.block relocationStart, ctx) =>
    let virtualAddress := ctx.load32 b relocationStart
    let sizeOfBlock := ctx.load32 b (relocationStart + 4)
    if virtualAddress > 0 then
      .again (.entry virtualAddress.toNat ((relocationStart + b.sizeofPtr) % b.space)
        ((relocationStart + sizeOfBlock.toNat) % b.space), ctx)
    else .leave (.ok (rebased newBase ctx))
  | (.entry dest entry relocationEnd, ctx) =>
    if (ctx.output.image + entry) % b.space < (ctx.output.image + relocationEnd) % b.space then
      let type := ctx.load16 b entry >>> 12
      let rvaOffset := ctx.load16 b entry &&& 0x0FFF
      let next := (entry + 2) % b.space
      if type = imageRelBasedAbsolute then .again (.entry dest next relocationEnd, ctx)
      else if type = imageRelBasedHighLow then
        let target := (dest + rvaOffset.toNat) % b.space
        .again (.entry dest next relocationEnd,
          ctx.store32 b target (ctx.load32 b target + delta.toUInt32))
      else .leave (.error (ctx.setErrorStatus .unsupportedRelocationType))
    else .again (.block relocationEnd, ctx)

/-- `DLLRelocate`. -/
def dllRelocate (budget : Nat) (newBase : UInt32) (ctx : DllContext) : Turn DllContext Pass :=
  let ctx := ctx.setErrorContext .relocate
  let headerImageBase := ctx.output.header.optionalHeader.imageBase
  if newBase = headerImageBase then .leave (.ok ctx)
  else
    let delta := imageDelta headerImageBase newBase
    let directory := ctx.output.header.optionalHeader.dataDirectory imageDirectoryEntryBaseReloc
    if directory.size = 0 then .leave (.error (ctx.setErrorStatus .noRelocationData))
    else stopped (run (relocTurn b newBase delta) budget (.block directory.virtualAddress.toNat, ctx))

/-! ## The entry points -/

/-- `DLLFreeContext(ctx, false)` before every `return false`. -/
def cleanUp : Pass → Pass
  | .ok ctx => .ok ctx
  | .error ctx => .error (dllFreeContext ctx false)

/-- The passes of `DLLParse` that read the raw file. -/
def dllParseFile (ctx : DllContext) : Pass := do
  let ctx ← cleanUp (dllParseHeader b inp ctx)
  let ctx ← cleanUp (dllLoadImage b inp ctx)
  cleanUp (dllProcessSections b inp ctx)

/-- `DLLParse`. -/
def dllParse (budget : Nat) (ctx : DllContext) : Turn DllContext Pass :=
  let ctx := ctx.setErrorContext .notParsed
  let ctx := { ctx with output := {} }
  match dllParseFile b inp ctx with
  | .error ctx => .leave (.error ctx)
  | .ok ctx => match dllResolveImports b inp budget ctx with
    | .again ctx => .again ctx
    | .leave r => .leave (cleanUp r)

/-- `DLLLoad`. -/
def dllLoad (budget : Nat) (ctx : DllContext) : Turn DllContext Pass :=
  match dllParse b inp budget ctx with
  | .leave (.ok ctx) => match dllRelocate b budget (.ofNat ctx.output.image) ctx with
    | .again ctx => .again ctx
    | .leave r => .leave (cleanUp r)
  | other => other

end

end Dyndxt.Loader
