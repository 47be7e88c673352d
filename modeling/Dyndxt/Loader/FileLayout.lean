import Dyndxt.Loader.DllLoader

/-!
# The raw file by offsets

Where `DLLParseHeader` looks for each structure, as offsets from `rawData`
summed without wrapping, and the file passes rewritten in these terms: the
macro's check on the pointer at offset `off` is `Passes off`, a comparison of
wrapped sums.
-/

namespace Dyndxt.Loader
open Dyndxt.Mem Dyndxt.Pool

section Layout

variable (b : Build) (inp : DllLoaderInput)

/-- The pointer `off` bytes into the raw data. -/
def DllLoaderInput.ptr (off : Nat) : Nat := (inp.rawData + off) % b.space

/-- The pointer `off` bytes into the raw data is not past `eof`, as
`ADVANCE_READ_PTR` compares them. -/
def DllLoaderInput.Passes (off : Nat) : Prop := inp.ptr b off ≤ inp.eof b

instance (off : Nat) : Decidable (inp.Passes b off) := inferInstanceAs (Decidable (_ ≤ _))

def DllLoaderInput.dosHeader : ImageDosHeader := ImageDosHeader.read b.space inp.raw 0

/-- Where the NT headers are read: `e_lfanew` as a `size_t`, when it is
beyond the DOS header. -/
def DllLoaderInput.ntOffset : Nat := max sizeofImageDosHeader (sizeT b (inp.dosHeader b).eLfanew)

def DllLoaderInput.ntHeader : ImageNtHeaders32 :=
  ImageNtHeaders32.read b.space inp.raw (inp.ntOffset b)

/-- Where the section headers are read: behind the NT headers and what the
file's optional header has beyond the structure. -/
def DllLoaderInput.tableOffset : Nat :=
  inp.ntOffset b + sizeofImageNtHeaders32 +
    ((inp.ntHeader b).fileHeader.sizeOfOptionalHeader.toNat - sizeofImageOptionalHeader32)

def DllLoaderInput.numSections : Nat := (inp.ntHeader b).fileHeader.numberOfSections.toNat

def DllLoaderInput.tableSize : Nat := inp.numSections b * sizeofImageSectionHeader

def DllLoaderInput.sections : List ImageSectionHeader :=
  ImageSectionHeader.readTable b.space inp.raw (inp.tableOffset b % b.space) (inp.numSections b)

/-- The checks on the copied headers, in the source's order, with the status
of each refusal. -/
def headerRefusal (header : ImageNtHeaders32) : Option DllLoaderStatus :=
  if header.signature ≠ imageNtSignature then some .invalidSignature
  else if header.fileHeader.machine ≠ imageFileMachineI386 then some .wrongMachineType
  else if header.optionalHeader.dllCharacteristics &&& imageDllCharacteristicsDynamicBase = 0 then
    some .fixedBase
  else none

end Layout

section

variable {b : Build} {inp : DllLoaderInput} {ctx : DllContext} {off n : Nat}

theorem sizeT_lt (v : UInt32) : sizeT b v < b.space := by
  have big := b.space_ge
  have lt := v.toNat_lt
  unfold sizeT
  split <;> omega

theorem ntOffset_lt : inp.ntOffset b < b.space := by
  have big := b.space_ge
  have lt := @sizeT_lt b (inp.dosHeader b).eLfanew
  unfold DllLoaderInput.ntOffset sizeofImageDosHeader
  omega

theorem dist_ptr : dist b.space inp.rawData (inp.ptr b off) = off % b.space :=
  dist_add_mod b.space_pos _ _

theorem advance_rawData : ctx.advanceReadPtr b inp inp.rawData n =
    if inp.Passes b n then .ok (inp.ptr b n) else .error (ctx.setErrorStatus .fileTooSmall) := by
  by_cases passes : inp.Passes b n
  · rw [if_pos passes]
    exact if_neg (Nat.not_lt.mpr passes)
  · rw [if_neg passes]
    exact if_pos (Nat.lt_of_not_le passes)

theorem advance_ptr : ctx.advanceReadPtr b inp (inp.ptr b off) n =
    if inp.Passes b (off + n) then .ok (inp.ptr b (off + n))
    else .error (ctx.setErrorStatus .fileTooSmall) := by
  have sum : (inp.ptr b off + n) % b.space = inp.ptr b (off + n) := by
    rw [DllLoaderInput.ptr, DllLoaderInput.ptr, Nat.mod_add_mod, Nat.add_assoc]
  simp only [DllContext.advanceReadPtr, sum]
  by_cases passes : inp.Passes b (off + n)
  · rw [if_pos passes]
    exact if_neg (Nat.not_lt.mpr passes)
  · rw [if_neg passes]
    exact if_pos (Nat.lt_of_not_le passes)

theorem skipBeyond_ptr {size field : Nat} (passed : inp.Passes b off) :
    ctx.skipBeyond b inp (inp.ptr b off) field size =
    if inp.Passes b (off + (field - size)) then .ok (inp.ptr b (off + (field - size)))
    else .error (ctx.setErrorStatus .fileTooSmall) := by
  unfold DllContext.skipBeyond
  split
  · exact advance_ptr
  · rw [show off + (field - size) = off by omega, if_pos passed]

theorem parseDosHeader_eq : parseDosHeader b inp ctx =
    if inp.Passes b sizeofImageDosHeader then
      if (inp.dosHeader b).eMagic = imageDosSignature then
        if inp.Passes b (inp.ntOffset b) then
          .ok (inp.ptr b (inp.ntOffset b), ((ctx.setErrorContext .dosHeader).readRaw 0 2).readRaw 60 4)
        else .error ((((ctx.setErrorContext .dosHeader).readRaw 0 2).readRaw 60 4).setErrorStatus
          .fileTooSmall)
      else .error (((ctx.setErrorContext .dosHeader).readRaw 0 2).setErrorStatus .invalidSignature)
    else .error ((ctx.setErrorContext .dosHeader).setErrorStatus .fileTooSmall) := by
  have skip : sizeofImageDosHeader + (sizeT b (inp.dosHeader b).eLfanew - sizeofImageDosHeader) =
      inp.ntOffset b := by
    unfold DllLoaderInput.ntOffset
    omega
  have fold : ImageDosHeader.read b.space inp.raw 0 = inp.dosHeader b := rfl
  unfold parseDosHeader
  simp only [advance_rawData, bind, Except.bind, DllContext.require, fold]
  by_cases passed : inp.Passes b sizeofImageDosHeader
  · by_cases magic : (inp.dosHeader b).eMagic = imageDosSignature
    · simp only [passed, magic, if_true, skipBeyond_ptr passed, skip]
      by_cases there : inp.Passes b (inp.ntOffset b)
      · simp only [there, if_true]
        rfl
      · simp only [there, if_false]
    · simp only [passed, magic, if_true, if_false]
  · simp only [passed, if_false]

/-- The context after the NT headers were copied. -/
def DllContext.withHeader (b : Build) (inp : DllLoaderInput) (ctx : DllContext) : DllContext :=
  let ctx := (ctx.setErrorContext .ntHeader).readRaw (inp.ntOffset b) sizeofImageNtHeaders32
  { ctx with output := { ctx.output with header := inp.ntHeader b } }

theorem parseNtHeader_eq : parseNtHeader b inp (inp.ptr b (inp.ntOffset b)) ctx =
    if inp.Passes b (inp.ntOffset b + sizeofImageNtHeaders32) then
      match headerRefusal (inp.ntHeader b) with
      | some status => .error ((ctx.withHeader b inp).setErrorStatus status)
      | none =>
        if inp.Passes b (inp.tableOffset b) then
          .ok (inp.ptr b (inp.tableOffset b), ctx.withHeader b inp)
        else .error ((ctx.withHeader b inp).setErrorStatus .fileTooSmall)
    else .error ((ctx.setErrorContext .ntHeader).setErrorStatus .fileTooSmall) := by
  have fold : ImageNtHeaders32.read b.space inp.raw (inp.ntOffset b) = inp.ntHeader b := rfl
  have skip : inp.ntOffset b + sizeofImageNtHeaders32 +
      ((inp.ntHeader b).fileHeader.sizeOfOptionalHeader.toNat - sizeofImageOptionalHeader32) =
      inp.tableOffset b := rfl
  unfold parseNtHeader
  simp only [advance_ptr, bind, Except.bind, DllContext.require, dist_ptr,
    Nat.mod_eq_of_lt ntOffset_lt, fold]
  by_cases passed : inp.Passes b (inp.ntOffset b + sizeofImageNtHeaders32)
  · simp only [passed, if_true, skipBeyond_ptr passed, skip, headerRefusal]
    by_cases signature : (inp.ntHeader b).signature = imageNtSignature
    · by_cases machine : (inp.ntHeader b).fileHeader.machine = imageFileMachineI386
      · by_cases fixed : (inp.ntHeader b).optionalHeader.dllCharacteristics &&&
            imageDllCharacteristicsDynamicBase = 0
        · simp only [signature, machine, fixed, ne_eq, not_true, if_true, if_false]
          rfl
        · simp only [signature, machine, fixed, ne_eq, not_true, not_false_iff, if_true, if_false]
          by_cases there : inp.Passes b (inp.tableOffset b)
          · simp only [there, if_true]
            rfl
          · simp only [there, if_false]
            rfl
      · simp only [signature, machine, ne_eq, not_true, not_false_iff, if_true, if_false]
        rfl
    · simp only [signature, ne_eq, not_false_iff, if_true, if_false]
      rfl
  · simp only [passed, if_false]

/-- The context after the section header block was asked for. -/
def DllContext.withTableBlock (b : Build) (inp : DllLoaderInput) (ctx : DllContext) : DllContext :=
  let ptr := inp.alloc ctx.calls (inp.tableSize b)
  { ctx with
    output := { ctx.output with context := .ntHeaderSectionTable, sectionHeaders := ptr }
    calls := .alloc (inp.tableSize b) ptr :: ctx.calls }

/-- The context after the section headers were copied. -/
def DllContext.withTable (b : Build) (inp : DllLoaderInput) (ctx : DllContext) : DllContext :=
  { (ctx.withTableBlock b inp).readRaw (inp.tableOffset b % b.space) (inp.tableSize b) with
    sectionTable := inp.sections b }

theorem parseSectionTable_eq (header : ctx.output.header = inp.ntHeader b) :
    parseSectionTable b inp (inp.ptr b (inp.tableOffset b)) ctx =
    if inp.alloc ctx.calls (inp.tableSize b) ≠ 0 then
      if inp.Passes b (inp.tableOffset b + inp.tableSize b) then .ok (ctx.withTable b inp)
      else .error ((ctx.withTableBlock b inp).setErrorStatus .fileTooSmall)
    else .error ((ctx.withTableBlock b inp).setErrorStatus .outOfMemory) := by
  have size : (inp.ntHeader b).fileHeader.numberOfSections.toNat * sizeofImageSectionHeader =
      inp.tableSize b := rfl
  unfold parseSectionTable
  simp only [DllContext.setErrorContext, DllContext.callAlloc, header, size, bind, Except.bind,
    DllContext.require, advance_ptr, dist_ptr, DllContext.withTable, DllContext.withTableBlock]
  by_cases block : inp.alloc ctx.calls (inp.tableSize b) = 0
  · simp only [block, ne_eq, not_true, if_false]
  · simp only [block, ne_eq, not_false_iff, if_true]
    by_cases passed : inp.Passes b (inp.tableOffset b + inp.tableSize b)
    · simp only [passed, if_true]
      rfl
    · simp only [passed, if_false]

/-- The context after the image block was asked for. -/
def DllContext.withImageBlock (inp : DllLoaderInput) (ctx : DllContext) : DllContext :=
  let sizeOfImage := ctx.output.header.optionalHeader.sizeOfImage.toNat
  let ptr := inp.alloc ctx.calls sizeOfImage
  { ctx with
    output := { ctx.output with context := .loadImage, image := ptr }
    calls := .alloc sizeOfImage ptr :: ctx.calls }

theorem dllLoadImage_eq : dllLoadImage b inp ctx =
    if inp.alloc ctx.calls ctx.output.header.optionalHeader.sizeOfImage.toNat ≠ 0 then
      if ctx.output.header.optionalHeader.sizeOfHeaders >
          ctx.output.header.optionalHeader.sizeOfImage then
        .error ((ctx.withImageBlock inp).setErrorStatus .error)
      else .ok ((ctx.withImageBlock inp).copyRaw b inp 0
        ctx.output.header.optionalHeader.sizeOfHeaders.toNat 0)
    else .error ((ctx.withImageBlock inp).setErrorStatus .outOfMemory) := by
  unfold dllLoadImage
  simp only [DllContext.setErrorContext, DllContext.callAlloc, bind, Except.bind, DllContext.require]
  by_cases block : inp.alloc ctx.calls ctx.output.header.optionalHeader.sizeOfImage.toNat = 0
  · simp only [block, ne_eq, not_true, if_false]
    simp only [DllContext.withImageBlock, block]
  · simp only [block, ne_eq, not_false_iff, if_true]
    by_cases beyond : ctx.output.header.optionalHeader.sizeOfHeaders >
        ctx.output.header.optionalHeader.sizeOfImage
    · simp only [beyond, not_true, if_false, if_true]
      rfl
    · simp only [beyond, not_false_iff, if_true, if_false]
      rfl

theorem processSection_eq (header : ImageSectionHeader) : processSection b inp header ctx =
    if header.sizeOfRawData = 0 then .ok (ctx.setErrorContext .loadSection)
    else if inp.Passes b header.pointerToRawData.toNat then
      if inp.Passes b (header.pointerToRawData.toNat + header.sizeOfRawData.toNat) then
        .ok ((ctx.setErrorContext .loadSection).copyRaw b inp header.virtualAddress.toNat
          header.sizeOfRawData.toNat header.pointerToRawData.toNat)
      else .error ((ctx.setErrorContext .loadSection).setErrorStatus .fileTooSmall)
    else .error ((ctx.setErrorContext .loadSection).setErrorStatus .fileTooSmall) := by
  unfold processSection
  simp only [advance_rawData, bind, Except.bind]
  by_cases empty : header.sizeOfRawData = 0
  · simp only [empty, if_true]
    rfl
  · simp only [empty, if_false]
    by_cases first : inp.Passes b header.pointerToRawData.toNat
    · simp only [first, if_true, advance_ptr, dist_ptr,
        Nat.mod_eq_of_lt (b.word_lt header.pointerToRawData)]
      by_cases last : inp.Passes b (header.pointerToRawData.toNat + header.sizeOfRawData.toNat)
      · simp only [last, if_true]
        rfl
      · simp only [last, if_false]
    · simp only [first, if_false]

end

end Dyndxt.Loader
