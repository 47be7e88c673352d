import Dyndxt.Mem.Bytes

/-!
# PE structures

The structures of `winnt.h` that the loader copies out of a raw file, with
the reader that takes each one from its bytes. Field offsets are the packed
i386 layout. Of the DOS header only the two fields the loader reads are kept.
-/

namespace Dyndxt.Loader
open Dyndxt.Mem

def imageDosSignature : UInt16 := 0x5A4D
def imageNtSignature : UInt32 := 0x00004550
def imageFileMachineI386 : UInt16 := 0x014c
def imageDllCharacteristicsDynamicBase : UInt16 := 0x0040

def imageDirectoryEntryExport : Fin 16 := 0
def imageDirectoryEntryImport : Fin 16 := 1
def imageDirectoryEntryBaseReloc : Fin 16 := 5
def imageDirectoryEntryTls : Fin 16 := 9

def sizeofImageDosHeader : Nat := 64
def sizeofImageNtHeaders32 : Nat := 248
def sizeofImageOptionalHeader32 : Nat := 224
def sizeofImageSectionHeader : Nat := 40
def sizeofImageImportDescriptor : Nat := 20

/-- `IMAGE_DOS_HEADER`. `eLfanew` is a signed `LONG`; these are its bits. -/
structure ImageDosHeader where
  eMagic : UInt16
  eLfanew : UInt32
deriving DecidableEq, Repr

structure ImageDataDirectory where
  virtualAddress : UInt32 := 0
  size : UInt32 := 0
deriving DecidableEq, Repr

structure ImageFileHeader where
  machine : UInt16 := 0
  numberOfSections : UInt16 := 0
  timeDateStamp : UInt32 := 0
  pointerToSymbolTable : UInt32 := 0
  numberOfSymbols : UInt32 := 0
  sizeOfOptionalHeader : UInt16 := 0
  characteristics : UInt16 := 0
deriving DecidableEq, Repr

structure ImageOptionalHeader32 where
  magic : UInt16 := 0
  majorLinkerVersion : UInt8 := 0
  minorLinkerVersion : UInt8 := 0
  sizeOfCode : UInt32 := 0
  sizeOfInitializedData : UInt32 := 0
  sizeOfUninitializedData : UInt32 := 0
  addressOfEntryPoint : UInt32 := 0
  baseOfCode : UInt32 := 0
  baseOfData : UInt32 := 0
  imageBase : UInt32 := 0
  sectionAlignment : UInt32 := 0
  fileAlignment : UInt32 := 0
  majorOperatingSystemVersion : UInt16 := 0
  minorOperatingSystemVersion : UInt16 := 0
  majorImageVersion : UInt16 := 0
  minorImageVersion : UInt16 := 0
  majorSubsystemVersion : UInt16 := 0
  minorSubsystemVersion : UInt16 := 0
  win32VersionValue : UInt32 := 0
  sizeOfImage : UInt32 := 0
  sizeOfHeaders : UInt32 := 0
  checkSum : UInt32 := 0
  subsystem : UInt16 := 0
  dllCharacteristics : UInt16 := 0
  sizeOfStackReserve : UInt32 := 0
  sizeOfStackCommit : UInt32 := 0
  sizeOfHeapReserve : UInt32 := 0
  sizeOfHeapCommit : UInt32 := 0
  loaderFlags : UInt32 := 0
  numberOfRvaAndSizes : UInt32 := 0
  dataDirectory : Fin 16 → ImageDataDirectory := fun _ => {}

structure ImageNtHeaders32 where
  signature : UInt32 := 0
  fileHeader : ImageFileHeader := {}
  optionalHeader : ImageOptionalHeader32 := {}

structure ImageSectionHeader where
  name : List UInt8
  virtualSize : UInt32
  virtualAddress : UInt32
  sizeOfRawData : UInt32
  pointerToRawData : UInt32
  pointerToRelocations : UInt32
  pointerToLinenumbers : UInt32
  numberOfRelocations : UInt16
  numberOfLinenumbers : UInt16
  characteristics : UInt32
deriving DecidableEq, Repr

section Readers

variable (M : Nat) (m : Bytes) (p : Nat)

def ImageDosHeader.read : ImageDosHeader where
  eMagic := u16 M m p
  eLfanew := u32 M m (p + 60)

def ImageDataDirectory.read : ImageDataDirectory where
  virtualAddress := u32 M m p
  size := u32 M m (p + 4)

def ImageFileHeader.read : ImageFileHeader where
  machine := u16 M m p
  numberOfSections := u16 M m (p + 2)
  timeDateStamp := u32 M m (p + 4)
  pointerToSymbolTable := u32 M m (p + 8)
  numberOfSymbols := u32 M m (p + 12)
  sizeOfOptionalHeader := u16 M m (p + 16)
  characteristics := u16 M m (p + 18)

def ImageOptionalHeader32.read : ImageOptionalHeader32 where
  magic := u16 M m p
  majorLinkerVersion := m ((p + 2) % M)
  minorLinkerVersion := m ((p + 3) % M)
  sizeOfCode := u32 M m (p + 4)
  sizeOfInitializedData := u32 M m (p + 8)
  sizeOfUninitializedData := u32 M m (p + 12)
  addressOfEntryPoint := u32 M m (p + 16)
  baseOfCode := u32 M m (p + 20)
  baseOfData := u32 M m (p + 24)
  imageBase := u32 M m (p + 28)
  sectionAlignment := u32 M m (p + 32)
  fileAlignment := u32 M m (p + 36)
  majorOperatingSystemVersion := u16 M m (p + 40)
  minorOperatingSystemVersion := u16 M m (p + 42)
  majorImageVersion := u16 M m (p + 44)
  minorImageVersion := u16 M m (p + 46)
  majorSubsystemVersion := u16 M m (p + 48)
  minorSubsystemVersion := u16 M m (p + 50)
  win32VersionValue := u32 M m (p + 52)
  sizeOfImage := u32 M m (p + 56)
  sizeOfHeaders := u32 M m (p + 60)
  checkSum := u32 M m (p + 64)
  subsystem := u16 M m (p + 68)
  dllCharacteristics := u16 M m (p + 70)
  sizeOfStackReserve := u32 M m (p + 72)
  sizeOfStackCommit := u32 M m (p + 76)
  sizeOfHeapReserve := u32 M m (p + 80)
  sizeOfHeapCommit := u32 M m (p + 84)
  loaderFlags := u32 M m (p + 88)
  numberOfRvaAndSizes := u32 M m (p + 92)
  dataDirectory i := ImageDataDirectory.read M m (p + 96 + 8 * i)

def ImageNtHeaders32.read : ImageNtHeaders32 where
  signature := u32 M m p
  fileHeader := ImageFileHeader.read M m (p + 4)
  optionalHeader := ImageOptionalHeader32.read M m (p + 24)

def ImageSectionHeader.read : ImageSectionHeader where
  name := (List.range 8).map fun i => m ((p + i) % M)
  virtualSize := u32 M m (p + 8)
  virtualAddress := u32 M m (p + 12)
  sizeOfRawData := u32 M m (p + 16)
  pointerToRawData := u32 M m (p + 20)
  pointerToRelocations := u32 M m (p + 24)
  pointerToLinenumbers := u32 M m (p + 28)
  numberOfRelocations := u16 M m (p + 32)
  numberOfLinenumbers := u16 M m (p + 34)
  characteristics := u32 M m (p + 36)

/-- `n` section headers, one after another. -/
def ImageSectionHeader.readTable (n : Nat) : List ImageSectionHeader :=
  (List.range n).map fun i => ImageSectionHeader.read M m (p + sizeofImageSectionHeader * i)

end Readers

end Dyndxt.Loader
