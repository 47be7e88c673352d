import Dyndxt.Build
import Dyndxt.Loader.Winnt
import Dyndxt.Registry.ModuleRegistry
import Dyndxt.Session.Xbdm

/-!
# `link_loaded_modules.c`

The exports of a module that the kernel has loaded are registered under its
name. The module is read where it lies in memory.
-/

namespace Dyndxt.Link
open Dyndxt.Mem Dyndxt.Pool Dyndxt.Loader Dyndxt.Registry Dyndxt.Session

/-- The fields of `IMAGE_EXPORT_DIRECTORY` that are read. -/
structure ImageExportDirectory where
  base : UInt32
  numberOfFunctions : UInt32
  addressOfFunctions : UInt32
deriving DecidableEq, Repr

def ImageExportDirectory.read (M : Nat) (m : Bytes) (p : Nat) : ImageExportDirectory where
  base := u32 M m (p + 16)
  numberOfFunctions := u32 M m (p + 20)
  addressOfFunctions := u32 M m (p + 28)

section

variable (m : Bytes) (moduleBase : UInt32)

/-- `*dos_header` -/
def dosHeader : ImageDosHeader := .read Build.target.space m moduleBase.toNat

/-- `*nt_header` -/
def ntHeader : ImageNtHeaders32 :=
  .read Build.target.space m (moduleBase.toNat + (dosHeader m moduleBase).eLfanew.toNat)

/-- `*directory_info` -/
def directoryInfo : ImageDataDirectory :=
  (ntHeader m moduleBase).optionalHeader.dataDirectory imageDirectoryEntryExport

/-- `*directory` -/
def exportDirectory : ImageExportDirectory :=
  .read Build.target.space m (moduleBase.toNat + (directoryInfo m moduleBase).virtualAddress.toNat)

/-- `function_array[i]` -/
def functionArray (i : UInt32) : UInt32 :=
  u32 Build.target.space m
    (moduleBase.toNat + (exportDirectory m moduleBase).addressOfFunctions.toNat + 4 * i.toNat)

/-- `export` in the loop's round `i`. -/
def moduleExport (i : UInt32) : ModuleExport :=
  let ordinal := i + (exportDirectory m moduleBase).base
  { ordinal
    methodName := none
    alias_ := none
    address := functionArray m moduleBase (ordinal - (exportDirectory m moduleBase).base) + moduleBase }

variable (alloc : Ledger → Nat → Nat) (moduleName : List UInt8)

/-- The loop, with so many rounds left. -/
def registerExports : Nat → UInt32 → ModuleRegistry → Except Ledger (Bool × ModuleRegistry)
  | 0, _, r => .ok (true, r)
  | left + 1, i, r => do
    let (registered, r) ← mrRegisterMethod .target alloc moduleName (moduleExport m moduleBase i) r
    if registered then registerExports left (i + 1) r else return (false, r)

/-- `RegisterModuleExports`. -/
def registerModuleExports (r : ModuleRegistry) : Except Ledger (UInt32 × ModuleRegistry) :=
  if (dosHeader m moduleBase).eMagic ≠ imageDosSignature then .ok (xboxETypeInvalid, r)
  else if (ntHeader m moduleBase).signature ≠ imageNtSignature then .ok (xboxETypeInvalid, r)
  else if (directoryInfo m moduleBase).size = 0 then .ok (xboxSOk, r)
  else do
    let (registered, r) ←
      registerExports m moduleBase alloc moduleName (exportDirectory m moduleBase).numberOfFunctions.toNat 0 r
    return (if registered then xboxSOk else xboxEFail, r)

end

end Dyndxt.Link
