import Dyndxt.Mem.Copies
import Dyndxt.Loader.Load

/-!
# The image as the file maps it

The header copy and the section copies as one list of copies. The image that
the file passes leave is the block's old contents under them, so a byte that
no copy covers is whatever the block held.
-/

namespace Dyndxt.Loader
open Dyndxt.Mem Dyndxt.Pool Dyndxt.Run

/-- The copy `ProcessSection` makes; of length `0` where it makes none. -/
def ImageSectionHeader.copy (header : ImageSectionHeader) : Copy where
  dest := header.virtualAddress.toNat
  len := header.sizeOfRawData.toNat
  src := header.pointerToRawData.toNat

section Definitions

variable (b : Build) (inp : DllLoaderInput)

/-- The copies of `DLLLoadImage` and `DLLProcessSections`. -/
def DllLoaderInput.copies : List Copy :=
  ⟨0, (inp.ntHeader b).optionalHeader.sizeOfHeaders.toNat, 0⟩ ::
    (inp.sections b).map ImageSectionHeader.copy

/-- The byte that the file puts at an image offset, if it puts one there. -/
def DllLoaderInput.fileByte (a : Nat) : Option UInt8 := copiedByte b.space inp.raw (inp.copies b) a

/-- The image mapped over the old contents of its block. -/
def DllLoaderInput.mapped (stale : Bytes) : Bytes := fun a => (inp.fileByte b a).getD (stale a)

end Definitions

variable {b : Build} {inp : DllLoaderInput} {ctx : DllContext} {stale : Bytes} {a : Nat}

theorem withSection_image (header : ImageSectionHeader) :
    (ctx.withSection b inp header).image = copyTo b.space inp.raw ctx.image header.copy := by
  unfold DllContext.withSection copyTo
  split
  case isTrue empty =>
    funext a
    rw [store_miss]
    · rfl
    · rw [ImageSectionHeader.copy, empty]
      exact Nat.zero_le _
  case isFalse => rfl

theorem withSections_image (headers : List ImageSectionHeader) :
    (ctx.withSections b inp headers).image =
      copyAll b.space inp.raw (headers.map ImageSectionHeader.copy) ctx.image := by
  induction headers generalizing ctx with
  | nil => rfl
  | cons header headers ih =>
    have step : ctx.withSections b inp (header :: headers) =
        (ctx.withSection b inp header).withSections b inp headers := rfl
    rw [step, ih, withSection_image]
    rfl

/-- The file passes ask the resolver nothing. -/
theorem fileParsed_queries : (ctx.fileParsed b inp).queries = ctx.queries := by
  have sections (headers : List ImageSectionHeader) (ctx : DllContext) :
      (ctx.withSections b inp headers).queries = ctx.queries := by
    induction headers generalizing ctx with
    | nil => rfl
    | cons header headers ih =>
      have step : ctx.withSections b inp (header :: headers) =
          (ctx.withSection b inp header).withSections b inp headers := rfl
      rw [step, ih]
      unfold DllContext.withSection
      split <;> rfl
  exact sections _ _

/-- What the file passes leave in the image. -/
theorem fileParsed_image : (ctx.fileParsed b inp).image = inp.mapped b ctx.image := by
  funext a
  have copied : (ctx.fileParsed b inp).image = copyAll b.space inp.raw (inp.copies b) ctx.image :=
    withSections_image (inp.sections b)
  rw [copied, copyAll_apply]
  rfl

/-- The mapped image does not depend on the old contents where the file puts
a byte. -/
theorem mapped_congr {stale' : Bytes} (covered : (inp.fileByte b a).isSome) :
    inp.mapped b stale a = inp.mapped b stale' a := by
  obtain ⟨byte, found⟩ := Option.isSome_iff_exists.mp covered
  simp only [DllLoaderInput.mapped, found, Option.getD_some]

theorem mapped_stale (uncovered : inp.fileByte b a = none) : inp.mapped b stale a = stale a := by
  simp only [DllLoaderInput.mapped, uncovered, Option.getD_none]

end Dyndxt.Loader
