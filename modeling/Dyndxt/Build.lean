import Mathlib.Algebra.Group.Nat.Defs

/-!
# The two builds

The loader runs on the i386 target; its unit tests run on a 64-bit host. They
differ in the size of a pointer and of a `long`, and so in where pointer arithmetic
wraps and in every `sizeof` of a pointer or a `long`.
-/

namespace Dyndxt

inductive Build where
  | target
  | host
deriving DecidableEq, Repr

/-- `sizeof(void *)`. -/
def Build.sizeofPtr : Build → Nat
  | .target => 4
  | .host => 8

/-- The bits of a `long`. -/
def Build.longBits : Build → Nat
  | .target => 32
  | .host => 64

/-- The number of addresses; pointer and `size_t` arithmetic is modulo this. -/
def Build.space : Build → Nat
  | .target => 2 ^ 32
  | .host => 2 ^ 64

variable (b : Build)

theorem Build.space_ge : 2 ^ 32 ≤ b.space := by cases b <;> decide

theorem Build.space_pos : 0 < b.space := by cases b <;> decide

/-- A 32-bit value is an offset of the address space. -/
theorem Build.word_lt (v : UInt32) : v.toNat < b.space :=
  Nat.lt_of_lt_of_le v.toNat_lt b.space_ge

end Dyndxt
