import Dyndxt.Mem.Copies
import Dyndxt.Mem.Slots

/-!
# Two address spaces

Memory that is read and written modulo two sizes. Bytes below the smaller one
that are the same are read the same, and stay the same under the same writes.
-/

namespace Dyndxt.Mem

variable {M M' p : Nat} {m m' source source' : Bytes} {v amount : UInt32} {s : List UInt8}

/-! ## Reads -/

theorem byte_space (lt : p < M) (le : M ≤ M') : m (p % M') = m (p % M) := by
  rw [Nat.mod_eq_of_lt lt, Nat.mod_eq_of_lt (Nat.lt_of_lt_of_le lt le)]

theorem u16_space (fits : p + 2 ≤ M) (le : M ≤ M') : u16 M' m p = u16 M m p := by
  have first : m (p % M') = m (p % M) := byte_space (by omega) le
  have second : m ((p + 1) % M') = m ((p + 1) % M) := byte_space (by omega) le
  rw [u16, u16, first, second]

theorem u32_space (fits : p + 4 ≤ M) (le : M ≤ M') : u32 M' m p = u32 M m p := by
  have first : m (p % M') = m (p % M) := byte_space (by omega) le
  have byte (i : Nat) (lt : i < 4) : m ((p + i) % M') = m ((p + i) % M) := byte_space (by omega) le
  rw [u32, u32, first, byte 1 (by decide), byte 2 (by decide), byte 3 (by decide)]

theorem StrAt.space (h : StrAt M m p s) (same : SameOn p (p + (s.length + 1)) m m') (le : M ≤ M') :
    StrAt M' m' p s := by
  obtain ⟨fits, bytes, nonzero, nul⟩ := h.congr same
  exact ⟨Nat.lt_of_lt_of_le fits le, bytes, nonzero, nul⟩

/-! ## Reads of equal bytes -/

section

variable {lo hi : Nat} (same : SameOn lo hi m m') (low : lo ≤ p) (fits : hi ≤ M) (le : M ≤ M')

include same low fits le

theorem SameOn.byte_space (high : p < hi) : m' (p % M') = m (p % M) := by
  rw [Nat.mod_eq_of_lt (by omega), Nat.mod_eq_of_lt (by omega), same p low high]

theorem SameOn.u16_space (high : p + 2 ≤ hi) : Mem.u16 M' m' p = Mem.u16 M m p := by
  rw [Mem.u16_space (by omega) le]
  exact same.u16 low high fits

theorem SameOn.u32_space (high : p + 4 ≤ hi) : Mem.u32 M' m' p = Mem.u32 M m p := by
  rw [Mem.u32_space (by omega) le]
  exact same.u32 low high fits

end

/-! ## Writes -/

section

variable {S : Nat → Prop} (same : ∀ a, S a → m' a = m a) (below : ∀ a, S a → a < M) (le : M ≤ M')

include same below le

theorem store32_space (fits : p + 4 ≤ M) : ∀ a, S a → store32 M' m' p v a = store32 M m p v a := by
  intro a inside
  have lt := below a inside
  rw [store32, store32, store_apply _ fits lt, store_apply _ (by omega) (by omega), same a inside]

theorem addAt_space (word : ∀ k < 4, S (p + k)) : ∀ a, S a → addAt M' amount m' p a = addAt M amount m p a := by
  have last := below _ (word 3 (by decide))
  have bytes : SameOn p (p + 4) m m' := fun a low high => by
    have inside := word (a - p) (by omega)
    rw [show p + (a - p) = a by omega] at inside
    exact same a inside
  rw [addAt, addAt, bytes.u32_space (Nat.le_refl p) last le (Nat.le_refl _)]
  exact store32_space same below le last

theorem addAll_space {words : List Nat} (inside : ∀ w ∈ words, ∀ k < 4, S (w + k)) :
    ∀ a, S a → addAll M' amount words m' a = addAll M amount words m a := by
  induction words generalizing m m' with
  | nil => exact same
  | cons w words ih =>
    obtain ⟨here, inside⟩ := List.forall_mem_cons.mp inside
    exact ih (addAt_space same below le here) inside

theorem putAll_space {slots : List (Nat × UInt32)} (fits : ∀ slot ∈ slots, slot.1 + 4 ≤ M) :
    ∀ a, S a → putAll M' slots m' a = putAll M slots m a := by
  induction slots generalizing m m' with
  | nil => exact same
  | cons slot slots ih =>
    obtain ⟨here, fits⟩ := List.forall_mem_cons.mp fits
    exact ih (store32_space same below le here) fits

end

/-! ## Copies -/

/-- Copies between ranges below the smaller size bring the same bytes. -/
theorem copiedByte_space {copies : List Copy} {a hi : Nat} (same : SameOn 0 hi source source') (top : hi ≤ M)
    (le : M ≤ M') (lt : a < M) (fits : ∀ c ∈ copies, c.dest + c.len ≤ M)
    (inSource : ∀ c ∈ copies, c.len ≠ 0 → c.src + c.len ≤ hi) :
    copiedByte M' source' copies a = copiedByte M source copies a := by
  induction copies with
  | nil => rfl
  | cons c copies ih =>
    obtain ⟨here, fits⟩ := List.forall_mem_cons.mp fits
    obtain ⟨src, inSource⟩ := List.forall_mem_cons.mp inSource
    rw [copiedByte_cons, copiedByte_cons, ih fits inSource]
    have wide : c.Covers M' a ↔ c.dest ≤ a ∧ a < c.dest + c.len := Copy.covers_iff (by omega) (by omega)
    have narrow : c.Covers M a ↔ c.dest ≤ a ∧ a < c.dest + c.len := Copy.covers_iff here lt
    by_cases covers : c.dest ≤ a ∧ a < c.dest + c.len
    · have inside := src (by omega)
      have byte : source' ((c.src + (a - c.dest)) % M') = source ((c.src + (a - c.dest)) % M) :=
        same.byte_space (Nat.zero_le _) top le (by omega)
      rw [if_pos (wide.mpr covers), if_pos (narrow.mpr covers), Copy.origin_eq (by omega) covers.1,
        Copy.origin_eq lt covers.1, byte]
    · rw [if_neg fun inside => covers (wide.mp inside), if_neg fun inside => covers (narrow.mp inside)]

end Dyndxt.Mem
