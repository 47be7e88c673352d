import Mathlib.Logic.Function.Basic
import Dyndxt.Mem.Bytes

/-!
# Accesses that leave a byte alone

A load that does not take in a byte reads the same whatever the byte is, and a
store that does not take it in leaves it.
-/

namespace Dyndxt.Mem

variable {M p n a : Nat} {m : Bytes} {v : UInt8} {w : UInt32}

theorem update_at (far : n ≤ dist M p a) {i : Nat} (ltM : i < M) (lt : i < n) :
    Function.update m a v ((p + i) % M) = m ((p + i) % M) := by
  apply Function.update_of_ne
  rintro rfl
  rw [dist_add (by omega) ltM] at far
  omega

theorem u32_update (room : 4 ≤ M) (far : 4 ≤ dist M p a) :
    u32 M (Function.update m a v) p = u32 M m p :=
  u32_congr fun _ lt => update_at far (by omega) lt

theorem u16_update (room : 2 ≤ M) (far : 2 ≤ dist M p a) :
    u16 M (Function.update m a v) p = u16 M m p :=
  u16_congr fun _ lt => update_at far (by omega) lt

theorem store32_update (far : 4 ≤ dist M p a) :
    store32 M (Function.update m a v) p w = Function.update (store32 M m p w) a v := by
  funext a'
  by_cases same : a' = a
  · subst same
    rw [store32, store_miss _ far, Function.update_self, Function.update_self]
  · rw [store32, store_congr (Function.update_of_ne same _ _), Function.update_of_ne same]
    rfl

/-- A string read that does not take in the byte: neither its characters nor
its terminator. -/
theorem cstring_update (far : (cstring M m p).length < dist M p a) :
    cstring M (Function.update m a v) p = cstring M m p := by
  have go : ∀ n i, i + n ≤ M → i + (cstringUpTo M m n (p + i)).length < dist M p a →
      cstringUpTo M (Function.update m a v) n (p + i) = cstringUpTo M m n (p + i) := by
    intro n
    induction n with
    | zero => exact fun _ _ _ => rfl
    | succ n ih =>
      intro i top far
      have here : Function.update m a v ((p + i) % M) = m ((p + i) % M) := by
        have near : i + 1 ≤ dist M p a := by
          have := Nat.le_add_right i (cstringUpTo M m (n + 1) (p + i)).length
          omega
        exact update_at near (by omega) (Nat.lt_succ_self i)
      simp only [cstringUpTo, here] at far ⊢
      split
      case isTrue => rfl
      case isFalse some =>
        rw [if_neg some, List.length_cons] at far
        have rest := ih (i + 1) (by omega) (by rw [← Nat.add_assoc]; omega)
        rw [← Nat.add_assoc] at rest
        rw [rest]
  have whole := go M 0 (by omega) (by rw [Nat.zero_add, Nat.add_zero]; exact far)
  exact whole

end Dyndxt.Mem
