import Mathlib.Data.List.GetD
import Dyndxt.Mem.Bytes

/-!
# Writing a list of bytes

The bytes of a list written to consecutive addresses. Two lists written one
behind the other are their concatenation written at once.
-/

namespace Dyndxt.Mem

/-- `bytes` written at `p` and up. -/
def place (M : Nat) (m : Bytes) (p : Nat) (bytes : List UInt8) : Bytes :=
  store M m p bytes.length fun i => bytes.getD i 0

variable {M : Nat} {m : Bytes} {p a k : Nat} {xs ys : List UInt8}

theorem dist_mod : dist M p (a % M) = dist M p a := by
  simp only [dist, Nat.mod_add_mod]

/-- The distance to an address above a point further up. -/
theorem dist_advance (pos : 0 < M) (le : k ≤ dist M p a) : dist M (p + k) a = dist M p a - k := by
  have near : dist M p a < M := Nat.mod_lt _ pos
  have there := @dist_add M (p + k) (dist M p a - k) pos (by omega)
  rw [show p + k + (dist M p a - k) = p + dist M p a by omega] at there
  have back := @add_dist M p (a % M) (Nat.mod_lt a pos)
  rw [dist_mod] at back
  rwa [back, dist_mod] at there

/-- The distance to an address below a point further up: almost all the way
round. -/
theorem dist_behind (lt : dist M p a < k) (le : k ≤ M) : dist M (p + k) a = dist M p a + M - k := by
  have pos : 0 < M := by omega
  have there := @dist_add M (p + k) (dist M p a + M - k) pos (by omega)
  rw [show p + k + (dist M p a + M - k) = p + dist M p a + M by omega, Nat.add_mod_right] at there
  have back := @add_dist M p (a % M) (Nat.mod_lt a pos)
  rw [dist_mod] at back
  rwa [back, dist_mod] at there

/-- An address is the same modulo the space. -/
theorem place_mod : place M m (p % M) xs = place M m p xs := by
  funext a
  have same : dist M (p % M) a = dist M p a := by simp only [dist, Nat.mod_mod]
  unfold place store
  rw [same]

theorem place_append (fits : xs.length + ys.length ≤ M) :
    place M (place M m p xs) (p + xs.length) ys = place M m p (xs ++ ys) := by
  funext a
  unfold place store
  dsimp only
  rw [List.length_append]
  by_cases first : dist M p a < xs.length
  · have second := dist_behind first (by omega)
    rw [if_neg (by omega), if_pos first, if_pos (by omega), List.getD_append _ _ _ _ first]
  · by_cases some : M = 0
    · have none : xs.length = 0 ∧ ys.length = 0 := by omega
      rw [none.1, none.2]
      simp
    · have second := @dist_advance M p a xs.length (by omega) (by omega)
      rw [second]
      by_cases near : dist M p a < xs.length + ys.length
      · rw [if_pos (by omega), if_pos near, List.getD_append_right _ _ _ _ (by omega)]
      · rw [if_neg (by omega), if_neg first, if_neg near]

/-- What is written over is gone. -/
theorem place_place (covers : xs.length ≤ ys.length) : place M (place M m p xs) p ys = place M m p ys := by
  funext a
  unfold place store
  dsimp only
  by_cases near : dist M p a < ys.length
  · rw [if_pos near, if_pos near]
  · rw [if_neg near, if_neg near, if_neg (by omega)]

theorem place_get {i : Nat} (fits : xs.length ≤ M) (lt : i < xs.length) :
    place M m p xs ((p + i) % M) = xs[i] := by
  unfold place
  rw [store_hit (by omega) _ (by omega) lt, List.getD_eq_getElem _ _ lt]

/-- A byte written over another. -/
theorem place_set {i : Nat} {c : UInt8} (fits : xs.length ≤ M) (lt : i < xs.length) :
    place M (place M m p xs) (p + i) [c] = place M m p (xs.set i c) := by
  funext a
  unfold place store
  dsimp only
  rw [List.length_set, List.length_singleton]
  rcases Nat.lt_trichotomy (dist M p a) i with below | same | above
  · have around := dist_behind below (by omega)
    rw [if_neg (by omega), if_pos (by omega), if_pos (by omega), List.getD_eq_getElem _ _ (by omega),
      List.getD_eq_getElem _ _ (by rw [List.length_set]; omega), List.getElem_set_ne (by omega)]
  · have there := @dist_advance M p a i (by omega) (by omega)
    have here : dist M (p + i) a = 0 := by omega
    have set_ : i < (xs.set i c).length := by rwa [List.length_set]
    rw [here, same, if_pos Nat.zero_lt_one, if_pos lt, List.getD_eq_getElem _ _ set_, List.getElem_set_self]
    rfl
  · have there := @dist_advance M p a i (by omega) (by omega)
    rw [if_neg (by omega)]
    by_cases near : dist M p a < xs.length
    · rw [if_pos near, if_pos near, List.getD_eq_getElem _ _ near,
        List.getD_eq_getElem _ _ (by rwa [List.length_set]), List.getElem_set_ne (by omega)]
    · rw [if_neg near, if_neg near]

end Dyndxt.Mem
