import Mathlib.Order.WellFounded
import Dyndxt.Run.Turn

/-!
# Loops that count down

A loop leaves from a state when every round that it comes to lowers a rank in
a well-founded order. When every round there is lowers a number, it leaves
within as many rounds, so it is a function of its state.
-/

namespace Dyndxt.Run

/-- A loop whose rounds keep an invariant and lower a rank under it. -/
theorem returns_of_lowers {σ ρ α : Type} [LT α] [WellFoundedLT α] {turn : σ → Turn σ ρ} {s : σ}
    {I : σ → Prop} (rank : σ → α)
    (lowers : ∀ s s', I s → turn s = .again s' → I s' ∧ rank s' < rank s) (start : I s) :
    ∃ r, Returns turn s r := by
  induction rank_s : rank s using WellFoundedLT.induction generalizing s with
  | ind a ih =>
    cases next : turn s with
    | leave r => exact ⟨r, returns_leave next⟩
    | again s' =>
      obtain ⟨kept, lower⟩ := lowers s s' start next
      obtain ⟨r, returns⟩ := ih (rank s') (rank_s ▸ lower) kept rfl
      exact ⟨r, (Steps.one next).returns returns⟩

/-- A loop with a rank that every round lowers. -/
structure Countdown (σ ρ : Type) where
  turn : σ → Turn σ ρ
  rank : σ → Nat
  lowers : ∀ s s', turn s = .again s' → rank s' < rank s

variable {σ ρ : Type} (loop : Countdown σ ρ) {s s' : σ} {r : ρ}

/-- Enough rounds from any state of a rank. -/
theorem Countdown.leaves (n : Nat) (enough : loop.rank s < n) : ∃ r, run loop.turn n s = .leave r := by
  induction n generalizing s with
  | zero => exact absurd enough (Nat.not_lt_zero _)
  | succ n ih =>
    simp only [run]
    cases next : loop.turn s with
    | again s' =>
      have lower := loop.lowers s s' next
      exact ih (by omega)
    | leave r => exact ⟨r, rfl⟩

theorem Countdown.returns (s : σ) : ∃ r, Returns loop.turn s r := by
  obtain ⟨r, left⟩ := loop.leaves (s := s) (loop.rank s + 1) (Nat.lt_succ_self _)
  exact ⟨r, run_returns _ _ left⟩

/-- What the loop leaves with. -/
def Countdown.result (s : σ) : ρ :=
  match left : run loop.turn (loop.rank s + 1) s with
  | .leave r => r
  | .again s' => absurd (loop.leaves (loop.rank s + 1) (Nat.lt_succ_self _)) (by simp [left])

theorem Countdown.result_of_returns (returns : Returns loop.turn s r) : loop.result s = r := by
  obtain ⟨r', left⟩ := loop.leaves (s := s) (loop.rank s + 1) (Nat.lt_succ_self _)
  have same := (run_returns _ _ left).unique returns
  unfold Countdown.result
  split
  · next r'' left' =>
    rw [left] at left'
    cases left'
    exact same
  · next s' stuck =>
    rw [left] at stuck
    cases stuck

theorem Countdown.returns_result (s : σ) : Returns loop.turn s (loop.result s) := by
  obtain ⟨r, returns⟩ := loop.returns s
  rwa [loop.result_of_returns returns]

/-- The loop leaves at once. -/
theorem Countdown.result_leave (left : loop.turn s = .leave r) : loop.result s = r :=
  loop.result_of_returns (returns_leave left)

/-- The loop goes round. -/
theorem Countdown.result_again (next : loop.turn s = .again s') : loop.result s = loop.result s' :=
  loop.result_of_returns ((Steps.one next).returns (loop.returns_result s'))

end Dyndxt.Run
