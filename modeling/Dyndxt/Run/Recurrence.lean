import Mathlib.Data.Finite.Prod
import Mathlib.Order.Preorder.Finite
import Dyndxt.Run.Turn

/-!
# Loops that come back

A loop whose rounds depend on what is observed of its state, with finitely many
observations to make: it leaves exactly when it never comes back to a state
that looks like one it was in.
-/

namespace Dyndxt.Run

variable {σ ρ τ : Type} {turn : σ → Turn σ ρ} {obs : σ → τ} {s s' t u : σ} {r : ρ} {n m : Nat}

/-- At least one round. -/
def Goes (turn : σ → Turn σ ρ) (s s' : σ) : Prop := ∃ t, turn s = .again t ∧ Steps turn t s'

theorem run_add : run turn (n + m) s = match run turn n s with
    | .again s' => run turn m s'
    | .leave r => .leave r := by
  induction n generalizing s with
  | zero => rw [Nat.zero_add]; rfl
  | succ n ih =>
    rw [Nat.add_right_comm]
    simp only [run]
    cases turn s with
    | again s' => exact ih
    | leave r => rfl

theorem steps_of_run (h : run turn n s = .again s') : Steps turn s s' := by
  have holds := run_holds (I := Steps turn s) (Q := fun _ => True) (fun _ _ steps next => steps.snoc next)
    (fun _ _ _ _ => trivial) n (.refl s)
  rwa [h] at holds

/-- A run that is still going later has gone at least one round further. -/
theorem goes_of_run (first : run turn n s = .again t) (later : run turn (n + (m + 1)) s = .again u) :
    Goes turn t u := by
  rw [run_add, first] at later
  simp only [run] at later
  cases next : turn t with
  | again t' =>
    rw [next] at later
    exact ⟨t', next, steps_of_run later⟩
  | leave r =>
    rw [next] at later
    cases later

/-- The rounds depend on what is observed only. -/
def Observes (turn : σ → Turn σ ρ) (obs : σ → τ) : Prop :=
  ∀ s t s', obs s = obs t → turn s = .again s' → ∃ t', turn t = .again t' ∧ obs s' = obs t'

/-- States that look alike leave alike. -/
theorem Observes.run_leave (observes : Observes turn obs) (same : obs s = obs t)
    (left : run turn n s = .leave r) : ∃ r', run turn n t = .leave r' := by
  induction n generalizing s t with
  | zero => cases left
  | succ n ih =>
    simp only [run] at left ⊢
    cases next : turn t with
    | leave r' => exact ⟨r', rfl⟩
    | again t' =>
      obtain ⟨s', again, same'⟩ := observes t s t' same.symm next
      rw [again] at left
      exact ih same'.symm left

/-- A loop that comes back to what it looked like never leaves. -/
theorem Observes.never_returns (observes : Observes turn obs) (goes : Goes turn s s')
    (same : obs s = obs s') : ¬ ∃ r, Returns turn s r := by
  rintro ⟨r, returns⟩
  obtain ⟨n, leaves⟩ := returns.eventually
  obtain ⟨t, first, rest⟩ := goes
  obtain ⟨k, reaches⟩ := run_add_of_steps rest
  have around (m : Nat) : run turn (k + m + 1) s = run turn m s' := by
    simp only [run, first]
    exact reaches m
  -- a budget that is enough leaves enough when the way round is taken off
  have none : ∀ n r, run turn n s ≠ .leave r := by
    intro n
    induction n using Nat.strong_induction_on with
    | _ n ih =>
      intro r left
      rcases Nat.lt_or_ge k n with long | short
      · obtain ⟨m, rfl⟩ : ∃ m, n = k + m + 1 := ⟨n - k - 1, by omega⟩
        rw [around] at left
        obtain ⟨r', back⟩ := observes.run_leave same.symm left
        exact ih m (by omega) r' back
      · have later := run_eq_of_le left (by omega : n ≤ k + 0 + 1)
        cases (around 0).symm.trans later
  exact none n r (leaves n (Nat.le_refl n))

/-- A round that changes nothing is followed by no other. -/
theorem never_returns_of_stays (steps : Steps turn s s') (stays : turn s' = .again s') :
    ¬ ∃ r, Returns turn s r := by
  rintro ⟨r, returns⟩
  have observes : Observes turn id := fun s t s' same next => ⟨s', by rwa [← id_eq s, same] at next, rfl⟩
  exact observes.never_returns ⟨s', stays, .refl s'⟩ rfl ⟨r, steps.returns_from returns⟩

/-- With finitely many observations to make, a loop leaves exactly when no
state that it comes to comes back. -/
theorem Observes.returns_iff (observes : Observes turn obs)
    (finite : {o | ∃ t, Steps turn s t ∧ obs t = o}.Finite) :
    (∃ r, Returns turn s r) ↔ ¬ ∃ t u, Steps turn s t ∧ Goes turn t u ∧ obs t = obs u := by
  constructor
  · rintro ⟨r, returns⟩ ⟨t, u, reached, goes, same⟩
    exact observes.never_returns goes same ⟨r, reached.returns_from returns⟩
  · intro never
    by_contra stuck
    have going : ∀ n, ∃ t, run turn n s = .again t := by
      intro n
      cases ran : run turn n s with
      | again t => exact ⟨t, rfl⟩
      | leave r => exact absurd ⟨r, run_returns n s ran⟩ stuck
    choose at_ ran using going
    have seen : ∀ n, obs (at_ n) ∈ {o | ∃ t, Steps turn s t ∧ obs t = o} :=
      fun n => ⟨at_ n, steps_of_run (ran n), rfl⟩
    obtain ⟨n, m, lt, same⟩ := finite.exists_lt_map_eq_of_forall_mem seen
    obtain ⟨k, rfl⟩ : ∃ k, m = n + (k + 1) := ⟨m - n - 1, by omega⟩
    exact never ⟨at_ n, at_ (n + (k + 1)), steps_of_run (ran n), goes_of_run (ran n) (ran _), same⟩

end Dyndxt.Run
