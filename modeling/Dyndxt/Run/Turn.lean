import Mathlib.Logic.Function.Iterate

/-!
# Loops as machines that take turns

A `while` or `for` loop is a function `turn` from its state to a `Turn`: the
state for the next round, or the result it leaves with. Nested loops are one
such machine whose state names the loop it is in. `run` executes it on a
budget of rounds; `Steps` and `Returns` are what it can reach and leave with
on some budget. A loop that never leaves has no `Returns`.

Nothing here is about a particular program: the state and the result are
parameters.
-/

namespace Dyndxt.Run

/-- What one round of a loop does: go round again or leave. -/
inductive Turn (σ ρ : Type) where
  | again (s : σ)
  | leave (r : ρ)

variable {σ ρ : Type}

/-- At most `n` rounds from `s`. `again` is a loop still running when the
budget is spent. -/
def run (turn : σ → Turn σ ρ) : Nat → σ → Turn σ ρ
  | 0, s => .again s
  | n + 1, s => match turn s with
    | .again s' => run turn n s'
    | .leave r => .leave r

/-- Rounds that all go round again. -/
inductive Steps (turn : σ → Turn σ ρ) : σ → σ → Prop where
  | refl (s : σ) : Steps turn s s
  | step {s s' s'' : σ} : turn s = .again s' → Steps turn s' s'' → Steps turn s s''

/-- The loop leaves with `r`. -/
def Returns (turn : σ → Turn σ ρ) (s : σ) (r : ρ) : Prop :=
  ∃ s', Steps turn s s' ∧ turn s' = .leave r

variable {turn : σ → Turn σ ρ} {s s' s'' : σ} {r r' : ρ}

theorem Steps.one (h : turn s = .again s') : Steps turn s s' := .step h (.refl _)

/-- The state after a round, or the same where it leaves. -/
def goesTo (turn : σ → Turn σ ρ) (s : σ) : σ :=
  match turn s with
  | .again s' => s'
  | .leave _ => s

def Turn.leaves : Turn σ ρ → Bool
  | .again _ => false
  | .leave _ => true

/-- A run that leaves after `n` rounds has been in no other states. -/
theorem Steps.of_leaves {n : Nat} (left : (turn ((goesTo turn)^[n] s)).leaves = true) (h : Steps turn s s') :
    ∃ k ≤ n, s' = (goesTo turn)^[k] s := by
  induction h generalizing n with
  | refl s => exact ⟨0, Nat.zero_le n, rfl⟩
  | @step s s₁ s₂ next _ ih =>
    have moves : goesTo turn s = s₁ := by
      unfold goesTo
      rw [next]
    cases n with
    | zero =>
      have left : (turn s).leaves = true := left
      rw [next] at left
      cases left
    | succ n =>
      rw [Function.iterate_succ_apply, moves] at left
      obtain ⟨k, le, there⟩ := ih left
      exact ⟨k + 1, Nat.succ_le_succ le, by rw [Function.iterate_succ_apply, moves, there]⟩

theorem Steps.trans (h : Steps turn s s') (h' : Steps turn s' s'') : Steps turn s s'' := by
  induction h with
  | refl => exact h'
  | step first _ ih => exact .step first (ih h')

theorem Steps.snoc (h : Steps turn s s') (last : turn s' = .again s'') : Steps turn s s'' :=
  h.trans (.one last)

/-- A loop that reaches a state with a result has that result. -/
theorem Steps.returns (h : Steps turn s s') (post : Returns turn s' r) : Returns turn s r := by
  obtain ⟨final, rest, left⟩ := post
  exact ⟨final, h.trans rest, left⟩

/-- What a loop leaves with, it leaves with from every state it comes to. -/
theorem Steps.returns_from (h : Steps turn s s') (post : Returns turn s r) : Returns turn s' r := by
  induction h with
  | refl => exact post
  | step first _ ih =>
    obtain ⟨final, steps, left⟩ := post
    cases steps with
    | refl => exact nomatch first.symm.trans left
    | step first' rest =>
      rw [Turn.again.inj (first.symm.trans first')] at ih
      exact ih ⟨final, rest, left⟩

/-- A map that commutes with every round from `s` maps what is reached. -/
theorem Steps.map {f : σ → σ} (h : Steps turn s s')
    (commutes : ∀ t t', Steps turn s t → turn t = .again t' → turn (f t) = .again (f t')) :
    Steps turn (f s) (f s') := by
  induction h with
  | refl s => exact .refl (f s)
  | step first _ ih =>
    refine .step (commutes _ _ (.refl _) first) (ih fun t t' reached next => ?_)
    exact commutes t t' (.step first reached) next

theorem returns_leave (h : turn s = .leave r) : Returns turn s r := ⟨s, .refl s, h⟩

/-! ## Invariants -/

/-- What every round keeps holds at every state reached. -/
theorem Steps.invariant {I : σ → Prop} (kept : ∀ s s', I s → turn s = .again s' → I s')
    (h : Steps turn s s') (start : I s) : I s' := by
  induction h with
  | refl => exact start
  | step first _ ih => exact ih (kept _ _ start first)

/-- What every round keeps holds of the result too, if leaving keeps it. -/
theorem Returns.invariant {I : σ → Prop} {Q : ρ → Prop} (h : Returns turn s r)
    (kept : ∀ s s', I s → turn s = .again s' → I s') (left : ∀ s r, I s → turn s = .leave r → Q r)
    (start : I s) : Q r := by
  obtain ⟨final, steps, leaves⟩ := h
  exact left final r (steps.invariant kept start) leaves

/-! ## Runs on a budget -/

theorem run_returns : ∀ (n : Nat) (s : σ), run turn n s = .leave r → Returns turn s r
  | 0, s, h => by cases h
  | n + 1, s, h => by
    simp only [run] at h
    split at h
    · next s₁ first => exact (Steps.one first).returns (run_returns n s₁ h)
    · next r₁ left => cases h; exact returns_leave left

/-- A run through a state reached goes on from there. -/
theorem run_add_of_steps (h : Steps turn s s') : ∃ n, ∀ m, run turn (n + m) s = run turn m s' := by
  induction h with
  | refl => exact ⟨0, fun m => by rw [Nat.zero_add]⟩
  | step first _ ih =>
    obtain ⟨n, hn⟩ := ih
    refine ⟨n + 1, fun m => ?_⟩
    rw [Nat.add_right_comm]
    simpa only [Run.run, first] using hn m

/-- `I` of a loop that is still going, `Q` of its result. -/
def Turn.Holds (I : σ → Prop) (Q : ρ → Prop) : Turn σ ρ → Prop
  | .again s => I s
  | .leave r => Q r

theorem Turn.Holds.mono {I J : σ → Prop} {Q R : ρ → Prop} {t : Turn σ ρ} (h : t.Holds I Q)
    (again : ∀ s, I s → J s) (leave : ∀ r, Q r → R r) : t.Holds J R := by
  cases t with
  | again s => exact again s h
  | leave r => exact leave r h

/-- The invariant rule for runs on a budget. -/
theorem run_holds {I : σ → Prop} {Q : ρ → Prop} (kept : ∀ s s', I s → turn s = .again s' → I s')
    (left : ∀ s r, I s → turn s = .leave r → Q r) (n : Nat) (start : I s) :
    (run turn n s).Holds I Q := by
  induction n generalizing s with
  | zero => exact start
  | succ n ih =>
    simp only [run]
    cases first : turn s with
    | again s' => exact ih (kept s s' start first)
    | leave r => exact left s r start first

/-- What a round keeps as long as the run stays within `I`, a run that stays
within it keeps. -/
theorem run_holds_within {I J : σ → Prop} {Q R : ρ → Prop}
    (kept : ∀ s, J s → (turn s).Holds I Q → (turn s).Holds J R) (within : ∀ n, (run turn n s).Holds I Q) (n : Nat)
    (start : J s) : (run turn n s).Holds J R := by
  induction n generalizing s with
  | zero => exact start
  | succ n ih =>
    have one := within 1
    simp only [run] at one ⊢
    cases first : turn s with
    | again s' =>
      rw [first] at one
      have next : J s' := by
        have holds := kept s start (by rw [first]; exact one)
        rwa [first] at holds
      refine ih (fun n => ?_) next
      have later := within (n + 1)
      simp only [run, first] at later
      exact later
    | leave r =>
      rw [first] at one
      have holds := kept s start (by rw [first]; exact one)
      rwa [first] at holds

/-- A machine that some rounds of another are cut short in keeps to what the
other does. -/
theorem run_holds_of_cut {turn' : σ → Turn σ ρ} {I : σ → Prop} {Q : ρ → Prop}
    (cut : ∀ s, turn s = .leave r ∨ turn s = turn' s) (left : Q r) (n : Nat) (holds : (run turn' n s).Holds I Q) :
    (run turn n s).Holds I Q := by
  induction n generalizing s with
  | zero => exact holds
  | succ n ih =>
    obtain short | same := cut s
    · simp only [run, short]
      exact left
    · simp only [run, same] at holds ⊢
      cases first : turn' s with
      | again s' =>
        rw [first] at holds
        exact ih holds
      | leave r' =>
        rw [first] at holds
        exact holds

/-- A result needs some budget, and any larger one gives the same. -/
theorem Returns.eventually (h : Returns turn s r) : ∃ n, ∀ m, n ≤ m → run turn m s = .leave r := by
  obtain ⟨final, steps, left⟩ := h
  induction steps with
  | refl =>
    refine ⟨1, fun m hm => ?_⟩
    obtain ⟨k, rfl⟩ : ∃ k, m = k + 1 := ⟨m - 1, by omega⟩
    simp only [Run.run, left]
  | step first _ ih =>
    obtain ⟨n, hn⟩ := ih left
    refine ⟨n + 1, fun m hm => ?_⟩
    obtain ⟨k, rfl⟩ : ∃ k, m = k + 1 := ⟨m - 1, by omega⟩
    simpa only [Run.run, first] using hn k (by omega)

theorem run_eq_of_le {n m : Nat} (h : run turn n s = .leave r) (le : n ≤ m) :
    run turn m s = .leave r := by
  induction n generalizing s m with
  | zero => cases h
  | succ n ih =>
    obtain ⟨k, rfl⟩ : ∃ k, m = k + 1 := ⟨m - 1, by omega⟩
    simp only [run] at h ⊢
    split at h
    · exact ih h (by omega)
    · exact h

/-- A loop has at most one result. -/
theorem Returns.unique (h : Returns turn s r) (h' : Returns turn s r') : r = r' := by
  obtain ⟨n, hn⟩ := h.eventually
  obtain ⟨n', hn'⟩ := h'.eventually
  have same := (hn (n + n') (by omega)).symm.trans (hn' (n + n') (by omega))
  cases same
  rfl

end Dyndxt.Run
