import Dyndxt.Run.Turn

/-!
# One loop following another

A loop follows another when each of its rounds is a round of the other, or
leaves the other where it is and lowers a count of the rounds it may do so. The
two then leave together, whichever is known to.
-/

namespace Dyndxt.Run

variable {σ σ' ρ ρ' : Type}

structure Follows (turn : σ → Turn σ ρ) (turn' : σ' → Turn σ' ρ') (R : σ → σ' → Prop)
    (Q : ρ → ρ' → Prop) (ahead : σ → Nat) : Prop where
  again : ∀ s t s', R s t → turn s = .again s' →
    (∃ t', turn' t = .again t' ∧ R s' t') ∨ R s' t ∧ ahead s' < ahead s
  leave : ∀ s t r, R s t → turn s = .leave r → ∃ r', turn' t = .leave r' ∧ Q r r'

variable {turn : σ → Turn σ ρ} {turn' : σ' → Turn σ' ρ'} {R : σ → σ' → Prop} {Q : ρ → ρ' → Prop}
  {ahead : σ → Nat} {s s' : σ} {t t' : σ'} {r : ρ} {r' : ρ'}

/-- What the following loop comes to, the other one came to before. -/
theorem Follows.steps (follows : Follows turn turn' R Q ahead) (related : R s t) (steps : Steps turn s s') :
    ∃ t', Steps turn' t t' ∧ R s' t' := by
  induction steps generalizing t with
  | refl => exact ⟨t, .refl t, related⟩
  | step first _ ih =>
    rcases follows.again _ _ _ related first with ⟨t₁, round, related'⟩ | ⟨waits, -⟩
    · obtain ⟨t', rest, related''⟩ := ih related'
      exact ⟨t', .step round rest, related''⟩
    · exact ih waits

/-- Where the following loop leaves, so does the other. -/
theorem Follows.returns (follows : Follows turn turn' R Q ahead) (related : R s t)
    (returns : Returns turn s r) : ∃ r', Returns turn' t r' ∧ Q r r' := by
  obtain ⟨final, steps, left⟩ := returns
  obtain ⟨t', steps', related'⟩ := follows.steps related steps
  obtain ⟨r', left', same⟩ := follows.leave _ _ _ related' left
  exact ⟨r', ⟨t', steps', left'⟩, same⟩

/-- The following loop does not wait forever: it goes on or leaves with the
other. -/
theorem Follows.catches_up (follows : Follows turn turn' R Q ahead) (related : R s t) :
    (∃ r r', Returns turn s r ∧ turn' t = .leave r' ∧ Q r r') ∨
      ∃ s' t', Steps turn s s' ∧ turn' t = .again t' ∧ R s' t' := by
  induction count : ahead s using Nat.strongRecOn generalizing s with
  | ind n ih =>
    cases next : turn s with
    | leave r =>
      obtain ⟨r', left, same⟩ := follows.leave _ _ _ related next
      exact .inl ⟨r, r', returns_leave next, left, same⟩
    | again s' =>
      rcases follows.again _ _ _ related next with ⟨t', round, related'⟩ | ⟨waits, lower⟩
      · exact .inr ⟨s', t', .one next, round, related'⟩
      · rcases ih (ahead s') (count ▸ lower) waits rfl with
          ⟨r, r', returns, left, same⟩ | ⟨s'', t', steps, round, related'⟩
        · exact .inl ⟨r, r', (Steps.one next).returns returns, left, same⟩
        · exact .inr ⟨s'', t', .step next steps, round, related'⟩

/-- What the other loop comes to, the following one comes to as well. -/
theorem Follows.reached (follows : Follows turn turn' R Q ahead) (related : R s t) (steps : Steps turn' t t') :
    ∃ s', Steps turn s s' ∧ R s' t' := by
  induction steps generalizing s with
  | refl t => exact ⟨s, .refl s, related⟩
  | step first _ ih =>
    rcases follows.catches_up related with ⟨_, _, _, left', _⟩ | ⟨s', t', steps, round, related'⟩
    · cases first.symm.trans left'
    · cases first.symm.trans round
      obtain ⟨s'', rest, related''⟩ := ih related'
      exact ⟨s'', steps.trans rest, related''⟩

/-- Where the other loop leaves, so does the following one. -/
theorem Follows.returns_of (follows : Follows turn turn' R Q ahead) (related : R s t)
    (returns : Returns turn' t r') : ∃ r, Returns turn s r ∧ Q r r' := by
  obtain ⟨final, steps, left⟩ := returns
  obtain ⟨s', steps', related'⟩ := follows.reached related steps
  rcases follows.catches_up related' with ⟨r, r'', returns, left', same⟩ | ⟨_, _, _, round, _⟩
  · cases left.symm.trans left'
    exact ⟨r, steps'.returns returns, same⟩
  · cases left.symm.trans round

end Dyndxt.Run
