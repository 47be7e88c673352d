import Mathlib.Data.List.Basic

/-!
# Runs of a system that takes actions

`Path step allowed s s'`: from `s`, steps whose actions are all allowed in the
state they are taken in lead to `s'`.
-/

namespace Dyndxt.Run

variable {σ α : Type}

inductive Path (step : σ → α → Option σ) (allowed : σ → α → Prop) (s : σ) : σ → Prop where
  | refl : Path step allowed s s
  | snoc {s' s'' : σ} (a : α) : Path step allowed s s' → allowed s' a → step s' a = some s'' →
      Path step allowed s s''

variable {step : σ → α → Option σ} {allowed allowed' : σ → α → Prop} {s s' : σ}

/-- What every allowed step keeps holds at every state reached. -/
theorem Path.invariant {I : σ → Prop} (path : Path step allowed s s')
    (kept : ∀ s a s', I s → allowed s a → step s a = some s' → I s') (start : I s) : I s' := by
  induction path with
  | refl => exact start
  | snoc a _ allows next ih => exact kept _ a _ ih allows next

theorem Path.trans {s'' : σ} (first : Path step allowed s s') (rest : Path step allowed s' s'') :
    Path step allowed s s'' := by
  induction rest with
  | refl => exact first
  | snoc a _ allows next ih => exact .snoc a ih allows next

/-- If every allowed step is an allowed step of another system, so is a run. -/
theorem Path.refine {β : Type} {step' : σ → β → Option σ} {allows : σ → β → Prop} (path : Path step allowed s s')
    (matched : ∀ s a s', allowed s a → step s a = some s' → ∃ b, allows s b ∧ step' s b = some s') :
    Path step' allows s s' := by
  induction path with
  | refl => exact .refl
  | snoc a _ allowed next ih =>
    obtain ⟨b, allows, next'⟩ := matched _ a _ allowed next
    exact .snoc b ih allows next'

/-- Actions taken one after the other, whatever is allowed. -/
theorem path_of_foldlM {actions : List α} (followed : actions.foldlM step s = some s') :
    Path step (fun _ _ => True) s s' := by
  induction actions generalizing s with
  | nil =>
    cases followed
    exact .refl
  | cons a actions ih =>
    rw [List.foldlM_cons] at followed
    cases next : step s a with
    | none => rw [next] at followed; cases followed
    | some s₁ =>
      rw [next] at followed
      exact (Path.snoc a .refl trivial next).trans (ih followed)

end Dyndxt.Run
