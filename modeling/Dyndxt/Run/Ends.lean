import Mathlib.Data.List.Basic

/-!
# Postconditions of a computation that may refuse

`Ends post refused x`: the computation `x` succeeds with a value that meets
`post` or refuses with an error that meets `refused`. The rules follow the
ways such computations are put together.
-/

namespace Dyndxt.Run

variable {ε α β σ : Type}

def Ends (post : α → Prop) (refused : ε → Prop) : Except ε α → Prop
  | .ok a => post a
  | .error e => refused e

variable {post post' : α → Prop} {refused refused' : ε → Prop} {x : Except ε α}

@[simp] theorem ends_ok {a : α} : Ends post refused (.ok a) ↔ post a := Iff.rfl

@[simp] theorem ends_error {e : ε} : Ends post refused (.error e) ↔ refused e := Iff.rfl

theorem Ends.mono (h : Ends post refused x) (toPost : ∀ a, post a → post' a)
    (toRefused : ∀ e, refused e → refused' e) : Ends post' refused' x := by
  cases x with
  | ok a => exact toPost a h
  | error e => exact toRefused e h

theorem Ends.and (h : Ends post refused x) (h' : Ends post' refused' x) :
    Ends (fun a => post a ∧ post' a) (fun e => refused e ∧ refused' e) x := by
  cases x with
  | ok a => exact ⟨h, h'⟩
  | error e => exact ⟨h, h'⟩

/-- What holds of either outcome holds of one value. -/
theorem Ends.meet {post post' : ε → Prop} {x : Except ε ε} (h : Ends post post x)
    (h' : Ends post' post' x) : ∃ e, post e ∧ post' e := by
  cases x with
  | ok e => exact ⟨e, h, h'⟩
  | error e => exact ⟨e, h, h'⟩

/-- One computation after another, refusing alike. -/
theorem Ends.bind {mid : α → Prop} {post : β → Prop} {f : α → Except ε β} (h : Ends mid refused x)
    (next : ∀ a, mid a → Ends post refused (f a)) : Ends post refused (x >>= f) := by
  cases x with
  | ok a => exact next a h
  | error e => exact h

/-- A branch on either side. -/
theorem Ends.ite {p : Prop} [Decidable p] {y : Except ε α} (yes : p → Ends post refused x)
    (no : ¬ p → Ends post refused y) : Ends post refused (if p then x else y) := by
  split
  case isTrue holds => exact yes holds
  case isFalse fails => exact no fails

end Dyndxt.Run
