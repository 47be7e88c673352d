import Mathlib.Data.List.Basic

/-!
# Allocation ledgers

The calls an allocator has seen, newest first. `live` are the blocks handed
out and not yet returned; a ledger is `Clean` when every block returned was
live at that moment, so that none is returned twice and nothing that was not
handed out is returned. The null pointer `0` is a failed allocation.
-/

namespace Dyndxt.Pool

inductive PoolCall where
  | alloc (size ptr : Nat)
  | free (ptr : Nat)
deriving DecidableEq, Repr

/-- Newest call first. -/
abbrev Ledger := List PoolCall

/-- The blocks handed out and not yet returned, newest first. -/
def live : Ledger → List Nat
  | [] => []
  | .alloc _ ptr :: calls => if ptr = 0 then live calls else ptr :: live calls
  | .free ptr :: calls => (live calls).erase ptr

/-- Every block returned was live. -/
def Clean : Ledger → Prop
  | [] => True
  | .alloc _ _ :: calls => Clean calls
  | .free ptr :: calls => ptr ∈ live calls ∧ Clean calls

/-- The call did not fail. -/
def PoolCall.Granted : PoolCall → Prop
  | .alloc _ ptr => ptr ≠ 0
  | .free _ => True

instance : DecidablePred PoolCall.Granted
  | .alloc _ _ => inferInstanceAs (Decidable (_ ≠ _))
  | .free _ => inferInstanceAs (Decidable True)

/-- No allocation failed. -/
def Granted (calls : Ledger) : Prop := ∀ call ∈ calls, call.Granted

instance (calls : Ledger) : Decidable (Granted calls) := inferInstanceAs (Decidable (∀ _ ∈ _, _))

/-- How often a block was handed out. -/
def allocs (ptr : Nat) : Ledger → Nat
  | [] => 0
  | .alloc _ p :: calls => allocs ptr calls + if p = ptr then 1 else 0
  | .free _ :: calls => allocs ptr calls

/-- How often a block was returned. -/
def frees (ptr : Nat) : Ledger → Nat
  | [] => 0
  | .alloc _ _ :: calls => frees ptr calls
  | .free p :: calls => frees ptr calls + if p = ptr then 1 else 0

variable {calls calls' : Ledger} {size ptr : Nat}

@[simp] theorem live_nil : live [] = [] := rfl

@[simp] theorem live_alloc_null : live (.alloc size 0 :: calls) = live calls := rfl

theorem live_alloc (some : ptr ≠ 0) : live (.alloc size ptr :: calls) = ptr :: live calls := by
  simp only [live, some, if_false]

@[simp] theorem live_free : live (.free ptr :: calls) = (live calls).erase ptr := rfl

@[simp] theorem clean_nil : Clean [] := trivial

@[simp] theorem clean_alloc : Clean (.alloc size ptr :: calls) ↔ Clean calls := Iff.rfl

@[simp] theorem clean_free : Clean (.free ptr :: calls) ↔ ptr ∈ live calls ∧ Clean calls := Iff.rfl

/-- An allocation that failed is on every later ledger. -/
theorem Granted.of_suffix (h : Granted calls') (earlier : calls <:+ calls') : Granted calls :=
  fun call listed => h call (earlier.subset listed)

/-- Calls made one after another only add to the ledger. -/
theorem suffix_foldl {β : Type} {more : Ledger → β → Ledger} (grows : ∀ calls x, calls <:+ more calls x)
    (xs : List β) (calls : Ledger) : calls <:+ xs.foldl more calls := by
  induction xs generalizing calls with
  | nil => exact List.suffix_rfl
  | cons x xs ih => exact (grows calls x).trans (ih _)

theorem not_granted_null : ¬ Granted (.alloc size 0 :: calls) := fun h => h _ List.mem_cons_self rfl

/-- On a clean ledger a block is live once for every time it was handed out
and not returned. -/
theorem Clean.balance (clean : Clean calls) (some : ptr ≠ 0) :
    (live calls).count ptr + frees ptr calls = allocs ptr calls := by
  induction calls with
  | nil => rfl
  | cons call calls ih =>
    cases call with
    | alloc size p =>
      have before := ih clean
      by_cases null : p = 0
      · subst null
        simp only [live_alloc_null, frees, allocs, Ne.symm some, if_false]
        omega
      · simp only [live_alloc null, List.count_cons, frees, allocs, beq_iff_eq]
        omega
    | free p =>
      obtain ⟨member, clean⟩ := clean
      have before := ih clean
      by_cases same : p = ptr
      · subst same
        have positive := List.count_pos_iff.mpr member
        simp only [live_free, List.count_erase_self, frees, allocs, if_true]
        omega
      · simp only [live_free, List.count_erase_of_ne (Ne.symm same), frees, allocs, same, if_false]
        omega

/-- Two clean ledgers with the same live blocks: whatever was handed out in
between was returned as often. -/
theorem Clean.settled (clean : Clean calls) (clean' : Clean calls') (same : live calls' = live calls)
    (some : ptr ≠ 0) : frees ptr calls' + allocs ptr calls = allocs ptr calls' + frees ptr calls := by
  have before := clean.balance some
  have after := clean'.balance some
  rw [same] at after
  omega

end Dyndxt.Pool
