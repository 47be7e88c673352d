import Mathlib.Data.List.Count
import Mathlib.Data.List.Flatten
import Mathlib.Data.List.Perm.Basic
import Mathlib.Data.List.Nodup
import Dyndxt.Pool.DmPool

/-!
# Who holds which block

`Held bs calls`: the ledger is clean and the blocks live on it are `bs`, in
any order. An allocation adds its block and a free takes one away, so that
code which frees all it holds leaves the ledger as it found it.
-/

namespace Dyndxt.Pool

structure Held (bs : List Nat) (calls : Ledger) : Prop where
  clean : Clean calls
  live : (live calls).Perm bs

/-- Code that takes the pool from one ledger to another, and what it holds from
`bs` to `bs'`, has returned no blocks but those that it held. -/
def Minds (bs : List Nat) (calls : Ledger) (bs' : List Nat) (calls' : Ledger) : Prop :=
  ∀ rest, Held (bs ++ rest) calls → Held (bs' ++ rest) calls'

/-- Blocks returned one after the other. -/
def freeAll (bs : List Nat) (calls : Ledger) : Ledger := bs.foldl (fun calls p => .free p :: calls) calls

/-- Of what was handed out between two ledgers, every block was returned as
often as it was handed out, and nothing else was returned. -/
structure Settles (calls calls' : Ledger) : Prop where
  clean : Clean calls'
  live : (live calls').Perm (live calls)
  freed : ∀ ptr, ptr ≠ 0 → frees ptr calls' + allocs ptr calls = allocs ptr calls' + frees ptr calls

/-- No allocation has returned a block that was live. -/
def Fresh : Ledger → Prop
  | [] => True
  | .alloc _ ptr :: calls => ptr ∉ live calls ∧ Fresh calls
  | .free _ :: calls => Fresh calls

instance instDecidableFresh : (calls : Ledger) → Decidable (Fresh calls)
  | [] => inferInstanceAs (Decidable True)
  | .alloc _ ptr :: calls =>
    have := instDecidableFresh calls
    inferInstanceAs (Decidable (ptr ∉ live calls ∧ Fresh calls))
  | .free _ :: calls => instDecidableFresh calls

variable {bs bs' : List Nat} {calls calls' : Ledger} {size ptr : Nat}

theorem held_live (clean : Clean calls) : Held (live calls) calls := ⟨clean, .refl _⟩

theorem Held.perm (held : Held bs calls) (same : bs.Perm bs') : Held bs' calls :=
  ⟨held.clean, held.live.trans same⟩

theorem Held.alloc (held : Held bs calls) (some : ptr ≠ 0) : Held (ptr :: bs) (.alloc size ptr :: calls) := by
  refine ⟨held.clean, ?_⟩
  rw [live_alloc some]
  exact held.live.cons ptr

theorem Held.allocNull (held : Held bs calls) : Held bs (.alloc size 0 :: calls) := ⟨held.clean, held.live⟩

theorem Held.free (held : Held (ptr :: bs) calls) : Held bs (.free ptr :: calls) := by
  have member : ptr ∈ Pool.live calls := held.live.symm.subset List.mem_cons_self
  refine ⟨⟨member, held.clean⟩, ?_⟩
  have erased := held.live.erase ptr
  rwa [List.erase_cons_head] at erased

/-! ## Frees of many blocks -/

theorem freeAll_append : freeAll (bs ++ bs') calls = freeAll bs' (freeAll bs calls) := List.foldl_append

theorem freeAll_flatMap {α : Type} (blocks : α → List Nat) (xs : List α) (calls : Ledger) :
    xs.foldl (fun calls x => freeAll (blocks x) calls) calls = freeAll (xs.flatMap blocks) calls := by
  induction xs generalizing calls with
  | nil => rfl
  | cons x xs ih => rw [List.foldl_cons, ih, List.flatMap_cons, freeAll_append]

theorem freeString_eq (s : Option PoolString) : freeString calls s = freeAll (stringBlock s) calls := by
  cases s <;> rfl

theorem Held.freeAll (held : Held (bs ++ bs') calls) : Held bs' (freeAll bs calls) := by
  induction bs generalizing calls with
  | nil => exact held
  | cons ptr bs ih => exact ih held.free

theorem frees_freeAll : frees ptr (freeAll bs calls) = frees ptr calls + bs.count ptr := by
  induction bs generalizing calls with
  | nil => rfl
  | cons p bs ih =>
    refine (@ih (.free p :: calls)).trans ?_
    simp only [frees, List.count_cons, beq_iff_eq]
    omega

/-! ## Settled runs -/

/-- A block is live once for every time it was handed out and not returned. -/
theorem Held.balance (held : Held bs calls) (some : ptr ≠ 0) :
    bs.count ptr + frees ptr calls = allocs ptr calls := by
  rw [← held.live.count_eq]
  exact held.clean.balance some

/-- The null pointer is never live. -/
theorem live_some (calls : Ledger) : 0 ∉ Pool.live calls := by
  induction calls with
  | nil => exact List.not_mem_nil
  | cons call calls ih =>
    cases call with
    | alloc size p =>
      by_cases null : p = 0
      · rwa [null, live_alloc_null]
      · rw [live_alloc null, List.mem_cons, not_or]
        exact ⟨Ne.symm null, ih⟩
    | free p => exact fun listed => ih (List.mem_of_mem_erase listed)

theorem Held.some (held : Held bs calls) : ∀ ptr ∈ bs, ptr ≠ 0 := by
  intro ptr listed null
  exact live_some calls (held.live.symm.subset (null ▸ listed))

theorem Held.settles (held : Held (Pool.live calls) calls') (clean : Clean calls) : Settles calls calls' := by
  refine ⟨held.clean, held.live, fun ptr some => ?_⟩
  have before := (held_live clean).balance some
  have after := held.balance some
  omega

/-! ## Fresh blocks -/

theorem Fresh.of_suffix (fresh : Fresh calls') (earlier : calls <:+ calls') : Fresh calls := by
  induction calls' with
  | nil => rwa [List.suffix_nil.mp earlier]
  | cons call calls' ih =>
    rcases List.suffix_cons_iff.mp earlier with rfl | inner
    · exact fresh
    · cases call with
      | alloc size p => exact ih fresh.2 inner
      | free p => exact ih fresh inner

theorem Fresh.nodup (fresh : Fresh calls) : (Pool.live calls).Nodup := by
  induction calls with
  | nil => exact List.nodup_nil
  | cons call calls ih =>
    cases call with
    | alloc size p =>
      obtain ⟨unused, fresh⟩ := fresh
      by_cases null : p = 0
      · rw [null, live_alloc_null]
        exact ih fresh
      · rw [live_alloc null]
        exact (ih fresh).cons unused
    | free p => exact (ih fresh).erase p

theorem Held.nodup (held : Held bs calls) (fresh : Fresh calls) : bs.Nodup := held.live.nodup_iff.mp fresh.nodup

end Dyndxt.Pool
