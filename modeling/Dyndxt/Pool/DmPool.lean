import Mathlib.Algebra.Group.Nat.Defs
import Dyndxt.Pool.Ledger

/-!
# The debug monitor's pool

`DmAllocatePoolWithTag` and `DmFreePool` on a ledger. What an allocation
returns is the parameter `alloc`, which may depend on every call before it.
-/

namespace Dyndxt.Pool

/-- A string in a pool block. -/
structure PoolString where
  block : Nat
  chars : List UInt8
deriving DecidableEq, Repr

/-- The block of a string that is not null. -/
def stringBlock (s : Option PoolString) : List Nat := s.toList.map (·.block)

section

variable (alloc : Ledger → Nat → Nat)

/-- `DmAllocatePoolWithTag`. -/
def dmAllocatePoolWithTag (calls : Ledger) (size : Nat) : Nat × Ledger :=
  (alloc calls size, .alloc size (alloc calls size) :: calls)

/-- `DmFreePool` of a string that is not null. -/
def freeString (calls : Ledger) : Option PoolString → Ledger
  | some s => .free s.block :: calls
  | none => calls

/-- `PoolStrdup`. -/
def poolStrdup (calls : Ledger) (source : List UInt8) : Option PoolString × Ledger :=
  let size := (source.length + 1) % 2 ^ 32
  let (ret, calls) := dmAllocatePoolWithTag alloc calls size
  (if ret = 0 then none else some ⟨ret, source⟩, calls)

end

/-- A pool that never runs out. -/
def bump (calls : Ledger) (_ : Nat) : Nat := 4096 + 64 * calls.length

/-- A run that refuses has had an allocation fail. -/
def Starved (before calls : Ledger) : Prop := before <:+ calls ∧ ¬ Granted calls

/-- Calls that were made, with every allocation among them granted. -/
def Served (before calls : Ledger) : Prop := ∃ made, calls = made ++ before ∧ Granted made

/-- Among the calls that were made is an allocation that failed. -/
def Denied (alloc : Ledger → Nat → Nat) (before calls : Ledger) : Prop :=
  ∃ earlier size, before <:+ earlier ∧ .alloc size 0 :: earlier <:+ calls ∧ alloc earlier size = 0

variable {alloc : Ledger → Nat → Nat} {calls calls' calls'' : Ledger} {source : List UInt8} {size ptr : Nat}

theorem suffix_freeString (s : Option PoolString) : calls <:+ freeString calls s := by
  cases s with
  | none => exact List.suffix_rfl
  | some s => exact List.suffix_cons _ _

/-- What failed before a call has failed after it. -/
theorem Starved.later {before : Ledger} (h : Starved calls calls') (earlier : before <:+ calls) :
    Starved before calls' := ⟨earlier.trans h.1, h.2⟩

theorem Served.refl (calls : Ledger) : Served calls calls := ⟨[], rfl, fun _ listed => nomatch listed⟩

theorem Served.trans (h : Served calls calls') (more : Served calls' calls'') : Served calls calls'' := by
  obtain ⟨made, rfl, granted⟩ := h
  obtain ⟨made', rfl, granted'⟩ := more
  refine ⟨made' ++ made, (List.append_assoc ..).symm, fun call listed => ?_⟩
  rcases List.mem_append.mp listed with late | early
  · exact granted' call late
  · exact granted call early

theorem Served.suffix (h : Served calls calls') : calls <:+ calls' := by
  obtain ⟨made, rfl, -⟩ := h
  exact List.suffix_append made calls

theorem served_alloc (some_ : ptr ≠ 0) : Served calls (.alloc size ptr :: calls) :=
  ⟨[.alloc size ptr], rfl, fun call listed => by rw [List.mem_singleton.mp listed]; exact some_⟩

theorem served_free : Served calls (.free ptr :: calls) :=
  ⟨[.free ptr], rfl, fun call listed => by rw [List.mem_singleton.mp listed]; trivial⟩

theorem served_freeString (s : Option PoolString) : Served calls (freeString calls s) := by
  cases s with
  | none => exact .refl calls
  | some s => exact served_free

theorem served_foldl {β : Type} {more : Ledger → β → Ledger} (serves : ∀ calls x, Served calls (more calls x))
    (xs : List β) (calls : Ledger) : Served calls (xs.foldl more calls) := by
  induction xs generalizing calls with
  | nil => exact .refl calls
  | cons x xs ih => exact (serves calls x).trans (ih _)

theorem denied_alloc (null : alloc calls size = 0) : Denied alloc calls (.alloc size 0 :: calls) :=
  ⟨calls, size, List.suffix_rfl, List.suffix_rfl, null⟩

theorem Denied.later (h : Denied alloc calls calls') (earlier : calls'' <:+ calls) : Denied alloc calls'' calls' := by
  obtain ⟨at_, size, before, failed, null⟩ := h
  exact ⟨at_, size, earlier.trans before, failed, null⟩

theorem Denied.more (h : Denied alloc calls calls') (more : calls' <:+ calls'') : Denied alloc calls calls'' := by
  obtain ⟨at_, size, before, failed, null⟩ := h
  exact ⟨at_, size, before, failed.trans more, null⟩

theorem Denied.starved (h : Denied alloc calls calls') : Starved calls calls' := by
  obtain ⟨at_, size, before, failed, -⟩ := h
  exact ⟨before.trans ((List.suffix_cons _ _).trans failed), fun granted =>
    not_granted_null (granted.of_suffix failed)⟩

/-- Calls that were all granted have none that failed. -/
theorem Served.not_denied (h : Served calls calls') : ¬ Denied alloc calls calls' := by
  rintro ⟨at_, size, before, failed, -⟩
  obtain ⟨made, rfl, granted⟩ := h
  obtain ⟨last, whole⟩ := failed
  obtain ⟨first, rfl⟩ := before
  have split : last ++ .alloc size 0 :: first = made := by
    refine List.append_cancel_right (?_ : _ ++ calls = _)
    rw [← whole]
    simp
  exact granted (.alloc size 0) (by simp [← split]) rfl

theorem poolStrdup_some {s : PoolString} (copied : poolStrdup alloc calls source = (some s, calls')) :
    s.chars = source ∧ calls <:+ calls' := by
  unfold poolStrdup dmAllocatePoolWithTag at copied
  simp only [Prod.mk.injEq] at copied
  obtain ⟨made, rfl⟩ := copied
  split at made <;> cases made
  exact ⟨rfl, List.suffix_cons _ _⟩

theorem poolStrdup_none (copied : poolStrdup alloc calls source = (none, calls')) : Starved calls calls' := by
  unfold poolStrdup dmAllocatePoolWithTag at copied
  simp only [Prod.mk.injEq] at copied
  obtain ⟨made, rfl⟩ := copied
  split at made
  · next null =>
    rw [null]
    exact ⟨List.suffix_cons _ _, not_granted_null⟩
  · cases made

end Dyndxt.Pool
