import Mathlib.Data.List.Pairwise
import Dyndxt.Mem.Bytes

/-!
# Copying ranges into a memory

Ranges of one source copied in order. A byte afterwards is the one that the
last copy to cover it brought, or the old byte where none does; where no two
copies overlap the order does not matter.
-/

namespace Dyndxt.Mem

/-- `len` bytes from `src` to `dest`. -/
structure Copy where
  dest : Nat
  len : Nat
  src : Nat
deriving DecidableEq, Repr

section Definitions

variable (M : Nat) (source : Bytes)

def Copy.Covers (c : Copy) (a : Nat) : Prop := dist M c.dest a < c.len

instance (c : Copy) (a : Nat) : Decidable (c.Covers M a) := inferInstanceAs (Decidable (_ < _))

/-- Where a byte that is covered comes from. -/
def Copy.origin (c : Copy) (a : Nat) : Nat := (c.src + dist M c.dest a) % M

def copyTo (m : Bytes) (c : Copy) : Bytes := store M m c.dest c.len fun i => source ((c.src + i) % M)

def copyAll (copies : List Copy) (m : Bytes) : Bytes := copies.foldl (copyTo M source) m

/-- The byte that the copies bring to `a`, if any does. -/
def copiedByte (copies : List Copy) (a : Nat) : Option UInt8 :=
  (copies.reverse.find? fun c => decide (c.Covers M a)).map fun c => source (c.origin M a)

end Definitions

/-- No byte is in both ranges written. -/
def Copy.Clear (c c' : Copy) : Prop :=
  c.len = 0 ∨ c'.len = 0 ∨ c.dest + c.len ≤ c'.dest ∨ c'.dest + c'.len ≤ c.dest

instance (c c' : Copy) : Decidable (c.Clear c') := inferInstanceAs (Decidable (_ ∨ _))

instance : Std.Symm Copy.Clear where
  symm c c' h := by
    unfold Copy.Clear at h ⊢
    omega

variable {M a : Nat} {source m m' : Bytes} {c c' : Copy} {copies : List Copy}

/-- Below the top a copy covers an interval. -/
theorem Copy.covers_iff (fits : c.dest + c.len ≤ M) (lt : a < M) :
    c.Covers M a ↔ c.dest ≤ a ∧ a < c.dest + c.len :=
  dist_lt_iff fits lt

theorem Copy.origin_eq (lt : a < M) (le : c.dest ≤ a) : c.origin M a = (c.src + (a - c.dest)) % M := by
  rw [Copy.origin, dist_eq lt le]

theorem copiedByte_cons : copiedByte M source (c :: copies) a =
    (copiedByte M source copies a).or
      (if c.Covers M a then some (source (c.origin M a)) else none) := by
  simp only [copiedByte, List.reverse_cons, List.find?_append, List.find?_singleton, Option.map_or]
  congr 1
  by_cases covers : c.Covers M a
  · simp [covers]
  · simp [covers]

/-- The bytes after the copies. -/
theorem copyAll_apply : copyAll M source copies m a = (copiedByte M source copies a).getD (m a) := by
  induction copies generalizing m with
  | nil => rfl
  | cons c copies ih =>
    have step : copyAll M source (c :: copies) m = copyAll M source copies (copyTo M source m c) := rfl
    rw [step, ih, copiedByte_cons]
    cases copiedByte M source copies a with
    | some byte => rfl
    | none =>
      simp only [Option.none_or, Option.getD_none, copyTo, store, Copy.Covers, Copy.origin]
      by_cases near : dist M c.dest a < c.len
      · simp [near]
      · simp [near]

/-- Of copies that do not overlap, the one that covers a byte brings it. -/
theorem copiedByte_eq (clear : copies.Pairwise Copy.Clear) (fits : ∀ c ∈ copies, c.dest + c.len ≤ M)
    (lt : a < M) (listed : c ∈ copies) (covers : c.Covers M a) :
    copiedByte M source copies a = some (source (c.origin M a)) := by
  have some : (copies.reverse.find? fun c => decide (c.Covers M a)).isSome := by
    rw [List.find?_isSome]
    exact ⟨c, List.mem_reverse.mpr listed, decide_eq_true covers⟩
  obtain ⟨c', found⟩ := Option.isSome_iff_exists.mp some
  have listed' : c' ∈ copies := List.mem_reverse.mp (List.mem_of_find?_eq_some found)
  have covers' : c'.Covers M a := by simpa using List.find?_some found
  have same : c' = c := by
    by_contra differs
    have apart : c'.Clear c := clear.forall listed' listed differs
    have inside := (Copy.covers_iff (fits c listed) lt).mp covers
    have inside' := (Copy.covers_iff (fits c' listed') lt).mp covers'
    unfold Copy.Clear at apart
    omega
  rw [copiedByte, found, same]
  rfl

end Dyndxt.Mem
