import Dyndxt.Mem.Place
import Dyndxt.Bootstrap.Strings

/-!
# Texts in the bootstrap's memory

The bytes and the NUL-terminated texts at a 32-bit pointer, which may run over
the top of the address space.
-/

namespace Dyndxt.Bootstrap
open Dyndxt.Mem Dyndxt.Run

/-- The bytes at `p`. -/
def BytesAt (m : Bytes) : UInt32 → List UInt8 → Prop
  | _, [] => True
  | p, c :: bytes => load8 m p = c ∧ BytesAt m (p + 1) bytes

/-- The text at `p`, with its NUL. -/
def TextAt (m : Bytes) : UInt32 → List UInt8 → Prop
  | p, [] => load8 m p = 0
  | p, c :: text => load8 m p = c ∧ c ≠ 0 ∧ TextAt m (p + 1) text

instance decidableBytesAt (m : Bytes) : (p : UInt32) → (bytes : List UInt8) → Decidable (BytesAt m p bytes)
  | _, [] => inferInstanceAs (Decidable True)
  | p, c :: bytes =>
    have := decidableBytesAt m (p + 1) bytes
    inferInstanceAs (Decidable (load8 m p = c ∧ BytesAt m (p + 1) bytes))

instance decidableTextAt (m : Bytes) : (p : UInt32) → (text : List UInt8) → Decidable (TextAt m p text)
  | p, [] => inferInstanceAs (Decidable (load8 m p = 0))
  | p, c :: text =>
    have := decidableTextAt m (p + 1) text
    inferInstanceAs (Decidable (load8 m p = c ∧ c ≠ 0 ∧ TextAt m (p + 1) text))

/-- The bytes written at `p`. -/
def write (m : Bytes) (p : UInt32) (bytes : List UInt8) : Bytes := place Build.target.space m p.toNat bytes

variable {m m' : Bytes} {p q : UInt32} {c : UInt8} {bytes text rest : List UInt8} {v : UInt8}

theorem advance (p : UInt32) (i : Nat) : p + 1 + .ofNat i = p + .ofNat (i + 1) := by
  rw [UInt32.add_assoc, Nat.add_comm, UInt32.ofNat_add]
  rfl

theorem advance_zero (p : UInt32) : p + .ofNat 0 = p := UInt32.add_zero p

theorem bytesAt_iff : BytesAt m p bytes ↔ ∀ i (h : i < bytes.length), load8 m (p + .ofNat i) = bytes[i] := by
  induction bytes generalizing p with
  | nil => exact ⟨fun _ i h => absurd h (Nat.not_lt_zero i), fun _ => trivial⟩
  | cons c bytes ih =>
    rw [BytesAt, ih]
    constructor
    · rintro ⟨first, later⟩ i inside
      cases i with
      | zero => rwa [advance_zero]
      | succ i =>
        rw [← advance]
        exact later i (Nat.lt_of_succ_lt_succ inside)
    · intro all
      have first := all 0 (Nat.succ_pos _)
      rw [advance_zero] at first
      refine ⟨first, fun i inside => ?_⟩
      rw [advance]
      exact all (i + 1) (Nat.succ_lt_succ inside)

theorem bytesAt_append : BytesAt m p (bytes ++ rest) ↔ BytesAt m p bytes ∧ BytesAt m (p + .ofNat bytes.length) rest := by
  induction bytes generalizing p with
  | nil => simp [BytesAt]
  | cons c bytes ih => rw [List.cons_append, BytesAt, BytesAt, ih, advance, List.length_cons, and_assoc]

/-- A text is its characters and a zero behind them. -/
theorem textAt_iff : TextAt m p text ↔ BytesAt m p (text ++ [0]) ∧ 0 ∉ text := by
  induction text generalizing p with
  | nil => simp [TextAt, BytesAt]
  | cons c text ih =>
    rw [TextAt, ih, List.cons_append, BytesAt, List.mem_cons, not_or, ne_comm]
    tauto

theorem textAt_append : TextAt m p (bytes ++ text) ↔
    BytesAt m p bytes ∧ 0 ∉ bytes ∧ TextAt m (p + .ofNat bytes.length) text := by
  rw [textAt_iff, textAt_iff, List.append_assoc, bytesAt_append, List.mem_append, not_or]
  tauto

theorem TextAt.nul (at_ : TextAt m p text) : load8 m (p + .ofNat text.length) = 0 := by
  have last := (textAt_iff.mp at_).1
  rw [bytesAt_append] at last
  exact last.2.1

theorem TextAt.get (at_ : TextAt m p text) (i : Nat) (inside : i < text.length) :
    load8 m (p + .ofNat i) = text[i] ∧ text[i] ≠ 0 := by
  obtain ⟨whole, nonzero⟩ := textAt_iff.mp at_
  refine ⟨bytesAt_iff.mp (bytesAt_append.mp whole).1 i inside, fun zero => nonzero ?_⟩
  rw [← zero]
  exact List.getElem_mem inside

/-- A text and its NUL are shorter than the address space. -/
theorem TextAt.length_lt (at_ : TextAt m p text) : text.length < 2 ^ 32 := by
  by_contra long
  have around : UInt32.ofNat (text.length - 2 ^ 32) = .ofNat text.length := by
    apply UInt32.toNat_inj.mp
    rw [UInt32.toNat_ofNat', UInt32.toNat_ofNat']
    omega
  obtain ⟨here, nonzero⟩ := at_.get (text.length - 2 ^ 32) (by omega)
  rw [around, at_.nul] at here
  exact nonzero here.symm

theorem BytesAt.congr (at_ : BytesAt m p bytes)
    (same : ∀ i < bytes.length, load8 m' (p + .ofNat i) = load8 m (p + .ofNat i)) : BytesAt m' p bytes :=
  bytesAt_iff.mpr fun i inside => (same i inside).trans (bytesAt_iff.mp at_ i inside)

theorem TextAt.congr (at_ : TextAt m p text)
    (same : ∀ i ≤ text.length, load8 m' (p + .ofNat i) = load8 m (p + .ofNat i)) : TextAt m' p text := by
  obtain ⟨whole, nonzero⟩ := textAt_iff.mp at_
  refine textAt_iff.mpr ⟨whole.congr fun i inside => same i ?_, nonzero⟩
  rw [List.length_append, List.length_singleton] at inside
  omega

/-! ## Writing -/

theorem write_nil (m : Bytes) (p : UInt32) : write m p [] = m := by
  funext a
  unfold write place
  exact store_miss _ (Nat.zero_le _)

theorem store8_eq (m : Bytes) (p : UInt32) (c : UInt8) : store8 m p c = write m p [c] := by
  funext a
  unfold store8 write place store
  rw [List.length_singleton]
  by_cases here : dist Build.target.space p.toNat a < 1
  · rw [if_pos here, if_pos here, Nat.lt_one_iff.mp here]
    rfl
  · rw [if_neg here, if_neg here]

/-- A pointer's address, modulo the space. -/
theorem address_add (p : UInt32) (i : Nat) : (p + .ofNat i).toNat = (p.toNat + i) % Build.target.space := by
  rw [UInt32.toNat_add, UInt32.toNat_ofNat']
  exact Nat.add_mod_mod _ _ _

/-- A byte behind those written. -/
theorem store8_behind (fits : bytes.length + 1 ≤ 2 ^ 32) :
    store8 (write m p bytes) (p + .ofNat bytes.length) c = write m p (bytes ++ [c]) := by
  rw [store8_eq, write, address_add, place_mod]
  exact place_append fits

/-- A byte over one of those written. -/
theorem store8_over {i : Nat} (fits : bytes.length ≤ 2 ^ 32) (inside : i < bytes.length) :
    store8 (write m p bytes) (p + .ofNat i) c = write m p (bytes.set i c) := by
  rw [store8_eq, write, address_add, place_mod]
  exact place_set fits inside

theorem load8_write {i : Nat} (fits : bytes.length ≤ 2 ^ 32) (inside : i < bytes.length) :
    load8 (write m p bytes) (p + .ofNat i) = bytes[i] := by
  rw [load8, address_add]
  exact place_get fits inside

theorem bytesAt_write (fits : bytes.length ≤ 2 ^ 32) : BytesAt (write m p bytes) p bytes :=
  bytesAt_iff.mpr fun _ inside => load8_write fits inside

/-- What is not written is what it was. -/
theorem load8_apart (apart : ∀ i < bytes.length, q ≠ p + .ofNat i) : load8 (write m p bytes) q = load8 m q := by
  refine if_neg fun near => apart _ near ?_
  apply UInt32.toNat_inj.mp
  rw [address_add]
  exact (add_dist q.toNat_lt).symm

/-! ## `strcpy` -/

/-- The rounds behind the bytes that are copied already. -/
theorem returns_strcpy {src dst : UInt32} (at_ : TextAt m src (bytes ++ text))
    (apart : ∀ i ≤ (bytes ++ text).length, ∀ j ≤ (bytes ++ text).length, src + .ofNat j ≠ dst + .ofNat i) :
    Returns strcpyTurn (write m dst bytes, dst + .ofNat bytes.length, src + .ofNat bytes.length)
      (write m dst (bytes ++ text ++ [0]), dst + .ofNat (bytes ++ text).length) := by
  have short := at_.length_lt
  induction text generalizing bytes with
  | nil =>
    rw [List.append_nil] at at_ apart short ⊢
    have nul : load8 (write m dst bytes) (src + .ofNat bytes.length) = 0 := by
      rw [load8_apart fun i inside => apart i (by omega) _ (Nat.le_refl _)]
      exact at_.nul
    refine returns_leave ?_
    refine (if_pos nul).trans ?_
    rw [store8_behind (by omega)]
  | cons c text ih =>
    obtain ⟨here, nonzero⟩ := at_.get bytes.length (by simp)
    rw [List.getElem_append_right (Nat.le_refl _)] at here nonzero
    simp only [Nat.sub_self, List.getElem_cons_zero] at here nonzero
    have char : load8 (write m dst bytes) (src + .ofNat bytes.length) = c := by
      rw [load8_apart fun i inside => apart i (by simp; omega) _ (by simp), here]
    have next (p : UInt32) : p + .ofNat bytes.length + 1 = p + .ofNat (bytes ++ [c]).length := by
      rw [List.length_append, List.length_singleton, UInt32.add_assoc, UInt32.ofNat_add]
      rfl
    have round : strcpyTurn (write m dst bytes, dst + .ofNat bytes.length, src + .ofNat bytes.length) =
        .again (write m dst (bytes ++ [c]), dst + .ofNat (bytes ++ [c]).length, src + .ofNat (bytes ++ [c]).length) := by
      refine (if_neg (by rw [char]; exact nonzero)).trans ?_
      rw [char, store8_behind (by simp at short; omega), next, next]
    have whole : bytes ++ c :: text = bytes ++ [c] ++ text := by rw [List.append_assoc]; rfl
    rw [whole] at at_ apart short ⊢
    exact (Steps.one round).returns (ih at_ apart short)

/-- A text is copied to a place apart from it. -/
theorem strcpy_copies {src dst : UInt32} (at_ : TextAt m src text)
    (apart : ∀ i ≤ text.length, ∀ j ≤ text.length, src + .ofNat j ≠ dst + .ofNat i) :
    ∃ enough, ∀ budget, enough ≤ budget →
      strcpy budget m dst src = some (write m dst (text ++ [0]), dst + .ofNat text.length) := by
  have copied := @returns_strcpy m [] text src dst at_ apart
  rw [write_nil, List.length_nil, advance_zero, advance_zero, List.nil_append] at copied
  obtain ⟨enough, budgets⟩ := copied.eventually
  exact ⟨enough, fun budget le => congrArg left (budgets budget le)⟩

end Dyndxt.Bootstrap
