import Dyndxt.Mem.Bytes

/-!
# Adding to the words of a memory

`addAll` adds one amount to each word of a list of addresses, in order. When
the words are equal or disjoint, a word's value afterwards is its old one plus
the amount once for each time it is listed, bytes outside the words are as
they were, and amounts added one after another add up.
-/

namespace Dyndxt.Mem

section Definitions

variable (M : Nat) (amount : UInt32)

/-- Add to the word at `p`. -/
def addAt (m : Bytes) (p : Nat) : Bytes := store32 M m p (u32 M m p + amount)

/-- Add to each word listed. -/
def addAll (words : List Nat) (m : Bytes) : Bytes := words.foldl (addAt M amount) m

end Definitions

/-- Two words are the same or share no byte. -/
def Apart (p q : Nat) : Prop := p = q ∨ p + 4 ≤ q ∨ q + 4 ≤ p

instance (p q : Nat) : Decidable (Apart p q) := inferInstanceAs (Decidable (_ ∨ _))

/-- `[lo, hi)` holds the same bytes in both memories. -/
def SameOn (lo hi : Nat) (m m' : Bytes) : Prop := ∀ a, lo ≤ a → a < hi → m' a = m a

variable {M : Nat} {amount amount' : UInt32} {words : List Nat} {m m' m'' : Bytes} {p q a lo hi : Nat}

theorem SameOn.trans (h : SameOn lo hi m m') (h' : SameOn lo hi m' m'') : SameOn lo hi m m'' := by
  intro a low high
  rw [h' a low high, h a low high]

theorem SameOn.mono {lo' hi' : Nat} (h : SameOn lo hi m m') (low : lo ≤ lo') (high : hi' ≤ hi) :
    SameOn lo' hi' m m' := by
  intro a inLow inHigh
  exact h a (by omega) (by omega)

/-- Words and half-words inside are read alike. -/
theorem SameOn.u32 (h : SameOn lo hi m m') (low : lo ≤ p) (high : p + 4 ≤ hi) (fits : hi ≤ M) :
    u32 M m' p = u32 M m p := by
  apply u32_congr
  intro i lt
  rw [Nat.mod_eq_of_lt (by omega)]
  exact h _ (by omega) (by omega)

theorem SameOn.u16 (h : SameOn lo hi m m') (low : lo ≤ p) (high : p + 2 ≤ hi) (fits : hi ≤ M) :
    u16 M m' p = u16 M m p := by
  apply u16_congr
  intro i lt
  rw [Nat.mod_eq_of_lt (by omega)]
  exact h _ (by omega) (by omega)

/-! ## One word -/

theorem addAt_outside (fits : p + 4 ≤ M) (lt : a < M) (outside : a < p ∨ p + 4 ≤ a) :
    addAt M amount m p a = m a :=
  store32_apply_outside fits lt outside

/-- A word after an addition to one it is apart from. -/
theorem u32_addAt (fitsP : p + 4 ≤ M) (fitsQ : q + 4 ≤ M) (apart : Apart p q) :
    u32 M (addAt M amount m p) q = if p = q then u32 M m q + amount else u32 M m q := by
  unfold addAt
  split
  case isTrue same =>
    subst same
    exact u32_store32_same (by omega)
  case isFalse differs =>
    have disjoint : p + 4 ≤ q ∨ q + 4 ≤ p := apart.resolve_left differs
    exact u32_store32_apart fitsP fitsQ disjoint

/-- The low bytes of a sum depend on the low bytes of the word alone. -/
theorem byteOf_add {k : Nat} (lt : k < 4) (fits : p + 4 ≤ M) (same : ∀ i ≤ k, m' (p + i) = m (p + i)) :
    byteOf (u32 M m' p + amount) k = byteOf (u32 M m p + amount) k := by
  have word (m : Bytes) : (u32 M m p).toNat = (m p).toNat + 256 * ((m (p + 1)).toNat +
      256 * ((m (p + 2)).toNat + 256 * (m (p + 3)).toNat)) := by
    rw [u32_toNat, Nat.mod_eq_of_lt (by omega : p < M), Nat.mod_eq_of_lt (by omega : p + 1 < M),
      Nat.mod_eq_of_lt (by omega : p + 2 < M), Nat.mod_eq_of_lt (by omega : p + 3 < M)]
  have first : m' p = m p := same 0 (Nat.zero_le k)
  apply UInt8.toNat_inj.mp
  rw [byteOf_toNat, byteOf_toNat, UInt32.toNat_add, UInt32.toNat_add, word, word, first]
  match k, lt with
  | 0, _ => omega
  | 1, _ =>
    rw [same 1 (by decide)]
    omega
  | 2, _ =>
    rw [same 1 (by decide), same 2 (by decide)]
    omega
  | 3, _ => rw [same 1 (by decide), same 2 (by decide), same 3 (by decide)]

/-- What lies above an offset does not reach the bytes below it. -/
theorem addAt_sameOn (fits : p + 4 ≤ M) (inM : hi ≤ M) (same : SameOn 0 hi m m') :
    SameOn 0 hi (addAt M amount m p) (addAt M amount m' p) := by
  intro a low high
  have lt : a < M := by omega
  unfold addAt store32
  rw [store_apply _ fits lt, store_apply _ fits lt]
  split
  · next inside =>
    refine byteOf_add (by omega) fits fun i le => ?_
    exact same (p + i) (Nat.zero_le _) (by omega)
  · exact same a low high
/-! ## Every word listed -/

@[simp] theorem addAll_nil : addAll M amount [] m = m := rfl

@[simp] theorem addAll_cons : addAll M amount (p :: words) m =
    addAll M amount words (addAt M amount m p) := rfl

theorem addAll_append {words' : List Nat} : addAll M amount (words ++ words') m =
    addAll M amount words' (addAll M amount words m) := List.foldl_append

/-- Bytes outside every word listed stay. -/
theorem addAll_outside (fits : ∀ w ∈ words, w + 4 ≤ M) (lt : a < M)
    (outside : ∀ w ∈ words, a < w ∨ w + 4 ≤ a) : addAll M amount words m a = m a := by
  induction words generalizing m with
  | nil => rfl
  | cons w words ih =>
    simp only [List.mem_cons, forall_eq_or_imp] at fits outside
    rw [addAll_cons, ih fits.2 outside.2]
    exact addAt_outside fits.1 lt outside.1

theorem addAll_sameOn (fits : ∀ w ∈ words, w + 4 ≤ M) (inM : hi ≤ M)
    (clear : ∀ w ∈ words, w + 4 ≤ lo ∨ hi ≤ w) : SameOn lo hi m (addAll M amount words m) := by
  intro a low high
  apply addAll_outside fits (by omega)
  intro w listed
  have := clear w listed
  omega

/-- A word afterwards: the amount once for each time it is listed. -/
theorem u32_addAll (fits : ∀ w ∈ words, w + 4 ≤ M) (fitsQ : q + 4 ≤ M)
    (apart : ∀ w ∈ words, Apart w q) :
    u32 M (addAll M amount words m) q = u32 M m q + .ofNat (words.count q) * amount := by
  induction words generalizing m with
  | nil => simp
  | cons w words ih =>
    simp only [List.mem_cons, forall_eq_or_imp] at fits apart
    rw [addAll_cons, ih fits.2 apart.2, u32_addAt fits.1 fitsQ apart.1, List.count_cons]
    split
    case isTrue same =>
      have once : (UInt32.ofNat (words.count q + 1) : UInt32) = .ofNat (words.count q) + 1 :=
        UInt32.ofNat_add _ _
      rw [if_pos (beq_iff_eq.mpr same), once]
      grind
    case isFalse differs => simp [differs]

/-- Two memories that agree outside the words, and on each of them, agree. -/
theorem eq_of_words (lt : a < M)
    (outside : (∀ w ∈ words, a < w ∨ w + 4 ≤ a) → m a = m' a)
    (inside : ∀ w ∈ words, u32 M m w = u32 M m' w) : m a = m' a := by
  by_cases far : ∀ w ∈ words, a < w ∨ w + 4 ≤ a
  · exact outside far
  · obtain ⟨w, listed, near⟩ : ∃ w ∈ words, ¬ (a < w ∨ w + 4 ≤ a) := by simpa using far
    have bytes := bytes_of_u32 (inside w listed) (a - w) (by omega)
    rwa [show w + (a - w) = a by omega, Nat.mod_eq_of_lt lt] at bytes

section Words

variable (fits : ∀ w ∈ words, w + 4 ≤ M) (apart : ∀ w ∈ words, ∀ w' ∈ words, Apart w w')

include fits apart

/-- Amounts add up. -/
theorem addAll_addAll (lt : a < M) : addAll M amount' words (addAll M amount words m) a =
    addAll M (amount + amount') words m a := by
  apply eq_of_words lt
  · intro far
    rw [addAll_outside fits lt far, addAll_outside fits lt far, addAll_outside fits lt far]
  · intro w listed
    have near := fun w' listed' => apart w' listed' w listed
    rw [u32_addAll fits (fits w listed) near, u32_addAll fits (fits w listed) near,
      u32_addAll fits (fits w listed) near]
    grind

/-- Adding nothing changes nothing. -/
theorem addAll_zero (lt : a < M) : addAll M 0 words m a = m a := by
  apply eq_of_words lt
  · exact addAll_outside fits lt
  · intro w listed
    rw [u32_addAll fits (fits w listed) fun w' listed' => apart w' listed' w listed]
    simp

/-- Memories that agree are patched alike. -/
theorem addAll_congr (same : ∀ a < M, m a = m' a) (lt : a < M) :
    addAll M amount words m a = addAll M amount words m' a := by
  have word {w : Nat} (listed : w ∈ words) : u32 M m w = u32 M m' w := by
    have := fits w listed
    exact u32_congr fun i _ => same _ (Nat.mod_lt _ (by omega))
  apply eq_of_words lt
  · intro far
    rw [addAll_outside fits lt far, addAll_outside fits lt far, same a lt]
  · intro w listed
    have near := fun w' listed' => apart w' listed' w listed
    rw [u32_addAll fits (fits w listed) near, u32_addAll fits (fits w listed) near, word listed]

end Words

end Dyndxt.Mem
