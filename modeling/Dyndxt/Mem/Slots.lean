import Dyndxt.Mem.Patch

/-!
# Filling slots, and what a reader needs kept

`putAll` stores a word in each slot of a list. A reader that needs some spans
of a memory reads the same from any memory that agrees on them, and slots
filled clear of those spans keep that agreement.
-/

namespace Dyndxt.Mem

/-- Store each word in its slot, in order. -/
def putAll (M : Nat) (slots : List (Nat × UInt32)) (m : Bytes) : Bytes :=
  slots.foldl (fun m slot => store32 M m slot.1 slot.2) m

/-- The word at `w` shares no byte with the span. -/
def Span.ClearOf (sp : Span) (w : Nat) : Prop := w + 4 ≤ sp.off ∨ sp.off + sp.len ≤ w

instance (sp : Span) (w : Nat) : Decidable (sp.ClearOf w) := inferInstanceAs (Decidable (_ ∨ _))

/-- One span lies in another. -/
def Span.Within (sp sp' : Span) : Prop := sp'.off ≤ sp.off ∧ sp.off + sp.len ≤ sp'.off + sp'.len

/-- The spans hold the same bytes in both memories. -/
def AgreeOn (spans : List Span) (m m' : Bytes) : Prop :=
  ∀ sp ∈ spans, SameOn sp.off (sp.off + sp.len) m m'

/-- The string `s` stands at `p`, with its terminator. -/
structure StrAt (M : Nat) (m : Bytes) (p : Nat) (s : List UInt8) : Prop where
  fits : p + s.length < M
  bytes : ∀ i (h : i < s.length), m (p + i) = s[i]
  nonzero : ∀ c ∈ s, c ≠ 0
  nul : m (p + s.length) = 0

theorem Span.ClearOf.mono {sp sp' : Span} {w : Nat} (h : sp'.ClearOf w) (within : sp.Within sp') :
    sp.ClearOf w := by
  obtain ⟨low, high⟩ := within
  unfold Span.ClearOf at h ⊢
  omega

variable {M : Nat} {m m' m'' : Bytes} {slots : List (Nat × UInt32)} {spans spans' : List Span}
  {p a k : Nat} {v : UInt32} {s : List UInt8} {slot : Nat × UInt32}

/-! ## Bytes of words -/

theorem store32_apply_inside (fits : p + 4 ≤ M) (lt : k < 4) : store32 M m p v (p + k) = byteOf v k := by
  rw [store32, store_apply _ fits (by omega), if_pos (by omega), Nat.add_sub_cancel_left]

theorem byteOf_u32 (fits : p + 4 ≤ M) (lt : k < 4) : byteOf (u32 M m p) k = m (p + k) := by
  have word : u32 M (store32 M m p (u32 M m p)) p = u32 M m p := u32_store32_same (by omega)
  have bytes := bytes_of_u32 word k lt
  rw [Nat.mod_eq_of_lt (by omega)] at bytes
  rw [← bytes, store32_apply_inside fits lt]

theorem u32_of_bytes (fits : p + 4 ≤ M) (bytes : ∀ k < 4, m (p + k) = byteOf v k) : u32 M m p = v := by
  have room : 4 ≤ M := by omega
  rw [← @u32_store32_same M m p v room]
  apply u32_congr
  intro i lt
  rw [Nat.mod_eq_of_lt (by omega), bytes i lt, store32_apply_inside fits lt]

/-- The same four bytes are the same word, wherever they stand. -/
theorem u32_shift {q : Nat} (fitsP : p + 4 ≤ M) (fitsQ : q + 4 ≤ M)
    (same : ∀ i < 4, m (p + i) = m' (q + i)) : u32 M m p = u32 M m' q := by
  apply u32_of_bytes fitsP
  intro k lt
  rw [same k lt, byteOf_u32 fitsQ lt]

/-! ## Slots -/

@[simp] theorem putAll_cons : putAll M (slot :: slots) m =
    putAll M slots (store32 M m slot.1 slot.2) := rfl

theorem putAll_append {slots' : List (Nat × UInt32)} : putAll M (slots ++ slots') m =
    putAll M slots' (putAll M slots m) := List.foldl_append

theorem putAll_outside (fits : ∀ slot ∈ slots, slot.1 + 4 ≤ M) (lt : a < M)
    (outside : ∀ slot ∈ slots, a < slot.1 ∨ slot.1 + 4 ≤ a) : putAll M slots m a = m a := by
  induction slots generalizing m with
  | nil => rfl
  | cons slot slots ih =>
    simp only [List.mem_cons, forall_eq_or_imp] at fits outside
    rw [putAll_cons, ih fits.2 outside.2]
    exact store32_apply_outside fits.1 lt outside.1

/-- A slot holds its word when no other slot overlaps it. -/
theorem putAll_inside (fits : ∀ slot ∈ slots, slot.1 + 4 ≤ M)
    (clear : (slots.map Prod.fst).Pairwise fun w w' => w + 4 ≤ w' ∨ w' + 4 ≤ w)
    (listed : (p, v) ∈ slots) (lt : k < 4) : putAll M slots m (p + k) = byteOf v k := by
  induction slots generalizing m with
  | nil => cases listed
  | cons slot slots ih =>
    simp only [List.map_cons, List.pairwise_cons] at clear
    simp only [List.mem_cons, forall_eq_or_imp] at fits
    rw [putAll_cons]
    rcases List.mem_cons.mp listed with rfl | later
    · have room := fits.1
      rw [putAll_outside fits.2 (by omega)]
      · exact store32_apply_inside room lt
      · intro other mem
        have apart := clear.1 other.1 (List.mem_map_of_mem mem)
        omega
    · exact ih fits.2 clear.2 later

/-- A word that no slot overlaps. -/
theorem u32_putAll_apart (fits : ∀ slot ∈ slots, slot.1 + 4 ≤ M) (fitsP : p + 4 ≤ M)
    (apart : ∀ slot ∈ slots, slot.1 + 4 ≤ p ∨ p + 4 ≤ slot.1) : u32 M (putAll M slots m) p = u32 M m p := by
  apply u32_congr
  intro i lt
  rw [Nat.mod_eq_of_lt (by omega)]
  apply putAll_outside fits (by omega)
  intro slot listed
  have clear := apart slot listed
  omega

/-! ## Agreement -/

theorem AgreeOn.trans (h : AgreeOn spans m m') (h' : AgreeOn spans m' m'') : AgreeOn spans m m'' :=
  fun sp listed => (h sp listed).trans (h' sp listed)

theorem AgreeOn.mono (h : AgreeOn spans m m') (sub : ∀ sp ∈ spans', ∃ sp' ∈ spans, sp.Within sp') :
    AgreeOn spans' m m' := by
  intro sp listed
  obtain ⟨sp', listed', low, high⟩ := sub sp listed
  exact (h sp' listed').mono low high

/-- Filling slots keeps the spans clear of them. -/
theorem putAll_agreeOn (fits : ∀ slot ∈ slots, slot.1 + 4 ≤ M)
    (inM : ∀ sp ∈ spans, sp.off + sp.len ≤ M)
    (clear : ∀ sp ∈ spans, ∀ slot ∈ slots, sp.ClearOf slot.1) : AgreeOn spans m (putAll M slots m) := by
  intro sp listed a low high
  have top := inM sp listed
  apply putAll_outside fits (by omega)
  intro slot mem
  have apart := clear sp listed slot mem
  unfold Span.ClearOf at apart
  omega

/-! ## Strings -/

/-- The string read is the one that stands there. -/
theorem StrAt.cstring_eq (h : StrAt M m p s) : cstring M m p = s :=
  Mem.cstring_eq h.fits h.bytes h.nonzero h.nul

theorem StrAt.congr (h : StrAt M m p s) (same : SameOn p (p + (s.length + 1)) m m') : StrAt M m' p s := by
  refine ⟨h.fits, ?_, h.nonzero, ?_⟩
  · intro i lt
    rw [same _ (by omega) (by omega)]
    exact h.bytes i lt
  · rw [same _ (by omega) (by omega)]
    exact h.nul

end Dyndxt.Mem
