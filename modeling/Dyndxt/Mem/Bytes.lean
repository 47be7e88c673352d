import Mathlib.Tactic.Ring
import Mathlib.Data.UInt

/-!
# Byte memories on a ring of addresses

A memory is the byte at each offset from one block's start, in an address
space of `M` bytes; an access of `n` bytes at `p` touches `p`, `p + 1`, …
modulo `M`, so a pointer that runs off the top comes back at the bottom.
`dist` is the distance going up the ring. An access that stays below the top
(`p + n ≤ M`) is an ordinary interval, and the interval lemmas hand it to
`omega`.
-/

namespace Dyndxt.Mem

/-- The byte at each offset. -/
abbrev Bytes := Nat → UInt8

/-- How far `a` lies above `p`, going up the ring. -/
def dist (M p a : Nat) : Nat := (a + (M - p % M)) % M

/-- `len` bytes from `off` up the ring. -/
structure Span where
  off : Nat
  len : Nat
deriving DecidableEq, Repr

/-- Every byte of the span lies in `[0, size)`. -/
def Span.Inside (M : Nat) (sp : Span) (size : Nat) : Prop :=
  ∀ i < sp.len, (sp.off + i) % M < size

instance (M : Nat) (sp : Span) (size : Nat) : Decidable (sp.Inside M size) :=
  inferInstanceAs (Decidable (∀ i < sp.len, _))

/-- A little-endian 16-bit load. -/
def u16 (M : Nat) (m : Bytes) (p : Nat) : UInt16 :=
  .ofNat ((m (p % M)).toNat + 256 * (m ((p + 1) % M)).toNat)

/-- A little-endian 32-bit load. -/
def u32 (M : Nat) (m : Bytes) (p : Nat) : UInt32 :=
  .ofNat ((m (p % M)).toNat + 256 * ((m ((p + 1) % M)).toNat +
    256 * ((m ((p + 2) % M)).toNat + 256 * (m ((p + 3) % M)).toNat)))

/-- `memcpy` of `n` bytes to `p`, the `i`-th being `src i`. -/
def store (M : Nat) (m : Bytes) (p n : Nat) (src : Nat → UInt8) : Bytes :=
  fun a => if dist M p a < n then src (dist M p a) else m a

/-- The `i`-th byte of a word. -/
def byteOf (v : UInt32) (i : Nat) : UInt8 := .ofNat (v.toNat / 256 ^ i)

/-- A little-endian 32-bit store. -/
def store32 (M : Nat) (m : Bytes) (p : Nat) (v : UInt32) : Bytes := store M m p 4 (byteOf v)

/-- The memory that holds the listed words, and zeros elsewhere. -/
def ofWords (words : List (Nat × UInt32)) : Bytes := fun a =>
  match words.find? fun w => w.1 ≤ a && a < w.1 + 4 with
  | some (p, v) => byteOf v (a - p)
  | none => 0

/-- The bytes from `p` up to a zero byte, at most `n` of them. -/
def cstringUpTo (M : Nat) (m : Bytes) : Nat → Nat → List UInt8
  | 0, _ => []
  | n + 1, p => if m (p % M) = 0 then [] else m (p % M) :: cstringUpTo M m n (p + 1)

/-- The C string at `p`. -/
def cstring (M : Nat) (m : Bytes) (p : Nat) : List UInt8 := cstringUpTo M m M p

variable {M : Nat} {m m' : Bytes} {p q a n k size : Nat} {v : UInt32}

/-! ## The ring -/

theorem dist_add_mod (pos : 0 < M) (p k : Nat) : dist M p ((p + k) % M) = k % M := by
  have below := Nat.mod_lt p pos
  have shift : (p + k) % M = (p % M + k) % M := by rw [Nat.mod_add_mod]
  rw [dist, shift, Nat.mod_add_mod, show p % M + k + (M - p % M) = k + M by omega, Nat.add_mod_right]

theorem dist_add (pos : 0 < M) (lt : k < M) : dist M p ((p + k) % M) = k := by
  rw [dist_add_mod pos, Nat.mod_eq_of_lt lt]

theorem add_dist (lt : a < M) : (p + dist M p a) % M = a := by
  have below := Nat.mod_lt p (by omega : 0 < M)
  rw [dist, Nat.add_mod_mod, ← Nat.mod_add_mod,
    show p % M + (a + (M - p % M)) = a + M by omega, Nat.add_mod_right, Nat.mod_eq_of_lt lt]

/-- Below the top the distance test is an interval test. -/
theorem dist_lt_iff (fits : p + n ≤ M) (lt : a < M) : dist M p a < n ↔ p ≤ a ∧ a < p + n := by
  rcases Nat.lt_or_ge p M with below | above
  · rw [dist, Nat.mod_eq_of_lt below]
    rcases Nat.lt_or_ge a p with low | high
    · rw [Nat.mod_eq_of_lt (by omega)]
      omega
    · rw [show a + (M - p) = a - p + M by omega, Nat.add_mod_right, Nat.mod_eq_of_lt (by omega)]
      omega
  · obtain rfl : n = 0 := by omega
    omega

theorem dist_eq (lt : a < M) (le : p ≤ a) : dist M p a = a - p := by
  rw [dist, Nat.mod_eq_of_lt (by omega : p < M), show a + (M - p) = a - p + M by omega,
    Nat.add_mod_right, Nat.mod_eq_of_lt (by omega)]

/-- A byte beyond a range is beyond each part of it. -/
theorem dist_part (lt : a < M) (far : n ≤ dist M p a) (part : k + size ≤ n) (fits : n ≤ M) :
    size ≤ dist M (p + k) a := by
  by_contra near
  have there := add_dist (p := p + k) lt
  rw [Nat.add_assoc] at there
  have back := @dist_add M p (k + dist M (p + k) a) (by omega) (by omega)
  rw [there] at back
  omega

theorem inside_of_le (fits : p + n ≤ size) (small : size < M) : (Span.mk p n).Inside M size := by
  intro i lt
  have lt : i < n := lt
  show (p + i) % M < size
  rw [Nat.mod_eq_of_lt (by omega)]
  omega

/-- A span is inside `[0, size)` exactly when it is an interval below `size`. -/
theorem inside_iff (sp : Span) (off : sp.off < M) (small : size < M) (some : 0 < sp.len) :
    sp.Inside M size ↔ sp.off + sp.len ≤ size := by
  constructor
  · intro inside
    by_contra beyond
    have first := inside 0 some
    rw [Nat.add_zero, Nat.mod_eq_of_lt off] at first
    have crossing := inside (size - sp.off) (by omega)
    rw [show sp.off + (size - sp.off) = size by omega, Nat.mod_eq_of_lt small] at crossing
    omega
  · intro fits i lt
    rw [Nat.mod_eq_of_lt (by omega)]
    omega

/-! ## Stores -/

theorem store_hit (pos : 0 < M) (src : Nat → UInt8) (ltM : k < M) (lt : k < n) :
    store M m p n src ((p + k) % M) = src k := by
  simp only [store, dist_add pos ltM, lt, if_true]

theorem store_miss (src : Nat → UInt8) (far : n ≤ dist M p a) : store M m p n src a = m a := by
  simp only [store, Nat.not_lt.mpr far, if_false]

/-- A store below the top, as an interval. -/
theorem store_apply (src : Nat → UInt8) (fits : p + n ≤ M) (lt : a < M) :
    store M m p n src a = if p ≤ a ∧ a < p + n then src (a - p) else m a := by
  by_cases inside : p ≤ a ∧ a < p + n
  · have near := (dist_lt_iff fits lt).mpr inside
    rw [store, if_pos near, if_pos inside, dist_eq lt inside.1]
  · have far := mt (dist_lt_iff fits lt).mp inside
    rw [store, if_neg far, if_neg inside]

/-- The same store over two memories. -/
theorem store_congr {src : Nat → UInt8} (same : m a = m' a) :
    store M m p n src a = store M m' p n src a := by
  simp only [store, same]

/-! ## Words -/

theorem byteOf_toNat (v : UInt32) (i : Nat) : (byteOf v i).toNat = v.toNat / 256 ^ i % 256 := by
  simp only [byteOf, UInt8.toNat_ofNat']

theorem u32_toNat (M : Nat) (m : Bytes) (p : Nat) : (u32 M m p).toNat =
    (m (p % M)).toNat + 256 * ((m ((p + 1) % M)).toNat +
      256 * ((m ((p + 2) % M)).toNat + 256 * (m ((p + 3) % M)).toNat)) := by
  have h0 := (m (p % M)).toNat_lt
  have h1 := (m ((p + 1) % M)).toNat_lt
  have h2 := (m ((p + 2) % M)).toNat_lt
  have h3 := (m ((p + 3) % M)).toNat_lt
  rw [u32, UInt32.toNat_ofNat', Nat.mod_eq_of_lt]
  omega

theorem u16_toNat (M : Nat) (m : Bytes) (p : Nat) :
    (u16 M m p).toNat = (m (p % M)).toNat + 256 * (m ((p + 1) % M)).toNat := by
  have h0 := (m (p % M)).toNat_lt
  have h1 := (m ((p + 1) % M)).toNat_lt
  rw [u16, UInt16.toNat_ofNat', Nat.mod_eq_of_lt]
  omega

/-- The halves of a word. -/
theorem u16_low (M : Nat) (m : Bytes) (p : Nat) : (u16 M m p).toNat = (u32 M m p).toNat % 2 ^ 16 := by
  have h0 := (m (p % M)).toNat_lt
  have h1 := (m ((p + 1) % M)).toNat_lt
  rw [u16_toNat, u32_toNat]
  omega

theorem u16_high (M : Nat) (m : Bytes) (p : Nat) :
    (u16 M m (p + 2)).toNat = (u32 M m p).toNat / 2 ^ 16 := by
  have h0 := (m (p % M)).toNat_lt
  have h1 := (m ((p + 1) % M)).toNat_lt
  rw [u16_toNat, u32_toNat, Nat.add_assoc p 2 1]
  omega

/-- An address is the same modulo the space. -/
theorem u32_mod (p : Nat) : u32 M m (p % M) = u32 M m p := by
  simp only [u32, Nat.mod_mod, Nat.mod_add_mod]

/-- A load depends on its four bytes only. -/
theorem u32_congr (same : ∀ i < 4, m ((p + i) % M) = m' ((p + i) % M)) : u32 M m p = u32 M m' p := by
  have h0 := same 0 (by omega)
  have h1 := same 1 (by omega)
  have h2 := same 2 (by omega)
  have h3 := same 3 (by omega)
  rw [Nat.add_zero] at h0
  simp only [u32, h0, h1, h2, h3]

theorem u16_congr (same : ∀ i < 2, m ((p + i) % M) = m' ((p + i) % M)) : u16 M m p = u16 M m' p := by
  have h0 := same 0 (by omega)
  have h1 := same 1 (by omega)
  rw [Nat.add_zero] at h0
  simp only [u16, h0, h1]

/-- A word determines its four bytes. -/
theorem bytes_of_u32 (same : u32 M m p = u32 M m' p) (k : Nat) (lt : k < 4) :
    m ((p + k) % M) = m' ((p + k) % M) := by
  have words := congrArg UInt32.toNat same
  rw [u32_toNat, u32_toNat] at words
  have h0 := (m (p % M)).toNat_lt
  have h1 := (m ((p + 1) % M)).toNat_lt
  have h2 := (m ((p + 2) % M)).toNat_lt
  have h0' := (m' (p % M)).toNat_lt
  have h1' := (m' ((p + 1) % M)).toNat_lt
  have h2' := (m' ((p + 2) % M)).toNat_lt
  apply UInt8.toNat_inj.mp
  obtain rfl | rfl | rfl | rfl : k = 0 ∨ k = 1 ∨ k = 2 ∨ k = 3 := by omega
  · rw [Nat.add_zero]; omega
  · omega
  · omega
  · omega

theorem u32_store32_same (room : 4 ≤ M) : u32 M (store32 M m p v) p = v := by
  have hit : ∀ k, k < 4 → store32 M m p v ((p + k) % M) = byteOf v k := fun k lt =>
    store_hit (by omega) _ (by omega) lt
  have h0 := hit 0 (by omega)
  rw [Nat.add_zero] at h0
  apply UInt32.toNat_inj.mp
  rw [u32_toNat, h0, hit 1 (by omega), hit 2 (by omega), hit 3 (by omega)]
  simp only [byteOf_toNat]
  have := v.toNat_lt
  omega

/-- A store leaves every byte outside its interval. -/
theorem store32_apply_outside (fits : p + 4 ≤ M) (lt : a < M) (outside : a < p ∨ p + 4 ≤ a) :
    store32 M m p v a = m a := by
  rw [store32, store_apply _ fits lt, if_neg (by omega)]

/-- A store leaves every word it does not overlap. -/
theorem u32_store32_apart (fitsP : p + 4 ≤ M) (fitsQ : q + 4 ≤ M) (apart : p + 4 ≤ q ∨ q + 4 ≤ p) :
    u32 M (store32 M m p v) q = u32 M m q := by
  apply u32_congr
  intro i lt
  rw [Nat.mod_eq_of_lt (by omega : q + i < M)]
  exact store32_apply_outside fitsP (by omega) (by omega)

/-! ## C strings -/

/-- The string read at `p` is `s` when its bytes are, and the terminator follows. -/
theorem cstring_eq {s : List UInt8} (fits : p + s.length < M)
    (bytes : ∀ i (hi : i < s.length), m (p + i) = s[i]) (nonzero : ∀ c ∈ s, c ≠ 0)
    (nul : m (p + s.length) = 0) : cstring M m p = s := by
  have go : ∀ (s : List UInt8) (p n : Nat), s.length < n → p + s.length < M →
      (∀ i (hi : i < s.length), m (p + i) = s[i]) → (∀ c ∈ s, c ≠ 0) → m (p + s.length) = 0 →
      cstringUpTo M m n p = s := by
    intro s
    induction s with
    | nil =>
      intro p n lt fits _ _ nul
      obtain ⟨n, rfl⟩ : ∃ n', n = n' + 1 := ⟨n - 1, by simp only [List.length_nil] at lt; omega⟩
      simp only [List.length_nil, Nat.add_zero] at nul fits
      simp only [cstringUpTo, Nat.mod_eq_of_lt fits, nul, if_true]
    | cons c s ih =>
      intro p n lt fits bytes nonzero nul
      simp only [List.length_cons] at lt fits nul
      obtain ⟨n, rfl⟩ : ∃ n', n = n' + 1 := ⟨n - 1, by omega⟩
      have head : m p = c := bytes 0 (by simp)
      have tail := ih (p + 1) n (by omega) (by omega)
        (fun i hi => by
          rw [Nat.add_assoc, Nat.add_comm 1 i]
          exact bytes (i + 1) (Nat.succ_lt_succ hi))
        (fun d hd => nonzero d (by simp [hd])) (by rwa [Nat.add_assoc, Nat.add_comm 1])
      simp only [cstringUpTo, Nat.mod_eq_of_lt (by omega : p < M), head, nonzero c (by simp),
        if_false, tail]
  exact go s p M (by omega) fits bytes nonzero nul

end Dyndxt.Mem
