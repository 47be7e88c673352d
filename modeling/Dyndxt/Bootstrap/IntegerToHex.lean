import Mathlib.Data.List.Induction
import Mathlib.Data.Nat.Digits.Lemmas
import Dyndxt.Bootstrap.ParseInteger
import Dyndxt.Bootstrap.Install

/-!
# `integer_to_hex`

The digits are written least significant first behind `0x` and then turned
round in place, two of them at a time from both ends.
-/

namespace Dyndxt.Bootstrap
open Dyndxt.Mem Dyndxt.Run Dyndxt.Loader
open Dyndxt.Params (digitOf numeral AllDigits)

/-- `g_hex_chars` -/
def hexChars : List UInt8 := ascii "0123456789abcdef"

def hexChar (d : Nat) : UInt8 := hexChars.getD d 0

/-- The hexadecimal digits of a value, most significant first. -/
def lowercaseHex (v : UInt32) : List UInt8 := (Nat.digits 16 v.toNat).reverse.map hexChar

/-- `0x` and the digits of `v` at `edi`, in at most 11 bytes and with nothing
else written, and `parse_integer` reads them. -/
structure RendersHex (m : Bytes) (v edi : UInt32) (m' : Bytes) : Prop where
  text : TextAt m' edi (hexPrefix ++ lowercaseHex v)
  leading : ∀ c ∈ (lowercaseHex v).head?, c ≠ 0x30
  fits : (hexPrefix ++ lowercaseHex v).length + 1 ≤ 11
  spares : ∀ q, (∀ i < 11, q ≠ edi + .ofNat i) → load8 m' q = load8 m q
  parsed : ∀ eax, ∃ enough, ∀ budget, enough ≤ budget →
    parseInteger budget m' eax edi = some (v, edi + .ofNat (hexPrefix ++ lowercaseHex v).length)

variable {m : Bytes} {gHexChars edi v : UInt32} {bytes digits pre mid post : List UInt8} {n i j : Nat}

/-! ## Digits -/

theorem hexChar_digit {d : Nat} (lt : d < 16) :
    digitOf 16 (hexChar d) = some d ∧ hexChar d ≠ 0 ∧ (hexChar d = 0x30 → d = 0) := by
  have all : ∀ d < 16, digitOf 16 (hexChar d) = some d ∧ hexChar d ≠ 0 ∧ (hexChar d = 0x30 → d = 0) := by decide
  exact all d lt

theorem lowercaseHex_all (v : UInt32) : ∀ c ∈ lowercaseHex v, (digitOf 16 c).isSome ∧ c ≠ 0 := by
  intro c listed
  obtain ⟨d, digit, rfl⟩ := List.mem_map.mp listed
  obtain ⟨found, nonzero, -⟩ := hexChar_digit (Nat.digits_lt_base (by decide) (List.mem_reverse.mp digit))
  exact ⟨by rw [found]; rfl, nonzero⟩

theorem lowercaseHex_length (v : UInt32) : (lowercaseHex v).length ≤ 8 := by
  rw [lowercaseHex, List.length_map, List.length_reverse]
  exact (Nat.digits_length_le_iff (by decide) _).mpr v.toNat_lt

theorem lowercaseHex_leading {c : UInt8} (first : c ∈ (lowercaseHex v).head?) : c ≠ 0x30 := by
  rw [lowercaseHex, List.head?_map, List.head?_reverse] at first
  obtain ⟨d, last, rfl⟩ := Option.mem_map.mp first
  obtain ⟨some_, is⟩ := List.mem_getLast?_eq_getLast last
  have lt := Nat.digits_lt_base (by decide) (List.mem_of_getLast? last)
  intro zero
  have nonzero : v.toNat ≠ 0 := Nat.digits_ne_nil_iff_ne_zero.mp some_
  apply Nat.getLast_digit_ne_zero 16 nonzero
  rw [← is]
  exact (hexChar_digit lt).2.2 zero

/-- The value of a number's digits. -/
theorem numeral_lowercaseHex (v : UInt32) : numeral 16 (lowercaseHex v) = v.toNat := by
  have fold : ∀ ds : List Nat, (∀ d ∈ ds, d < 16) → numeral 16 (ds.reverse.map hexChar) = Nat.ofDigits 16 ds := by
    intro ds small
    induction ds with
    | nil => rfl
    | cons d ds ih =>
      obtain ⟨found, -, -⟩ := hexChar_digit (small d List.mem_cons_self)
      have rest := ih fun d listed => small d (List.mem_cons_of_mem _ listed)
      unfold numeral at rest ⊢
      rw [List.reverse_cons, List.map_append, List.foldl_append, rest, List.map_singleton, List.foldl_cons,
        List.foldl_nil, found, Option.getD_some, Nat.ofDigits_cons]
      exact (Nat.add_comm _ _).trans (congrArg _ (Nat.mul_comm _ _))
  exact (fold _ fun d listed => Nat.digits_lt_base (by decide) listed).trans (Nat.ofDigits_digits 16 v.toNat)

/-! ## The digit loop -/

theorem low_digit (v : UInt32) : (v &&& 0x0F).toNat = v.toNat % 16 := by
  rw [UInt32.toNat_and]
  exact Nat.and_two_pow_sub_one_eq_mod _ 4

theorem shifted (v : UInt32) : (v >>> 4).toNat = v.toNat / 16 := by
  rw [UInt32.toNat_shiftRight, Nat.shiftRight_eq_div_pow]
  rfl

/-- The table that the digits are taken from, apart from the buffer. -/
structure TableAt (m : Bytes) (gHexChars edi : UInt32) : Prop where
  table : BytesAt m gHexChars hexChars
  apart : ∀ i < 11, ∀ j < 16, gHexChars + .ofNat j ≠ edi + .ofNat i

theorem TableAt.get (table : TableAt m gHexChars edi) (fits : bytes.length ≤ 11) (v : UInt32) :
    load8 (write m edi bytes) (gHexChars + (v &&& 0x0F)) = hexChar (v.toNat % 16) := by
  have lt := Nat.mod_lt v.toNat (by decide : 0 < 16)
  have index : v &&& 0x0F = .ofNat (v.toNat % 16) := by
    apply UInt32.toNat_inj.mp
    rw [low_digit, UInt32.toNat_ofNat']
    exact (Nat.mod_eq_of_lt (by omega)).symm
  rw [index, load8_apart fun i inside => table.apart i (by omega) _ lt, bytesAt_iff.mp table.table _ lt]
  exact (List.getD_eq_getElem _ _ _).symm

/-- The digits of what is left of the value, least significant first. -/
theorem steps_digitLoop (table : TableAt m gHexChars edi) (v : UInt32) (bytes : List UInt8)
    (fits : bytes.length + (Nat.digits 16 v.toNat).length ≤ 11) :
    Steps (hexTurn gHexChars) (write m edi bytes, v, edi + .ofNat bytes.length)
      (write m edi (bytes ++ (Nat.digits 16 v.toNat).map hexChar), 0,
        edi + .ofNat (bytes ++ (Nat.digits 16 v.toNat).map hexChar).length) := by
  generalize eq : v.toNat = n at fits
  induction n using Nat.strong_induction_on generalizing v bytes with
  | _ n ih =>
    by_cases zero : v = 0
    · subst zero
      obtain rfl : 0 = n := eq
      rw [Nat.digits_zero, List.map_nil, List.append_nil]
      exact .refl _
    · have pos : 0 < n := by
        rw [← eq, Nat.pos_iff_ne_zero]
        exact fun none => zero (UInt32.toNat_inj.mp none)
      rw [Nat.digits_def' (by decide) pos] at fits ⊢
      rw [List.length_cons] at fits
      have round : hexTurn gHexChars (write m edi bytes, v, edi + .ofNat bytes.length) =
          .again (write m edi (bytes ++ [hexChar (n % 16)]), v >>> 4, edi + .ofNat (bytes ++ [hexChar (n % 16)]).length) := by
        refine (if_neg zero).trans ?_
        rw [table.get (by omega), store8_behind (by omega), eq, List.length_append, List.length_singleton,
          UInt32.ofNat_add, ← UInt32.add_assoc]
        rfl
      have rest := ih (n / 16) (Nat.div_lt_self pos (by decide)) (v >>> 4) (bytes ++ [hexChar (n % 16)])
        ((shifted v).trans (by rw [eq])) (by rw [List.length_append, List.length_singleton]; omega)
      rw [List.append_assoc] at rest
      exact .step round rest

/-! ## The reversal -/

theorem toInt_toInt32 (p : UInt32) : p.toInt32.toInt = if p.toNat < 2 ^ 31 then (p.toNat : Int) else p.toNat - 2 ^ 32 := by
  show p.toBitVec.toInt = _
  rw [BitVec.toInt_eq_toNat_cond]
  have same : p.toBitVec.toNat = p.toNat := rfl
  rw [same]
  split <;> split <;> omega

/-- In a buffer on one side of `0x80000000` the signed comparison of two
pointers is that of their offsets. -/
theorem signed_lt (side : edi.toNat + 11 ≤ 2 ^ 31 ∨ 2 ^ 31 ≤ edi.toNat) (ltI : i < 11) (ltJ : j < 11) :
    (edi + .ofNat i).toInt32 < (edi + .ofNat j).toInt32 ↔ i < j := by
  have top := edi.toNat_lt
  have space : Build.target.space = 2 ^ 32 := rfl
  rw [Int32.lt_iff_toInt_lt, toInt_toInt32, toInt_toInt32, address_add, address_add, space]
  omega

theorem retreat (p : UInt32) (pos : 0 < n) : p + .ofNat n - 1 = p + .ofNat (n - 1) := by
  obtain ⟨k, rfl⟩ := Nat.exists_eq_add_of_lt pos
  rw [Nat.zero_add, Nat.add_sub_cancel, UInt32.ofNat_add, ← UInt32.add_assoc]
  exact UInt32.add_sub_cancel _ _

/-- A round exchanges two bytes and goes on while there are two more between
them. -/
theorem reverseTurn_eq (side : edi.toNat + 11 ≤ 2 ^ 31 ∨ 2 ^ 31 ≤ edi.toNat) (fits : bytes.length ≤ 11)
    (le : i ≤ j) (ltJ : j < bytes.length) (pos : 0 < j) (below : i + 1 < 11) :
    reverseTurn (write m edi bytes, edi + .ofNat i, edi + .ofNat j) =
      if i + 1 < j - 1 then
        .again (write m edi ((bytes.set j bytes[i]).set i bytes[j]), edi + .ofNat (i + 1), edi + .ofNat (j - 1))
      else .leave (write m edi ((bytes.set j bytes[i]).set i bytes[j])) := by
  have up : edi + .ofNat i + 1 = edi + .ofNat (i + 1) := by rw [UInt32.add_assoc, UInt32.ofNat_add]; rfl
  have compared := signed_lt side below (by omega : j - 1 < 11)
  have set_ : i < (bytes.set j bytes[i]).length := by
    rw [List.length_set]
    omega
  unfold reverseTurn
  dsimp only
  rw [up, retreat edi pos, load8_write (by omega) (by omega), load8_write (by omega) ltJ, store8_over (by omega) ltJ,
    store8_over (by rw [List.length_set]; omega) set_]
  simp only [compared]

theorem exchange_ends (pre post l : List UInt8) (a b : UInt8) (lt : pre.length < (pre ++ (a :: (l ++ [b])) ++ post).length)
    (lt' : pre.length + l.length + 1 < (pre ++ (a :: (l ++ [b])) ++ post).length) :
    ((pre ++ (a :: (l ++ [b])) ++ post).set (pre.length + l.length + 1) (pre ++ (a :: (l ++ [b])) ++ post)[pre.length]).set
      pre.length (pre ++ (a :: (l ++ [b])) ++ post)[pre.length + l.length + 1] = pre ++ (b :: (l ++ [a])) ++ post := by
  have first : (pre ++ (a :: (l ++ [b])) ++ post)[pre.length] = a := by simp
  have last : (pre ++ (a :: (l ++ [b])) ++ post)[pre.length + l.length + 1] = b := by
    simp [Nat.add_assoc]
  rw [first, last]
  simp [Nat.add_assoc]

/-- What is between the two pointers is turned round. -/
theorem returns_reverse (side : edi.toNat + 11 ≤ 2 ^ 31 ∨ 2 ^ 31 ≤ edi.toNat) (some_ : mid ≠ []) (pos : pre ≠ [])
    (behind : post ≠ []) (fits : (pre ++ mid ++ post).length ≤ 11) :
    Returns reverseTurn
      (write m edi (pre ++ mid ++ post), edi + .ofNat pre.length, edi + .ofNat (pre.length + mid.length - 1))
      (write m edi (pre ++ mid.reverse ++ post)) := by
  have pos' := List.length_pos_of_ne_nil pos
  have behind' := List.length_pos_of_ne_nil behind
  induction mid using List.bidirectionalRec generalizing pre post with
  | nil => exact absurd rfl some_
  | singleton c =>
    have lt : pre.length + 1 < (pre ++ [c] ++ post).length := by simp; omega
    have round := @reverseTurn_eq m edi _ _ _ side fits (Nat.le_refl _) (by omega) pos' (by omega)
    rw [if_neg (by omega), List.set_getElem_self, List.set_getElem_self] at round
    exact returns_leave round
  | cons_append a l b ih =>
    have lt : pre.length < (pre ++ (a :: (l ++ [b])) ++ post).length := by simp
    have lt' : pre.length + l.length + 1 < (pre ++ (a :: (l ++ [b])) ++ post).length := by simp; omega
    have below : pre.length + 1 < (pre ++ (a :: (l ++ [b])) ++ post).length := by simp
    have last : pre.length + (a :: (l ++ [b])).length - 1 = pre.length + l.length + 1 := by simp; omega
    have round := @reverseTurn_eq m edi _ pre.length _ side fits (by omega) lt' (by omega) (by omega)
    rw [exchange_ends pre post l a b lt lt'] at round
    rw [last, List.reverse_cons, List.reverse_append, List.reverse_singleton]
    by_cases more : 1 < l.length
    · rw [if_pos (by omega)] at round
      have rest := @ih (pre ++ [b]) (a :: post) (List.ne_nil_of_length_pos (by omega)) (by simp)
        (by simp) (by simp at fits ⊢; omega) (by simp) (by simp)
      rw [List.length_append, List.length_singleton] at rest
      have stop : pre.length + 1 + l.length - 1 = pre.length + l.length + 1 - 1 := by omega
      rw [stop] at rest
      simp only [List.append_assoc, List.cons_append, List.nil_append] at round rest ⊢
      exact (Steps.one round).returns rest
    · rw [if_neg (by omega)] at round
      have same : l.reverse = l := by
        obtain none | one := Nat.le_one_iff_eq_zero_or_eq_one.mp (Nat.not_lt.mp more)
        · rw [List.length_eq_zero_iff.mp none]
          rfl
        · obtain ⟨c, rfl⟩ := List.length_eq_one_iff.mp one
          rfl
      rw [same]
      exact returns_leave round

/-! ## The whole -/

theorem lowercaseHex_parses (eax : UInt32) (at_ : TextAt m edi (hexPrefix ++ lowercaseHex v)) : ∃ enough, ∀ budget,
    enough ≤ budget → parseInteger budget m eax edi = some (v, edi + .ofNat (hexPrefix ++ lowercaseHex v).length) := by
  have run : hexRun (lowercaseHex v) = lowercaseHex v :=
    List.takeWhile_eq_self_iff.mpr fun c listed => (lowercaseHex_all v c listed).1
  have after : afterRun (lowercaseHex v) = [] :=
    List.dropWhile_eq_nil_iff.mpr fun c listed => (lowercaseHex_all v c listed).1
  obtain ⟨enough, budgets⟩ := parseInteger_reads eax at_ fun c first => by rw [after] at first; exact nomatch first
  rw [run, numeral_lowercaseHex, UInt32.ofNat_toNat] at budgets
  have stop : edi + .ofNat (hexPrefix ++ lowercaseHex v).length = edi + 2 + .ofNat (lowercaseHex v).length := by
    rw [List.length_append, UInt32.ofNat_add, ← UInt32.add_assoc]
    rfl
  rw [stop]
  exact ⟨enough, budgets⟩

/-- What is written is the text and its NUL. -/
theorem rendersHex_write : RendersHex m v edi (write m edi (hexPrefix ++ lowercaseHex v ++ [0])) := by
  have short := lowercaseHex_length v
  have fits : (hexPrefix ++ lowercaseHex v).length + 1 ≤ 11 := by
    rw [List.length_append]
    show 2 + _ + 1 ≤ 11
    omega
  have whole : (hexPrefix ++ lowercaseHex v ++ [0]).length ≤ 11 := by rwa [List.length_append]
  have plain : 0 ∉ hexPrefix ++ lowercaseHex v := by
    rw [List.mem_append, not_or]
    exact ⟨by decide, fun listed => (lowercaseHex_all v 0 listed).2 rfl⟩
  have text : TextAt (write m edi (hexPrefix ++ lowercaseHex v ++ [0])) edi (hexPrefix ++ lowercaseHex v) :=
    textAt_iff.mpr ⟨bytesAt_write (by omega), plain⟩
  constructor
  · exact text
  · exact fun c => lowercaseHex_leading
  · exact fits
  · exact fun q apart => load8_apart fun i inside => apart i (by omega)
  · exact fun eax => lowercaseHex_parses eax text

theorem integerToHex_eq (side : edi.toNat + 11 ≤ 2 ^ 31 ∨ 2 ^ 31 ≤ edi.toNat) (nonzero : v ≠ 0)
    (table : TableAt m gHexChars edi) : ∃ enough, ∀ budget, enough ≤ budget →
      integerToHex budget gHexChars m v edi = some (write m edi (hexPrefix ++ lowercaseHex v ++ [0])) := by
  have short := lowercaseHex_length v
  have reversed : ((Nat.digits 16 v.toNat).map hexChar).reverse = lowercaseHex v := List.map_reverse.symm
  have count : (Nat.digits 16 v.toNat).length = (lowercaseHex v).length := by
    rw [← reversed, List.length_reverse, List.length_map]
  have two : hexPrefix.length = 2 := rfl
  have loop := steps_digitLoop table v hexPrefix (by omega)
  generalize digits_ : (Nat.digits 16 v.toNat).map hexChar = digits at reversed loop
  have some_ : digits ≠ [] := by
    rintro rfl
    rw [List.map_eq_nil_iff, Nat.digits_eq_nil_iff_eq_zero] at digits_
    exact nonzero (UInt32.toNat_inj.mp digits_)
  have total : (hexPrefix ++ digits).length = hexPrefix.length + digits.length := List.length_append
  have same : digits.length = (lowercaseHex v).length := by rw [← reversed, List.length_reverse]
  have turned := @returns_reverse m edi hexPrefix digits [0] side some_ (by decide) (by decide) (by
    rw [List.length_append, List.length_singleton]
    omega)
  have stop := retreat edi (by omega : 0 < (hexPrefix ++ digits).length)
  rw [reversed, ← total, ← stop] at turned
  obtain ⟨enough, digitBudgets⟩ := (loop.returns (returns_leave rfl)).eventually
  obtain ⟨enough', reverseBudgets⟩ := turned.eventually
  refine ⟨enough + enough', fun budget le => ?_⟩
  have begun : store8 (store8 m edi 0x30) (edi + 1) 0x78 = write m edi hexPrefix := by
    rw [store8_eq m edi]
    exact @store8_behind m edi 0x78 [0x30] (by decide)
  have first : left (run (hexTurn gHexChars) budget (write m edi hexPrefix, v, edi + 2)) =
      some (write m edi (hexPrefix ++ digits), edi + .ofNat (hexPrefix ++ digits).length) :=
    congrArg left (digitBudgets budget (by omega))
  unfold integerToHex
  dsimp only [Option.bind_eq_bind]
  rw [begun, first, Option.bind_some, store8_behind (by omega)]
  exact congrArg left (reverseBudgets budget (by omega))

/-- Every nonzero value is rendered in a buffer that does not straddle
`0x80000000`, and read back. -/
theorem integerToHex_renders (m : Bytes) (gHexChars v edi : UInt32) (nonzero : v ≠ 0)
    (side : edi.toNat + 11 ≤ 2 ^ 31 ∨ 2 ^ 31 ≤ edi.toNat) (table : TableAt m gHexChars edi) :
    ∃ m', (∃ enough, ∀ budget, enough ≤ budget → integerToHex budget gHexChars m v edi = some m') ∧
      RendersHex m v edi m' :=
  ⟨_, integerToHex_eq side nonzero table, rendersHex_write⟩

theorem oddDigits_rendered : (∃ m', (∃ enough, ∀ budget, enough ≤ budget →
    integerToHex budget labelsAt.gHexChars (memoryWith "ldxt!a s=0x10") 0xB0C40 0x2000 = some m') ∧
      RendersHex (memoryWith "ldxt!a s=0x10") 0xB0C40 0x2000 m') ∧ lowercaseHex 0xB0C40 = ascii "b0c40" := by
  have table : TableAt (memoryWith "ldxt!a s=0x10") labelsAt.gHexChars 0x2000 :=
    ⟨by decide +kernel, by decide +kernel⟩
  exact ⟨integerToHex_renders _ _ 0xB0C40 0x2000 (by decide) (by decide) table, by decide +kernel⟩

end Dyndxt.Bootstrap
