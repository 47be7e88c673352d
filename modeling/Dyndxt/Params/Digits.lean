import Dyndxt.Params.Literals

/-!
# Printed numbers are literals

Digits printed in a base, with any zeros in front, stand for the number they
were printed from.
-/

namespace Dyndxt.Params

/-- How a character of a digit is written. -/
structure Prints (base : Nat) (print : Char → UInt8) : Prop where
  several : 1 < base
  digit : ∀ d < base, digitOf base (print d.digitChar) = some d

variable {base n : Nat} {print : Char → UInt8} {digits : Chars} {c : UInt8}

theorem numeral_snoc : numeral base (digits ++ [c]) = numeral base digits * base + (digitOf base c).getD 0 :=
  List.foldl_append

/-- The digits of a number stand for it. -/
theorem Prints.numeral (prints : Prints base print) (n : Nat) :
    Params.numeral base ((Nat.toDigits base n).map print) = n := by
  induction n using Nat.strong_induction_on with
  | _ n ih =>
    rw [Nat.toDigits_eq_if prints.several]
    split
    · next small =>
      rw [List.map_singleton, ← List.nil_append [_], numeral_snoc, prints.digit n small]
      exact (Nat.add_eq_right.mpr (Nat.zero_mul _)).trans rfl
    · next large =>
      have positive : 0 < n := by have := prints.several; omega
      have digit := prints.digit (n % base) (Nat.mod_lt n (Nat.zero_lt_of_lt prints.several))
      rw [List.map_append, List.map_singleton, numeral_snoc, ih (n / base) (Nat.div_lt_self positive prints.several), digit]
      exact Nat.div_add_mod' n base

theorem Prints.allDigits (prints : Prints base print) (n : Nat) : AllDigits base ((Nat.toDigits base n).map print) := by
  induction n using Nat.strong_induction_on with
  | _ n ih =>
    rw [Nat.toDigits_eq_if prints.several]
    intro c listed
    split at listed
    · next small =>
      rw [List.mem_singleton.mp listed, prints.digit n small]
      rfl
    · next large =>
      have positive : 0 < n := by have := prints.several; omega
      rw [List.map_append, List.mem_append] at listed
      rcases listed with earlier | last
      · exact ih (n / base) (Nat.div_lt_self positive prints.several) c earlier
      · rw [List.mem_singleton.mp last, prints.digit _ (Nat.mod_lt n (Nat.zero_lt_of_lt prints.several))]
        rfl

theorem digitOf_zero (positive : 0 < base) : digitOf base 0x30 = some 0 := by
  simp [digitOf, digitValue, Option.filter, positive]

/-- Only zero is printed with a zero in front. -/
theorem Prints.leading (prints : Prints base print) (positive : 0 < n) :
    ∀ c ∈ ((Nat.toDigits base n).map print).head?, c ≠ 0x30 := by
  induction n using Nat.strong_induction_on with
  | _ n ih =>
    have base_ := prints.several
    rw [Nat.toDigits_eq_if base_]
    split
    · next small =>
      rintro _ ⟨⟩ zero
      have digit := prints.digit n small
      rw [zero, digitOf_zero (by omega)] at digit
      cases digit
      omega
    · next large =>
      have some_ : (Nat.toDigits base (n / base)).map print ≠ [] := by simp
      rw [List.map_append, List.head?_append_of_ne_nil _ some_]
      exact ih (n / base) (Nat.div_lt_self positive base_) (Nat.div_pos (by omega) (by omega))

/-- Zeros in front change nothing. -/
theorem numeral_zeros (positive : 0 < base) (zeros : Nat) :
    numeral base (List.replicate zeros 0x30 ++ digits) = numeral base digits := by
  induction zeros with
  | zero => rfl
  | succ zeros ih =>
    rw [List.replicate_succ, List.cons_append, ← ih]
    unfold numeral
    rw [List.foldl_cons, digitOf_zero positive, Nat.zero_mul]
    rfl

/-! ## Literals -/

theorem Numeral.literal {sign : Chars} {negative : Bool} (numeral_ : Numeral digits n) (sign_ : Sign sign negative) :
    IsLiteral (sign ++ digits) negative n := @IsLiteral.mk [] _ _ _ _ nofun sign_ numeral_

theorem AllDigits.visible (all : AllDigits base digits) : space ∉ digits := fun listed =>
  Bool.noConfusion ((digit_plain (all space listed)).1.symm.trans (by decide : isSpace space = true))

/-- There is no space in digits and their prefix. -/
theorem Numeral.visible (numeral_ : Numeral digits n) : space ∉ digits := by
  cases numeral_ with
  | decimal _ all => exact all.visible
  | octal all => exact List.not_mem_cons_of_ne_of_not_mem (by decide) all.visible
  | hex x _ all =>
    refine List.not_mem_cons_of_ne_of_not_mem (by decide) (List.not_mem_cons_of_ne_of_not_mem ?_ all.visible)
    rcases x with rfl | rfl <;> decide

/-- A number in decimal. -/
theorem Prints.decimal (prints : Prints 10 print) (n : Nat) : Numeral ((Nat.toDigits 10 n).map print) n := by
  have all := prints.allDigits n
  have value := prints.numeral n
  rcases Nat.eq_zero_or_pos n with rfl | positive
  · have digit := prints.digit 0 (by decide)
    have zero : print '0' = 0x30 := by
      have all : ∀ n < 256, digitOf 10 (.ofNat n) = some 0 → UInt8.ofNat n = 0x30 := by decide +kernel
      have same := all (print '0').toNat (print '0').toNat_lt
      rw [UInt8.ofNat_toNat] at same
      exact same digit
    rw [Nat.toDigits_zero, List.map_singleton, zero]
    exact .octal fun _ listed => nomatch listed
  · have leading := prints.leading positive
    cases whole : (Nat.toDigits 10 n).map print with
    | nil => simp at whole
    | cons c digits =>
      rw [whole] at all value leading
      have written := Numeral.decimal (leading c rfl) all
      rwa [value] at written

/-- A number in hexadecimal behind its prefix. -/
theorem Prints.hex (prints : Prints 16 print) (zeros n : Nat) :
    Numeral (0x30 :: 0x78 :: (List.replicate zeros 0x30 ++ (Nat.toDigits 16 n).map print)) n := by
  have all : AllDigits 16 (List.replicate zeros 0x30 ++ (Nat.toDigits 16 n).map print) := by
    intro c listed
    rcases List.mem_append.mp listed with zero | digit
    · rw [(List.mem_replicate.mp zero).2]
      rfl
    · exact prints.allDigits n c digit
  have written := Numeral.hex (.inl rfl : (0x78 : UInt8) = 0x78 ∨ _) (by simp) all
  rwa [numeral_zeros (by decide), prints.numeral] at written

end Dyndxt.Params
