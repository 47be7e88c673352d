import Mathlib.Data.List.TakeWhile
import Dyndxt.Params.Lookup

/-!
# Integer literals

The texts that `strtoul` and `strtol` of base 0 convert as a whole: white
space, a sign, and digits whose prefix tells their base. `readInteger` reads
to the end of a text exactly when the text is one of them.
-/

namespace Dyndxt.Params

/-- The number that digits of the base stand for. -/
def numeral (base : Nat) (digits : Chars) : Nat :=
  digits.foldl (fun value c => value * base + (digitOf base c).getD 0) 0

def AllDigits (base : Nat) (digits : Chars) : Prop := ∀ c ∈ digits, (digitOf base c).isSome

/-- Digits with the prefix of their base, and what they stand for. -/
inductive Numeral : Chars → Nat → Prop where
  | decimal {c : UInt8} {digits : Chars} : c ≠ 0x30 → AllDigits 10 (c :: digits) →
      Numeral (c :: digits) (numeral 10 (c :: digits))
  | octal {digits : Chars} : AllDigits 8 digits → Numeral (0x30 :: digits) (numeral 8 digits)
  | hex {x : UInt8} {digits : Chars} : x = 0x78 ∨ x = 0x58 → digits ≠ [] → AllDigits 16 digits →
      Numeral (0x30 :: x :: digits) (numeral 16 digits)

/-- The optional sign; true is a minus. -/
inductive Sign : Chars → Bool → Prop where
  | absent : Sign [] false
  | plus : Sign [0x2B] false
  | minus : Sign [0x2D] true

/-- The whole text is one integer literal. -/
inductive IsLiteral : Chars → Bool → Nat → Prop where
  | mk {blank sign digits : Chars} {negative : Bool} {magnitude : Nat} : (∀ c ∈ blank, isSpace c = true) →
      Sign sign negative → Numeral digits magnitude → IsLiteral (blank ++ (sign ++ digits)) negative magnitude

def literalValue (negative : Bool) (magnitude : Nat) : Int := if negative then -magnitude else magnitude

variable {base value magnitude : Nat} {c x : UInt8} {text digits rest stop sign : Chars} {negative : Bool}

/-! ## Digits -/

theorem readDigits_eq (base value : Nat) (text : Chars) : readDigits base value text =
    ((text.takeWhile fun c => (digitOf base c).isSome).foldl (fun value c => value * base + (digitOf base c).getD 0)
      value, text.dropWhile fun c => (digitOf base c).isSome) := by
  induction text generalizing value with
  | nil => rfl
  | cons c text ih =>
    cases digit : digitOf base c with
    | none => simp [readDigits, digit]
    | some d => simp [readDigits, digit, ih]

theorem readDigits_length (base value : Nat) (text : Chars) : (readDigits base value text).2.length ≤ text.length := by
  rw [readDigits_eq]
  exact (List.dropWhile_suffix _).length_le

/-- All of a text is read exactly when all of it is digits. -/
theorem readDigits_whole : (readDigits base 0 digits).2 = [] ↔ AllDigits base digits := by
  rw [readDigits_eq, List.dropWhile_eq_nil_iff]
  rfl

theorem readDigits_numeral (all : AllDigits base digits) : (readDigits base 0 digits).1 = numeral base digits := by
  rw [readDigits_eq, List.takeWhile_eq_self_iff.mpr all]
  rfl

theorem numeral_zero (digits : Chars) : numeral 8 (0x30 :: digits) = numeral 8 digits := rfl

/-! ## The parts of a literal -/

theorem digit_plain (digit : (digitOf base c).isSome) : isSpace c = false ∧ c ≠ 0x2D ∧ c ≠ 0x2B := by
  have ranges : (0x30 ≤ c ∧ c ≤ 0x39) ∨ (0x61 ≤ c ∧ c ≤ 0x7A) ∨ (0x41 ≤ c ∧ c ≤ 0x5A) := by
    by_contra none
    rw [not_or, not_or] at none
    rw [digitOf, digitValue, if_neg none.1, if_neg none.2.1, if_neg none.2.2] at digit
    cases digit
  unfold isSpace space
  rw [decide_eq_false_iff_not]
  refine ⟨?_, ?_, ?_⟩ <;> simp only [UInt8.le_iff_toNat_le, ← UInt8.toNat_inj, UInt8.reduceToNat, ne_eq] at * <;>
    omega

theorem octal_not_x (digit : (digitOf 8 x).isSome) : ¬ (x = 0x78 ∨ x = 0x58) := by
  rintro (rfl | rfl)
  · cases digit
  · cases digit

theorem readBase_hex (marked : x = 0x78 ∨ x = 0x58) (digit : (digitOf 16 c).isSome) :
    readBase (0x30 :: x :: c :: rest) = (16, c :: rest) :=
  if_pos ⟨marked, digit⟩

theorem readBase_octal (unmarked : ∀ x c after, rest = x :: c :: after → ¬ ((x = 0x78 ∨ x = 0x58) ∧ (digitOf 16 c).isSome)) :
    readBase (0x30 :: rest) = (8, 0x30 :: rest) := by
  match rest with
  | [] => rfl
  | [_] => rfl
  | x :: c :: after => exact if_neg (unmarked x c after rfl)

theorem readBase_decimal (first : text.head? ≠ some 0x30) : readBase text = (10, text) := by
  unfold readBase
  split
  · exact absurd rfl first
  · exact absurd rfl first
  · rfl

theorem readBase_length (text : Chars) : (readBase text).2.length ≤ text.length := by
  unfold readBase
  split
  · split
    · exact Nat.le_add_right _ 2
    · exact Nat.le_refl _
  · exact Nat.le_refl _
  · exact Nat.le_refl _

/-- A numeral is digits behind the prefix of their base. -/
theorem numeral_iff : Numeral digits magnitude ↔ (readBase digits).2 ≠ [] ∧
    AllDigits (readBase digits).1 (readBase digits).2 ∧ numeral (readBase digits).1 (readBase digits).2 = magnitude := by
  constructor
  · intro numeral_
    cases numeral_ with
    | @decimal c rest nonzero all =>
      rw [@readBase_decimal (c :: rest) fun first => nonzero (Option.some.inj first)]
      exact ⟨List.cons_ne_nil _ _, all, rfl⟩
    | @octal digits all =>
      rw [readBase_octal]
      · exact ⟨List.cons_ne_nil _ _, List.forall_mem_cons.mpr ⟨rfl, all⟩, numeral_zero digits⟩
      · rintro x c after rfl ⟨marked, -⟩
        exact octal_not_x (all x List.mem_cons_self) marked
    | @hex x digits marked some_ all =>
      obtain ⟨c, rest, rfl⟩ := List.exists_cons_of_ne_nil some_
      rw [readBase_hex marked (all c List.mem_cons_self)]
      exact ⟨some_, all, rfl⟩
  · rintro ⟨some_, all, rfl⟩
    by_cases first : digits.head? = some 0x30
    · obtain ⟨rest, rfl⟩ : ∃ rest, digits = 0x30 :: rest := by
        cases digits with
        | nil => cases first
        | cons c rest => exact ⟨rest, by rw [Option.some.inj first]⟩
      by_cases marked : ∃ x c after, rest = x :: c :: after ∧ (x = 0x78 ∨ x = 0x58) ∧ (digitOf 16 c).isSome
      · obtain ⟨x, c, after, rfl, marked, digit⟩ := marked
        rw [readBase_hex marked digit] at some_ all ⊢
        exact .hex marked some_ all
      · have unmarked := @readBase_octal rest fun x c after whole both => marked ⟨x, c, after, whole, both⟩
        rw [unmarked] at all ⊢
        rw [numeral_zero]
        exact .octal fun c listed => all c (List.mem_cons_of_mem _ listed)
    · rw [readBase_decimal first] at some_ all ⊢
      obtain ⟨c, rest, rfl⟩ := List.exists_cons_of_ne_nil some_
      exact .decimal (fun zero => first (by rw [zero]; rfl)) all

/-- A numeral starts with a digit. -/
theorem Numeral.plain (numeral_ : Numeral digits magnitude) :
    ∀ c ∈ digits.head?, isSpace c = false ∧ c ≠ 0x2D ∧ c ≠ 0x2B := by
  intro c first
  cases numeral_ with
  | decimal _ all => exact digit_plain (all c (by cases first; exact List.mem_cons_self))
  | octal => cases first; decide
  | hex => cases first; decide

/-- A sign in front of what is none. -/
theorem readSign_append (sign_ : Sign sign negative) (plain : ∀ c ∈ rest.head?, c ≠ 0x2D ∧ c ≠ 0x2B) :
    readSign (sign ++ rest) = (negative, rest) := by
  cases sign_ with
  | plus => rfl
  | minus => rfl
  | absent =>
    cases rest with
    | nil => rfl
    | cons c rest =>
      obtain ⟨noMinus, noPlus⟩ := plain c rfl
      rw [List.nil_append, readSign, if_neg noMinus, if_neg noPlus]

theorem readSign_split (text : Chars) : ∃ sign, text = sign ++ (readSign text).2 ∧ Sign sign (readSign text).1 := by
  cases text with
  | nil => exact ⟨[], rfl, .absent⟩
  | cons c text =>
    by_cases minus : c = 0x2D
    · subst minus
      exact ⟨[0x2D], rfl, .minus⟩
    · by_cases plus : c = 0x2B
      · subst plus
        exact ⟨[0x2B], rfl, .plus⟩
      · rw [readSign, if_neg minus, if_neg plus]
        exact ⟨[], rfl, .absent⟩

/-! ## Reading a literal -/

theorem readInteger_eq (text : Chars) : readInteger text =
    let after := readSign (text.dropWhile isSpace)
    let digits := readBase after.2
    if (readDigits digits.1 0 digits.2).2.length = digits.2.length then none
    else some (after.1, readDigits digits.1 0 digits.2) := rfl

theorem readInteger_shorter (read : readInteger text = some (negative, magnitude, stop)) : stop.length < text.length := by
  rw [readInteger_eq] at read
  dsimp only at read
  split at read
  · cases read
  · next moved =>
    obtain ⟨-, digits⟩ := Prod.mk.inj (Option.some.inj read)
    rw [digits] at moved
    have run := readDigits_length (readBase (readSign (text.dropWhile isSpace)).2).1 0
      (readBase (readSign (text.dropWhile isSpace)).2).2
    rw [digits] at run
    have base := readBase_length (readSign (text.dropWhile isSpace)).2
    obtain ⟨sign, whole, -⟩ := readSign_split (text.dropWhile isSpace)
    have blank := (List.dropWhile_suffix (l := text) isSpace).length_le
    rw [whole, List.length_append] at blank
    dsimp only at moved run
    omega

/-- What is read to the end of a text is a literal. -/
theorem readInteger_whole : readInteger text = some (negative, magnitude, []) ↔ IsLiteral text negative magnitude := by
  rw [readInteger_eq]
  dsimp only
  constructor
  · intro read
    split at read
    · cases read
    · next moved =>
      obtain ⟨rfl, digits_⟩ := Prod.mk.inj (Option.some.inj read)
      have all := readDigits_whole.mp (congrArg Prod.snd digits_)
      rw [digits_] at moved
      obtain ⟨sign, whole, sign_⟩ := readSign_split (text.dropWhile isSpace)
      have numeral_ : Numeral (readSign (text.dropWhile isSpace)).2 magnitude := by
        refine numeral_iff.mpr ⟨fun none => moved (by rw [none]), all, ?_⟩
        rw [← readDigits_numeral all, digits_]
      have literal := IsLiteral.mk (fun c => @List.mem_takeWhile_imp _ isSpace text c) sign_ numeral_
      rwa [← whole, List.takeWhile_append_dropWhile] at literal
  · rintro ⟨blank_, sign_, numeral_⟩
    next blank sign digits =>
    have plain := numeral_.plain
    have visible : ∀ c ∈ (sign ++ digits).head?, isSpace c = false := by
      intro c first
      cases sign_ with
      | absent => exact (plain c first).1
      | plus => cases first; decide
      | minus => cases first; decide
    have skipped : (blank ++ (sign ++ digits)).dropWhile isSpace = sign ++ digits := by
      rw [List.dropWhile_append_of_pos blank_]
      cases whole : sign ++ digits with
      | nil => rfl
      | cons c rest => exact List.dropWhile_cons_of_neg (by simp [visible c (by rw [whole]; rfl)])
    rw [skipped, readSign_append sign_ fun c first => (plain c first).2]
    obtain ⟨some_, all, value⟩ := numeral_iff.mp numeral_
    have stop := readDigits_whole.mpr all
    have read := readDigits_numeral all
    rw [value] at read
    rw [if_neg (by rw [stop]; exact fun none => some_ (List.length_eq_zero_iff.mp none.symm))]
    rw [← read, ← stop]

theorem IsLiteral.unique {negative' : Bool} {magnitude' : Nat} (literal : IsLiteral text negative magnitude)
    (literal' : IsLiteral text negative' magnitude') : negative = negative' ∧ magnitude = magnitude' := by
  have same := (readInteger_whole.mpr literal).symm.trans (readInteger_whole.mpr literal')
  cases same
  exact ⟨rfl, rfl⟩

/-- A text is a literal, or the conversion does not start or stops before its
end. -/
theorem readInteger_cases (text : Chars) : (∃ negative magnitude, IsLiteral text negative magnitude) ∨
    (¬ ∃ negative magnitude, IsLiteral text negative magnitude) ∧
      ∀ negative magnitude stop, readInteger text = some (negative, magnitude, stop) →
        stop ≠ [] ∧ stop.length ≠ text.length := by
  by_cases literal : ∃ negative magnitude, IsLiteral text negative magnitude
  · exact .inl literal
  · refine .inr ⟨literal, fun negative magnitude stop read => ⟨?_, (readInteger_shorter read).ne⟩⟩
    rintro rfl
    exact literal ⟨negative, magnitude, readInteger_whole.mp read⟩

end Dyndxt.Params
