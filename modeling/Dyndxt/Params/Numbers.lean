import Dyndxt.Params.Literals
import Dyndxt.Params.Unclosed

/-!
# Reading numbers

`CPGetUInt32` and `CPGetInt32` accept the values that are integer literals as
a whole, but they do not ask whether the conversion has saturated. So on the
target a literal that does not fit is read as the largest number there is.
-/

namespace Dyndxt.Params
open Dyndxt.Pool

/-- The first entry with the key. -/
structure FirstEntry (key : Chars) (cp : CommandParameters) (i : Nat) : Prop where
  listed : i < cp.entries
  named : (cp.key i).map PoolString.chars = some key
  first : ∀ j < i, (cp.key j).map PoolString.chars ≠ some key

/-- The value of the first entry with the key. -/
def HasValue (key : Chars) (cp : CommandParameters) (text : Chars) : Prop :=
  ∃ i, FirstEntry key cp i ∧ (cp.value i).map PoolString.chars = some text

variable {key text stop : Chars} {cp : CommandParameters} {negative : Bool} {magnitude longBits : Nat}

/-! ## The value found -/

theorem firstEntry_iff {i : Nat} :
    ((List.range cp.entries).find? fun i => decide ((cp.key i).map (·.chars) = some key)) = some i ↔
      FirstEntry key cp i := by
  simp only [List.find?_range_eq_some, decide_eq_true_eq, List.mem_range, Bool.not_eq_true', decide_eq_false_iff_not]
  exact ⟨fun ⟨named, listed, first⟩ => ⟨listed, named, first⟩, fun ⟨listed, named, first⟩ => ⟨named, listed, first⟩⟩

theorem FirstEntry.unique {i j : Nat} (first : FirstEntry key cp i) (first' : FirstEntry key cp j) : i = j :=
  Option.some.inj ((firstEntry_iff.mpr first).symm.trans (firstEntry_iff.mpr first'))

/-- `CPGetString` finds the value of the first entry, or nothing. -/
theorem cpGetString_cases (key : Chars) (cp : CommandParameters) :
    (∃ text, HasValue key cp text ∧ cpGetString key cp = (true, some text)) ∨
      (¬ ∃ text, HasValue key cp text) ∧ cpGetString key cp = (false, none) := by
  unfold cpGetString
  cases found : (List.range cp.entries).find? fun i => decide ((cp.key i).map (·.chars) = some key) with
  | none =>
    refine .inr ⟨?_, rfl⟩
    rintro ⟨text, i, first, -⟩
    cases found.symm.trans (firstEntry_iff.mpr first)
  | some i =>
    have first := firstEntry_iff.mp found
    dsimp only
    cases value : (cp.value i).map PoolString.chars with
    | some text => exact .inl ⟨text, ⟨i, first, value⟩, rfl⟩
    | none =>
      refine .inr ⟨?_, rfl⟩
      rintro ⟨text, j, first', value'⟩
      rw [← first.unique first', value] at value'
      cases value'

theorem HasValue.got (has : HasValue key cp text) : cpGetString key cp = (true, some text) := by
  obtain ⟨i, first, value⟩ := has
  unfold cpGetString
  rw [firstEntry_iff.mpr first]
  dsimp only
  rw [value]
  rfl

theorem hasValue_of_got (got : cpGetString key cp = (true, some text)) : HasValue key cp text := by
  rcases cpGetString_cases key cp with ⟨text', has, got'⟩ | ⟨-, got'⟩
  · cases got.symm.trans got'
    exact has
  · cases got.symm.trans got'

theorem HasValue.unique {text' : Chars} (has : HasValue key cp text) (has' : HasValue key cp text') : text = text' := by
  cases has.got.symm.trans has'.got
  rfl

/-! ## The conversions -/

/-- What `strtoul` makes of a literal. -/
def unsignedOf (longBits : Nat) (negative : Bool) (magnitude : Nat) : Nat :=
  if 2 ^ longBits ≤ magnitude then 2 ^ longBits - 1
  else if negative then (2 ^ longBits - magnitude) % 2 ^ longBits else magnitude

/-- What `strtol` makes of a literal. -/
def signedOf (longBits : Nat) (negative : Bool) (magnitude : Nat) : Int :=
  if negative then if 2 ^ (longBits - 1) < magnitude then -2 ^ (longBits - 1) else -magnitude
  else if 2 ^ (longBits - 1) ≤ magnitude then 2 ^ (longBits - 1) - 1 else magnitude

theorem strtoul_literal (literal : IsLiteral text negative magnitude) :
    strtoul longBits text = (unsignedOf longBits negative magnitude, []) := by
  unfold strtoul unsignedOf
  rw [readInteger_whole.mpr literal]
  dsimp only
  split
  · rfl
  · split <;> rfl

theorem strtol_literal (literal : IsLiteral text negative magnitude) :
    strtol longBits text = (signedOf longBits negative magnitude, []) := by
  unfold strtol signedOf
  rw [readInteger_whole.mpr literal]
  dsimp only
  split
  · split <;> rfl
  · split <;> rfl

/-- Of another text `strtoul` converts nothing, or not all of it. -/
theorem strtoul_other (longBits : Nat) (other : ¬ ∃ negative magnitude, IsLiteral text negative magnitude) :
    strtoul longBits text = (0, text) ∨
      (strtoul longBits text).2 ≠ [] ∧ (strtoul longBits text).2.length ≠ text.length := by
  obtain ⟨-, stops⟩ := (readInteger_cases text).resolve_left other
  unfold strtoul
  cases read : readInteger text with
  | none => exact .inl rfl
  | some result =>
    obtain ⟨negative, magnitude, stop⟩ := result
    have stops := stops negative magnitude stop read
    dsimp only
    split
    · exact .inr stops
    · split <;> exact .inr stops

/-! ## The accessors -/

theorem IsLiteral.length (literal : IsLiteral text negative magnitude) : ([] : Chars).length ≠ text.length :=
  (readInteger_shorter (readInteger_whole.mpr literal)).ne

theorem cpGetUInt32_literal (longBits : Nat) (has : HasValue key cp text) (literal : IsLiteral text negative magnitude) :
    cpGetUInt32 longBits key cp = (true, .ofNat (unsignedOf longBits negative magnitude)) := by
  unfold cpGetUInt32
  rw [has.got]
  dsimp only
  rw [strtoul_literal literal]
  exact (if_neg literal.length).trans (if_neg (not_not.mpr rfl))

theorem cpGetInt32_literal (longBits : Nat) (has : HasValue key cp text) (literal : IsLiteral text negative magnitude) :
    cpGetInt32 longBits key cp = (true, .ofInt (signedOf longBits negative magnitude)) := by
  unfold cpGetInt32
  rw [has.got]
  dsimp only
  rw [strtol_literal literal]
  exact (if_neg literal.length).trans (if_neg (not_not.mpr rfl))

/-- Without a value that is a literal, false is returned and 0 is stored. -/
theorem cpGetUInt32_other (longBits : Nat)
    (other : ∀ text, HasValue key cp text → ¬ ∃ negative magnitude, IsLiteral text negative magnitude) :
    cpGetUInt32 longBits key cp = (false, 0) := by
  unfold cpGetUInt32
  rcases cpGetString_cases key cp with ⟨text, has, got⟩ | ⟨-, got⟩
  · rw [got]
    dsimp only
    rcases strtoul_other longBits (other text has) with converted | ⟨some_, shorter⟩
    · rw [converted]
      exact if_pos rfl
    · exact (if_neg shorter).trans (if_pos some_)
  · rw [got]

/-! ## `CPGetUInt32` on the target -/

/-- True and the number where the first entry's value is a literal of 32 bits,
and otherwise false and 0. -/
structure ReadsUInt32 (key : Chars) (cp : CommandParameters) : Prop where
  literal : ∀ text negative magnitude, HasValue key cp text → IsLiteral text negative magnitude → magnitude < 2 ^ 32 →
    (cpGetUInt32 Build.target.longBits key cp).1 = true ∧
      ((cpGetUInt32 Build.target.longBits key cp).2.toNat : Int) = literalValue negative magnitude % 2 ^ 32
  other : (¬ ∃ text negative magnitude, HasValue key cp text ∧ IsLiteral text negative magnitude ∧ magnitude < 2 ^ 32) →
    cpGetUInt32 Build.target.longBits key cp = (false, 0)

/-- The value is a literal of more than 32 bits. -/
def Overlong (key : Chars) (cp : CommandParameters) : Prop :=
  ∃ text negative magnitude, HasValue key cp text ∧ IsLiteral text negative magnitude ∧ 2 ^ 32 ≤ magnitude

theorem unsignedOf_mod (fits : magnitude < 2 ^ 32) :
    ((unsignedOf 32 negative magnitude % 2 ^ 32 : Nat) : Int) = literalValue negative magnitude % 2 ^ 32 := by
  unfold unsignedOf literalValue
  rw [if_neg (Nat.not_le.mpr fits)]
  cases negative with
  | true =>
    rw [if_pos rfl, if_pos rfl]
    omega
  | false =>
    rw [if_neg Bool.false_ne_true, if_neg Bool.false_ne_true]
    omega

/-- `CPGetUInt32` reads what the value denotes exactly when the value is not a
literal that is too long. -/
theorem cpGetUInt32_reads (key : Chars) (cp : CommandParameters) : ReadsUInt32 key cp ↔ ¬ Overlong key cp := by
  constructor
  · rintro ⟨-, other⟩ ⟨text, negative, magnitude, has, literal, long⟩
    have refused : cpGetUInt32 Build.target.longBits key cp = (false, 0) := by
      refine other ?_
      rintro ⟨text', negative', magnitude', has', literal', fits⟩
      cases has.unique has'
      obtain ⟨-, same⟩ := literal.unique literal'
      omega
    rw [cpGetUInt32_literal _ has literal] at refused
    cases congrArg Prod.fst refused
  · intro short
    constructor
    · intro text negative magnitude has literal fits
      rw [cpGetUInt32_literal _ has literal]
      refine ⟨rfl, ?_⟩
      rw [UInt32.toNat_ofNat']
      exact unsignedOf_mod fits
    · intro none
      refine cpGetUInt32_other _ fun text has literal => ?_
      obtain ⟨negative, magnitude, literal⟩ := literal
      rcases Nat.lt_or_ge magnitude (2 ^ 32) with fits | long
      · exact none ⟨text, negative, magnitude, has, literal, fits⟩
      · exact short ⟨text, negative, magnitude, has, literal, long⟩

/-- What a string is parsed to that gives the key `v` this value. -/
theorem parsed_hasValue {params text : Chars}
    (read : ((cpParseCommandParameters .target bump (some params) (some {}) []).map fun r =>
      r.result.map (cpGetString [118])) = .ok (some (true, some text))) :
    ∃ r cp, cpParseCommandParameters .target bump (some params) (some {}) [] = .ok r ∧ r.result = some cp ∧
      HasValue [118] cp text := by
  cases returned : cpParseCommandParameters .target bump (some params) (some {}) [] with
  | error calls => rw [returned] at read; cases read
  | ok r =>
    rw [returned] at read
    obtain ⟨cp, result, got⟩ := Option.map_eq_some_iff.mp (Except.ok.inj read)
    exact ⟨r, cp, rfl, result, hasValue_of_got got⟩

/-- `4294967296` -/
def tooLong : Chars := [52, 50, 57, 52, 57, 54, 55, 50, 57, 54]

/-- The number is 2^32, and what is read is 2^32 - 1. -/
theorem tooLong_saturates : ∃ r cp, cpParseCommandParameters .target bump (some (118 :: 61 :: tooLong)) (some {}) [] =
    .ok r ∧ r.result = some cp ∧ cpGetUInt32 Build.target.longBits [118] cp = (true, 0xFFFFFFFF) ∧
    ¬ ReadsUInt32 [118] cp := by
  obtain ⟨r, cp, returned, result, has⟩ := @parsed_hasValue (118 :: 61 :: tooLong) tooLong (by decide +kernel)
  have literal : IsLiteral tooLong false (2 ^ 32) := readInteger_whole.mp (by decide +kernel)
  have saturated := cpGetUInt32_literal Build.target.longBits has literal
  refine ⟨r, cp, returned, result, saturated, fun reads => ?_⟩
  have none := reads.other ?_
  · cases saturated.symm.trans none
  · rintro ⟨text, negative, magnitude, has', literal', fits⟩
    cases has.unique has'
    obtain ⟨-, same⟩ := literal'.unique literal
    omega

/-! ## Signed and unsigned -/

/-- Both accessors return true with the same 32 bits. -/
def AgreeBitForBit (key : Chars) (cp : CommandParameters) (b : Build) : Prop :=
  ∃ bits : UInt32, cpGetUInt32 b.longBits key cp = (true, bits) ∧ cpGetInt32 b.longBits key cp = (true, bits.toInt32)

/-- The width of a `long` makes no difference. -/
def WidthIndependent (key : Chars) (cp : CommandParameters) : Prop :=
  ∀ b b' : Build, cpGetUInt32 b.longBits key cp = cpGetUInt32 b'.longBits key cp ∧
    cpGetInt32 b.longBits key cp = cpGetInt32 b'.longBits key cp

theorem ofInt_eq_iff (z : Int) (n : Nat) : Int32.ofInt z = (UInt32.ofNat n).toInt32 ↔ z % 2 ^ 32 = (n : Int) % 2 ^ 32 := by
  rw [← Int32.toBitVec_inj, Int32.toBitVec_ofInt, UInt32.toBitVec_toInt32, UInt32.toBitVec_ofNat', ← BitVec.toNat_inj,
    BitVec.toNat_ofInt, BitVec.toNat_ofNat]
  omega

theorem int32_ofInt_inj (z z' : Int) : Int32.ofInt z = Int32.ofInt z' ↔ z % 2 ^ 32 = z' % 2 ^ 32 := by
  rw [← Int32.toBitVec_inj, Int32.toBitVec_ofInt, Int32.toBitVec_ofInt, ← BitVec.toNat_inj, BitVec.toNat_ofInt,
    BitVec.toNat_ofInt]
  omega

theorem uint32_ofNat_inj (n n' : Nat) : UInt32.ofNat n = UInt32.ofNat n' ↔ (n : Int) % 2 ^ 32 = (n' : Int) % 2 ^ 32 := by
  rw [← UInt32.toNat_inj, UInt32.toNat_ofNat', UInt32.toNat_ofNat']
  omega

/-- The two conversions come to the same 32 bits. -/
def SameBits (longBits : Nat) (negative : Bool) (magnitude : Nat) : Prop :=
  signedOf longBits negative magnitude % 2 ^ 32 = (unsignedOf longBits negative magnitude : Int) % 2 ^ 32

theorem agree_iff_sameBits (has : HasValue key cp text) (literal : IsLiteral text negative magnitude) (b : Build) :
    AgreeBitForBit key cp b ↔ SameBits b.longBits negative magnitude := by
  unfold AgreeBitForBit SameBits
  rw [cpGetUInt32_literal _ has literal, cpGetInt32_literal _ has literal, ← ofInt_eq_iff]
  constructor
  · rintro ⟨bits, unsigned, signed⟩
    cases unsigned
    exact (Prod.mk.inj signed).2
  · intro same
    exact ⟨_, rfl, by rw [same]⟩

section

variable (low : -2 ^ 31 ≤ literalValue negative magnitude) (high : literalValue negative magnitude < 2 ^ 32)

include low high

/-- With 64 bits neither conversion saturates, and they keep the value. -/
theorem host_bits : signedOf 64 negative magnitude = literalValue negative magnitude ∧
    (unsignedOf 64 negative magnitude : Int) % 2 ^ 32 = literalValue negative magnitude % 2 ^ 32 := by
  unfold literalValue at low high
  unfold signedOf unsignedOf literalValue
  cases negative with
  | true =>
    rw [if_pos rfl] at low high
    simp only [if_true]
    constructor
    · rw [if_neg (by omega)]
    · rw [if_neg (by omega)]
      omega
  | false =>
    rw [if_neg Bool.false_ne_true] at low high
    simp only [Bool.false_eq_true, if_false]
    constructor
    · rw [if_neg (by omega)]
    · rw [if_neg (by omega)]

/-- With 32 bits the unsigned one keeps the value modulo 2^32. -/
theorem target_unsigned :
    (unsignedOf 32 negative magnitude : Int) % 2 ^ 32 = literalValue negative magnitude % 2 ^ 32 := by
  have fits : magnitude < 2 ^ 32 := by
    unfold literalValue at low high
    cases negative with
    | true =>
      rw [if_pos rfl] at low
      omega
    | false =>
      rw [if_neg Bool.false_ne_true] at high
      omega
  rw [← unsignedOf_mod fits, Int.natCast_emod]
  rfl

/-- With 32 bits the signed one keeps the value below 2^31. -/
theorem target_signed : signedOf 32 negative magnitude % 2 ^ 32 = literalValue negative magnitude % 2 ^ 32 ↔
    literalValue negative magnitude < 2 ^ 31 := by
  unfold literalValue at low high
  unfold signedOf literalValue
  cases negative with
  | true =>
    rw [if_pos rfl] at low high
    simp only [if_true]
    rw [if_neg (by omega)]
    omega
  | false =>
    rw [if_neg Bool.false_ne_true] at low high
    simp only [Bool.false_eq_true, if_false]
    split <;> omega

end

/-- The accessors agree bit for bit on a number of 32 bits, signed or unsigned,
exactly with a `long` of 64 bits or below 2^31, and the width of a `long` makes
no difference exactly below 2^31. -/
theorem accessors_agree (key : Chars) (cp : CommandParameters) (text : Chars) (negative : Bool) (magnitude : Nat)
    (has : HasValue key cp text) (literal : IsLiteral text negative magnitude)
    (low : -2 ^ 31 ≤ literalValue negative magnitude) (high : literalValue negative magnitude < 2 ^ 32) :
    (∀ b, AgreeBitForBit key cp b ↔ b = .host ∨ literalValue negative magnitude < 2 ^ 31) ∧
      (WidthIndependent key cp ↔ literalValue negative magnitude < 2 ^ 31) := by
  obtain ⟨hostSigned, hostUnsigned⟩ := host_bits low high
  have targetUnsigned := target_unsigned low high
  have targetSigned := target_signed low high
  constructor
  · intro b
    rw [agree_iff_sameBits has literal, SameBits]
    cases b with
    | host =>
      rw [Build.longBits, hostSigned, hostUnsigned]
      simp
    | target =>
      rw [Build.longBits, targetUnsigned, targetSigned]
      simp
  · unfold WidthIndependent
    simp only [cpGetUInt32_literal _ has literal, cpGetInt32_literal _ has literal, Prod.mk.injEq, true_and, int32_ofInt_inj,
      uint32_ofNat_inj]
    constructor
    · intro same
      have signed := (same .target .host).2
      rw [Build.longBits, Build.longBits, hostSigned] at signed
      exact targetSigned.mp signed
    · intro below
      have unsigned (b : Build) : (unsignedOf b.longBits negative magnitude : Int) % 2 ^ 32 =
          literalValue negative magnitude % 2 ^ 32 := by
        cases b with
        | target => exact targetUnsigned
        | host => exact hostUnsigned
      have signed (b : Build) : signedOf b.longBits negative magnitude % 2 ^ 32 =
          literalValue negative magnitude % 2 ^ 32 := by
        cases b with
        | target => exact targetSigned.mpr below
        | host => exact congrArg (· % 2 ^ 32) hostSigned
      exact fun b b' => ⟨(unsigned b).trans (unsigned b').symm, (signed b).trans (signed b').symm⟩

/-- `0xFFFFFFFF` -/
def allOnes : Chars := [48, 120, 70, 70, 70, 70, 70, 70, 70, 70]

/-- On the target the signed accessor saturates. -/
theorem allOnes_disagree : ∃ r cp, cpParseCommandParameters .target bump (some (118 :: 61 :: allOnes)) (some {}) [] =
    .ok r ∧ r.result = some cp ∧ cpGetUInt32 Build.target.longBits [118] cp = (true, 0xFFFFFFFF) ∧
    cpGetInt32 Build.target.longBits [118] cp = (true, 0x7FFFFFFF) ∧ HasValue [118] cp allOnes ∧
    IsLiteral allOnes false (2 ^ 32 - 1) ∧ ¬ AgreeBitForBit [118] cp .target := by
  obtain ⟨r, cp, returned, result, has⟩ := @parsed_hasValue (118 :: 61 :: allOnes) allOnes (by decide +kernel)
  have literal : IsLiteral allOnes false (2 ^ 32 - 1) := readInteger_whole.mp (by decide +kernel)
  have unsigned := cpGetUInt32_literal Build.target.longBits has literal
  have signed := cpGetInt32_literal Build.target.longBits has literal
  refine ⟨r, cp, returned, result, unsigned, signed, has, literal, ?_⟩
  rintro ⟨bits, unsigned', signed'⟩
  cases unsigned.symm.trans unsigned'
  exact absurd (Prod.mk.inj (signed.symm.trans signed')).2 (by decide +kernel)

/-- `-1` -/
def minusOne : Chars := [45, 49]

theorem minusOne_agrees : ∃ r cp, cpParseCommandParameters .target bump (some (118 :: 61 :: minusOne)) (some {}) [] =
    .ok r ∧ r.result = some cp ∧ (∀ b, AgreeBitForBit [118] cp b) ∧ WidthIndependent [118] cp := by
  obtain ⟨r, cp, returned, result, has⟩ := @parsed_hasValue (118 :: 61 :: minusOne) minusOne (by decide +kernel)
  have literal : IsLiteral minusOne true 1 := readInteger_whole.mp (by decide +kernel)
  obtain ⟨agree, independent⟩ := accessors_agree [118] cp minusOne true 1 has literal (by decide) (by decide)
  exact ⟨r, cp, returned, result, fun b => (agree b).mpr (.inr (by decide)), independent.mpr (by decide)⟩

end Dyndxt.Params
