import Dyndxt.Run.Recurrence
import Dyndxt.Params.Literals
import Dyndxt.Mem.Place
import Dyndxt.Bootstrap.Texts

/-!
# `parse_integer`

The loop reads hexadecimal digits as far as they go and stops at the byte
behind them, unless that byte is above `f`: the comparison with `f` then jumps
back to the one before it, and the loop never leaves.
-/

namespace Dyndxt.Bootstrap
open Dyndxt.Mem Dyndxt.Run
open Dyndxt.Params (digitOf digitValue numeral AllDigits)

/-- The digits that a text starts with. -/
def hexRun (text : List UInt8) : List UInt8 := text.takeWhile fun c => (digitOf 16 c).isSome

/-- What comes after them. -/
def afterRun (text : List UInt8) : List UInt8 := text.dropWhile fun c => (digitOf 16 c).isSome

/-- `0x` -/
def hexPrefix : List UInt8 := [0x30, 0x78]

/-- `parse_integer` ends: behind `0x` with the value of the digits and `esi`
after them, and otherwise with `esi` where it was. -/
structure ReadsHex (m : Bytes) (eax esi : UInt32) (text : List UInt8) : Prop where
  marked : ∀ rest, text = hexPrefix ++ rest → ∃ budget, parseInteger budget m eax esi =
    some (.ofNat (numeral 16 (hexRun rest)), esi + 2 + .ofNat (hexRun rest).length)
  unmarked : (¬ ∃ rest, text = hexPrefix ++ rest) → ∃ budget value, parseInteger budget m eax esi = some (value, esi)

/-- The digits behind `0x` are followed by a byte that the loop stops at. -/
def Stops (text : List UInt8) : Prop := ∀ rest, text = hexPrefix ++ rest → ∀ c ∈ (afterRun rest).head?, c ≤ 0x66

variable {m : Bytes} {eax esi : UInt32} {c : UInt8} {d value : Nat} {text rest digits : List UInt8}

/-! ## A round -/

/-- The ranges that the hexadecimal digits lie in. -/
theorem digitOf_hex (c : UInt8) : digitOf 16 c =
    if 0x30 ≤ c ∧ c ≤ 0x39 then some (c - 0x30).toNat
    else if 0x41 ≤ c ∧ c ≤ 0x46 then some (c - 0x41 + 10).toNat
    else if 0x61 ≤ c ∧ c ≤ 0x66 then some (c - 0x61 + 10).toNat else none := by
  have all : ∀ n < 256, digitOf 16 (.ofNat n) =
      if 0x30 ≤ UInt8.ofNat n ∧ UInt8.ofNat n ≤ 0x39 then some (UInt8.ofNat n - 0x30).toNat
      else if 0x41 ≤ UInt8.ofNat n ∧ UInt8.ofNat n ≤ 0x46 then some (UInt8.ofNat n - 0x41 + 10).toNat
      else if 0x61 ≤ UInt8.ofNat n ∧ UInt8.ofNat n ≤ 0x66 then some (UInt8.ofNat n - 0x61 + 10).toNat
      else none := by decide +kernel
  have here := all c.toNat c.toNat_lt
  rwa [UInt8.ofNat_toNat] at here

/-- The comparisons, on the byte at `esi`. -/
theorem parseIntegerTurn_eq (here : load8 m esi = c) : parseIntegerTurn m (eax, esi) =
    if c = 0 ∨ c < 0x30 then .leave (eax, esi)
    else if c ≤ 0x39 then .again ((eax <<< 4) + (c - 0x30).toUInt32, esi + 1)
    else if c < 0x41 then .leave (eax, esi)
    else if c ≤ 0x46 then .again ((eax <<< 4) + (c - 0x41 + 10).toUInt32, esi + 1)
    else if c < 0x61 then .leave (eax, esi)
    else if c > 0x66 then .again (eax, esi)
    else .again ((eax <<< 4) + (c - 0x61 + 10).toUInt32, esi + 1) := by
  subst here
  unfold parseIntegerTurn
  grind

theorem parseIntegerTurn_digit (here : load8 m esi = c) (digit : digitOf 16 c = some d) :
    parseIntegerTurn m (eax, esi) = .again ((eax <<< 4) + .ofNat d, esi + 1) := by
  have word (v : UInt8) : UInt32.ofNat v.toNat = v.toUInt32 := by simp
  rw [parseIntegerTurn_eq here]
  rw [digitOf_hex] at digit
  grind

theorem parseIntegerTurn_stop (here : load8 m esi = c) (other : digitOf 16 c = none) (low : c ≤ 0x66) :
    parseIntegerTurn m (eax, esi) = .leave (eax, esi) := by
  rw [parseIntegerTurn_eq here]
  rw [digitOf_hex] at other
  grind

theorem parseIntegerTurn_stuck (here : load8 m esi = c) (high : 0x66 < c) :
    parseIntegerTurn m (eax, esi) = .again (eax, esi) := by
  rw [parseIntegerTurn_eq here]
  grind

/-! ## The loop -/

theorem accumulate_ofNat (value d : Nat) : (UInt32.ofNat value <<< 4) + .ofNat d = .ofNat (value * 16 + d) := by
  have four : (4 : UInt32).toNat % 32 = 4 := rfl
  apply UInt32.toNat_inj.mp
  rw [UInt32.toNat_add, UInt32.toNat_shiftLeft, UInt32.toNat_ofNat', UInt32.toNat_ofNat', UInt32.toNat_ofNat',
    Nat.shiftLeft_eq, four]
  omega

/-- The loop goes over digits, each shifted in below those before it. -/
theorem steps_digits (all : AllDigits 16 digits) (at_ : BytesAt m esi digits) :
    Steps (parseIntegerTurn m) (.ofNat value, esi)
      (.ofNat (digits.foldl (fun value c => value * 16 + (digitOf 16 c).getD 0) value), esi + .ofNat digits.length) := by
  induction digits generalizing value esi with
  | nil =>
    rw [List.length_nil, advance_zero]
    exact .refl _
  | cons c digits ih =>
    obtain ⟨here, later⟩ := at_
    obtain ⟨d, digit⟩ := Option.isSome_iff_exists.mp (all c List.mem_cons_self)
    have first := @parseIntegerTurn_digit m (.ofNat value) esi c d here digit
    have rest := @ih (esi + 1) (value * 16 + d) (fun c listed => all c (List.mem_cons_of_mem _ listed)) later
    rw [accumulate_ofNat] at first
    rw [advance] at rest
    rw [List.foldl_cons, digit, Option.getD_some, List.length_cons]
    exact .step first rest

theorem hexRun_all (text : List UInt8) : AllDigits 16 (hexRun text) :=
  fun c => @List.mem_takeWhile_imp _ (fun c => (digitOf 16 c).isSome) text c

theorem hexRun_append (text : List UInt8) : hexRun text ++ afterRun text = text := List.takeWhile_append_dropWhile

theorem afterRun_head (first : c ∈ (afterRun text).head?) : digitOf 16 c = none := by
  have stop := List.head?_dropWhile_not (fun c => (digitOf 16 c).isSome) text
  unfold afterRun at first
  rw [first] at stop
  simpa using stop

/-- Behind the digits of a text the loop is at the byte that follows them. -/
theorem steps_hexRun (at_ : TextAt m esi text) :
    Steps (parseIntegerTurn m) (0, esi) (.ofNat (numeral 16 (hexRun text)), esi + .ofNat (hexRun text).length) ∧
      TextAt m (esi + .ofNat (hexRun text).length) (afterRun text) := by
  rw [← hexRun_append text, textAt_append] at at_
  exact ⟨@steps_digits m esi 0 (hexRun text) (hexRun_all text) at_.1, at_.2.2⟩

theorem parseInteger_marked (budget : Nat) (at_ : TextAt m esi (hexPrefix ++ rest)) :
    parseInteger budget m eax esi = left (run (parseIntegerTurn m) budget (0, esi + 2)) :=
  if_pos ⟨at_.1, at_.2.2.1⟩

/-- Digits that end at a byte up to `f` are read. -/
theorem parseInteger_reads (eax : UInt32) (at_ : TextAt m esi (hexPrefix ++ rest))
    (stops : ∀ c ∈ (afterRun rest).head?, c ≤ 0x66) :
    ∃ enough, ∀ budget, enough ≤ budget → parseInteger budget m eax esi =
      some (.ofNat (numeral 16 (hexRun rest)), esi + 2 + .ofNat (hexRun rest).length) := by
  have behind : TextAt m (esi + 2) rest := (textAt_append.mp at_).2.2
  obtain ⟨steps, next⟩ := steps_hexRun behind
  have leaves : parseIntegerTurn m (.ofNat (numeral 16 (hexRun rest)), esi + 2 + .ofNat (hexRun rest).length) =
      .leave (.ofNat (numeral 16 (hexRun rest)), esi + 2 + .ofNat (hexRun rest).length) := by
    cases after : afterRun rest with
    | nil =>
      rw [after] at next
      exact parseIntegerTurn_stop next rfl (by decide)
    | cons c tail =>
      rw [after] at next
      have first : c ∈ (afterRun rest).head? := by rw [after]; rfl
      exact parseIntegerTurn_stop next.1 (afterRun_head first) (stops c first)
  obtain ⟨enough, budgets⟩ := (steps.returns (returns_leave leaves)).eventually
  refine ⟨enough, fun budget le => ?_⟩
  rw [parseInteger_marked budget at_]
  exact congrArg left (budgets budget le)

/-- Digits that are followed by a byte above `f` are read for ever. -/
theorem parseInteger_stuck (at_ : TextAt m esi (hexPrefix ++ rest)) (first : c ∈ (afterRun rest).head?) (high : 0x66 < c)
    (budget : Nat) : parseInteger budget m eax esi = none := by
  have behind : TextAt m (esi + 2) rest := (textAt_append.mp at_).2.2
  obtain ⟨steps, next⟩ := steps_hexRun behind
  obtain ⟨tail, after⟩ := List.head?_eq_some_iff.mp first
  rw [after] at next
  have never := never_returns_of_stays steps (parseIntegerTurn_stuck next.1 high)
  rw [parseInteger_marked budget at_]
  cases ran : run (parseIntegerTurn m) budget (0, esi + 2) with
  | again s => rfl
  | leave r => exact absurd ⟨r, run_returns _ _ ran⟩ never

/-- A larger budget changes no result. -/
theorem left_run_mono {σ ρ : Type} {turn : σ → Turn σ ρ} {s : σ} {r : ρ} {budget budget' : Nat} (le : budget ≤ budget')
    (read : left (run turn budget s) = some r) : left (run turn budget' s) = some r := by
  cases ran : run turn budget s with
  | again s => rw [ran] at read; exact nomatch read
  | leave r' =>
    rw [run_eq_of_le ran le]
    rwa [ran] at read

theorem parseInteger_mono {budget budget' : Nat} {r : UInt32 × UInt32} (le : budget ≤ budget')
    (read : parseInteger budget m eax esi = some r) : parseInteger budget' m eax esi = some r := by
  unfold parseInteger at read ⊢
  split at read
  · next marked =>
    rw [if_pos marked]
    exact left_run_mono le read
  · next unmarked =>
    rw [if_neg unmarked]
    exact read

/-- Where `parse_integer` ends behind `0x`, it has read the digits. -/
theorem parseInteger_value {budget : Nat} {v stop : UInt32} (at_ : TextAt m esi (hexPrefix ++ rest))
    (read : parseInteger budget m eax esi = some (v, stop)) :
    v = .ofNat (numeral 16 (hexRun rest)) ∧ stop = esi + 2 + .ofNat (hexRun rest).length ∧
      ∀ c ∈ (afterRun rest).head?, c ≤ 0x66 := by
  have stops : ∀ c ∈ (afterRun rest).head?, c ≤ 0x66 := by
    intro c first
    by_contra high
    rw [parseInteger_stuck at_ first (UInt8.not_le.mp high)] at read
    cases read
  obtain ⟨enough, budgets⟩ := parseInteger_reads eax at_ stops
  have more := budgets (enough + budget) (Nat.le_add_right _ _)
  cases more.symm.trans (parseInteger_mono (Nat.le_add_left budget enough) read)
  exact ⟨rfl, rfl, stops⟩

theorem parseInteger_unmarked (at_ : TextAt m esi text) (unmarked : ¬ ∃ rest, text = hexPrefix ++ rest) (budget : Nat) :
    parseInteger budget m eax esi = some (eax, esi) := by
  refine if_neg ?_
  rintro ⟨zero, x⟩
  match text, at_ with
  | [], at_ => exact absurd (at_.symm.trans zero) (by decide)
  | [c], at_ => exact absurd (at_.2.2.symm.trans x) (by decide)
  | c :: c' :: rest, at_ =>
    refine unmarked ⟨rest, ?_⟩
    rw [← at_.1, ← at_.2.2.1, zero, x]
    rfl

/-- `parse_integer` ends with the right value exactly when no byte above `f`
follows the digits behind `0x`. -/
theorem parseInteger_reads_iff (m : Bytes) (eax esi : UInt32) (text : List UInt8) (at_ : TextAt m esi text) :
    ReadsHex m eax esi text ↔ Stops text := by
  constructor
  · rintro ⟨marked, -⟩ rest rfl c first
    obtain ⟨budget, read⟩ := marked rest rfl
    by_contra high
    rw [parseInteger_stuck at_ first (UInt8.not_le.mp high) budget] at read
    cases read
  · intro stops
    constructor
    · rintro rest rfl
      obtain ⟨enough, budgets⟩ := parseInteger_reads eax at_ (stops rest rfl)
      exact ⟨enough, budgets enough (Nat.le_refl _)⟩
    · exact fun unmarked => ⟨0, eax, parseInteger_unmarked at_ unmarked 0⟩

/-- A text at `0x1000`. -/
def textMemory (text : List UInt8) : Bytes := place Build.target.space (fun _ => 0) 0x1000 text

/-- `0x1F` -/
theorem upperDigit_read : ReadsHex (textMemory [0x30, 0x78, 0x31, 0x46]) 0 0x1000 [0x30, 0x78, 0x31, 0x46] ∧
    parseInteger 8 (textMemory [0x30, 0x78, 0x31, 0x46]) 0 0x1000 = some (0x1F, 0x1004) := by
  refine ⟨(parseInteger_reads_iff _ 0 0x1000 [0x30, 0x78, 0x31, 0x46] (by decide +kernel)).mpr ?_, by decide +kernel⟩
  rintro rest same c first
  have same : hexPrefix ++ [0x31, 0x46] = hexPrefix ++ rest := same
  rw [← List.append_cancel_left same] at first
  exact nomatch first

/-- `0x1g` -/
theorem strayDigit_hangs : TextAt (textMemory [0x30, 0x78, 0x31, 0x67]) 0x1000 [0x30, 0x78, 0x31, 0x67] ∧
    (∀ budget, parseInteger budget (textMemory [0x30, 0x78, 0x31, 0x67]) 0 0x1000 = none) ∧
    ¬ ReadsHex (textMemory [0x30, 0x78, 0x31, 0x67]) 0 0x1000 [0x30, 0x78, 0x31, 0x67] := by
  have at_ : TextAt (textMemory [0x30, 0x78, 0x31, 0x67]) 0x1000 (hexPrefix ++ [0x31, 0x67]) := by decide +kernel
  have hangs := @parseInteger_stuck _ 0 0x1000 0x67 [0x31, 0x67] at_ (by decide +kernel) (by decide)
  refine ⟨at_, hangs, fun reads => ?_⟩
  obtain ⟨budget, read⟩ := reads.marked [0x31, 0x67] rfl
  rw [hangs budget] at read
  cases read

end Dyndxt.Bootstrap
