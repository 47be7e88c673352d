import Dyndxt.Loader.DllContext
import Dyndxt.Bootstrap.ParseInteger
import Dyndxt.Bootstrap.ProcessCommand

/-!
# The arguments of a resolve request

What a request is meant to be, and how the argument loop reads any text: by the
specifier, by the number behind it and by the bits that the two pointers of
`parse_arg` have in common.
-/

namespace Dyndxt.Bootstrap
open Dyndxt.Mem Dyndxt.Run Dyndxt.Loader
open Dyndxt.Params (digitOf numeral AllDigits)

/-- `BASE_ARG` -/
def baseArg : List UInt8 := ascii "b="

/-- `ORDINAL_ARG` -/
def ordinalArg : List UInt8 := ascii "o="

/-- A base and an ordinal to resolve against it. -/
abbrev Entry := UInt32 × UInt32

/-! ## Requests -/

/-- `b=0x<hex>` or `o=0x<hex>` -/
inductive Argument where
  | base (digits : List UInt8)
  | ordinal (digits : List UInt8)
deriving DecidableEq, Repr

def Argument.specifier : Argument → List UInt8
  | .base _ => baseArg
  | .ordinal _ => ordinalArg

def Argument.digits : Argument → List UInt8
  | .base digits => digits
  | .ordinal digits => digits

/-- The base that is in `edx` behind it. -/
def Argument.baseAfter (edx : UInt32) : Argument → UInt32
  | .base digits => .ofNat (numeral 16 digits)
  | .ordinal _ => edx

def Argument.label (labels : Labels) : Argument → UInt32
  | .base _ => labels.gBaseArg
  | .ordinal _ => labels.gOrdinalArg

def Argument.text (arg : Argument) : List UInt8 := arg.specifier ++ (hexPrefix ++ arg.digits)

/-- The value, in 32 bits. -/
def Argument.value (arg : Argument) : UInt32 := .ofNat (numeral 16 arg.digits)

structure Argument.Valid (arg : Argument) : Prop where
  some_ : arg.digits ≠ []
  hex : AllDigits 16 arg.digits
  nonzero : arg.value ≠ 0

/-- The arguments with a space between them. -/
def requestText : List Argument → List UInt8
  | [] => []
  | [arg] => arg.text
  | arg :: next :: args => arg.text ++ 0x20 :: requestText (next :: args)

/-- The ordinals, each with the base that comes before it. -/
def entriesOf (base : UInt32) : List Argument → List Entry
  | [] => []
  | .base digits :: args => entriesOf (Argument.base digits).value args
  | .ordinal digits :: args => (base, (Argument.ordinal digits).value) :: entriesOf base args

/-- Valid arguments, a base first and no more ordinals than fit the buffer. -/
structure WellFormed (text : List UInt8) (args : List Argument) : Prop where
  text : text = requestText args
  first : ∃ digits rest, args = .base digits :: rest
  valid : ∀ arg ∈ args, arg.Valid
  few : (entriesOf 0 args).length ≤ 128

/-! ## Any text -/

/-- What `parse_arg` takes behind a specifier and leaves: without a number it
takes the address of the argument. -/
def takeNumber (esi : UInt32) (text : List UInt8) : UInt32 × List UInt8 :=
  if hexPrefix <+: text then (.ofNat (numeral 16 (hexRun (text.drop 2))), afterRun (text.drop 2)) else (esi, text)

/-- A byte above `f` follows the digits. -/
def Endless (text : List UInt8) : Prop := hexPrefix <+: text ∧ ∃ c ∈ (afterRun (text.drop 2)).head?, 0x66 < c

instance (text : List UInt8) : Decidable (Endless text) := inferInstanceAs (Decidable (_ ∧ _))

/-- The pointers behind a specifier and behind its match in an argument have a
bit in common. -/
def Tells (edi esi : UInt32) : Prop := (edi + 2) &&& (esi + 2) ≠ 0

instance (edi esi : UInt32) : Decidable (Tells edi esi) := inferInstanceAs (Decidable (¬ _))

/-- What becomes of an argument. -/
inductive Reading where
  /-- With the base that is then in `edx`, and the text behind. -/
  | taken (edx : UInt32) (entries : List Entry) (rest : List UInt8)
  | refused
  | endless
deriving DecidableEq, Repr

/-- How far a text is behind another that it ends. -/
def behind (esi : UInt32) (text rest : List UInt8) : UInt32 := esi + .ofNat (text.length - rest.length)

section

variable (labels : Labels)

def readOrdinal (edx esi : UInt32) (text : List UInt8) : Reading :=
  if edx = 0 ∨ ¬ ordinalArg <+: text then .refused
  else if Endless (text.drop 2) then .endless
  else
    let (value, rest) := takeNumber esi (text.drop 2)
    if ¬ Tells labels.gOrdinalArg esi ∨ value = 0 then .refused else .taken edx [(edx, value)] rest

def readArgument (edx esi : UInt32) (text : List UInt8) : Reading :=
  if baseArg <+: text then
    if Endless (text.drop 2) then .endless
    else
      let (value, rest) := takeNumber esi (text.drop 2)
      if Tells labels.gBaseArg esi then .taken value [] rest
      -- the base is dropped, and an ordinal may follow at once
      else readOrdinal labels edx (behind esi text rest) rest
  else readOrdinal labels edx esi text

/-- The arguments of a text at `esi`, with the base that is in `edx`: the entries
stored, and whether it is accepted; `none` is a loop that never ends. -/
inductive Walk : UInt32 → UInt32 → List UInt8 → List Entry → Option Bool → Prop where
  | refused {edx esi : UInt32} {text : List UInt8} : readArgument labels edx esi text = .refused →
      Walk edx esi text [] (some false)
  | endless {edx esi : UInt32} {text : List UInt8} : readArgument labels edx esi text = .endless →
      Walk edx esi text [] none
  | last {edx edx' esi : UInt32} {text : List UInt8} {entries : List Entry} :
      readArgument labels edx esi text = .taken edx' entries [] → Walk edx esi text entries (some true)
  | junk {edx edx' esi : UInt32} {text rest : List UInt8} {entries : List Entry} {c : UInt8} :
      readArgument labels edx esi text = .taken edx' entries (c :: rest) → c ≠ 0x20 →
      Walk edx esi text entries (some false)
  | next {edx edx' esi : UInt32} {text rest : List UInt8} {entries more : List Entry} {result : Option Bool} :
      readArgument labels edx esi text = .taken edx' entries (0x20 :: rest) →
      Walk edx' (behind esi text rest) rest more result → Walk edx esi text (entries ++ more) result

/-- At every argument the pointers tell that there is a number. -/
def AllTell (esi : UInt32) : List Argument → Prop
  | [] => True
  | arg :: args =>
    Tells (arg.label labels) esi ∧ AllTell (esi + .ofNat (arg.text.length + 1)) args

end

variable {labels : Labels} {edx edx' esi : UInt32} {text rest digits : List UInt8} {entries : List Entry}
  {arg : Argument} {args : List Argument} {result : Option Bool}

/-! ## Numbers -/

theorem takeNumber_marked (esi : UInt32) (rest : List UInt8) :
    takeNumber esi (hexPrefix ++ rest) = (.ofNat (numeral 16 (hexRun rest)), afterRun rest) :=
  if_pos (List.prefix_append _ _)

theorem takeNumber_unmarked (unmarked : ¬ hexPrefix <+: text) : takeNumber esi text = (esi, text) := if_neg unmarked

theorem takeNumber_suffix (esi : UInt32) (text : List UInt8) : (takeNumber esi text).2 <:+ text := by
  by_cases marked : hexPrefix <+: text
  · obtain ⟨rest, rfl⟩ := marked
    rw [takeNumber_marked]
    exact (List.dropWhile_suffix _).trans (List.suffix_append _ _)
  · rw [takeNumber_unmarked marked]

/-- A text is endless where `parse_integer` does not stop. -/
theorem endless_iff : Endless text ↔ ¬ Stops text := by
  constructor
  · rintro ⟨⟨rest, rfl⟩, c, first, above⟩ stops
    exact absurd (stops rest rfl c first) (UInt8.not_le.mpr above)
  · intro stuck
    unfold Stops at stuck
    push Not at stuck
    obtain ⟨rest, rfl, c, first, above⟩ := stuck
    exact ⟨List.prefix_append _ _, c, first, UInt8.not_le.mp above⟩

/-! ## Readings -/

theorem readArgument_base (more : List UInt8) : readArgument labels edx esi (baseArg ++ more) =
    if Endless more then .endless
    else if Tells labels.gBaseArg esi then .taken (takeNumber esi more).1 [] (takeNumber esi more).2
    else readOrdinal labels edx (behind esi (baseArg ++ more) (takeNumber esi more).2) (takeNumber esi more).2 :=
  if_pos (List.prefix_append _ _)

theorem readArgument_other (other : ¬ baseArg <+: text) :
    readArgument labels edx esi text = readOrdinal labels edx esi text := if_neg other

theorem readOrdinal_ordinal (based : edx ≠ 0) (more : List UInt8) : readOrdinal labels edx esi (ordinalArg ++ more) =
    if Endless more then .endless
    else if ¬ Tells labels.gOrdinalArg esi ∨ (takeNumber esi more).1 = 0 then .refused
    else .taken edx [(edx, (takeNumber esi more).1)] (takeNumber esi more).2 :=
  if_neg (not_or.mpr ⟨based, not_not.mpr (List.prefix_append _ _)⟩)

theorem readOrdinal_other (other : edx = 0 ∨ ¬ ordinalArg <+: text) : readOrdinal labels edx esi text = .refused :=
  if_pos other

/-! ## The walk -/

theorem readOrdinal_taken (taken : readOrdinal labels edx esi text = .taken edx' entries rest) :
    rest <:+ text ∧ entries.length ≤ 1 := by
  unfold readOrdinal at taken
  dsimp only at taken
  split at taken
  · exact nomatch taken
  · split at taken
    · exact nomatch taken
    · split at taken
      · exact nomatch taken
      · cases taken
        exact ⟨(takeNumber_suffix esi _).trans (List.drop_suffix 2 text), Nat.le_refl 1⟩

/-- An argument that is taken ends the text up to what is left, and stores at
most one entry. -/
theorem readArgument_taken (taken : readArgument labels edx esi text = .taken edx' entries rest) :
    rest <:+ text ∧ entries.length ≤ 1 := by
  have number := (takeNumber_suffix esi (text.drop 2)).trans (List.drop_suffix 2 text)
  unfold readArgument at taken
  dsimp only at taken
  split at taken
  · split at taken
    · exact nomatch taken
    · split at taken
      · cases taken
        exact ⟨number, Nat.zero_le 1⟩
      · obtain ⟨suffix, few⟩ := readOrdinal_taken taken
        exact ⟨suffix.trans number, few⟩
  · exact readOrdinal_taken taken

/-- Every text is walked one way or another. -/
theorem walk_total (labels : Labels) (edx esi : UInt32) (text : List UInt8) :
    ∃ entries result, Walk labels edx esi text entries result := by
  generalize size : text.length = n
  induction n using Nat.strong_induction_on generalizing edx esi text with
  | _ n ih =>
    cases reading : readArgument labels edx esi text with
    | refused => exact ⟨[], _, .refused reading⟩
    | endless => exact ⟨[], _, .endless reading⟩
    | taken edx' entries rest =>
      have shorter := (readArgument_taken reading).1.length_le
      match rest with
      | [] => exact ⟨entries, _, .last reading⟩
      | c :: rest =>
        by_cases space : c = 0x20
        · subst space
          rw [List.length_cons] at shorter
          obtain ⟨more, result, walk⟩ := ih rest.length (by omega) edx' (behind esi text rest) rest rfl
          exact ⟨entries ++ more, result, .next reading walk⟩
        · exact ⟨entries, _, .junk reading space⟩

/-- There is one way to walk a text. -/
theorem Walk.unique {entries' : List Entry} {result' : Option Bool} (walk : Walk labels edx esi text entries result)
    (walk' : Walk labels edx esi text entries' result') : entries = entries' ∧ result = result' := by
  induction walk generalizing entries' result' with
  | refused reading => cases walk' <;> grind
  | endless reading => cases walk' <;> grind
  | last reading => cases walk' <;> grind
  | junk reading junk => cases walk' <;> grind
  | next reading walk ih =>
    cases walk' with
    | next reading' walk' =>
      obtain ⟨rfl, rfl, same⟩ := Reading.taken.inj (reading.symm.trans reading')
      obtain ⟨-, rfl⟩ := List.cons.inj same
      obtain ⟨rfl, rfl⟩ := ih walk'
      exact ⟨rfl, rfl⟩
    | refused reading' => exact nomatch reading.symm.trans reading'
    | endless reading' => exact nomatch reading.symm.trans reading'
    | last reading' => exact nomatch reading.symm.trans reading'
    | junk reading' junk => grind

/-! ## Valid arguments -/

theorem digits_run {tail : List UInt8} (hex : AllDigits 16 digits) (ended : ∀ c ∈ tail.head?, c = 0x20) :
    hexRun (digits ++ tail) = digits ∧ afterRun (digits ++ tail) = tail := by
  have stop : tail.takeWhile (fun c => (digitOf 16 c).isSome) = [] ∧
      tail.dropWhile (fun c => (digitOf 16 c).isSome) = tail := by
    match tail with
    | [] => exact ⟨rfl, rfl⟩
    | c :: more =>
      obtain rfl : c = 0x20 := ended c rfl
      exact ⟨rfl, rfl⟩
  unfold hexRun afterRun
  rw [List.takeWhile_append_of_pos hex, List.dropWhile_append_of_pos hex, stop.1, stop.2, List.append_nil]
  exact ⟨rfl, rfl⟩

/-- A valid argument is read where the pointers tell, and refused where they do
not. -/
theorem readArgument_valid {tail : List UInt8} (valid : arg.Valid) (ended : ∀ c ∈ tail.head?, c = 0x20)
    (based : edx ≠ 0 ∨ arg.specifier = baseArg) : readArgument labels edx esi (arg.text ++ tail) =
      if Tells (arg.label labels) esi then .taken (arg.baseAfter edx) (entriesOf edx [arg]) tail else .refused := by
  obtain ⟨run, after⟩ := digits_run valid.hex ended
  have ends : ¬ Endless (hexPrefix ++ (arg.digits ++ tail)) := by
    rintro ⟨-, c, first, above⟩
    rw [show (hexPrefix ++ (arg.digits ++ tail)).drop 2 = arg.digits ++ tail from rfl, after] at first
    rw [ended c first] at above
    exact absurd above (by decide)
  have number : takeNumber esi (hexPrefix ++ (arg.digits ++ tail)) = (arg.value, tail) := by
    rw [takeNumber_marked, run, after]
    rfl
  have plain : ¬ ordinalArg <+: tail := by
    rintro ⟨more, rfl⟩
    exact absurd (ended 0x6F rfl) (by decide)
  have split_ : arg.text ++ tail = arg.specifier ++ (hexPrefix ++ (arg.digits ++ tail)) := by
    rw [Argument.text, List.append_assoc, List.append_assoc]
  rw [split_]
  cases arg with
  | base digits =>
    refine (readArgument_base _).trans ?_
    rw [if_neg ends, number]
    by_cases tells : Tells labels.gBaseArg esi
    · exact (if_pos tells).trans (if_pos tells).symm
    · exact (if_neg tells).trans ((readOrdinal_other (.inr plain)).trans (if_neg tells).symm)
  | ordinal digits =>
    have other : ¬ baseArg <+: ordinalArg ++ (hexPrefix ++ ((Argument.ordinal digits).digits ++ tail)) :=
      fun starts => absurd (List.prefix_of_prefix_length_le starts (List.prefix_append _ _) (Nat.le_refl _)) (by decide)
    have based : edx ≠ 0 := based.resolve_right (show ¬ ordinalArg = baseArg by decide)
    refine (readArgument_other other).trans ((readOrdinal_ordinal based _).trans ?_)
    rw [if_neg ends, number]
    by_cases tells : Tells labels.gOrdinalArg esi
    · exact (if_neg (not_or.mpr ⟨not_not.mpr tells, valid.nonzero⟩)).trans (if_pos tells).symm
    · exact (if_pos (.inl tells)).trans (if_neg tells).symm

theorem entriesOf_cons (edx : UInt32) (arg : Argument) (args : List Argument) :
    entriesOf edx (arg :: args) = entriesOf edx [arg] ++ entriesOf (arg.baseAfter edx) args := by
  cases arg <;> rfl

/-- Valid arguments are walked to their end if the pointers tell at each of
them, and otherwise up to the first where they do not. -/
theorem walk_valid (some_ : args ≠ []) (valid : ∀ arg ∈ args, arg.Valid)
    (based : edx ≠ 0 ∨ ∃ digits rest, args = .base digits :: rest) :
    (AllTell labels esi args → Walk labels edx esi (requestText args) (entriesOf edx args) (some true)) ∧
    (¬ AllTell labels esi args → ∃ entries, entries.length ≤ (entriesOf edx args).length ∧
      Walk labels edx esi (requestText args) entries (some false)) := by
  induction args generalizing edx esi with
  | nil => exact absurd rfl some_
  | cons arg args ih =>
    have valid_ := valid arg List.mem_cons_self
    have based_ : edx ≠ 0 ∨ arg.specifier = baseArg := by
      refine based.imp_right ?_
      rintro ⟨digits, rest, same⟩
      rw [(List.cons.inj same).1]
      rfl
    match args with
    | [] =>
      have read := @readArgument_valid labels edx esi arg [] valid_ (fun c first => nomatch first) based_
      rw [List.append_nil] at read
      by_cases tells : Tells (arg.label labels) esi
      · rw [if_pos tells] at read
        exact ⟨fun _ => .last read, fun none => absurd ⟨tells, trivial⟩ none⟩
      · rw [if_neg tells] at read
        exact ⟨fun all => absurd all.1 tells, fun _ => ⟨[], Nat.zero_le _, .refused read⟩⟩
    | next :: args =>
      have read := @readArgument_valid labels edx esi arg (0x20 :: requestText (next :: args)) valid_
        (fun c first => (Option.mem_some.mp first).symm) based_
      have place_ : behind esi (requestText (arg :: next :: args)) (requestText (next :: args)) =
          esi + .ofNat (arg.text.length + 1) := by
        rw [behind, requestText, List.length_append, List.length_cons]
        congr 2
        omega
      have later : arg.baseAfter edx ≠ 0 := by
        cases arg with
        | base digits => exact valid_.nonzero
        | ordinal digits => exact based_.resolve_right (show ¬ ordinalArg = baseArg by decide)
      have rest := @ih (arg.baseAfter edx) (esi + .ofNat (arg.text.length + 1)) (List.cons_ne_nil _ _)
        (fun arg listed => valid arg (List.mem_cons_of_mem _ listed)) (.inl later)
      rw [← place_] at rest
      rw [entriesOf_cons]
      by_cases tells : Tells (arg.label labels) esi
      · rw [if_pos tells] at read
        constructor
        · rintro ⟨-, all⟩
          rw [← place_] at all
          exact .next read (rest.1 all)
        · intro none
          obtain ⟨entries, few, walk⟩ := rest.2 fun all => none ⟨tells, by rwa [← place_]⟩
          refine ⟨entriesOf edx [arg] ++ entries, ?_, .next read walk⟩
          rw [List.length_append, List.length_append]
          omega
      · rw [if_neg tells] at read
        exact ⟨fun all => absurd all.1 tells, fun _ => ⟨[], Nat.zero_le _, .refused read⟩⟩

end Dyndxt.Bootstrap
