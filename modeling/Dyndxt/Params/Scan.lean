import Mathlib.Data.List.TakeWhile
import Dyndxt.Params.Parse
import Dyndxt.Params.Grammar

/-!
# The scanners read the grammar

Each scanner stops where the grammar says its token ends, and the unescaping
copy yields the text a quoted value stands for.
-/

namespace Dyndxt.Params

variable {input body rest raw text key value s keyStop entryEnd : Chars} {e : Entry} {err : PcpErr}
  {esc : Bool}

/-! ## Spaces, keys and bare values -/

section

variable {p : UInt8 → Bool}

/-- A scan over characters that pass stops where it should. -/
theorem dropWhile_stops (pass : ∀ c ∈ s, p c = true) (stops : ∀ c ∈ rest.head?, p c = false) :
    (s ++ rest).dropWhile p = rest := by
  rw [List.dropWhile_append_of_pos pass]
  cases rest with
  | nil => rfl
  | cons c rest => exact List.dropWhile_cons_of_neg (by simp [stops c rfl])

/-- Where a scan stops. -/
theorem dropWhile_split (p : UInt8 → Bool) (input : Chars) : ∃ s rest, input = s ++ rest ∧
    input.dropWhile p = rest ∧ (∀ c ∈ s, p c = true) ∧ ∀ c ∈ rest.head?, p c = false := by
  refine ⟨input.takeWhile p, input.dropWhile p, List.takeWhile_append_dropWhile.symm, rfl,
    fun c => List.mem_takeWhile_imp, fun c first => ?_⟩
  have stop := List.head?_dropWhile_not p input
  rw [first] at stop
  exact stop

end

theorem firstNonSpace_append (spaces : Spaces s) (stops : body.head? ≠ some space) :
    firstNonSpace (s ++ body) = body := by
  apply dropWhile_stops
  · exact fun c listed => decide_eq_true (spaces c listed)
  · intro c first
    refine decide_eq_false fun blank => stops ?_
    rw [Option.mem_def.mp first, blank]

theorem firstNonSpace_spaces (spaces : Spaces s) : firstNonSpace s = [] := by
  have whole := @firstNonSpace_append [] s spaces (by simp)
  rwa [List.append_nil] at whole

theorem spaces_split (input : Chars) :
    ∃ s, Spaces s ∧ input = s ++ firstNonSpace input ∧ (firstNonSpace input).head? ≠ some space := by
  obtain ⟨s, rest, whole, stop, pass, stops⟩ := dropWhile_split (fun c => c = space) input
  have stop : firstNonSpace input = rest := stop
  rw [stop]
  refine ⟨s, fun c listed => of_decide_eq_true (pass c listed), whole, fun first => ?_⟩
  exact of_decide_eq_false (stops space first) rfl

theorem keyEnd_append (plain : ∀ c ∈ key, c ≠ space ∧ c ≠ equals)
    (stops : ∀ c ∈ rest.head?, c = space ∨ c = equals) : keyEnd (key ++ rest) = rest := by
  apply dropWhile_stops
  · exact fun c listed => decide_eq_true (plain c listed)
  · intro c first
    refine decide_eq_false fun inside => ?_
    rcases stops c first with blank | sign
    · exact inside.1 blank
    · exact inside.2 sign

theorem key_split (input : Chars) : ∃ key, (∀ c ∈ key, c ≠ space ∧ c ≠ equals) ∧
    input = key ++ keyEnd input ∧ ∀ c ∈ (keyEnd input).head?, c = space ∨ c = equals := by
  obtain ⟨key, rest, whole, stop, pass, stops⟩ := dropWhile_split (fun c => c ≠ space ∧ c ≠ equals) input
  have stop : keyEnd input = rest := stop
  rw [stop]
  refine ⟨key, fun c listed => of_decide_eq_true (pass c listed), whole, fun c first => ?_⟩
  exact Decidable.or_iff_not_not_and_not.mpr (of_decide_eq_false (stops c first))

theorem bareEnd_append (plain : ∀ c ∈ value, c ≠ space) (stops : AtBreak rest) :
    bareEnd (value ++ rest) = rest := by
  apply dropWhile_stops
  · exact fun c listed => decide_eq_true (plain c listed)
  · exact fun c first => decide_eq_false fun inside => inside (stops c first)

theorem bare_split (input : Chars) : ∃ value, (∀ c ∈ value, c ≠ space) ∧
    input = value ++ bareEnd input ∧ AtBreak (bareEnd input) := by
  obtain ⟨value, rest, whole, stop, pass, stops⟩ := dropWhile_split (fun c => c ≠ space) input
  have stop : bareEnd input = rest := stop
  rw [stop]
  refine ⟨value, fun c listed => of_decide_eq_true (pass c listed), whole, fun c first => ?_⟩
  exact Decidable.not_not.mp (of_decide_eq_false (stops c first))

/-! ## Quoted values -/

theorem quotedEnd_quote (esc : Bool) : quotedEnd esc (quote :: rest) = some (quote :: rest, esc) := by
  rw [quotedEnd.eq_def]
  exact if_pos rfl

theorem quotedEnd_plain {c : UInt8} (unquoted : c ≠ quote) (unescaped : c ≠ backslash) (esc : Bool) :
    quotedEnd esc (c :: rest) = quotedEnd esc rest := by
  rw [quotedEnd.eq_def]
  exact (if_neg unquoted).trans (if_neg unescaped)

theorem quotedEnd_escape (c : UInt8) (esc : Bool) :
    quotedEnd esc (backslash :: c :: rest) = quotedEnd true rest := by
  rw [quotedEnd.eq_def]
  rfl

theorem quotedEnd_closed (quoted : Quoted raw text) (esc : Bool) :
    quotedEnd esc (raw ++ quote :: rest) = some (quote :: rest, esc || decide (backslash ∈ raw)) := by
  induction quoted generalizing esc with
  | nil =>
    rw [List.nil_append, quotedEnd_quote]
    simp
  | plain unquoted unescaped _ ih =>
    rw [List.cons_append, quotedEnd_plain unquoted unescaped, ih]
    simp [Ne.symm unescaped]
  | escaped c _ ih =>
    rw [List.cons_append, List.cons_append, quotedEnd_escape, ih]
    simp

theorem quotedEnd_unterminated (quoted : Quoted raw text) (esc : Bool) :
    ∃ esc', quotedEnd esc raw = some ([], esc') := by
  induction quoted generalizing esc with
  | nil => exact ⟨esc, rfl⟩
  | plain unquoted unescaped _ ih =>
    rw [quotedEnd_plain unquoted unescaped]
    exact ih esc
  | escaped c _ ih =>
    rw [quotedEnd_escape]
    exact ih true

theorem quotedEnd_cutOff (quoted : Quoted raw text) (esc : Bool) :
    quotedEnd esc (raw ++ [backslash]) = none := by
  induction quoted generalizing esc with
  | nil => rfl
  | plain unquoted unescaped _ ih =>
    rw [List.cons_append, quotedEnd_plain unquoted unescaped]
    exact ih esc
  | escaped c _ ih =>
    rw [List.cons_append, List.cons_append, quotedEnd_escape]
    exact ih true

theorem unescape_plain {c : UInt8} (unescaped : c ≠ backslash) :
    unescape (c :: rest) = (c :: (unescape rest).1, (unescape rest).2) := by
  rw [unescape.eq_def]
  exact if_neg unescaped

theorem unescape_escape (c : UInt8) :
    unescape (backslash :: c :: rest) = (c :: (unescape rest).1, (unescape rest).2) := by
  rw [unescape.eq_def]
  rfl

/-- The unescaping loop consumes what the scanner let through. -/
theorem unescape_quoted (quoted : Quoted raw text) : unescape raw = (text, true) := by
  induction quoted with
  | nil => rfl
  | plain _ unescaped _ ih => rw [unescape_plain unescaped, ih]
  | escaped c _ ih => rw [unescape_escape, ih]

theorem quoted_plain (quoted : Quoted raw text) (unescaped : backslash ∉ raw) : text = raw := by
  induction quoted with
  | nil => rfl
  | plain _ _ _ ih => rw [ih fun listed => unescaped (List.mem_cons_of_mem _ listed)]
  | escaped c _ _ => exact absurd List.mem_cons_self unescaped

theorem quoted_nil (quoted : Quoted raw text) : raw = [] ↔ text = [] := by
  cases quoted <;> simp

/-! ## Entries -/

/-- The pointers and the flag of a value, and the text that is stored. -/
inductive Stores : Option (Chars × Chars) → Bool → Option Chars → Prop where
  | null (esc : Bool) : Stores none esc none
  | empty (p : Chars) (esc : Bool) : Stores (some (p, p)) esc none
  | plain {start stop : Chars} : start ≠ stop → Stores (some (start, stop)) false (some (between start stop))
  | unescaped {start stop text : Chars} : start ≠ stop → unescape (between start stop) = (text, true) →
      Stores (some (start, stop)) true (some text)

theorem between_append (text stop : Chars) : between (text ++ stop) stop = text := by
  simp [between]

theorem append_ne (some : text ≠ []) (stop : Chars) : text ++ stop ≠ stop :=
  fun same => some (List.append_left_eq_self.mp same)

/-- The characters between two quotes are stored as the text they stand for. -/
theorem stores_quoted (quoted : Quoted raw text) :
    Stores (some (raw ++ quote :: rest, quote :: rest)) (decide (backslash ∈ raw)) (present text) := by
  unfold present
  split
  · next none =>
    rw [(quoted_nil quoted).mpr none]
    exact .empty _ _
  · next some =>
    have moved := append_ne (fun none => some ((quoted_nil quoted).mp none)) (quote :: rest)
    by_cases escaped : backslash ∈ raw
    · rw [decide_eq_true escaped]
      refine .unescaped moved ?_
      rw [between_append]
      exact unescape_quoted quoted
    · have plain := Stores.plain moved
      rw [between_append] at plain
      rwa [decide_eq_false escaped, quoted_plain quoted escaped]

theorem stores_bare (value stop : Chars) : Stores (some (value ++ stop, stop)) false (present value) := by
  unfold present
  split
  · next none =>
    rw [none]
    exact .empty _ _
  · next some =>
    have plain := Stores.plain (append_ne some stop)
    rwa [between_append] at plain

theorem IsKey.stop (key_ : IsKey key) (rest : Chars) (stops : ∀ c ∈ rest.head?, c = space ∨ c = equals) :
    keyEnd (key ++ rest) = rest ∧ rest ≠ key ++ rest :=
  ⟨keyEnd_append key_.plain stops, Ne.symm (append_ne key_.nonempty rest)⟩

theorem scanEntry_of_value (key_ : IsKey key) :
    scanEntry (key ++ equals :: value) = scanValue (equals :: value) value := by
  obtain ⟨stop, moved⟩ := key_.stop (equals :: value) fun c first => .inr (Option.some.inj first).symm
  unfold scanEntry
  rw [stop, if_neg moved]
  exact if_pos rfl

/-- An entry is scanned: its key, its value and where the next one starts. -/
theorem scanEntry_entry (entry : EntryAt body e rest) : ∃ keyStop value esc,
    scanEntry body = .entry keyStop value esc rest ∧ between body keyStop = e.key ∧
      Stores value esc e.value := by
  cases entry with
  | @key key rest key_ stops =>
    obtain ⟨stop, moved⟩ := key_.stop rest fun c first => .inl (stops c first)
    refine ⟨rest, none, false, ?_, between_append _ _, .null _⟩
    unfold scanEntry
    rw [stop, if_neg moved]
    refine if_neg fun sign => ?_
    exact absurd (stops equals sign) (by decide)
  | @bare key value rest key_ bare stops =>
    refine ⟨equals :: (value ++ rest), some (value ++ rest, rest), false, ?_, between_append _ _,
      stores_bare value rest⟩
    have unquoted : (value ++ rest).head? ≠ some quote := by
      cases value with
      | nil => exact fun first => absurd (stops quote first) (by decide)
      | cons c value => exact bare.unquoted
    rw [scanEntry_of_value key_, scanValue, valueEnd, if_neg unquoted, bareEnd_append bare.plain stops]
    exact if_neg unquoted
  | @quoted key raw text rest key_ quoted =>
    refine ⟨equals :: quote :: (raw ++ quote :: rest), some (raw ++ quote :: rest, quote :: rest),
      decide (backslash ∈ raw), ?_, between_append _ _, stores_quoted quoted⟩
    have closed : valueEnd (quote :: (raw ++ quote :: rest)) =
        some (quote :: rest, decide (backslash ∈ raw)) := quotedEnd_closed quoted false
    rw [scanEntry_of_value key_, scanValue, closed]
    rfl

theorem scanEntry_offends (offends : Offends body err) : scanEntry body = .refused err := by
  cases offends with
  | @emptyKey rest =>
    have stays : keyEnd (equals :: rest) = equals :: rest :=
      @keyEnd_append (equals :: rest) [] (by simp) fun c first => .inr (Option.some.inj first).symm
    exact if_pos stays
  | @unterminated key raw text key_ quoted =>
    obtain ⟨esc, scanned⟩ := quotedEnd_unterminated quoted false
    have unterminated : valueEnd (quote :: raw) = some ([], esc) := scanned
    rw [scanEntry_of_value key_, scanValue, unterminated]
    rfl

theorem scanEntry_cutsOff (cut : CutsOff body) : scanEntry body = .overread := by
  cases cut with
  | @escape key raw text key_ quoted =>
    have overread : valueEnd (quote :: (raw ++ [backslash])) = none := quotedEnd_cutOff quoted false
    rw [scanEntry_of_value key_, scanValue, overread]

/-! ## Every string has a reading -/

/-- What stands at the start of a string that is not blank. -/
theorem entry_cases (some_ : body ≠ []) (visible : body.head? ≠ some space) :
    (∃ e rest, EntryAt body e rest) ∨ (∃ err, Offends body err) ∨ CutsOff body := by
  obtain ⟨key, plain, whole, stops⟩ := key_split body
  generalize keyEnd body = stop at whole stops
  subst whole
  cases stop with
  | nil =>
    rw [List.append_nil] at some_ ⊢
    have entry := @EntryAt.key key [] ⟨some_, plain⟩ (by simp [AtBreak])
    rw [List.append_nil] at entry
    exact .inl ⟨_, _, entry⟩
  | cons c rest =>
    cases key with
    | nil =>
      rcases stops c rfl with rfl | rfl
      · exact absurd rfl visible
      · exact .inr (.inl ⟨_, .emptyKey⟩)
    | cons k key =>
      have key_ : IsKey (k :: key) := ⟨List.cons_ne_nil _ _, plain⟩
      rcases stops c rfl with rfl | rfl
      · exact .inl ⟨_, _, .key key_ fun d first => (Option.some.inj first).symm⟩
      · by_cases opened : rest.head? = some quote
        · cases rest with
          | nil => cases opened
          | cons q rest =>
            cases opened
            obtain ⟨raw, text, quoted, ⟨after, rfl⟩ | rfl | rfl⟩ := quoted_cases rest
            · exact .inl ⟨_, _, .quoted key_ quoted⟩
            · exact .inr (.inl ⟨_, .unterminated key_ quoted⟩)
            · exact .inr (.inr (.escape key_ quoted))
        · obtain ⟨value, plain, whole, stops⟩ := bare_split rest
          have unquoted : value.head? ≠ some quote := by
            intro first
            cases value with
            | nil => cases first
            | cons c value =>
              rw [whole] at opened
              exact opened first
          rw [whole]
          exact .inl ⟨_, _, .bare key_ ⟨unquoted, plain⟩ stops⟩

theorem EntryAt.shorter (entry : EntryAt body e rest) : rest.length < body.length := by
  obtain ⟨_, _, _, scanned, -⟩ := scanEntry_entry entry
  exact scanEntry_shorter scanned

theorem parses_or_cutOff (input : Chars) : (∃ out, Parses input out) ∨ CutOff input := by
  induction h : input.length using Nat.strongRecOn generalizing input with
  | ind n ih =>
    obtain ⟨s, spaces, whole, visible⟩ := spaces_split input
    generalize firstNonSpace input = body at whole visible
    subst whole
    by_cases blank : body = []
    · rw [blank, List.append_nil]
      exact .inl ⟨_, .done spaces⟩
    · rcases entry_cases blank visible with ⟨e, rest, entry⟩ | ⟨err, offends⟩ | cut
      · have shorter := entry.shorter
        rw [List.length_append] at h
        rcases ih rest.length (by omega) rest rfl with ⟨out, parses⟩ | cut
        · exact .inl ⟨_, .entry spaces entry parses⟩
        · exact .inr (.later spaces entry cut)
      · exact .inl ⟨_, .offends spaces offends⟩
      · exact .inr (.here spaces cut)

/-! ## Entries are not blank -/

theorem IsKey.visible (key_ : IsKey key) (rest : Chars) :
    key ++ rest ≠ [] ∧ (key ++ rest).head? ≠ some space := by
  cases key with
  | nil => exact absurd rfl key_.nonempty
  | cons c key =>
    refine ⟨List.cons_ne_nil _ _, fun blank => ?_⟩
    exact (key_.plain c List.mem_cons_self).1 (Option.some.inj blank)

theorem EntryAt.visible (entry : EntryAt body e rest) : body ≠ [] ∧ body.head? ≠ some space := by
  cases entry with
  | key key_ _ => exact key_.visible _
  | bare key_ _ _ => exact key_.visible _
  | quoted key_ _ => exact key_.visible _

theorem Offends.visible (offends : Offends body err) : body ≠ [] ∧ body.head? ≠ some space := by
  cases offends with
  | emptyKey => exact ⟨List.cons_ne_nil _ _, fun blank => absurd (Option.some.inj blank) (by decide)⟩
  | unterminated key_ _ => exact key_.visible _

theorem CutsOff.visible (cut : CutsOff body) : body ≠ [] ∧ body.head? ≠ some space := by
  cases cut with
  | escape key_ _ => exact key_.visible _

end Dyndxt.Params
