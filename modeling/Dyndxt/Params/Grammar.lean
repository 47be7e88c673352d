import Dyndxt.Params.CommandParameters

/-!
# The grammar of parameter strings

A parameter string is a sequence of entries with spaces between them. An entry
is a key, alone or with a bare or a quoted value; the first entry that is none
of these is an error. `Parses` relates a string to its entries or its error,
and `CutOff` says that the NUL comes directly after an escaping backslash.
-/

namespace Dyndxt.Params

/-- A key and its value, if it has one. -/
structure Entry where
  key : Chars
  value : Option Chars
deriving DecidableEq, Repr

def Spaces (s : Chars) : Prop := ∀ c ∈ s, c = space

/-- The end of the string or a space. -/
def AtBreak (rest : Chars) : Prop := ∀ c ∈ rest.head?, c = space

structure IsKey (key : Chars) : Prop where
  nonempty : key ≠ []
  plain : ∀ c ∈ key, c ≠ space ∧ c ≠ equals

structure IsBare (value : Chars) : Prop where
  unquoted : value.head? ≠ some quote
  plain : ∀ c ∈ value, c ≠ space

/-- The characters between two quotes, and the text they stand for. -/
inductive Quoted : Chars → Chars → Prop where
  | nil : Quoted [] []
  | plain {c : UInt8} {raw text : Chars} : c ≠ quote → c ≠ backslash → Quoted raw text →
      Quoted (c :: raw) (c :: text)
  | escaped (c : UInt8) {raw text : Chars} : Quoted raw text → Quoted (backslash :: c :: raw) (c :: text)

/-- An empty value counts as absent. -/
def present (value : Chars) : Option Chars := if value = [] then none else some value

/-- An entry at the start of a string, and what follows it. -/
inductive EntryAt : Chars → Entry → Chars → Prop where
  | key {key rest : Chars} : IsKey key → AtBreak rest → EntryAt (key ++ rest) ⟨key, none⟩ rest
  | bare {key value rest : Chars} : IsKey key → IsBare value → AtBreak rest →
      EntryAt (key ++ equals :: (value ++ rest)) ⟨key, present value⟩ rest
  | quoted {key raw text rest : Chars} : IsKey key → Quoted raw text →
      EntryAt (key ++ equals :: quote :: (raw ++ quote :: rest)) ⟨key, present text⟩ rest

/-- An offending entry at the start of a string. -/
inductive Offends : Chars → PcpErr → Prop where
  | emptyKey {rest : Chars} : Offends (equals :: rest) .invalidKey
  | unterminated {key raw text : Chars} : IsKey key → Quoted raw text →
      Offends (key ++ equals :: quote :: raw) .invalidInputUnterminatedQuotedKey

/-- An entry whose quoted value is cut off after an escaping backslash. -/
inductive CutsOff : Chars → Prop where
  | escape {key raw text : Chars} : IsKey key → Quoted raw text →
      CutsOff (key ++ equals :: quote :: (raw ++ [backslash]))

/-- The entries of a string, or the error of its first offending entry. -/
inductive Parses : Chars → Except PcpErr (List Entry) → Prop where
  | done {s : Chars} : Spaces s → Parses s (.ok [])
  | entry {s body rest : Chars} {e : Entry} {out : Except PcpErr (List Entry)} :
      Spaces s → EntryAt body e rest → Parses rest out → Parses (s ++ body) (out.map (e :: ·))
  | offends {s body : Chars} {e : PcpErr} : Spaces s → Offends body e → Parses (s ++ body) (.error e)

/-- After entries, a quoted value is cut off after an escaping backslash. -/
inductive CutOff : Chars → Prop where
  | here {s body : Chars} : Spaces s → CutsOff body → CutOff (s ++ body)
  | later {s body rest : Chars} {e : Entry} : Spaces s → EntryAt body e rest → CutOff rest →
      CutOff (s ++ body)

variable {input body rest raw text key s : Chars} {e : Entry}

/-! ## Every string has a reading -/

/-- A string after an opening quote: closed, unterminated or cut off. The
induction is on its length, an escape being two characters. -/
theorem quoted_cases (input : Chars) : ∃ raw text, Quoted raw text ∧
    ((∃ rest, input = raw ++ quote :: rest) ∨ input = raw ∨ input = raw ++ [backslash]) := by
  induction h : input.length using Nat.strongRecOn generalizing input with
  | ind n ih =>
    cases input with
    | nil => exact ⟨[], [], .nil, .inr (.inl rfl)⟩
    | cons c input =>
      by_cases closes : c = quote
      · exact ⟨[], [], .nil, .inl ⟨input, by rw [closes]; rfl⟩⟩
      by_cases escape : c = backslash
      · subst escape
        cases input with
        | nil => exact ⟨[], [], .nil, .inr (.inr rfl)⟩
        | cons d input =>
          obtain ⟨raw, text, quoted, shape⟩ :=
            ih input.length (by rw [← h, List.length_cons, List.length_cons]; omega) input rfl
          refine ⟨backslash :: d :: raw, d :: text, .escaped d quoted, ?_⟩
          obtain ⟨rest, rfl⟩ | rfl | rfl := shape
          · exact .inl ⟨rest, rfl⟩
          · exact .inr (.inl rfl)
          · exact .inr (.inr rfl)
      · obtain ⟨raw, text, quoted, shape⟩ := ih input.length (by rw [← h, List.length_cons]; omega) input rfl
        refine ⟨c :: raw, c :: text, .plain closes escape quoted, ?_⟩
        obtain ⟨rest, rfl⟩ | rfl | rfl := shape
        · exact .inl ⟨rest, rfl⟩
        · exact .inr (.inl rfl)
        · exact .inr (.inr rfl)

end Dyndxt.Params
