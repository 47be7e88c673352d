import Dyndxt.Pool.Held
import Dyndxt.Params.Accepts

/-!
# The blocks of a parse

At every moment of a parse the blocks it holds are those its result points to:
the two arrays, of one or of two generations, and the strings of the entries.
So `CPDelete` gives back all of them, wherever the parse has stopped.
-/

namespace Dyndxt.Params
open Dyndxt.Pool Dyndxt.Run

def arrayBlock (a : Option PtrArray) : List Nat := a.toList.map (·.block)

/-- The blocks of the two arrays. -/
def CommandParameters.arrays (cp : CommandParameters) : List Nat := arrayBlock cp.keys ++ arrayBlock cp.values

/-- The blocks of the entries' strings. -/
def CommandParameters.strings (cp : CommandParameters) : List Nat :=
  (List.range cp.entries).flatMap fun i => stringBlock (cp.key i) ++ stringBlock (cp.value i)

/-- The blocks held are the result's and those held before. -/
def Owned (held : List Nat) (cp : CommandParameters) (calls : Ledger) : Prop :=
  Held (cp.arrays ++ (cp.strings ++ held)) calls

/-- The blocks of collected entries. -/
def entryBlocks (es : List PoolEntry) : List Nat := es.flatMap fun e => e.1.block :: stringBlock e.2

variable {b : Build} {alloc : Ledger → Nat → Nat} {es : List PoolEntry} {s s' : ParseState}
  {cp cp' : CommandParameters} {calls calls' : Ledger} {held : List Nat} {m : Nat} {ok : Bool}

/-! ## `CPDelete` -/

theorem freeArray_eq (a : Option PtrArray) : freeArray calls a = freeAll (arrayBlock a) calls := by
  cases a <;> rfl

/-- `CPDelete` frees the strings and then the arrays. -/
theorem cpDelete_eq : cpDelete cp calls = ({}, freeAll (cp.strings ++ cp.arrays) calls) := by
  have strings : (List.range cp.entries).foldl
      (fun calls i => freeString (freeString calls (cp.key i)) (cp.value i)) calls =
        freeAll cp.strings calls := by
    rw [CommandParameters.strings, ← freeAll_flatMap]
    congr 1
    funext calls i
    rw [freeString_eq, freeString_eq, freeAll_append]
  rw [cpDelete, strings, freeArray_eq, freeArray_eq, freeAll_append, CommandParameters.arrays, freeAll_append]

theorem Owned.delete (owned : Owned held cp calls) : Held held (cpDelete cp calls).2 := by
  rw [cpDelete_eq]
  refine Held.freeAll (owned.perm ?_)
  rw [← List.append_assoc]
  exact List.perm_append_comm.append_right held

/-- A result without entries and arrays holds nothing. -/
theorem owned_empty : Owned held {} calls ↔ Held held calls := Iff.rfl

/-! ## Reserving -/

/-- A pointer that a larger array takes over. -/
theorem moved_get (a : Option PtrArray) (block : Nat) {i : Nat} (inside : i < cp.entries) :
    ((some (cp.moved a block)).bind fun a => a.slots[i]?.join) = a.bind fun a => a.slots[i]?.join := by
  cases a with
  | none => rfl
  | some a =>
    simp only [CommandParameters.moved, Option.bind_some, Option.map_some, Option.getD_some]
    rw [List.getElem?_take_of_lt inside]

/-- A pointer before those set to null. -/
theorem clear_get (a : PtrArray) {i : Nat} (inside : i < cp.entries) :
    (a.clear cp.entries m).slots[i]?.join = a.slots[i]?.join := by
  simp only [PtrArray.clear]
  rcases Nat.lt_or_ge i (a.slots.take cp.entries).length with early | late
  · rw [List.getElem?_append_left early, List.getElem?_take_of_lt inside]
  · rw [List.getElem?_append_right late, List.getElem?_replicate]
    have short : a.slots.length ≤ i := by
      rw [List.length_take] at late
      omega
    rw [List.getElem?_eq_none short]
    split <;> rfl

theorem strings_congr (entries : cp'.entries = cp.entries) (keys : ∀ i < cp.entries, cp'.key i = cp.key i)
    (values : ∀ i < cp.entries, cp'.value i = cp.value i) : cp'.strings = cp.strings := by
  unfold CommandParameters.strings
  rw [entries, List.flatMap_congr]
  intro i listed
  have inside := List.mem_range.mp listed
  rw [keys i inside, values i inside]

/-- A block exchanged for a new one. -/
theorem Held.exchange (a : Option PtrArray) {rest : List Nat} {block size : Nat} (some_ : block ≠ 0)
    (held : Held (arrayBlock a ++ rest) calls) : Held (block :: rest) (freeArray (.alloc size block :: calls) a) := by
  have grown := @Held.alloc _ _ size _ held some_
  cases a with
  | none => exact grown
  | some a => exact (grown.perm (.swap _ _ _)).free

theorem Owned.growKeys (owned : Owned held cp calls) (size : Nat) {block : Nat} (some_ : block ≠ 0) :
    Owned held { cp with keys := some (cp.moved cp.keys block) }
      (freeArray (.alloc size block :: calls) cp.keys) := by
  have same : CommandParameters.strings { cp with keys := some (cp.moved cp.keys block) } = cp.strings :=
    strings_congr rfl (fun i inside => moved_get cp.keys block inside) fun _ _ => rfl
  unfold Owned CommandParameters.arrays at owned ⊢
  rw [List.append_assoc] at owned
  rw [same]
  exact Held.exchange cp.keys some_ owned

theorem Owned.growValues (owned : Owned held cp calls) (size : Nat) {block : Nat} (some_ : block ≠ 0) :
    Owned held { cp with values := some (cp.moved cp.values block) }
      (freeArray (.alloc size block :: calls) cp.values) := by
  have same : CommandParameters.strings { cp with values := some (cp.moved cp.values block) } = cp.strings :=
    strings_congr rfl (fun _ _ => rfl) fun i inside => moved_get cp.values block inside
  unfold Owned CommandParameters.arrays at owned ⊢
  rw [same]
  have swapped : Held (arrayBlock cp.values ++ (arrayBlock cp.keys ++ (cp.strings ++ held))) calls := by
    refine owned.perm ?_
    rw [← List.append_assoc (arrayBlock cp.values)]
    exact List.perm_append_comm.append_right _
  refine (Held.exchange cp.values some_ swapped).perm ?_
  rw [← List.cons_append]
  exact (List.perm_append_singleton _ _).symm.append_right _

theorem Owned.clear (owned : Owned held cp calls) (maxEntries : Nat) :
    Owned held { cp with
      keys := cp.keys.map fun a => a.clear cp.entries maxEntries
      values := cp.values.map fun a => a.clear cp.entries maxEntries } calls := by
  have cleared (a : Option PtrArray) {i : Nat} (inside : i < cp.entries) :
      ((a.map fun a => a.clear cp.entries maxEntries).bind fun a => a.slots[i]?.join) =
        a.bind fun a => a.slots[i]?.join := by
    cases a with
    | none => rfl
    | some a => exact clear_get a inside
  have blocks (a : Option PtrArray) : arrayBlock (a.map fun a => a.clear cp.entries maxEntries) = arrayBlock a := by
    cases a <;> rfl
  have same : CommandParameters.strings { cp with
      keys := cp.keys.map fun a => a.clear cp.entries maxEntries
      values := cp.values.map fun a => a.clear cp.entries maxEntries } = cp.strings :=
    strings_congr rfl (fun _ inside => cleared cp.keys inside) fun _ inside => cleared cp.values inside
  unfold Owned CommandParameters.arrays at owned ⊢
  rw [blocks, blocks, same]
  exact owned

theorem reserve_owned (owned : Owned held cp calls)
    (reserved : commandParametersReserve b alloc m cp calls = (ok, cp', calls')) :
    cp'.entries = cp.entries ∧ Owned held cp' calls' := by
  unfold commandParametersReserve dmAllocatePoolWithTag at reserved
  dsimp only at reserved
  split at reserved
  · next null =>
    cases reserved
    rw [null]
    exact ⟨rfl, owned.allocNull⟩
  · next newKeys =>
    have keyed := owned.growKeys (b.sizeofPtr * m % 2 ^ 32) newKeys
    split at reserved
    · next null =>
      cases reserved
      rw [null]
      exact ⟨rfl, keyed.allocNull⟩
    · next newValues =>
      cases reserved
      exact ⟨rfl, (keyed.growValues _ newValues).clear m⟩

theorem Owned.reserve (owned : Owned held s.cp s.calls) (reserved : s.reserve b alloc = (ok, s')) :
    Owned held s'.cp s'.calls := by
  unfold ParseState.reserve at reserved
  dsimp only at reserved
  split at reserved
  · generalize grown : commandParametersReserve b alloc (s.maxEntries * 2) s.cp s.calls = r at reserved
    obtain ⟨ok, cp, calls⟩ := r
    cases reserved
    exact (reserve_owned owned grown).2
  · cases reserved
    exact owned

/-! ## Appending -/

theorem Collected.strings (collected : Collected es s) : s.cp.strings = entryBlocks es := by
  rw [CommandParameters.strings, entryBlocks, List.flatMap_def, List.flatMap_def]
  congr 1
  apply List.ext_getElem
  · rw [List.length_map, List.length_map, List.length_range, collected.entries]
  · intro i inside inside'
    rw [List.length_map] at inside'
    rw [List.getElem_map, List.getElem_map, List.getElem_range, collected.key, collected.value,
      List.getElem?_eq_getElem inside']
    rfl

theorem entryBlocks_snoc (e : PoolEntry) :
    entryBlocks (es ++ [e]) = entryBlocks es ++ e.1.block :: stringBlock e.2 := by
  rw [entryBlocks, List.flatMap_append, List.flatMap_singleton]
  rfl

theorem arrays_setKey (i : Nat) (k : Option PoolString) : (cp.setKey i k).arrays = cp.arrays := by
  unfold CommandParameters.setKey CommandParameters.arrays
  cases cp.keys <;> rfl

theorem arrays_setValue (i : Nat) (v : Option PoolString) : (cp.setValue i v).arrays = cp.arrays := by
  unfold CommandParameters.setValue CommandParameters.arrays
  cases cp.values <;> rfl

/-- A pointer set behind the entries. -/
theorem strings_setKey (k : Option PoolString) : (cp.setKey cp.entries k).strings = cp.strings := by
  refine strings_congr rfl (fun i inside => ?_) fun _ _ => rfl
  unfold CommandParameters.setKey CommandParameters.key
  cases cp.keys with
  | none => rfl
  | some a =>
    simp only [Option.map_some, Option.bind_some, PtrArray.set]
    rw [List.getElem?_set_ne (Nat.ne_of_gt inside)]

theorem Owned.keyFailed (owned : Owned held cp calls) (size : Nat) :
    Owned held (cp.setKey cp.entries none) (.alloc size 0 :: calls) := by
  unfold Owned at owned ⊢
  rw [arrays_setKey, strings_setKey]
  exact owned.allocNull

/-- A new block at the end of the strings. -/
theorem Held.snoc {arrays strings : List Nat} {block : Nat} (owned : Held (arrays ++ (strings ++ held)) calls)
    (some_ : block ≠ 0) (size : Nat) :
    Held (arrays ++ (strings ++ [block] ++ held)) (.alloc size block :: calls) := by
  refine (Held.alloc owned some_).perm ?_
  rw [List.append_assoc, List.singleton_append, ← List.append_assoc, ← List.append_assoc]
  exact List.perm_middle.symm

theorem Owned.keyed (collected : Collected es s) (more : es.length < s.maxEntries) (owned : Owned held s.cp s.calls)
    (k : PoolString) (some_ : k.block ≠ 0) (size : Nat) :
    Owned held
      { s.cp.setKey es.length (some k) with entries := (s.cp.setKey es.length (some k)).entries + 1 }
      (.alloc size k.block :: s.calls) := by
  have keyed := collected.snoc more k (.alloc size k.block :: s.calls)
  unfold Owned at owned ⊢
  rw [collected.strings] at owned
  rw [keyed.strings, entryBlocks_snoc]
  have same : CommandParameters.arrays { s.cp.setKey es.length (some k) with
      entries := (s.cp.setKey es.length (some k)).entries + 1 } = s.cp.arrays := arrays_setKey _ _
  rw [same]
  exact Held.snoc owned some_ size

theorem Owned.valued {k : PoolString} (collected : Collected (es ++ [(k, none)]) s)
    (owned : Owned held s.cp s.calls) (v : PoolString) (some_ : v.block ≠ 0) (size : Nat) :
    Owned held (s.cp.setValue es.length (some v)) (.alloc size v.block :: s.calls) := by
  have valued := collected.setLast (some v) (.alloc size v.block :: s.calls)
  unfold Owned at owned ⊢
  rw [collected.strings, entryBlocks_snoc] at owned
  rw [valued.strings, entryBlocks_snoc, arrays_setValue]
  have snoc := Held.snoc owned some_ size
  rwa [List.append_assoc (entryBlocks es)] at snoc

theorem Owned.valueFailed {k : PoolString} (collected : Collected (es ++ [(k, none)]) s)
    (owned : Owned held s.cp s.calls) (size : Nat) :
    Owned held (s.cp.setValue es.length none) (.alloc size 0 :: s.calls) := by
  have valued := collected.setLast none (.alloc size 0 :: s.calls)
  unfold Owned at owned ⊢
  rw [collected.strings] at owned
  rw [valued.strings, arrays_setValue]
  exact owned.allocNull

theorem appendValue_owned {value : Option (Chars × Chars)} {esc : Bool} {v : Option Chars} {k : PoolString}
    {set : Option PcpErr} (collected : Collected (es ++ [(k, none)]) s) (stores : Stores value esc v)
    (owned : Owned held s.cp s.calls) (appended : appendValue alloc value esc es.length s = (set, s')) :
    Owned held s'.cp s'.calls := by
  unfold appendValue dmAllocatePoolWithTag at appended
  cases stores with
  | null => cases appended; exact owned
  | empty p =>
    simp only [if_true] at appended
    cases appended
    exact owned
  | plain moved =>
    simp only [moved, if_false, if_true] at appended
    split at appended
    · next null =>
      cases appended
      rw [null]
      exact .valueFailed collected owned _
    · next some_ =>
      cases appended
      exact .valued collected owned ⟨_, _⟩ some_ _
  | unescaped moved text =>
    simp only [moved, text, if_false, if_true, Bool.true_eq_false] at appended
    split at appended
    · next null =>
      cases appended
      rw [null]
      exact .valueFailed collected owned _
    · next some_ =>
      cases appended
      exact .valued collected owned ⟨_, _⟩ some_ _

/-- An entry appended, or stopped at any of its allocations. -/
theorem commandParametersAppend_owned {keyStart keyStop : Chars} {value : Option (Chars × Chars)} {esc : Bool}
    {v : Option Chars} {set : Option PcpErr} (collected : Collected es s) (stores : Stores value esc v)
    (owned : Owned held s.cp s.calls)
    (appended : commandParametersAppend b alloc keyStart keyStop value esc s = (set, s')) :
    Owned held s'.cp s'.calls := by
  unfold commandParametersAppend dmAllocatePoolWithTag at appended
  split at appended
  · next s₁ unreserved =>
    cases appended
    exact owned.reserve unreserved
  · next s₁ reserved =>
    obtain ⟨collected, more, -⟩ := reserve_true collected reserved
    have owned := owned.reserve reserved
    dsimp only at appended
    split at appended
    · next null =>
      cases appended
      rw [null]
      exact owned.keyFailed _
    · next some_ =>
      rw [collected.entries] at appended
      have keyed := Owned.keyed collected more owned ⟨_, between keyStart keyStop⟩ some_
        ((1 + (between keyStart keyStop).length) % 2 ^ 32)
      exact appendValue_owned (collected.snoc more _ _) stores keyed appended

/-! ## Runs -/

/-- What a parse that has ended holds: nothing, or the blocks of its entries. -/
inductive Accounted (held : List Nat) : ParseResult → Prop where
  | emptied {ret : Int} {calls : Ledger} : ret ≤ 0 → Held held calls →
      Accounted held { ret, result := some {}, calls }
  | filled {es : List PoolEntry} {s : ParseState} : Collected es s → es ≠ [] → Owned held s.cp s.calls →
      Accounted held { ret := s.cp.entries, result := some s.cp, calls := s.calls }

/-- Before a round. -/
structure Parsing (held : List Nat) (es : List PoolEntry) (body : Chars) (s : ParseState) : Prop where
  collected : Collected es s
  owned : Owned held s.cp s.calls
  visible : body.head? ≠ some space
  some_ : body = [] → es ≠ []

theorem Owned.refuse (owned : Owned held cp calls) (e : PcpErr) : Accounted held (refuse e cp calls) := by
  have negative := e.code_neg
  exact .emptied (by omega) owned.delete

theorem firstNonSpace_visible (input : Chars) : (firstNonSpace input).head? ≠ some space := by
  obtain ⟨_, _, _, visible⟩ := spaces_split input
  exact visible

/-- A round keeps the account or ends with it. -/
theorem Parsing.round {body : Chars} (parsing : Parsing held es body s) :
    (∃ es' s' body', parseTurn b alloc (body, s) = .again (body', s') ∧ Parsing held es' body' s') ∨
      ∃ r, parseTurn b alloc (body, s) = .leave r ∧ ∀ r', r = .ok r' → Accounted held r' := by
  by_cases blank : body = []
  · subst blank
    refine .inr ⟨_, rfl, fun r' left => ?_⟩
    cases left
    exact .filled parsing.collected (parsing.some_ rfl) parsing.owned
  rcases entry_cases blank parsing.visible with ⟨e, rest, entry⟩ | ⟨err, offends⟩ | cut
  · obtain ⟨keyStop, value, esc, scanned, -, stores⟩ := scanEntry_entry entry
    generalize appended : commandParametersAppend b alloc body keyStop value esc s = p
    obtain ⟨set, s'⟩ := p
    have owned := commandParametersAppend_owned parsing.collected stores parsing.owned appended
    cases set with
    | some err =>
      refine .inr ⟨_, parseTurn_failed b alloc blank scanned appended, fun r' left => ?_⟩
      cases left
      exact owned.refuse err
    | none =>
      obtain ⟨k, v, collected, -⟩ := commandParametersAppend_none parsing.collected stores appended
      refine .inl ⟨es ++ [(k, v)], s', _, parseTurn_appended b alloc blank scanned appended, ?_⟩
      exact ⟨collected, owned, firstNonSpace_visible rest, fun _ => by simp⟩
  · refine .inr ⟨_, parseTurn_refused b alloc s blank (scanEntry_offends offends), fun r' left => ?_⟩
    cases left
    exact parsing.owned.refuse err
  · refine .inr ⟨_, parseTurn_overread b alloc s blank (scanEntry_cutsOff cut), fun r' left => ?_⟩
    cases left

theorem Parsing.result {body : Chars} {r : ParseResult} (parsing : Parsing held es body s)
    (returned : (parseLoop b alloc).result (body, s) = .ok r) : Accounted held r := by
  have returns := (parseLoop b alloc).returns_result (body, s)
  rw [returned] at returns
  refine returns.invariant (I := fun t => ∃ es, Parsing held es t.1 t.2)
    (Q := fun x => ∀ r', x = .ok r' → Accounted held r') ?_ ?_ ⟨es, parsing⟩ r rfl
  · intro t t' inv next
    obtain ⟨body, s⟩ := t
    obtain ⟨es, parsing⟩ := inv
    rcases @Parsing.round b alloc es s held body parsing with ⟨es', s', body', turned, parsing'⟩ | ⟨r, left, -⟩
    · cases turned.symm.trans next
      exact ⟨es', parsing'⟩
    · cases left.symm.trans next
  · intro t x inv left
    obtain ⟨body, s⟩ := t
    obtain ⟨es, parsing⟩ := inv
    rcases @Parsing.round b alloc es s held body parsing with ⟨es', s', body', turned, -⟩ | ⟨r, left', accounted⟩
    · cases turned.symm.trans left
    · cases left'.symm.trans left
      exact accounted

/-- However a parse ends, it holds nothing or the blocks of its entries. -/
theorem parseString_accounted {input : Chars} {r : ParseResult} (start : Held held calls)
    (returned : parseString b alloc input calls = .ok r) : Accounted held r := by
  unfold parseString at returned
  dsimp only at returned
  generalize reserved : commandParametersReserve b alloc defaultCommandParameterReserveSize {} calls = p
    at returned
  obtain ⟨ok, cp, calls'⟩ := p
  have owned := (reserve_owned (owned_empty.mpr start) reserved).2
  cases ok with
  | false =>
    cases returned
    exact owned.refuse .outOfMemory
  | true =>
    dsimp only at returned
    split at returned
    · cases returned
      exact .emptied (Int.le_refl 0) owned.delete
    · next visible =>
      refine Parsing.result ⟨collected_nil defaultReserve_pos reserved, owned, firstNonSpace_visible input,
        fun blank => absurd blank visible⟩ returned

/-! ## The account of a call -/

/-- The blocks of the keys, and those of the values that are not null. -/
def CommandParameters.keyStrings (cp : CommandParameters) : List Nat :=
  (List.range cp.entries).flatMap fun i => stringBlock (cp.key i)

def CommandParameters.valueStrings (cp : CommandParameters) : List Nat :=
  (List.range cp.entries).flatMap fun i => stringBlock (cp.value i)

theorem strings_split : cp.strings.Perm (cp.keyStrings ++ cp.valueStrings) :=
  (List.flatMap_append_perm _ _ _).symm

theorem Slots.block {a : Option PtrArray} {n : Nat} {first : List (Option PoolString)} (slots : Slots a n first) :
    (arrayBlock a).length = 1 := by
  obtain ⟨block, rfl⟩ := slots
  rfl

theorem Collected.arrays_length (collected : Collected es s) : s.cp.arrays.length = 2 := by
  rw [CommandParameters.arrays, List.length_append, collected.keys.block, collected.values.block]

theorem Collected.keyStrings_length (collected : Collected es s) : s.cp.keyStrings.length = s.cp.entries := by
  unfold CommandParameters.keyStrings
  rw [List.length_flatMap, List.map_congr_left (g := fun _ => 1)]
  · simp
  · intro i listed
    rw [List.mem_range, collected.entries] at listed
    rw [collected.key, List.getElem?_eq_getElem listed]
    rfl

/-- Every block of a parse that fails is freed once; one that succeeds leaves
its arrays and strings, which one `CPDelete` frees once and a second does not
free again. -/
theorem cpParseCommandParameters_memory (b : Build) (alloc : Ledger → Nat → Nat) (params : Chars)
    (stale : CommandParameters) (calls : Ledger) (clean : Clean calls) (whole : ¬ CutOff params) :
    ∃ r cp, cpParseCommandParameters b alloc (some params) (some stale) calls = .ok r ∧ r.result = some cp ∧
      (r.ret ≤ 0 → cp = {} ∧ Settles calls r.calls) ∧
      (0 < r.ret → cp.arrays.length = 2 ∧ cp.keyStrings.length = r.ret ∧ Clean r.calls ∧
        (live r.calls).Perm (cp.arrays ++ (cp.keyStrings ++ cp.valueStrings) ++ live calls) ∧
        ∃ freed, cpDelete cp r.calls = ({}, freeAll freed r.calls) ∧
          freed.Perm (cp.arrays ++ (cp.keyStrings ++ cp.valueStrings)) ∧
          Settles calls (freeAll freed r.calls) ∧
          cpDelete {} (freeAll freed r.calls) = ({}, freeAll freed r.calls)) := by
  obtain ⟨out, parses⟩ := (parses_or_cutOff params).resolve_right whole
  obtain ⟨r, returned, -⟩ := parseString_parses b alloc calls parses
  cases parseString_accounted (held_live clean) returned with
  | @emptied ret calls' nonpos held =>
    refine ⟨_, {}, returned, rfl, fun _ => ⟨rfl, held.settles clean⟩, fun positive => ?_⟩
    exact absurd nonpos (Int.not_le.mpr positive)
  | @filled es s collected some_ owned =>
    have positive : 0 < s.cp.entries := by
      rw [collected.entries]
      exact List.length_pos_iff.mpr some_
    refine ⟨_, s.cp, returned, rfl, fun nonpos => ?_, fun _ => ⟨collected.arrays_length, ?_, owned.clean, ?_, ?_⟩⟩
    · dsimp only at nonpos
      omega
    · rw [collected.keyStrings_length]
    · rw [List.append_assoc]
      exact owned.live.trans ((strings_split.append_right _).append_left _)
    · refine ⟨s.cp.strings ++ s.cp.arrays, cpDelete_eq, ?_, ?_, rfl⟩
      · exact List.perm_append_comm.trans (strings_split.append_left _)
      · have settled := owned.delete
        rw [cpDelete_eq] at settled
        exact settled.settles clean

/-- `a=b c` -/
def twoEntries : Chars := [97, 61, 98, 32, 99]

theorem twoEntries_whole : ¬ CutOff twoEntries := by
  cases returned : parseString .target bump twoEntries [] with
  | error calls =>
    have ended : (parseString .target bump twoEntries []).isOk = true := by decide +kernel
    rw [returned] at ended
    cases ended
  | ok r =>
    have granted : Granted (parseCalls (parseString .target bump twoEntries [])) := by decide +kernel
    rw [returned] at granted
    exact not_cutOff_of_ok .target bump returned granted

/-- The first value cannot be allocated: the arrays and the key are freed. -/
theorem twoEntries_starved : ∃ r cp,
    cpParseCommandParameters .target (fun calls size => if calls.length = 3 then 0 else bump calls size)
      (some twoEntries) (some {}) [] = .ok r ∧ r.result = some cp ∧ r.ret = -2 ∧ cp = {} ∧ Settles [] r.calls := by
  obtain ⟨r, cp, returned, result, failed, -⟩ := cpParseCommandParameters_memory .target
    (fun calls size => if calls.length = 3 then 0 else bump calls size) twoEntries {} [] trivial twoEntries_whole
  have code : (cpParseCommandParameters .target (fun calls size => if calls.length = 3 then 0 else bump calls size)
      (some twoEntries) (some {}) []).map (·.ret) = .ok (-2) := by decide +kernel
  rw [returned] at code
  have code : r.ret = -2 := Except.ok.inj code
  obtain ⟨empty, settled⟩ := failed (by omega)
  exact ⟨r, cp, returned, result, code, empty, settled⟩

end Dyndxt.Params
