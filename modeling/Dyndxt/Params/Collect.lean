import Dyndxt.Params.Scan

/-!
# What a parse has collected

The two arrays hold the entries appended so far and are null from there on,
however often they have grown. Where a call refuses, an allocation has failed.
-/

namespace Dyndxt.Params
open Dyndxt.Pool

/-- The strings of an entry. -/
abbrev PoolEntry := PoolString × Option PoolString

/-- An array with room for `maxEntries` pointers and the given first ones. -/
def Slots (a : Option PtrArray) (maxEntries : Nat) (first : List (Option PoolString)) : Prop :=
  ∃ block, a = some ⟨block, first ++ List.replicate (maxEntries - first.length) none⟩

structure Collected (es : List PoolEntry) (s : ParseState) : Prop where
  entries : s.cp.entries = es.length
  room : es.length ≤ s.maxEntries
  positive : 0 < s.maxEntries
  keys : Slots s.cp.keys s.maxEntries (es.map fun e => some e.1)
  values : Slots s.cp.values s.maxEntries (es.map fun e => e.2)

variable {b : Build} {alloc : Ledger → Nat → Nat} {es : List PoolEntry} {s s' : ParseState}
  {cp cp' : CommandParameters} {calls calls' : Ledger} {a : Option PtrArray} {n m : Nat}
  {first : List (Option PoolString)}

/-! ## Arrays -/

/-- The pointer at an index. -/
theorem Slots.get (slots : Slots a n first) (i : Nat) :
    (a.bind fun a => a.slots[i]?.join) = first[i]?.join := by
  obtain ⟨block, rfl⟩ := slots
  rw [Option.bind_some]
  rcases Nat.lt_or_ge i first.length with inside | outside
  · rw [List.getElem?_append_left inside]
  · rw [List.getElem?_append_right outside, List.getElem?_eq_none outside, List.getElem?_replicate]
    split <;> rfl

/-- Writing the first null pointer. -/
theorem Slots.set (slots : Slots a n first) (room : first.length < n) (p : Option PoolString) :
    Slots (a.map fun a => a.set first.length p) n (first ++ [p]) := by
  obtain ⟨block, rfl⟩ := slots
  refine ⟨block, ?_⟩
  obtain ⟨k, more⟩ : ∃ k, n - first.length = k + 1 := ⟨n - first.length - 1, by omega⟩
  have fewer : n - (first ++ [p]).length = k := by
    rw [List.length_append, List.length_singleton]
    omega
  simp only [Option.map_some, PtrArray.set, more, fewer, List.replicate_succ]
  rw [List.set_append_right _ _ (Nat.le_refl _), Nat.sub_self, List.set_cons_zero, List.append_assoc]
  rfl

theorem Slots.set_last (slots : Slots a n (first ++ [none])) (p : Option PoolString) :
    Slots (a.map fun a => a.set first.length p) n (first ++ [p]) := by
  obtain ⟨block, rfl⟩ := slots
  refine ⟨block, ?_⟩
  simp only [Option.map_some, PtrArray.set, List.append_assoc, List.length_append, List.length_singleton]
  rw [List.set_append_right _ _ (Nat.le_refl _), Nat.sub_self, List.singleton_append, List.set_cons_zero,
    List.singleton_append]

/-- The pointers moved to a larger array. -/
theorem Slots.grow (slots : Slots a n first) (counted : cp.entries = first.length) (block : Nat) :
    Slots (some ((cp.moved a block).clear cp.entries m)) m first := by
  obtain ⟨old, rfl⟩ := slots
  refine ⟨block, ?_⟩
  simp [CommandParameters.moved, PtrArray.clear, counted]

theorem Slots.fresh (none_ : a = none) (counted : cp.entries = 0) (block : Nat) :
    Slots (some ((cp.moved a block).clear cp.entries m)) m [] := by
  refine ⟨block, ?_⟩
  simp [CommandParameters.moved, PtrArray.clear, counted, none_]

/-! ## Reserving -/

theorem served_freeArray (a : Option PtrArray) : Served calls (freeArray calls a) := by
  cases a with
  | none => exact .refl calls
  | some a => exact served_free

theorem commandParametersReserve_true
    (reserved : commandParametersReserve b alloc m cp calls = (true, cp', calls')) :
    Served calls calls' ∧ cp'.entries = cp.entries ∧
      (∃ block, cp'.keys = some ((cp.moved cp.keys block).clear cp.entries m)) ∧
      ∃ block, cp'.values = some ((cp.moved cp.values block).clear cp.entries m) := by
  unfold commandParametersReserve dmAllocatePoolWithTag at reserved
  dsimp only at reserved
  split at reserved
  · cases reserved
  · next newKeys =>
    split at reserved
    · cases reserved
    · next newValues =>
      cases reserved
      refine ⟨?_, rfl, ⟨_, rfl⟩, ⟨_, rfl⟩⟩
      refine Served.trans ?_ (served_freeArray _)
      refine Served.trans ?_ (served_alloc newValues)
      exact (served_alloc newKeys).trans (served_freeArray _)

theorem commandParametersReserve_false
    (failed : commandParametersReserve b alloc m cp calls = (false, cp', calls')) : Denied alloc calls calls' := by
  unfold commandParametersReserve dmAllocatePoolWithTag at failed
  dsimp only at failed
  split at failed
  · next null =>
    cases failed
    rw [null]
    exact denied_alloc null
  · next newKeys =>
    split at failed
    · next null =>
      cases failed
      rw [null]
      refine (denied_alloc null).later ?_
      exact ((served_alloc newKeys).trans (served_freeArray _)).suffix
    · cases failed

/-- The first reservation. -/
theorem collected_nil (positive : 0 < m)
    (reserved : commandParametersReserve b alloc m {} calls = (true, cp', calls')) :
    Collected [] { maxEntries := m, cp := cp', calls := calls' } := by
  obtain ⟨-, entries, ⟨kb, keys⟩, ⟨vb, values⟩⟩ := commandParametersReserve_true reserved
  constructor
  · exact entries
  · exact Nat.zero_le _
  · exact positive
  · rw [keys]
    exact .fresh rfl rfl kb
  · rw [values]
    exact .fresh rfl rfl vb

theorem reserve_true (collected : Collected es s) (reserved : s.reserve b alloc = (true, s')) :
    Collected es s' ∧ es.length < s'.maxEntries ∧ Served s.calls s'.calls := by
  unfold ParseState.reserve at reserved
  dsimp only at reserved
  split at reserved
  · next full =>
    generalize grown : commandParametersReserve b alloc (s.maxEntries * 2) s.cp s.calls = r at reserved
    obtain ⟨ok, cp', calls'⟩ := r
    cases reserved
    obtain ⟨later, entries, ⟨kb, keys⟩, ⟨vb, values⟩⟩ := commandParametersReserve_true grown
    have positive := collected.positive
    have counted := collected.entries
    refine ⟨⟨entries.trans counted, by dsimp only; omega, by dsimp only; omega, ?_, ?_⟩, by
      dsimp only; omega, later⟩
    · rw [keys]
      exact collected.keys.grow (by rw [counted, List.length_map]) kb
    · rw [values]
      exact collected.values.grow (by rw [counted, List.length_map]) vb
  · next some =>
    cases reserved
    have room := collected.room
    have counted := collected.entries
    exact ⟨collected, by omega, .refl _⟩

theorem reserve_false (failed : s.reserve b alloc = (false, s')) : Denied alloc s.calls s'.calls := by
  unfold ParseState.reserve at failed
  dsimp only at failed
  split at failed
  · generalize grown : commandParametersReserve b alloc (s.maxEntries * 2) s.cp s.calls = r at failed
    obtain ⟨ok, cp', calls'⟩ := r
    cases failed
    exact commandParametersReserve_false grown
  · cases failed

/-! ## Appending -/

theorem getElem?_map_join (es : List PoolEntry) (i : Nat) :
    (es.map fun e => some e.1)[i]?.join = es[i]?.map Prod.fst := by
  rw [List.getElem?_map]
  cases es[i]? <;> rfl

theorem Collected.key (collected : Collected es s) (i : Nat) : s.cp.key i = es[i]?.map Prod.fst := by
  rw [← getElem?_map_join]
  exact collected.keys.get i

theorem Collected.value (collected : Collected es s) (i : Nat) : s.cp.value i = es[i]?.bind Prod.snd := by
  have read := collected.values.get i
  rw [List.getElem?_map] at read
  refine read.trans ?_
  cases es[i]? <;> rfl

/-- The key is in and its value is not. -/
theorem Collected.snoc (collected : Collected es s) (more : es.length < s.maxEntries) (k : PoolString)
    (calls : Ledger) : Collected (es ++ [(k, none)])
      { s with
        cp := { s.cp.setKey es.length (some k) with
          entries := (s.cp.setKey es.length (some k)).entries + 1 }
        calls } := by
  have counted := collected.entries
  constructor
  · rw [List.length_append, List.length_singleton]
    exact congrArg (· + 1) counted
  · rw [List.length_append, List.length_singleton]
    exact more
  · exact collected.positive
  · have set := collected.keys.set (by rw [List.length_map]; exact more) (some k)
    rw [List.length_map] at set
    rw [List.map_append]
    exact set
  · obtain ⟨block, values⟩ := collected.values
    refine ⟨block, values.trans ?_⟩
    obtain ⟨n, rest⟩ : ∃ n, s.maxEntries - es.length = n + 1 := ⟨s.maxEntries - es.length - 1, by omega⟩
    have fewer : s.maxEntries - (es.length + 1) = n := by omega
    simp [rest, fewer, List.replicate_succ]

/-- The value is set. -/
theorem Collected.setLast {k : PoolString} (collected : Collected (es ++ [(k, none)]) s)
    (v : Option PoolString) (calls : Ledger) :
    Collected (es ++ [(k, v)]) { s with cp := s.cp.setValue es.length v, calls } := by
  constructor
  · rw [List.length_append, List.length_singleton]
    exact collected.entries.trans (List.length_append ..)
  · rw [List.length_append, List.length_singleton]
    have room := collected.room
    rwa [List.length_append, List.length_singleton] at room
  · exact collected.positive
  · have keys := collected.keys
    rw [List.map_append] at keys ⊢
    exact keys
  · have values := collected.values
    rw [List.map_append] at values ⊢
    have set := values.set_last v
    rw [List.length_map] at set
    exact set

/-- The last entry with the value that is stored. -/
theorem appendValue_none {value : Option (Chars × Chars)} {esc : Bool} {v : Option Chars} {k : PoolString}
    (collected : Collected (es ++ [(k, none)]) s) (stores : Stores value esc v)
    (appended : appendValue alloc value esc es.length s = (none, s')) :
    ∃ v', Collected (es ++ [(k, v')]) s' ∧ v'.map PoolString.chars = v ∧ Served s.calls s'.calls := by
  unfold appendValue dmAllocatePoolWithTag at appended
  cases stores with
  | null => cases appended; exact ⟨none, collected, rfl, .refl _⟩
  | empty p =>
    simp only [if_true] at appended
    cases appended
    exact ⟨none, collected, rfl, .refl _⟩
  | plain moved =>
    simp only [moved, if_false, if_true] at appended
    split at appended
    · cases appended
    · next some_ =>
      cases appended
      exact ⟨_, collected.setLast _ _, rfl, served_alloc some_⟩
  | unescaped moved text =>
    simp only [moved, text, if_false, if_true, Bool.true_eq_false] at appended
    split at appended
    · cases appended
    · next some_ =>
      cases appended
      exact ⟨_, collected.setLast _ _, rfl, served_alloc some_⟩

theorem appendValue_some {value : Option (Chars × Chars)} {esc : Bool} {v : Option Chars} {index : Nat}
    {err : PcpErr} (stores : Stores value esc v)
    (failed : appendValue alloc value esc index s = (some err, s')) :
    err = .outOfMemory ∧ Denied alloc s.calls s'.calls := by
  unfold appendValue dmAllocatePoolWithTag at failed
  cases stores with
  | null => cases failed
  | empty p =>
    simp only [if_true] at failed
    cases failed
  | plain moved =>
    simp only [moved, if_false, if_true] at failed
    split at failed
    · next null =>
      cases failed
      rw [null]
      exact ⟨rfl, denied_alloc null⟩
    · cases failed
  | unescaped moved text =>
    simp only [moved, text, if_false, if_true, Bool.true_eq_false] at failed
    split at failed
    · next null =>
      cases failed
      rw [null]
      exact ⟨rfl, denied_alloc null⟩
    · cases failed

theorem commandParametersAppend_none {keyStart keyStop : Chars} {value : Option (Chars × Chars)} {esc : Bool}
    {v : Option Chars} (collected : Collected es s) (stores : Stores value esc v)
    (appended : commandParametersAppend b alloc keyStart keyStop value esc s = (none, s')) :
    ∃ k v', Collected (es ++ [(k, v')]) s' ∧ k.chars = between keyStart keyStop ∧
      v'.map PoolString.chars = v ∧ Served s.calls s'.calls := by
  unfold commandParametersAppend dmAllocatePoolWithTag at appended
  split at appended
  · cases appended
  · next s₁ reserved =>
    obtain ⟨collected, more, grown⟩ := reserve_true collected reserved
    dsimp only at appended
    split at appended
    · cases appended
    · next some_ =>
      rw [collected.entries] at appended
      have keyed := collected.snoc more ⟨alloc s₁.calls ((1 + (between keyStart keyStop).length) % 2 ^ 32),
        between keyStart keyStop⟩ (.alloc ((1 + (between keyStart keyStop).length) % 2 ^ 32)
          (alloc s₁.calls ((1 + (between keyStart keyStop).length) % 2 ^ 32)) :: s₁.calls)
      obtain ⟨v', whole, text, later⟩ := appendValue_none keyed stores appended
      exact ⟨_, v', whole, rfl, text, grown.trans ((served_alloc some_).trans later)⟩

theorem commandParametersAppend_some {keyStart keyStop : Chars} {value : Option (Chars × Chars)} {esc : Bool}
    {v : Option Chars} {err : PcpErr} (collected : Collected es s) (stores : Stores value esc v)
    (failed : commandParametersAppend b alloc keyStart keyStop value esc s = (some err, s')) :
    err = .outOfMemory ∧ Denied alloc s.calls s'.calls := by
  unfold commandParametersAppend dmAllocatePoolWithTag at failed
  split at failed
  · next s₁ unreserved =>
    cases failed
    exact ⟨rfl, reserve_false unreserved⟩
  · next s₁ reserved =>
    obtain ⟨-, -, grown⟩ := reserve_true collected reserved
    dsimp only at failed
    split at failed
    · next null =>
      cases failed
      rw [null]
      exact ⟨rfl, (denied_alloc null).later grown.suffix⟩
    · next some_ =>
      obtain ⟨oom, denied⟩ := appendValue_some stores failed
      exact ⟨oom, denied.later (grown.trans (served_alloc some_)).suffix⟩

end Dyndxt.Params
