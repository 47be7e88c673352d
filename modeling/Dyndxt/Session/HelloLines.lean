import Dyndxt.Params.Digits
import Dyndxt.Registry.FullWalk
import Dyndxt.Session.ExportCommand

/-!
# The lines of `hello`

`SendMethodAddresses` prints an export as a line of seven fields. A client
that splits the lines again has the registry, and each line has what an
`export` needs to register the same export somewhere else.
-/

namespace Dyndxt.Session
open Dyndxt.Pool Dyndxt.Params Dyndxt.Registry Dyndxt.Loader

/-- `%d` of an unsigned word. -/
def signedDecimal (v : UInt32) : Chars :=
  if v.toNat < 2 ^ 31 then decimal v.toNat else 0x2D :: decimal (2 ^ 32 - v.toNat)

/-- `%08X` -/
def paddedHex (v : UInt32) : Chars := List.replicate (8 - (upperHex v.toNat).length) 0x30 ++ upperHex v.toNat

/-- A name, or the empty string in place of a null pointer. -/
def nameText (name : Option PoolString) : Chars := (name.map PoolString.chars).getD []

/-- `%s @ %d %s %s = 0x%08X` -/
def lineText (found : List UInt8 × ModuleExport) : Chars :=
  found.1 ++ ascii " @ " ++ signedDecimal found.2.ordinal ++ ascii " " ++ nameText found.2.methodName ++ ascii " " ++
    nameText found.2.alias_ ++ ascii " = 0x" ++ paddedHex found.2.address

/-- The lines that are sent until there are no more. -/
def readLines : Nat → CommandContext → ContextStore → ModuleRegistry → Option (List Chars)
  | 0, _, _, _ => none
  | n + 1, ctx, store, registry => match sendMethodAddresses ctx store registry with
    | none => none
    | some o => match o.line with
      | none => some []
      | some found => (readLines n o.ctx o.store o.registry).map (lineText found :: ·)

/-- The fields of a line. -/
def lineFields (found : List UInt8 × ModuleExport) : List Chars :=
  [found.1, ascii "@", signedDecimal found.2.ordinal, nameText found.2.methodName, nameText found.2.alias_, ascii "=",
    0x30 :: 0x78 :: paddedHex found.2.address]

/-- A name as a parameter, if it is not empty. -/
def namePair (key name : Chars) : List Entry := if name = [] then [] else [⟨key, some name⟩]

/-- The parameters of an `export`, from the fields of a line. -/
def sentBack : List Chars → List Entry
  | [moduleName, _, ordinal, methodName, alias_, _, address] =>
    ⟨ascii "module", some moduleName⟩ :: (namePair (ascii "name") methodName ++ (namePair (ascii "alias") alias_ ++
      [⟨ascii "ordinal", some ordinal⟩, ⟨ascii "addr", some address⟩]))
  | _ => []

/-- The export of a line, as a request. -/
def lineRequest (found : List UInt8 × ModuleExport) : ExportRequest where
  moduleName := found.1
  methodName := found.2.methodName.map PoolString.chars
  alias_ := found.2.alias_.map PoolString.chars
  ordinal := found.2.ordinal
  address := found.2.address

/-- No name has a space in it, and those that are there are not empty. -/
structure Plain (found : List UInt8 × ModuleExport) : Prop where
  moduleName : space ∉ found.1
  methodName : ∀ name ∈ found.2.methodName, name.chars ≠ [] ∧ space ∉ name.chars
  alias_ : ∀ name ∈ found.2.alias_, name.chars ≠ [] ∧ space ∉ name.chars

variable {found : List UInt8 × ModuleExport} {v : UInt32} {n : Nat} {key name : Chars} {es : List Entry}
  {r : ModuleRegistry} {ctx : CommandContext} {store : ContextStore} {passed ahead : List Slot}

/-! ## Numbers -/

theorem prints_decimal : Prints 10 fun c => UInt8.ofNat c.toNat := ⟨by decide, by decide⟩

theorem prints_upperHex : Prints 16 fun c => UInt8.ofNat c.toUpper.toNat := ⟨by decide, by decide⟩

/-- The ordinal reads back as it is, also where `%d` prints it negative. -/
theorem spells_signedDecimal (v : UInt32) : Spells (signedDecimal v) v := by
  have small := v.toNat_lt
  unfold signedDecimal
  split
  · refine ⟨false, v.toNat, (prints_decimal.decimal v.toNat).literal .absent, by omega, ?_⟩
    unfold literalValue
    rw [if_neg Bool.false_ne_true]
    omega
  · refine ⟨true, 2 ^ 32 - v.toNat, (prints_decimal.decimal (2 ^ 32 - v.toNat)).literal .minus, by omega, ?_⟩
    unfold literalValue
    rw [if_pos rfl]
    omega

theorem numeral_paddedHex (v : UInt32) : Numeral (0x30 :: 0x78 :: paddedHex v) v.toNat := prints_upperHex.hex _ v.toNat

theorem spells_paddedHex (v : UInt32) : Spells (0x30 :: 0x78 :: paddedHex v) v := by
  have small := v.toNat_lt
  refine ⟨false, v.toNat, (numeral_paddedHex v).literal .absent, by omega, ?_⟩
  unfold literalValue
  rw [if_neg Bool.false_ne_true]
  omega

/-! ## One line -/

theorem visible_signedDecimal (v : UInt32) : space ∉ signedDecimal v := by
  unfold signedDecimal
  split
  · exact (prints_decimal.decimal _).visible
  · exact List.not_mem_cons_of_ne_of_not_mem (by decide) (prints_decimal.decimal _).visible

theorem visible_nameText {name : Option PoolString} (plain : ∀ s ∈ name, s.chars ≠ [] ∧ space ∉ s.chars) :
    space ∉ nameText name := by
  cases name with
  | none => exact List.not_mem_nil
  | some s => exact (plain s rfl).2

theorem lineText_eq (found : List UInt8 × ModuleExport) : lineText found = [space].intercalate (lineFields found) := by
  have at_ : ascii " @ " = [space] ++ (ascii "@" ++ [space]) := by decide +kernel
  have blank : ascii " " = [space] := by decide +kernel
  have equals : ascii " = 0x" = [space] ++ (ascii "=" ++ ([space] ++ [0x30, 0x78])) := by decide +kernel
  unfold lineText lineFields
  rw [at_, blank, equals]
  simp only [List.intercalate_cons_cons, List.intercalate_singleton, List.append_assoc, List.cons_append, List.nil_append]

/-- A line of plain names is split into its fields. -/
theorem splitOn_lineText (plain : Plain found) : (lineText found).splitOn space = lineFields found := by
  rw [lineText_eq]
  refine List.splitOn_intercalate space ?_ (List.cons_ne_nil _ _)
  unfold lineFields
  simp only [List.forall_mem_cons, List.not_mem_nil, false_implies, implies_true, and_true]
  exact ⟨plain.moduleName, by decide +kernel, visible_signedDecimal _, visible_nameText plain.methodName,
    visible_nameText plain.alias_, by decide +kernel, (numeral_paddedHex _).visible⟩

/-! ## A line sent back -/

theorem firstBinding_cons {k : Chars} {e : Entry} :
    firstBinding k (e :: es) = if e.key = k then (e.value.isSome, e.value) else firstBinding k es := by
  unfold firstBinding
  by_cases same : e.key = k <;> simp [same]

theorem firstBinding_namePair {k : Chars} : firstBinding k (namePair key name ++ es) =
    if key = k ∧ name ≠ [] then (true, some name) else firstBinding k es := by
  unfold namePair
  by_cases empty : name = []
  · rw [if_pos empty, if_neg fun both => both.2 empty]
    rfl
  · rw [if_neg empty, List.singleton_append, firstBinding_cons]
    simp [empty]

/-- A plain name is found if there is one. -/
theorem found_nameText {name : Option PoolString} (plain : ∀ s ∈ name, s.chars ≠ [] ∧ space ∉ s.chars)
    (none_ : (firstBinding key es).2 = none) :
    (if key = key ∧ nameText name ≠ [] then (true, some (nameText name)) else firstBinding key es).2 =
      name.map PoolString.chars := by
  cases name with
  | none =>
    rw [if_neg fun both => both.2 rfl]
    exact none_
  | some s => rw [if_pos ⟨rfl, (plain s rfl).1⟩]; rfl

/-- The fields of a line ask for the export it was printed from. -/
theorem askedBy_sentBack (plain : Plain found) : (lineRequest found).AskedBy (sentBack (lineFields found)) := by
  have distinct : exportKeys.Nodup := by decide +kernel
  unfold exportKeys at distinct
  simp only [List.nodup_cons, List.mem_cons, List.not_mem_nil, or_false, not_or] at distinct
  obtain ⟨⟨mn, ma, mo, md⟩, ⟨na, no, nd⟩, ⟨ao, ad⟩, od, -⟩ := distinct
  unfold sentBack lineFields
  constructor
  · rw [firstBinding_cons, if_pos rfl]
    rfl
  · rw [firstBinding_cons, if_neg mn, firstBinding_namePair]
    refine found_nameText plain.methodName ?_
    rw [firstBinding_namePair, if_neg fun both => na both.1.symm, firstBinding_cons, if_neg (Ne.symm no),
      firstBinding_cons, if_neg (Ne.symm nd)]
    rfl
  · rw [firstBinding_cons, if_neg ma, firstBinding_namePair, if_neg fun both => na both.1, firstBinding_namePair]
    refine found_nameText plain.alias_ ?_
    rw [firstBinding_cons, if_neg (Ne.symm ao), firstBinding_cons, if_neg (Ne.symm ad)]
    rfl
  · refine ⟨_, ?_, spells_signedDecimal _⟩
    rw [firstBinding_cons, if_neg mo, firstBinding_namePair, if_neg fun both => no both.1, firstBinding_namePair,
      if_neg fun both => ao both.1, firstBinding_cons, if_pos rfl]
    rfl
  · refine ⟨_, ?_, spells_paddedHex _⟩
    rw [firstBinding_cons, if_neg md, firstBinding_namePair, if_neg fun both => nd both.1, firstBinding_namePair,
      if_neg fun both => ad both.1, firstBinding_cons, if_neg od, firstBinding_cons, if_pos rfl]
    rfl

/-! ## All the lines -/

/-- Every export with its module. -/
def entriesOf (c : Contents) : List Registration := c.flatMap fun m => m.2.map (Prod.mk m.1)

theorem slots_entriesOf (c : Contents) : (entriesOf c).map foundSlot = c.slots := by
  unfold entriesOf Contents.slots
  rw [List.map_flatMap]
  refine List.flatMap_congr fun m _ => ?_
  rw [List.map_map]
  rfl

/-- Every export listed is found. -/
theorem find_entriesOf {c : Contents} (valid : c.Valid) (listed : found ∈ entriesOf c) :
    c.find found.1 found.2.ordinal = some found.2 := by
  obtain ⟨m, module_, paired⟩ := List.mem_flatMap.mp listed
  obtain ⟨e, exported, rfl⟩ := List.mem_map.mp paired
  rw [Contents.find, Map.row_of_mem valid.names module_, Option.bind_some]
  exact Map.row_of_mem (valid.ordinals m module_) exported

theorem mem_entriesOf {table : ModuleExportTable} {node : ExportNode} (listed : table ∈ r.exportTable)
    (exported : node ∈ table.exports) : (table.name, node.entry) ∈ entriesOf r.contents := by
  refine List.mem_flatMap.mpr ⟨table.contents, List.mem_map_of_mem listed, ?_⟩
  exact List.mem_map_of_mem (List.mem_map_of_mem exported)

/-- What a walk returns is in the registry. -/
theorem walked_mem {cursor cursor' : ModuleRegistryCursor} (sturdy : Sturdy r.exportTable)
    (stands : Stands r.exportTable cursor passed ahead)
    (read : mrEnumerateRegistry cursor r = some (some found, cursor')) : found ∈ entriesOf r.contents := by
  cases stands with
  | finished export_ => cases read
  | @at_ done later table first last node whole nodes =>
    have listed : table ∈ r.exportTable := by rw [whole]; simp
    have exported : node ∈ table.exports := by rw [nodes]; simp
    have some_ : ¬ (table.block = 0 ∨ node.block = 0) := by
      rw [not_or]
      exact ⟨sturdy.tableSome table listed, sturdy.nodeSome table listed node exported⟩
    unfold mrEnumerateRegistry at read
    rw [if_neg some_, tableAt_eq sturdy whole, nodeAt_eq sturdy whole nodes] at read
    have same : found = (table.name, node.entry) := by
      cases last with
      | cons next last => cases read; rfl
      | nil => cases later <;> cases read <;> rfl
    rw [same]
    exact mem_entriesOf listed exported

theorem sendMethodAddresses_line {cursor' : ModuleRegistryCursor} (userData : ctx.userData = .contextStore)
    {line : Option (List UInt8 × ModuleExport)} (read : mrEnumerateRegistry store.cursor r = some (line, cursor')) :
    ∃ o, sendMethodAddresses ctx store r = some o ∧ o.line = line ∧ o.ctx = ctx ∧ o.store.cursor = cursor' ∧
      o.registry = r := by
  unfold sendMethodAddresses
  rw [if_neg (not_not.mpr userData), read]
  cases line <;> exact ⟨_, rfl, rfl, rfl, rfl, rfl⟩

/-- From its place a listing prints what is ahead. -/
theorem readLines_stands (ctx : CommandContext) (store : ContextStore) (sturdy : Sturdy r.exportTable)
    (stands : Stands r.exportTable store.cursor passed ahead) (userData : ctx.userData = .contextStore) : ∃ founds : List (List UInt8 × ModuleExport),
      founds.map foundSlot = ahead ∧ (∀ found ∈ founds, found ∈ entriesOf r.contents) ∧
      ∀ n, ahead.length ≤ n → readLines (n + 1) ctx store r = some (founds.map lineText) := by
  induction ahead generalizing store passed with
  | nil =>
    rcases stands.next sturdy with ⟨-, ended⟩ | ⟨name, e, rest, cursor', some_, -⟩
    · obtain ⟨o, sent, line, -⟩ := sendMethodAddresses_line userData ended
      refine ⟨[], rfl, nofun, fun n _ => ?_⟩
      rw [readLines, sent]
      dsimp only
      rw [line]
      rfl
    · cases some_
  | cons slot ahead ih =>
    rcases stands.next sturdy with ⟨null, -⟩ | ⟨name, e, rest, cursor', some_, read, stands'⟩
    · cases stands.null sturdy null
    · cases some_
      obtain ⟨o, sent, line, ctx', cursor, registry⟩ := sendMethodAddresses_line userData read
      rw [← cursor] at stands'
      obtain ⟨founds, slots, listed, lines⟩ := ih o.store stands'
      refine ⟨(name, e) :: founds, congrArg (_ :: ·) slots, ?_, fun n enough => ?_⟩
      · exact List.forall_mem_cons.mpr ⟨walked_mem sturdy stands read, listed⟩
      · rw [List.length_cons] at enough
        obtain ⟨n, rfl⟩ := Nat.exists_eq_add_of_le' (Nat.one_le_of_lt enough)
        rw [readLines, sent]
        dsimp only
        rw [line]
        dsimp only
        rw [ctx', registry, lines n (by omega)]
        rfl

/-- Rows that are among others and have the same distinct keys, in the same
order, are they. -/
theorem eq_of_keys {α β : Type} {key : α → β} {xs ys : List α} (among : ∀ x ∈ xs, x ∈ ys)
    (same : xs.map key = ys.map key) (distinct : (ys.map key).Nodup) : xs = ys := by
  have injective := List.inj_on_of_nodup_map distinct
  refine List.ext_getElem (by simpa using congrArg List.length same) fun i lt lt' => ?_
  refine injective (among _ (List.getElem_mem lt)) (List.getElem_mem lt') ?_
  have at_ := congrArg (·[i]?) same
  simpa [lt, lt'] using at_

/-- After any history whose allocations succeeded, and which has left
something registered, a `hello` lists every export on a line of its own; a
line of plain names is split into fields that ask for the same export again. -/
theorem hello_lists (b : Build) (alloc : Ledger → Nat → Nat) (history : List RegistryCall) (r : ModuleRegistry)
    (ctx : CommandContext) (store : ContextStore) (reached : execOwnedAll b alloc history {} = .ok r)
    (granted : Granted r.calls) (fresh : Fresh r.calls) (some_ : sinceReset history ≠ []) :
    ∃ o, handleHello ctx store r = some o ∧
      (∀ n, (entriesOf r.contents).length ≤ n →
        readLines (n + 1) o.ctx o.store r = some ((entriesOf r.contents).map lineText)) ∧
      ∀ found ∈ entriesOf r.contents, r.contents.find found.1 found.2.ordinal = some found.2 ∧
        (Plain found → (lineText found).splitOn space = lineFields found ∧
          (lineRequest found).AskedBy (sentBack ((lineText found).splitOn space))) := by
  have ends := @execOwnedAll_sound b alloc {} [] history fun _ => sound_empty
  rw [reached] at ends
  have sound : Sound (sinceReset history) r := ends.2 granted
  have sturdy := sound.sturdy fresh
  have valid : r.contents.Valid := by
    rw [sound.contents]
    exact contentsOf_valid _
  have slots : r.contents.slots ≠ [] := by
    intro none
    obtain ⟨reg, regs, whole⟩ := List.exists_cons_of_ne_nil some_
    have listed : (reg.1, reg.2.ordinal) ∈ slotsOf (sinceReset history) := by rw [whole]; exact List.mem_cons_self
    rw [slotsOf, ← mem_slots_contentsOf, ← sound.contents, none] at listed
    cases listed
  obtain ⟨cursor, begun, stands⟩ := mrEnumerateRegistryBegin_stands sturdy slots
  have keys : (entriesOf r.contents).map foundSlot = r.contents.slots := slots_entriesOf _
  obtain ⟨founds, walked, among, lines⟩ := readLines_stands
    { ctx with userData := .contextStore, handler := some .sendMethodAddresses } (store.setCursor cursor) sturdy stands rfl
  have all := eq_of_keys among (walked.trans keys.symm) (by rw [keys]; exact valid.nodup_slots)
  subst all
  refine ⟨_, by rw [handleHello, begun], fun n enough => lines n ?_, fun found listed => ?_⟩
  · rwa [← walked, List.length_map]
  · refine ⟨find_entriesOf valid listed, fun plain => ?_⟩
    rw [splitOn_lineText plain]
    exact ⟨rfl, askedBy_sentBack plain⟩

/-- A module with one named export. -/
def namedExport : List RegistryCall := [.register [0x6D] ⟨1, some ⟨64, [0x66]⟩, none, 0x8000⟩]

/-- `m @ 1 f  = 0x00008000` -/
theorem namedExport_listed : ∃ r o, execOwnedAll .target bump namedExport {} = .ok r ∧ handleHello {} {} r = some o ∧
    readLines 2 o.ctx o.store r = some [ascii "m @ 1 f  = 0x00008000"] := by
  have outcome : (execOwnedAll .target bump namedExport {}).map (fun r =>
      (decide (Granted r.calls ∧ Fresh r.calls), (entriesOf r.contents).map lineText)) =
      .ok (true, [ascii "m @ 1 f  = 0x00008000"]) := by decide +kernel
  cases reached : execOwnedAll .target bump namedExport {} with
  | error calls => rw [reached] at outcome; cases outcome
  | ok r =>
    rw [reached] at outcome
    obtain ⟨served, text⟩ := Prod.mk.inj (Except.ok.inj outcome)
    obtain ⟨granted, fresh⟩ := of_decide_eq_true served
    obtain ⟨o, began, lines, -⟩ := hello_lists .target bump namedExport r {} {} reached granted fresh (by decide)
    refine ⟨r, o, rfl, began, ?_⟩
    rw [lines 1 (by rw [← List.length_map lineText, text]; rfl), text]

end Dyndxt.Session
