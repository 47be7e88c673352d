import Dyndxt.Run.Recurrence
import Dyndxt.Bootstrap.ParseArg
import Dyndxt.Bootstrap.Arguments

/-!
# The argument loop

A round of `.loop_base_or_ordinal` does with the registers what the reading of
the argument at `esi` says, as long as what is stored stays in the block.
-/

namespace Dyndxt.Bootstrap
open Dyndxt.Mem Dyndxt.Run Dyndxt.Pool Dyndxt.Loader
open Dyndxt.Params (numeral)

/-! ## The block -/

/-- The bytes that the handler writes: those of the block at `buffer`, and those
of the context. -/
def Written (buffer ctx q : UInt32) : Prop :=
  buffer.toNat ≤ q.toNat ∧ q.toNat < buffer.toNat + 4 * 128 ∨ ctx.toNat ≤ q.toNat ∧ q.toNat < ctx.toNat + 24

instance (buffer ctx q : UInt32) : Decidable (Written buffer ctx q) := inferInstanceAs (Decidable (_ ∨ _))

/-- Two memories that agree on all other bytes. -/
def Outside (buffer ctx : UInt32) (m m' : Bytes) : Prop := ∀ q, ¬ Written buffer ctx q → load8 m' q = load8 m q

/-- The block and the context are places in the address space, apart from each
other. -/
structure Placed (buffer ctx : UInt32) : Prop where
  room : buffer.toNat + 4 * 128 < 2 ^ 32
  ctxRoom : ctx.toNat + 24 ≤ 2 ^ 32
  apart : ctx.toNat + 24 ≤ buffer.toNat ∨ buffer.toNat + 4 * 128 ≤ ctx.toNat

instance (buffer ctx : UInt32) : Decidable (Placed buffer ctx) :=
  decidable_of_iff (_ ∧ _ ∧ _) ⟨fun ⟨room, ctxRoom, apart⟩ => ⟨room, ctxRoom, apart⟩, fun h => ⟨h.room, h.ctxRoom, h.apart⟩⟩

/-- How many entries the block takes. -/
def capacity (buffer : UInt32) : Nat := if buffer = 0 then 0 else 128

/-- The specifiers and the rest of the arguments are in memory, apart from what
is written. -/
structure Standing (labels : Labels) (buffer ctx : UInt32) (m : Bytes) (esi : UInt32) (text : List UInt8) : Prop where
  base : BytesAt m labels.gBaseArg baseArg
  ordinal : BytesAt m labels.gOrdinalArg ordinalArg
  argument : TextAt m esi text
  baseClear : ∀ i < 2, ¬ Written buffer ctx (labels.gBaseArg + .ofNat i)
  ordinalClear : ∀ i < 2, ¬ Written buffer ctx (labels.gOrdinalArg + .ofNat i)
  textClear : ∀ i ≤ text.length, ¬ Written buffer ctx (esi + .ofNat i)

/-! ## Entries -/

/-- One more entry, counted in the context. -/
def countEntry (m : Bytes) (ctx : UInt32) : Bytes :=
  storeDword m (ctx + bytesRemainingOffset) (load m (ctx + bytesRemainingOffset) + 4)

/-- An entry resolved and stored to `[ebx]`. -/
def Target.store (t : Target) (ctx ebx : UInt32) (entry : Entry) : Target :=
  { t with memory := countEntry (storeDword t.memory ebx (getExportAddress t.memory entry.1 entry.2).2) ctx }

/-- The entries stored to `[ebx]` and up, each resolved in the memory as it is
then. -/
def Target.storeAll (t : Target) (ctx ebx : UInt32) : List Entry → Target
  | [] => t
  | entry :: entries => (t.store ctx ebx entry).storeAll ctx (ebx + 4) entries

/-- What `parse_arg` leaves in `eax` and `esi`. -/
def ResolveState.after (s : ResolveState) (arg : ParsedArg) : ResolveState := { s with eax := arg.eax, esi := arg.esi }

/-- What a round does where it has read no base. -/
def ordinalTurn (labels : Labels) (budget : Nat) (ctx : UInt32) (s : ResolveState) :
    Turn ResolveState (Option (Bool × ResolveState)) :=
  if s.edx = 0 then .leave (some (false, s))
  else match parseArg budget s.target.memory s.eax s.esi labels.gOrdinalArg argLen with
    | none => .leave none
    | some arg =>
      if arg.ecx ≠ 0 ∨ arg.eax = 0 then .leave (some (false, s.after arg))
      else if s.ebx = 0 then .leave none
      else checkSpace (storeExport ctx (s.after arg))

/-- What a round does, by the reading of its argument. An entry is not written
through a null pointer. -/
def Follows (ctx : UInt32) (s : ResolveState) (text : List UInt8)
    (turn : Turn ResolveState (Option (Bool × ResolveState))) : Reading → Prop
  | .refused => ∃ s', turn = .leave (some (false, s')) ∧ s'.ebx = s.ebx ∧ s'.target = s.target
  | .endless => turn = .leave none
  | .taken edx entries rest =>
    if s.ebx = 0 ∧ entries ≠ [] then turn = .leave none
    else ∃ s', turn = checkSpace s' ∧ s'.edx = edx ∧ s'.esi = behind s.esi text rest ∧
      s'.ebx = s.ebx + .ofNat (4 * entries.length) ∧ s'.target = s.target.storeAll ctx s.ebx entries

/-- The loop is at an argument, with `k` entries stored. -/
structure At (labels : Labels) (buffer ctx : UInt32) (s : ResolveState) (edx esi : UInt32) (text : List UInt8) (k : Nat) :
    Prop where
  base : s.edx = edx
  pointer : s.esi = esi
  slot : s.ebx = buffer + .ofNat (4 * k)
  stored : k ≤ capacity buffer
  standing : Standing labels buffer ctx s.target.memory esi text

/-- Up to the pointer in `ebx` no more is written than the block holds. -/
def Within (buffer : UInt32) (s : ResolveState) : Prop := (s.ebx - buffer).toNat ≤ 4 * 128

def LeavesWithin (buffer : UInt32) (r : Option (Bool × ResolveState)) : Prop :=
  ∀ valid s, r = some (valid, s) → Within buffer s

/-- What the loop leaves with, by the result of the walk. -/
def Ends (t : Target) (r : Option (Bool × ResolveState)) : Option Bool → Prop
  | none => r = none
  | some valid => ∃ s', r = some (valid, s') ∧ s'.target = t

/-- The loop ends within a round for each byte of the text, and stays in the
block. -/
structure Runs (labels : Labels) (buffer ctx : UInt32) (budget : Nat) (s : ResolveState) (text : List UInt8)
    (entries : List Entry) (result : Option Bool) : Prop where
  ends : ∃ r, run (resolveTurn labels budget ctx) (text.length + 1) s = .leave r ∧
    Ends (s.target.storeAll ctx s.ebx entries) r result
  within : ∀ n, (run (resolveTurn labels budget ctx) n s).Holds (Within buffer) (LeavesWithin buffer)

variable {labels : Labels} {buffer ctx edx edx' esi edi eax ebx v : UInt32} {m m' : Bytes} {spec text rest more : List UInt8}
  {entries later : List Entry} {entry : Entry} {t : Target} {s s' : ResolveState} {budget i k : Nat}

theorem four_times (n : Nat) : ebx + 4 + .ofNat (4 * n) = ebx + .ofNat (4 * (n + 1)) := by
  rw [UInt32.add_assoc, Nat.mul_succ, Nat.add_comm (4 * n), UInt32.ofNat_add]
  rfl

theorem Target.storeAll_append :
    (t.storeAll ctx ebx entries).storeAll ctx (ebx + .ofNat (4 * entries.length)) later =
      t.storeAll ctx ebx (entries ++ later) := by
  induction entries generalizing t ebx with
  | nil =>
    rw [List.length_nil, Nat.mul_zero, advance_zero]
    rfl
  | cons entry entries ih =>
    rw [List.length_cons, ← four_times]
    exact ih

/-- Only the memory changes. -/
theorem Target.storeAll_spares : ∃ memory, t.storeAll ctx ebx entries = { t with memory } := by
  induction entries generalizing t ebx with
  | nil => exact ⟨t.memory, rfl⟩
  | cons entry entries ih =>
    obtain ⟨memory, same⟩ := @ih (ebx + 4) (t.store ctx ebx entry)
    exact ⟨memory, same⟩

theorem next_slot (buffer : UInt32) (k : Nat) : buffer + .ofNat (4 * k) + 4 = buffer + .ofNat (4 * (k + 1)) := by
  rw [UInt32.add_assoc, Nat.mul_succ, UInt32.ofNat_add]
  rfl

/-- The slots of the block, as numbers. -/
theorem slot_toNat (room : buffer.toNat + 4 * 128 < 2 ^ 32) (le : k ≤ 128) :
    (buffer + .ofNat (4 * k)).toNat = buffer.toNat + 4 * k := by
  rw [address_add]
  exact Nat.mod_eq_of_lt (by show _ < 2 ^ 32; omega)

/-- The field at an offset of the context. -/
theorem field_toNat (ctxRoom : ctx.toNat + 24 ≤ 2 ^ 32) {d : UInt32} (inside : d.toNat < 24) :
    (ctx + d).toNat = ctx.toNat + d.toNat := by
  rw [UInt32.toNat_add]
  exact Nat.mod_eq_of_lt (by omega)

theorem load_storeDword (m : Bytes) (p v : UInt32) : load (storeDword m p v) p = v := u32_store32_same (by decide)

theorem load_storeDword_apart {p q : UInt32} (fitsP : p.toNat + 4 ≤ 2 ^ 32) (fitsQ : q.toNat + 4 ≤ 2 ^ 32)
    (apart : p.toNat + 4 ≤ q.toNat ∨ q.toNat + 4 ≤ p.toNat) : load (storeDword m p v) q = load m q :=
  u32_store32_apart fitsP fitsQ apart

theorem load8_storeDword {p q : UInt32} (fits : p.toNat + 4 ≤ 2 ^ 32) (outside : q.toNat < p.toNat ∨ p.toNat + 4 ≤ q.toNat) :
    load8 (storeDword m p v) q = load8 m q := store32_apply_outside fits q.toNat_lt outside

theorem load_congr {p : UInt32} (same : ∀ i < 4, load8 m' (p + .ofNat i) = load8 m (p + .ofNat i)) :
    load m' p = load m p := by
  refine u32_congr fun i lt => ?_
  have byte := same i lt
  rwa [load8, load8, address_add] at byte

/-- The counter is in the context. -/
theorem countEntry_outside (ctxRoom : ctx.toNat + 24 ≤ 2 ^ 32) {q : UInt32}
    (clear : q.toNat < ctx.toNat + 20 ∨ ctx.toNat + 24 ≤ q.toNat) : load8 (countEntry m ctx) q = load8 m q := by
  have at_ := field_toNat ctxRoom (d := bytesRemainingOffset) (by decide)
  have d : bytesRemainingOffset.toNat = 20 := rfl
  exact load8_storeDword (by omega) (by omega)

theorem load_countEntry (ctxRoom : ctx.toNat + 24 ≤ 2 ^ 32) {q : UInt32} (fits : q.toNat + 4 ≤ 2 ^ 32)
    (clear : q.toNat + 4 ≤ ctx.toNat + 20 ∨ ctx.toNat + 24 ≤ q.toNat) : load (countEntry m ctx) q = load m q := by
  have at_ := field_toNat ctxRoom (d := bytesRemainingOffset) (by decide)
  have d : bytesRemainingOffset.toNat = 20 := rfl
  exact load_storeDword_apart (by omega) fits (by omega)

/-- An entry is written to the block and counted in the context. -/
theorem store_outside (placed : Placed buffer ctx) (lt : k < 128) :
    Outside buffer ctx t.memory (t.store ctx (buffer + .ofNat (4 * k)) entry).memory := by
  intro q clear
  have room := placed.room
  have slot := slot_toNat room (Nat.le_of_lt lt)
  unfold Written at clear
  refine (countEntry_outside placed.ctxRoom (by omega)).trans (load8_storeDword ?_ ?_)
  · rw [slot]
    omega
  · rw [slot]
    omega

/-- So are all of them. -/
theorem storeAll_outside (placed : Placed buffer ctx) (few : k + entries.length ≤ 128) :
    Outside buffer ctx t.memory (t.storeAll ctx (buffer + .ofNat (4 * k)) entries).memory := by
  induction entries generalizing t k with
  | nil => exact fun q _ => rfl
  | cons entry entries ih =>
    intro q clear
    rw [List.length_cons] at few
    have rest := @ih (t.store ctx (buffer + .ofNat (4 * k)) entry) (k + 1) (by omega) q clear
    rw [Target.storeAll, next_slot, rest, store_outside placed (by omega) q clear]

/-- A DWORD that is neither written to nor counted in stays. -/
theorem storeAll_below (placed : Placed buffer ctx) (few : k + entries.length ≤ 128) {q : UInt32}
    (fits : q.toNat + 4 ≤ 2 ^ 32)
    (below : q.toNat + 4 ≤ buffer.toNat + 4 * k ∨ buffer.toNat + 4 * 128 ≤ q.toNat)
    (clear : q.toNat + 4 ≤ ctx.toNat + 20 ∨ ctx.toNat + 24 ≤ q.toNat) :
    load (t.storeAll ctx (buffer + .ofNat (4 * k)) entries).memory q = load t.memory q := by
  induction entries generalizing t k with
  | nil => rfl
  | cons entry entries ih =>
    rw [List.length_cons] at few
    have room := placed.room
    have at_ := slot_toNat room (by omega : k ≤ 128)
    rw [Target.storeAll, next_slot, ih (by omega) (by omega)]
    exact (load_countEntry placed.ctxRoom fits clear).trans
      (load_storeDword_apart (by rw [at_]; omega) fits (by rw [at_]; omega))

/-- The `i`-th word is the `i`-th entry's address. -/
theorem storeAll_word (placed : Placed buffer ctx) (few : k + entries.length ≤ 128) (inside : i < entries.length) :
    load (t.storeAll ctx (buffer + .ofNat (4 * k)) entries).memory (buffer + .ofNat (4 * (k + i))) =
      (getExportAddress (t.storeAll ctx (buffer + .ofNat (4 * k)) (entries.take i)).memory entries[i].1 entries[i].2).2 := by
  have room := placed.room
  have apart := placed.apart
  induction entries generalizing t k i with
  | nil => exact absurd inside (Nat.not_lt_zero i)
  | cons entry entries ih =>
    rw [List.length_cons] at few inside
    cases i with
    | zero =>
      have at_ := slot_toNat room (by omega : k ≤ 128)
      show load ((t.store ctx (buffer + .ofNat (4 * k)) entry).storeAll ctx (buffer + .ofNat (4 * k) + 4) entries).memory
        (buffer + .ofNat (4 * k)) = _
      rw [next_slot, storeAll_below placed (by omega) (by rw [at_]; omega) (by rw [at_]; omega) (by rw [at_]; omega)]
      exact (load_countEntry placed.ctxRoom (by rw [at_]; omega) (by rw [at_]; omega)).trans (load_storeDword _ _ _)
    | succ i =>
      rw [Target.storeAll, next_slot, List.take_succ_cons, Target.storeAll, next_slot, ← Nat.add_assoc, Nat.add_right_comm]
      exact ih (by omega) (Nat.lt_of_succ_lt_succ inside)

/-- The entries are counted. -/
theorem storeAll_counts (placed : Placed buffer ctx) (few : k + entries.length ≤ 128) :
    load (t.storeAll ctx (buffer + .ofNat (4 * k)) entries).memory (ctx + bytesRemainingOffset) =
      load t.memory (ctx + bytesRemainingOffset) + .ofNat (4 * entries.length) := by
  have room := placed.room
  have apart := placed.apart
  have field := field_toNat placed.ctxRoom (d := bytesRemainingOffset) (by decide)
  have d : bytesRemainingOffset.toNat = 20 := rfl
  have ctxRoom := placed.ctxRoom
  induction entries generalizing t k with
  | nil => exact (advance_zero _).symm
  | cons entry entries ih =>
    rw [List.length_cons] at few
    have at_ := slot_toNat room (by omega : k ≤ 128)
    have counted : load (t.store ctx (buffer + .ofNat (4 * k)) entry).memory (ctx + bytesRemainingOffset) =
        load t.memory (ctx + bytesRemainingOffset) + 4 := by
      refine (load_storeDword _ _ _).trans (congrArg (· + 4) ?_)
      exact load_storeDword_apart (by rw [at_]; omega) (by omega) (by rw [at_]; omega)
    rw [Target.storeAll, next_slot, ih (by omega), counted, List.length_cons, ← four_times]

/-! ## The arguments -/

theorem behind_add (esi : UInt32) (text rest : List UInt8) (i : Nat) :
    behind esi text rest + .ofNat i = esi + .ofNat (text.length - rest.length + i) := by
  rw [behind, UInt32.add_assoc, ← UInt32.ofNat_add]

theorem behind_behind (esi : UInt32) (first : rest <:+ text) (second : more <:+ rest) :
    behind (behind esi text rest) rest more = behind esi text more := by
  have le := first.length_le
  have le' := second.length_le
  rw [behind, behind_add, behind]
  congr 2
  omega

theorem TextAt.behind (at_ : TextAt m esi text) (suffix : rest <:+ text) : TextAt m (behind esi text rest) rest := by
  obtain ⟨front, rfl⟩ := suffix
  obtain ⟨-, -, later⟩ := textAt_append.mp at_
  rwa [Bootstrap.behind, List.length_append, Nat.add_sub_cancel]

theorem Standing.behind (standing : Standing labels buffer ctx m esi text) (suffix : rest <:+ text) :
    Standing labels buffer ctx m (behind esi text rest) rest where
  base := standing.base
  ordinal := standing.ordinal
  argument := standing.argument.behind suffix
  baseClear := standing.baseClear
  ordinalClear := standing.ordinalClear
  textClear i le := by
    have short := suffix.length_le
    rw [behind_add]
    exact standing.textClear _ (by omega)

/-- What the handler writes leaves the arguments and the specifiers. -/
theorem Standing.outside (standing : Standing labels buffer ctx m esi text) (same : Outside buffer ctx m m') :
    Standing labels buffer ctx m' esi text where
  base := standing.base.congr fun i lt => same _ (standing.baseClear i lt)
  ordinal := standing.ordinal.congr fun i lt => same _ (standing.ordinalClear i lt)
  argument := standing.argument.congr fun i le => same _ (standing.textClear i le)
  baseClear := standing.baseClear
  ordinalClear := standing.ordinalClear
  textClear := standing.textClear

/-! ## `parse_arg` -/

/-- What `parse_integer` takes and how far it goes. -/
theorem parseInteger_takes (eax : UInt32) (at_ : TextAt m esi text) (ends : ¬ Endless text) :
    ∃ enough, ∀ budget, enough ≤ budget → parseInteger budget m eax esi =
      some ((takeNumber eax text).1, behind esi text (takeNumber eax text).2) := by
  by_cases marked : hexPrefix <+: text
  · obtain ⟨rest, rfl⟩ := marked
    obtain ⟨enough, budgets⟩ := parseInteger_reads eax at_ (not_not.mp (mt endless_iff.mpr ends) rest rfl)
    have far : behind esi (hexPrefix ++ rest) (afterRun rest) = esi + 2 + .ofNat (hexRun rest).length := by
      have whole := congrArg List.length (hexRun_append rest)
      rw [List.length_append] at whole
      rw [behind, List.length_append, ← whole, show hexPrefix.length = 2 from rfl, UInt32.add_assoc,
        show 2 + ((hexRun rest).length + (afterRun rest).length) - (afterRun rest).length = 2 + (hexRun rest).length by omega,
        UInt32.ofNat_add]
      rfl
    rw [takeNumber_marked, far]
    exact ⟨enough, budgets⟩
  · rw [takeNumber_unmarked marked, behind, Nat.sub_self, advance_zero]
    refine ⟨0, fun budget _ => parseInteger_unmarked at_ ?_ budget⟩
    rintro ⟨rest, rfl⟩
    exact marked (List.prefix_append _ _)

theorem parseInteger_endless (at_ : TextAt m esi text) (endless : Endless text) (budget : Nat) :
    parseInteger budget m eax esi = none := by
  obtain ⟨⟨rest, rfl⟩, c, first, above⟩ := endless
  exact parseInteger_stuck at_ first above budget

/-- The specifier, and a number behind it or none. -/
theorem parseArg_takes (eax : UInt32) (spec_ : BytesAt m edi spec) (two : spec.length = argLen)
    (at_ : TextAt m esi (spec ++ more)) (ends : ¬ Endless more) :
    ∃ arg : ParsedArg, arg.eax = (takeNumber esi more).1 ∧ arg.esi = behind esi (spec ++ more) (takeNumber esi more).2 ∧
      (arg.ecx = 0 ↔ Tells edi esi) ∧
      ∃ enough, ∀ budget, enough ≤ budget → parseArg budget m eax esi edi argLen = some arg := by
  obtain ⟨bytes, -, later⟩ := textAt_append.mp at_
  obtain ⟨enough, budgets⟩ := parseInteger_takes esi later ends
  have start : esi + .ofNat spec.length = behind esi (spec ++ more) more := by
    rw [behind, List.length_append, Nat.add_sub_cancel]
  refine ⟨⟨(takeNumber esi more).1, if (edi + 2) &&& (esi + 2) = 0 then 1 else 0,
    behind esi (spec ++ more) (takeNumber esi more).2⟩, rfl, rfl, ?_, enough, fun budget le => ?_⟩
  · unfold Tells
    dsimp only
    by_cases apart : (edi + 2) &&& (esi + 2) = 0
    · rw [if_pos apart]
      exact iff_of_false (by decide) (not_not.mpr apart)
    · rw [if_neg apart]
      exact iff_of_true rfl apart
  · have matched := @parseArg_match budget m eax esi edi spec spec_ bytes
    rw [budgets budget le, Option.map_some, start, behind_behind esi (List.suffix_append spec more) (takeNumber_suffix _ _),
      ← start, two] at matched
    exact matched

theorem parseArg_endless (eax : UInt32) (spec_ : BytesAt m edi spec) (two : spec.length = argLen)
    (at_ : TextAt m esi (spec ++ more)) (endless : Endless more) (budget : Nat) :
    parseArg budget m eax esi edi argLen = none := by
  obtain ⟨bytes, -, later⟩ := textAt_append.mp at_
  rw [← two, parseArg_match spec_ bytes, parseInteger_endless later endless, Option.map_none]

/-! ## A round -/

theorem resolveTurn_parsed {arg : ParsedArg}
    (parsed : parseArg budget s.target.memory s.eax s.esi labels.gBaseArg argLen = some arg) : resolveTurn labels budget ctx s =
      if arg.ecx = 0 then checkSpace { s.after arg with edx := arg.eax } else ordinalTurn labels budget ctx (s.after arg) := by
  unfold resolveTurn
  rw [parsed]
  rfl

theorem ordinalTurn_parsed {arg : ParsedArg} (based : s.edx ≠ 0)
    (parsed : parseArg budget s.target.memory s.eax s.esi labels.gOrdinalArg argLen = some arg) : ordinalTurn labels budget ctx s =
      if arg.ecx ≠ 0 ∨ arg.eax = 0 then .leave (some (false, s.after arg))
      else if s.ebx = 0 then .leave none
      else checkSpace (storeExport ctx (s.after arg)) := by
  unfold ordinalTurn
  rw [if_neg based, parsed]

theorem follows_null {turn : Turn ResolveState (Option (Bool × ResolveState))} (null : s.ebx = 0) (some : entries ≠ []) :
    Follows ctx s text turn (.taken edx entries rest) ↔ turn = .leave none := by
  show ite (s.ebx = 0 ∧ entries ≠ []) _ _ ↔ _
  rw [if_pos ⟨null, some⟩]

theorem follows_written {turn : Turn ResolveState (Option (Bool × ResolveState))} (written : ¬ (s.ebx = 0 ∧ entries ≠ [])) :
    Follows ctx s text turn (.taken edx entries rest) ↔
      ∃ s', turn = checkSpace s' ∧ s'.edx = edx ∧ s'.esi = behind s.esi text rest ∧
        s'.ebx = s.ebx + .ofNat (4 * entries.length) ∧ s'.target = s.target.storeAll ctx s.ebx entries := by
  show ite (s.ebx = 0 ∧ entries ≠ []) _ _ ↔ _
  rw [if_neg written]

/-- A round behind a base does what the reading says. -/
theorem ordinalTurn_follows (standing : Standing labels buffer ctx s.target.memory s.esi text) : ∃ turn,
    Follows ctx s text turn (readOrdinal labels s.edx s.esi text) ∧
      ∃ enough, ∀ budget, enough ≤ budget → ordinalTurn labels budget ctx s = turn := by
  by_cases based : s.edx = 0
  · rw [readOrdinal_other (.inl based)]
    exact ⟨_, ⟨s, rfl, rfl, rfl⟩, 0, fun budget _ => if_pos based⟩
  by_cases starts : ordinalArg <+: text
  · obtain ⟨more, rfl⟩ := starts
    rw [readOrdinal_ordinal based]
    by_cases endless : Endless more
    · rw [if_pos endless]
      refine ⟨_, rfl, 0, fun budget _ => ?_⟩
      have parsed := parseArg_endless s.eax standing.ordinal rfl standing.argument endless budget
      unfold ordinalTurn
      rw [if_neg based, parsed]
    · rw [if_neg endless]
      obtain ⟨arg, value, stop, told, enough, budgets⟩ :=
        parseArg_takes s.eax standing.ordinal rfl standing.argument endless
      have turn (budget : Nat) (le : enough ≤ budget) := @ordinalTurn_parsed labels ctx _ _ _ based (budgets budget le)
      have refused : (arg.ecx ≠ 0 ∨ arg.eax = 0) ↔ ¬ Tells labels.gOrdinalArg s.esi ∨ arg.eax = 0 :=
        or_congr_left (not_congr told)
      rw [← value]
      by_cases bad : arg.ecx ≠ 0 ∨ arg.eax = 0
      · rw [if_pos (refused.mp bad)]
        exact ⟨_, ⟨s.after arg, rfl, rfl, rfl⟩, enough, fun budget le => (turn budget le).trans (if_pos bad)⟩
      · rw [if_neg (mt refused.mpr bad)]
        have goes (budget : Nat) (le : enough ≤ budget) := (turn budget le).trans (if_neg bad)
        by_cases null : s.ebx = 0
        · refine ⟨_, ?_, enough, fun budget le => (goes budget le).trans (if_pos null)⟩
          exact (follows_null null (List.cons_ne_nil _ _)).mpr rfl
        · refine ⟨_, ?_, enough, fun budget le => (goes budget le).trans (if_neg null)⟩
          exact (follows_written fun both => null both.1).mpr ⟨storeExport ctx (s.after arg), rfl, rfl, stop, rfl, rfl⟩
  · rw [readOrdinal_other (.inr starts)]
    refine ⟨_, ⟨_, rfl, rfl, rfl⟩, 0, fun budget _ => ?_⟩
    have parsed := @parseArg_mismatch budget _ s.eax _ _ _ _ standing.ordinal (by decide) standing.argument starts
    exact (ordinalTurn_parsed based parsed).trans (if_pos (.inl fun one => nomatch one))

/-- A round goes on from behind a base that was dropped. -/
theorem Follows.moved {turn : Turn ResolveState (Option (Bool × ResolveState))} {arg : ParsedArg}
    (stop : arg.esi = behind s.esi text rest) (suffix : rest <:+ text)
    (follows : Follows ctx (s.after arg) rest turn (readOrdinal labels edx esi rest)) :
    Follows ctx s text turn (readOrdinal labels edx esi rest) := by
  cases reading : readOrdinal labels edx esi rest with
  | refused => rwa [reading] at follows
  | endless => rwa [reading] at follows
  | taken edx' entries more =>
    rw [reading] at follows
    by_cases null : s.ebx = 0 ∧ entries ≠ []
    · exact (follows_null null.1 null.2).mpr ((follows_null (s := s.after arg) null.1 null.2).mp follows)
    · obtain ⟨s', turn_, base, there, slot, target⟩ := (follows_written (s := s.after arg) null).mp follows
      refine (follows_written null).mpr ⟨s', turn_, base, there.trans ?_, slot, target⟩
      rw [← behind_behind s.esi suffix (readOrdinal_taken reading).1, ← stop]
      rfl

/-- A round does what the reading says, on budget enough for its numbers. -/
theorem resolveTurn_follows (standing : Standing labels buffer ctx s.target.memory s.esi text) : ∃ turn,
    Follows ctx s text turn (readArgument labels s.edx s.esi text) ∧
      ∃ enough, ∀ budget, enough ≤ budget → resolveTurn labels budget ctx s = turn := by
  by_cases starts : baseArg <+: text
  · obtain ⟨more, rfl⟩ := starts
    rw [readArgument_base]
    by_cases endless : Endless more
    · rw [if_pos endless]
      refine ⟨_, rfl, 0, fun budget _ => ?_⟩
      have parsed := parseArg_endless s.eax standing.base rfl standing.argument endless budget
      unfold resolveTurn
      rw [parsed]
    · rw [if_neg endless]
      obtain ⟨arg, value, stop, told, enough, budgets⟩ := parseArg_takes s.eax standing.base rfl standing.argument endless
      have turn (budget : Nat) (le : enough ≤ budget) := @resolveTurn_parsed labels ctx _ _ _ (budgets budget le)
      by_cases tells : Tells labels.gBaseArg s.esi
      · rw [if_pos tells]
        refine ⟨_, (follows_written fun both => both.2 rfl).mpr ?_, enough,
          fun budget le => (turn budget le).trans (if_pos (told.mpr tells))⟩
        exact ⟨{ s.after arg with edx := arg.eax }, rfl, value, stop, (advance_zero s.ebx).symm, rfl⟩
      · rw [if_neg tells, ← stop]
        have suffix := (takeNumber_suffix s.esi more).trans (List.suffix_append baseArg more)
        have moved : Standing labels buffer ctx s.target.memory arg.esi (takeNumber s.esi more).2 := by
          rw [stop]
          exact standing.behind suffix
        obtain ⟨turn', follows, enough', later⟩ := @ordinalTurn_follows labels buffer ctx _ (s.after arg) moved
        refine ⟨turn', follows.moved stop suffix, enough + enough', fun budget le => ?_⟩
        rw [turn budget (by omega), if_neg (mt told.mp tells)]
        exact later budget (by omega)
  · rw [readArgument_other starts]
    obtain ⟨turn, follows, enough, later⟩ := ordinalTurn_follows standing
    refine ⟨turn, follows, enough, fun budget le => ?_⟩
    have parsed := @parseArg_mismatch budget _ s.eax _ _ _ _ standing.base (by decide) standing.argument starts
    rw [resolveTurn_parsed parsed, if_neg fun one => nomatch one]
    exact later budget le

/-! ## Between arguments -/

theorem checkSpace_end (at_ : TextAt s.target.memory s.esi []) : checkSpace s = .leave (some (true, s)) := by
  have nul : load8 s.target.memory s.esi = 0 := at_
  unfold checkSpace
  dsimp only
  rw [nul]
  rfl

theorem checkSpace_junk {c : UInt8} (at_ : TextAt s.target.memory s.esi (c :: rest)) (junk : c ≠ 0x20) :
    checkSpace s = .leave (some (false, s)) := by
  unfold checkSpace
  dsimp only
  rw [at_.1, if_neg junk, decide_eq_false at_.2.1]

theorem checkSpace_space (at_ : TextAt s.target.memory s.esi (0x20 :: rest)) :
    checkSpace s = .again { s with esi := s.esi + 1 } := by
  unfold checkSpace
  dsimp only
  rw [at_.1, if_pos rfl]

/-- `.check_space` leaves the write pointer. -/
theorem checkSpace_ebx (s : ResolveState) : (checkSpace s).Holds (·.ebx = s.ebx) fun r => ∃ valid, r = some (valid, s) := by
  unfold checkSpace
  dsimp only
  split
  · rfl
  · exact ⟨_, rfl⟩

/-! ## The loop -/

/-- The write pointer is in the block for up to 128 entries. -/
theorem within_iff {n : Nat} (slot : s.ebx = buffer + .ofNat (4 * n)) (le : n ≤ 129) : Within buffer s ↔ n ≤ 128 := by
  have far : (s.ebx - buffer).toNat = 4 * n := by
    rw [slot, UInt32.add_comm, UInt32.add_sub_cancel, UInt32.toNat_ofNat']
    exact Nat.mod_eq_of_lt (by omega)
  rw [Within, far]
  omega

theorem capacity_le (buffer : UInt32) : capacity buffer ≤ 128 := by
  unfold capacity
  split <;> decide

theorem capacity_some (block : buffer ≠ 0) : capacity buffer = 128 := if_neg block

theorem At.few (at_ : At labels buffer ctx s edx esi text k) : k ≤ 128 := Nat.le_trans at_.stored (capacity_le buffer)

/-- The loop has stored no more than the block takes. -/
theorem At.within (at_ : At labels buffer ctx s edx esi text k) : Within buffer s :=
  (within_iff at_.slot (Nat.le_succ_of_le at_.few)).mpr at_.few

/-- With no block, nothing has been stored. -/
theorem At.null (at_ : At labels 0 ctx s edx esi text k) : s.ebx = 0 := by
  have none : k = 0 := Nat.le_zero.mp at_.stored
  rw [at_.slot, none]
  rfl

/-- The pointer does not come round to 0 inside the block. -/
theorem At.slot_ne (at_ : At labels buffer ctx s edx esi text k) (placed : Placed buffer ctx) (block : buffer ≠ 0) : s.ebx ≠ 0 := by
  intro null
  have slot := slot_toNat placed.room at_.few
  rw [← at_.slot, null] at slot
  exact block (UInt32.toNat_inj.mp (Nat.eq_zero_of_add_eq_zero_right slot.symm))

theorem At.follows (at_ : At labels buffer ctx s edx esi text k) : ∃ turn,
    Follows ctx s text turn (readArgument labels edx esi text) ∧
      ∃ enough, ∀ budget, enough ≤ budget → resolveTurn labels budget ctx s = turn := by
  obtain ⟨rfl, rfl, -, -, standing⟩ := at_
  exact resolveTurn_follows standing

/-- The round of an argument that is taken comes to what is left. -/
theorem At.taken (at_ : At labels buffer ctx s edx esi text k) (placed : Placed buffer ctx)
    (reading : readArgument labels edx esi text = .taken edx' entries rest) (few : k + entries.length ≤ capacity buffer) :
    ∃ s', At labels buffer ctx s' edx' (behind esi text rest) rest (k + entries.length) ∧
      s'.target = s.target.storeAll ctx s.ebx entries ∧
      ∃ enough, ∀ budget, enough ≤ budget → resolveTurn labels budget ctx s = checkSpace s' := by
  obtain ⟨turn, follows, later⟩ := at_.follows
  have written : ¬ (s.ebx = 0 ∧ entries ≠ []) := by
    rintro ⟨null, some⟩
    have one := List.length_pos_iff.mpr some
    have block : buffer ≠ 0 := by
      rintro rfl
      exact absurd few (by show ¬ k + entries.length ≤ 0; omega)
    exact at_.slot_ne placed block null
  rw [reading, follows_written written] at follows
  obtain ⟨s', rfl, base, there, slot, target⟩ := follows
  refine ⟨s', ⟨base, there.trans (by rw [at_.pointer]), ?_, few, ?_⟩, target, later⟩
  · rw [slot, at_.slot, UInt32.add_assoc, ← UInt32.ofNat_add, ← Nat.mul_add]
  · rw [target, at_.slot]
    have fits := Nat.le_trans few (capacity_le buffer)
    exact (at_.standing.outside (storeAll_outside placed fits)).behind (readArgument_taken reading).1

/-- A round that leaves. -/
theorem Runs.leave {r : Option (Bool × ResolveState)} {result : Option Bool} (at_ : At labels buffer ctx s edx esi text k)
    (turn : resolveTurn labels budget ctx s = .leave r) (ends : Ends (s.target.storeAll ctx s.ebx entries) r result)
    (within : LeavesWithin buffer r) : Runs labels buffer ctx budget s text entries result := by
  have ran (n : Nat) : run (resolveTurn labels budget ctx) (n + 1) s = .leave r := by simp only [run, turn]
  constructor
  · exact ⟨r, ran text.length, ends⟩
  · intro n
    cases n with
    | zero => exact at_.within
    | succ n =>
      rw [ran]
      exact within

/-- A round that goes on. -/
theorem Runs.again {result : Option Bool} (at_ : At labels buffer ctx s edx esi text k)
    (turn : resolveTurn labels budget ctx s = .again s') (shorter : rest.length < text.length)
    (target : s'.target.storeAll ctx s'.ebx later = s.target.storeAll ctx s.ebx entries)
    (runs : Runs labels buffer ctx budget s' rest later result) : Runs labels buffer ctx budget s text entries result := by
  have ran (n : Nat) : run (resolveTurn labels budget ctx) (n + 1) s = run (resolveTurn labels budget ctx) n s' := by
    simp only [run, turn]
  constructor
  · obtain ⟨r, left, ends⟩ := runs.ends
    rw [target] at ends
    rw [ran]
    exact ⟨r, run_eq_of_le left (by omega), ends⟩
  · intro n
    cases n with
    | zero => exact at_.within
    | succ n =>
      rw [ran]
      exact runs.within n

theorem At.argument (at_ : At labels buffer ctx s edx esi text k) : TextAt s.target.memory s.esi text := by
  rw [at_.pointer]
  exact at_.standing.argument

theorem At.leavesWithin {valid : Bool} (at_ : At labels buffer ctx s edx esi text k) :
    LeavesWithin buffer (some (valid, s)) := by
  rintro _ _ ⟨⟩
  exact at_.within

/-- Behind a space. -/
theorem At.space (at_ : At labels buffer ctx s edx (behind esi text (0x20 :: rest)) (0x20 :: rest) k)
    (suffix : 0x20 :: rest <:+ text) : At labels buffer ctx { s with esi := s.esi + 1 } edx (behind esi text rest) rest k := by
  have tail := List.suffix_cons 0x20 rest
  have one (p : UInt32) : behind p (0x20 :: rest) rest = p + 1 := by
    rw [behind, List.length_cons, Nat.add_sub_cancel_left]
    rfl
  rw [← behind_behind esi suffix tail]
  refine ⟨at_.base, ?_, at_.slot, at_.stored, at_.standing.behind tail⟩
  rw [one, ← at_.pointer]

/-- The loop does what the walk says as long as the entries fit the block. -/
theorem Walk.runs {result : Option Bool} (walk : Walk labels edx esi text entries result) (placed : Placed buffer ctx)
    (at_ : At labels buffer ctx s edx esi text k) (few : k + entries.length ≤ capacity buffer) :
    ∃ enough, ∀ budget, enough ≤ budget → Runs labels buffer ctx budget s text entries result := by
  induction walk generalizing s k with
  | refused reading =>
    obtain ⟨turn, follows, enough, turns⟩ := at_.follows
    rw [reading] at follows
    obtain ⟨s', rfl, slot, target⟩ := follows
    refine ⟨enough, fun budget le => .leave at_ (turns budget le) ⟨s', rfl, target⟩ ?_⟩
    rintro _ _ ⟨⟩
    rw [Within, slot]
    exact at_.within
  | endless reading =>
    obtain ⟨turn, follows, enough, turns⟩ := at_.follows
    rw [reading] at follows
    exact ⟨enough, fun budget le => .leave at_ ((turns budget le).trans follows) rfl fun valid s none => nomatch none⟩
  | last reading =>
    obtain ⟨s', there, target, enough, turns⟩ := at_.taken placed reading few
    exact ⟨enough, fun budget le => .leave at_ ((turns budget le).trans (checkSpace_end there.argument))
      ⟨s', rfl, target⟩ there.leavesWithin⟩
  | junk reading junk =>
    obtain ⟨s', there, target, enough, turns⟩ := at_.taken placed reading few
    exact ⟨enough, fun budget le => .leave at_ ((turns budget le).trans (checkSpace_junk there.argument junk))
      ⟨s', rfl, target⟩ there.leavesWithin⟩
  | @next edx edx' esi text rest entries more result reading walk ih =>
    rw [List.length_append] at few
    obtain ⟨s', there, target, enough, turns⟩ := at_.taken placed reading (by omega)
    have suffix := (readArgument_taken reading).1
    obtain ⟨enough', runs⟩ := ih (there.space suffix) (by omega)
    have all : s'.target.storeAll ctx s'.ebx more = s.target.storeAll ctx s.ebx (entries ++ more) := by
      rw [target, ← Target.storeAll_append, there.slot, at_.slot, Nat.mul_add, UInt32.ofNat_add, UInt32.add_assoc]
    refine ⟨enough + enough', fun budget le => ?_⟩
    have turn := (turns budget (by omega)).trans (checkSpace_space there.argument)
    exact .again at_ turn suffix.length_le all (runs budget (by omega))

/-- The 129th entry is written beyond the block. -/
theorem At.overruns (at_ : At labels buffer ctx s edx esi text k) (placed : Placed buffer ctx) (block : buffer ≠ 0)
    (reading : readArgument labels edx esi text = .taken edx' entries rest) (many : 128 < k + entries.length) :
    ∃ enough, ∀ budget, enough ≤ budget →
      ¬ (run (resolveTurn labels budget ctx) 1 s).Holds (Within buffer) (LeavesWithin buffer) := by
  have one := (readArgument_taken reading).2
  have full := at_.few
  obtain ⟨turn, follows, enough, turns⟩ := at_.follows
  rw [reading, follows_written fun both => at_.slot_ne placed block both.1] at follows
  obtain ⟨s', rfl, -, -, slot, -⟩ := follows
  rw [at_.slot, UInt32.add_assoc, ← UInt32.ofNat_add, ← Nat.mul_add] at slot
  have beyond : ¬ Within buffer s' := by
    rw [within_iff slot (by omega)]
    omega
  refine ⟨enough, fun budget le holds => beyond ?_⟩
  have kept := checkSpace_ebx s'
  simp only [run, turns budget le] at holds
  cases space : checkSpace s' with
  | again s'' =>
    rw [space] at holds kept
    have same : s''.ebx = s'.ebx := kept
    rw [Within, ← same]
    exact holds
  | leave r =>
    rw [space] at holds kept
    obtain ⟨valid, left⟩ := kept
    exact holds valid s' left

/-- More entries than fit are written beyond the block. -/
theorem Walk.overruns {result : Option Bool} (walk : Walk labels edx esi text entries result) (placed : Placed buffer ctx)
    (block : buffer ≠ 0) (at_ : At labels buffer ctx s edx esi text k) (many : 128 < k + entries.length) :
    ∃ enough, ∀ budget, enough ≤ budget →
      ∃ n, ¬ (run (resolveTurn labels budget ctx) n s).Holds (Within buffer) (LeavesWithin buffer) := by
  have full := at_.few
  induction walk generalizing s k with
  | refused reading => exact absurd many (by rw [List.length_nil]; omega)
  | endless reading => exact absurd many (by rw [List.length_nil]; omega)
  | last reading =>
    obtain ⟨enough, beyond⟩ := at_.overruns placed block reading many
    exact ⟨enough, fun budget le => ⟨1, beyond budget le⟩⟩
  | junk reading junk =>
    obtain ⟨enough, beyond⟩ := at_.overruns placed block reading many
    exact ⟨enough, fun budget le => ⟨1, beyond budget le⟩⟩
  | @next edx edx' esi text rest entries more result reading walk ih =>
    rw [List.length_append] at many
    by_cases fits : k + entries.length ≤ 128
    · obtain ⟨s', there, -, enough, turns⟩ := at_.taken placed reading (by rwa [capacity_some block])
      obtain ⟨enough', beyond⟩ := ih (there.space (readArgument_taken reading).1) (by omega) fits
      refine ⟨enough + enough', fun budget le => ?_⟩
      have turn := (turns budget (by omega)).trans (checkSpace_space there.argument)
      obtain ⟨n, beyond⟩ := beyond budget (by omega)
      refine ⟨n + 1, ?_⟩
      simp only [run, turn]
      exact beyond
    · obtain ⟨enough, beyond⟩ := at_.overruns placed block reading (by omega)
      exact ⟨enough, fun budget le => ⟨1, beyond budget le⟩⟩

/-- A round that leaves with no outcome. -/
theorem Runs.crash (at_ : At labels buffer ctx s edx esi text k) (turn : resolveTurn labels budget ctx s = .leave none) :
    Runs labels buffer ctx budget s text [] none :=
  .leave at_ turn rfl fun _ _ none => nomatch none

/-- Without a block there is no outcome once an entry is written. -/
theorem Walk.crashes {result : Option Bool} (walk : Walk labels edx esi text entries result) (placed : Placed 0 ctx)
    (at_ : At labels 0 ctx s edx esi text k) (some : entries ≠ []) :
    ∃ enough, ∀ budget, enough ≤ budget → Runs labels 0 ctx budget s text [] none := by
  have none : k = 0 := Nat.le_zero.mp at_.stored
  -- the round that writes the first entry
  have writes {edx edx' : UInt32} {esi : UInt32} {text rest : List UInt8} {entries : List Entry} {s : ResolveState}
      (at_ : At labels 0 ctx s edx esi text 0) (reading : readArgument labels edx esi text = .taken edx' entries rest)
      (some : entries ≠ []) : ∃ enough, ∀ budget, enough ≤ budget → Runs labels 0 ctx budget s text [] .none := by
    obtain ⟨turn, follows, enough, turns⟩ := at_.follows
    rw [reading, follows_null at_.null some] at follows
    exact ⟨enough, fun budget le => .crash at_ ((turns budget le).trans follows)⟩
  subst none
  induction walk generalizing s with
  | refused reading => exact absurd rfl some
  | endless reading => exact absurd rfl some
  | last reading => exact writes at_ reading some
  | junk reading junk => exact writes at_ reading some
  | @next edx edx' esi text rest entries more result reading walk ih =>
    by_cases first : entries = []
    · subst first
      obtain ⟨s', there, target, enough, turns⟩ := at_.taken placed reading (Nat.le_refl 0)
      have suffix := (readArgument_taken reading).1
      obtain ⟨enough', runs⟩ := ih some (there.space suffix)
      have same : s'.target.storeAll ctx s'.ebx [] = s.target.storeAll ctx s.ebx [] := target
      refine ⟨enough + enough', fun budget le => ?_⟩
      have turn := (turns budget (by omega)).trans (checkSpace_space there.argument)
      exact .again at_ turn suffix.length_le same (runs budget (by omega))
    · exact writes at_ reading first

end Dyndxt.Bootstrap
