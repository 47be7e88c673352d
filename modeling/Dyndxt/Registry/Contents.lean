import Mathlib.Data.Finset.Card
import Dyndxt.Registry.ModuleRegistry

/-!
# What a registry holds

A registry as a map: modules in the order they first came, each with its
exports in the order their ordinals first came. Recording an export replaces
the one with its ordinal, so what is found after a run of registrations is the
latest of each.
-/

namespace Dyndxt.Registry
open Dyndxt.Map

abbrev Contents := List (List UInt8 × List ModuleExport)

/-- A registration: the module's name and the export. -/
abbrev Registration := List UInt8 × ModuleExport

/-- A module with an export recorded. -/
def recordIn (e : ModuleExport) (m : List UInt8 × List ModuleExport) : List UInt8 × List ModuleExport :=
  (m.1, amend ModuleExport.ordinal e.ordinal (fun _ => e) e m.2)

def Contents.record (c : Contents) (reg : Registration) : Contents :=
  amend Prod.fst reg.1 (recordIn reg.2) (reg.1, [reg.2]) c

def Contents.find (c : Contents) (moduleName : List UInt8) (ordinal : UInt32) : Option ModuleExport :=
  (row Prod.fst moduleName c).bind fun m => row ModuleExport.ordinal ordinal m.2

/-- The module and ordinal of every export. -/
def Contents.slots (c : Contents) : List (List UInt8 × UInt32) :=
  c.flatMap fun m => m.2.map fun e => (m.1, e.ordinal)

/-- Distinct names, distinct ordinals, and no module without exports. -/
structure Contents.Valid (c : Contents) : Prop where
  names : (c.map Prod.fst).Nodup
  ordinals : ∀ m ∈ c, (m.2.map ModuleExport.ordinal).Nodup
  nonempty : ∀ m ∈ c, m.2 ≠ []

/-- The contents after a run of registrations. -/
def contentsOf (regs : List Registration) : Contents := regs.foldl Contents.record []

/-- The most recent registration of a module's ordinal. -/
def latest (regs : List Registration) (moduleName : List UInt8) (ordinal : UInt32) :
    Option ModuleExport :=
  (regs.reverse.find? fun reg => decide (reg.1 = moduleName ∧ reg.2.ordinal = ordinal)).map Prod.snd

/-- The registrations since the last reset, after one more call. -/
def afterCall (regs : List Registration) : RegistryCall → List Registration
  | .register moduleName moduleExport => regs ++ [(moduleName, moduleExport)]
  | .reset => []

/-- The registrations of a history since its last reset. -/
def sinceReset (history : List RegistryCall) : List Registration := history.foldl afterCall []

variable {c : Contents} {reg : Registration} {regs : List Registration} {moduleName : List UInt8}
  {ordinal : UInt32}

/-! ## Recording -/

theorem Contents.valid_nil : Contents.Valid [] := ⟨List.nodup_nil, by simp, by simp⟩

theorem keepsName (reg : Registration) (m : List UInt8 × List ModuleExport) (named : m.1 = reg.1) :
    (recordIn reg.2 m).1 = reg.1 := named

theorem Contents.Valid.record (valid : c.Valid) (reg : Registration) : (c.record reg).Valid := by
  constructor
  · exact nodup_amend (keepsName reg) rfl valid.names
  · refine forall_amend valid.ordinals (fun m listed => ?_) (List.nodup_singleton _)
    exact nodup_amend (fun _ _ => rfl) rfl (valid.ordinals m listed)
  · refine forall_amend valid.nonempty (fun m _ => ?_) (List.cons_ne_nil _ _)
    have some : reg.2.ordinal ∈ (recordIn reg.2 m).2.map ModuleExport.ordinal :=
      (mem_keys_amend (fun _ _ => rfl) rfl).mpr (.inl rfl)
    exact fun none => by rw [none] at some; cases some

theorem Contents.find_record (c : Contents) (reg : Registration) (moduleName : List UInt8)
    (ordinal : UInt32) : (c.record reg).find moduleName ordinal =
      if reg.1 = moduleName ∧ reg.2.ordinal = ordinal then some reg.2 else c.find moduleName ordinal := by
  unfold Contents.find Contents.record
  rw [row_amend (keepsName reg) rfl]
  by_cases sameModule : moduleName = reg.1
  · rw [if_pos sameModule, sameModule, Option.bind_some]
    cases known : row Prod.fst reg.1 c with
    | none =>
      simp only [Option.map_none, Option.getD_none, row_cons, row_nil, true_and, Option.bind_none]
    | some m =>
      simp only [Option.map_some, Option.getD_some, Option.bind_some, true_and, recordIn]
      rw [row_amend (fun _ _ => rfl) rfl]
      by_cases sameOrdinal : ordinal = reg.2.ordinal
      · rw [if_pos sameOrdinal, if_pos sameOrdinal.symm]
        cases row ModuleExport.ordinal reg.2.ordinal m.2 <;> rfl
      · rw [if_neg sameOrdinal, if_neg (Ne.symm sameOrdinal)]
  · rw [if_neg sameModule, if_neg fun same => sameModule same.1.symm]

theorem Contents.names_record : moduleName ∈ (c.record reg).map Prod.fst ↔
    moduleName = reg.1 ∨ moduleName ∈ c.map Prod.fst :=
  mem_keys_amend (keepsName reg) rfl

/-! ## Slots -/

theorem Contents.mem_slots (valid : c.Valid) :
    (moduleName, ordinal) ∈ c.slots ↔ (c.find moduleName ordinal).isSome := by
  unfold Contents.slots Contents.find
  simp only [List.mem_flatMap, List.mem_map, Prod.mk.injEq]
  constructor
  · intro mem
    obtain ⟨m, listed, e, exported, name, number⟩ := mem
    rw [← name, row_of_mem valid.names listed, Option.bind_some, row_isSome, ← number]
    exact List.mem_map_of_mem exported
  · intro found
    cases known : row Prod.fst moduleName c with
    | none => rw [known] at found; cases found
    | some m =>
      rw [known, Option.bind_some, row_isSome] at found
      obtain ⟨e, exported, number⟩ := List.mem_map.mp found
      exact ⟨m, mem_of_row known, e, exported, key_of_row known, number⟩

theorem Contents.Valid.nodup_slots (valid : c.Valid) : c.slots.Nodup := by
  unfold Contents.slots
  rw [List.nodup_flatMap]
  constructor
  · intro m listed
    have paired := (valid.ordinals m listed).map (Prod.mk_right_injective m.1)
    rwa [List.map_map] at paired
  · have names : c.Pairwise fun m m' => m.1 ≠ m'.1 := List.pairwise_map.mp valid.names
    refine names.imp fun differs slot here there => ?_
    obtain ⟨_, _, rfl⟩ := List.mem_map.mp here
    obtain ⟨_, _, same⟩ := List.mem_map.mp there
    exact differs (congrArg Prod.fst same).symm

/-! ## Runs of registrations -/

theorem contentsOf_snoc : contentsOf (regs ++ [reg]) = (contentsOf regs).record reg := by
  rw [contentsOf, List.foldl_append]
  rfl

theorem contentsOf_valid (regs : List Registration) : (contentsOf regs).Valid := by
  induction regs using List.reverseRecOn with
  | nil => exact Contents.valid_nil
  | append_singleton regs reg ih =>
    rw [contentsOf_snoc]
    exact ih.record reg

/-- After a run of registrations the latest is found, or else what was there
before. -/
theorem Contents.find_foldl_record : (regs.foldl Contents.record c).find moduleName ordinal =
    (latest regs moduleName ordinal).or (c.find moduleName ordinal) := by
  induction regs using List.reverseRecOn with
  | nil => rfl
  | append_singleton regs reg ih =>
    rw [List.foldl_append, List.foldl_cons, List.foldl_nil, Contents.find_record, ih, latest, latest,
      List.reverse_append, List.reverse_singleton, List.singleton_append, List.find?_cons]
    by_cases same : reg.1 = moduleName ∧ reg.2.ordinal = ordinal
    · rw [if_pos same]
      simp only [same, and_self, decide_true, Option.map_some, Option.some_or]
    · rw [if_neg same]
      simp only [same, decide_false]

/-- What is found is the latest registration. -/
theorem find_contentsOf : (contentsOf regs).find moduleName ordinal = latest regs moduleName ordinal :=
  Contents.find_foldl_record.trans Option.or_none

theorem mem_names_contentsOf :
    moduleName ∈ (contentsOf regs).map Prod.fst ↔ moduleName ∈ regs.map Prod.fst := by
  induction regs using List.reverseRecOn with
  | nil => rfl
  | append_singleton regs reg ih =>
    rw [contentsOf_snoc, Contents.names_record, ih, List.map_append, List.mem_append, or_comm]
    simp

theorem mem_slots_contentsOf : (moduleName, ordinal) ∈ (contentsOf regs).slots ↔
    (moduleName, ordinal) ∈ regs.map fun reg => (reg.1, reg.2.ordinal) := by
  rw [Contents.mem_slots (contentsOf_valid regs), find_contentsOf, latest, Option.isSome_map,
    List.find?_isSome]
  simp

/-- As many modules as names registered. -/
theorem length_contentsOf : (contentsOf regs).length = (regs.map Prod.fst).toFinset.card := by
  rw [← List.length_map (f := Prod.fst), ← List.toFinset_card_of_nodup (contentsOf_valid regs).names]
  congr 1
  ext moduleName
  rw [List.mem_toFinset, List.mem_toFinset]
  exact mem_names_contentsOf

/-- As many exports as slots registered. -/
theorem length_slots_contentsOf : (contentsOf regs).slots.length =
    (regs.map fun reg => (reg.1, reg.2.ordinal)).toFinset.card := by
  rw [← List.toFinset_card_of_nodup (contentsOf_valid regs).nodup_slots]
  congr 1
  ext ⟨moduleName, ordinal⟩
  rw [List.mem_toFinset, List.mem_toFinset]
  exact mem_slots_contentsOf

end Dyndxt.Registry
