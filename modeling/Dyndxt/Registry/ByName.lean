import Dyndxt.Registry.LastWrite

/-!
# Lookup by name

A module's exports stand in the order their ordinals first came, each as it
was registered last, and the search for a name stops at the first that has it.
So a name stands for the earliest ordinal whose latest registration has it.
-/

namespace Dyndxt.Registry
open Dyndxt.Pool Dyndxt.Map Dyndxt.Run

/-- The name or the alias of an export. -/
def ModuleExport.IsNamed (e : ModuleExport) (name : List UInt8) : Prop :=
  e.methodName.map (·.chars) = some name ∨ e.alias_.map (·.chars) = some name

instance (e : ModuleExport) (name : List UInt8) : Decidable (e.IsNamed name) :=
  inferInstanceAs (Decidable (_ ∨ _))

/-- The latest registration of the ordinal has the name. -/
def RegisteredAs (regs : List Registration) (moduleName name : List UInt8) (ordinal : UInt32) : Prop :=
  ∃ e, latest regs moduleName ordinal = some e ∧ e.IsNamed name

/-- When an ordinal of a module first came. -/
def firstRegistered (regs : List Registration) (moduleName : List UInt8) (ordinal : UInt32) : Nat :=
  regs.findIdx fun reg => decide (reg.1 = moduleName ∧ reg.2.ordinal = ordinal)

/-- The exports of a module. -/
def Contents.exports (c : Contents) (moduleName : List UInt8) : List ModuleExport :=
  ((row Prod.fst moduleName c).map Prod.snd).getD []

variable {c : Contents} {reg : Registration} {regs : List Registration} {moduleName name : List UInt8}
  {ordinal : UInt32} {e : ModuleExport} {r : ModuleRegistry}

/-! ## The exports of a module -/

theorem Contents.find_exports : c.find moduleName ordinal = row ModuleExport.ordinal ordinal (c.exports moduleName) := by
  unfold Contents.find Contents.exports
  cases row Prod.fst moduleName c <;> rfl

theorem Contents.exports_record : (c.record reg).exports moduleName =
    if moduleName = reg.1 then
      amend ModuleExport.ordinal reg.2.ordinal (fun _ => reg.2) reg.2 (c.exports moduleName)
    else c.exports moduleName := by
  unfold Contents.exports Contents.record
  rw [row_amend (keepsName reg) rfl]
  split
  · next same =>
    rw [same]
    cases row Prod.fst reg.1 c <;> rfl
  · rfl

/-- Other modules' registrations leave the exports of a module alone. -/
theorem Contents.exports_foldl_others (others : ∀ reg ∈ regs, reg.1 ≠ moduleName) :
    (regs.foldl Contents.record c).exports moduleName = c.exports moduleName := by
  induction regs generalizing c with
  | nil => rfl
  | cons reg regs ih =>
    obtain ⟨other, others⟩ := List.forall_mem_cons.mp others
    rw [List.foldl_cons, ih others, Contents.exports_record, if_neg other.symm]

/-- Registrations of ordinals that are new and differ stand behind the exports
that there were. -/
theorem Contents.exports_foldl_new (here : ∀ reg ∈ regs, reg.1 = moduleName)
    (differ : ((c.exports moduleName ++ regs.map Prod.snd).map ModuleExport.ordinal).Nodup) :
    (regs.foldl Contents.record c).exports moduleName = c.exports moduleName ++ regs.map Prod.snd := by
  induction regs generalizing c with
  | nil => exact (List.append_nil _).symm
  | cons reg regs ih =>
    obtain ⟨named, here⟩ := List.forall_mem_cons.mp here
    rw [List.map_cons, List.append_cons] at differ ⊢
    have new : reg.2.ordinal ∉ (c.exports moduleName).map ModuleExport.ordinal := fun listed => by
      rw [List.map_append, List.map_append] at differ
      have before := (List.nodup_append.mp differ).1
      exact (List.nodup_append.mp before).2.2 _ listed _ (List.mem_singleton.mpr rfl) rfl
    have recorded : (c.record reg).exports moduleName = c.exports moduleName ++ [reg.2] := by
      rw [Contents.exports_record, if_pos named.symm, amend_absent new]
    rw [← recorded] at differ ⊢
    exact ih here differ

theorem Contents.Valid.exports_nodup (valid : c.Valid) (moduleName : List UInt8) :
    ((c.exports moduleName).map ModuleExport.ordinal).Nodup := by
  unfold Contents.exports
  cases known : row Prod.fst moduleName c with
  | none => exact List.nodup_nil
  | some m => exact valid.ordinals m (mem_of_row known)

/-- The exports are the latest registrations. -/
theorem mem_exports_contentsOf : e ∈ (contentsOf regs).exports moduleName ↔
    latest regs moduleName e.ordinal = some e := by
  rw [← find_contentsOf, Contents.find_exports]
  constructor
  · exact fun listed => row_of_mem ((contentsOf_valid regs).exports_nodup moduleName) listed
  · exact mem_of_row

/-! ## Their order -/

theorem firstRegistered_snoc (before : firstRegistered regs moduleName ordinal < regs.length) :
    firstRegistered (regs ++ [reg]) moduleName ordinal = firstRegistered regs moduleName ordinal := by
  unfold firstRegistered at before ⊢
  rw [List.findIdx_append, if_pos before]

theorem firstRegistered_new (none : ordinal ∉ ((contentsOf regs).exports moduleName).map ModuleExport.ordinal)
    (here : reg.1 = moduleName ∧ reg.2.ordinal = ordinal) :
    firstRegistered (regs ++ [reg]) moduleName ordinal = regs.length := by
  have unseen : firstRegistered regs moduleName ordinal = regs.length := by
    unfold firstRegistered
    rw [List.findIdx_eq_length]
    intro earlier listed
    refine decide_eq_false fun same => none ?_
    rw [← row_isSome, ← Contents.find_exports, ← Contents.mem_slots (contentsOf_valid regs), mem_slots_contentsOf]
    exact List.mem_map.mpr ⟨earlier, listed, Prod.ext same.1 same.2⟩
  unfold firstRegistered at unseen ⊢
  rw [List.findIdx_append, unseen, if_neg (Nat.lt_irrefl _), List.findIdx_singleton, if_pos (decide_eq_true here)]
  exact Nat.zero_add _

theorem firstRegistered_lt (known : ordinal ∈ ((contentsOf regs).exports moduleName).map ModuleExport.ordinal) :
    firstRegistered regs moduleName ordinal < regs.length := by
  rw [← row_isSome, ← Contents.find_exports, ← Contents.mem_slots (contentsOf_valid regs), mem_slots_contentsOf] at known
  obtain ⟨earlier, listed, same⟩ := List.mem_map.mp known
  apply List.findIdx_lt_length_of_exists
  exact ⟨earlier, listed, decide_eq_true ⟨congrArg Prod.fst same, congrArg Prod.snd same⟩⟩

/-- The exports of a module stand in the order their ordinals first came. -/
theorem exports_ordered (regs : List Registration) (moduleName : List UInt8) :
    (((contentsOf regs).exports moduleName).map ModuleExport.ordinal).Pairwise fun ordinal ordinal' =>
      firstRegistered regs moduleName ordinal < firstRegistered regs moduleName ordinal' := by
  induction regs using List.reverseRecOn with
  | nil => exact List.Pairwise.nil
  | append_singleton regs reg ih =>
    -- a registration does not move the ordinals that were there
    have kept : (((contentsOf regs).exports moduleName).map ModuleExport.ordinal).Pairwise fun ordinal ordinal' =>
        firstRegistered (regs ++ [reg]) moduleName ordinal < firstRegistered (regs ++ [reg]) moduleName ordinal' := by
      refine ih.imp_of_mem fun known known' before => ?_
      rw [firstRegistered_snoc (firstRegistered_lt known), firstRegistered_snoc (firstRegistered_lt known')]
      exact before
    rw [contentsOf_snoc, Contents.exports_record]
    split
    · next here =>
      rw [keys_amend (fun _ _ => rfl) rfl]
      split
      · exact kept
      · next new =>
        refine List.pairwise_append.mpr ⟨kept, List.pairwise_singleton _ _, fun ordinal known ordinal' last => ?_⟩
        rw [List.mem_singleton.mp last, firstRegistered_new new ⟨here.symm, rfl⟩,
          firstRegistered_snoc (firstRegistered_lt known)]
        exact firstRegistered_lt known
    · exact kept

/-! ## The search -/

/-- The search reads the contents. -/
theorem mrGetMethodByName_eq (moduleName name : List UInt8) (r : ModuleRegistry) : mrGetMethodByName moduleName name r =
    match (r.contents.exports moduleName).find? fun e => decide (e.IsNamed name) with
    | some e => (true, e.address)
    | none => (false, 0) := by
  have modules : row Prod.fst moduleName r.contents =
      (row ModuleExportTable.name moduleName r.exportTable).map ModuleExportTable.contents :=
    row_map fun _ => rfl
  unfold mrGetMethodByName Contents.exports
  rw [modules]
  cases row ModuleExportTable.name moduleName r.exportTable with
  | none => rfl
  | some table =>
    have same : ((fun e : ModuleExport => decide (e.IsNamed name)) ∘ ExportNode.entry) =
        fun node : ExportNode => node.isNamed name := rfl
    simp only [Option.map_some, Option.getD_some, ModuleExportTable.contents, List.find?_map, same]
    cases table.exports.find? fun node => node.isNamed name <;> rfl

/-- The export a search stops at is registered under the name, before any
other that is. -/
theorem find_named (found : ((contentsOf regs).exports moduleName).find? (fun e => decide (e.IsNamed name)) = some e) :
    latest regs moduleName e.ordinal = some e ∧ e.IsNamed name ∧
      ∀ ordinal, RegisteredAs regs moduleName name ordinal → ordinal ≠ e.ordinal →
        firstRegistered regs moduleName e.ordinal < firstRegistered regs moduleName ordinal := by
  obtain ⟨named, before, after, whole, earlier⟩ := List.find?_eq_some_iff_append.mp found
  refine ⟨mem_exports_contentsOf.mp (List.mem_of_find?_eq_some found), of_decide_eq_true named, ?_⟩
  rintro ordinal ⟨e', last, named'⟩ differs
  have number : e'.ordinal = ordinal := by
    rw [← find_contentsOf, Contents.find_exports] at last
    exact key_of_row last
  subst number
  have listed : e' ∈ before ++ e :: after := whole ▸ mem_exports_contentsOf.mpr last
  have ordered := exports_ordered regs moduleName
  rw [whole, List.map_append, List.map_cons, List.pairwise_append] at ordered
  rcases List.mem_append.mp listed with passed | rest
  · have unnamed := earlier e' passed
    rw [decide_eq_true named'] at unnamed
    cases unnamed
  · rcases List.mem_cons.mp rest with rfl | later
    · exact absurd rfl differs
    · exact (List.pairwise_cons.mp ordered.2.1).1 _ (List.mem_map_of_mem later)

/-- After any history whose allocations succeed a name is found in a module
exactly when an ordinal of it was registered with the name last, and then it
has the address of the earliest such ordinal. -/
theorem registry_names_agree (b : Build) (alloc : Ledger → Nat → Nat) (history : List RegistryCall)
    (granted : Granted (ledgerOf (execAll b alloc history {}))) :
    ∃ r, execAll b alloc history {} = .ok r ∧ ∀ moduleName name,
      ((mrGetMethodByName moduleName name r).1 = true ↔
        ∃ ordinal, RegisteredAs (sinceReset history) moduleName name ordinal) ∧
      (∀ address, mrGetMethodByName moduleName name r = (true, address) →
        ∃ ordinal, RegisteredAs (sinceReset history) moduleName name ordinal ∧
          (∀ ordinal', RegisteredAs (sinceReset history) moduleName name ordinal' → ordinal' ≠ ordinal →
            firstRegistered (sinceReset history) moduleName ordinal <
              firstRegistered (sinceReset history) moduleName ordinal') ∧
          mrGetMethodByOrdinal moduleName ordinal r = (true, address)) ∧
      ((mrGetMethodByName moduleName name r).1 = false → (mrGetMethodByName moduleName name r).2 = 0) := by
  have ends := @execAll_ends b alloc {} [] history (.inl rfl)
  cases executed : execAll b alloc history {} with
  | error calls =>
    rw [executed] at ends granted
    exact absurd granted ends.2
  | ok r =>
    rw [executed] at ends granted
    have holds : r.contents = contentsOf (sinceReset history) := ends.2.resolve_right fun h => h granted
    refine ⟨r, rfl, fun moduleName name => ?_⟩
    rw [mrGetMethodByName_eq, holds]
    cases found : ((contentsOf (sinceReset history)).exports moduleName).find? fun e => decide (e.IsNamed name) with
    | some e =>
      obtain ⟨last, named, earliest⟩ := find_named found
      refine ⟨iff_of_true rfl ⟨e.ordinal, e, last, named⟩, fun address same => ?_, fun missed => by cases missed⟩
      cases same
      refine ⟨e.ordinal, ⟨e, last, named⟩, earliest, ?_⟩
      rw [mrGetMethodByOrdinal_eq, holds, find_contentsOf, last]
    | none =>
      refine ⟨iff_of_false Bool.false_ne_true ?_, fun address same => (by cases same), fun _ => rfl⟩
      rintro ⟨ordinal, e, last, named⟩
      have number : e.ordinal = ordinal := by
        rw [← find_contentsOf, Contents.find_exports] at last
        exact key_of_row last
      subst number
      exact of_decide_eq_false (by simpa using List.find?_eq_none.mp found e (mem_exports_contentsOf.mpr last)) named

/-- Two ordinals with one name, of which the first loses it. -/
def renamedExport : List RegistryCall :=
  [.register [109] ⟨2, some ⟨8, [97]⟩, none, 16⟩, .register [109] ⟨1, none, some ⟨24, [97]⟩, 32⟩,
    .register [109] ⟨2, some ⟨40, [98]⟩, none, 48⟩]

theorem renamedExport_found : ∃ r, execAll .target bump renamedExport {} = .ok r ∧
    (mrGetMethodByName [109] [97] r).1 = true ∧ (mrGetMethodByName [107] [97] r).1 = false := by
  obtain ⟨r, executed, names⟩ := registry_names_agree .target bump renamedExport (by decide +kernel)
  refine ⟨r, executed, (names [109] [97]).1.mpr ⟨1, _, rfl, .inr rfl⟩, ?_⟩
  refine Bool.eq_false_of_not_eq_true fun found => ?_
  obtain ⟨ordinal, e, last, -⟩ := (names [107] [97]).1.mp found
  obtain ⟨reg, known, -⟩ := Option.map_eq_some_iff.mp last
  have others : ∀ reg ∈ (sinceReset renamedExport).reverse, reg.1 ≠ [107] := by decide +kernel
  have here := List.find?_some known
  exact others reg (List.mem_of_find?_eq_some known) (of_decide_eq_true here).1

end Dyndxt.Registry
