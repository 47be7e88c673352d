import Dyndxt.Link.LinkLoadedModules
import Dyndxt.Registry.LastWrite

/-!
# What linking registers

Every slot of the function table is registered, the unused ones too, under
`Base` plus its index modulo `2 ^ 32`. That is what the module exports exactly
when no slot is unused and the ordinals do not wrap.
-/

namespace Dyndxt.Link
open Dyndxt.Mem Dyndxt.Pool Dyndxt.Loader Dyndxt.Registry Dyndxt.Session Dyndxt.Run

section

variable (m : Bytes) (moduleBase : UInt32)

/-- Valid headers, and an export directory. -/
structure HasExports : Prop where
  magic : (dosHeader m moduleBase).eMagic = imageDosSignature
  signature : (ntHeader m moduleBase).signature = imageNtSignature
  size : (directoryInfo m moduleBase).size ≠ 0

/-- The ordinal is the module's, and its slot is used. -/
def Exported (ordinal : UInt32) : Prop :=
  (exportDirectory m moduleBase).base ≤ ordinal ∧
  ordinal.toNat < (exportDirectory m moduleBase).base.toNat + (exportDirectory m moduleBase).numberOfFunctions.toNat ∧
  functionArray m moduleBase (ordinal - (exportDirectory m moduleBase).base) ≠ 0

/-- The slot that is registered for an ordinal, whether or not it is used. -/
def Listed (ordinal : UInt32) : Prop :=
  ordinal - (exportDirectory m moduleBase).base < (exportDirectory m moduleBase).numberOfFunctions

/-- No slot is unused and no ordinal wraps. -/
def Gapless : Prop :=
  (∀ i < (exportDirectory m moduleBase).numberOfFunctions, functionArray m moduleBase i ≠ 0) ∧
  (exportDirectory m moduleBase).base.toNat + (exportDirectory m moduleBase).numberOfFunctions.toNat ≤ 2 ^ 32

/-- The registry has got the module's exports and nothing else. -/
structure LinksExactly (moduleName : List UInt8) (r r' : ModuleRegistry) : Prop where
  succeeds : ∀ ordinal, (mrGetMethodByOrdinal moduleName ordinal r').1 = true ↔ Exported m moduleBase ordinal
  address : ∀ ordinal, Exported m moduleBase ordinal → (mrGetMethodByOrdinal moduleName ordinal r').2 =
    functionArray m moduleBase (ordinal - (exportDirectory m moduleBase).base) + moduleBase
  others : ∀ other, other ≠ moduleName → ∀ ordinal,
    r'.contents.find other ordinal = r.contents.find other ordinal

/-- The first `n` registrations. -/
def registrations (moduleName : List UInt8) (n : Nat) : List Registration :=
  (List.range n).map fun i => (moduleName, moduleExport m moduleBase (.ofNat i))

end

variable {m : Bytes} {moduleBase ordinal : UInt32} {alloc : Ledger → Nat → Nat} {moduleName other : List UInt8}
  {r r' : ModuleRegistry} {c : Contents} {n : Nat}

/-! ## Slots and ordinals -/

theorem moduleExport_eq (i : UInt32) : moduleExport m moduleBase i =
    ⟨i + (exportDirectory m moduleBase).base, none, none, functionArray m moduleBase i + moduleBase⟩ := by
  rw [moduleExport, UInt32.add_sub_cancel]

/-- The round that registers an ordinal. -/
theorem ordinal_eq (base : UInt32) (small : n < 2 ^ 32) :
    (UInt32.ofNat n + base = ordinal) ↔ (ordinal - base).toNat = n := by
  constructor
  · rintro rfl
    rw [UInt32.add_sub_cancel, UInt32.toNat_ofNat_of_lt' small]
  · rintro rfl
    rw [UInt32.ofNat_toNat, UInt32.sub_add_cancel]

theorem registrations_snoc (i : Nat) : (registrations m moduleBase moduleName (i + 1)).foldl Contents.record c =
    ((registrations m moduleBase moduleName i).foldl Contents.record c).record
      (moduleName, moduleExport m moduleBase (.ofNat i)) := by
  rw [registrations, List.range_succ, List.map_append, List.foldl_append]
  rfl

theorem find_registrations (fits : n ≤ 2 ^ 32) :
    ((registrations m moduleBase moduleName n).foldl Contents.record c).find moduleName ordinal =
      if (ordinal - (exportDirectory m moduleBase).base).toNat < n then
        some (moduleExport m moduleBase (ordinal - (exportDirectory m moduleBase).base))
      else c.find moduleName ordinal := by
  induction n with
  | zero => rfl
  | succ n ih =>
    rw [registrations_snoc, Contents.find_record, ih (by omega), moduleExport_eq]
    have here := @ordinal_eq ordinal n (exportDirectory m moduleBase).base (by omega)
    by_cases same : (ordinal - (exportDirectory m moduleBase).base).toNat = n
    · have slot : UInt32.ofNat n = ordinal - (exportDirectory m moduleBase).base := by
        rw [← same, UInt32.ofNat_toNat]
      rw [if_pos ⟨rfl, here.mpr same⟩, if_pos (by omega), ← slot, moduleExport_eq]
    · rw [if_neg fun both => same (here.mp both.2)]
      by_cases below : (ordinal - (exportDirectory m moduleBase).base).toNat < n
      · rw [if_pos below, if_pos (by omega)]
      · rw [if_neg below, if_neg (by omega)]

theorem find_registrations_other (differs : other ≠ moduleName) :
    ((registrations m moduleBase moduleName n).foldl Contents.record c).find other ordinal =
      c.find other ordinal := by
  induction n with
  | zero => rfl
  | succ n ih =>
    rw [registrations_snoc, Contents.find_record, if_neg fun both => differs both.1.symm, ih]

/-! ## The loop -/

/-- The rounds from `i` on register, unless an allocation fails. -/
theorem registerExports_ends (left i : Nat)
    (holds : r.contents = (registrations m moduleBase moduleName i).foldl Contents.record c) :
    Ends (fun p => r.calls <:+ p.2.calls ∧ (p.1 = true ∧
        p.2.contents = (registrations m moduleBase moduleName (i + left)).foldl Contents.record c ∨
          ¬ Granted p.2.calls))
      (Starved r.calls) (registerExports m moduleBase alloc moduleName left (.ofNat i) r) := by
  induction left generalizing r i with
  | zero => exact ⟨List.suffix_rfl, .inl ⟨rfl, holds⟩⟩
  | succ left ih =>
    unfold registerExports
    have first := @mrRegisterMethod_ends .target alloc r moduleName (moduleExport m moduleBase (.ofNat i))
    cases registered : mrRegisterMethod .target alloc moduleName (moduleExport m moduleBase (.ofNat i)) r with
    | error calls =>
      rw [registered] at first
      exact first
    | ok p =>
      rw [registered] at first
      obtain ⟨ok, r₁⟩ := p
      obtain ⟨later, ⟨rfl, recorded⟩ | ⟨rfl, failed⟩⟩ := first
      · have next : UInt32.ofNat i + 1 = .ofNat (i + 1) := (UInt32.ofNat_add i 1).symm
        have holds₁ : r₁.contents = (registrations m moduleBase moduleName (i + 1)).foldl Contents.record c := by
          rw [registrations_snoc, ← holds]
          exact recorded
        show Ends _ _ (registerExports m moduleBase alloc moduleName left (UInt32.ofNat i + 1) r₁)
        rw [next]
        refine (ih (i + 1) holds₁).mono (fun p last => ⟨later.trans last.1, ?_⟩) fun calls starved => starved.later later
        rw [Nat.add_assoc, Nat.add_comm 1 left] at last
        exact last.2
      · exact ⟨later, .inr failed⟩

/-- A module with exports is registered slot by slot. -/
theorem registerModuleExports_ends (exports : HasExports m moduleBase) :
    Ends (fun p => (p.1 = xboxSOk ∧ p.2.contents =
        (registrations m moduleBase moduleName (exportDirectory m moduleBase).numberOfFunctions.toNat).foldl
          Contents.record r.contents) ∨ ¬ Granted p.2.calls)
      (Starved r.calls) (registerModuleExports m moduleBase alloc moduleName r) := by
  unfold registerModuleExports
  rw [if_neg (not_not.mpr exports.magic), if_neg (not_not.mpr exports.signature), if_neg exports.size]
  have loop := @registerExports_ends m moduleBase alloc moduleName r r.contents (exportDirectory m moduleBase).numberOfFunctions.toNat 0 rfl
  rw [Nat.zero_add] at loop
  refine Ends.bind loop ?_
  intro p left
  obtain ⟨ok, r'⟩ := p
  obtain ⟨-, ⟨rfl, holds⟩ | failed⟩ := left
  · exact .inl ⟨rfl, holds⟩
  · exact .inr failed

/-- The registry after linking: the registrations have been recorded in it. -/
def Linked (m : Bytes) (moduleBase : UInt32) (moduleName : List UInt8) (r r' : ModuleRegistry) : Prop :=
  r'.contents = (registrations m moduleBase moduleName (exportDirectory m moduleBase).numberOfFunctions.toNat).foldl
    Contents.record r.contents

theorem Linked.listed (linked : Linked m moduleBase moduleName r r') (listed : Listed m moduleBase ordinal) :
    mrGetMethodByOrdinal moduleName ordinal r' =
      (true, functionArray m moduleBase (ordinal - (exportDirectory m moduleBase).base) + moduleBase) := by
  have round := UInt32.lt_iff_toNat_lt.mp listed
  rw [mrGetMethodByOrdinal_eq, linked, find_registrations (Nat.le_of_lt (UInt32.toNat_lt _)), if_pos round,
    moduleExport_eq]

theorem Linked.unlisted (linked : Linked m moduleBase moduleName r r') (unlisted : ¬ Listed m moduleBase ordinal) :
    mrGetMethodByOrdinal moduleName ordinal r' = mrGetMethodByOrdinal moduleName ordinal r := by
  have noRound := fun below => unlisted (UInt32.lt_iff_toNat_lt.mpr below)
  rw [mrGetMethodByOrdinal_eq, linked, find_registrations (Nat.le_of_lt (UInt32.toNat_lt _)), if_neg noRound,
    mrGetMethodByOrdinal_eq]

/-- How far an ordinal lies above the first one. -/
theorem ordinal_offset (ordinal base : UInt32) : (ordinal - base).toNat =
    if base ≤ ordinal then ordinal.toNat - base.toNat else 2 ^ 32 + ordinal.toNat - base.toNat := by
  have below := ordinal.toNat_lt
  have above := base.toNat_lt
  rw [UInt32.toNat_sub]
  split
  case isTrue le =>
    have le := UInt32.le_iff_toNat_le.mp le
    omega
  case isFalse gt =>
    have gt := mt UInt32.le_iff_toNat_le.mpr gt
    omega

theorem Exported.listed (exported : Exported m moduleBase ordinal) : Listed m moduleBase ordinal := by
  obtain ⟨above, below, -⟩ := exported
  have offset := ordinal_offset ordinal (exportDirectory m moduleBase).base
  rw [if_pos above] at offset
  have above := UInt32.le_iff_toNat_le.mp above
  apply UInt32.lt_iff_toNat_lt.mpr
  omega

/-- Without gaps and wraps what is listed is exported. -/
theorem Gapless.exported (gapless : Gapless m moduleBase) (listed : Listed m moduleBase ordinal) :
    Exported m moduleBase ordinal := by
  have below := UInt32.lt_iff_toNat_lt.mp listed
  have fits := gapless.2
  have offset := ordinal_offset ordinal (exportDirectory m moduleBase).base
  by_cases above : (exportDirectory m moduleBase).base ≤ ordinal
  · rw [if_pos above] at offset
    refine ⟨above, ?_, gapless.1 _ listed⟩
    omega
  · rw [if_neg above] at offset
    omega

/-- Linking is exact exactly when the module has no gaps and no wraps. -/
theorem Linked.exactly (linked : Linked m moduleBase moduleName r r')
    (new : ∀ ordinal, (mrGetMethodByOrdinal moduleName ordinal r).1 = false) :
    LinksExactly m moduleBase moduleName r r' ↔ Gapless m moduleBase := by
  constructor
  · intro exactly
    have exported {ordinal : UInt32} (listed : Listed m moduleBase ordinal) : Exported m moduleBase ordinal :=
      (exactly.succeeds ordinal).mp (by rw [linked.listed listed])
    constructor
    · intro i below
      have listed : Listed m moduleBase (i + (exportDirectory m moduleBase).base) := by
        rwa [Listed, UInt32.add_sub_cancel]
      have used := (exported listed).2.2
      rwa [UInt32.add_sub_cancel] at used
    · by_contra wraps
      have low := (exportDirectory m moduleBase).base.toNat_lt
      have few := (exportDirectory m moduleBase).numberOfFunctions.toNat_lt
      have offset := ordinal_offset 0 (exportDirectory m moduleBase).base
      have positive : ¬ (exportDirectory m moduleBase).base ≤ 0 := by
        intro zero
        have zero := UInt32.le_iff_toNat_le.mp zero
        rw [UInt32.toNat_zero] at zero
        omega
      rw [if_neg positive, UInt32.toNat_zero] at offset
      refine positive (exported (UInt32.lt_iff_toNat_lt.mpr ?_)).1
      omega
  · intro gapless
    refine ⟨fun ordinal => ?_, fun ordinal exported => ?_, fun other differs ordinal => ?_⟩
    · by_cases listed : Listed m moduleBase ordinal
      · rw [linked.listed listed]
        exact iff_of_true rfl (gapless.exported listed)
      · rw [linked.unlisted listed, new ordinal]
        exact iff_of_false Bool.false_ne_true fun exported => listed exported.listed
    · rw [linked.listed exported.listed]
    · rw [linked]
      exact find_registrations_other differs

/-- The pool calls of a linking, however it ended. -/
def linkCalls : Except Ledger (UInt32 × ModuleRegistry) → Ledger
  | .ok p => p.2.calls
  | .error calls => calls

/-- With allocations that succeed a module with exports is linked. -/
theorem registerModuleExports_linked (exports : HasExports m moduleBase)
    (granted : Granted (linkCalls (registerModuleExports m moduleBase alloc moduleName r))) :
    ∃ r', registerModuleExports m moduleBase alloc moduleName r = .ok (xboxSOk, r') ∧
      Linked m moduleBase moduleName r r' := by
  have ends := @registerModuleExports_ends m moduleBase alloc moduleName r exports
  cases executed : registerModuleExports m moduleBase alloc moduleName r with
  | error calls =>
    rw [executed] at ends granted
    exact absurd granted ends.2
  | ok p =>
    rw [executed] at ends granted
    obtain ⟨code, r'⟩ := p
    obtain ⟨rfl, linked⟩ := ends.resolve_right fun failed => failed granted
    exact ⟨r', rfl, linked⟩

/-- What linking a module leaves in the registry. -/
theorem registerModuleExports_exactly (alloc : Ledger → Nat → Nat) (m : Bytes) (moduleBase : UInt32)
    (moduleName : List UInt8) (r : ModuleRegistry) (exports : HasExports m moduleBase)
    (new : ∀ ordinal, (mrGetMethodByOrdinal moduleName ordinal r).1 = false)
    (granted : Granted (linkCalls (registerModuleExports m moduleBase alloc moduleName r))) :
    ∃ r', registerModuleExports m moduleBase alloc moduleName r = .ok (xboxSOk, r') ∧
      (LinksExactly m moduleBase moduleName r r' ↔ Gapless m moduleBase) := by
  obtain ⟨r', executed, linked⟩ := registerModuleExports_linked exports granted
  exact ⟨r', executed, linked.exactly new⟩

/-- A module at `0x10000` with a first ordinal and the slots of its table. -/
def exportImage (first : UInt32) (slots : List UInt32) : Bytes :=
  ofWords ([(0x10000, 0x5A4D), (0x1003C, 0x40), (0x10040, 0x4550), (0x100B8, 0x100), (0x100BC, 0x28),
    (0x10110, first), (0x10114, .ofNat slots.length), (0x1011C, 0x128)] ++
      slots.zipIdx.map fun slot => (0x10128 + 4 * slot.2, slot.1))

theorem exportImage_exactly : ∃ r', registerModuleExports (exportImage 5 [0x1000, 0x2000]) 0x10000 bump [109] {} =
    .ok (xboxSOk, r') ∧ LinksExactly (exportImage 5 [0x1000, 0x2000]) 0x10000 [109] {} r' := by
  have gapless : Gapless (exportImage 5 [0x1000, 0x2000]) 0x10000 := by
    refine ⟨fun i below => ?_, by decide +kernel⟩
    have two : (exportDirectory (exportImage 5 [0x1000, 0x2000]) 0x10000).numberOfFunctions = 2 := by decide +kernel
    have slot : i = 0 ∨ i = 1 := by
      rw [two] at below
      have below : i.toNat < 2 := UInt32.lt_iff_toNat_lt.mp below
      simp only [← UInt32.toNat_inj, UInt32.toNat_zero, UInt32.toNat_one]
      omega
    rcases slot with rfl | rfl <;> decide +kernel
  obtain ⟨r', linked, exactly⟩ := registerModuleExports_exactly bump (exportImage 5 [0x1000, 0x2000]) 0x10000 [109] {}
    ⟨by decide +kernel, by decide +kernel, by decide +kernel⟩ (fun _ => rfl) (by decide +kernel)
  exact ⟨r', linked, exactly.mpr gapless⟩

/-- The gap at the first ordinal is registered at the module's base. -/
theorem exportImage_gap : ∃ r', registerModuleExports (exportImage 1 [0, 0x1000]) 0x10000 bump [109] {} =
    .ok (xboxSOk, r') ∧ mrGetMethodByOrdinal [109] 1 r' = (true, 0x10000) ∧
    ¬ LinksExactly (exportImage 1 [0, 0x1000]) 0x10000 [109] {} r' := by
  have outcome : (registerModuleExports (exportImage 1 [0, 0x1000]) 0x10000 bump [109] {}).map (fun p =>
      (p.1, mrGetMethodByOrdinal [109] 1 p.2)) = .ok (xboxSOk, true, 0x10000) := by decide +kernel
  cases executed : registerModuleExports (exportImage 1 [0, 0x1000]) 0x10000 bump [109] {} with
  | error calls => rw [executed] at outcome; cases outcome
  | ok p =>
    rw [executed] at outcome
    obtain ⟨code, r'⟩ := p
    have outcome := Prod.mk.inj (Except.ok.inj outcome)
    obtain ⟨rfl, found⟩ := outcome
    refine ⟨r', rfl, found, fun exactly => ?_⟩
    have exported := (exactly.succeeds 1).mp (by rw [found])
    exact exported.2.2 (by decide +kernel)

end Dyndxt.Link
