import Dyndxt.Link.Exports

/-!
# `bootstrap_l2.asm`: `GetExportAddress`

The bootstrap's resolver of ordinals, by registers. It takes the ordinal less
one for the index and compares it as a signed number, so it agrees with what
linking registers only where both meet the same slot.
-/

namespace Dyndxt.Bootstrap
open Dyndxt.Mem Dyndxt.Pool Dyndxt.Loader Dyndxt.Registry Dyndxt.Session Dyndxt.Link

/-- `[p]` -/
def load (m : Bytes) (p : UInt32) : UInt32 := u32 Build.target.space m p.toNat

def kPEHeaderPointer : UInt32 := 0x3C
def kExportTableOffset : UInt32 := 0x78
def kExportNumFunctionsOffset : UInt32 := 0x14
def kExportDirectoryAddressOfFunctionsOffset : UInt32 := 0x1C

/-- `GetExportAddress` of the image at `edx` and the ordinal `eax`: what is left
in `eax` and what is stored to `[ebx]`. -/
def getExportAddress (m : Bytes) (edx eax : UInt32) : UInt32 × UInt32 :=
  let ecx := edx + kPEHeaderPointer
  let ecx := load m ecx + edx + kExportTableOffset
  let edi := edx + load m ecx
  let esi := load m (edi + kExportNumFunctionsOffset)
  let eax := eax - 1
  -- jge compares signed
  if esi.toInt32 ≤ eax.toInt32 then (1, 0)
  else
    let esi := load m (edi + kExportDirectoryAddressOfFunctionsOffset) + edx
    let esi := esi + (eax <<< 2)
    (0, load m esi + edx)

section

variable (m : Bytes) (base ordinal : UInt32)

/-- The bootstrap's bound check passes. -/
def Bounded : Prop := ¬ (exportDirectory m base).numberOfFunctions.toInt32 ≤ (ordinal - 1).toInt32

/-- The two resolvers agree on an ordinal, and none is resolved that the module
does not export. -/
structure ResolversAgree (moduleName : List UInt8) (r : ModuleRegistry) : Prop where
  resolved : (getExportAddress m base ordinal).2 ≠ 0 ↔
    (mrGetMethodByOrdinal moduleName ordinal r).1 = true ∧ (mrGetMethodByOrdinal moduleName ordinal r).2 ≠ 0
  address : (getExportAddress m base ordinal).2 ≠ 0 →
    (mrGetMethodByOrdinal moduleName ordinal r).2 = (getExportAddress m base ordinal).2
  absent : ¬ Exported m base ordinal → (getExportAddress m base ordinal).2 = 0

/-- Both meet the same slot of an exported ordinal, or neither meets a slot
that makes an address. -/
def MeetAlike : Prop :=
  (Exported m base ordinal ∧ Bounded m base ordinal ∧
    functionArray m base (ordinal - 1) = functionArray m base (ordinal - (exportDirectory m base).base)) ∨
  ((Bounded m base ordinal → functionArray m base (ordinal - 1) + base = 0) ∧
    (Listed m base ordinal → functionArray m base (ordinal - (exportDirectory m base).base) + base = 0))

end

variable {m : Bytes} {base ordinal : UInt32} {moduleName : List UInt8} {r r' : ModuleRegistry}
  {alloc : Ledger → Nat → Nat}

/-! ## The registers -/

theorem load_eq {p : UInt32} {a : Nat} (same : p.toNat = a % 2 ^ 32) : load m p = u32 Build.target.space m a := by
  rw [load, same]
  exact u32_mod a

/-- `GetExportAddress` reads the directory and the table that linking reads. -/
theorem getExportAddress_eq : getExportAddress m base ordinal =
    if (exportDirectory m base).numberOfFunctions.toInt32 ≤ (ordinal - 1).toInt32 then (1, 0)
    else (0, functionArray m base (ordinal - 1) + base) := by
  have pointer : load m (base + kPEHeaderPointer) = (dosHeader m base).eLfanew := load_eq (UInt32.toNat_add _ _)
  have table : load m ((dosHeader m base).eLfanew + base + kExportTableOffset) =
      (directoryInfo m base).virtualAddress := by
    refine load_eq ?_
    rw [UInt32.toNat_add, UInt32.toNat_add, show kExportTableOffset.toNat = 120 from rfl]
    simp only [imageDirectoryEntryExport, Fin.val_zero]
    omega
  have count : load m (base + (directoryInfo m base).virtualAddress + kExportNumFunctionsOffset) =
      (exportDirectory m base).numberOfFunctions := by
    refine load_eq ?_
    rw [UInt32.toNat_add, UInt32.toNat_add, show kExportNumFunctionsOffset.toNat = 20 from rfl]
    omega
  have functions : load m (base + (directoryInfo m base).virtualAddress + kExportDirectoryAddressOfFunctionsOffset) =
      (exportDirectory m base).addressOfFunctions := by
    refine load_eq ?_
    rw [UInt32.toNat_add, UInt32.toNat_add, show kExportDirectoryAddressOfFunctionsOffset.toNat = 28 from rfl]
    omega
  have slot : load m ((exportDirectory m base).addressOfFunctions + base + ((ordinal - 1) <<< 2)) =
      functionArray m base (ordinal - 1) := by
    refine load_eq ?_
    rw [UInt32.toNat_add, UInt32.toNat_add, UInt32.toNat_shiftLeft, Nat.shiftLeft_eq]
    have two : (2 : UInt32).toNat % 32 = 2 := rfl
    rw [two]
    omega
  unfold getExportAddress
  simp only [pointer, table, count, functions, slot]

/-! ## Agreement -/

theorem stored_bounded (bounded : Bounded m base ordinal) :
    (getExportAddress m base ordinal).2 = functionArray m base (ordinal - 1) + base := by
  rw [getExportAddress_eq, if_neg bounded]

theorem stored_unbounded (unbounded : ¬ Bounded m base ordinal) : (getExportAddress m base ordinal).2 = 0 := by
  rw [getExportAddress_eq, if_pos (not_not.mp unbounded)]

/-- What an ordinal is linked to in an empty registry. -/
theorem linked_listed (linked : Linked m base moduleName {} r) (listed : Listed m base ordinal) :
    mrGetMethodByOrdinal moduleName ordinal r =
      (true, functionArray m base (ordinal - (exportDirectory m base).base) + base) := linked.listed listed

theorem linked_unlisted (linked : Linked m base moduleName {} r) (unlisted : ¬ Listed m base ordinal) :
    mrGetMethodByOrdinal moduleName ordinal r = (false, 0) := linked.unlisted unlisted

/-- Agreement is that one address is found and the ordinal is the module's. -/
theorem resolversAgree_iff (missing : (mrGetMethodByOrdinal moduleName ordinal r).1 = false →
      (mrGetMethodByOrdinal moduleName ordinal r).2 = 0) :
    ResolversAgree m base ordinal moduleName r ↔
      (getExportAddress m base ordinal).2 = (mrGetMethodByOrdinal moduleName ordinal r).2 ∧
        (¬ Exported m base ordinal → (getExportAddress m base ordinal).2 = 0) := by
  constructor
  · intro agree
    refine ⟨?_, agree.absent⟩
    by_cases none : (getExportAddress m base ordinal).2 = 0
    · rw [none]
      by_contra some_
      have found : (mrGetMethodByOrdinal moduleName ordinal r).1 = true := by
        by_contra lost
        exact some_ (missing (Bool.eq_false_iff.mpr lost)).symm
      exact agree.resolved.mpr ⟨found, Ne.symm some_⟩ none
    · exact (agree.address none).symm
  · rintro ⟨same, absent⟩
    refine ⟨⟨fun some_ => ⟨?_, same ▸ some_⟩, fun found => same ▸ found.2⟩, fun _ => same.symm, absent⟩
    by_contra lost
    rw [same, missing (Bool.eq_false_iff.mpr lost)] at some_
    exact some_ rfl

/-- The two resolvers agree on an ordinal exactly when they meet alike. -/
theorem resolversAgree_of_linked (linked : Linked m base moduleName {} r) :
    ResolversAgree m base ordinal moduleName r ↔ MeetAlike m base ordinal := by
  by_cases listed : Listed m base ordinal
  · have found := linked_listed linked listed
    rw [resolversAgree_iff (by rw [found]; exact fun lost => by cases lost), found]
    by_cases bounded : Bounded m base ordinal
    · rw [stored_bounded bounded]
      constructor
      · intro agree
        obtain ⟨same, absent⟩ := agree
        by_cases exported : Exported m base ordinal
        · exact .inl ⟨exported, bounded, (UInt32.add_left_inj base).mp same⟩
        · exact .inr ⟨fun _ => absent exported, fun _ => same.symm.trans (absent exported)⟩
      · rintro (⟨exported, -, same⟩ | ⟨first, second⟩)
        · exact ⟨by rw [same], fun absent => absurd exported absent⟩
        · exact ⟨(first bounded).trans (second listed).symm, fun _ => first bounded⟩
    · rw [stored_unbounded bounded]
      constructor
      · intro agree
        exact .inr ⟨fun passes => absurd passes bounded, fun _ => agree.1.symm⟩
      · rintro (⟨-, passes, -⟩ | ⟨-, second⟩)
        · exact absurd passes bounded
        · exact ⟨(second listed).symm, fun _ => rfl⟩
  · have lost := linked_unlisted linked listed
    rw [resolversAgree_iff (by rw [lost]; exact fun _ => rfl), lost]
    constructor
    · intro agree
      refine .inr ⟨fun bounded => ?_, fun listed' => absurd listed' listed⟩
      rw [← stored_bounded bounded]
      exact agree.1
    · rintro (⟨exported, -⟩ | ⟨first, -⟩)
      · exact absurd exported.listed listed
      · have none : (getExportAddress m base ordinal).2 = 0 := by
          by_cases bounded : Bounded m base ordinal
          · rw [stored_bounded bounded, first bounded]
          · exact stored_unbounded bounded
        exact ⟨none, fun _ => none⟩

/-- After a module is linked into an empty registry the bootstrap's resolver
agrees with it on an ordinal exactly when they meet alike. -/
theorem getExportAddress_agrees (alloc : Ledger → Nat → Nat) (m : Bytes) (base ordinal : UInt32)
    (moduleName : List UInt8) (exports : HasExports m base)
    (granted : Granted (linkCalls (registerModuleExports m base alloc moduleName {}))) :
    ∃ r, registerModuleExports m base alloc moduleName {} = .ok (xboxSOk, r) ∧
      (ResolversAgree m base ordinal moduleName r ↔ MeetAlike m base ordinal) := by
  obtain ⟨r, executed, linked⟩ := registerModuleExports_linked exports granted
  exact ⟨r, executed, resolversAgree_of_linked linked⟩

/-- The only ordinal of this module is 5: the bootstrap does not resolve it,
and resolves 1. -/
theorem exportImage_disagrees : ∃ r, registerModuleExports (exportImage 5 [0x1000]) 0x10000 bump [109] {} =
    .ok (xboxSOk, r) ∧ mrGetMethodByOrdinal [109] 5 r = (true, 0x11000) ∧
    getExportAddress (exportImage 5 [0x1000]) 0x10000 5 = (1, 0) ∧
    ¬ ResolversAgree (exportImage 5 [0x1000]) 0x10000 5 [109] r := by
  have outcome : (registerModuleExports (exportImage 5 [0x1000]) 0x10000 bump [109] {}).map (fun p =>
      (p.1, mrGetMethodByOrdinal [109] 5 p.2)) = .ok (xboxSOk, true, 0x11000) := by decide +kernel
  have unresolved : getExportAddress (exportImage 5 [0x1000]) 0x10000 5 = (1, 0) := by decide +kernel
  cases executed : registerModuleExports (exportImage 5 [0x1000]) 0x10000 bump [109] {} with
  | error calls => rw [executed] at outcome; cases outcome
  | ok p =>
    rw [executed] at outcome
    obtain ⟨code, r⟩ := p
    have outcome := Prod.mk.inj (Except.ok.inj outcome)
    obtain ⟨rfl, found⟩ := outcome
    refine ⟨r, rfl, found, unresolved, fun agree => ?_⟩
    have resolved := agree.resolved.mpr (by rw [found]; exact ⟨rfl, by decide⟩)
    rw [unresolved] at resolved
    exact resolved rfl

theorem exportImage_agrees : ∃ r, registerModuleExports (exportImage 1 [0x1000, 0x2000]) 0x10000 bump [109] {} =
    .ok (xboxSOk, r) ∧ ResolversAgree (exportImage 1 [0x1000, 0x2000]) 0x10000 2 [109] r := by
  obtain ⟨r, executed, agrees⟩ := getExportAddress_agrees bump (exportImage 1 [0x1000, 0x2000]) 0x10000 2 [109]
    ⟨by decide +kernel, by decide +kernel, by decide +kernel⟩ (by decide +kernel)
  refine ⟨r, executed, agrees.mpr (.inl ⟨?_, by unfold Bounded; decide +kernel, by decide +kernel⟩)⟩
  unfold Exported
  decide +kernel

end Dyndxt.Bootstrap
