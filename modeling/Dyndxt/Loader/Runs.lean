import Dyndxt.Loader.Load

/-!
# The two loops in a load

Where the import and the relocation loops start, and a load whose file passes
succeed written as one after the other: its outcome on a budget is that of
the loop it is in.
-/

namespace Dyndxt.Loader
open Dyndxt.Mem Dyndxt.Pool Dyndxt.Run

/-- The import loops at their first descriptor. -/
def importEntry (ctx : DllContext) : ImportPc × DllContext :=
  (.descriptor (ctx.output.header.optionalHeader.dataDirectory
    imageDirectoryEntryImport).virtualAddress.toNat, ctx.setErrorContext .resolveImports)

/-- The relocation loops at their first block. -/
def relocEntry (ctx : DllContext) : RelocPc × DllContext :=
  (.block (ctx.output.header.optionalHeader.dataDirectory
    imageDirectoryEntryBaseReloc).virtualAddress.toNat, ctx.setErrorContext .relocate)

/-- `relocTurn` with the delta of a context. -/
def rebaseTurn (b : Build) (newBase : UInt32) (ctx : DllContext) :
    RelocPc × DllContext → Turn (RelocPc × DllContext) Pass :=
  relocTurn b newBase (imageDelta ctx.output.header.optionalHeader.imageBase newBase)

theorem holds_stopped {pc : Type} {I : DllContext → Prop} {Q : Pass → Prop}
    {t : Turn (pc × DllContext) Pass} (h : t.Holds (fun s => I s.2) Q) : (stopped t).Holds I Q := by
  cases t with
  | again s => exact h
  | leave r => exact h

variable {b : Build} {inp : DllLoaderInput} {ctx : DllContext} {newBase : UInt32} {r : Pass}

/-! ## Each pass as a run -/

theorem dllResolveImports_none
    (none : (ctx.output.header.optionalHeader.dataDirectory imageDirectoryEntryImport).size = 0)
    (budget : Nat) :
    dllResolveImports b inp budget ctx = .leave (.ok (ctx.setErrorContext .resolveImports)) :=
  if_pos none

theorem dllResolveImports_run
    (some : (ctx.output.header.optionalHeader.dataDirectory imageDirectoryEntryImport).size ≠ 0)
    (budget : Nat) :
    dllResolveImports b inp budget ctx = stopped (run (importTurn b inp) budget (importEntry ctx)) :=
  if_neg some

theorem dllRelocate_same (same : newBase = ctx.output.header.optionalHeader.imageBase) (budget : Nat) :
    dllRelocate b budget newBase ctx = .leave (.ok (ctx.setErrorContext .relocate)) :=
  if_pos same

theorem dllRelocate_none (differs : newBase ≠ ctx.output.header.optionalHeader.imageBase)
    (none : (ctx.output.header.optionalHeader.dataDirectory imageDirectoryEntryBaseReloc).size = 0)
    (budget : Nat) : dllRelocate b budget newBase ctx =
      .leave (.error ((ctx.setErrorContext .relocate).setErrorStatus .noRelocationData)) :=
  (if_neg differs).trans (if_pos none)

theorem dllRelocate_run (differs : newBase ≠ ctx.output.header.optionalHeader.imageBase)
    (some : (ctx.output.header.optionalHeader.dataDirectory imageDirectoryEntryBaseReloc).size ≠ 0)
    (budget : Nat) : dllRelocate b budget newBase ctx =
      stopped (run (rebaseTurn b newBase ctx) budget (relocEntry ctx)) :=
  (if_neg differs).trans (if_neg some)

/-- A pass whose loop leaves has that result on every budget from some on. -/
theorem dllResolveImports_returns
    (some : (ctx.output.header.optionalHeader.dataDirectory imageDirectoryEntryImport).size ≠ 0)
    (returns : Returns (importTurn b inp) (importEntry ctx) r) :
    ∃ n, ∀ budget, n ≤ budget → dllResolveImports b inp budget ctx = .leave r := by
  obtain ⟨n, runs⟩ := returns.eventually
  refine ⟨n, fun budget le => ?_⟩
  rw [dllResolveImports_run some, runs budget le]
  rfl

theorem dllRelocate_returns (differs : newBase ≠ ctx.output.header.optionalHeader.imageBase)
    (some : (ctx.output.header.optionalHeader.dataDirectory imageDirectoryEntryBaseReloc).size ≠ 0)
    (returns : Returns (rebaseTurn b newBase ctx) (relocEntry ctx) r) :
    ∃ n, ∀ budget, n ≤ budget → dllRelocate b budget newBase ctx = .leave r := by
  obtain ⟨n, runs⟩ := returns.eventually
  refine ⟨n, fun budget le => ?_⟩
  rw [dllRelocate_run differs some, runs budget le]
  rfl

/-- A pass that leaves on one budget leaves the same way on any larger one. -/
theorem dllResolveImports_mono {n budget : Nat} (h : dllResolveImports b inp n ctx = .leave r)
    (le : n ≤ budget) : dllResolveImports b inp budget ctx = .leave r := by
  by_cases none : (ctx.output.header.optionalHeader.dataDirectory imageDirectoryEntryImport).size = 0
  · rw [dllResolveImports_none none] at h ⊢
    exact h
  · rw [dllResolveImports_run none] at h ⊢
    cases left : run (importTurn b inp) n (importEntry ctx) with
    | again s => rw [left] at h; cases h
    | leave r' => rw [left] at h; rw [run_eq_of_le left le]; exact h

theorem dllRelocate_mono {n budget : Nat} (h : dllRelocate b n newBase ctx = .leave r)
    (le : n ≤ budget) : dllRelocate b budget newBase ctx = .leave r := by
  by_cases same : newBase = ctx.output.header.optionalHeader.imageBase
  · rw [dllRelocate_same same] at h ⊢
    exact h
  · by_cases none : (ctx.output.header.optionalHeader.dataDirectory imageDirectoryEntryBaseReloc).size = 0
    · rw [dllRelocate_none same none] at h ⊢
      exact h
    · rw [dllRelocate_run same none] at h ⊢
      cases left : run (rebaseTurn b newBase ctx) n (relocEntry ctx) with
      | again s => rw [left] at h; cases h
      | leave r' => rw [left] at h; rw [run_eq_of_le left le]; exact h

/-- The round of a block whose pointers do not wrap. -/
theorem relocTurn_block {delta : Int32} {p : Nat} (address : ctx.load32 b p ≠ 0) (start : p + b.sizeofPtr < b.space)
    (stop : p + (ctx.load32 b (p + 4)).toNat < b.space) : relocTurn b newBase delta (.block p, ctx) =
      .again (.entry (ctx.load32 b p).toNat (p + b.sizeofPtr) (p + (ctx.load32 b (p + 4)).toNat), ctx) := by
  simp only [relocTurn, if_pos (UInt32.pos_iff_ne_zero.mpr address)]
  rw [Nat.mod_eq_of_lt start, Nat.mod_eq_of_lt stop]

/-! ## A load as its passes -/

/-- A run of a pass, cleaned up after where it refuses. -/
def cleanedUp : Turn DllContext Pass → Turn DllContext Pass
  | .again ctx => .again ctx
  | .leave r => .leave (cleanUp r)

/-- With the file parsed, a load is its import pass and then its relocation
pass. -/
theorem dllLoad_eq (passes : inp.FilePasses b ctx.calls) (budget : Nat) :
    dllLoad b inp budget ctx = match dllResolveImports b inp budget (ctx.reset.fileParsed b inp) with
      | .again c => .again c
      | .leave (.error c) => .leave (.error (dllFreeContext c false))
      | .leave (.ok c) =>
        cleanedUp (dllRelocate b budget (.ofNat (inp.imageBlock b ctx.calls)) c) := by
  have fold : ({ ctx.setErrorContext .notParsed with output := {} } : DllContext) = ctx.reset := rfl
  have parsed : dllParseFile b inp ctx.reset = .ok (ctx.reset.fileParsed b inp) := dllParseFile_ok passes
  simp only [dllLoad, dllParse, fold, parsed]
  cases resolved : dllResolveImports b inp budget (ctx.reset.fileParsed b inp) with
  | again c => rfl
  | leave p =>
    have ends := dllResolveImports_ends resolved
    cases p with
    | error c => rfl
    | ok c =>
      simp only [cleanUp]
      rw [(Kept.loaded ends).2.2.1]
      cases dllRelocate b budget (.ofNat (inp.imageBlock b ctx.calls)) c with
      | again c => rfl
      | leave p => rfl

/-- A load that returns true, by what its two loops return. -/
theorem dllLoad_ok_iff {c : DllContext} {budget : Nat} (passes : inp.FilePasses b ctx.calls) :
    dllLoad b inp budget ctx = .leave (.ok c) ↔
      ∃ c₁, dllResolveImports b inp budget (ctx.reset.fileParsed b inp) = .leave (.ok c₁) ∧
        dllRelocate b budget (.ofNat (inp.imageBlock b ctx.calls)) c₁ = .leave (.ok c) := by
  rw [dllLoad_eq passes]
  constructor
  · intro h
    split at h
    · cases h
    · cases h
    · next c₁ imports =>
      refine ⟨c₁, imports, ?_⟩
      cases relocs : dllRelocate b budget (.ofNat (inp.imageBlock b ctx.calls)) c₁ with
      | again c' => rw [relocs] at h; cases h
      | leave r =>
        rw [relocs] at h
        cases r with
        | ok c' => exact h
        | error c' => cases h
  · intro ⟨c₁, imports, relocs⟩
    simp only [imports, relocs]
    rfl

theorem dllLoad_ok_mono {c : DllContext} {n budget : Nat} (passes : inp.FilePasses b ctx.calls)
    (h : dllLoad b inp n ctx = .leave (.ok c)) (le : n ≤ budget) :
    dllLoad b inp budget ctx = .leave (.ok c) := by
  obtain ⟨c₁, imports, relocs⟩ := (dllLoad_ok_iff passes).mp h
  exact (dllLoad_ok_iff passes).mpr ⟨c₁, dllResolveImports_mono imports le, dllRelocate_mono relocs le⟩

end Dyndxt.Loader
