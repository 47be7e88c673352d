import Dyndxt.Run.Ends
import Dyndxt.Loader.FileLayout

/-!
# What the passes leave alone

The section, import and relocation loops touch the image, the logs and the
status; everything else of the context is framed. One lemma says what a round
of each loop can do to the context, and the run lemmas follow by the
invariant rules.
-/

namespace Dyndxt.Loader
open Dyndxt.Mem Dyndxt.Pool Dyndxt.Run

/-- The same allocator calls made, and the same blocks pointed to. -/
structure SameBlocks (ctx ctx' : DllContext) : Prop where
  sectionHeaders : ctx'.output.sectionHeaders = ctx.output.sectionHeaders
  imagePtr : ctx'.output.image = ctx.output.image
  calls : ctx'.calls = ctx.calls

/-- The fields that no section, import or relocation round changes. -/
structure Frame (ctx ctx' : DllContext) : Prop extends SameBlocks ctx ctx' where
  header : ctx'.output.header = ctx.output.header
  entrypoint : ctx'.output.entrypoint = ctx.output.entrypoint
  sectionTable : ctx'.sectionTable = ctx.sectionTable

/-- A frame that keeps the status too. -/
structure Kept (ctx ctx' : DllContext) : Prop extends Frame ctx ctx' where
  status : ctx'.output.status = ctx.output.status

variable {b : Build} {inp : DllLoaderInput} {ctx ctx' ctx'' : DllContext}

theorem SameBlocks.refl (ctx : DllContext) : SameBlocks ctx ctx := ⟨rfl, rfl, rfl⟩

theorem Frame.refl (ctx : DllContext) : Frame ctx ctx := ⟨.refl ctx, rfl, rfl, rfl⟩

theorem SameBlocks.trans (h : SameBlocks ctx ctx') (h' : SameBlocks ctx' ctx'') :
    SameBlocks ctx ctx'' :=
  ⟨h'.sectionHeaders.trans h.sectionHeaders, h'.imagePtr.trans h.imagePtr, h'.calls.trans h.calls⟩

theorem Frame.trans (h : Frame ctx ctx') (h' : Frame ctx' ctx'') : Frame ctx ctx'' :=
  ⟨h.toSameBlocks.trans h'.toSameBlocks, h'.header.trans h.header, h'.entrypoint.trans h.entrypoint,
    h'.sectionTable.trans h.sectionTable⟩

theorem Kept.refl (ctx : DllContext) : Kept ctx ctx := ⟨Frame.refl ctx, rfl⟩

theorem Kept.trans (h : Kept ctx ctx') (h' : Kept ctx' ctx'') : Kept ctx ctx'' :=
  ⟨h.toFrame.trans h'.toFrame, h'.status.trans h.status⟩

theorem kept_setErrorContext (value : DllLoaderContext) : Kept ctx (ctx.setErrorContext value) :=
  ⟨⟨⟨rfl, rfl, rfl⟩, rfl, rfl, rfl⟩, rfl⟩

theorem frame_setErrorStatus (value : DllLoaderStatus) : Frame ctx (ctx.setErrorStatus value) :=
  ⟨⟨rfl, rfl, rfl⟩, rfl, rfl, rfl⟩

theorem frame_setErrorMessage (len : Nat) (message : List UInt8) :
    Frame ctx (ctx.setErrorMessage len message) :=
  ⟨⟨rfl, rfl, rfl⟩, rfl, rfl, rfl⟩

theorem kept_store32 (p : Nat) (v : UInt32) : Kept ctx (ctx.store32 b p v) :=
  ⟨⟨⟨rfl, rfl, rfl⟩, rfl, rfl, rfl⟩, rfl⟩

theorem kept_callResolve (query : Query) (slot : Nat) (answer : Resolved) :
    Kept ctx (ctx.callResolve b query slot answer) := by
  unfold DllContext.callResolve
  cases answer.result with
  | none => exact ⟨⟨⟨rfl, rfl, rfl⟩, rfl, rfl, rfl⟩, rfl⟩
  | some v => exact ⟨⟨⟨rfl, rfl, rfl⟩, rfl, rfl, rfl⟩, rfl⟩

/-! ## Imports -/

/-- The query a thunk makes. -/
def thunkQuery (b : Build) (imageName : Nat) (thunk : UInt32) (ctx : DllContext) : Query :=
  if imageSnapByOrdinal thunk then .byOrdinal (ctx.str b imageName) (thunk &&& 0xFFFF)
  else .byName (ctx.str b imageName) (ctx.str b ((thunk.toNat + 2) % b.space))

/-- The resolver's answer to a query. -/
def DllLoaderInput.answer (inp : DllLoaderInput) (queries : List Query) : Query → Resolved
  | .byOrdinal image ordinal => inp.resolveImportByOrdinal queries image ordinal
  | .byName image name => inp.resolveImportByName queries image name

/-- The context after a thunk's query was answered. -/
def DllContext.answered (b : Build) (inp : DllLoaderInput) (ctx : DllContext)
    (imageName function : Nat) (thunk : UInt32) : DllContext :=
  let query := thunkQuery b imageName thunk ctx
  ctx.callResolve b query function (inp.answer ctx.queries query)

/-- A resolver that stores nothing leaves the image alone. -/
theorem answered_none {imageName function : Nat} {thunk : UInt32}
    (none : (inp.answer ctx.queries (thunkQuery b imageName thunk ctx)).result = none) :
    ctx.answered b inp imageName function thunk =
      { ctx with queries := thunkQuery b imageName thunk ctx :: ctx.queries } := by
  simp only [DllContext.answered, DllContext.callResolve, none]

/-- A resolver that stores an address stores it in the slot. -/
theorem answered_some {imageName function : Nat} {thunk v : UInt32}
    (some : (inp.answer ctx.queries (thunkQuery b imageName thunk ctx)).result = some v) :
    ctx.answered b inp imageName function thunk =
      ({ ctx with queries := thunkQuery b imageName thunk ctx :: ctx.queries } : DllContext).store32 b
        function v := by
  simp only [DllContext.answered, DllContext.callResolve, some]

/-- A thunk is resolved when the answer is yes; either way the context is
framed, and only a refusal changes the status. -/
theorem resolveThunk_ends (imageName function : Nat) (thunk : UInt32) :
    Ends (fun c => (inp.answer ctx.queries (thunkQuery b imageName thunk ctx)).found = true ∧
        c = ctx.answered b inp imageName function thunk)
      (fun c => (inp.answer ctx.queries (thunkQuery b imageName thunk ctx)).found = false ∧
        Frame ctx c ∧ c.output.status = .unresolvedImport ∧
        c.image = (ctx.answered b inp imageName function thunk).image ∧
        c.imageWrites = (ctx.answered b inp imageName function thunk).imageWrites)
      (resolveThunk b inp imageName function thunk ctx) := by
  unfold resolveThunk
  cases snap : imageSnapByOrdinal thunk with
  | true =>
    simp only [if_true, resolveByOrdinal, DllContext.answered, thunkQuery, snap, DllLoaderInput.answer]
    cases found : (inp.resolveImportByOrdinal ctx.queries (ctx.str b imageName)
        (thunk &&& 0xFFFF)).found with
    | true => exact ⟨rfl, rfl⟩
    | false =>
      refine ⟨rfl, ?_, rfl, rfl, rfl⟩
      exact ((kept_callResolve _ _ _).toFrame.trans (frame_setErrorMessage _ _)).trans
        (frame_setErrorStatus _)
  | false =>
    simp only [Bool.false_eq_true, if_false, resolveByName, DllContext.answered, thunkQuery, snap,
      DllLoaderInput.answer]
    cases found : (inp.resolveImportByName ctx.queries (ctx.str b imageName)
        (ctx.str b ((thunk.toNat + 2) % b.space))).found with
    | true => exact ⟨rfl, rfl⟩
    | false =>
      refine ⟨rfl, ?_, rfl, rfl, rfl⟩
      exact ((kept_callResolve _ _ _).toFrame.trans (frame_setErrorMessage _ _)).trans
        (frame_setErrorStatus _)

theorem kept_answered (imageName function : Nat) (thunk : UInt32) :
    Kept ctx (ctx.answered b inp imageName function thunk) := kept_callResolve _ _ _

/-- What a round of the import loops does when it goes round again. -/
theorem importTurn_again {pc pc' : ImportPc} (h : importTurn b inp (pc, ctx) = .again (pc', ctx')) :
    ctx' = ctx ∨ ∃ at_ imageName thunk function,
      pc = .thunk at_ imageName thunk function ∧ ctx.load32 b thunk ≠ 0 ∧
      ctx' = ctx.answered b inp imageName function (ctx.load32 b thunk) := by
  cases pc with
  | descriptor at_ =>
    simp only [importTurn] at h
    split at h
    · cases h
    · split at h <;> cases h
      exact .inl rfl
  | thunk at_ imageName thunk function =>
    simp only [importTurn] at h
    split at h
    · cases h
      exact .inl rfl
    · next nonzero =>
      have ends := @resolveThunk_ends b inp ctx imageName function (ctx.load32 b thunk)
      cases resolved : resolveThunk b inp imageName function (ctx.load32 b thunk) ctx with
      | error c => rw [resolved] at h; cases h
      | ok c =>
        rw [resolved] at h ends
        cases h
        exact .inr ⟨at_, imageName, thunk, function, rfl, nonzero, ends.2⟩

/-- The statuses of a refused import. -/
def ImportRefusal (status : DllLoaderStatus) : Prop :=
  status = .dllForwardingNotSupported ∨ status = .unresolvedImport

/-- What a round of the import loops does when it leaves. -/
theorem importTurn_leave {pc : ImportPc} {r : Pass} (h : importTurn b inp (pc, ctx) = .leave r) :
    Ends (fun c => c = ctx) (fun c => Frame ctx c ∧ ImportRefusal c.output.status) r := by
  cases pc with
  | descriptor at_ =>
    simp only [importTurn] at h
    split at h
    · cases h; exact rfl
    · split at h <;> cases h
      exact ⟨frame_setErrorStatus _, .inl rfl⟩
  | thunk at_ imageName thunk function =>
    simp only [importTurn] at h
    split at h
    · cases h
    · have ends := @resolveThunk_ends b inp ctx imageName function (ctx.load32 b thunk)
      cases resolved : resolveThunk b inp imageName function (ctx.load32 b thunk) ctx with
      | ok c => rw [resolved] at h; cases h
      | error c =>
        rw [resolved] at h ends
        cases h
        exact ⟨ends.2.1, .inr ends.2.2.1⟩

theorem importTurn_kept {pc pc' : ImportPc} (h : importTurn b inp (pc, ctx) = .again (pc', ctx')) :
    Kept ctx ctx' := by
  rcases importTurn_again h with rfl | ⟨_, imageName, thunk, function, _, _, rfl⟩
  · exact Kept.refl _
  · exact kept_answered _ _ _

/-- The import pass, run to its end. -/
theorem dllResolveImports_ends {budget : Nat} {r : Pass}
    (h : dllResolveImports b inp budget ctx = .leave r) :
    Ends (Kept ctx) (fun c => Frame ctx c ∧ ImportRefusal c.output.status) r := by
  have entered : Kept ctx (ctx.setErrorContext .resolveImports) := kept_setErrorContext _
  unfold dllResolveImports at h
  simp only at h
  split at h
  · cases h; exact entered
  · unfold stopped at h
    split at h
    · cases h
    · next left =>
      cases h
      refine Returns.invariant (I := fun s => Kept ctx s.2) (run_returns _ _ left) ?_ ?_ entered
      · rintro ⟨pc, c⟩ ⟨pc', c'⟩ kept turn
        exact kept.trans (importTurn_kept turn)
      · rintro ⟨pc, c⟩ r kept turn
        refine (importTurn_leave turn).mono ?_ ?_
        · rintro _ rfl; exact kept
        · rintro c' ⟨frame, status⟩; exact ⟨kept.toFrame.trans frame, status⟩

/-! ## Relocations -/

/-- What a round of the relocation loops does when it goes round again: at
most one word is patched. -/
theorem relocTurn_again {newBase : UInt32} {delta : Int32} {pc pc' : RelocPc}
    (h : relocTurn b newBase delta (pc, ctx) = .again (pc', ctx')) :
    ctx' = ctx ∨ ∃ dest entry relocationEnd, pc = .entry dest entry relocationEnd ∧
      (ctx.output.image + entry) % b.space < (ctx.output.image + relocationEnd) % b.space ∧
      ctx.load16 b entry >>> 12 = imageRelBasedHighLow ∧
      ctx' = ctx.store32 b ((dest + (ctx.load16 b entry &&& 0x0FFF).toNat) % b.space)
        (ctx.load32 b ((dest + (ctx.load16 b entry &&& 0x0FFF).toNat) % b.space) + delta.toUInt32) := by
  cases pc with
  | block relocationStart =>
    simp only [relocTurn] at h
    split at h <;> cases h
    exact .inl rfl
  | entry dest entry relocationEnd =>
    simp only [relocTurn] at h
    split at h
    · next below =>
      split at h
      · cases h; exact .inl rfl
      · split at h
        · next high =>
          cases h
          exact .inr ⟨dest, entry, relocationEnd, rfl, below, high, rfl⟩
        · cases h
    · cases h; exact .inl rfl

/-- What a round of the relocation loops does when it leaves. -/
theorem relocTurn_leave {newBase : UInt32} {delta : Int32} {pc : RelocPc} {r : Pass}
    (h : relocTurn b newBase delta (pc, ctx) = .leave r) :
    Ends (fun c => c = rebased newBase ctx)
      (fun c => c = ctx.setErrorStatus .unsupportedRelocationType) r := by
  cases pc with
  | block relocationStart =>
    simp only [relocTurn] at h
    split at h <;> cases h
    exact rfl
  | entry dest entry relocationEnd =>
    simp only [relocTurn] at h
    split at h
    · split at h
      · cases h
      · split at h <;> cases h
        exact rfl
    · cases h

theorem relocTurn_kept {newBase : UInt32} {delta : Int32} {pc pc' : RelocPc}
    (h : relocTurn b newBase delta (pc, ctx) = .again (pc', ctx')) : Kept ctx ctx' := by
  rcases relocTurn_again h with rfl | ⟨_, _, _, _, _, _, rfl⟩
  · exact Kept.refl _
  · exact kept_store32 _ _

/-- The statuses of a refused relocation. -/
def RelocRefusal (status : DllLoaderStatus) : Prop :=
  status = .noRelocationData ∨ status = .unsupportedRelocationType

/-- The relocation pass, run to its end: nothing to do for the base the image
has already, else the loops and the code behind them. -/
theorem dllRelocate_ends {budget : Nat} {newBase : UInt32} {r : Pass}
    (h : dllRelocate b budget newBase ctx = .leave r) :
    Ends (fun c => newBase = ctx.output.header.optionalHeader.imageBase ∧
          c = ctx.setErrorContext .relocate ∨
        newBase ≠ ctx.output.header.optionalHeader.imageBase ∧
          ∃ c', Kept ctx c' ∧ c = rebased newBase c')
      (fun c => Frame ctx c ∧ RelocRefusal c.output.status) r := by
  have entered : Kept ctx (ctx.setErrorContext .relocate) := kept_setErrorContext _
  have sameHeader : (ctx.setErrorContext .relocate).output.header = ctx.output.header := rfl
  unfold dllRelocate at h
  simp only [sameHeader] at h
  split at h
  · next same => cases h; exact .inl ⟨same, rfl⟩
  · next differs =>
    split at h
    · cases h
      exact ⟨entered.toFrame.trans (frame_setErrorStatus _), .inl rfl⟩
    · unfold stopped at h
      split at h
      · cases h
      · next left =>
        cases h
        refine Returns.invariant (I := fun s => Kept ctx s.2) (run_returns _ _ left) ?_ ?_ entered
        · rintro ⟨pc, c⟩ ⟨pc', c'⟩ kept turn
          exact kept.trans (relocTurn_kept turn)
        · rintro ⟨pc, c⟩ r kept turn
          refine (relocTurn_leave turn).mono ?_ ?_
          · rintro _ rfl; exact .inr ⟨differs, c, kept, rfl⟩
          · rintro _ rfl; exact ⟨kept.toFrame.trans (frame_setErrorStatus _), .inr rfl⟩

end Dyndxt.Loader
