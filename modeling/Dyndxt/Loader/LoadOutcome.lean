import Dyndxt.Loader.ImportOutcome
import Dyndxt.Loader.Reference

/-!
# How the load of a well-formed DLL ends

The file passes all its checks, so only the pool and the resolver can stop the
load: a block is denied, or an import is refused. Otherwise the image is bound
and relocated.
-/

namespace Dyndxt.Loader
open Dyndxt.Mem Dyndxt.Pool Dyndxt.Run

section Outcome

variable (b : Build) (inp : DllLoaderInput) (ds : List ImportModule) (blocks : List RelocBlock) (stale : Bytes)
  (calls : Ledger)

/-- The first of the imports that the resolver refuses. -/
def FirstRefused (query : Query) : Prop :=
  ∃ before slot after slots, importList ds = before ++ (slot, query) :: after ∧ Accepted inp [] before slots ∧
    (inp.answer (before.map Prod.snd).reverse query).found = false

/-- The output of a load that the pool has stopped. -/
inductive OutOfMemory : DllLoaderOutput → Prop where
  | table {output : DllLoaderOutput} : inp.tableBlock b calls = 0 → output.context = .ntHeaderSectionTable →
      output.status = .outOfMemory → output.errorMessage = [] → OutOfMemory output
  | image {output : DllLoaderOutput} : inp.tableBlock b calls ≠ 0 → inp.imageBlock b calls = 0 →
      output.context = .loadImage → output.status = .outOfMemory → output.errorMessage = [] → OutOfMemory output

/-- The output of a load that was stopped at an import. -/
structure Unresolved (query : Query) (output : DllLoaderOutput) : Prop where
  context : output.context = .resolveImports
  status : output.status = .unresolvedImport
  errorMessage : output.errorMessage = query.message b

/-- The image of a load that has succeeded, and where to enter it. -/
structure LoadBound (slots : List (Nat × UInt32)) (c : DllContext) : Prop where
  image : inp.ReferenceImage b (.ofNat (inp.imageBlock b calls)) slots (fixups blocks) stale c.image
  imagePtr : c.output.image = inp.imageBlock b calls
  header : c.output.header = { inp.peHeader b with optionalHeader.imageBase := .ofNat (inp.imageBlock b calls) }
  entrypoint : c.output.entrypoint =
    if .ofNat (inp.imageBlock b calls) = (inp.peHeader b).optionalHeader.imageBase then 0
    else .ofNat (inp.imageBlock b calls) + (inp.peHeader b).optionalHeader.addressOfEntryPoint

/-- What a load that succeeds has between its import pass and its end: the
image with its slots filled, moved from the file's base to its block. -/
structure LoadedFrom (slots : List (Nat × UInt32)) (ctx c : DllContext) : Prop where
  relocatable : Relocatable b ctx blocks
  relocated : Relocated b blocks (.ofNat (inp.imageBlock b calls)) ctx c
  image : ctx.image = putAll b.space slots (inp.laidOut b stale)
  header : ctx.output.header = inp.peHeader b
  imagePtr : ctx.output.image = inp.imageBlock b calls
  entrypoint : ctx.output.entrypoint = 0

inductive LoadOutcome : Pass → Prop where
  | denied {c : DllContext} : OutOfMemory b inp calls c.output → LoadOutcome (.error c)
  | refused {c : DllContext} {query : Query} : FirstRefused inp ds query → Unresolved b query c.output →
      LoadOutcome (.error c)
  | bound {c : DllContext} {slots : List (Nat × UInt32)} : inp.resolveAll [] (importList ds) = some slots →
      LoadBound b inp blocks stale calls slots c → LoadOutcome (.ok c)

end Outcome

variable {b : Build} {inp : DllLoaderInput} {ds : List ImportModule} {blocks : List RelocBlock} {stale : Bytes}
  {ctx c : DllContext} {asked : List Query} {imports : List (Nat × Query)} {slots : List (Nat × UInt32)}

/-! ## Out of memory -/

theorem dllFreeContext_output : ∃ sectionHeaders image, (dllFreeContext ctx false).output =
    { ctx.output with sectionHeaders, image } := by
  obtain ⟨sectionHeaders, image, _, freed⟩ := @dllFreeContext_keeps ctx false
  exact ⟨sectionHeaders, image, by rw [freed]⟩

/-- What a refusal reports survives its clean-up. -/
theorem OutOfMemory.cleanedUp {calls : Ledger} (denied : OutOfMemory b inp calls ctx.output) :
    OutOfMemory b inp calls (dllFreeContext ctx false).output := by
  obtain ⟨sectionHeaders, image, freed⟩ := @dllFreeContext_output ctx
  rw [freed]
  cases denied with
  | table null context status message => exact .table null context status message
  | image table null context status message => exact .image table null context status message

theorem Unresolved.cleanedUp {query : Query} (unresolved : Unresolved b query ctx.output) :
    Unresolved b query (dllFreeContext ctx false).output := by
  obtain ⟨sectionHeaders, image, freed⟩ := @dllFreeContext_output ctx
  rw [freed]
  exact ⟨unresolved.context, unresolved.status, unresolved.errorMessage⟩

theorem dllParseHeader_starved (passes : inp.HeadersPass b) (null : inp.tableBlock b ctx.calls = 0) :
    dllParseHeader b inp ctx = .error (((ctx.withHeaders b inp).withTableBlock b inp).setErrorStatus .outOfMemory) := by
  have header : (ctx.withHeaders b inp).output.header = inp.ntHeader b := rfl
  rw [dllParseHeader_table passes, parseSectionTable_eq header]
  exact if_neg (not_not.mpr null)

theorem dllLoadImage_starved (null : inp.imageBlock b ctx.calls = 0) :
    dllLoadImage b inp ((ctx.withHeaders b inp).withTable b inp) =
      .error ((((ctx.withHeaders b inp).withTable b inp).withImageBlock inp).setErrorStatus .outOfMemory) := by
  rw [dllLoadImage_eq]
  exact if_neg (not_not.mpr null)

/-- A file whose checks pass is parsed, unless a block is denied. -/
theorem dllParseFile_denied (wf : inp.WellFormed b ds blocks) (message : ctx.output.errorMessage = [])
    (null : inp.tableBlock b ctx.calls = 0 ∨ inp.imageBlock b ctx.calls = 0) :
    ∃ c, dllParseFile b inp ctx = .error c ∧ OutOfMemory b inp ctx.calls c.output := by
  by_cases table : inp.tableBlock b ctx.calls = 0
  · have denied : OutOfMemory b inp ctx.calls
        (((ctx.withHeaders b inp).withTableBlock b inp).setErrorStatus .outOfMemory).output :=
      .table table rfl rfl message
    refine ⟨_, ?_, denied.cleanedUp⟩
    rw [dllParseFile_eq, dllParseHeader_starved wf.headersPass table]
    rfl
  · have image := null.resolve_left table
    have tableEnd : inp.Passes b (inp.tableOffset b + inp.tableSize b) := by
      apply passes_of_le wf.inSpace
      rw [wf.tableOffset_eq, DllLoaderInput.tableSize, DllLoaderInput.numSections, wf.ntHeader_eq]
      exact wf.tableInFile
    have denied : OutOfMemory b inp ctx.calls
        ((((ctx.withHeaders b inp).withTable b inp).withImageBlock inp).setErrorStatus .outOfMemory).output :=
      .image table image rfl rfl message
    refine ⟨_, ?_, denied.cleanedUp⟩
    rw [dllParseFile_image wf.headersPass table tableEnd, loadSections, dllLoadImage_starved image]
    rfl

/-! ## Imports -/

theorem callResolve_context (query : Query) (slot : Nat) (answer : Resolved) :
    (ctx.callResolve b query slot answer).output.context = ctx.output.context := by
  unfold DllContext.callResolve
  cases answer.result <;> rfl

/-- The import loops leave the error context alone. -/
theorem importTurn_context {pc pc' : ImportPc} {ctx' : DllContext}
    (turn : importTurn b inp (pc, ctx) = .again (pc', ctx')) : ctx'.output.context = ctx.output.context := by
  rcases importTurn_again turn with rfl | ⟨_, imageName, thunk, function, _, _, rfl⟩
  · rfl
  · exact callResolve_context _ _ _

theorem importTurn_refuses_context {pc : ImportPc} (turn : importTurn b inp (pc, ctx) = .leave (.error c)) :
    c.output.context = ctx.output.context := by
  cases pc with
  | descriptor at_ =>
    simp only [importTurn] at turn
    split at turn
    · cases turn
    · split at turn <;> cases turn
      rfl
  | thunk at_ imageName thunk function =>
    simp only [importTurn] at turn
    split at turn
    · cases turn
    · split at turn
      · cases turn
      · next refused =>
        cases turn
        simp only [resolveThunk, resolveByOrdinal, resolveByName] at refused
        split at refused <;> split at refused <;> cases refused <;> exact callResolve_context _ _ _

/-- A refusal of the import pass is told in its own context. -/
theorem dllResolveImports_context {budget : Nat} (stops : dllResolveImports b inp budget ctx = .leave (.error c)) :
    c.output.context = .resolveImports := by
  unfold dllResolveImports at stops
  dsimp only at stops
  split at stops
  · cases stops
  · unfold stopped at stops
    split at stops
    · cases stops
    · next left =>
      cases stops
      have told : Ends (fun _ => True) (fun c => c.output.context = .resolveImports) (.error c) :=
        Returns.invariant (I := fun s => s.2.output.context = .resolveImports) (run_returns _ _ left)
          (fun ⟨_, _⟩ ⟨_, _⟩ kept turn => (importTurn_context turn).trans kept)
          (fun ⟨_, _⟩ r kept turn => by
            cases r with
            | ok c => exact trivial
            | error c => exact (importTurn_refuses_context turn).trans kept) rfl
      exact told

/-- Where every answer has an address, imports that are accepted are
resolved. -/
theorem resolveAll_of_accepted (addresses : ∀ asked query, (inp.answer asked query).result ≠ none)
    (accepted : Accepted inp asked imports slots) : inp.resolveAll asked imports = some slots := by
  induction accepted with
  | nil asked => rfl
  | @cons asked imports slots slot query found _ ih =>
    obtain ⟨v, result⟩ := Option.ne_none_iff_exists'.mp (addresses asked query)
    have answer : inp.answer asked query = ⟨true, some v⟩ := by rw [← found, ← result]
    simp only [DllLoaderInput.resolveAll, answer, ih]
    rfl

theorem accepted_of_acceptsAll (accepts : inp.AcceptsAll asked (imports.map fun e => .resolve e.1 e.2)) :
    ∃ slots, Accepted inp asked imports slots := by
  rcases accepted_or_refused inp asked imports with accepted | ⟨before, slot, query, after, slots, rfl, -, refused⟩
  · exact accepted
  · have found := accepts (before.map fun e => .resolve e.1 e.2) (.resolve slot query)
      (after.map fun e => .resolve e.1 e.2) (by rw [List.map_append, List.map_cons])
    rw [askedBy_imports] at found
    cases refused.symm.trans found

theorem importSteps_plain : importSteps (ds.map ImportModule.plain) = (importList ds).map fun e => .resolve e.1 e.2 := by
  induction ds with
  | nil => rfl
  | cons d ds ih =>
    rw [List.map_cons, importSteps_cons, ih, importList_cons, List.map_append, steps_plain rfl]
    rfl

/-- A stop of the loops over a table without forwarders is at the first import
that is refused. -/
theorem ImportsStopped.firstRefused (fresh : ctx.queries = [])
    (stopped : ImportsStopped b inp ctx (ds.map ImportModule.plain) c) : ∃ query, FirstRefused inp ds query ∧
      c.output.status = .unresolvedImport ∧ c.output.errorMessage = query.message b := by
  obtain ⟨before, step, after, split, accepts, refused, refuses⟩ := stopped
  rw [importSteps_plain] at split
  rw [fresh] at accepts refused
  obtain ⟨front, rest, whole, rfl, behind⟩ := List.map_eq_append_iff.mp split
  obtain ⟨⟨slot, query⟩, rest, rfl, rfl, rfl⟩ := List.map_eq_cons_iff.mp behind
  obtain ⟨slots, accepted⟩ := accepted_of_acceptsAll accepts
  rw [askedBy_imports, List.append_nil] at refused
  exact ⟨query, ⟨front, slot, rest, slots, whole, accepted, Bool.eq_false_of_not_eq_true refused⟩, refuses.1,
    refuses.2.1⟩

/-- The import pass on a well-formed file: to its end, or to the first import
that is refused. -/
theorem imports_end (wf : inp.WellFormed b ds blocks) (header : ctx.output.header = inp.peHeader b)
    (image : ctx.image = inp.laidOut b stale) (fresh : ctx.queries = []) :
    ∃ n r, (∀ budget ≥ n, dllResolveImports b inp budget ctx = .leave r) ∧
      Ends (fun c => ∃ slots, Accepted inp [] (importList ds) slots ∧ Kept ctx c ∧ c.image = putAll b.space slots ctx.image)
        (fun c => ∃ query, FirstRefused inp ds query ∧ Unresolved b query c.output) r := by
  by_cases none : (inp.peDirectory b imageDirectoryEntryImport).size = 0
  · obtain rfl := wf.noImports none
    refine ⟨0, _, fun budget _ => dllResolveImports_none ?_ budget, [], .nil _, kept_setErrorContext _, rfl⟩
    rw [header]
    exact none
  · have directory : (ctx.output.header.optionalHeader.dataDirectory imageDirectoryEntryImport).size ≠ 0 := by
      rw [header]
      exact none
    have agree := wf.imports_agree stale none
    rw [← image] at agree
    obtain ⟨r, returns, ends⟩ := @table_ends b inp (ctx.setErrorContext .resolveImports) (ds.map ImportModule.plain) _ _
      (wf.bindable none).resolvable (by rwa [modules_plain])
    obtain ⟨n, leaves⟩ := dllResolveImports_returns directory (by
      rw [importEntry, header]
      exact returns)
    refine ⟨n, r, leaves, ?_⟩
    have here := leaves n (Nat.le_refl n)
    cases r with
    | ok c =>
      obtain ⟨slots, ⟨imports, steps, accepted⟩, filled⟩ := ends
      obtain rfl := imports_of_steps steps
      rw [modules_plain, show (ctx.setErrorContext .resolveImports).queries = [] from fresh] at accepted
      exact ⟨slots, accepted, dllResolveImports_ends here, filled⟩
    | error c =>
      obtain ⟨query, first, status, message⟩ := ImportsStopped.firstRefused fresh ends
      exact ⟨query, first, dllResolveImports_context here, status, message⟩

/-! ## The load -/

/-- With the file parsed and its imports bound, only the relocation is left. -/
theorem loadedFrom_imports {ctx' : DllContext} {n : Nat} (wf : inp.WellFormed b ds blocks)
    (passes : inp.FilePasses b ctx.calls) (space : inp.imageBlock b ctx.calls + inp.peSize b ≤ b.space)
    (imports : ∀ budget ≥ n, dllResolveImports b inp budget (ctx.reset.fileParsed b inp) = .leave (.ok ctx'))
    (kept : Kept (ctx.reset.fileParsed b inp) ctx') (filled : ctx'.image = putAll b.space slots (inp.laidOut b ctx.image))
    (listed : ∀ slot ∈ slots, ∃ entry ∈ importList ds, entry.1 = slot.1) :
    ∃ n c, (∀ budget ≥ n, dllLoad b inp budget ctx = .leave (.ok c)) ∧
      LoadedFrom b inp blocks ctx.image ctx.calls slots ctx' c := by
  obtain ⟨_, _, imagePtr, header, entrypoint⟩ := kept.loaded
  rw [wf.ntHeader_eq] at header
  have relocatable : Relocatable b ctx' blocks := wf.relocatable listed filled header (by rwa [imagePtr])
  obtain ⟨n', c, relocs, relocated⟩ := dllRelocate_relocates relocatable (.ofNat (inp.imageBlock b ctx.calls))
  refine ⟨n + n', c, fun budget enough => ?_, relocatable, relocated, filled, header, imagePtr, entrypoint⟩
  rw [dllLoad_eq passes, imports budget (by omega)]
  show cleanedUp (dllRelocate b budget (.ofNat (inp.imageBlock b ctx.calls)) ctx') = _
  rw [relocs budget (by omega)]
  rfl

/-- What the file passes leave of a well-formed DLL. -/
theorem fileParsed_laidOut (wf : inp.WellFormed b ds blocks) :
    (ctx.reset.fileParsed b inp).image = inp.laidOut b ctx.image ∧
      (ctx.reset.fileParsed b inp).output.header = inp.peHeader b := by
  obtain ⟨_, _, _, header, _⟩ := Kept.loaded (Kept.refl (ctx.reset.fileParsed b inp))
  rw [wf.ntHeader_eq] at header
  refine ⟨?_, header⟩
  rw [fileParsed_image, wf.mapped_eq]
  rfl

theorem LoadedFrom.bound {calls : Ledger} (wf : inp.WellFormed b ds blocks)
    (resolved : inp.resolveAll [] (importList ds) = some slots)
    (loaded : LoadedFrom b inp blocks stale calls slots ctx c) : LoadBound b inp blocks stale calls slots c := by
  constructor
  · refine referenceImage wf resolved fun a lt => ?_
    rw [loaded.relocated.image a lt, loaded.header, loaded.image]
  · rw [loaded.relocated.imagePtr, loaded.imagePtr]
  · rw [loaded.relocated.header, loaded.header]
  · rw [loaded.relocated.entrypoint, loaded.header, loaded.entrypoint]

/-- A well-formed DLL is loaded, unless a block is denied or an import is
refused. -/
theorem dllLoad_outcome (wf : inp.WellFormed b ds blocks) (fresh : ctx.queries = [])
    (addresses : ∀ asked query, (inp.answer asked query).result ≠ none)
    (space : inp.imageBlock b ctx.calls ≠ 0 → inp.imageBlock b ctx.calls + inp.peSize b ≤ b.space) :
    ∃ n r, (∀ budget ≥ n, dllLoad b inp budget ctx = .leave r) ∧
      LoadOutcome b inp ds blocks ctx.image ctx.calls r := by
  by_cases null : inp.tableBlock b ctx.calls = 0 ∨ inp.imageBlock b ctx.calls = 0
  · obtain ⟨c, parsed, denied⟩ := @dllParseFile_denied b inp ds blocks ctx.reset wf rfl null
    refine ⟨0, .error c, fun budget _ => ?_, .denied denied⟩
    have fold : ({ ctx.setErrorContext .notParsed with output := {} } : DllContext) = ctx.reset := rfl
    simp only [dllLoad, dllParse, fold, parsed]
  · obtain ⟨tableBlock, imageBlock⟩ := not_or.mp null
    have passes : inp.FilePasses b ctx.calls := wf.filePasses tableBlock imageBlock
    obtain ⟨mapped, header⟩ := @fileParsed_laidOut b inp ds blocks ctx wf
    obtain ⟨n, r, imports, ends⟩ := imports_end wf header mapped (by rw [fileParsed_queries]; exact fresh)
    cases r with
    | error c =>
      obtain ⟨query, first, unresolved⟩ := ends
      refine ⟨n, .error (dllFreeContext c false), fun budget enough => ?_, .refused first unresolved.cleanedUp⟩
      rw [dllLoad_eq passes, imports budget enough]
    | ok ctx' =>
      obtain ⟨slots, accepted, kept, filled⟩ := ends
      have resolved : inp.resolveAll [] (importList ds) = some slots := resolveAll_of_accepted addresses accepted
      rw [mapped] at filled
      obtain ⟨n, c, loads, loaded⟩ := loadedFrom_imports wf passes (space imageBlock) imports kept filled
        (accepted.forall (P := fun w => ∃ entry ∈ importList ds, entry.1 = w) fun entry listed => ⟨entry, listed, rfl⟩)
      exact ⟨n, .ok c, loads, .bound resolved (loaded.bound wf resolved)⟩

end Dyndxt.Loader
