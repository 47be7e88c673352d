import Dyndxt.Loader.RawReads
import Dyndxt.Loader.WriteTargets

/-!
# Writes inside the image

`DLLParse` and `DLLRelocate` stay inside the image, wherever it is moved,
exactly when the sections, slots and fixups that they are given are inside.
-/

namespace Dyndxt.Loader
open Dyndxt.Mem Dyndxt.Pool Dyndxt.Run

section Safety

variable (b : Build) (inp : DllLoaderInput) (output : DllLoaderOutput) (stale : Bytes)

/-- A context as a client has it after `DLLParse` and any moves, whether they
returned true or not; `DLLLoad` is the move to the image's block. -/
inductive Handed : DllContext → Prop where
  | parsed {n : Nat} {c : DllContext} : dllParse b inp n (.initial output stale) = .leave (.ok c) → Handed c
  | moved {n : Nat} {newBase : UInt32} {c c' : DllContext} : Handed c →
      dllRelocate b n newBase c = .leave (.ok c') → Handed c'
  | stuck {n : Nat} {newBase : UInt32} {c c' : DllContext} : Handed c →
      dllRelocate b n newBase c = .leave (.error c') → Handed c'

/-- `DLLLoad` returns false with this context. -/
def LoadRefuses (c : DllContext) : Prop :=
  ∃ n, ∀ budget ≥ n, dllLoad b inp budget (.initial output stale) = .leave (.error c)

/-- The loader writes inside the image only, as it parses the file and as it
moves the image to any base, and refuses a file with a section, import slot or
fixup that falls outside: a slot at the query it is for. -/
structure DllLoaderInput.WritesSafely : Prop where
  parse : ∀ budget, ∀ sp ∈ (lastContext (dllParse b inp budget (.initial output stale))).imageWrites, inp.InImage b sp
  relocate : ∀ ctx, Handed b inp output stale ctx → ∀ newBase budget,
    ∀ sp ∈ (lastContext (dllRelocate b budget newBase ctx)).imageWrites, inp.InImage b sp
  sections : ∀ header, inp.Copies b [] header →
    ¬ inp.InImage b ⟨header.virtualAddress.toNat, header.sizeOfRawData.toNat⟩ → ∃ c, LoadRefuses b inp output stale c
  slots : ∀ f query asked, inp.Binds b (.initial output stale) f query asked → ¬ inp.InImage b ⟨f, 4⟩ →
    ∃ c, LoadRefuses b inp output stale c ∧ c.output.status = .unresolvedImport ∧ c.queries = query :: asked
  fixups : ∀ ctx newBase w, Handed b inp output stale ctx → ctx.Fixes b newBase w → ¬ inp.InImage b ⟨w, 4⟩ →
    ∃ c, LoadRefuses b inp output stale c

/-- Every section to be copied ends within `SizeOfImage`, and so does each slot
that the import table lists, but for those that the resolver neither stores to
nor resolves, and each fixup that the relocation table of a context lists. -/
structure DllLoaderInput.TargetsInside : Prop where
  sections : ∀ header, inp.Copies b [] header →
    header.virtualAddress.toNat + header.sizeOfRawData.toNat ≤ (inp.ntHeader b).optionalHeader.sizeOfImage.toNat
  slots : ∀ f query asked, inp.Binds b (.initial output stale) f query asked →
    inp.InImage b ⟨f, 4⟩ ∨ inp.answer asked query = ⟨false, none⟩
  fixups : ∀ ctx newBase w, Handed b inp output stale ctx → ctx.Fixes b newBase w → inp.InImage b ⟨w, 4⟩

end Safety

variable {b : Build} {inp : DllLoaderInput} {ctx c c' : DllContext} {output : DllLoaderOutput} {stale : Bytes}
  {L : List Span → Prop} {sp : Span} {w f : Nat} {newBase : UInt32} {query : Query} {asked : List Query}

/-! ## Parsing -/

/-- With the file as it should be, parsing is the import pass. -/
theorem dllParse_eq (passes : inp.FilePasses b ctx.calls) (budget : Nat) :
    dllParse b inp budget ctx = cleanedUp (dllResolveImports b inp budget (ctx.reset.fileParsed b inp)) := by
  have fold : ({ ctx.setErrorContext .notParsed with output := {} } : DllContext) = ctx.reset := rfl
  have parsed : dllParseFile b inp ctx.reset = .ok (ctx.reset.fileParsed b inp) := dllParseFile_ok passes
  simp only [dllParse, fold, parsed]
  cases dllResolveImports b inp budget (ctx.reset.fileParsed b inp) <;> rfl

theorem dllParse_of_parseFile (failed : dllParseFile b inp ctx.reset = .error c) (budget : Nat) :
    dllParse b inp budget ctx = .leave (.error c) := by
  have fold : ({ ctx.setErrorContext .notParsed with output := {} } : DllContext) = ctx.reset := rfl
  simp only [dllParse, fold, failed]

theorem fileParsed_header : (ctx.reset.fileParsed b inp).output.header = inp.ntHeader b :=
  (Kept.loaded (Kept.refl (ctx.reset.fileParsed b inp))).2.2.2.1

section Rule

variable (slot : ∀ f query asked, inp.Binds b ctx f query asked → (inp.answer asked query).result ≠ none →
  ∀ log, L log → L (⟨f, 4⟩ :: log))

include slot in
theorem dllResolveImports_writes (passes : inp.FilePasses b ctx.calls)
    (start : L (ctx.reset.fileParsed b inp).imageWrites) (budget : Nat) :
    (dllResolveImports b inp budget (ctx.reset.fileParsed b inp)).Holds (fun c => L c.imageWrites) (WritesEnd L) := by
  by_cases none : ((inp.ntHeader b).optionalHeader.dataDirectory imageDirectoryEntryImport).size = 0
  · rw [dllResolveImports_none (by rw [fileParsed_header]; exact none)]
    exact start
  rw [dllResolveImports_run (by rw [fileParsed_header]; exact none)]
  -- what is listed from here on was listed at the start
  have entered (f : Nat) (query : Query) (asked : List Query)
      (listed : ListsSlot b inp f query asked (importEntry (ctx.reset.fileParsed b inp)).2.image
        (importEntry (ctx.reset.fileParsed b inp)).2.queries (importEntry (ctx.reset.fileParsed b inp)).1) :
      inp.Binds b ctx f query asked := by
    simp only [importEntry, fileParsed_header] at listed
    exact ⟨passes, none, listed⟩
  refine holds_stopped (Turn.Holds.mono (I := fun s => (∀ f query asked,
      ListsSlot b inp f query asked s.2.image s.2.queries s.1 → inp.Binds b ctx f query asked) ∧ L s.2.imageWrites)
    (run_holds ?_ ?_ budget ⟨entered, start⟩) (fun _ h => h.2) fun _ h => h)
  · rintro ⟨pc, c⟩ ⟨pc', c'⟩ ⟨lists, start⟩ turn
    refine ⟨fun f query asked listed => lists f query asked (importTurn_lists turn listed), ?_⟩
    rcases importTurn_again turn with rfl | ⟨at_, imageName, thunk, function, rfl, nonzero, rfl⟩
    · exact start
    · exact answered_writes start fun stored => slot _ _ _ (lists _ _ _ (.here nonzero rfl)) stored _ start
  · rintro ⟨pc, c⟩ r ⟨lists, start⟩ turn
    refine (importTurn_leave_writes turn).mono ?_ ?_
    · rintro _ rfl; exact start
    · rintro c' (same | ⟨at_, imageName, thunk, function, rfl, nonzero, same⟩)
      · rw [same]; exact start
      · rw [same]
        exact answered_writes start fun stored => slot _ _ _ (lists _ _ _ (.here nonzero rfl)) stored _ start

include slot in
/-- The write rule: what the file passes leave true of the log, and every slot
that is stored to keeps so, is true of it whenever parsing stops. -/
theorem dllParse_writes (clean : Clean ctx.calls) (file : WritesEnd L (dllParseFile b inp ctx.reset)) (budget : Nat) :
    L (lastContext (dllParse b inp budget ctx)).imageWrites := by
  have owns : Owns (live ctx.calls) ctx.reset := ⟨clean, rfl⟩
  have ends := (@dllParseFile_ends b inp _ _ owns rfl rfl).and file
  cases parsed : dllParseFile b inp ctx.reset with
  | error c =>
    rw [parsed] at file
    rw [dllParse_of_parseFile parsed]
    exact file
  | ok c =>
    rw [parsed] at ends
    obtain ⟨⟨rfl, passes, _⟩, start⟩ := ends
    have passes : inp.FilePasses b ctx.calls := passes
    rw [dllParse_eq passes]
    exact WritesEnd.last (dllResolveImports_writes slot passes start budget)

end Rule

/-- The log of a parse keeps what the file passes wrote. -/
theorem dllParse_keeps_write
    (written : WritesEnd (sp ∈ ·) (dllParseFile b inp (DllContext.initial output stale).reset)) (budget : Nat) :
    sp ∈ (lastContext (dllParse b inp budget (.initial output stale))).imageWrites :=
  dllParse_writes (L := (sp ∈ ·)) (fun _ _ _ _ _ _ => List.mem_cons_of_mem _) clean_nil written budget

/-! ## Refused slots -/

/-- A thunk that is refused was the last one asked for. -/
theorem resolveThunk_asks (imageName function : Nat) (thunk : UInt32) :
    Ends (fun _ => True) (fun c' => c'.queries = queryOf b c.image imageName thunk :: c.queries)
      (resolveThunk b inp imageName function thunk c) := by
  have asks (query : Query) (answer : Resolved) : (c.callResolve b query function answer).queries = query :: c.queries := by
    unfold DllContext.callResolve
    dsimp only
    cases answer.result <;> rfl
  unfold resolveThunk queryOf
  split
  · unfold resolveByOrdinal
    dsimp only
    exact .ite (fun _ => trivial) fun _ => asks _ _
  · unfold resolveByName
    dsimp only
    exact .ite (fun _ => trivial) fun _ => asks _ _

/-- A thunk's round that refuses: what the resolver answered, what was written
and what was asked. -/
theorem importTurn_refused {at_ imageName thunk function : Nat} (nonzero : c.load32 b thunk ≠ 0)
    (h : importTurn b inp (.thunk at_ imageName thunk function, c) = .leave (.error c')) :
    (inp.answer c.queries (thunkQuery b imageName (c.load32 b thunk) c)).found = false ∧
      c'.imageWrites = (c.answered b inp imageName function (c.load32 b thunk)).imageWrites ∧
      c'.output.status = .unresolvedImport ∧ c'.queries = thunkQuery b imageName (c.load32 b thunk) c :: c.queries := by
  have ends := (@resolveThunk_ends b inp c imageName function (c.load32 b thunk)).and
    (@resolveThunk_asks b inp c imageName function (c.load32 b thunk))
  rw [importTurn_thunk nonzero] at h
  cases resolved : resolveThunk b inp imageName function (c.load32 b thunk) c with
  | ok c' => rw [resolved] at h; cases h
  | error c' =>
    rw [resolved] at h ends
    cases h
    exact ⟨ends.1.1, ends.1.2.2.2.2, ends.1.2.2.1, ends.2⟩

/-- An import that is unresolved is asked for behind what was asked before. -/
theorem unresolved_asks {s : ImportPc × DllContext} (returns : Returns (importTurn b inp) s (.error c))
    (unresolved : c.output.status = .unresolvedImport) : s.2.queries.length < c.queries.length := by
  refine returns.invariant (I := fun s' => s.2.queries.length ≤ s'.2.queries.length)
    (Q := fun r => r = .error c → s.2.queries.length < c.queries.length) ?_ ?_ (Nat.le_refl _) rfl
  · rintro ⟨pc, d⟩ ⟨pc', d'⟩ more turn
    rcases importTurn_again turn with rfl | ⟨at_, imageName, thunk, function, rfl, nonzero, rfl⟩
    · exact more
    · obtain ⟨-, queries⟩ := @answered_stored b inp d imageName function (d.load32 b thunk)
      show _ ≤ (d.answered b inp imageName function (d.load32 b thunk)).queries.length
      rw [queries]
      exact Nat.le_succ_of_le more
  · rintro ⟨pc, d⟩ r more turn rfl
    cases pc with
    | descriptor at_ =>
      simp only [importTurn] at turn
      split at turn
      · cases turn
      · split at turn <;> cases turn
        cases unresolved
    | thunk at_ imageName thunk function =>
      by_cases zero : d.load32 b thunk = 0
      · rw [show importTurn b inp (.thunk at_ imageName thunk function, d) = _ from if_pos zero] at turn
        cases turn
      · rw [(importTurn_refused zero turn).2.2.2]
        exact Nat.lt_succ_of_le more

/-- The import loops, once they have come to a slot that is listed. -/
theorem DllLoaderInput.Binds.reached (binds : inp.Binds b ctx f query asked) : ∃ at_ imageName thunk c,
    Steps (importTurn b inp) (importEntry (ctx.reset.fileParsed b inp)) (.thunk at_ imageName thunk f, c) ∧
      c.load32 b thunk ≠ 0 ∧ c.queries = asked ∧ thunkQuery b imageName (c.load32 b thunk) c = query := by
  have listed := binds.listed
  rw [← @fileParsed_header b inp ctx] at listed
  exact listed.reached (c := (ctx.reset.fileParsed b inp).setErrorContext .resolveImports) rfl rfl

/-- A pass that leaves has left the import loops. -/
theorem DllLoaderInput.Binds.returns {n : Nat} {r : Pass} (binds : inp.Binds b ctx f query asked)
    (left : dllResolveImports b inp n (ctx.reset.fileParsed b inp) = .leave r) :
    Returns (importTurn b inp) (importEntry (ctx.reset.fileParsed b inp)) r := by
  rw [dllResolveImports_run (by rw [fileParsed_header]; exact binds.directory)] at left
  cases ran : run (importTurn b inp) n (importEntry (ctx.reset.fileParsed b inp)) with
  | again s => rw [ran] at left; cases left
  | leave r' =>
    rw [ran] at left
    cases left
    exact run_returns _ _ ran

/-- A round that refuses ends the pass. -/
theorem DllLoaderInput.Binds.refuses {s : ImportPc × DllContext} (binds : inp.Binds b ctx f query asked)
    (steps : Steps (importTurn b inp) (importEntry (ctx.reset.fileParsed b inp)) s)
    (refused : importTurn b inp s = .leave (.error c)) :
    ∃ n, ∀ budget ≥ n, dllResolveImports b inp budget (ctx.reset.fileParsed b inp) = .leave (.error c) :=
  dllResolveImports_returns (by rw [fileParsed_header]; exact binds.directory) ⟨s, steps, refused⟩

/-- A load that ends unresolved, with one query since, was refused that query. -/
theorem DllLoaderInput.Binds.last (binds : inp.Binds b ctx f query asked) {n : Nat}
    (loads : dllLoad b inp n ctx = .leave (.error c)) (unresolved : c.output.status = .unresolvedImport)
    (queries : c.queries = query :: asked) : ∃ at_ imageName thunk c₀ c₁,
      Steps (importTurn b inp) (importEntry (ctx.reset.fileParsed b inp)) (.thunk at_ imageName thunk f, c₀) ∧
      c₀.load32 b thunk ≠ 0 ∧ c₀.queries = asked ∧ thunkQuery b imageName (c₀.load32 b thunk) c₀ = query ∧
      importTurn b inp (.thunk at_ imageName thunk f, c₀) = .leave (.error c₁) := by
  obtain ⟨at_, imageName, thunk, c₀, steps, nonzero, asked₀, query₀⟩ := binds.reached
  have answered := @importTurn_answered b inp c₀ at_ imageName thunk f nonzero
  split at answered
  case isFalse =>
    obtain ⟨c₁, refused⟩ := answered
    exact ⟨at_, imageName, thunk, c₀, c₁, steps, nonzero, asked₀, query₀, refused⟩
  case isTrue =>
    -- the loops would go on, and ask for more before they refuse
    exfalso
    rw [dllLoad_eq binds.passes] at loads
    cases imports : dllResolveImports b inp n (ctx.reset.fileParsed b inp) with
    | again d => rw [imports] at loads; cases loads
    | leave r =>
      rw [imports] at loads
      have returns := binds.returns imports
      cases r with
      | error d =>
        cases loads
        obtain ⟨_, _, _, freed⟩ := @dllFreeContext_keeps d false
        rw [freed] at unresolved queries
        have more := unresolved_asks ((steps.snoc answered).returns_from returns) unresolved
        have queries : d.queries = query :: asked := queries
        obtain ⟨-, asked₁⟩ := @answered_stored b inp c₀ imageName f (c₀.load32 b thunk)
        dsimp only at more
        rw [asked₁, queries, asked₀] at more
        simp only [List.length_cons] at more
        omega
      | ok d =>
        dsimp only at loads
        cases moved : dllRelocate b n (.ofNat (inp.imageBlock b ctx.calls)) d with
        | again d' => rw [moved] at loads; cases loads
        | leave p =>
          have ends := dllRelocate_ends moved
          rw [moved] at loads
          cases p with
          | ok d' => cases loads
          | error d' =>
            cases loads
            rw [dllFreeContext_status] at unresolved
            rcases ends.2 with status | status <;> cases status.symm.trans unresolved

/-! ## The whole -/

/-- The loader writes inside its image, wherever it is moved, exactly when what
it is given to write is inside. -/
theorem dllParse_dllRelocate_inside_iff :
    inp.WritesSafely b output stale ↔ inp.TargetsInside b output stale := by
  constructor
  · intro safe
    constructor
    · intro header copies
      have written := @dllParse_keeps_write b inp output stale _ copies.written 0
      exact (inImage_section copies.data).mp (safe.parse 0 _ written)
    · intro f query asked binds
      by_contra outside
      obtain ⟨notInside, answered⟩ := not_or.mp outside
      obtain ⟨c, ⟨n, loads⟩, unresolved, queries⟩ := safe.slots f query asked binds notInside
      obtain ⟨at_, imageName, thunk, c₀, c₁, steps, nonzero, rfl, rfl, refused⟩ :=
        binds.last (loads n (Nat.le_refl n)) unresolved queries
      obtain ⟨notFound, written, -⟩ := importTurn_refused nonzero refused
      obtain ⟨n, imports⟩ := binds.refuses steps refused
      obtain ⟨_, _, _, freed⟩ := @dllFreeContext_keeps c₁ false
      have inside := safe.parse n
      rw [dllParse_eq binds.passes, imports n (Nat.le_refl n)] at inside
      simp only [cleanedUp, cleanUp, lastContext, freed, written] at inside
      cases answer : inp.answer c₀.queries (thunkQuery b imageName (c₀.load32 b thunk) c₀) with
      | mk found stored =>
        cases stored with
        | some v =>
          rw [answered_some (by rw [answer])] at inside
          exact notInside (inside _ List.mem_cons_self)
        | none =>
          rw [answer] at notFound answered
          cases notFound
          exact answered rfl
    · intro ctx newBase w handed fixes
      obtain ⟨budget, written⟩ := fixes.written
      exact safe.relocate ctx handed newBase budget _ written
  · intro targets
    have parse (budget : Nat) :
        ∀ sp ∈ (lastContext (dllParse b inp budget (.initial output stale))).imageWrites, inp.InImage b sp := by
      refine dllParse_writes (L := fun log => ∀ sp ∈ log, inp.InImage b sp) ?_ clean_nil ?_ budget
      · intro f query asked binds stored log inside
        rcases targets.slots f query asked binds with target | refused
        · exact List.forall_mem_cons.mpr ⟨target, inside⟩
        · rw [refused] at stored
          exact absurd rfl stored
      · exact dllParseFile_inside (by simp [DllContext.reset, DllContext.initial])
          fun header copies => (inImage_section copies.data).mpr (targets.sections header copies)
    have moves {ctx : DllContext} (handed : Handed b inp output stale ctx) (newBase : UInt32)
        (start : ∀ sp ∈ ctx.imageWrites, inp.InImage b sp) (budget : Nat) :=
      dllRelocate_writes (L := fun log => ∀ sp ∈ log, inp.InImage b sp)
        (fun w fixes log inside => List.forall_mem_cons.mpr ⟨targets.fixups ctx newBase w handed fixes, inside⟩) start budget
    have handed {ctx : DllContext} (handed : Handed b inp output stale ctx) : ∀ sp ∈ ctx.imageWrites, inp.InImage b sp := by
      induction handed with
      | @parsed n c parsed =>
        have inside := parse n
        rwa [parsed] at inside
      | @moved n newBase c c' before moved ih =>
        have inside := moves before newBase ih n
        rwa [moved] at inside
      | @stuck n newBase c c' before stuck ih =>
        have inside := moves before newBase ih n
        rwa [stuck] at inside
    constructor
    · exact parse
    · intro ctx before newBase budget
      have inside := moves before newBase (handed before) budget
      cases moved : dllRelocate b budget newBase ctx with
      | again c => rwa [moved] at inside
      | leave r =>
        rw [moved] at inside
        cases r with
        | ok c => exact inside
        | error c => exact inside
    · intro header copies outside
      exact absurd ((inImage_section copies.data).mpr (targets.sections header copies)) outside
    · intro f query asked binds outside
      have answer := (targets.slots f query asked binds).resolve_left outside
      obtain ⟨at_, imageName, thunk, c₀, steps, nonzero, rfl, rfl⟩ := binds.reached
      have answered := @importTurn_answered b inp c₀ at_ imageName thunk f nonzero
      rw [answer] at answered
      obtain ⟨c₁, refused⟩ := answered
      obtain ⟨-, -, status, queries⟩ := importTurn_refused nonzero refused
      obtain ⟨n, imports⟩ := binds.refuses steps refused
      obtain ⟨_, _, _, freed⟩ := @dllFreeContext_keeps c₁ false
      refine ⟨dllFreeContext c₁ false, ⟨n, fun budget le => ?_⟩, ?_, ?_⟩
      · rw [dllLoad_eq binds.passes, imports budget le]
      · rw [dllFreeContext_status]
        exact status
      · rw [freed]
        exact queries
    · intro ctx newBase w before fixes outside
      exact absurd (targets.fixups ctx newBase w before fixes) outside

/-- A file whose one section is to be copied to `0x2000` in an image of
`0x1000` bytes. -/
def overhangFile : DllLoaderInput :=
  fileOf (headerWords 1 0x30000 0x1000 0x138 0x1234 ++ [(324, 0x2000), (328, 4), (332, 0)]) 0x160 0x30000

theorem overhangFile_writes_outside : ¬ overhangFile.WritesSafely .target {} fun _ => 0 := by
  intro safe
  have run : (loaded? (dllParse .target overhangFile 0 (.initial {} fun _ => 0))).map
      (fun c => decide (⟨0x2000, 4⟩ ∈ c.imageWrites)) = some true := by decide +kernel
  obtain ⟨c, load, written⟩ := loaded?_eq run
  have inside := safe.parse 0
  rw [load] at inside
  exact absurd (inside _ (of_decide_eq_true written)) (by decide +kernel)

end Dyndxt.Loader
