import Dyndxt.Loader.ImportTable
import Dyndxt.Loader.Load

/-!
# How the import pass ends

The steps of a table: a forwarder chain, which is refused, or an import with
its slot and its query. The pass takes them in order. It returns true with
every slot filled when all are accepted, and else stops at the first that is
not, with its status and message.
-/

namespace Dyndxt.Loader
open Dyndxt.Mem Dyndxt.Pool Dyndxt.Run

inductive ImportStep where
  | forward
  | resolve (slot : Nat) (query : Query)
deriving DecidableEq, Repr

def ImportStep.asks : ImportStep → List Query
  | .forward => []
  | .resolve _ query => [query]

/-- The steps of a descriptor: its forwarder chain, if it has one, and its
thunks. -/
def ImportDescriptor.steps (d : ImportDescriptor) : List ImportStep :=
  (if d.forwarderChain ≠ 0 then [.forward] else []) ++
    (importsFrom d.imageName d.firstThunk.toNat d.imports).map fun e => .resolve e.1 e.2

def importSteps (ds : List ImportDescriptor) : List ImportStep := ds.flatMap ImportDescriptor.steps

/-- The queries made, newest first, after some steps. -/
def askedBy (asked : List Query) (steps : List ImportStep) : List Query :=
  (steps.flatMap ImportStep.asks).reverse ++ asked

section Outcome

variable (b : Build) (inp : DllLoaderInput) (ctx : DllContext) (ds : List ImportDescriptor)

/-- The resolver accepts the step, after the queries made before. -/
def DllLoaderInput.AcceptsStep (asked : List Query) : ImportStep → Prop
  | .forward => False
  | .resolve _ query => (inp.answer asked query).found = true

/-- It accepts every one of the steps. -/
def DllLoaderInput.AcceptsAll (asked : List Query) (steps : List ImportStep) : Prop :=
  ∀ before step after, steps = before ++ step :: after → inp.AcceptsStep (askedBy asked before) step

/-- Every slot holds what the resolver stored there, and no other byte has
changed. -/
structure ImportsResolved (c : DllContext) : Prop where
  filled : ∀ before slot query after, importSteps ds = before ++ .resolve slot query :: after →
    u32 b.space c.image slot = (inp.answer (askedBy ctx.queries before) query).result.getD
      (u32 b.space ctx.image slot)
  kept : ∀ a < b.space, (∀ slot ∈ importList (modules ds), a < slot.1 ∨ slot.1 + 4 ≤ a) →
    c.image a = ctx.image a

/-- The status and the message of a step that is not accepted. The message
fits its buffer, unless its length does not fit the word it is computed in. -/
def ImportStep.Refuses (c : DllContext) : ImportStep → Prop
  | .forward => c.output.status = .dllForwardingNotSupported
  | .resolve _ query => c.output.status = .unresolvedImport ∧ c.output.errorMessage = query.message b ∧
      (query.text.length + 13 < 2 ^ 32 → (query.message b).length < dlllMaxErrorLen)

/-- The pass has stopped at the first step that is not accepted. -/
def ImportsStopped (c : DllContext) : Prop :=
  ∃ before step after, importSteps ds = before ++ step :: after ∧ inp.AcceptsAll ctx.queries before ∧
    ¬ inp.AcceptsStep (askedBy ctx.queries before) step ∧ step.Refuses b c

/-- The pass returns: true exactly when every step is accepted. -/
def ImportOutcome : Prop :=
  ∃ n r, (∀ budget, n ≤ budget → dllResolveImports b inp budget ctx = .leave r) ∧
    ((∃ c, r = .ok c) ↔ inp.AcceptsAll ctx.queries (importSteps ds)) ∧
    Ends (ImportsResolved b inp ctx ds) (ImportsStopped b inp ctx ds) r

/-- What the loops read of a module, the slots and their terminator apart. -/
def ImportModule.given (d : ImportModule) : List Span :=
  ⟨d.name.toNat, d.imageName.length + 1⟩ ::
    ((if d.originalFirstThunk ≠ 0 then [⟨d.originalFirstThunk.toNat, 4 * (d.imports.length + 1)⟩] else []) ++
      d.imports.flatMap ImportEntry.strings)

/-- The terminator of slots that are their own lookup table. -/
def ImportModule.terminator (d : ImportModule) : List Span :=
  if d.originalFirstThunk ≠ 0 then [] else [⟨d.firstThunk.toNat + 4 * d.imports.length, 4⟩]

/-- Where the import directory says the descriptors are. -/
def DllContext.importDirectory : ImageDataDirectory :=
  ctx.output.header.optionalHeader.dataDirectory imageDirectoryEntryImport

/-- An image whose import table lies in it, with the slots disjoint from each
other and from the descriptors, the separate lookup tables and the strings. -/
structure ImportsInImage : Prop where
  absent : ctx.importDirectory.size = 0 → ds = []
  table : ctx.importDirectory.size ≠ 0 →
    DescriptorsAt b.space ctx.image ctx.importDirectory.virtualAddress.toNat ds
  inside : ∀ sp ∈ tableNeeds ctx.importDirectory.virtualAddress.toNat (modules ds),
    sp.off + sp.len ≤ ctx.output.header.optionalHeader.sizeOfImage.toNat
  apart : ((importList (modules ds)).map Prod.fst).Pairwise fun w w' => w + 4 ≤ w' ∨ w' + 4 ≤ w
  clear : ∀ slot ∈ importList (modules ds),
    ∀ sp ∈ ⟨ctx.importDirectory.virtualAddress.toNat, sizeofImageImportDescriptor * ds.length + 16⟩ ::
      (modules ds).flatMap ImportModule.given, sp.ClearOf slot.1

/-- The slots are disjoint from the terminators of those that are their own
lookup table, too. -/
def TerminatorsClear : Prop :=
  ∀ slot ∈ importList (modules ds), ∀ d ∈ modules ds, ∀ sp ∈ d.terminator, sp.ClearOf slot.1

end Outcome

variable {b : Build} {inp : DllLoaderInput} {ctx : DllContext} {ds : List ImportDescriptor}
  {d : ImportDescriptor} {asked : List Query} {steps steps' : List ImportStep} {m : Bytes} {p f : Nat}
  {imports : List (Nat × Query)} {slots slots' : List (Nat × UInt32)} {imageName : List UInt8}
  {entries : List ImportEntry} {query : Query}

/-! ## The message -/

theorem decimal_length (v : UInt32) : (decimal v.toNat).length ≤ 10 := by
  have small := v.toNat_lt
  rw [decimal, List.length_map]
  exact (Nat.length_toDigits_le_iff (by decide) (by decide)).mpr (by omega)

/-- A message whose length is computed without wrapping fits with its NUL. -/
theorem message_fits (short : query.text.length + 13 < 2 ^ 32) : (query.message b).length < dlllMaxErrorLen := by
  have big := b.space_ge
  unfold Query.message
  split
  · decide
  · next room =>
    unfold dlllMaxErrorLen at room ⊢
    cases query with
    | byOrdinal image ordinal =>
      have digits := decimal_length ordinal
      have middle : (ascii " @ ").length = 3 := by decide
      simp only [Query.text, Query.messageLen, List.length_append, middle] at short room ⊢
      rw [Nat.mod_eq_of_lt (by omega)] at room
      omega
    | byName image name =>
      have middle : (ascii " @ ").length = 3 := by decide
      simp only [Query.text, Query.messageLen, List.length_append, middle] at short room ⊢
      rw [Nat.mod_eq_of_lt (by omega)] at room
      omega

/-! ## Steps -/

/-- Steps that are imports, all accepted, with what is stored. -/
def Walked (inp : DllLoaderInput) (asked : List Query) (steps : List ImportStep)
    (slots : List (Nat × UInt32)) : Prop :=
  ∃ imports, steps = imports.map (fun e => .resolve e.1 e.2) ∧ Accepted inp asked imports slots

theorem askedBy_imports : askedBy asked (imports.map fun e => .resolve e.1 e.2) =
    (imports.map Prod.snd).reverse ++ asked := by
  rw [askedBy, List.flatMap_map, List.map_eq_flatMap]
  rfl

theorem askedBy_append : askedBy asked (steps ++ steps') = askedBy (askedBy asked steps) steps' := by
  simp [askedBy]

theorem Walked.append (h : Walked inp asked steps slots) (h' : Walked inp (askedBy asked steps) steps' slots') :
    Walked inp asked (steps ++ steps') (slots ++ slots') := by
  obtain ⟨imports, rfl, accepted⟩ := h
  obtain ⟨imports', rfl, accepted'⟩ := h'
  rw [askedBy_imports] at accepted'
  exact ⟨imports ++ imports', List.map_append.symm, accepted.append accepted'⟩

theorem Walked.acceptsAll (h : Walked inp asked steps slots) : inp.AcceptsAll asked steps := by
  obtain ⟨imports, rfl, accepted⟩ := h
  rintro before step after split
  obtain ⟨front, rest, rfl, rfl, behind⟩ := List.map_eq_append_iff.mp split
  obtain ⟨⟨slot, query⟩, rest, rfl, rfl, rfl⟩ := List.map_eq_cons_iff.mp behind
  obtain ⟨first, more, -, later, -⟩ := accepted.split
  rw [askedBy_imports]
  cases later with
  | cons found _ => exact found

/-- Where the slots of a module split, its thunks do. -/
theorem importsFrom_split {before after : List (Nat × Query)} {slot : Nat}
    (split : importsFrom imageName f entries = before ++ (slot, query) :: after) :
    ∃ front e rest, entries = front ++ e :: rest ∧ before = importsFrom imageName f front ∧
      slot = f + 4 * front.length ∧ query = e.query imageName := by
  induction entries generalizing f before with
  | nil => simp [importsFrom] at split
  | cons e entries ih =>
    rw [importsFrom] at split
    cases before with
    | nil =>
      cases split
      exact ⟨[], e, entries, rfl, rfl, rfl, rfl⟩
    | cons first before =>
      rw [List.cons_append, List.cons.injEq] at split
      obtain ⟨rfl, split⟩ := split
      obtain ⟨front, e', rest, rfl, rfl, rfl, rfl⟩ := ih split
      refine ⟨e :: front, e', rest, rfl, rfl, ?_, rfl⟩
      rw [List.length_cons]
      omega

theorem importSteps_cons : importSteps (d :: ds) = d.steps ++ importSteps ds := List.flatMap_cons

theorem steps_plain (plain : d.forwarderChain = 0) : d.steps =
    (importsFrom d.imageName d.firstThunk.toNat d.imports).map fun e => .resolve e.1 e.2 := by
  rw [ImportDescriptor.steps, if_neg (not_not.mpr plain), List.nil_append]

/-- A step of a later descriptor is the first of the table that is refused,
when it is the first of the rest. -/
theorem ImportsStopped.later {ctx₁ c : DllContext} (walked : Walked inp ctx.queries d.steps slots)
    (asked : ctx₁.queries = askedBy ctx.queries d.steps) (h : ImportsStopped b inp ctx₁ ds c) :
    ImportsStopped b inp ctx (d :: ds) c := by
  obtain ⟨before, step, after, split, accepts, refused, refuses⟩ := h
  rw [asked] at accepts refused
  refine ⟨d.steps ++ before, step, after, ?_, ?_, by rwa [askedBy_append], refuses⟩
  · rw [importSteps_cons, split, List.append_assoc]
  · rintro front step' rest whole
    rcases List.append_eq_append_iff.mp whole with ⟨more, rfl, tail⟩ | ⟨more, whole', tail⟩
    · rw [askedBy_append]
      exact accepts more step' rest tail
    · cases more with
      | nil =>
        rw [List.append_nil] at whole'
        rw [← whole']
        exact accepts [] step' rest tail.symm
      | cons _ more =>
        cases tail
        exact walked.acceptsAll front step' more whole'

/-- A thunk that is refused, behind those of its descriptor that are accepted. -/
theorem thunk_stops {before after : List (Nat × Query)} {slot : Nat}
    (table : Resolvable b.space m p (d :: ds))
    (agree : AgreeOn (tableNeeds p (modules (d :: ds))) m ctx.image) (plain : d.forwarderChain = 0)
    (split : importsFrom d.imageName d.firstThunk.toNat d.imports = before ++ (slot, query) :: after)
    (accepted : Accepted inp ctx.queries before slots)
    (refused : (inp.answer ((before.map Prod.snd).reverse ++ ctx.queries) query).found = false) :
    ∃ c, Returns (importTurn b inp) (.descriptor p, ctx) (.error c) ∧ ImportsStopped b inp ctx (d :: ds) c := by
  obtain ⟨front, e, rest, imports, rfl, rfl, rfl⟩ := importsFrom_split split
  have loop := table.thunkLoop
  have needs := thunks_agree agree
  rw [imports] at loop needs
  obtain ⟨t, f, ctx₁, walk, -, bound, loop', agree'⟩ :=
    @thunks_walk b inp d.thunks d.firstThunk.toNat m ctx d.imageName front slots p d.name.toNat (e :: rest)
      loop needs accepted
  obtain ⟨entry, str⟩ := loop'.here agree'
  have strings : ∀ sp ∈ stringReads d.name.toNat d.imageName [e], sp.ClearOf f := by
    intro sp listed
    refine loop'.clear _ List.mem_cons_self sp ?_
    rcases List.mem_cons.mp listed with rfl | name
    · exact List.mem_cons_self
    · rw [List.flatMap_singleton] at name
      rw [stringReads, List.flatMap_cons]
      exact List.mem_cons_of_mem _ (List.mem_append_left _ name)
  have refused₁ : (inp.answer ctx₁.queries (e.query d.imageName)).found = false := by
    rw [bound.queries]
    exact refused
  obtain ⟨c, leaves, status, message⟩ := @thunk_refused b inp t f ctx₁ d.imageName p d.name.toNat e entry str
    refused₁ (loop'.fits _ List.mem_cons_self) strings
  have enter : importTurn b inp (.descriptor p, ctx) = _ := descriptor_again (table.here agree).1 plain
  refine ⟨c, (Steps.step enter walk).returns (returns_leave leaves), ?_⟩
  refine ⟨(importsFrom d.imageName d.firstThunk.toNat front).map fun e => .resolve e.1 e.2,
    .resolve (d.firstThunk.toNat + 4 * front.length) (e.query d.imageName),
    (after.map fun e => .resolve e.1 e.2) ++ importSteps ds, ?_, ?_, ?_, status, message, message_fits⟩
  · rw [importSteps_cons, steps_plain plain, split, List.map_append, List.map_cons, List.append_assoc,
      List.cons_append]
  · exact Walked.acceptsAll ⟨_, rfl, accepted⟩
  · rw [askedBy_imports]
    exact fun found => absurd (refused.symm.trans found) (by decide)

/-- The loops over a table: to its end, or to the first step that is not
accepted. -/
theorem table_ends (table : Resolvable b.space m p ds) (agree : AgreeOn (tableNeeds p (modules ds)) m ctx.image) :
    ∃ r, Returns (importTurn b inp) (.descriptor p, ctx) r ∧
      Ends (fun c => ∃ slots, Walked inp ctx.queries (importSteps ds) slots ∧
        c.image = putAll b.space slots ctx.image) (ImportsStopped b inp ctx ds) r := by
  induction ds generalizing ctx p with
  | nil =>
    exact ⟨_, returns_leave (descriptors_end table agree), [], ⟨[], rfl, .nil _⟩, rfl⟩
  | cons d ds ih =>
    by_cases plain : d.forwarderChain = 0
    · rcases accepted_or_refused inp ctx.queries (importsFrom d.imageName d.firstThunk.toNat d.imports) with
        ⟨slots, accepted⟩ | ⟨before, slot, query, after, slots, split, accepted, refused⟩
      · obtain ⟨ctx₁, walk, bound, agree₁⟩ := descriptor_walk table agree plain accepted
        have walked : Walked inp ctx.queries d.steps slots := ⟨_, steps_plain plain, accepted⟩
        have asked : ctx₁.queries = askedBy ctx.queries d.steps := by
          rw [steps_plain plain, askedBy_imports]
          exact bound.queries
        obtain ⟨r, returns, ends⟩ := ih table.tail agree₁
        refine ⟨r, walk.returns returns, ends.mono ?_ fun c stopped => stopped.later walked asked⟩
        rintro c ⟨slots', walked', image⟩
        rw [asked] at walked'
        refine ⟨slots ++ slots', ?_, ?_⟩
        · rw [importSteps_cons]
          exact walked.append walked'
        · rw [image, bound.image, putAll_append]
      · obtain ⟨c, returns, stopped⟩ := thunk_stops table agree plain split accepted refused
        exact ⟨_, returns, stopped⟩
    · have leaves : importTurn b inp (.descriptor p, ctx) = _ :=
        descriptor_forwarded (table.here agree).1 plain
      refine ⟨_, returns_leave leaves, [], .forward, (importsFrom d.imageName d.firstThunk.toNat d.imports).map
        (fun e => .resolve e.1 e.2) ++ importSteps ds, ?_, ?_, id, rfl⟩
      · rw [importSteps_cons, ImportDescriptor.steps, if_pos plain, List.append_assoc]
        rfl
      · rintro before step after none
        simp at none

/-! ## The slots -/

/-- A table of plain descriptors has the imports of its modules. -/
theorem imports_of_steps (steps : importSteps ds = imports.map fun e => .resolve e.1 e.2) :
    imports = importList (modules ds) := by
  induction ds generalizing imports with
  | nil => exact (List.map_eq_nil_iff.mp steps.symm)
  | cons d ds ih =>
    rw [importSteps_cons] at steps
    obtain ⟨own, rest, rfl, ownSteps, restSteps⟩ := List.map_eq_append_iff.mp steps.symm
    rw [modules_cons, importList_cons, ih restSteps.symm]
    congr 1
    rw [ImportDescriptor.steps] at ownSteps
    obtain ⟨forwards, slots, rfl, forwardSteps, slotSteps⟩ := List.map_eq_append_iff.mp ownSteps
    have none : forwards = [] := by
      cases forwards with
      | nil => rfl
      | cons e forwards =>
        exfalso
        rw [List.map_cons] at forwardSteps
        split at forwardSteps <;> cases forwardSteps
    rw [none, List.nil_append]
    refine List.map_injective_iff.mpr ?_ slotSteps
    rintro ⟨slot, query⟩ ⟨slot', query'⟩ same
    cases same
    rfl

/-- With every import accepted, each slot holds what was stored to it. -/
theorem Walked.resolved {ctx₁ c : DllContext} (table : Resolvable b.space m p ds)
    (walked : Walked inp ctx.queries (importSteps ds) slots) (start : ctx₁.image = ctx.image)
    (image : c.image = putAll b.space slots ctx₁.image) : ImportsResolved b inp ctx ds c := by
  obtain ⟨imports, steps, accepted⟩ := walked
  obtain rfl := imports_of_steps steps
  have fits : ∀ slot ∈ slots, slot.1 + 4 ≤ b.space :=
    accepted.forall (P := fun w => w + 4 ≤ b.space) fun slot listed => Nat.le_of_lt (table.fits slot listed)
  rw [start] at image
  constructor
  · intro before slot query after split
    rw [steps] at split
    obtain ⟨front, rest, whole, rfl, behind⟩ := List.map_eq_append_iff.mp split
    obtain ⟨⟨w, asks⟩, rest, rfl, same, rfl⟩ := List.map_eq_cons_iff.mp behind
    cases same
    have apart := table.apart
    rw [whole, List.map_append, List.map_cons, List.pairwise_append, List.pairwise_cons] at apart
    rw [whole] at accepted
    obtain ⟨first, more, head, tail, rfl⟩ := accepted.split
    cases tail with
    | @cons _ _ last _ _ found later =>
    have room : w + 4 ≤ b.space := by
      refine Nat.le_of_lt (table.fits (w, asks) ?_)
      rw [whole]
      exact List.mem_append_right _ List.mem_cons_self
    have before : ∀ stored ∈ first, stored.1 + 4 ≤ w ∨ w + 4 ≤ stored.1 :=
      head.forall (P := fun w' => w' + 4 ≤ w ∨ w + 4 ≤ w') fun e listed =>
        apart.2.2 _ (List.mem_map_of_mem listed) _ List.mem_cons_self
    have after : ∀ stored ∈ last, stored.1 + 4 ≤ w ∨ w + 4 ≤ stored.1 :=
      later.forall (P := fun w' => w' + 4 ≤ w ∨ w + 4 ≤ w') fun e listed =>
        (apart.2.1.1 _ (List.mem_map_of_mem listed)).symm
    rw [image, putAll_append, putAll_append, askedBy_imports, u32_putAll_apart ?_ room after]
    · cases answer : (inp.answer ((front.map Prod.snd).reverse ++ ctx.queries) asks).result with
      | none => exact u32_putAll_apart (fun slot listed => fits slot (List.mem_append_left _ listed)) room before
      | some v =>
        have big := b.space_ge
        exact u32_store32_same (by omega)
    · exact fun slot listed =>
        fits slot (List.mem_append_right _ (List.mem_append_right _ listed))
  · intro a lt outside
    rw [image]
    exact putAll_outside fits lt (accepted.forall (P := fun w => a < w ∨ w + 4 ≤ a) outside)

/-! ## The pass -/

/-- What the loops read of a table lies in what is given or is a terminator. -/
theorem importReads_cases {ds : List ImportModule} {sp : Span} (h : sp ∈ importReads p ds) :
    sp ∈ ⟨p, sizeofImageImportDescriptor * ds.length + 16⟩ :: ds.flatMap ImportModule.given ∨
      ∃ d ∈ ds, sp ∈ d.terminator := by
  rcases List.mem_cons.mp h with rfl | read
  · exact .inl List.mem_cons_self
  obtain ⟨d, listed, read⟩ := List.mem_flatMap.mp read
  have given (own : sp ∈ d.given) :
      sp ∈ ⟨p, sizeofImageImportDescriptor * ds.length + 16⟩ :: ds.flatMap ImportModule.given :=
    List.mem_cons_of_mem _ (List.mem_flatMap.mpr ⟨d, listed, own⟩)
  rcases List.mem_cons.mp read with rfl | read
  · exact .inl (given List.mem_cons_self)
  rcases List.mem_cons.mp read with rfl | string
  · by_cases own : d.originalFirstThunk ≠ 0
    · refine .inl (given (List.mem_cons_of_mem _ (List.mem_append_left _ ?_)))
      rw [if_pos own, if_pos own]
      exact List.mem_cons_self
    · refine .inr ⟨d, listed, ?_⟩
      rw [ImportModule.terminator, if_neg own, if_neg own]
      exact List.mem_cons_self
  · exact .inl (given (List.mem_cons_of_mem _ (List.mem_append_right _ string)))

theorem ImportsInImage.resolvable (h : ImportsInImage b ctx ds) (terminators : TerminatorsClear ds)
    (size : ctx.importDirectory.size ≠ 0) :
    Resolvable b.space ctx.image ctx.importDirectory.virtualAddress.toNat ds := by
  have small := b.word_lt ctx.output.header.optionalHeader.sizeOfImage
  refine ⟨h.table size, fun sp listed => ?_, fun slot listed => ?_, h.apart, fun slot listed sp read => ?_⟩
  · have inside := h.inside sp (List.mem_append_left _ listed)
    omega
  · have inside := h.inside ⟨slot.1, 4⟩ (List.mem_append_right _ (List.mem_map_of_mem listed))
    exact Nat.lt_of_le_of_lt inside small
  · rcases importReads_cases read with given | ⟨d, member, terminator⟩
    · refine h.clear slot listed sp ?_
      rwa [modules, List.length_map] at given
    · exact terminators slot listed d member sp terminator

/-- Import resolution is complete, or stops at the first step that is not
accepted. -/
theorem dllResolveImports_outcome (b : Build) (inp : DllLoaderInput) (ctx : DllContext)
    (ds : List ImportDescriptor) (table : ImportsInImage b ctx ds) (terminators : TerminatorsClear ds) :
    ImportOutcome b inp ctx ds := by
  by_cases size : ctx.importDirectory.size = 0
  · obtain rfl := table.absent size
    refine ⟨0, _, fun budget _ => dllResolveImports_none size budget, ⟨fun _ => ?_, fun _ => ⟨_, rfl⟩⟩, ?_, ?_⟩
    · rintro before step after none
      simp [importSteps] at none
    · rintro before slot query after none
      simp [importSteps] at none
    · exact fun _ _ _ => rfl
  · have resolvable := table.resolvable terminators size
    obtain ⟨r, returns, ends⟩ := @table_ends b inp (ctx.setErrorContext .resolveImports) ds ctx.image _
      resolvable fun _ _ _ _ _ => rfl
    obtain ⟨n, leaves⟩ := dllResolveImports_returns size returns
    refine ⟨n, r, leaves, ?_, ?_⟩
    · cases r with
      | ok c =>
        obtain ⟨slots, walked, -⟩ := ends
        exact ⟨fun _ => walked.acceptsAll, fun _ => ⟨c, rfl⟩⟩
      | error c =>
        obtain ⟨before, step, after, split, -, refused, -⟩ := ends
        exact ⟨fun ⟨_, ok⟩ => (nomatch ok), fun accepts => absurd (accepts before step after split) refused⟩
    · refine ends.mono ?_ fun c stopped => stopped
      rintro c ⟨slots, walked, image⟩
      exact walked.resolved resolvable rfl image

/-- A pass's context, if it has returned false. -/
def refused? : Turn DllContext Pass → Option DllContext
  | .leave (.error ctx) => some ctx
  | _ => none

theorem refused?_eq {t : Turn DllContext Pass} {c : DllContext} (h : refused? t = some c) :
    t = .leave (.error c) := by
  cases t with
  | again c => cases h
  | leave r =>
    cases r with
    | ok c => cases h
    | error c => cases h; rfl

/-- An image with two modules called `k`, each with one import by ordinal. The
first has a separate lookup table at `0x50` and its slot at `0x60`; the slot of
the second is its own lookup table. -/
def twoModules (firstThunk : UInt32) : DllContext where
  output := {
    header := { optionalHeader := {
      sizeOfImage := 0x100
      dataDirectory := fun i => if i = imageDirectoryEntryImport then ⟨0x10, 60⟩ else {} } }
    image := 0x50000 }
  image := ofWords [(0x10, 0x50), (0x1C, 0x70), (0x20, 0x60), (0x30, 0x70), (0x34, firstThunk),
    (0x50, 0x80000001), (firstThunk.toNat, 0x80000002), (0x70, 0x6B)]

/-- Its descriptors. -/
def twoDescriptors (firstThunk : UInt32) : List ImportDescriptor :=
  [⟨⟨0x50, 0x70, 0x60, [0x6B], [⟨0x80000001, []⟩]⟩, 0⟩, ⟨⟨0, 0x70, firstThunk, [0x6B], [⟨0x80000002, []⟩]⟩, 0⟩]

/-- A resolver that knows the ordinals 1 and 2, both at `0x80010003`. -/
def knowsTwo : DllLoaderInput where
  rawData := 0x10000
  raw := fun _ => 0
  rawDataSize := 0
  alloc _ _ := 0
  resolveImportByOrdinal _ _ ordinal := ⟨ordinal ≤ 2, some 0x80010003⟩
  resolveImportByName _ _ _ := ⟨false, none⟩

theorem twoModules_inImage (firstThunk : UInt32) (side : firstThunk = 0x64 ∨ firstThunk = 0x5C) :
    ImportsInImage .target (twoModules firstThunk) (twoDescriptors firstThunk) := by
  have read : ∀ w ∈ [(0x10, (0x50 : UInt32)), (0x18, 0), (0x1C, 0x70), (0x20, 0x60), (0x24, 0), (0x2C, 0),
      (0x30, 0x70), (0x34, firstThunk), (0x44, 0), (0x50, 0x80000001), (0x54, 0),
      (firstThunk.toNat, 0x80000002), (firstThunk.toNat + 4, 0)],
      u32 (2 ^ 32) (twoModules firstThunk).image w.1 = w.2 := by
    rcases side with rfl | rfl <;> decide +kernel
  have name : StrAt (2 ^ 32) (twoModules firstThunk).image 0x70 [0x6B] := by
    have bytes : (twoModules firstThunk).image 0x70 = 0x6B ∧ (twoModules firstThunk).image 0x71 = 0 := by
      rcases side with rfl | rfl <;> decide +kernel
    refine ⟨by decide, fun i lt => ?_, List.forall_mem_singleton.mpr (by decide), bytes.2⟩
    obtain rfl : i = 0 := by simpa using lt
    exact bytes.1
  refine ⟨fun none => absurd none (by decide : (60 : UInt32) ≠ 0), fun _ => ⟨?_, ?_, ?_⟩, ?_, ?_, ?_⟩
  · refine ⟨⟨read (0x10, _) ?_, read (0x18, _) ?_, read (0x1C, _) ?_, by decide, read (0x20, _) ?_⟩, name,
      ⟨read (0x50, _) ?_, by decide, fun snap => absurd snap (by decide)⟩, read (0x54, _) ?_⟩
    all_goals simp
  · refine ⟨⟨read (0x24, _) ?_, read (0x2C, _) ?_, read (0x30, _) ?_, (by decide : (0x70 : UInt32) ≠ 0),
      read (0x34, _) ?_⟩, name, ⟨read (firstThunk.toNat, _) ?_, by decide, fun snap => absurd snap (by decide)⟩,
      read (firstThunk.toNat + 4, _) ?_⟩
    all_goals simp
  · exact read (0x44, _) (by simp)
  · rcases side with rfl | rfl <;> decide +kernel
  · rcases side with rfl | rfl <;> decide +kernel
  · rcases side with rfl | rfl <;> decide +kernel

/-- The slots of the two modules, side by side. -/
theorem twoModules_outcome : ImportOutcome .target knowsTwo (twoModules 0x64) (twoDescriptors 0x64) := by
  have clear : ∀ slot ∈ importList (modules (twoDescriptors 0x64)), ∀ d ∈ modules (twoDescriptors 0x64),
      ∀ sp ∈ d.terminator, sp.ClearOf slot.1 := by decide +kernel
  exact dllResolveImports_outcome .target knowsTwo (twoModules 0x64) (twoDescriptors 0x64)
    (twoModules_inImage 0x64 (.inl rfl)) clear

/-- The first module's slot where the second's thunks end: once it is filled,
they go on. The resolver knows both imports, and the pass returns false. -/
theorem overlaidTerminator_stops :
    ImportsInImage .target (twoModules 0x5C) (twoDescriptors 0x5C) ∧
      ¬ ImportOutcome .target knowsTwo (twoModules 0x5C) (twoDescriptors 0x5C) := by
  refine ⟨twoModules_inImage 0x5C (.inr rfl), ?_⟩
  rintro ⟨n, r, leaves, returnsTrue, -⟩
  have accepted : Accepted knowsTwo [] (importList (modules (twoDescriptors 0x5C)))
      [(0x60, 0x80010003), (0x5C, 0x80010003)] := accepted_of_resolveAll (by decide +kernel)
  have steps : importSteps (twoDescriptors 0x5C) =
      (importList (modules (twoDescriptors 0x5C))).map fun e => .resolve e.1 e.2 := by decide +kernel
  obtain ⟨c, rfl⟩ := returnsTrue.mpr (Walked.acceptsAll ⟨_, steps, accepted⟩)
  -- the third query, for the address in the first slot, is refused
  have refused : (refused? (dllResolveImports .target knowsTwo 20 (twoModules 0x5C))).isSome = true := by
    decide +kernel
  obtain ⟨c', stops⟩ := Option.isSome_iff_exists.mp refused
  have stops := dllResolveImports_mono (refused?_eq stops) (Nat.le_add_left 20 n)
  exact nomatch (leaves (n + 20) (Nat.le_add_right n 20)).symm.trans stops

end Dyndxt.Loader
