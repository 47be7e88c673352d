import Dyndxt.Loader.ImportThunks

/-!
# Binding an import table

An import table as data, and where an image holds it. When no slot overlaps
what the loops read, they make each query once, in order, and store each
answer in its slot. A module without an `OriginalFirstThunk` keeps its thunks
in the slots themselves; a thunk is read before its own slot is written.
-/

namespace Dyndxt.Loader
open Dyndxt.Mem Dyndxt.Pool Dyndxt.Run

/-- A descriptor, with the name and the thunks it points to. -/
structure ImportModule where
  originalFirstThunk : UInt32
  name : UInt32
  firstThunk : UInt32
  imageName : List UInt8
  imports : List ImportEntry
deriving DecidableEq, Repr

/-- Where the thunks are read. -/
def ImportModule.thunks (d : ImportModule) : Nat :=
  if d.originalFirstThunk ≠ 0 then d.originalFirstThunk.toNat else d.firstThunk.toNat

/-- The slots of a table, each with its query, in the order of the loops. -/
def importList (ds : List ImportModule) : List (Nat × Query) :=
  ds.flatMap fun d => importsFrom d.imageName d.firstThunk.toNat d.imports

/-! ## The table in an image -/

structure ImportModule.DescriptorAt (M : Nat) (m : Bytes) (p : Nat) (d : ImportModule) : Prop where
  originalFirstThunk : u32 M m p = d.originalFirstThunk
  forwarderChain : u32 M m (p + 8) = 0
  name : u32 M m (p + 12) = d.name
  named : d.name ≠ 0
  firstThunk : u32 M m (p + 16) = d.firstThunk

structure ImportModule.At (M : Nat) (m : Bytes) (p : Nat) (d : ImportModule) : Prop
    extends d.DescriptorAt M m p where
  imageName : StrAt M m d.name.toNat d.imageName
  thunks : ThunksAt M m d.thunks d.imports

/-- The descriptors stand at `p`, and one without a name follows them. -/
def ImportTableAt (M : Nat) (m : Bytes) : Nat → List ImportModule → Prop
  | p, [] => u32 M m (p + 12) = 0
  | p, d :: ds => d.At M m p ∧ ImportTableAt M m (p + sizeofImageImportDescriptor) ds

/-- What is read of a module: its name, its thunks with their terminator (the
terminator only, where the thunks are the slots) and their names. -/
def ImportModule.reads (d : ImportModule) : List Span :=
  ⟨d.name.toNat, d.imageName.length + 1⟩ ::
    (if d.originalFirstThunk ≠ 0 then ⟨d.originalFirstThunk.toNat, 4 * (d.imports.length + 1)⟩
      else ⟨d.firstThunk.toNat + 4 * d.imports.length, 4⟩) ::
    d.imports.flatMap ImportEntry.strings

/-- What is read of a table: the descriptors, up to the name that ends them,
and the modules. -/
def importReads (p : Nat) (ds : List ImportModule) : List Span :=
  ⟨p, sizeofImageImportDescriptor * ds.length + 16⟩ :: ds.flatMap ImportModule.reads

/-- The slots as spans. -/
def slotSpans (ds : List ImportModule) : List Span := (importList ds).map fun slot => ⟨slot.1, 4⟩

/-- A table that the loader can bind: the slots are disjoint from each other
and from what is read. -/
structure Bindable (M : Nat) (m : Bytes) (p : Nat) (ds : List ImportModule) : Prop where
  table : ImportTableAt M m p ds
  inM : ∀ sp ∈ importReads p ds, sp.off + sp.len ≤ M
  fits : ∀ slot ∈ importList ds, slot.1 + 4 < M
  apart : ((importList ds).map Prod.fst).Pairwise fun w w' => w + 4 ≤ w' ∨ w' + 4 ≤ w
  clear : ∀ slot ∈ importList ds, ∀ sp ∈ importReads p ds, sp.ClearOf slot.1

/-- A descriptor with its forwarder chain, which the loops refuse. -/
structure ImportDescriptor extends ImportModule where
  forwarderChain : UInt32
deriving DecidableEq, Repr

structure ImportDescriptor.FieldsAt (M : Nat) (m : Bytes) (p : Nat) (d : ImportDescriptor) : Prop where
  originalFirstThunk : u32 M m p = d.originalFirstThunk
  forwarderChain : u32 M m (p + 8) = d.forwarderChain
  name : u32 M m (p + 12) = d.name
  named : d.name ≠ 0
  firstThunk : u32 M m (p + 16) = d.firstThunk

structure ImportDescriptor.At (M : Nat) (m : Bytes) (p : Nat) (d : ImportDescriptor) : Prop
    extends d.FieldsAt M m p where
  imageName : StrAt M m d.name.toNat d.imageName
  thunks : ThunksAt M m d.thunks d.imports

/-- The descriptors stand at `p`, and one without a name follows them. -/
def DescriptorsAt (M : Nat) (m : Bytes) : Nat → List ImportDescriptor → Prop
  | p, [] => u32 M m (p + 12) = 0
  | p, d :: ds => d.At M m p ∧ DescriptorsAt M m (p + sizeofImageImportDescriptor) ds

def modules (ds : List ImportDescriptor) : List ImportModule := ds.map ImportDescriptor.toImportModule

/-- A table that the loops can walk, to its end or to what they refuse. -/
structure Resolvable (M : Nat) (m : Bytes) (p : Nat) (ds : List ImportDescriptor) : Prop where
  table : DescriptorsAt M m p ds
  inM : ∀ sp ∈ importReads p (modules ds), sp.off + sp.len ≤ M
  fits : ∀ slot ∈ importList (modules ds), slot.1 + 4 < M
  apart : ((importList (modules ds)).map Prod.fst).Pairwise fun w w' => w + 4 ≤ w' ∨ w' + 4 ≤ w
  clear : ∀ slot ∈ importList (modules ds), ∀ sp ∈ importReads p (modules ds), sp.ClearOf slot.1

variable {b : Build} {inp : DllLoaderInput} {M p t f : Nat} {m : Bytes} {ctx : DllContext}
  {imageName : List UInt8} {entries : List ImportEntry} {d : ImportModule} {ds : List ImportModule}
  {asked : List Query} {imports imports' : List (Nat × Query)} {slots : List (Nat × UInt32)}

/-! ## The descriptor loop -/

theorem thunks_shared (shared : d.originalFirstThunk = 0) : d.thunks = d.firstThunk.toNat :=
  if_neg (not_not.mpr shared)

theorem thunks_own (own : d.originalFirstThunk ≠ 0) : d.thunks = d.originalFirstThunk.toNat := if_pos own

theorem mem_importsFrom {i : Nat} (lt : i < entries.length) :
    ∃ query, (f + 4 * i, query) ∈ importsFrom imageName f entries := by
  induction entries generalizing f i with
  | nil => cases lt
  | cons e entries ih =>
    cases i with
    | zero => exact ⟨_, List.mem_cons_self⟩
    | succ i =>
      obtain ⟨query, listed⟩ := @ih (f + 4) i (Nat.lt_of_succ_lt_succ lt)
      refine ⟨query, List.mem_cons_of_mem _ ?_⟩
      rwa [show f + 4 * (i + 1) = f + 4 + 4 * i by omega]

theorem importList_cons : importList (d :: ds) =
    importsFrom d.imageName d.firstThunk.toNat d.imports ++ importList ds := List.flatMap_cons

theorem importReads_tail {sp : Span} (h : sp ∈ importReads (p + sizeofImageImportDescriptor) ds) :
    ∃ sp' ∈ importReads p (d :: ds), sp.Within sp' := by
  rcases List.mem_cons.mp h with rfl | module
  · refine ⟨_, List.mem_cons_self, Nat.le_add_right _ _, ?_⟩
    simp only [List.length_cons, Nat.mul_succ]
    omega
  · refine ⟨sp, List.mem_cons_of_mem _ ?_, Nat.le_refl _, Nat.le_refl _⟩
    rw [List.flatMap_cons]
    exact List.mem_append_right _ module

theorem modules_cons {d : ImportDescriptor} {ds : List ImportDescriptor} :
    modules (d :: ds) = d.toImportModule :: modules ds := rfl

theorem Resolvable.tail {d : ImportDescriptor} {ds : List ImportDescriptor} (h : Resolvable M m p (d :: ds)) :
    Resolvable M m (p + sizeofImageImportDescriptor) ds := by
  have apart := h.apart
  rw [modules_cons, importList_cons, List.map_append, List.pairwise_append] at apart
  have later : ∀ slot ∈ importList (modules ds), slot ∈ importList (modules (d :: ds)) := by
    intro slot listed
    rw [modules_cons, importList_cons]
    exact List.mem_append_right _ listed
  refine ⟨h.table.2, ?_, fun slot listed => h.fits slot (later slot listed), apart.2.1, ?_⟩
  · intro sp listed
    obtain ⟨sp', listed', within⟩ := @importReads_tail p d.toImportModule (modules ds) sp listed
    have := h.inM sp' listed'
    have := within.2
    omega
  · intro slot listed sp needed
    obtain ⟨sp', needed', within⟩ := @importReads_tail p d.toImportModule (modules ds) sp needed
    exact (h.clear slot (later slot listed) sp' needed').mono within

/-- What a table's loops need kept: what they read, and the slots, where
modules may keep their thunks. -/
def tableNeeds (p : Nat) (ds : List ImportModule) : List Span := importReads p ds ++ slotSpans ds

theorem tableNeeds_tail {sp : Span} (h : sp ∈ tableNeeds (p + sizeofImageImportDescriptor) ds) :
    ∃ sp' ∈ tableNeeds p (d :: ds), sp.Within sp' := by
  rcases List.mem_append.mp h with read | slot
  · obtain ⟨sp', listed, within⟩ := @importReads_tail p d ds sp read
    exact ⟨sp', List.mem_append_left _ listed, within⟩
  · refine ⟨sp, List.mem_append_right _ ?_, Nat.le_refl _, Nat.le_refl _⟩
    rw [slotSpans, importList_cons, List.map_append]
    exact List.mem_append_right _ slot

/-- The first module's slots are clear of what the rest of the table needs. -/
theorem Resolvable.head_clear {d : ImportDescriptor} {ds : List ImportDescriptor}
    (h : Resolvable M m p (d :: ds)) :
    ∀ sp ∈ tableNeeds (p + sizeofImageImportDescriptor) (modules ds),
      ∀ slot ∈ importsFrom d.imageName d.firstThunk.toNat d.imports, sp.ClearOf slot.1 := by
  have apart := h.apart
  rw [modules_cons, importList_cons, List.map_append, List.pairwise_append] at apart
  intro sp needed slot listed
  rcases List.mem_append.mp needed with read | other
  · obtain ⟨sp', listed', within⟩ := @importReads_tail p d.toImportModule (modules ds) sp read
    refine (h.clear slot ?_ sp' listed').mono within
    rw [modules_cons, importList_cons]
    exact List.mem_append_left _ listed
  · obtain ⟨slot', listed', rfl⟩ := List.mem_map.mp other
    have := apart.2.2 slot.1 (List.mem_map_of_mem listed) slot'.1 (List.mem_map_of_mem listed')
    exact this

/-- The thunks of the first module are kept where the table's needs are. -/
theorem thunks_agree {m' : Bytes} (agree : AgreeOn (tableNeeds p (d :: ds)) m m') :
    AgreeOn (thunkReads d.name.toNat d.imageName d.thunks d.imports) m m' := by
  have reads : ∀ sp ∈ d.reads, SameOn sp.off (sp.off + sp.len) m m' := by
    intro sp listed
    apply agree sp (List.mem_append_left _ (List.mem_cons_of_mem _ _))
    rw [List.flatMap_cons]
    exact List.mem_append_left _ listed
  intro sp listed
  rcases List.mem_cons.mp listed with rfl | string
  · have table := reads _ (List.mem_cons_of_mem _ List.mem_cons_self)
    by_cases shared : d.originalFirstThunk = 0
    · -- the thunks are the slots, and the terminator follows them
      rw [if_neg (not_not.mpr shared)] at table
      rw [thunks_shared shared]
      intro a low high
      simp only at low high
      rcases Nat.lt_or_ge a (d.firstThunk.toNat + 4 * d.imports.length) with inSlots | inEnd
      · obtain ⟨query, slot⟩ := @mem_importsFrom d.firstThunk.toNat d.imageName d.imports
          ((a - d.firstThunk.toNat) / 4) (by omega)
        have span : (Span.mk (d.firstThunk.toNat + 4 * ((a - d.firstThunk.toNat) / 4)) 4) ∈
            tableNeeds p (d :: ds) := by
          refine List.mem_append_right _ (List.mem_map.mpr ⟨(_, query), ?_, rfl⟩)
          rw [importList_cons]
          exact List.mem_append_left _ slot
        exact agree _ span a (by simp only; omega) (by simp only; omega)
      · exact table a inEnd (by simp only; omega)
    · rw [if_pos shared] at table
      rwa [thunks_own shared]
  · apply reads
    rcases List.mem_cons.mp string with rfl | name
    · exact List.mem_cons_self
    · exact List.mem_cons_of_mem _ (List.mem_cons_of_mem _ name)

/-- The first module's thunk loop. -/
theorem Resolvable.thunkLoop {d : ImportDescriptor} {ds : List ImportDescriptor}
    (h : Resolvable M m p (d :: ds)) :
    ThunkLoop M m d.name.toNat d.imageName d.thunks d.firstThunk.toNat d.imports := by
  obtain ⟨module, _⟩ := h.table
  have slots : ∀ slot ∈ importsFrom d.imageName d.firstThunk.toNat d.imports,
      slot ∈ importList (modules (d :: ds)) := by
    intro slot listed
    rw [modules_cons, importList_cons]
    exact List.mem_append_left _ listed
  have reads : ∀ sp ∈ d.reads, sp ∈ importReads p (modules (d :: ds)) := by
    intro sp listed
    refine List.mem_cons_of_mem _ ?_
    rw [modules_cons, List.flatMap_cons]
    exact List.mem_append_left _ listed
  have strings : ∀ sp ∈ stringReads d.name.toNat d.imageName d.imports, sp ∈ d.reads := by
    intro sp listed
    rcases List.mem_cons.mp listed with rfl | name
    · exact List.mem_cons_self
    · exact List.mem_cons_of_mem _ (List.mem_cons_of_mem _ name)
  have table := reads _ (List.mem_cons_of_mem _ List.mem_cons_self)
  refine ⟨module.thunks, module.imageName, ?_, fun slot listed => h.fits slot (slots slot listed), ?_,
    fun slot listed sp string => h.clear slot (slots slot listed) sp (reads sp (strings sp string))⟩
  · intro sp listed
    rcases List.mem_cons.mp listed with rfl | string
    · have inM := h.inM _ table
      by_cases shared : d.originalFirstThunk = 0
      · rw [if_neg (not_not.mpr shared)] at inM
        rw [thunks_shared shared]
        simp only at inM ⊢
        omega
      · rw [if_pos shared] at inM
        rwa [thunks_own shared]
    · exact h.inM sp (reads sp (strings sp string))
  · by_cases shared : d.originalFirstThunk = 0
    · exact .inl (thunks_shared shared)
    · refine .inr fun slot listed => ?_
      have clear := h.clear slot (slots slot listed) _ table
      rw [if_pos shared] at clear
      rwa [thunks_own shared]

theorem ImportDescriptor.FieldsAt.congr {d : ImportDescriptor} {m' : Bytes} (h : d.FieldsAt M m p)
    (same : SameOn p (p + sizeofImageImportDescriptor) m m') (fits : p + sizeofImageImportDescriptor ≤ M) :
    d.FieldsAt M m' p := by
  unfold sizeofImageImportDescriptor at same fits
  refine ⟨?_, ?_, ?_, h.named, ?_⟩
  · rw [same.u32 (by omega) (by omega) fits]
    exact h.originalFirstThunk
  · rw [same.u32 (by omega) (by omega) fits]
    exact h.forwarderChain
  · rw [same.u32 (by omega) (by omega) fits]
    exact h.name
  · rw [same.u32 (by omega) (by omega) fits]
    exact h.firstThunk

section Descriptors

variable {d : ImportDescriptor} {ds before : List ImportDescriptor}

/-- The first descriptor is in the image as in the table. -/
theorem Resolvable.here (h : Resolvable b.space m p (d :: ds))
    (agree : AgreeOn (tableNeeds p (modules (d :: ds))) m ctx.image) :
    d.FieldsAt b.space ctx.image p ∧ p + sizeofImageImportDescriptor < b.space := by
  have table : SameOn p (p + (sizeofImageImportDescriptor * ((modules ds).length + 1) + 16)) m ctx.image :=
    agree _ List.mem_cons_self
  have inM : p + (sizeofImageImportDescriptor * ((modules ds).length + 1) + 16) ≤ b.space :=
    h.inM _ List.mem_cons_self
  rw [Nat.mul_succ] at table inM
  refine ⟨h.table.1.toFieldsAt.congr (table.mono (Nat.le_refl _) (by omega)) (by omega), by omega⟩

/-- The round of a descriptor without a forwarder chain. -/
theorem descriptor_again (fields : d.FieldsAt b.space ctx.image p) (plain : d.forwarderChain = 0) :
    importTurn b inp (.descriptor p, ctx) =
      .again (.thunk p d.name.toNat d.thunks d.firstThunk.toNat, ctx) := by
  simp only [importTurn, ImageImportDescriptor.read, fields.name, if_neg fields.named,
    fields.forwarderChain, plain, ne_eq, not_true, if_false, fields.firstThunk, fields.originalFirstThunk,
    ImportModule.thunks]

/-- The round of one with a forwarder chain. -/
theorem descriptor_forwarded (fields : d.FieldsAt b.space ctx.image p) (chained : d.forwarderChain ≠ 0) :
    importTurn b inp (.descriptor p, ctx) =
      .leave (.error (ctx.setErrorStatus .dllForwardingNotSupported)) := by
  simp only [importTurn, ImageImportDescriptor.read, fields.name, if_neg fields.named,
    fields.forwarderChain, chained, ne_eq, not_false_iff, if_true]

/-- The round behind the last descriptor. -/
theorem descriptors_end (h : Resolvable b.space m p [])
    (agree : AgreeOn (tableNeeds p (modules [])) m ctx.image) :
    importTurn b inp (.descriptor p, ctx) = .leave (.ok ctx) := by
  have ends : u32 b.space m (p + 12) = 0 := h.table
  have same : SameOn p (p + 16) m ctx.image := agree _ List.mem_cons_self
  have here : u32 b.space ctx.image (p + 12) = 0 :=
    (same.u32 (Nat.le_add_right _ _) (Nat.le_refl _) (h.inM _ List.mem_cons_self)).trans ends
  simp only [importTurn, ImageImportDescriptor.read, here, if_true]

/-- The loops over the first descriptor, its thunks all accepted. -/
theorem descriptor_walk (table : Resolvable b.space m p (d :: ds))
    (agree : AgreeOn (tableNeeds p (modules (d :: ds))) m ctx.image) (plain : d.forwarderChain = 0)
    (accepted : Accepted inp ctx.queries (importsFrom d.imageName d.firstThunk.toNat d.imports) slots) :
    ∃ ctx', Steps (importTurn b inp) (.descriptor p, ctx)
        (.descriptor (p + sizeofImageImportDescriptor), ctx') ∧
      Bound b (importsFrom d.imageName d.firstThunk.toNat d.imports) slots ctx ctx' ∧
      AgreeOn (tableNeeds (p + sizeofImageImportDescriptor) (modules ds)) m ctx'.image := by
  obtain ⟨fields, room⟩ := table.here agree
  have loop := table.thunkLoop
  have needs := thunks_agree agree
  rw [← List.append_nil d.imports] at loop needs
  obtain ⟨t, f, ctx₁, walk, -, bound, rest, agree₁⟩ :=
    @thunks_walk b inp d.thunks d.firstThunk.toNat m ctx d.imageName d.imports slots p d.name.toNat [] loop
      needs accepted
  have leave : importTurn b inp (.thunk p d.name.toNat t f, ctx₁) =
      .again (.descriptor (p + sizeofImageImportDescriptor), ctx₁) := by
    simp only [importTurn, if_pos (rest.ends agree₁), Nat.mod_eq_of_lt room]
  have kept : AgreeOn (tableNeeds (p + sizeofImageImportDescriptor) (modules ds)) ctx.image ctx₁.image := by
    rw [bound.image]
    apply putAll_agreeOn
    · apply accepted.forall (P := fun w => w + 4 ≤ b.space)
      exact fun slot listed => Nat.le_of_lt (table.thunkLoop.fits slot listed)
    · intro sp listed
      rcases List.mem_append.mp listed with read | other
      · exact table.tail.inM sp read
      · obtain ⟨slot, listed', rfl⟩ := List.mem_map.mp other
        exact Nat.le_of_lt (table.tail.fits slot listed')
    · intro sp listed
      exact accepted.forall (P := sp.ClearOf) (table.head_clear sp listed)
  refine ⟨ctx₁, .step (descriptor_again fields plain) (walk.snoc leave), bound, ?_⟩
  exact (agree.mono fun sp listed => tableNeeds_tail listed).trans kept

/-- The loops over descriptors whose imports are all accepted, up to the next
one. -/
theorem descriptors_walk (table : Resolvable b.space m p (before ++ ds))
    (agree : AgreeOn (tableNeeds p (modules (before ++ ds))) m ctx.image)
    (plain : ∀ d ∈ before, d.forwarderChain = 0)
    (accepted : Accepted inp ctx.queries (importList (modules before)) slots) :
    ∃ p' ctx', Steps (importTurn b inp) (.descriptor p, ctx) (.descriptor p', ctx') ∧
      Bound b (importList (modules before)) slots ctx ctx' ∧ Resolvable b.space m p' ds ∧
      AgreeOn (tableNeeds p' (modules ds)) m ctx'.image := by
  induction before generalizing ctx p slots with
  | nil =>
    cases accepted
    exact ⟨p, ctx, .refl _, Bound.refl, table, agree⟩
  | cons d before ih =>
    rw [modules_cons, importList_cons] at accepted
    obtain ⟨first, rest, head, later, rfl⟩ := accepted.split
    obtain ⟨ctx₁, walk, bound, agree₁⟩ := descriptor_walk table agree (plain d List.mem_cons_self) head
    have asked : ctx₁.queries =
        ((importsFrom d.imageName d.firstThunk.toNat d.imports).map Prod.snd).reverse ++ ctx.queries :=
      bound.queries
    rw [← asked] at later
    obtain ⟨p', ctx', walk', bound', table', agree'⟩ :=
      ih table.tail agree₁ (fun d listed => plain d (List.mem_cons_of_mem _ listed)) later
    refine ⟨p', ctx', walk.trans walk', ?_, table', agree'⟩
    rw [modules_cons, importList_cons]
    exact bound.trans bound'

end Descriptors

/-- A module as a descriptor without a forwarder chain. -/
def ImportModule.plain (d : ImportModule) : ImportDescriptor := { d with forwarderChain := 0 }

theorem modules_plain : modules (ds.map ImportModule.plain) = ds := by
  rw [modules, List.map_map]
  exact List.map_id ds

theorem descriptorsAt_plain (table : ImportTableAt M m p ds) :
    DescriptorsAt M m p (ds.map ImportModule.plain) := by
  induction ds generalizing p with
  | nil => exact table
  | cons d ds ih =>
    obtain ⟨⟨fields, imageName, thunks⟩, rest⟩ := table
    refine ⟨⟨⟨fields.originalFirstThunk, fields.forwarderChain, fields.name, fields.named, ?_⟩, imageName,
      thunks⟩, ih rest⟩
    exact fields.firstThunk

theorem Bindable.resolvable (h : Bindable M m p ds) : Resolvable M m p (ds.map ImportModule.plain) := by
  refine ⟨descriptorsAt_plain h.table, ?_, ?_, ?_, ?_⟩
  · rw [modules_plain]; exact h.inM
  · rw [modules_plain]; exact h.fits
  · rw [modules_plain]; exact h.apart
  · rw [modules_plain]; exact h.clear

/-- The loops over a table that can be bound: every query made and every slot
filled. -/
theorem imports_run (bindable : Bindable b.space m p ds)
    (agree : AgreeOn (tableNeeds p ds) m ctx.image)
    (resolved : inp.resolveAll ctx.queries (importList ds) = some slots) :
    ∃ ctx', Returns (importTurn b inp) (.descriptor p, ctx) (.ok ctx') ∧
      Bound b (importList ds) slots ctx ctx' := by
  have table := bindable.resolvable
  have accepted := accepted_of_resolveAll resolved
  have plain : ∀ d ∈ ds.map ImportModule.plain, d.forwarderChain = 0 := by
    intro d listed
    obtain ⟨module, -, rfl⟩ := List.mem_map.mp listed
    rfl
  rw [← List.append_nil (ds.map ImportModule.plain)] at table
  rw [← @modules_plain ds] at accepted agree
  obtain ⟨p', ctx', walk, bound, rest, agree'⟩ := descriptors_walk table
    (by rwa [List.append_nil]) plain accepted
  rw [modules_plain] at bound
  exact ⟨ctx', walk.returns (returns_leave (descriptors_end rest agree')), bound⟩

end Dyndxt.Loader
