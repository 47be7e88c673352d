import Dyndxt.Mem.Slots
import Dyndxt.Loader.ImageWrites

/-!
# Resolving the thunks of a module

A module's thunks as data, and where an image holds them. When no slot
overlaps what the loop reads, it makes each query once, in order, and stores
each answer in its slot, up to the first that is refused. The thunks may be
the slots themselves; a thunk is read before its own slot is written.
-/

namespace Dyndxt.Loader
open Dyndxt.Mem Dyndxt.Pool Dyndxt.Run

/-- A thunk, with the name behind it if it is resolved by name. -/
structure ImportEntry where
  thunk : UInt32
  name : List UInt8
deriving DecidableEq, Repr

/-- The query an import makes. -/
def ImportEntry.query (e : ImportEntry) (imageName : List UInt8) : Query :=
  if imageSnapByOrdinal e.thunk then .byOrdinal imageName (e.thunk &&& 0xFFFF) else .byName imageName e.name

/-- The slots from `function` on, each with its query. -/
def importsFrom (imageName : List UInt8) : Nat → List ImportEntry → List (Nat × Query)
  | _, [] => []
  | function, e :: entries =>
    (function, e.query imageName) :: importsFrom imageName (function + 4) entries

/-- The slots with what the resolver stores there, if it resolves every
query. `asked` are the queries made before, newest first. -/
def DllLoaderInput.resolveAll (inp : DllLoaderInput) :
    List Query → List (Nat × Query) → Option (List (Nat × UInt32))
  | _, [] => some []
  | asked, (slot, query) :: imports => match inp.answer asked query with
    | ⟨true, some v⟩ => (inp.resolveAll (query :: asked) imports).map ((slot, v) :: ·)
    | _ => none

/-- The resolver accepts every query, one after the other, and stores the
addresses listed. -/
inductive Accepted (inp : DllLoaderInput) : List Query → List (Nat × Query) → List (Nat × UInt32) → Prop where
  | nil (asked : List Query) : Accepted inp asked [] []
  | cons {asked : List Query} {imports : List (Nat × Query)} {slots : List (Nat × UInt32)} {slot : Nat}
      {query : Query} : (inp.answer asked query).found = true → Accepted inp (query :: asked) imports slots →
      Accepted inp asked ((slot, query) :: imports)
        (((inp.answer asked query).result.map (slot, ·)).toList ++ slots)

/-- The length that is compared with the message buffer's. -/
def Query.messageLen (b : Build) : Query → Nat
  | .byOrdinal image _ => (image.length + 16) % b.space
  | .byName image name => (image.length + name.length + 8) % 2 ^ 32

/-- The text of a refused query. -/
def Query.text : Query → List UInt8
  | .byOrdinal image ordinal => image ++ ascii " @ " ++ decimal ordinal.toNat
  | .byName image name => image ++ ascii " @ " ++ name

/-- The message of a refused query. -/
def Query.message (b : Build) (query : Query) : List UInt8 :=
  if query.messageLen b ≥ dlllMaxErrorLen then ascii "TOOSMALL" else query.text

/-! ## The thunks in an image -/

structure ImportEntry.At (M : Nat) (m : Bytes) (p : Nat) (e : ImportEntry) : Prop where
  thunk : u32 M m p = e.thunk
  nonzero : e.thunk ≠ 0
  name : imageSnapByOrdinal e.thunk = false → StrAt M m (e.thunk.toNat + 2) e.name

/-- The thunks stand at `p`, and a zero follows them. -/
def ThunksAt (M : Nat) (m : Bytes) : Nat → List ImportEntry → Prop
  | p, [] => u32 M m p = 0
  | p, e :: entries => e.At M m p ∧ ThunksAt M m (p + 4) entries

/-- The name behind a thunk, with its terminator. -/
def ImportEntry.strings (e : ImportEntry) : List Span :=
  if imageSnapByOrdinal e.thunk then [] else [⟨e.thunk.toNat + 2, e.name.length + 1⟩]

/-- Every slot filled, every query made, and nothing else changed. -/
structure Bound (b : Build) (imports : List (Nat × Query)) (slots : List (Nat × UInt32))
    (ctx ctx' : DllContext) : Prop extends Kept ctx ctx' where
  image : ctx'.image = putAll b.space slots ctx.image
  queries : ctx'.queries = (imports.map Prod.snd).reverse ++ ctx.queries

variable {b : Build} {inp : DllLoaderInput} {M p t f : Nat} {m : Bytes} {ctx : DllContext}
  {imageName : List UInt8} {entries : List ImportEntry}
  {asked : List Query} {imports imports' : List (Nat × Query)} {slots : List (Nat × UInt32)}

theorem Bound.refl : Bound b [] [] ctx ctx := ⟨Kept.refl ctx, rfl, rfl⟩

theorem Bound.trans {slots' : List (Nat × UInt32)} {ctx' ctx'' : DllContext}
    (h : Bound b imports slots ctx ctx') (h' : Bound b imports' slots' ctx' ctx'') :
    Bound b (imports ++ imports') (slots ++ slots') ctx ctx'' := by
  refine ⟨h.toKept.trans h'.toKept, ?_, ?_⟩
  · rw [putAll_append, h'.image, h.image]
  · rw [h'.queries, h.queries]
    simp

/-! ## Resolving in order -/

theorem resolveAll_cons {slot : Nat} {query : Query}
    (h : inp.resolveAll asked ((slot, query) :: imports) = some slots) :
    ∃ v rest, inp.answer asked query = ⟨true, some v⟩ ∧
      inp.resolveAll (query :: asked) imports = some rest ∧ slots = (slot, v) :: rest := by
  simp only [DllLoaderInput.resolveAll] at h
  split at h
  · next v answer =>
    obtain ⟨rest, resolved, rfl⟩ := Option.map_eq_some_iff.mp h
    exact ⟨v, rest, answer, resolved, rfl⟩
  · cases h

theorem accepted_of_resolveAll (h : inp.resolveAll asked imports = some slots) :
    Accepted inp asked imports slots := by
  induction imports generalizing asked slots with
  | nil => cases h; exact .nil asked
  | cons entry imports ih =>
    obtain ⟨slot, query⟩ := entry
    obtain ⟨v, rest, answer, resolved, rfl⟩ := resolveAll_cons h
    have found : (inp.answer asked query).found = true := by rw [answer]
    have accepted : Accepted inp asked ((slot, query) :: imports) _ := .cons found (ih resolved)
    rw [answer] at accepted
    exact accepted

/-- What was accepted in front was accepted first. -/
theorem Accepted.split (h : Accepted inp asked (imports ++ imports') slots) :
    ∃ first rest, Accepted inp asked imports first ∧
      Accepted inp ((imports.map Prod.snd).reverse ++ asked) imports' rest ∧ slots = first ++ rest := by
  induction imports generalizing asked slots with
  | nil => exact ⟨[], slots, .nil asked, h, rfl⟩
  | cons entry imports ih =>
    cases h with
    | cons found more =>
      obtain ⟨first, rest, head, tail, rfl⟩ := ih more
      refine ⟨_, rest, .cons found head, ?_, (List.append_assoc ..).symm⟩
      simpa using tail

theorem Accepted.append {slots' : List (Nat × UInt32)} (h : Accepted inp asked imports slots)
    (h' : Accepted inp ((imports.map Prod.snd).reverse ++ asked) imports' slots') :
    Accepted inp asked (imports ++ imports') (slots ++ slots') := by
  induction h with
  | nil asked => exact h'
  | cons found _ ih =>
    rw [List.append_assoc, List.cons_append]
    exact .cons found (ih (by simpa using h'))

/-- What holds of a slot holds of what an answer stores to. -/
theorem stored_forall {P : Nat → Prop} {f : Nat} {answer : Resolved} (own : P f) :
    ∀ slot ∈ (answer.result.map (f, ·)).toList, P slot.1 := by
  intro slot listed
  obtain ⟨v, -, rfl⟩ := Option.mem_map.mp (Option.mem_toList.mp listed)
  exact own

/-- Only slots of the table are stored to. -/
theorem Accepted.listed (h : Accepted inp asked imports slots) :
    ∀ slot ∈ slots, slot.1 ∈ imports.map Prod.fst := by
  induction h with
  | nil => exact fun slot listed => nomatch listed
  | @cons asked imports slots slot query _ _ ih =>
    intro stored listed
    rw [List.map_cons]
    rcases List.mem_append.mp listed with own | later
    · exact stored_forall (P := (· ∈ slot :: imports.map Prod.fst)) List.mem_cons_self stored own
    · exact List.mem_cons_of_mem _ (ih stored later)

/-- What holds of the table's slots holds of those stored to. -/
theorem Accepted.forall {P : Nat → Prop} (h : Accepted inp asked imports slots)
    (all : ∀ slot ∈ imports, P slot.1) : ∀ slot ∈ slots, P slot.1 := by
  intro slot listed
  obtain ⟨entry, listed', same⟩ := List.mem_map.mp (h.listed slot listed)
  rw [← same]
  exact all entry listed'

/-- Imports are all accepted, or one is the first that is refused. -/
theorem accepted_or_refused (inp : DllLoaderInput) (asked : List Query) (imports : List (Nat × Query)) :
    (∃ slots, Accepted inp asked imports slots) ∨ ∃ before slot query after slots,
      imports = before ++ (slot, query) :: after ∧ Accepted inp asked before slots ∧
        (inp.answer ((before.map Prod.snd).reverse ++ asked) query).found = false := by
  induction imports generalizing asked with
  | nil => exact .inl ⟨[], .nil asked⟩
  | cons entry imports ih =>
    obtain ⟨slot, query⟩ := entry
    cases found : (inp.answer asked query).found with
    | false => exact .inr ⟨[], slot, query, imports, [], rfl, .nil asked, found⟩
    | true =>
      rcases ih (query :: asked) with
        ⟨slots, accepted⟩ | ⟨before, slot', query', after, slots, rfl, accepted, refused⟩
      · exact .inl ⟨_, .cons found accepted⟩
      · refine .inr ⟨(slot, query) :: before, slot', query', after, _, rfl, .cons found accepted, ?_⟩
        simpa using refused

/-- The slots stored to are those of the table. -/
theorem resolveAll_slots (h : inp.resolveAll asked imports = some slots) :
    slots.map Prod.fst = imports.map Prod.fst := by
  induction imports generalizing asked slots with
  | nil => cases h; rfl
  | cons entry imports ih =>
    obtain ⟨v, rest, _, resolved, rfl⟩ := resolveAll_cons h
    simp only [List.map_cons, ih resolved]

theorem resolveAll_forall {P : Nat → Prop} (h : inp.resolveAll asked imports = some slots)
    (all : ∀ slot ∈ imports, P slot.1) : ∀ slot ∈ slots, P slot.1 :=
  (accepted_of_resolveAll h).forall all

/-! ## The thunk loop -/

/-- What the thunk loop reads besides the thunks. -/
def stringReads (name : Nat) (imageName : List UInt8) (entries : List ImportEntry) : List Span :=
  ⟨name, imageName.length + 1⟩ :: entries.flatMap ImportEntry.strings

/-- What it reads in all. -/
def thunkReads (name : Nat) (imageName : List UInt8) (t : Nat) (entries : List ImportEntry) : List Span :=
  ⟨t, 4 * (entries.length + 1)⟩ :: stringReads name imageName entries

/-- What the thunk loop needs of the image it starts in: no slot overlaps a
string or a later thunk. -/
structure ThunkLoop (M : Nat) (m : Bytes) (name : Nat) (imageName : List UInt8) (t f : Nat)
    (entries : List ImportEntry) : Prop where
  table : ThunksAt M m t entries
  named : StrAt M m name imageName
  inM : ∀ sp ∈ thunkReads name imageName t entries, sp.off + sp.len ≤ M
  fits : ∀ slot ∈ importsFrom imageName f entries, slot.1 + 4 < M
  own : t = f ∨ ∀ slot ∈ importsFrom imageName f entries,
    (Span.mk t (4 * (entries.length + 1))).ClearOf slot.1
  clear : ∀ slot ∈ importsFrom imageName f entries,
    ∀ sp ∈ stringReads name imageName entries, sp.ClearOf slot.1

theorem stringReads_tail {name : Nat} {e : ImportEntry} {sp : Span}
    (h : sp ∈ stringReads name imageName entries) : sp ∈ stringReads name imageName (e :: entries) := by
  simp only [stringReads, List.flatMap_cons, List.mem_cons, List.mem_append] at h ⊢
  exact h.imp_right .inr

theorem thunkReads_tail {name : Nat} {e : ImportEntry} {sp : Span}
    (h : sp ∈ thunkReads name imageName (t + 4) entries) :
    ∃ sp' ∈ thunkReads name imageName t (e :: entries), sp.Within sp' := by
  rcases List.mem_cons.mp h with rfl | string
  · refine ⟨_, List.mem_cons_self, Nat.le_add_right t 4, ?_⟩
    simp only [List.length_cons]
    omega
  · exact ⟨sp, List.mem_cons_of_mem _ (stringReads_tail string), Nat.le_refl _, Nat.le_refl _⟩

theorem ThunkLoop.tail {name : Nat} {e : ImportEntry} (h : ThunkLoop M m name imageName t f (e :: entries)) :
    ThunkLoop M m name imageName (t + 4) (f + 4) entries := by
  refine ⟨h.table.2, h.named, ?_, ?_, ?_, ?_⟩
  · intro sp listed
    obtain ⟨sp', listed', within⟩ := @thunkReads_tail t imageName entries name e sp listed
    have := h.inM sp' listed'
    have := within.2
    omega
  · exact fun slot listed => h.fits slot (List.mem_cons_of_mem _ listed)
  · refine h.own.imp (fun same => by omega) fun clear slot listed => ?_
    obtain ⟨sp', listed', within⟩ := @thunkReads_tail t imageName entries name e _ List.mem_cons_self
    refine (clear slot (List.mem_cons_of_mem _ listed)).mono ⟨Nat.le_add_right t 4, ?_⟩
    simp only [List.length_cons]
    omega
  · exact fun slot listed sp needed => h.clear slot (List.mem_cons_of_mem _ listed) sp (stringReads_tail needed)

/-- The first slot is clear of what is read after it is written. -/
theorem ThunkLoop.head_clear {name : Nat} {e : ImportEntry}
    (h : ThunkLoop M m name imageName t f (e :: entries)) :
    ∀ sp ∈ thunkReads name imageName (t + 4) entries, sp.ClearOf f := by
  intro sp listed
  rcases List.mem_cons.mp listed with rfl | string
  · rcases h.own with rfl | clear
    · exact .inl (Nat.le_refl _)
    · refine (clear _ List.mem_cons_self).mono ⟨Nat.le_add_right t 4, ?_⟩
      simp only [List.length_cons]
      omega
  · exact h.clear _ List.mem_cons_self sp (stringReads_tail string)

/-- The query of a thunk that stands in the image with its strings. -/
theorem thunkQuery_eq {name : Nat} {e : ImportEntry} (str : StrAt b.space ctx.image name imageName)
    (named : imageSnapByOrdinal e.thunk = false → StrAt b.space ctx.image (e.thunk.toNat + 2) e.name) :
    thunkQuery b name e.thunk ctx = e.query imageName := by
  have image : ctx.str b name = imageName := str.cstring_eq
  unfold thunkQuery ImportEntry.query
  cases snap : imageSnapByOrdinal e.thunk with
  | true => simp only [if_true, image]
  | false =>
    have named := named snap
    have behind : (e.thunk.toNat + 2) % b.space = e.thunk.toNat + 2 := by
      have := named.fits
      exact Nat.mod_eq_of_lt (by omega)
    have name : ctx.str b (e.thunk.toNat + 2) = e.name := named.cstring_eq
    simp only [Bool.false_eq_true, if_false, image, behind, name]

/-- An answer stores its address in the slot, or nothing. -/
theorem answered_bound (name : Nat) (thunk : UInt32) :
    Bound b [(f, thunkQuery b name thunk ctx)]
      ((inp.answer ctx.queries (thunkQuery b name thunk ctx)).result.map (f, ·)).toList ctx
      (ctx.answered b inp name f thunk) := by
  refine ⟨kept_answered name f thunk, ?_, ?_⟩
  · cases result : (inp.answer ctx.queries (thunkQuery b name thunk ctx)).result with
    | none => rw [answered_none result]; rfl
    | some v => rw [answered_some result]; rfl
  · cases result : (inp.answer ctx.queries (thunkQuery b name thunk ctx)).result with
    | none => rw [answered_none result]; rfl
    | some v => rw [answered_some result]; rfl

/-- A thunk's round, when it is resolved. -/
theorem thunk_accepted {at_ name : Nat} {e : ImportEntry} (entry : e.At b.space ctx.image t)
    (str : StrAt b.space ctx.image name imageName)
    (found : (inp.answer ctx.queries (e.query imageName)).found = true)
    (room : t + 4 < b.space) (fits : f + 4 < b.space) :
    ∃ ctx', importTurn b inp (.thunk at_ name t f, ctx) = .again (.thunk at_ name (t + 4) (f + 4), ctx') ∧
      Bound b [(f, e.query imageName)]
        ((inp.answer ctx.queries (e.query imageName)).result.map (f, ·)).toList ctx ctx' := by
  have thunk : ctx.load32 b t = e.thunk := entry.thunk
  have query := thunkQuery_eq str entry.name
  have turn := @importTurn_thunk b inp ctx at_ name t f (by rw [thunk]; exact entry.nonzero)
  have ends := @resolveThunk_ends b inp ctx name f e.thunk
  have bound := @answered_bound b inp f ctx name e.thunk
  rw [thunk, Nat.mod_eq_of_lt room, Nat.mod_eq_of_lt fits] at turn
  rw [query] at bound
  cases resolved : resolveThunk b inp name f e.thunk ctx with
  | error c =>
    rw [resolved, query, found] at ends
    cases ends.1
  | ok c =>
    rw [resolved] at ends turn
    obtain ⟨_, rfl⟩ := ends
    exact ⟨_, turn, bound⟩

/-- The message of a refusal, by the strings as they are then. -/
theorem resolveThunk_message {name : Nat} {thunk : UInt32} {c : DllContext}
    (refused : resolveThunk b inp name f thunk ctx = .error c) :
    c.output.errorMessage =
      (thunkQuery b name thunk (ctx.answered b inp name f thunk)).message b := by
  unfold resolveThunk at refused
  cases snap : imageSnapByOrdinal thunk with
  | true =>
    simp only [snap, if_true, resolveByOrdinal] at refused
    split at refused
    · cases refused
    · cases refused
      simp only [DllContext.answered, thunkQuery, snap, if_true]
      rfl
  | false =>
    simp only [snap, Bool.false_eq_true, if_false, resolveByName] at refused
    split at refused
    · cases refused
    · cases refused
      simp only [DllContext.answered, thunkQuery, snap, Bool.false_eq_true, if_false]
      rfl

/-- A thunk's round, when it is refused. -/
theorem thunk_refused {at_ name : Nat} {e : ImportEntry} (entry : e.At b.space ctx.image t)
    (str : StrAt b.space ctx.image name imageName)
    (refused : (inp.answer ctx.queries (e.query imageName)).found = false)
    (fits : f + 4 < b.space) (clear : ∀ sp ∈ stringReads name imageName [e], sp.ClearOf f) :
    ∃ c, importTurn b inp (.thunk at_ name t f, ctx) = .leave (.error c) ∧
      c.output.status = .unresolvedImport ∧ c.output.errorMessage = (e.query imageName).message b := by
  have thunk : ctx.load32 b t = e.thunk := entry.thunk
  have query := thunkQuery_eq str entry.name
  have turn := @importTurn_thunk b inp ctx at_ name t f (by rw [thunk]; exact entry.nonzero)
  have ends := @resolveThunk_ends b inp ctx name f e.thunk
  have bound := @answered_bound b inp f ctx name e.thunk
  rw [thunk] at turn
  cases resolved : resolveThunk b inp name f e.thunk ctx with
  | ok c =>
    rw [resolved, query, refused] at ends
    cases ends.1
  | error c =>
    rw [resolved] at ends turn
    refine ⟨c, turn, ends.2.2.1, ?_⟩
    -- a refusing resolver may still have stored to the slot
    have kept (sp : Span) (listed : sp ∈ stringReads name imageName [e]) (inM : sp.off + sp.len ≤ b.space) :
        SameOn sp.off (sp.off + sp.len) ctx.image (ctx.answered b inp name f e.thunk).image := by
      rw [bound.image]
      refine @putAll_agreeOn _ _ _ [sp] ?_ (by simpa using inM) ?_ sp List.mem_cons_self
      · exact stored_forall (P := (· + 4 ≤ b.space)) (Nat.le_of_lt fits)
      · intro sp' same
        obtain rfl := List.mem_singleton.mp same
        exact stored_forall (clear sp' listed)
    rw [resolveThunk_message resolved, @thunkQuery_eq _ _ imageName]
    · exact str.congr (kept ⟨name, imageName.length + 1⟩ List.mem_cons_self str.fits)
    · intro snap
      have named := entry.name snap
      refine named.congr (kept ⟨e.thunk.toNat + 2, e.name.length + 1⟩ ?_ named.fits)
      simp [stringReads, ImportEntry.strings, snap]

/-- The first thunk and its strings are in the image as in the table. -/
theorem ThunkLoop.here {name : Nat} {e : ImportEntry} (loop : ThunkLoop b.space m name imageName t f (e :: entries))
    (agree : AgreeOn (thunkReads name imageName t (e :: entries)) m ctx.image) :
    e.At b.space ctx.image t ∧ StrAt b.space ctx.image name imageName := by
  obtain ⟨entry, -⟩ := loop.table
  have inM : t + 4 * (entries.length + 2) ≤ b.space := loop.inM _ List.mem_cons_self
  have thunk : SameOn t (t + 4 * (entries.length + 2)) m ctx.image := agree _ List.mem_cons_self
  have string : ∀ sp ∈ stringReads name imageName (e :: entries),
      SameOn sp.off (sp.off + sp.len) m ctx.image :=
    fun sp listed => agree sp (List.mem_cons_of_mem _ listed)
  refine ⟨⟨?_, entry.nonzero, fun snap => (entry.name snap).congr ?_⟩, ?_⟩
  · rw [thunk.u32 (Nat.le_refl _) (by omega) inM]
    exact entry.thunk
  · exact string ⟨e.thunk.toNat + 2, e.name.length + 1⟩ (by simp [stringReads, ImportEntry.strings, snap])
  · exact loop.named.congr (string _ List.mem_cons_self)

/-- The thunk loop over the thunks that are accepted, up to the next one. -/
theorem thunks_walk {at_ name : Nat} {after : List ImportEntry}
    (loop : ThunkLoop b.space m name imageName t f (entries ++ after))
    (agree : AgreeOn (thunkReads name imageName t (entries ++ after)) m ctx.image)
    (accepted : Accepted inp ctx.queries (importsFrom imageName f entries) slots) :
    ∃ t' f' ctx', Steps (importTurn b inp) (.thunk at_ name t f, ctx) (.thunk at_ name t' f', ctx') ∧
      f' = f + 4 * entries.length ∧ Bound b (importsFrom imageName f entries) slots ctx ctx' ∧
      ThunkLoop b.space m name imageName t' f' after ∧
      AgreeOn (thunkReads name imageName t' after) m ctx'.image := by
  induction entries generalizing ctx t f slots with
  | nil =>
    cases accepted
    exact ⟨t, f, ctx, .refl _, rfl, Bound.refl, loop, agree⟩
  | cons e entries ih =>
    cases accepted with
    | cons found behind =>
    have inM : t + 4 * ((entries ++ after).length + 2) ≤ b.space := loop.inM _ List.mem_cons_self
    have fits : f + 4 < b.space := loop.fits _ List.mem_cons_self
    obtain ⟨here, str⟩ := loop.here agree
    obtain ⟨ctx₁, first, bound⟩ := @thunk_accepted b inp t f ctx imageName at_ name e here str found
      (by omega) fits
    have kept : AgreeOn (thunkReads name imageName (t + 4) (entries ++ after)) ctx.image ctx₁.image := by
      rw [bound.image]
      apply putAll_agreeOn
      · exact stored_forall (P := (· + 4 ≤ b.space)) (Nat.le_of_lt fits)
      · exact loop.tail.inM
      · exact fun sp listed => stored_forall (loop.head_clear sp listed)
    have asked : ctx₁.queries = e.query imageName :: ctx.queries := bound.queries
    rw [← asked] at behind
    obtain ⟨t', f', ctx', steps, moved, bound', loop', agree'⟩ :=
      ih loop.tail ((agree.mono fun sp listed => thunkReads_tail listed).trans kept) behind
    refine ⟨t', f', ctx', .step first steps, ?_, bound.trans bound', loop', agree'⟩
    rw [moved, List.length_cons]
    omega

/-- The terminator, behind the last thunk. -/
theorem ThunkLoop.ends {name : Nat} (loop : ThunkLoop b.space m name imageName t f [])
    (agree : AgreeOn (thunkReads name imageName t []) m ctx.image) : ctx.load32 b t = 0 := by
  have terminator : u32 b.space m t = 0 := loop.table
  have same : SameOn t (t + 4) m ctx.image := agree _ List.mem_cons_self
  exact (same.u32 (Nat.le_refl _) (Nat.le_refl _) (loop.inM _ List.mem_cons_self)).trans terminator

end Dyndxt.Loader
