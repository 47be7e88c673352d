import Dyndxt.Mem.Patch
import Dyndxt.Loader.ImageWrites

/-!
# What the tables of an image list

The slots of an import table and the fixups of a relocation table, read from
the bytes of an image without the loader's loops. What a table lists further
down depends on the bytes as the slots and fixups before leave them. The loops
write what is listed, and nothing else.
-/

namespace Dyndxt.Loader
open Dyndxt.Mem Dyndxt.Pool Dyndxt.Run

section Tables

variable (b : Build)

/-- The word that the entry at `e` of a block for `dest` is about. -/
def entryTarget (m : Bytes) (dest e : Nat) : Nat := (dest + (u16 b.space m e &&& 0x0FFF).toNat) % b.space

/-- From `pc` on, the relocation table in the bytes of an image at `image`
lists a fixup of the word at `w`. Each fixup before adds `delta`. -/
inductive ListsFixup (image : Nat) (delta : UInt32) (w : Nat) : Bytes → RelocPc → Prop where
  | block {m : Bytes} {p : Nat} : u32 b.space m p ≠ 0 →
      ListsFixup image delta w m (.entry (u32 b.space m p).toNat ((p + b.sizeofPtr) % b.space)
        ((p + (u32 b.space m (p + 4)).toNat) % b.space)) →
      ListsFixup image delta w m (.block p)
  | here {m : Bytes} {dest e stop : Nat} : (image + e) % b.space < (image + stop) % b.space →
      u16 b.space m e >>> 12 = imageRelBasedHighLow → entryTarget b m dest e = w →
      ListsFixup image delta w m (.entry dest e stop)
  | padding {m : Bytes} {dest e stop : Nat} : (image + e) % b.space < (image + stop) % b.space →
      u16 b.space m e >>> 12 = imageRelBasedAbsolute →
      ListsFixup image delta w m (.entry dest ((e + 2) % b.space) stop) →
      ListsFixup image delta w m (.entry dest e stop)
  | patched {m : Bytes} {dest e stop : Nat} : (image + e) % b.space < (image + stop) % b.space →
      u16 b.space m e >>> 12 = imageRelBasedHighLow →
      ListsFixup image delta w (addAt b.space delta m (entryTarget b m dest e)) (.entry dest ((e + 2) % b.space) stop) →
      ListsFixup image delta w m (.entry dest e stop)
  | behind {m : Bytes} {dest e stop : Nat} : ¬ (image + e) % b.space < (image + stop) % b.space →
      ListsFixup image delta w m (.block stop) → ListsFixup image delta w m (.entry dest e stop)

/-- A move of the image to `newBase` has the word at `w` to patch. -/
structure DllContext.Fixes (ctx : DllContext) (newBase : UInt32) (w : Nat) : Prop where
  differs : newBase ≠ ctx.output.header.optionalHeader.imageBase
  directory : (ctx.output.header.optionalHeader.dataDirectory imageDirectoryEntryBaseReloc).size ≠ 0
  listed : ListsFixup b ctx.output.image
    (imageDelta ctx.output.header.optionalHeader.imageBase newBase).toUInt32 w ctx.image
    (.block (ctx.output.header.optionalHeader.dataDirectory imageDirectoryEntryBaseReloc).virtualAddress.toNat)

/-- What a thunk asks for, by the bytes of the image. -/
def queryOf (m : Bytes) (imageName : Nat) (thunk : UInt32) : Query :=
  if imageSnapByOrdinal thunk then .byOrdinal (cstring b.space m imageName) (thunk &&& 0xFFFF)
  else .byName (cstring b.space m imageName) (cstring b.space m ((thunk.toNat + 2) % b.space))

/-- The bytes after an answer for the slot at `f`. -/
def Resolved.stored (answer : Resolved) (m : Bytes) (f : Nat) : Bytes :=
  match answer.result with
  | none => m
  | some v => Mem.store32 b.space m f v

variable (inp : DllLoaderInput)

/-- From `pc` on, the import table in the bytes of an image lists the slot at
`f` for `query`, which is asked after `asked`. Each import before is found. -/
inductive ListsSlot (f : Nat) (query : Query) (asked : List Query) : Bytes → List Query → ImportPc → Prop where
  | descriptor {m : Bytes} {queries : List Query} {at_ : Nat} :
      (ImageImportDescriptor.read b m at_).name ≠ 0 → (ImageImportDescriptor.read b m at_).forwarderChain = 0 →
      ListsSlot f query asked m queries (.thunk at_ (ImageImportDescriptor.read b m at_).name.toNat
        (if (ImageImportDescriptor.read b m at_).originalFirstThunk ≠ 0
          then (ImageImportDescriptor.read b m at_).originalFirstThunk.toNat
          else (ImageImportDescriptor.read b m at_).firstThunk.toNat)
        (ImageImportDescriptor.read b m at_).firstThunk.toNat) →
      ListsSlot f query asked m queries (.descriptor at_)
  | here {m : Bytes} {at_ imageName thunk : Nat} : u32 b.space m thunk ≠ 0 →
      queryOf b m imageName (u32 b.space m thunk) = query →
      ListsSlot f query asked m asked (.thunk at_ imageName thunk f)
  | found {m : Bytes} {queries : List Query} {at_ imageName thunk function : Nat} : u32 b.space m thunk ≠ 0 →
      (inp.answer queries (queryOf b m imageName (u32 b.space m thunk))).found = true →
      ListsSlot f query asked
        ((inp.answer queries (queryOf b m imageName (u32 b.space m thunk))).stored b m function)
        (queryOf b m imageName (u32 b.space m thunk) :: queries)
        (.thunk at_ imageName ((thunk + 4) % b.space) ((function + 4) % b.space)) →
      ListsSlot f query asked m queries (.thunk at_ imageName thunk function)
  | behind {m : Bytes} {queries : List Query} {at_ imageName thunk function : Nat} : u32 b.space m thunk = 0 →
      ListsSlot f query asked m queries (.descriptor ((at_ + sizeofImageImportDescriptor) % b.space)) →
      ListsSlot f query asked m queries (.thunk at_ imageName thunk function)

/-- A load from `ctx` whose file is as it should be has the slot at `f` to fill,
with what `query` gives after `asked`. -/
structure DllLoaderInput.Binds (ctx : DllContext) (f : Nat) (query : Query) (asked : List Query) : Prop where
  passes : inp.FilePasses b ctx.calls
  directory : ((inp.ntHeader b).optionalHeader.dataDirectory imageDirectoryEntryImport).size ≠ 0
  listed : ListsSlot b inp f query asked (ctx.reset.fileParsed b inp).image (ctx.reset.fileParsed b inp).queries
    (.descriptor ((inp.ntHeader b).optionalHeader.dataDirectory imageDirectoryEntryImport).virtualAddress.toNat)

end Tables

variable {b : Build} {inp : DllLoaderInput} {ctx c c' : DllContext} {newBase : UInt32} {delta : Int32}
  {L : List Span → Prop} {w f : Nat} {m : Bytes} {query : Query} {asked queries : List Query}

/-! ## Fixups -/

/-- A round goes on with what the table lists, and logs a fixup that it does. -/
theorem relocTurn_lists {pc pc' : RelocPc} (turn : relocTurn b newBase delta (pc, c) = .again (pc', c')) :
    (∀ w, ListsFixup b c'.output.image delta.toUInt32 w c'.image pc' →
      ListsFixup b c.output.image delta.toUInt32 w c.image pc) ∧
    (c'.imageWrites = c.imageWrites ∨
      ∃ w, ListsFixup b c.output.image delta.toUInt32 w c.image pc ∧ c'.imageWrites = ⟨w, 4⟩ :: c.imageWrites) := by
  cases pc with
  | block p =>
    simp only [relocTurn] at turn
    split at turn
    case isFalse => cases turn
    case isTrue some =>
      cases turn
      exact ⟨fun w listed => .block (UInt32.pos_iff_ne_zero.mp some) listed, .inl rfl⟩
  | entry dest e stop =>
    simp only [relocTurn] at turn
    split at turn
    case isFalse past =>
      cases turn
      exact ⟨fun w listed => .behind past listed, .inl rfl⟩
    case isTrue below =>
      split at turn
      case isTrue absolute =>
        cases turn
        exact ⟨fun w listed => .padding below absolute listed, .inl rfl⟩
      case isFalse =>
        split at turn
        case isFalse => cases turn
        case isTrue high =>
          cases turn
          exact ⟨fun w listed => .patched below high listed, .inr ⟨_, .here below high rfl, rfl⟩⟩

/-- A fixup that is listed is done. -/
theorem ListsFixup.reached {image : Nat} {pc : RelocPc} (listed : ListsFixup b image delta.toUInt32 w m pc)
    (newBase : UInt32) (ptr : c.output.image = image) (bytes : c.image = m) :
    ∃ s, Steps (relocTurn b newBase delta) (pc, c) s ∧ ⟨w, 4⟩ ∈ s.2.imageWrites := by
  induction listed generalizing c with
  | @block m p some rest ih =>
    obtain ⟨s, steps, written⟩ := ih ptr bytes
    subst bytes
    exact ⟨s, .step (if_pos (UInt32.pos_iff_ne_zero.mpr some)) steps, written⟩
  | here below high target =>
    subst ptr bytes target
    exact ⟨_, .one (relocTurn_fixup ⟨below, high⟩), List.mem_cons_self⟩
  | padding below absolute rest ih =>
    obtain ⟨s, steps, written⟩ := ih ptr bytes
    subst ptr bytes
    exact ⟨s, .step ((if_pos below).trans (if_pos absolute)) steps, written⟩
  | patched below high rest ih =>
    subst ptr bytes
    obtain ⟨s, steps, written⟩ := ih (c := c.store32 b (fixupTarget b c _ _)
      (c.load32 b (fixupTarget b c _ _) + delta.toUInt32)) rfl rfl
    exact ⟨s, .step (relocTurn_fixup ⟨below, high⟩) steps, written⟩
  | behind past rest ih =>
    obtain ⟨s, steps, written⟩ := ih ptr bytes
    subst ptr
    exact ⟨s, .step (if_neg past) steps, written⟩

/-- What was true of the log is true of it whenever a move stops, if every fixup
that the table lists keeps it so. -/
theorem dllRelocate_writes (fixup : ∀ w, ctx.Fixes b newBase w → ∀ log, L log → L (⟨w, 4⟩ :: log))
    (start : L ctx.imageWrites) (budget : Nat) :
    (dllRelocate b budget newBase ctx).Holds (fun c => L c.imageWrites) (WritesEnd L) := by
  by_cases same : newBase = ctx.output.header.optionalHeader.imageBase
  · rw [dllRelocate_same same]
    exact start
  by_cases none : (ctx.output.header.optionalHeader.dataDirectory imageDirectoryEntryBaseReloc).size = 0
  · rw [dllRelocate_none same none]
    exact start
  rw [dllRelocate_run same none]
  -- what is listed from here on was listed at the start
  refine holds_stopped (Turn.Holds.mono (I := fun s => (∀ w, ListsFixup b s.2.output.image
      (imageDelta ctx.output.header.optionalHeader.imageBase newBase).toUInt32 w s.2.image s.1 →
      ctx.Fixes b newBase w) ∧ L s.2.imageWrites)
    (run_holds ?_ ?_ budget ⟨fun w listed => ⟨same, none, listed⟩, start⟩) (fun _ h => h.2) fun _ h => h)
  · rintro ⟨pc, c⟩ ⟨pc', c'⟩ ⟨lists, start⟩ turn
    obtain ⟨on, log⟩ := relocTurn_lists turn
    refine ⟨fun w listed => lists w (on w listed), ?_⟩
    show L c'.imageWrites
    rcases log with same | ⟨w, listed, written⟩
    · rw [same]
      exact start
    · rw [written]
      exact fixup w (lists w listed) _ start
  · rintro ⟨pc, c⟩ r ⟨-, start⟩ turn
    refine (relocTurn_leave turn).mono ?_ ?_
    · rintro _ rfl; exact start
    · rintro _ rfl; exact start

/-- A fixup that is listed is on the log of some run. -/
theorem DllContext.Fixes.written (fixes : ctx.Fixes b newBase w) :
    ∃ budget, ⟨w, 4⟩ ∈ (lastContext (dllRelocate b budget newBase ctx)).imageWrites := by
  obtain ⟨s, steps, written⟩ := fixes.listed.reached (c := ctx.setErrorContext .relocate) newBase rfl rfl
  obtain ⟨n, runs⟩ := run_add_of_steps steps
  refine ⟨n + 0, ?_⟩
  rw [dllRelocate_run fixes.differs fixes.directory]
  have ran : run (rebaseTurn b newBase ctx) (n + 0) (relocEntry ctx) = .again s := runs 0
  rw [ran]
  exact written

/-! ## Slots -/

theorem answered_stored {imageName function : Nat} {thunk : UInt32} :
    (c.answered b inp imageName function thunk).image =
      (inp.answer c.queries (queryOf b c.image imageName thunk)).stored b c.image function ∧
    (c.answered b inp imageName function thunk).queries = queryOf b c.image imageName thunk :: c.queries := by
  have same : thunkQuery b imageName thunk c = queryOf b c.image imageName thunk := rfl
  unfold DllContext.answered DllContext.callResolve Resolved.stored
  dsimp only
  rw [same]
  cases (inp.answer c.queries (queryOf b c.image imageName thunk)).result with
  | none => exact ⟨rfl, rfl⟩
  | some v => exact ⟨rfl, rfl⟩

/-- A round goes on with what the table lists. -/
theorem importTurn_lists {pc pc' : ImportPc} (turn : importTurn b inp (pc, c) = .again (pc', c'))
    (listed : ListsSlot b inp f query asked c'.image c'.queries pc') :
    ListsSlot b inp f query asked c.image c.queries pc := by
  cases pc with
  | descriptor at_ =>
    simp only [importTurn] at turn
    split at turn
    case isTrue => cases turn
    case isFalse named =>
      split at turn
      case isTrue => cases turn
      case isFalse plain =>
        cases turn
        exact .descriptor named (not_not.mp plain) listed
  | thunk at_ imageName thunk function =>
    by_cases zero : c.load32 b thunk = 0
    · rw [show importTurn b inp (.thunk at_ imageName thunk function, c) = _ from if_pos zero] at turn
      cases turn
      exact .behind zero listed
    · rw [importTurn_thunk zero] at turn
      have ends := @resolveThunk_ends b inp c imageName function (c.load32 b thunk)
      cases resolved : resolveThunk b inp imageName function (c.load32 b thunk) c with
      | error c => rw [resolved] at turn; cases turn
      | ok c₁ =>
        rw [resolved] at turn ends
        cases turn
        obtain ⟨found, rfl⟩ := ends
        obtain ⟨image, queries⟩ := @answered_stored b inp c imageName function (c.load32 b thunk)
        rw [image, queries] at listed
        exact .found zero found listed

/-- The loops come to a slot that is listed. -/
theorem ListsSlot.reached {pc : ImportPc} (listed : ListsSlot b inp f query asked m queries pc)
    (bytes : c.image = m) (queried : c.queries = queries) :
    ∃ at_ imageName thunk c', Steps (importTurn b inp) (pc, c) (.thunk at_ imageName thunk f, c') ∧
      c'.load32 b thunk ≠ 0 ∧ c'.queries = asked ∧ thunkQuery b imageName (c'.load32 b thunk) c' = query := by
  induction listed generalizing c with
  | descriptor named plain rest ih =>
    obtain ⟨at_, imageName, thunk, c', steps, reached⟩ := ih bytes queried
    subst bytes
    refine ⟨at_, imageName, thunk, c', .step ?_ steps, reached⟩
    simp only [importTurn, if_neg named, if_neg (not_not.mpr plain)]
  | @here m at_ imageName thunk some same =>
    subst bytes
    exact ⟨at_, imageName, thunk, c, .refl _, some, queried, same⟩
  | @found m queries at_ imageName thunk function some found rest ih =>
    subst bytes queried
    obtain ⟨image, queries⟩ := @answered_stored b inp c imageName function (c.load32 b thunk)
    obtain ⟨at', imageName', thunk', c', steps, reached⟩ := ih image queries
    refine ⟨at', imageName', thunk', c', .step ?_ steps, reached⟩
    have answered := @importTurn_answered b inp c at_ imageName thunk function some
    exact (if_pos found).mp answered
  | behind zero rest ih =>
    obtain ⟨at_, imageName, thunk, c', steps, reached⟩ := ih bytes queried
    subst bytes
    exact ⟨at_, imageName, thunk, c', .step (if_pos zero) steps, reached⟩

end Dyndxt.Loader
