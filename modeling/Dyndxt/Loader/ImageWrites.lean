import Dyndxt.Loader.RawReads
import Dyndxt.Loader.Runs

/-!
# Where the loader writes the image

Sections, import slots and fixups are written at offsets that nothing compares
with `SizeOfImage`. Here are the steps that write, and the file passes with
what they leave on the log.
-/

namespace Dyndxt.Loader
open Dyndxt.Mem Dyndxt.Pool Dyndxt.Run

/-- The context a run on a budget stops with. -/
def lastContext : Turn DllContext Pass → DllContext
  | .again ctx => ctx
  | .leave (.ok ctx) => ctx
  | .leave (.error ctx) => ctx

section Reached

variable (b : Build) (inp : DllLoaderInput) (ctx : DllContext)

/-- A load from `ctx` gets to a state of the import loops. -/
structure AtImport (s : ImportPc × DllContext) : Prop where
  passes : inp.FilePasses b ctx.calls
  directory :
    ((inp.ntHeader b).optionalHeader.dataDirectory imageDirectoryEntryImport).size ≠ 0
  steps : Steps (importTurn b inp) (importEntry (ctx.reset.fileParsed b inp)) s

/-- A load from `ctx` gets to a state of the relocation loops, after imports
that left `resolved`. -/
structure AtReloc (resolved : DllContext) (s : RelocPc × DllContext) : Prop where
  passes : inp.FilePasses b ctx.calls
  imports : ∃ n, dllResolveImports b inp n (ctx.reset.fileParsed b inp) = .leave (.ok resolved)
  differs : .ofNat (inp.imageBlock b ctx.calls) ≠ (inp.ntHeader b).optionalHeader.imageBase
  directory :
    ((inp.ntHeader b).optionalHeader.dataDirectory imageDirectoryEntryBaseReloc).size ≠ 0
  steps : Steps (rebaseTurn b (.ofNat (inp.imageBlock b ctx.calls)) resolved) (relocEntry resolved) s

/-- The word a relocation entry is about. -/
def fixupTarget (dest entry : Nat) : Nat :=
  (dest + (ctx.load16 b entry &&& 0x0FFF).toNat) % b.space

/-- A relocation entry below its block's end that is a fixup. -/
def IsFixup (entry relocationEnd : Nat) : Prop :=
  (ctx.output.image + entry) % b.space < (ctx.output.image + relocationEnd) % b.space ∧
    ctx.load16 b entry >>> 12 = imageRelBasedHighLow

end Reached

variable {b : Build} {inp : DllLoaderInput} {ctx ctx' : DllContext} {output : DllLoaderOutput}
  {stale : Bytes} {L : List Span → Prop} {sp : Span}

/-! ## The writes of the loops -/

/-- `L` of the log a pass ends with, whichever way. -/
def WritesEnd (L : List Span → Prop) : Pass → Prop :=
  Ends (fun c => L c.imageWrites) (fun c => L c.imageWrites)

theorem WritesEnd.cleanUp {p : Pass} (h : WritesEnd L p) : WritesEnd L (cleanUp p) :=
  cleanUp_outcome (P := fun _ _ _ writes => L writes) h

theorem WritesEnd.last {t : Turn DllContext Pass} (h : t.Holds (fun c => L c.imageWrites) (WritesEnd L)) :
    L (lastContext (cleanedUp t)).imageWrites := by
  cases t with
  | again c => exact h
  | leave p =>
    have ends : WritesEnd L (Dyndxt.Loader.cleanUp p) := WritesEnd.cleanUp h
    simp only [cleanedUp]
    cases cleaned : Dyndxt.Loader.cleanUp p with
    | ok c => rw [cleaned] at ends; exact ends
    | error c => rw [cleaned] at ends; exact ends

/-- An answer writes its slot or nothing. -/
theorem answered_writes {imageName function : Nat} {thunk : UInt32} (start : L ctx.imageWrites)
    (slot : (inp.answer ctx.queries (thunkQuery b imageName thunk ctx)).result ≠ none →
      L (⟨function, 4⟩ :: ctx.imageWrites)) :
    L (ctx.answered b inp imageName function thunk).imageWrites := by
  cases result : (inp.answer ctx.queries (thunkQuery b imageName thunk ctx)).result with
  | none => rw [answered_none result]; exact start
  | some v => rw [answered_some result]; exact slot (by simp [result])

/-- An import round that leaves has written what its thunk's answer stores. -/
theorem importTurn_leave_writes {pc : ImportPc} {r : Pass}
    (h : importTurn b inp (pc, ctx) = .leave r) :
    Ends (fun c => c = ctx)
      (fun c => c.imageWrites = ctx.imageWrites ∨ ∃ at_ imageName thunk function,
        pc = .thunk at_ imageName thunk function ∧ ctx.load32 b thunk ≠ 0 ∧
        c.imageWrites = (ctx.answered b inp imageName function (ctx.load32 b thunk)).imageWrites) r := by
  cases pc with
  | descriptor at_ =>
    simp only [importTurn] at h
    split at h
    · cases h; exact rfl
    · split at h <;> cases h
      exact .inl rfl
  | thunk at_ imageName thunk function =>
    simp only [importTurn] at h
    split at h
    · cases h
    · next nonzero =>
      have ends := @resolveThunk_ends b inp ctx imageName function (ctx.load32 b thunk)
      cases resolved : resolveThunk b inp imageName function (ctx.load32 b thunk) ctx with
      | ok c => rw [resolved] at h; cases h
      | error c =>
        rw [resolved] at h ends
        cases h
        exact .inr ⟨at_, imageName, thunk, function, rfl, nonzero, ends.2.2.2.2⟩

/-! ## The writes of the file passes -/

theorem mem_withSections_imageWrites {headers : List ImageSectionHeader} :
    sp ∈ (ctx.withSections b inp headers).imageWrites ↔ sp ∈ ctx.imageWrites ∨
      ∃ header ∈ headers, header.sizeOfRawData ≠ 0 ∧
        sp = ⟨header.virtualAddress.toNat, header.sizeOfRawData.toNat⟩ := by
  induction headers generalizing ctx with
  | nil => simp [DllContext.withSections]
  | cons header headers ih =>
    have tail : ctx.withSections b inp (header :: headers) =
        (ctx.withSection b inp header).withSections b inp headers := rfl
    rw [tail, ih]
    by_cases empty : header.sizeOfRawData = 0
    · simp [DllContext.withSection, empty, DllContext.setErrorContext]
    · simp [DllContext.withSection, empty, DllContext.setErrorContext, DllContext.copyRaw, or_assoc,
        or_left_comm]

attribute [local irreducible] DllLoaderInput.ptr

/-- The headers are parsed before there is an image. -/
theorem dllParseHeader_writes (start : L ctx.imageWrites) : WritesEnd L (dllParseHeader b inp ctx) := by
  have dos : Ends (fun r => L r.2.imageWrites) (fun c => L c.imageWrites) (parseDosHeader b inp ctx) := by
    rw [parseDosHeader_eq]
    exact .ite (fun _ => .ite (fun _ => .ite (fun _ => start) fun _ => start) fun _ => start)
      fun _ => start
  refine Ends.bind (parseDosHeader_ends.and dos |>.mono (fun _ h => h) fun _ h => h.2) ?_
  rintro _ ⟨⟨rfl, _⟩, start⟩
  have nt : Ends (fun r => L r.2.imageWrites) (fun c => L c.imageWrites)
      (parseNtHeader b inp (inp.ptr b (inp.ntOffset b)) ctx.withDosHeader) := by
    rw [parseNtHeader_eq]
    refine .ite (fun _ => ?_) fun _ => start
    cases headerRefusal (inp.ntHeader b) with
    | some status => exact start
    | none => exact .ite (fun _ => start) fun _ => start
  refine Ends.bind (parseNtHeader_ends.and nt |>.mono (fun _ h => h) fun _ h => h.2) ?_
  rintro _ ⟨⟨rfl, _⟩, start⟩
  have header : (ctx.withHeaders b inp).output.header = inp.ntHeader b := rfl
  show Ends _ _ (parseSectionTable b inp (inp.ptr b (inp.tableOffset b)) (ctx.withHeaders b inp))
  rw [parseSectionTable_eq header]
  exact .ite (fun _ => .ite (fun _ => start) fun _ => start) fun _ => start

/-- The load copies a section. -/
structure DllLoaderInput.Copies (b : Build) (inp : DllLoaderInput) (calls : Ledger)
    (header : ImageSectionHeader) : Prop where
  passes : inp.HeadersPass b
  tableBlock : inp.tableBlock b calls ≠ 0
  tableEnd : inp.Passes b (inp.tableOffset b + inp.tableSize b)
  imageBlock : inp.imageBlock b calls ≠ 0
  headersFit : (inp.ntHeader b).optionalHeader.sizeOfHeaders ≤
    (inp.ntHeader b).optionalHeader.sizeOfImage
  front : ∃ i, (inp.sections b)[i]? = some header ∧
    ∀ earlier ∈ (inp.sections b).take i, inp.SectionPasses b earlier
  section_ : inp.SectionPasses b header
  data : header.sizeOfRawData ≠ 0

/-- A section copied is written. -/
theorem DllLoaderInput.Copies.written {header : ImageSectionHeader}
    (copies : inp.Copies b ctx.calls header) :
    WritesEnd (⟨header.virtualAddress.toNat, header.sizeOfRawData.toNat⟩ ∈ ·) (dllParseFile b inp ctx) := by
  obtain ⟨i, here, front⟩ := copies.front
  rw [dllParseFile_sections copies.passes copies.tableBlock copies.tableEnd copies.imageBlock
    copies.headersFit]
  refine WritesEnd.cleanUp ((processSections_copies front here copies.section_).mono ?_ ?_)
  · rintro _ ⟨rfl, member⟩
    exact mem_withSections_imageWrites.mpr (.inr ⟨header, member, copies.data, rfl⟩)
  · rintro _ ⟨before, member, rfl⟩
    exact mem_withSections_imageWrites.mpr (.inr ⟨header, member, copies.data, rfl⟩)

/-! ## Inside the image -/

/-- The offset of a span's bytes lies in `[0, SizeOfImage)`. -/
def DllLoaderInput.InImage (b : Build) (inp : DllLoaderInput) (sp : Span) : Prop :=
  sp.Inside b.space (inp.ntHeader b).optionalHeader.sizeOfImage.toNat

instance (sp : Span) : Decidable (inp.InImage b sp) := inferInstanceAs (Decidable (sp.Inside _ _))

theorem inImage_section {header : ImageSectionHeader} (data : header.sizeOfRawData ≠ 0) :
    inp.InImage b ⟨header.virtualAddress.toNat, header.sizeOfRawData.toNat⟩ ↔
      header.virtualAddress.toNat + header.sizeOfRawData.toNat ≤
        (inp.ntHeader b).optionalHeader.sizeOfImage.toNat :=
  inside_iff ⟨header.virtualAddress.toNat, header.sizeOfRawData.toNat⟩ (b.word_lt _) (b.word_lt _)
    (Nat.pos_of_ne_zero fun zero => data (UInt32.toNat_inj.mp zero))

/-- The file passes write the headers and the sections copied. -/
theorem dllParseFile_inside (start : ∀ sp ∈ ctx.imageWrites, inp.InImage b sp)
    (sections : ∀ header, inp.Copies b ctx.calls header →
      inp.InImage b ⟨header.virtualAddress.toNat, header.sizeOfRawData.toNat⟩) :
    WritesEnd (∀ sp ∈ ·, inp.InImage b sp) (dllParseFile b inp ctx) := by
  have cleaned {post : DllContext → Prop} {p : Pass}
      (h : Ends post (fun c => ∀ sp ∈ c.imageWrites, inp.InImage b sp) p) :
      Ends post (fun c => ∀ sp ∈ c.imageWrites, inp.InImage b sp) (cleanUp p) :=
    cleanUp_outcome (P := fun _ _ _ writes => ∀ sp ∈ writes, inp.InImage b sp) h
  have header := (@dllParseHeader_ends b inp ctx).and
    (dllParseHeader_writes (L := (∀ sp ∈ ·, inp.InImage b sp)) start)
  refine Ends.bind (cleaned (header.mono (fun _ h => h) fun _ h => h.2)) ?_
  rintro _ ⟨⟨rfl, passes, tableBlock, tableEnd⟩, start⟩
  have image : Ends (fun c => ∀ sp ∈ c.imageWrites, inp.InImage b sp)
      (fun c => ∀ sp ∈ c.imageWrites, inp.InImage b sp)
      (dllLoadImage b inp ((ctx.withHeaders b inp).withTable b inp)) := by
    rw [dllLoadImage_eq]
    refine .ite (fun _ => .ite (fun _ => start) fun fit => ?_) fun _ => start
    refine List.forall_mem_cons.mpr ⟨inside_of_le ?_ (b.word_lt _), start⟩
    rw [Nat.zero_add]
    exact UInt32.le_iff_toNat_le.mp (UInt32.not_lt.mp fit)
  have loaded := (@dllLoadImage_ends b inp _).and image
  refine Ends.bind (cleaned (loaded.mono (fun _ h => h) fun _ h => h.2)) ?_
  rintro _ ⟨⟨rfl, imageBlock, headersFit⟩, start⟩
  have copied {before after : List ImageSectionHeader} (table : inp.sections b = before ++ after)
      (all : ∀ header ∈ before, inp.SectionPasses b header) : ∀ sp ∈
        ((((ctx.withHeaders b inp).withTable b inp).withImage b inp).withSections b inp before).imageWrites,
      inp.InImage b sp := by
    intro sp written
    rcases mem_withSections_imageWrites.mp written with old | ⟨header, member, data, rfl⟩
    · exact start sp old
    · obtain ⟨i, lt, rfl⟩ := List.getElem_of_mem member
      refine sections _ ⟨passes, tableBlock, tableEnd, imageBlock, headersFit, ⟨i, ?_, ?_⟩, all _ member,
        data⟩
      · rw [table, List.getElem?_append_left lt, List.getElem?_eq_getElem lt]
      · intro earlier mem
        rw [table, List.take_append_of_le_length (Nat.le_of_lt lt)] at mem
        exact all earlier (List.mem_of_mem_take mem)
  refine cleaned ((processSections_ends _).mono ?_ ?_)
  · rintro _ ⟨rfl, all⟩
    exact copied (List.append_nil _).symm all
  · rintro _ ⟨before, header, after, table, all, _, rfl⟩
    exact copied table all

/-! ## Rounds -/

theorem relocTurn_fixup {newBase : UInt32} {delta : Int32} {dest entry relocationEnd : Nat}
    (isFixup : IsFixup b ctx entry relocationEnd) :
    relocTurn b newBase delta (.entry dest entry relocationEnd, ctx) =
      .again (.entry dest ((entry + 2) % b.space) relocationEnd,
        ctx.store32 b (fixupTarget b ctx dest entry)
          (ctx.load32 b (fixupTarget b ctx dest entry) + delta.toUInt32)) := by
  obtain ⟨below, high⟩ := isFixup
  have notAbsolute : ¬ ctx.load16 b entry >>> 12 = imageRelBasedAbsolute := by
    rw [high]
    decide
  simp only [relocTurn, if_pos below, if_neg notAbsolute, if_pos high]
  rfl

/-- A thunk's round, by how it is resolved. -/
theorem importTurn_thunk {at_ imageName thunk function : Nat} (nonzero : ctx.load32 b thunk ≠ 0) :
    importTurn b inp (.thunk at_ imageName thunk function, ctx) =
      match resolveThunk b inp imageName function (ctx.load32 b thunk) ctx with
      | .ok c => .again (.thunk at_ imageName ((thunk + 4) % b.space) ((function + 4) % b.space), c)
      | .error c => .leave (.error c) := if_neg nonzero

/-- A thunk's round goes on exactly when the resolver finds the import. -/
theorem importTurn_answered {at_ imageName thunk function : Nat} (nonzero : ctx.load32 b thunk ≠ 0) :
    if (inp.answer ctx.queries (thunkQuery b imageName (ctx.load32 b thunk) ctx)).found
    then importTurn b inp (.thunk at_ imageName thunk function, ctx) =
      .again (.thunk at_ imageName ((thunk + 4) % b.space) ((function + 4) % b.space),
        ctx.answered b inp imageName function (ctx.load32 b thunk))
    else ∃ c, importTurn b inp (.thunk at_ imageName thunk function, ctx) = .leave (.error c) := by
  have ends := @resolveThunk_ends b inp ctx imageName function (ctx.load32 b thunk)
  rw [importTurn_thunk nonzero]
  cases resolved : resolveThunk b inp imageName function (ctx.load32 b thunk) ctx with
  | ok c =>
    rw [resolved] at ends
    obtain ⟨found, rfl⟩ := ends
    exact (if_pos found).mpr rfl
  | error c =>
    rw [resolved] at ends
    exact (if_neg (Bool.eq_false_iff.mp ends.1)).mpr ⟨c, rfl⟩

end Dyndxt.Loader
