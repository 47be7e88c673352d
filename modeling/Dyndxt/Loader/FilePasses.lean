import Dyndxt.Loader.Blocks

/-!
# The file passes, run to their ends

`DLLParseHeader`, `DLLLoadImage` and `DLLProcessSections` are determined by
the raw file and two allocations. Each accepts exactly when its checks pass,
in the context written down here, and refuses with a status set and the blocks
it asked for on the output.
-/

namespace Dyndxt.Loader
open Dyndxt.Mem Dyndxt.Pool Dyndxt.Run

/-- A pass that has set a status and allocated nothing. -/
structure Declined (ctx ctx' : DllContext) : Prop extends SameBlocks ctx ctx' where
  status : ctx'.output.status ≠ .ok

section Accepted

variable (b : Build) (inp : DllLoaderInput)

/-- The checks up to the section table. -/
structure DllLoaderInput.HeadersPass : Prop where
  dosHeader : inp.Passes b sizeofImageDosHeader
  magic : (inp.dosHeader b).eMagic = imageDosSignature
  lfanew : inp.Passes b (inp.ntOffset b)
  ntHeader : inp.Passes b (inp.ntOffset b + sizeofImageNtHeaders32)
  accepted : headerRefusal (inp.ntHeader b) = none
  table : inp.Passes b (inp.tableOffset b)

/-- The checks on a section that has raw data. -/
def DllLoaderInput.SectionPasses (header : ImageSectionHeader) : Prop :=
  header.sizeOfRawData ≠ 0 → inp.Passes b header.pointerToRawData.toNat ∧
    inp.Passes b (header.pointerToRawData.toNat + header.sizeOfRawData.toNat)

instance (header : ImageSectionHeader) : Decidable (inp.SectionPasses b header) :=
  inferInstanceAs (Decidable (_ → _))

/-- The context behind the headers. -/
def DllContext.withHeaders (ctx : DllContext) : DllContext :=
  (((ctx.setErrorContext .dosHeader).readRaw 0 2).readRaw 60 4).withHeader b inp

/-- The context after the headers were copied to the image. -/
def DllContext.withImage (ctx : DllContext) : DllContext :=
  (ctx.withImageBlock inp).copyRaw b inp 0 ctx.output.header.optionalHeader.sizeOfHeaders.toNat 0

/-- The context after a section was copied. -/
def DllContext.withSection (ctx : DllContext) (header : ImageSectionHeader) : DllContext :=
  if header.sizeOfRawData = 0 then ctx.setErrorContext .loadSection
  else (ctx.setErrorContext .loadSection).copyRaw b inp header.virtualAddress.toNat
    header.sizeOfRawData.toNat header.pointerToRawData.toNat

/-- The context after a list of sections was copied. -/
def DllContext.withSections (ctx : DllContext) (headers : List ImageSectionHeader) : DllContext :=
  headers.foldl (DllContext.withSection b inp) ctx

/-- The context behind the file passes. -/
def DllContext.fileParsed (ctx : DllContext) : DllContext :=
  let ctx := ((ctx.withHeaders b inp).withTable b inp).withImage b inp
  ctx.withSections b inp ctx.sectionTable

/-- The section header block, as allocated after the calls made before. -/
def DllLoaderInput.tableBlock (calls : Ledger) : Nat := inp.alloc calls (inp.tableSize b)

/-- The image block, allocated next. -/
def DllLoaderInput.imageBlock (calls : Ledger) : Nat :=
  inp.alloc (.alloc (inp.tableSize b) (inp.tableBlock b calls) :: calls)
    (inp.ntHeader b).optionalHeader.sizeOfImage.toNat

/-- The file passes' checks, over the allocator calls made before. -/
structure DllLoaderInput.FilePasses (calls : Ledger) : Prop extends inp.HeadersPass b where
  tableBlock : inp.tableBlock b calls ≠ 0
  tableEnd : inp.Passes b (inp.tableOffset b + inp.tableSize b)
  imageBlock : inp.imageBlock b calls ≠ 0
  headersFit : (inp.ntHeader b).optionalHeader.sizeOfHeaders ≤
    (inp.ntHeader b).optionalHeader.sizeOfImage
  sections : ∀ header ∈ inp.sections b, inp.SectionPasses b header

end Accepted

variable {b : Build} {inp : DllLoaderInput} {ctx ctx' : DllContext} {held : List Nat}

attribute [local irreducible] DllLoaderInput.ptr

/-! ## Headers -/

theorem headerRefusal_ne_ok {header : ImageNtHeaders32} {status : DllLoaderStatus}
    (h : headerRefusal header = some status) : status ≠ .ok := by
  unfold headerRefusal at h
  split at h
  · cases h; decide
  · split at h
    · cases h; decide
    · split at h <;> cases h
      decide

theorem declined_setErrorStatus {status : DllLoaderStatus} (same : SameBlocks ctx ctx')
    (bad : status ≠ .ok) : Declined ctx (ctx'.setErrorStatus status) :=
  ⟨same.trans ⟨rfl, rfl, rfl⟩, bad⟩

theorem parseDosHeader_ends :
    Ends (fun r => r = (inp.ptr b (inp.ntOffset b),
          ((ctx.setErrorContext .dosHeader).readRaw 0 2).readRaw 60 4) ∧
        inp.Passes b sizeofImageDosHeader ∧ (inp.dosHeader b).eMagic = imageDosSignature ∧
        inp.Passes b (inp.ntOffset b))
      (Declined ctx) (parseDosHeader b inp ctx) := by
  rw [parseDosHeader_eq]
  refine .ite (fun dos => .ite (fun magic => .ite (fun lfanew => ?_) fun _ => ?_) fun _ => ?_) fun _ => ?_
  · exact ⟨rfl, dos, magic, lfanew⟩
  · exact declined_setErrorStatus ⟨rfl, rfl, rfl⟩ (by decide)
  · exact declined_setErrorStatus ⟨rfl, rfl, rfl⟩ (by decide)
  · exact declined_setErrorStatus ⟨rfl, rfl, rfl⟩ (by decide)

theorem parseNtHeader_ends :
    Ends (fun r => r = (inp.ptr b (inp.tableOffset b), ctx.withHeader b inp) ∧
        inp.Passes b (inp.ntOffset b + sizeofImageNtHeaders32) ∧
        headerRefusal (inp.ntHeader b) = none ∧ inp.Passes b (inp.tableOffset b))
      (Declined ctx) (parseNtHeader b inp (inp.ptr b (inp.ntOffset b)) ctx) := by
  rw [parseNtHeader_eq]
  refine .ite (fun nt => ?_) fun _ => declined_setErrorStatus ⟨rfl, rfl, rfl⟩ (by decide)
  cases refused : headerRefusal (inp.ntHeader b) with
  | some status => exact declined_setErrorStatus ⟨rfl, rfl, rfl⟩ (headerRefusal_ne_ok refused)
  | none =>
    refine .ite (fun table => ?_) fun _ => declined_setErrorStatus ⟨rfl, rfl, rfl⟩ (by decide)
    exact ⟨rfl, nt, rfl, table⟩

theorem parseSectionTable_ends (header : ctx.output.header = inp.ntHeader b) :
    Ends (fun c => c = ctx.withTable b inp ∧ inp.alloc ctx.calls (inp.tableSize b) ≠ 0 ∧
        inp.Passes b (inp.tableOffset b + inp.tableSize b))
      (Declined (ctx.withTableBlock b inp))
      (parseSectionTable b inp (inp.ptr b (inp.tableOffset b)) ctx) := by
  rw [parseSectionTable_eq header]
  refine .ite (fun block => .ite (fun tableEnd => ?_) fun _ => ?_) fun _ => ?_
  · exact ⟨rfl, block, tableEnd⟩
  · exact declined_setErrorStatus ⟨rfl, rfl, rfl⟩ (by decide)
  · exact declined_setErrorStatus ⟨rfl, rfl, rfl⟩ (by decide)

/-- `DLLParseHeader` declines before or after it asked for the table block. -/
theorem dllParseHeader_ends :
    Ends (fun c => c = (ctx.withHeaders b inp).withTable b inp ∧ inp.HeadersPass b ∧
        inp.alloc ctx.calls (inp.tableSize b) ≠ 0 ∧
        inp.Passes b (inp.tableOffset b + inp.tableSize b))
      (fun c => Declined ctx c ∨ Declined ((ctx.withHeaders b inp).withTableBlock b inp) c)
      (dllParseHeader b inp ctx) := by
  refine (parseDosHeader_ends.mono (fun _ h => h) fun _ => .inl).bind ?_
  rintro _ ⟨rfl, dos, magic, lfanew⟩
  have read : SameBlocks ctx (((ctx.setErrorContext .dosHeader).readRaw 0 2).readRaw 60 4) := ⟨rfl, rfl, rfl⟩
  refine Ends.bind (parseNtHeader_ends.mono (fun _ h => h) ?_) ?_
  · exact fun _ declined =>
      .inl ⟨read.trans declined.toSameBlocks, declined.status⟩
  rintro _ ⟨rfl, nt, accepted, table⟩
  refine (parseSectionTable_ends rfl).mono ?_ fun _ => .inr
  rintro _ ⟨rfl, block, tableEnd⟩
  exact ⟨rfl, ⟨dos, magic, lfanew, nt, accepted, table⟩, block, tableEnd⟩

/-! ## The image -/

theorem dllLoadImage_ends :
    Ends (fun c => c = ctx.withImage b inp ∧
        inp.alloc ctx.calls ctx.output.header.optionalHeader.sizeOfImage.toNat ≠ 0 ∧
        ctx.output.header.optionalHeader.sizeOfHeaders ≤ ctx.output.header.optionalHeader.sizeOfImage)
      (Declined (ctx.withImageBlock inp)) (dllLoadImage b inp ctx) := by
  rw [dllLoadImage_eq]
  refine .ite (fun block => .ite (fun _ => ?_) fun fit => ?_) fun _ => ?_
  · exact declined_setErrorStatus ⟨rfl, rfl, rfl⟩ (by decide)
  · exact ⟨rfl, block, UInt32.not_lt.mp fit⟩
  · exact declined_setErrorStatus ⟨rfl, rfl, rfl⟩ (by decide)

theorem processSection_ends (header : ImageSectionHeader) :
    Ends (fun c => c = ctx.withSection b inp header ∧ inp.SectionPasses b header)
      (fun c => c = (ctx.setErrorContext .loadSection).setErrorStatus .fileTooSmall ∧
        ¬ inp.SectionPasses b header)
      (processSection b inp header ctx) := by
  rw [processSection_eq]
  refine .ite (fun empty => ?_) fun some => .ite (fun start => .ite (fun stop => ?_) fun outside => ?_)
    fun outside => ?_
  · exact ⟨(if_pos empty).symm, fun some => absurd empty some⟩
  · exact ⟨(if_neg some).symm, fun _ => ⟨start, stop⟩⟩
  · exact ⟨rfl, fun passes => outside (passes some).2⟩
  · exact ⟨rfl, fun passes => outside (passes some).1⟩

theorem kept_withSection (header : ImageSectionHeader) : Kept ctx (ctx.withSection b inp header) := by
  unfold DllContext.withSection
  split <;> exact ⟨⟨⟨rfl, rfl, rfl⟩, rfl, rfl, rfl⟩, rfl⟩

theorem kept_withSections (headers : List ImageSectionHeader) :
    Kept ctx (ctx.withSections b inp headers) := by
  unfold DllContext.withSections
  induction headers generalizing ctx with
  | nil => exact Kept.refl ctx
  | cons header headers ih => exact (kept_withSection header).trans ih

/-- The sections are copied in order up to the first that does not pass. -/
theorem processSections_ends (headers : List ImageSectionHeader) :
    Ends (fun c => c = ctx.withSections b inp headers ∧ ∀ header ∈ headers, inp.SectionPasses b header)
      (fun c => ∃ before header after, headers = before ++ header :: after ∧
        (∀ earlier ∈ before, inp.SectionPasses b earlier) ∧ ¬ inp.SectionPasses b header ∧
        c = ((ctx.withSections b inp before).setErrorContext .loadSection).setErrorStatus .fileTooSmall)
      (headers.foldlM (fun ctx header => processSection b inp header ctx) ctx) := by
  induction headers generalizing ctx with
  | nil => exact ⟨rfl, by simp⟩
  | cons header headers ih =>
    rw [List.foldlM_cons]
    refine Ends.bind ((processSection_ends header).mono (fun _ h => h) ?_) ?_
    · rintro c ⟨rfl, outside⟩
      exact ⟨[], header, headers, rfl, by simp, outside, rfl⟩
    · rintro c ⟨rfl, passes⟩
      refine ih.mono ?_ ?_
      · rintro c ⟨rfl, rest⟩
        exact ⟨rfl, by simp only [List.mem_cons, forall_eq_or_imp]; exact ⟨passes, rest⟩⟩
      · rintro c ⟨before, other, after, rfl, earlier, outside, rfl⟩
        refine ⟨header :: before, other, after, rfl, ?_, outside, rfl⟩
        simp only [List.mem_cons, forall_eq_or_imp]
        exact ⟨passes, earlier⟩

/-- When the sections up to the `i`-th pass, that one is copied. -/
theorem processSections_copies {headers : List ImageSectionHeader} {i : Nat} {header : ImageSectionHeader}
    (front : ∀ earlier ∈ headers.take i, inp.SectionPasses b earlier) (here : headers[i]? = some header)
    (passes : inp.SectionPasses b header) :
    Ends (fun c => c = ctx.withSections b inp headers ∧ header ∈ headers)
      (fun c => ∃ before, header ∈ before ∧
        c = ((ctx.withSections b inp before).setErrorContext .loadSection).setErrorStatus .fileTooSmall)
      (headers.foldlM (fun ctx header => processSection b inp header ctx) ctx) := by
  refine (processSections_ends headers).mono ?_ ?_
  · rintro c ⟨rfl, _⟩
    exact ⟨rfl, List.mem_of_getElem? here⟩
  · rintro c ⟨before, other, after, table, _, outside, rfl⟩
    -- the section that does not pass lies behind the `i`-th
    have behind : i < before.length := by
      by_contra notBefore
      rcases Nat.lt_or_ge before.length i with lt | ge
      · refine outside (front other (List.mem_take_iff_getElem.mpr ⟨before.length, ?_, ?_⟩))
        · rw [table]
          simp [lt]
        · simp [table]
      · obtain rfl : i = before.length := by omega
        rw [table, List.getElem?_append_right (Nat.le_refl _), Nat.sub_self,
          List.getElem?_cons_zero] at here
        cases here
        exact outside passes
    rw [table, List.getElem?_append_left behind] at here
    exact ⟨before, List.mem_of_getElem? here, rfl⟩

theorem dllProcessSections_ends :
    Ends (fun c => c = ctx.withSections b inp ctx.sectionTable ∧
        ∀ header ∈ ctx.sectionTable, inp.SectionPasses b header)
      (Declined ctx) (dllProcessSections b inp ctx) := by
  refine (processSections_ends ctx.sectionTable).mono (fun _ h => h) ?_
  rintro c ⟨before, _, _, _, _, _, rfl⟩
  exact declined_setErrorStatus ((kept_withSections before).toSameBlocks.trans ⟨rfl, rfl, rfl⟩) (by decide)

/-! ## The passes, one check after another -/

/-- What `DLLParse` does after the headers are parsed, in the file passes. -/
def loadSections (b : Build) (inp : DllLoaderInput) (ctx : DllContext) : Pass := do
  let ctx ← cleanUp (dllLoadImage b inp ctx)
  cleanUp (dllProcessSections b inp ctx)

theorem dllParseFile_eq :
    dllParseFile b inp ctx = cleanUp (dllParseHeader b inp ctx) >>= loadSections b inp := rfl

/-- The context behind the DOS header. -/
def DllContext.withDosHeader (ctx : DllContext) : DllContext :=
  ((ctx.setErrorContext .dosHeader).readRaw 0 2).readRaw 60 4

theorem dllParseHeader_dos (passes : inp.Passes b sizeofImageDosHeader)
    (magic : (inp.dosHeader b).eMagic = imageDosSignature) (lfanew : inp.Passes b (inp.ntOffset b)) :
    dllParseHeader b inp ctx =
      parseNtHeader b inp (inp.ptr b (inp.ntOffset b)) ctx.withDosHeader >>= fun r =>
        parseSectionTable b inp r.1 r.2 := by
  unfold dllParseHeader
  rw [parseDosHeader_eq, if_pos passes, if_pos magic, if_pos lfanew]
  rfl

theorem dllParseHeader_table (passes : inp.HeadersPass b) : dllParseHeader b inp ctx =
    parseSectionTable b inp (inp.ptr b (inp.tableOffset b)) (ctx.withHeaders b inp) := by
  rw [dllParseHeader_dos passes.dosHeader passes.magic passes.lfanew, parseNtHeader_eq,
    if_pos passes.ntHeader, passes.accepted]
  simp only [if_pos passes.table]
  rfl

theorem dllParseHeader_ok (passes : inp.HeadersPass b) (block : inp.tableBlock b ctx.calls ≠ 0)
    (tableEnd : inp.Passes b (inp.tableOffset b + inp.tableSize b)) :
    dllParseHeader b inp ctx = .ok ((ctx.withHeaders b inp).withTable b inp) := by
  have header : (ctx.withHeaders b inp).output.header = inp.ntHeader b := rfl
  rw [dllParseHeader_table passes, parseSectionTable_eq header]
  exact (if_pos block).trans (if_pos tableEnd)

theorem dllParseHeader_tableEnd (passes : inp.HeadersPass b) (block : inp.tableBlock b ctx.calls ≠ 0)
    (outside : ¬ inp.Passes b (inp.tableOffset b + inp.tableSize b)) : dllParseHeader b inp ctx =
      .error (((ctx.withHeaders b inp).withTableBlock b inp).setErrorStatus .fileTooSmall) := by
  have header : (ctx.withHeaders b inp).output.header = inp.ntHeader b := rfl
  rw [dllParseHeader_table passes, parseSectionTable_eq header]
  exact (if_pos block).trans (if_neg outside)

theorem dllParseFile_image (passes : inp.HeadersPass b) (block : inp.tableBlock b ctx.calls ≠ 0)
    (tableEnd : inp.Passes b (inp.tableOffset b + inp.tableSize b)) :
    dllParseFile b inp ctx = loadSections b inp ((ctx.withHeaders b inp).withTable b inp) := by
  rw [dllParseFile_eq, dllParseHeader_ok passes block tableEnd]
  rfl

theorem dllParseFile_sections (passes : inp.HeadersPass b) (block : inp.tableBlock b ctx.calls ≠ 0)
    (tableEnd : inp.Passes b (inp.tableOffset b + inp.tableSize b))
    (image : inp.imageBlock b ctx.calls ≠ 0)
    (fit : (inp.ntHeader b).optionalHeader.sizeOfHeaders ≤ (inp.ntHeader b).optionalHeader.sizeOfImage) :
    dllParseFile b inp ctx = cleanUp ((inp.sections b).foldlM
      (fun ctx header => processSection b inp header ctx)
      (((ctx.withHeaders b inp).withTable b inp).withImage b inp)) := by
  have loaded : dllLoadImage b inp ((ctx.withHeaders b inp).withTable b inp) =
      .ok (((ctx.withHeaders b inp).withTable b inp).withImage b inp) := by
    rw [dllLoadImage_eq]
    exact (if_pos image).trans (if_neg (UInt32.not_lt.mpr fit))
  rw [dllParseFile_image passes block tableEnd, loadSections, loaded]
  rfl

theorem processSections_ok {headers : List ImageSectionHeader}
    (passes : ∀ header ∈ headers, inp.SectionPasses b header) :
    headers.foldlM (fun ctx header => processSection b inp header ctx) ctx =
      .ok (ctx.withSections b inp headers) := by
  have ends := @processSections_ends b inp ctx headers
  cases copied : headers.foldlM (fun ctx header => processSection b inp header ctx) ctx with
  | ok c =>
    rw [copied] at ends
    rw [ends.1]
  | error c =>
    rw [copied] at ends
    obtain ⟨before, header, after, rfl, _, outside, _⟩ := ends
    exact absurd (passes header (by simp)) outside

/-- The file passes succeed when their checks pass. -/
theorem dllParseFile_ok (passes : inp.FilePasses b ctx.calls) :
    dllParseFile b inp ctx = .ok (ctx.fileParsed b inp) := by
  rw [dllParseFile_sections passes.toHeadersPass passes.tableBlock passes.tableEnd passes.imageBlock
    passes.headersFit, processSections_ok passes.sections]
  rfl

/-! ## Ownership -/

theorem Owns.declined (owns : Owns held ctx) (declined : Declined ctx ctx') : Refused held ctx' :=
  ⟨declined.status, owns.same declined.toSameBlocks⟩

theorem owns_withTableBlock (owns : Owns held ctx) (noImage : ctx.output.image = 0)
    (noTable : ctx.output.sectionHeaders = 0) : Owns held (ctx.withTableBlock b inp) := by
  refine ⟨owns.clean, ?_⟩
  have before := owns.live
  simp only [DllLoaderOutput.blocks, noImage, noTable, ne_eq, not_true, if_false, List.nil_append] at before
  simp only [DllContext.withTableBlock, DllLoaderOutput.blocks, noImage, ne_eq, not_true, if_false,
    List.nil_append]
  split
  case isTrue some => rw [live_alloc some, before, List.singleton_append]
  case isFalse null => rw [not_not.mp null, live_alloc_null, before, List.nil_append]

theorem owns_withImageBlock (owns : Owns held ctx) (noImage : ctx.output.image = 0) :
    Owns held (ctx.withImageBlock inp) := by
  refine ⟨owns.clean, ?_⟩
  have before := owns.live
  simp only [DllLoaderOutput.blocks, noImage, ne_eq, not_true, if_false, List.nil_append] at before
  by_cases null : inp.alloc ctx.calls ctx.output.header.optionalHeader.sizeOfImage.toNat = 0
  · simp only [DllContext.withImageBlock, DllLoaderOutput.blocks, null, live_alloc_null, before, ne_eq,
      not_true, if_false, List.nil_append]
  · simp only [DllContext.withImageBlock, DllLoaderOutput.blocks, live_alloc null, before, ne_eq, null,
      not_false_iff, if_true, List.cons_append, List.nil_append]
    rfl

/-- The file passes from an output that owns nothing: the context is the one
written down, or everything is given back. -/
theorem dllParseFile_ends (owns : Owns held ctx) (noImage : ctx.output.image = 0)
    (noTable : ctx.output.sectionHeaders = 0) :
    Ends (fun c => c = ctx.fileParsed b inp ∧ inp.FilePasses b ctx.calls ∧ Owns held c)
      (CleanedUp held) (dllParseFile b inp ctx) := by
  have ownsHeaders : Owns held (ctx.withHeaders b inp) := owns.same ⟨rfl, rfl, rfl⟩
  have ownsBlock := @owns_withTableBlock b inp _ _ ownsHeaders noImage noTable
  refine Ends.bind (cleanUp_ends (dllParseHeader_ends.mono (fun _ h => h) ?_)) ?_
  · rintro c (declined | declined)
    · exact owns.declined declined
    · exact ownsBlock.declined declined
  rintro _ ⟨rfl, headers, tableBlock, tableEnd⟩
  have ownsTable : Owns held ((ctx.withHeaders b inp).withTable b inp) := ownsBlock.same ⟨rfl, rfl, rfl⟩
  have ownsImageBlock := @owns_withImageBlock inp _ _ ownsTable noImage
  refine Ends.bind (cleanUp_ends (dllLoadImage_ends.mono (fun _ h => h)
    fun _ => ownsImageBlock.declined)) ?_
  rintro _ ⟨rfl, imageBlock, headersFit⟩
  have ownsImage : Owns held (((ctx.withHeaders b inp).withTable b inp).withImage b inp) :=
    ownsImageBlock.same ⟨rfl, rfl, rfl⟩
  refine (cleanUp_ends (dllProcessSections_ends.mono (fun _ h => h)
    fun _ => ownsImage.declined)).mono ?_ fun _ h => h
  rintro _ ⟨rfl, sections⟩
  exact ⟨rfl, ⟨headers, tableBlock, tableEnd, imageBlock, headersFit, sections⟩,
    ownsImage.same (kept_withSections _).toSameBlocks⟩

end Dyndxt.Loader
