import Dyndxt.Loader.Load

/-!
# Where the loader reads the raw file

The header fields lead the loader to a stretch of the raw file at each of six
stages. Its only guard compares pointers after they were moved, modulo the
address space, so a stage is caught when the wrapped pointer is past `eof`;
the copy of the headers into the image is not guarded at all. The load is safe
exactly when every stage it reaches that leads outside is caught.
-/

namespace Dyndxt.Loader
open Dyndxt.Mem Dyndxt.Pool Dyndxt.Run

/-- The places where a load follows the file's fields into the raw data. -/
inductive ReadStage where
  | dosHeader
  | ntHeader
  | optionalHeader
  | sectionTable
  | headers
  | sectionData (i : Nat)
deriving DecidableEq, Repr

section Stages

variable (b : Build) (inp : DllLoaderInput) (calls : Ledger)

/-- One past the last byte of a section's raw data, if it has any. -/
def ImageSectionHeader.rawStop (header : ImageSectionHeader) : Nat :=
  if header.sizeOfRawData = 0 then 0 else header.pointerToRawData.toNat + header.sizeOfRawData.toNat

/-- One past the last byte a stage leads to, summed without wrapping. -/
def ReadStage.stop : ReadStage → Nat
  | .dosHeader => sizeofImageDosHeader
  | .ntHeader => inp.ntOffset b + sizeofImageNtHeaders32
  | .optionalHeader => inp.tableOffset b
  | .sectionTable => inp.tableOffset b + inp.tableSize b
  | .headers => (inp.ntHeader b).optionalHeader.sizeOfHeaders.toNat
  | .sectionData i => ((inp.sections b)[i]?).elim 0 ImageSectionHeader.rawStop

/-- The load gets to a stage: what it checks before. -/
def ReadStage.Reached : ReadStage → Prop
  | .dosHeader => True
  | .ntHeader => inp.Passes b sizeofImageDosHeader ∧ (inp.dosHeader b).eMagic = imageDosSignature
  | .optionalHeader =>
    (inp.Passes b sizeofImageDosHeader ∧ (inp.dosHeader b).eMagic = imageDosSignature) ∧
      (inp.Passes b (inp.ntOffset b) ∧ inp.Passes b (inp.ntOffset b + sizeofImageNtHeaders32)) ∧
      headerRefusal (inp.ntHeader b) = none
  | .sectionTable => inp.HeadersPass b ∧ inp.tableBlock b calls ≠ 0
  | .headers => inp.HeadersPass b ∧ inp.tableBlock b calls ≠ 0 ∧
      inp.Passes b (inp.tableOffset b + inp.tableSize b) ∧ inp.imageBlock b calls ≠ 0
  | .sectionData i => inp.HeadersPass b ∧ inp.tableBlock b calls ≠ 0 ∧
      inp.Passes b (inp.tableOffset b + inp.tableSize b) ∧ inp.imageBlock b calls ≠ 0 ∧
      (inp.ntHeader b).optionalHeader.sizeOfHeaders ≤ (inp.ntHeader b).optionalHeader.sizeOfImage ∧
      ∀ header ∈ (inp.sections b).take i, inp.SectionPasses b header

/-- The pointer comparisons that follow a stage's fields refuse. -/
def ReadStage.Caught : ReadStage → Prop
  | .dosHeader => ¬ inp.Passes b sizeofImageDosHeader
  | .ntHeader =>
    ¬ (inp.Passes b (inp.ntOffset b) ∧ inp.Passes b (inp.ntOffset b + sizeofImageNtHeaders32))
  | .optionalHeader => ¬ inp.Passes b (inp.tableOffset b) ∨
      inp.tableBlock b calls ≠ 0 ∧ ¬ inp.Passes b (inp.tableOffset b + inp.tableSize b)
  | .sectionTable => ¬ inp.Passes b (inp.tableOffset b + inp.tableSize b)
  | .headers => False
  | .sectionData i => ∃ header, (inp.sections b)[i]? = some header ∧ ¬ inp.SectionPasses b header

/-- The error contexts the load is in at a stage. -/
def ReadStage.contexts : ReadStage → List DllLoaderContext
  | .dosHeader => [.dosHeader]
  | .ntHeader => [.dosHeader, .ntHeader]
  | .optionalHeader => [.ntHeader, .ntHeaderSectionTable]
  | .sectionTable => [.ntHeaderSectionTable]
  | .headers => [.loadImage]
  | .sectionData _ => [.loadSection]

/-- Every logged read is of bytes of the file. -/
def DllLoaderInput.ReadsInside (log : List Span) : Prop :=
  ∀ sp ∈ log, sp.Inside b.space inp.rawDataSize.toNat

/-- Every stage the load gets to that leads outside is caught. -/
def DllLoaderInput.AllCaught : Prop :=
  ∀ stage : ReadStage, stage.Reached b inp calls → inp.rawDataSize.toNat < stage.stop b inp →
    stage.Caught b inp calls

/-- What a pass has logged when it ends, whichever way, satisfies `I`. -/
def Logs (I : List Span → Prop) (p : Pass) : Prop :=
  Ends (fun c => I c.rawReads) (fun c => I c.rawReads) p

end Stages

variable {b : Build} {inp : DllLoaderInput} {ctx ctx' : DllContext} {output : DllLoaderOutput}
  {stale : Bytes}

attribute [local irreducible] DllLoaderInput.ptr

/-! ## A caught stage fails the load -/

/-- A pass refuses the file as too small, at a stage. -/
def FailsAt (stage : ReadStage) (p : Pass) : Prop :=
  Ends (fun _ => False) (fun c => c.output.status = .fileTooSmall ∧ c.output.context ∈ stage.contexts) p

theorem FailsAt.cleanUp {stage : ReadStage} {p : Pass} (h : FailsAt stage p) :
    FailsAt stage (cleanUp p) :=
  cleanUp_outcome (P := fun status context _ _ => status = .fileTooSmall ∧ context ∈ stage.contexts) h

theorem FailsAt.bind {stage : ReadStage} {p : Pass} {f : DllContext → Pass} (h : FailsAt stage p) :
    FailsAt stage (p >>= f) :=
  Ends.bind h fun _ never => never.elim

theorem FailsAt.header {stage : ReadStage} (h : FailsAt stage (dllParseHeader b inp ctx)) :
    FailsAt stage (dllParseFile b inp ctx) := h.cleanUp.bind

theorem failsAt_setErrorStatus {stage : ReadStage} (at_ : ctx.output.context ∈ stage.contexts) :
    FailsAt stage (.error (ctx.setErrorStatus .fileTooSmall)) := ⟨rfl, at_⟩

theorem failsAt_sections {headers : List ImageSectionHeader} {i : Nat} {header : ImageSectionHeader}
    (here : headers[i]? = some header) (outside : ¬ inp.SectionPasses b header) :
    FailsAt (.sectionData i) (headers.foldlM (fun ctx header => processSection b inp header ctx) ctx) := by
  refine (processSections_ends headers).mono ?_ ?_
  · rintro _ ⟨_, all⟩
    exact outside (all header (List.mem_of_getElem? here))
  · rintro _ ⟨_, _, _, _, _, _, rfl⟩
    exact ⟨rfl, by simp [ReadStage.contexts, DllContext.setErrorStatus, DllContext.setErrorContext]⟩

theorem failsAt_of_caught {stage : ReadStage} (reached : stage.Reached b inp ctx.calls)
    (caught : stage.Caught b inp ctx.calls) : FailsAt stage (dllParseFile b inp ctx) := by
  cases stage with
  | dosHeader =>
    apply FailsAt.header
    unfold dllParseHeader
    rw [parseDosHeader_eq, if_neg caught]
    exact failsAt_setErrorStatus (by simp [ReadStage.contexts, DllContext.setErrorContext])
  | ntHeader =>
    obtain ⟨passes, magic⟩ := reached
    apply FailsAt.header
    by_cases lfanew : inp.Passes b (inp.ntOffset b)
    · have outside := not_and.mp caught lfanew
      rw [dllParseHeader_dos passes magic lfanew, parseNtHeader_eq, if_neg outside]
      exact failsAt_setErrorStatus (by simp [ReadStage.contexts, DllContext.setErrorContext])
    · unfold dllParseHeader
      rw [parseDosHeader_eq, if_pos passes, if_pos magic, if_neg lfanew]
      exact failsAt_setErrorStatus
        (by simp [ReadStage.contexts, DllContext.setErrorContext, DllContext.readRaw])
  | optionalHeader =>
    obtain ⟨⟨passes, magic⟩, ⟨lfanew, nt⟩, accepted⟩ := reached
    apply FailsAt.header
    by_cases table : inp.Passes b (inp.tableOffset b)
    · obtain ⟨block, outside⟩ := caught.resolve_left (not_not.mpr table)
      rw [dllParseHeader_tableEnd ⟨passes, magic, lfanew, nt, accepted, table⟩ block outside]
      exact failsAt_setErrorStatus (by simp [ReadStage.contexts, DllContext.withTableBlock])
    · rw [dllParseHeader_dos passes magic lfanew, parseNtHeader_eq, if_pos nt, accepted]
      simp only [if_neg table]
      exact failsAt_setErrorStatus (by simp [ReadStage.contexts, DllContext.withHeader,
        DllContext.setErrorContext, DllContext.readRaw])
  | sectionTable =>
    obtain ⟨passes, block⟩ := reached
    apply FailsAt.header
    rw [dllParseHeader_tableEnd passes block caught]
    exact failsAt_setErrorStatus (by simp [ReadStage.contexts, DllContext.withTableBlock])
  | headers => exact caught.elim
  | sectionData i =>
    obtain ⟨passes, block, tableEnd, image, fit, _⟩ := reached
    obtain ⟨header, here, outside⟩ := caught
    rw [dllParseFile_sections passes block tableEnd image fit]
    exact (failsAt_sections here outside).cleanUp

/-- No later pass refuses a file as too small. -/
theorem parseFile_of_fileTooSmall {c : DllContext} {budget : Nat}
    (failed : dllLoad b inp budget (.initial output stale) = .leave (.error c))
    (tooSmall : c.output.status = .fileTooSmall) :
    dllParseFile b inp (DllContext.initial output stale).reset = .error c := by
  rcases dllLoad_refusal failed with file | (status | status) | status | status
  · exact file
  all_goals rw [status] at tooSmall; cases tooSmall

/-! ## What is read -/

theorem mem_withSections_rawReads {headers : List ImageSectionHeader} {sp : Span} :
    sp ∈ (ctx.withSections b inp headers).rawReads ↔ sp ∈ ctx.rawReads ∨ ∃ header ∈ headers,
      header.sizeOfRawData ≠ 0 ∧ sp = ⟨header.pointerToRawData.toNat, header.sizeOfRawData.toNat⟩ := by
  induction headers generalizing ctx with
  | nil => simp [DllContext.withSections]
  | cons header headers ih =>
    have tail : ctx.withSections b inp (header :: headers) =
        (ctx.withSection b inp header).withSections b inp headers := rfl
    rw [tail, ih]
    by_cases empty : header.sizeOfRawData = 0
    · simp [DllContext.withSection, empty, DllContext.setErrorContext]
    · simp [DllContext.withSection, empty, DllContext.setErrorContext, DllContext.copyRaw, or_assoc,
        or_left_comm]

section Logs

variable {I : List Span → Prop}

theorem parseDosHeader_log (start : I ctx.rawReads)
    (magic : inp.Passes b sizeofImageDosHeader → I (⟨0, 2⟩ :: ctx.rawReads))
    (lfanew : inp.Passes b sizeofImageDosHeader → (inp.dosHeader b).eMagic = imageDosSignature →
      I (⟨60, 4⟩ :: ⟨0, 2⟩ :: ctx.rawReads)) :
    Ends (fun r => I r.2.rawReads) (fun c => I c.rawReads) (parseDosHeader b inp ctx) := by
  rw [parseDosHeader_eq]
  refine .ite (fun passes => .ite (fun signed => ?_) fun _ => magic passes) fun _ => start
  exact .ite (fun _ => lfanew passes signed) fun _ => lfanew passes signed

theorem parseNtHeader_log (start : I ctx.rawReads)
    (read : inp.Passes b (inp.ntOffset b + sizeofImageNtHeaders32) →
      I (⟨inp.ntOffset b, sizeofImageNtHeaders32⟩ :: ctx.rawReads)) :
    Ends (fun r => I r.2.rawReads) (fun c => I c.rawReads)
      (parseNtHeader b inp (inp.ptr b (inp.ntOffset b)) ctx) := by
  rw [parseNtHeader_eq]
  refine .ite (fun passes => ?_) fun _ => start
  cases headerRefusal (inp.ntHeader b) with
  | some status => exact read passes
  | none => exact .ite (fun _ => read passes) fun _ => read passes

theorem parseSectionTable_log (header : ctx.output.header = inp.ntHeader b) (start : I ctx.rawReads)
    (read : inp.alloc ctx.calls (inp.tableSize b) ≠ 0 →
      inp.Passes b (inp.tableOffset b + inp.tableSize b) →
      I (⟨inp.tableOffset b % b.space, inp.tableSize b⟩ :: ctx.rawReads)) :
    Logs I (parseSectionTable b inp (inp.ptr b (inp.tableOffset b)) ctx) := by
  unfold Logs
  rw [parseSectionTable_eq header]
  exact .ite (fun block => .ite (read block) fun _ => start) fun _ => start

theorem dllLoadImage_log (start : I ctx.rawReads)
    (read : inp.alloc ctx.calls ctx.output.header.optionalHeader.sizeOfImage.toNat ≠ 0 →
      I (⟨0, ctx.output.header.optionalHeader.sizeOfHeaders.toNat⟩ :: ctx.rawReads)) :
    Logs I (dllLoadImage b inp ctx) := by
  unfold Logs
  rw [dllLoadImage_eq]
  exact .ite (fun block => .ite (fun _ => start) fun _ => read block) fun _ => start

theorem cleanUp_log {post : DllContext → Prop} {p : Pass} (h : Ends post (fun c => I c.rawReads) p) :
    Ends post (fun c => I c.rawReads) (cleanUp p) :=
  cleanUp_outcome (P := fun _ _ reads _ => I reads) h

end Logs

/-! ## When every stage that leads outside is caught -/

theorem DllLoaderInput.AllCaught.fits {calls : Ledger} (caught : inp.AllCaught b calls)
    (stage : ReadStage) (reached : stage.Reached b inp calls) (passes : ¬ stage.Caught b inp calls) :
    stage.stop b inp ≤ inp.rawDataSize.toNat :=
  Nat.not_lt.mp (mt (caught stage reached) passes)

/-- A read within the file's size added to the log. -/
theorem readsInside_cons {log : List Span} {off len : Nat} (inside : inp.ReadsInside b log)
    (fits : off + len ≤ inp.rawDataSize.toNat) : inp.ReadsInside b (⟨off, len⟩ :: log) :=
  List.forall_mem_cons.mpr ⟨inside_of_le fits (b.word_lt inp.rawDataSize), inside⟩

theorem dllParseHeader_reads (inside : inp.ReadsInside b ctx.rawReads)
    (caught : inp.AllCaught b ctx.calls) :
    Logs (inp.ReadsInside b) (dllParseHeader b inp ctx) := by
  have dosFits (passes : inp.Passes b sizeofImageDosHeader) : 64 ≤ inp.rawDataSize.toNat :=
    caught.fits .dosHeader trivial (not_not.mpr passes)
  have magic (passes : inp.Passes b sizeofImageDosHeader) :
      inp.ReadsInside b (⟨0, 2⟩ :: ctx.rawReads) :=
    readsInside_cons inside (by have := dosFits passes; omega)
  have dos := parseDosHeader_ends.and (parseDosHeader_log inside magic fun passes _ =>
    readsInside_cons (magic passes) (by have := dosFits passes; omega))
  refine Ends.bind (dos.mono (fun _ h => h) fun _ h => h.2) ?_
  rintro _ ⟨⟨rfl, passes, magic, lfanew⟩, read⟩
  have nt := parseNtHeader_ends.and (parseNtHeader_log read fun nt => readsInside_cons read
    (caught.fits .ntHeader ⟨passes, magic⟩ (not_not.mpr ⟨lfanew, nt⟩)))
  refine Ends.bind (nt.mono (fun _ h => h) fun _ h => h.2) ?_
  rintro _ ⟨⟨rfl, nt, accepted, table⟩, read⟩
  refine parseSectionTable_log rfl read fun block tableEnd => ?_
  have fits : inp.tableOffset b + inp.tableSize b ≤ inp.rawDataSize.toNat :=
    caught.fits .sectionTable ⟨⟨passes, magic, lfanew, nt, accepted, table⟩, block⟩ (not_not.mpr tableEnd)
  have small := b.word_lt inp.rawDataSize
  rw [Nat.mod_eq_of_lt (by omega)]
  exact readsInside_cons read fits

/-- The sections copied from the front of the table are read inside. -/
theorem withSections_reads {calls : Ledger} {before after : List ImageSectionHeader}
    (inside : inp.ReadsInside b ctx'.rawReads) (caught : inp.AllCaught b calls)
    (passes : inp.HeadersPass b) (block : inp.tableBlock b calls ≠ 0)
    (tableEnd : inp.Passes b (inp.tableOffset b + inp.tableSize b)) (image : inp.imageBlock b calls ≠ 0)
    (fit : (inp.ntHeader b).optionalHeader.sizeOfHeaders ≤ (inp.ntHeader b).optionalHeader.sizeOfImage)
    (table : inp.sections b = before ++ after)
    (all : ∀ header ∈ before, inp.SectionPasses b header) :
    inp.ReadsInside b (ctx'.withSections b inp before).rawReads := by
  intro sp read
  rcases mem_withSections_rawReads.mp read with old | ⟨header, member, data, rfl⟩
  · exact inside sp old
  obtain ⟨i, lt, rfl⟩ := List.getElem_of_mem member
  have here : (inp.sections b)[i]? = some before[i] := by
    rw [table, List.getElem?_append_left lt, List.getElem?_eq_getElem lt]
  have front : ∀ header ∈ (inp.sections b).take i, inp.SectionPasses b header := by
    intro header mem
    rw [table, List.take_append_of_le_length (Nat.le_of_lt lt)] at mem
    exact all header (List.mem_of_mem_take mem)
  have uncaught : ¬ (ReadStage.sectionData i).Caught b inp calls := by
    rintro ⟨header, same, outside⟩
    rw [here] at same
    cases same
    exact outside (all _ member)
  have stop := caught.fits (.sectionData i) ⟨passes, block, tableEnd, image, fit, front⟩ uncaught
  simp only [ReadStage.stop, here, Option.elim_some, ImageSectionHeader.rawStop, data, if_false] at stop
  exact inside_of_le stop (b.word_lt inp.rawDataSize)

theorem dllParseFile_reads (inside : inp.ReadsInside b ctx.rawReads)
    (caught : inp.AllCaught b ctx.calls) : Logs (inp.ReadsInside b) (dllParseFile b inp ctx) := by
  have header := dllParseHeader_ends.and (dllParseHeader_reads inside caught)
  refine Ends.bind (cleanUp_log (header.mono (fun _ h => h) fun _ h => h.2)) ?_
  rintro _ ⟨⟨rfl, passes, block, tableEnd⟩, read⟩
  have loaded := (@dllLoadImage_ends b inp _).and (dllLoadImage_log read fun image => readsInside_cons read
    (by rw [Nat.zero_add]; exact caught.fits .headers ⟨passes, block, tableEnd, image⟩ id))
  refine Ends.bind (cleanUp_log (loaded.mono (fun _ h => h) fun _ h => h.2)) ?_
  rintro _ ⟨⟨rfl, image, fit⟩, read⟩
  refine cleanUp_log ((processSections_ends _).mono ?_ ?_)
  · rintro _ ⟨rfl, all⟩
    exact withSections_reads read caught passes block tableEnd image fit (List.append_nil _).symm all
  · rintro _ ⟨before, header, after, table, all, _, rfl⟩
    exact withSections_reads read caught passes block tableEnd image fit table all

/-! ## When a stage is not caught -/

section Uncaught

variable {sp : Span}

theorem loadSections_log (read : sp ∈ ctx.rawReads) :
    Logs (sp ∈ ·) (loadSections b inp ctx) := by
  refine Ends.bind (cleanUp_log (dllLoadImage_log read fun _ => List.mem_cons_of_mem _ read)) ?_
  intro c read
  refine cleanUp_log ((processSections_ends _).mono ?_ ?_)
  · rintro _ ⟨rfl, _⟩
    exact mem_withSections_rawReads.mpr (.inl read)
  · rintro _ ⟨before, _, _, _, _, _, rfl⟩
    exact mem_withSections_rawReads.mpr (.inl read)

theorem dllParseFile_log (read : Logs (sp ∈ ·) (dllParseHeader b inp ctx)) :
    Logs (sp ∈ ·) (dllParseFile b inp ctx) := by
  rw [dllParseFile_eq]
  exact Ends.bind (cleanUp_log read) fun c => loadSections_log

theorem dosHeader_log (passes : inp.Passes b sizeofImageDosHeader)
    (magic : (inp.dosHeader b).eMagic = imageDosSignature) :
    Logs (⟨60, 4⟩ ∈ ·) (dllParseFile b inp ctx) := by
  apply dllParseFile_log
  have dos : Ends (fun r => ⟨60, 4⟩ ∈ r.2.rawReads) (fun c => ⟨60, 4⟩ ∈ c.rawReads)
      (parseDosHeader b inp ctx) := by
    rw [parseDosHeader_eq, if_pos passes, if_pos magic]
    exact .ite (fun _ => List.mem_cons_self) fun _ => List.mem_cons_self
  refine Ends.bind (parseDosHeader_ends.and dos |>.mono (fun _ h => h) fun _ h => h.2) ?_
  rintro _ ⟨⟨rfl, _⟩, read⟩
  have nt := parseNtHeader_ends.and (@parseNtHeader_log b inp _ (⟨60, 4⟩ ∈ ·) read
    fun _ => List.mem_cons_of_mem _ read)
  refine Ends.bind (nt.mono (fun _ h => h) fun _ h => h.2) ?_
  rintro _ ⟨⟨rfl, _⟩, read⟩
  exact parseSectionTable_log rfl read fun _ _ => List.mem_cons_of_mem _ read

theorem ntHeader_log (passes : inp.Passes b sizeofImageDosHeader)
    (magic : (inp.dosHeader b).eMagic = imageDosSignature) (lfanew : inp.Passes b (inp.ntOffset b))
    (nt : inp.Passes b (inp.ntOffset b + sizeofImageNtHeaders32)) :
    Logs (⟨inp.ntOffset b, sizeofImageNtHeaders32⟩ ∈ ·) (dllParseFile b inp ctx) := by
  apply dllParseFile_log
  rw [dllParseHeader_dos passes magic lfanew]
  have read : Ends (fun r => ⟨inp.ntOffset b, sizeofImageNtHeaders32⟩ ∈ r.2.rawReads)
      (fun c => ⟨inp.ntOffset b, sizeofImageNtHeaders32⟩ ∈ c.rawReads)
      (parseNtHeader b inp (inp.ptr b (inp.ntOffset b)) ctx.withDosHeader) := by
    rw [parseNtHeader_eq, if_pos nt]
    cases headerRefusal (inp.ntHeader b) with
    | some status => exact List.mem_cons_self
    | none => exact .ite (fun _ => List.mem_cons_self) fun _ => List.mem_cons_self
  refine Ends.bind (parseNtHeader_ends.and read |>.mono (fun _ h => h) fun _ h => h.2) ?_
  rintro _ ⟨⟨rfl, _⟩, read⟩
  exact parseSectionTable_log rfl read fun _ _ => List.mem_cons_of_mem _ read

theorem headers_log (passes : inp.HeadersPass b) (block : inp.tableBlock b ctx.calls ≠ 0)
    (tableEnd : inp.Passes b (inp.tableOffset b + inp.tableSize b))
    (image : inp.imageBlock b ctx.calls ≠ 0)
    (fit : (inp.ntHeader b).optionalHeader.sizeOfHeaders ≤ (inp.ntHeader b).optionalHeader.sizeOfImage) :
    Logs (⟨0, (inp.ntHeader b).optionalHeader.sizeOfHeaders.toNat⟩ ∈ ·) (dllParseFile b inp ctx) := by
  rw [dllParseFile_sections passes block tableEnd image fit]
  have read : ⟨0, (inp.ntHeader b).optionalHeader.sizeOfHeaders.toNat⟩ ∈
      (((ctx.withHeaders b inp).withTable b inp).withImage b inp).rawReads := List.mem_cons_self
  refine cleanUp_log ((processSections_ends _).mono ?_ ?_)
  · rintro _ ⟨rfl, _⟩
    exact mem_withSections_rawReads.mpr (.inl read)
  · rintro _ ⟨before, _, _, _, _, _, rfl⟩
    exact mem_withSections_rawReads.mpr (.inl read)

/-- The sections up to the `i`-th pass, so that one is copied. -/
theorem sectionData_log {i : Nat} {header : ImageSectionHeader} (passes : inp.HeadersPass b)
    (block : inp.tableBlock b ctx.calls ≠ 0)
    (tableEnd : inp.Passes b (inp.tableOffset b + inp.tableSize b))
    (image : inp.imageBlock b ctx.calls ≠ 0)
    (fit : (inp.ntHeader b).optionalHeader.sizeOfHeaders ≤ (inp.ntHeader b).optionalHeader.sizeOfImage)
    (front : ∀ earlier ∈ (inp.sections b).take i, inp.SectionPasses b earlier)
    (here : (inp.sections b)[i]? = some header) (passing : inp.SectionPasses b header)
    (data : header.sizeOfRawData ≠ 0) :
    Logs (⟨header.pointerToRawData.toNat, header.sizeOfRawData.toNat⟩ ∈ ·) (dllParseFile b inp ctx) := by
  rw [dllParseFile_sections passes block tableEnd image fit]
  refine cleanUp_log ((processSections_copies front here passing).mono ?_ ?_)
  · rintro _ ⟨rfl, member⟩
    exact mem_withSections_rawReads.mpr (.inr ⟨header, member, data, rfl⟩)
  · rintro _ ⟨before, member, rfl⟩
    exact mem_withSections_rawReads.mpr (.inr ⟨header, member, data, rfl⟩)

/-- A pass does not refuse the file as too small at a stage. -/
def SparesAt (stage : ReadStage) (p : Pass) : Prop :=
  Ends (fun _ => True)
    (fun c => ¬ (c.output.status = .fileTooSmall ∧ c.output.context ∈ stage.contexts)) p

theorem SparesAt.cleanUp {stage : ReadStage} {p : Pass} (h : SparesAt stage p) :
    SparesAt stage (cleanUp p) :=
  cleanUp_outcome
    (P := fun status context _ _ => ¬ (status = .fileTooSmall ∧ context ∈ stage.contexts)) h

theorem loadSections_spares {stage : ReadStage} (image : DllLoaderContext.loadImage ∉ stage.contexts)
    (sections : DllLoaderContext.loadSection ∉ stage.contexts) :
    SparesAt stage (loadSections b inp ctx) := by
  have loaded : SparesAt stage (dllLoadImage b inp ctx) := by
    unfold SparesAt
    rw [dllLoadImage_eq]
    exact .ite (fun _ => .ite (fun _ refused => image refused.2) fun _ => trivial)
      fun _ refused => image refused.2
  refine Ends.bind loaded.cleanUp fun c _ => SparesAt.cleanUp ?_
  refine (processSections_ends _).mono (fun _ _ => trivial) ?_
  rintro _ ⟨_, _, _, _, _, _, rfl⟩ refused
  exact sections refused.2

/-- With the table in place, and its bounds check passed when there is a block
for it, only the sections can be found too small. -/
theorem sectionTable_spares {stage : ReadStage} (image : DllLoaderContext.loadImage ∉ stage.contexts)
    (sections : DllLoaderContext.loadSection ∉ stage.contexts) (passes : inp.HeadersPass b)
    (tableEnd : inp.tableBlock b ctx.calls ≠ 0 →
      inp.Passes b (inp.tableOffset b + inp.tableSize b)) :
    SparesAt stage (dllParseFile b inp ctx) := by
  have header : (ctx.withHeaders b inp).output.header = inp.ntHeader b := rfl
  have parsed : SparesAt stage (dllParseHeader b inp ctx) := by
    rw [dllParseHeader_table passes]
    unfold SparesAt
    rw [parseSectionTable_eq header]
    refine .ite (fun block => .ite (fun _ => trivial) fun outside => ?_) fun _ refused => ?_
    · exact absurd (tableEnd block) outside
    · cases refused.1
  rw [dllParseFile_eq]
  exact Ends.bind parsed.cleanUp fun c _ => loadSections_spares image sections

/-- A bad signature is found before anything else. -/
theorem magic_spares {stage : ReadStage} (passes : inp.Passes b sizeofImageDosHeader)
    (magic : (inp.dosHeader b).eMagic ≠ imageDosSignature) : SparesAt stage (dllParseFile b inp ctx) := by
  have parsed : Ends (fun _ => False)
      (fun c => ¬ (c.output.status = .fileTooSmall ∧ c.output.context ∈ stage.contexts))
      (dllParseHeader b inp ctx) := by
    unfold dllParseHeader
    rw [parseDosHeader_eq, if_pos passes, if_neg magic]
    intro refused
    cases refused.1
  rw [dllParseFile_eq]
  exact Ends.bind (cleanUp_outcome
    (P := fun status context _ _ => ¬ (status = .fileTooSmall ∧ context ∈ stage.contexts)) parsed)
    fun _ never => never.elim

/-- Headers that do not fit the image are refused as an error. -/
theorem oversize_spares {stage : ReadStage} (passes : inp.HeadersPass b)
    (block : inp.tableBlock b ctx.calls ≠ 0)
    (tableEnd : inp.Passes b (inp.tableOffset b + inp.tableSize b))
    (image : inp.imageBlock b ctx.calls ≠ 0)
    (beyond : ¬ (inp.ntHeader b).optionalHeader.sizeOfHeaders ≤
      (inp.ntHeader b).optionalHeader.sizeOfImage) : SparesAt stage (dllParseFile b inp ctx) := by
  have loaded : Ends (fun _ => False)
      (fun c => ¬ (c.output.status = .fileTooSmall ∧ c.output.context ∈ stage.contexts))
      (dllLoadImage b inp ((ctx.withHeaders b inp).withTable b inp)) := by
    rw [dllLoadImage_eq]
    refine .ite (fun _ => .ite (fun _ refused => ?_) fun fit => ?_) fun null => ?_
    · cases refused.1
    · exact beyond (UInt32.not_lt.mp fit)
    · exact absurd image null
  rw [dllParseFile_image passes block tableEnd]
  exact Ends.bind (cleanUp_outcome
    (P := fun status context _ _ => ¬ (status = .fileTooSmall ∧ context ∈ stage.contexts)) loaded)
    fun _ never => never.elim

end Uncaught

/-- The loader reads inside the raw file only, and at each stage that leads
outside it fails with `fileTooSmall`. -/
def DllLoaderInput.ReadsSafely (b : Build) (inp : DllLoaderInput) (output : DllLoaderOutput)
    (stale : Bytes) : Prop :=
  Logs (inp.ReadsInside b) (dllParseFile b inp (DllContext.initial output stale).reset) ∧
    ∀ stage : ReadStage, stage.Reached b inp [] → inp.rawDataSize.toNat < stage.stop b inp →
      ∃ c, (∀ budget, dllLoad b inp budget (.initial output stale) = .leave (.error c)) ∧
        c.output.status = .fileTooSmall ∧ c.output.context ∈ stage.contexts

theorem DllLoaderInput.ReadsSafely.not_spared (safe : inp.ReadsSafely b output stale) (stage : ReadStage)
    (reached : stage.Reached b inp []) (outside : inp.rawDataSize.toNat < stage.stop b inp) :
    ¬ SparesAt stage (dllParseFile b inp (DllContext.initial output stale).reset) := by
  intro spares
  obtain ⟨c, load, refused⟩ := safe.2 stage reached outside
  rw [parseFile_of_fileTooSmall (load 0) refused.1] at spares
  exact spares refused

/-- A read that a safe load logs lies within the file. -/
theorem DllLoaderInput.ReadsSafely.fits (safe : inp.ReadsSafely b output stale) {off len : Nat}
    (read : Logs (⟨off, len⟩ ∈ ·) (dllParseFile b inp (DllContext.initial output stale).reset))
    (lt : off < b.space) (some : 0 < len) : off + len ≤ inp.rawDataSize.toNat := by
  obtain ⟨c, mem, inside⟩ := read.meet safe.1
  exact (inside_iff ⟨off, len⟩ lt (b.word_lt inp.rawDataSize) some).mp (inside _ mem)

/-- The loader is safe exactly when at every stage it gets to and that leads
outside the file the moved pointer, wrapped to the address space, is still
past `eof`, and the copied headers end within the file. -/
theorem dllLoad_reads_inside_iff : inp.ReadsSafely b output stale ↔ inp.AllCaught b [] := by
  constructor
  · intro safe stage reached outside
    by_contra uncaught
    cases stage with
    | dosHeader =>
      have passes := not_not.mp uncaught
      by_cases magic : (inp.dosHeader b).eMagic = imageDosSignature
      · have fits := safe.fits (dosHeader_log passes magic) (b.word_lt 60) (by decide)
        exact absurd outside (Nat.not_lt.mpr fits)
      · exact safe.not_spared .dosHeader reached outside (magic_spares passes magic)
    | ntHeader =>
      obtain ⟨passes, magic⟩ := reached
      obtain ⟨lfanew, nt⟩ := not_not.mp uncaught
      have fits := safe.fits (ntHeader_log passes magic lfanew nt) ntOffset_lt (by decide)
      exact absurd outside (Nat.not_lt.mpr fits)
    | optionalHeader =>
      obtain ⟨⟨passes, magic⟩, ⟨lfanew, nt⟩, accepted⟩ := reached
      obtain ⟨table, tableEnd⟩ := not_or.mp uncaught
      have table := not_not.mp table
      refine safe.not_spared .optionalHeader ⟨⟨passes, magic⟩, ⟨lfanew, nt⟩, accepted⟩ outside ?_
      refine sectionTable_spares (by decide) (by decide) ⟨passes, magic, lfanew, nt, accepted, table⟩ ?_
      exact fun block => not_not.mp (not_and.mp tableEnd block)
    | sectionTable =>
      obtain ⟨passes, block⟩ := reached
      refine safe.not_spared .sectionTable ⟨passes, block⟩ outside ?_
      exact sectionTable_spares (by decide) (by decide) passes fun _ => not_not.mp uncaught
    | headers =>
      obtain ⟨passes, block, tableEnd, image⟩ := reached
      by_cases fit : (inp.ntHeader b).optionalHeader.sizeOfHeaders ≤
          (inp.ntHeader b).optionalHeader.sizeOfImage
      · have fits := safe.fits (headers_log passes block tableEnd image fit) b.space_pos
          (Nat.lt_of_le_of_lt (Nat.zero_le _) outside)
        rw [Nat.zero_add] at fits
        exact absurd outside (Nat.not_lt.mpr fits)
      · exact safe.not_spared .headers ⟨passes, block, tableEnd, image⟩ outside
          (oversize_spares passes block tableEnd image fit)
    | sectionData i =>
      obtain ⟨passes, block, tableEnd, image, fit, front⟩ := reached
      cases here : (inp.sections b)[i]? with
      | none => simp [ReadStage.stop, here] at outside
      | some header =>
        by_cases data : header.sizeOfRawData = 0
        · simp [ReadStage.stop, here, ImageSectionHeader.rawStop, data] at outside
        · have passing : inp.SectionPasses b header := by
            by_contra fails
            exact uncaught ⟨header, here, fails⟩
          have fits := safe.fits (sectionData_log passes block tableEnd image fit front here passing data)
            (b.word_lt _) (Nat.pos_of_ne_zero fun zero => data (UInt32.toNat_inj.mp zero))
          simp only [ReadStage.stop, here, Option.elim_some, ImageSectionHeader.rawStop, data,
            if_false] at outside
          exact absurd outside (Nat.not_lt.mpr fits)
  · intro caught
    refine ⟨dllParseFile_reads (by simp [DllLoaderInput.ReadsInside, DllContext.reset, DllContext.initial])
      caught, fun stage reached outside => ?_⟩
    have fails : FailsAt stage (dllParseFile b inp (DllContext.initial output stale).reset) :=
      failsAt_of_caught reached (caught stage reached outside)
    cases parsed : dllParseFile b inp (DllContext.initial output stale).reset with
    | ok c => rw [parsed] at fails; exact fails.elim
    | error c =>
      rw [parsed] at fails
      exact ⟨c, dllLoad_of_parseFile parsed, fails⟩

/-- A file of `0x138` bytes whose header area is said to be `0x1000` long. -/
def shortFile : DllLoaderInput := fileOf (headerWords 0 0x30000 0x1000 0x1000 0x1234) 0x138 0x30000

theorem shortFile_reads_past_eof : ¬ shortFile.ReadsSafely .target {} fun _ => 0 := by
  rintro ⟨inside, _⟩
  have run : (dllParseFile .target shortFile (DllContext.initial {} fun _ => 0).reset).toOption.map
      (fun c => decide (⟨0, 0x1000⟩ ∈ c.rawReads)) = some true := by decide +kernel
  cases parsed : dllParseFile .target shortFile (DllContext.initial {} fun _ => 0).reset with
  | error c => rw [parsed] at run; cases run
  | ok c =>
    rw [parsed] at run inside
    have read : ⟨0, 0x1000⟩ ∈ c.rawReads := of_decide_eq_true (Option.some.inj run)
    exact absurd (inside _ read 0x138 (by decide)) (by decide)

end Dyndxt.Loader
