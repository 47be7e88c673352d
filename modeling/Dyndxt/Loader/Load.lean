import Dyndxt.Loader.FilePasses

/-!
# What `DLLLoad` promises

The passes put together: one lemma says what a load that returned true leaves
behind, and that one that returned false has given everything back. The
contract on statuses and blocks and the entrypoint follow.
-/

namespace Dyndxt.Loader
open Dyndxt.Mem Dyndxt.Pool Dyndxt.Run

/-- A context given to `DLLLoad`: what its output holds is anything, and so is
what the image block will. -/
def DllContext.initial (output : DllLoaderOutput) (stale : Bytes) : DllContext :=
  { output, image := stale }

/-- A load that has returned true, over the allocator calls made before it. -/
structure Loaded (b : Build) (inp : DllLoaderInput) (calls : Ledger) (ctx : DllContext) : Prop where
  passes : inp.FilePasses b calls
  owns : Owns (live calls) ctx
  status : ctx.output.status = .ok
  sectionHeaders : ctx.output.sectionHeaders = inp.tableBlock b calls
  imagePtr : ctx.output.image = inp.imageBlock b calls
  header : ctx.output.header = { inp.ntHeader b with
    optionalHeader.imageBase := .ofNat (inp.imageBlock b calls) }
  entrypoint : ctx.output.entrypoint =
    if .ofNat (inp.imageBlock b calls) = (inp.ntHeader b).optionalHeader.imageBase then 0
    else .ofNat (inp.imageBlock b calls) + (inp.ntHeader b).optionalHeader.addressOfEntryPoint

variable {b : Build} {inp : DllLoaderInput} {ctx ctx' : DllContext} {budget : Nat} {r : Pass}
  {held : List Nat} {output : DllLoaderOutput} {stale : Bytes}

/-- The context as `DLLParse` resets it. -/
def DllContext.reset (ctx : DllContext) : DllContext := { ctx with output := {} }

theorem dllParse_ends (h : dllParse b inp budget ctx = .leave r) (clean : Clean ctx.calls) :
    Ends (fun c => Kept (ctx.reset.fileParsed b inp) c ∧ inp.FilePasses b ctx.calls ∧
        Owns (live ctx.calls) c)
      (CleanedUp (live ctx.calls)) r := by
  have owns : Owns (live ctx.calls) ctx.reset := ⟨clean, rfl⟩
  have file := @dllParseFile_ends b inp _ _ owns rfl rfl
  have fold : ({ ctx.setErrorContext .notParsed with output := {} } : DllContext) = ctx.reset := rfl
  simp only [dllParse, fold] at h
  cases parsed : dllParseFile b inp ctx.reset with
  | error c =>
    rw [parsed] at h file
    cases h
    exact file
  | ok c =>
    rw [parsed] at h file
    obtain ⟨rfl, passes, owns⟩ := file
    simp only at h
    cases resolved : dllResolveImports b inp budget (ctx.reset.fileParsed b inp) with
    | again c => rw [resolved] at h; cases h
    | leave r =>
      rw [resolved] at h
      cases h
      refine (cleanUp_ends ((dllResolveImports_ends resolved).mono (fun _ kept => kept) ?_)).mono
        (fun c kept => ⟨kept, passes, owns.same kept.toSameBlocks⟩) fun _ clean => clean
      rintro c ⟨frame, refusal⟩
      refine ⟨?_, owns.same frame.toSameBlocks⟩
      rcases refusal with status | status <;> rw [status] <;> decide

/-- What a context framed by the file passes has on its output. -/
theorem Kept.loaded (kept : Kept (ctx.reset.fileParsed b inp) ctx') :
    ctx'.output.status = .ok ∧ ctx'.output.sectionHeaders = inp.tableBlock b ctx.calls ∧
      ctx'.output.image = inp.imageBlock b ctx.calls ∧ ctx'.output.header = inp.ntHeader b ∧
      ctx'.output.entrypoint = 0 := by
  have sections := (kept_withSections _).trans kept
  exact ⟨sections.status, sections.sectionHeaders, sections.imagePtr, sections.header,
    sections.entrypoint⟩

theorem dllLoad_ends (h : dllLoad b inp budget ctx = .leave r) (clean : Clean ctx.calls) :
    Ends (Loaded b inp ctx.calls) (CleanedUp (live ctx.calls)) r := by
  unfold dllLoad at h
  cases parsed : dllParse b inp budget ctx with
  | again c => rw [parsed] at h; cases h
  | leave p =>
    have file := dllParse_ends parsed clean
    rw [parsed] at h
    cases p with
    | error c => cases h; exact file
    | ok c =>
      obtain ⟨kept, passes, owns⟩ := file
      obtain ⟨status, table, image, header, entry⟩ := kept.loaded
      simp only at h
      cases moved : dllRelocate b budget (.ofNat c.output.image) c with
      | again c => rw [moved] at h; cases h
      | leave p =>
        rw [moved] at h
        cases h
        have ends := dllRelocate_ends moved
        rw [header, image] at ends
        refine cleanUp_ends (ends.mono ?_ ?_)
        · rintro c' (⟨same, rfl⟩ | ⟨differs, c', moved, rfl⟩)
          · refine ⟨passes, owns.same ⟨rfl, rfl, rfl⟩, status, table, image, ?_, ?_⟩
            · rw [same]; exact header
            · rw [if_pos same]; exact entry
          · have kept := moved.toFrame
            refine ⟨passes, owns.same ⟨kept.sectionHeaders, kept.imagePtr, kept.calls⟩,
              moved.status.trans status, kept.sectionHeaders.trans table, kept.imagePtr.trans image,
              ?_, ?_⟩
            · simp only [rebased, kept.header, header]
            · simp only [rebased, kept.header, header, if_neg differs]
        · rintro c' ⟨frame, refusal⟩
          refine ⟨?_, owns.same frame.toSameBlocks⟩
          rcases refusal with status | status <;> rw [status] <;> decide

/-- A load that fails in the file passes fails on every budget. -/
theorem dllLoad_of_parseFile {c : DllContext} (failed : dllParseFile b inp ctx.reset = .error c)
    (budget : Nat) : dllLoad b inp budget ctx = .leave (.error c) := by
  have fold : ({ ctx.setErrorContext .notParsed with output := {} } : DllContext) = ctx.reset := rfl
  simp only [dllLoad, dllParse, fold, failed]

/-- A load that returned false was refused by the file passes, the import pass
or the relocation pass. -/
theorem dllLoad_refusal {c : DllContext} (h : dllLoad b inp budget ctx = .leave (.error c)) :
    dllParseFile b inp ctx.reset = .error c ∨ ImportRefusal c.output.status ∨
      RelocRefusal c.output.status := by
  have fold : ({ ctx.setErrorContext .notParsed with output := {} } : DllContext) = ctx.reset := rfl
  simp only [dllLoad, dllParse, fold] at h
  cases parsed : dllParseFile b inp ctx.reset with
  | error c' => rw [parsed] at h; cases h; exact .inl rfl
  | ok c' =>
    rw [parsed] at h
    simp only at h
    cases resolved : dllResolveImports b inp budget c' with
    | again c' => rw [resolved] at h; cases h
    | leave p =>
      have imports := dllResolveImports_ends resolved
      rw [resolved] at h
      cases p with
      | error c' =>
        cases h
        rw [dllFreeContext_status]
        exact .inr (.inl imports.2)
      | ok c' =>
        simp only [cleanUp] at h
        cases moved : dllRelocate b budget (.ofNat c'.output.image) c' with
        | again c' => rw [moved] at h; cases h
        | leave p =>
          have relocs := dllRelocate_ends moved
          rw [moved] at h
          cases p with
          | ok c' => cases h
          | error c' =>
            cases h
            rw [dllFreeContext_status]
            exact .inr (.inr relocs.2)

/-- The words of the headers of a file with `e_lfanew` 64, an i386 machine
type and a dynamic base. -/
def headerWords (numSections imageBase sizeOfImage sizeOfHeaders entryPoint : UInt32) :
    List (Nat × UInt32) :=
  [(0, 0x5A4D), (60, 64), (64, 0x4550), (68, 0x14C + 0x10000 * numSections), (84, 224), (104, entryPoint),
    (116, imageBase), (144, sizeOfImage), (148, sizeOfHeaders), (156, 0x400000)]

/-- A file at address `0x10000`, loaded with the section headers at `0x8000`
and the image at `base`, and with every import resolved. -/
def fileOf (words : List (Nat × UInt32)) (rawDataSize : UInt32) (base : Nat) : DllLoaderInput where
  rawData := 0x10000
  raw := ofWords words
  rawDataSize
  alloc calls _ := if calls.isEmpty then 0x8000 else base
  resolveImportByOrdinal _ _ ordinal := ⟨true, some (0xA0000 + ordinal)⟩
  resolveImportByName queries _ _ := ⟨true, some (0xB0000 + .ofNat queries.length)⟩

/-- A load's final context, if it has returned true. -/
def loaded? : Turn DllContext Pass → Option DllContext
  | .leave (.ok ctx) => some ctx
  | _ => none

theorem loaded?_eq {t : Turn DllContext Pass} {α : Type} {f : DllContext → α} {a : α}
    (h : (loaded? t).map f = some a) : ∃ c, t = .leave (.ok c) ∧ f c = a := by
  cases t with
  | again c => cases h
  | leave r =>
    cases r with
    | error c => cases h
    | ok c => exact ⟨c, rfl, Option.some.inj h⟩

/-! ## Statuses and blocks -/

/-- Repeated releases free what the output still points to, once. -/
theorem freeAgain_calls (more : List Bool) (none : ctx.output.sectionHeaders = 0) :
    (more.foldl dllFreeContext ctx).calls =
      (if ctx.output.image ≠ 0 ∧ false ∈ more then [.free ctx.output.image] else []) ++ ctx.calls := by
  induction more generalizing ctx with
  | nil => simp
  | cons keepImage more ih =>
    rw [List.foldl_cons, ih (dllFreeContext_sectionHeaders keepImage)]
    by_cases kept : keepImage = true ∨ ctx.output.image = 0
    · rw [dllFreeContext_none none keepImage kept]
      rcases kept with rfl | noImage
      · simp
      · simp [noImage]
    · obtain ⟨rfl, some⟩ : keepImage = false ∧ ctx.output.image ≠ 0 := by simpa using kept
      rw [dllFreeContext_image none some]
      simp [some]

theorem Owns.freeAgain (owns : Owns held ctx) (more : List Bool) :
    Owns held (more.foldl dllFreeContext ctx) := by
  induction more generalizing ctx with
  | nil => exact owns
  | cons keepImage more ih => exact ih (owns.free keepImage)

/-- The release that follows a load: the section headers, and the image unless
it is kept. -/
theorem dllFreeContext_calls (table : ctx.output.sectionHeaders ≠ 0) (image : ctx.output.image ≠ 0)
    (keepImage : Bool) : (dllFreeContext ctx keepImage).calls =
      (if keepImage then [] else [.free ctx.output.image]) ++
        .free ctx.output.sectionHeaders :: ctx.calls := by
  cases keepImage <;> simp [dllFreeContext, table, image, DllContext.callFree]

/-- A load returns true exactly with status `ok`. Returning false it leaves no
block pointed to, and has returned each block it obtained as often as it
obtained it; returning true it has exactly two blocks live, which the caller's
first release and those after it return at most once each. -/
theorem dllLoad_accounts (h : dllLoad b inp budget (.initial output stale) = .leave r) :
    Ends
      (fun c => c.output.status = .ok ∧ c.output.image ≠ 0 ∧ c.output.sectionHeaders ≠ 0 ∧
        Clean c.calls ∧ live c.calls = [c.output.image, c.output.sectionHeaders] ∧
        ∀ keepImage : Bool,
          (dllFreeContext c keepImage).calls =
            (if keepImage then [] else [.free c.output.image]) ++
              .free c.output.sectionHeaders :: c.calls ∧
          ∀ more : List Bool,
            (more.foldl dllFreeContext (dllFreeContext c keepImage)).calls =
              (if keepImage ∧ false ∈ more then [.free c.output.image] else []) ++
                (dllFreeContext c keepImage).calls ∧
            Clean (more.foldl dllFreeContext (dllFreeContext c keepImage)).calls)
      (fun c => c.output.status ≠ .ok ∧ c.output.sectionHeaders = 0 ∧ c.output.image = 0 ∧
        Clean c.calls ∧ live c.calls = [] ∧ ∀ ptr ≠ 0, frees ptr c.calls = allocs ptr c.calls) r := by
  refine (dllLoad_ends h clean_nil).mono ?_ ?_
  · intro c loaded
    have image : c.output.image ≠ 0 := loaded.imagePtr ▸ loaded.passes.imageBlock
    have table : c.output.sectionHeaders ≠ 0 := loaded.sectionHeaders ▸ loaded.passes.tableBlock
    have live := loaded.owns.live
    simp only [DllLoaderOutput.blocks, image, table, ne_eq, not_false_iff, if_true] at live
    refine ⟨loaded.status, image, table, loaded.owns.clean, live, fun keepImage => ?_⟩
    refine ⟨dllFreeContext_calls table image keepImage, fun more => ⟨?_, ?_⟩⟩
    · rw [freeAgain_calls more (dllFreeContext_sectionHeaders keepImage)]
      cases keepImage with
      | true => simp [dllFreeContext_true table, image]
      | false => simp [dllFreeContext_imagePtr]
    · exact ((loaded.owns.free keepImage).freeAgain more).clean
  · intro c cleaned
    have live := cleaned.owns.live
    simp only [DllLoaderOutput.blocks, cleaned.imagePtr, cleaned.sectionHeaders, ne_eq, not_true,
      if_false] at live
    refine ⟨cleaned.status, cleaned.sectionHeaders, cleaned.imagePtr, cleaned.owns.clean, live, ?_⟩
    intro ptr some
    have settled := Clean.settled clean_nil cleaned.owns.clean live some
    simpa [allocs, frees] using settled

/-- A file without sections, imports or relocations, for base `0x30000` and
loaded there. -/
def emptyDll : DllLoaderInput := fileOf (headerWords 0 0x30000 0x138 0x138 0x1234) 0x138 0x30000

/-- A file with two sections, `.text` of 8 bytes and `.data` of 4. -/
def sectionsDll : DllLoaderInput :=
  fileOf (headerWords 2 0x30000 0x300 0x188 0x200 ++
    [(312, 0x7865742E), (316, 0x74), (320, 8), (324, 0x200), (328, 8), (332, 0x188),
      (352, 0x7461642E), (356, 0x61), (360, 4), (364, 0x280), (368, 4), (372, 0x190),
      (0x188, 0xC3), (0x190, 0x12345678)]) 0x194 0x30000

theorem sectionsDll_accounts : ∃ c, dllLoad .target sectionsDll 0 (.initial {} fun _ => 0) = .leave (.ok c) ∧
    c.output.status = .ok ∧ live c.calls = [c.output.image, c.output.sectionHeaders] := by
  have run : (loaded? (dllLoad .target sectionsDll 0 (.initial {} fun _ => 0))).map (·.output.image) =
      some 0x30000 := by decide +kernel
  obtain ⟨c, h, _⟩ := loaded?_eq run
  have accounts := dllLoad_accounts h
  exact ⟨c, h, accounts.1, accounts.2.2.2.2.1⟩

/-! ## The entrypoint -/

/-- A load that returns true has left the DLL's entrypoint on the output
exactly when the image block is not at the file's own image base (or the
entrypoint is address `0`): at that base the relocation pass returns before it
sets one. -/
theorem dllLoad_entrypoint_iff {c : DllContext}
    (h : dllLoad b inp budget (.initial output stale) = .leave (.ok c)) :
    c.output.entrypoint =
        .ofNat c.output.image + c.output.header.optionalHeader.addressOfEntryPoint ↔
      (inp.ntHeader b).optionalHeader.imageBase ≠ .ofNat (inp.imageBlock b []) ∨
        (inp.ntHeader b).optionalHeader.imageBase +
          (inp.ntHeader b).optionalHeader.addressOfEntryPoint = 0 := by
  have loaded : Loaded b inp [] c := dllLoad_ends h clean_nil
  rw [loaded.entrypoint, loaded.imagePtr, loaded.header]
  by_cases same : (.ofNat (inp.imageBlock b []) : UInt32) = (inp.ntHeader b).optionalHeader.imageBase
  · rw [if_pos same, same]
    simp [eq_comm]
  · rw [if_neg same]
    simp [Ne.symm same]

/-- The same file with an empty relocation table, loaded at `0x40000`. -/
def movedDll : DllLoaderInput :=
  fileOf (headerWords 0 0x30000 0x138 0x138 0x1234 ++ [(224, 0x100), (228, 8)]) 0x138 0x40000

theorem movedDll_entrypoint : ∃ c, dllLoad .target movedDll 1 (.initial {} fun _ => 0) = .leave (.ok c) ∧
    c.output.entrypoint =
      .ofNat c.output.image + c.output.header.optionalHeader.addressOfEntryPoint := by
  have run : (loaded? (dllLoad .target movedDll 1 (.initial {} fun _ => 0))).map (·.output.image) =
      some 0x40000 := by decide +kernel
  obtain ⟨c, h, _⟩ := loaded?_eq run
  exact ⟨c, h, (dllLoad_entrypoint_iff h).mpr (.inl (by decide +kernel))⟩

/-- The file loaded at its own image base has its entrypoint left `0`. -/
theorem emptyDll_entrypoint_lost :
    ∃ c, dllLoad .target emptyDll 0 (.initial {} fun _ => 0) = .leave (.ok c) ∧
      c.output.entrypoint ≠
        .ofNat c.output.image + c.output.header.optionalHeader.addressOfEntryPoint := by
  have run : (loaded? (dllLoad .target emptyDll 0 (.initial {} fun _ => 0))).map (fun c =>
      decide (c.output.entrypoint =
        .ofNat c.output.image + c.output.header.optionalHeader.addressOfEntryPoint)) = some false := by
    decide +kernel
  obtain ⟨c, h, differs⟩ := loaded?_eq run
  exact ⟨c, h, of_decide_eq_false differs⟩

end Dyndxt.Loader
