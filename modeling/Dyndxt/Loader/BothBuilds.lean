import Dyndxt.Loader.WellFormed
import Dyndxt.Mem.Spaces

/-!
# One file on both builds

A DLL that is well-formed for the target is well-formed on the host as well:
its headers, its tables and the image that it lays out lie below the top of the
smaller address space.
-/

namespace Dyndxt.Loader
open Dyndxt.Mem

/-! ## Headers -/

section Readers

variable {M M' hi p : Nat} {m m' : Bytes}

theorem ImageDosHeader.read_space (same : SameOn 0 hi m m') (top : hi ≤ M) (le : M ≤ M') (high : p + 64 ≤ hi) :
    ImageDosHeader.read M' m' p = ImageDosHeader.read M m p := by
  have magic := same.u16_space (p := p) (Nat.zero_le _) top le (by omega)
  have lfanew := same.u32_space (p := p + 60) (Nat.zero_le _) top le (by omega)
  rw [ImageDosHeader.read, ImageDosHeader.read, magic, lfanew]

theorem ImageDataDirectory.read_space (same : SameOn 0 hi m m') (top : hi ≤ M) (le : M ≤ M') (high : p + 8 ≤ hi) :
    ImageDataDirectory.read M' m' p = ImageDataDirectory.read M m p := by
  have address := same.u32_space (p := p) (Nat.zero_le _) top le (by omega)
  have size := same.u32_space (p := p + 4) (Nat.zero_le _) top le (by omega)
  rw [ImageDataDirectory.read, ImageDataDirectory.read, address, size]

theorem ImageNtHeaders32.read_space (same : SameOn 0 hi m m') (top : hi ≤ M) (le : M ≤ M') (high : p + 248 ≤ hi) :
    ImageNtHeaders32.read M' m' p = ImageNtHeaders32.read M m p := by
  have byte (q : Nat) (inside : q < p + 248) : m' (q % M') = m (q % M) :=
    same.byte_space (Nat.zero_le _) top le (by omega)
  have half (q : Nat) (inside : q + 2 ≤ p + 248) : u16 M' m' q = u16 M m q :=
    same.u16_space (Nat.zero_le _) top le (by omega)
  have word (q : Nat) (inside : q + 4 ≤ p + 248) : u32 M' m' q = u32 M m q :=
    same.u32_space (Nat.zero_le _) top le (by omega)
  have directory (i : Fin 16) : ImageDataDirectory.read M' m' (p + 24 + 96 + 8 * i) =
      ImageDataDirectory.read M m (p + 24 + 96 + 8 * i) :=
    ImageDataDirectory.read_space same top le (by have := i.isLt; omega)
  simp (disch := omega) only [ImageNtHeaders32.read, ImageFileHeader.read, ImageOptionalHeader32.read, byte, half, word,
    directory]

theorem ImageSectionHeader.read_space (same : SameOn 0 hi m m') (top : hi ≤ M) (le : M ≤ M') (high : p + 40 ≤ hi) :
    ImageSectionHeader.read M' m' p = ImageSectionHeader.read M m p := by
  have half (q : Nat) (inside : q + 2 ≤ p + 40) : u16 M' m' q = u16 M m q :=
    same.u16_space (Nat.zero_le _) top le (by omega)
  have word (q : Nat) (inside : q + 4 ≤ p + 40) : u32 M' m' q = u32 M m q :=
    same.u32_space (Nat.zero_le _) top le (by omega)
  have name : ((List.range 8).map fun i => m' ((p + i) % M')) = (List.range 8).map fun i => m ((p + i) % M) :=
    List.map_congr_left fun i listed => by
      have := List.mem_range.mp listed
      exact same.byte_space (Nat.zero_le _) top le (by omega)
  simp (disch := omega) only [ImageSectionHeader.read, name, half, word]

theorem ImageSectionHeader.readTable_space {n : Nat} (same : SameOn 0 hi m m') (top : hi ≤ M) (le : M ≤ M')
    (high : p + n * sizeofImageSectionHeader ≤ hi) :
    ImageSectionHeader.readTable M' m' p n = ImageSectionHeader.readTable M m p n :=
  List.map_congr_left fun i listed => by
    have lt := List.mem_range.mp listed
    unfold sizeofImageSectionHeader at high ⊢
    exact ImageSectionHeader.read_space same top le (by omega)

end Readers

/-! ## Tables -/

section Tables

variable {M M' p : Nat} {m m' : Bytes} {ds : List ImportModule} {blocks : List RelocBlock} (same : SameOn 0 M m m')
  (le : M ≤ M')

include same le

theorem RelocTableAt.space (table : RelocTableAt M m p blocks) (fits : relocTableEnd p blocks ≤ M) :
    RelocTableAt M' m' p blocks := by
  induction blocks generalizing p with
  | nil => exact (same.u32_space (Nat.zero_le p) (Nat.le_refl M) le fits).trans table
  | cons block blocks ih =>
    obtain ⟨address, size, entries, rest⟩ := table
    have room : p + block.size + 4 ≤ relocTableEnd (p + block.size) blocks := le_relocTableEnd
    have length : block.size = 8 + 2 * block.entries.length := rfl
    have fits : relocTableEnd (p + block.size) blocks ≤ M := fits
    refine ⟨?_, ?_, ?_, ih rest fits⟩
    · exact (same.u32_space (Nat.zero_le p) (Nat.le_refl M) le (by omega)).trans address
    · rw [same.u32_space (Nat.zero_le _) (Nat.le_refl M) le (by omega)]
      exact size
    · intro i lt
      rw [same.u16_space (Nat.zero_le _) (Nat.le_refl M) le (by omega)]
      exact entries i lt

theorem strAt_space {s : List UInt8} (string : StrAt M m p s) : StrAt M' m' p s :=
  string.space (same.mono (Nat.zero_le p) string.fits) le

theorem ThunksAt.space {entries : List ImportEntry} (thunks : ThunksAt M m p entries)
    (fits : p + 4 * (entries.length + 1) ≤ M) : ThunksAt M' m' p entries := by
  induction entries generalizing p with
  | nil => exact (same.u32_space (Nat.zero_le p) (Nat.le_refl M) le fits).trans thunks
  | cons e entries ih =>
    obtain ⟨⟨thunk, nonzero, name⟩, rest⟩ := thunks
    rw [List.length_cons] at fits
    refine ⟨⟨?_, nonzero, fun byName => strAt_space same le (name byName)⟩, ih rest (by omega)⟩
    exact (same.u32_space (Nat.zero_le p) (Nat.le_refl M) le (by omega)).trans thunk

theorem ImportTableAt.space (table : ImportTableAt M m p ds) (fits : ∀ sp ∈ importReads p ds, sp.off + sp.len ≤ M) :
    ImportTableAt M' m' p ds := by
  have descriptors : p + (sizeofImageImportDescriptor * ds.length + 16) ≤ M := fits _ List.mem_cons_self
  unfold sizeofImageImportDescriptor at descriptors
  induction ds generalizing p with
  | nil => exact (same.u32_space (Nat.zero_le _) (Nat.le_refl M) le (by simpa using descriptors)).trans table
  | cons d ds ih =>
    obtain ⟨⟨⟨originalFirstThunk, forwarderChain, name, named, firstThunk⟩, imageName, thunks⟩, rest⟩ := table
    rw [List.length_cons] at descriptors
    have word {q : Nat} (high : q + 4 ≤ p + 20) : u32 M' m' q = u32 M m q :=
      same.u32_space (Nat.zero_le q) (Nat.le_refl M) le (by omega)
    have reads : ∀ sp ∈ d.reads, sp.off + sp.len ≤ M := fun sp listed =>
      fits sp (List.mem_cons_of_mem _ (List.mem_flatMap.mpr ⟨d, List.mem_cons_self, listed⟩))
    have last : d.thunks + 4 * (d.imports.length + 1) ≤ M := by
      have read := reads _ (List.mem_cons_of_mem _ List.mem_cons_self)
      unfold ImportModule.thunks
      split at read
      · next own => rwa [if_pos own]
      · next shared =>
        rw [if_neg shared]
        dsimp only at read
        omega
    refine ⟨⟨⟨?_, ?_, ?_, named, ?_⟩, strAt_space same le imageName, thunks.space same le last⟩, ih rest (fun sp listed => ?_) ?_⟩
    · rw [word (by omega), originalFirstThunk]
    · rw [word (by omega), forwarderChain]
    · rw [word (by omega), name]
    · rw [word (by omega), firstThunk]
    · obtain ⟨sp', listed, within⟩ := @importReads_tail p d ds sp listed
      exact Nat.le_trans within.2 (fits sp' listed)
    · unfold sizeofImageImportDescriptor
      omega

end Tables

/-! ## The file -/

/-- The same file and the same answers, wherever the file lies and whatever the
pool does. -/
structure SameFile (inp inp' : DllLoaderInput) : Prop where
  size : inp'.rawDataSize = inp.rawDataSize
  raw : SameOn 0 inp.rawDataSize.toNat inp.raw inp'.raw
  byOrdinal : inp'.resolveImportByOrdinal = inp.resolveImportByOrdinal
  byName : inp'.resolveImportByName = inp.resolveImportByName

/-- A file with the resolvers of another load. -/
def DllLoaderInput.resolvedBy (inp inp' : DllLoaderInput) : DllLoaderInput :=
  { inp with
    resolveImportByOrdinal := inp'.resolveImportByOrdinal
    resolveImportByName := inp'.resolveImportByName }

variable {b : Build} {inp inp' : DllLoaderInput} {ds : List ImportModule} {blocks : List RelocBlock} {a : Nat}
  {sp : Span}

/-- Whether a file is well-formed is not the resolvers' affair. -/
theorem DllLoaderInput.WellFormed.resolvedBy (wf : inp.WellFormed b ds blocks) (inp' : DllLoaderInput) :
    (inp.resolvedBy inp').WellFormed b ds blocks := by
  cases wf
  constructor <;> assumption

theorem SameFile.resolveAll (file : SameFile inp inp') (asked : List Query) (imports : List (Nat × Query)) :
    inp'.resolveAll asked imports = inp.resolveAll asked imports := by
  have answer (asked : List Query) (query : Query) : inp'.answer asked query = inp.answer asked query := by
    unfold DllLoaderInput.answer
    cases query with
    | byOrdinal image ordinal => rw [file.byOrdinal]
    | byName image name => rw [file.byName]
  induction imports generalizing asked with
  | nil => rfl
  | cons slot imports ih =>
    obtain ⟨slot, query⟩ := slot
    simp only [DllLoaderInput.resolveAll, answer, ih]

theorem rawDataSize_le : inp.rawDataSize.toNat ≤ Build.target.space := Nat.le_of_lt (Build.target.word_lt _)

namespace SameFile

variable (file : SameFile inp inp') (wf : inp.WellFormed .target ds blocks)

include wf

theorem peTable_le : inp.peOffset .target + 248 ≤ inp.peTable .target ∧ inp.peTable .target ≤ inp.rawDataSize.toNat := by
  have table := wf.tableInFile
  have optional := wf.optionalHeader
  unfold sizeofImageOptionalHeader32 at optional
  unfold DllLoaderInput.peTable at table ⊢
  omega

include file

theorem dosHeader : inp'.dosHeader b = inp.dosHeader .target := by
  have lfanew := wf.lfanew.1
  have table := peTable_le wf
  unfold sizeofImageDosHeader at lfanew
  exact ImageDosHeader.read_space file.raw rawDataSize_le b.space_ge (by omega)

theorem peOffset : inp'.peOffset b = inp.peOffset .target := by
  rw [DllLoaderInput.peOffset, DllLoaderInput.peOffset, file.dosHeader wf]

theorem peHeader : inp'.peHeader b = inp.peHeader .target := by
  have table := peTable_le wf
  rw [DllLoaderInput.peHeader, DllLoaderInput.peHeader, file.peOffset wf]
  exact ImageNtHeaders32.read_space file.raw rawDataSize_le b.space_ge (by omega)

theorem peTable : inp'.peTable b = inp.peTable .target := by
  rw [DllLoaderInput.peTable, DllLoaderInput.peTable, file.peOffset wf, file.peHeader wf]

theorem peSections : inp'.peSections b = inp.peSections .target := by
  rw [DllLoaderInput.peSections, DllLoaderInput.peSections, file.peTable wf, file.peHeader wf]
  exact ImageSectionHeader.readTable_space file.raw rawDataSize_le b.space_ge wf.tableInFile

theorem peDirectory (entry : Fin 16) : inp'.peDirectory b entry = inp.peDirectory .target entry := by
  rw [DllLoaderInput.peDirectory, DllLoaderInput.peDirectory, file.peHeader wf]

theorem peSize : inp'.peSize b = inp.peSize .target := by
  rw [DllLoaderInput.peSize, DllLoaderInput.peSize, file.peHeader wf]

theorem peCopies : inp'.peCopies b = inp.peCopies .target := by
  rw [DllLoaderInput.peCopies, DllLoaderInput.peCopies, file.peHeader wf, file.peSections wf]

theorem peByte (lt : a < Build.target.space) : inp'.peByte b a = inp.peByte .target a := by
  rw [DllLoaderInput.peByte, DllLoaderInput.peByte, file.peCopies wf]
  exact copiedByte_space file.raw rawDataSize_le b.space_ge lt wf.copy_fits wf.inFile

theorem laidOut (stale : Bytes) : SameOn 0 Build.target.space (inp.laidOut .target stale) (inp'.laidOut b stale) := by
  intro a _ lt
  rw [DllLoaderInput.laidOut, DllLoaderInput.laidOut, file.peByte wf lt]

theorem filled (filled : inp.Filled .target sp) : inp'.Filled b sp := by
  obtain ⟨inImage, bytes⟩ := filled
  have small := @peSize_lt .target inp
  refine ⟨by rwa [file.peSize wf], fun i lt => ?_⟩
  rw [file.peByte wf (by omega)]
  exact bytes i lt

theorem relocSpan : inp'.relocSpan b blocks = inp.relocSpan .target blocks := by
  rw [DllLoaderInput.relocSpan, DllLoaderInput.relocSpan, file.peDirectory wf]

/-- A file that is well-formed for the target is well-formed on both builds. -/
theorem wellFormed (room : inp'.rawData + inp'.rawDataSize.toNat < b.space) : inp'.WellFormed b ds blocks := by
  have small := @peSize_lt .target inp
  have le := b.space_ge
  constructor
  case inSpace => exact room
  case magic => rw [file.dosHeader wf]; exact wf.magic
  case lfanew => rw [file.peOffset wf]; exact wf.lfanew
  case signature => rw [file.peHeader wf]; exact wf.signature
  case machine => rw [file.peHeader wf]; exact wf.machine
  case dynamicBase => rw [file.peHeader wf]; exact wf.dynamicBase
  case optionalHeader => rw [file.peHeader wf]; exact wf.optionalHeader
  case tableInFile => rw [file.peTable wf, file.peHeader wf, file.size]; exact wf.tableInFile
  case inFile => rw [file.peCopies wf, file.size]; exact wf.inFile
  case inImage => rw [file.peCopies wf, file.peSize wf]; exact wf.inImage
  case disjoint => rw [file.peCopies wf]; exact wf.disjoint
  case noImports => rw [file.peDirectory wf]; exact wf.noImports
  case imports =>
    rw [file.peDirectory wf]
    intro some
    refine (wf.imports some).space (file.laidOut wf _) le fun sp listed => ?_
    have inImage := (wf.importsFilled some sp listed).1
    omega
  case importsFilled =>
    rw [file.peDirectory wf]
    exact fun some sp listed => file.filled wf (wf.importsFilled some sp listed)
  case slotsHeld => rw [file.peSections wf]; exact wf.slotsHeld
  case slotsApart => exact wf.slotsApart
  case slotsClear => rw [file.peDirectory wf]; exact wf.slotsClear
  case relocDirectory => rw [file.peDirectory wf]; exact wf.relocDirectory
  case blocksOk => exact wf.blocksOk
  case relocs =>
    rw [file.peDirectory wf]
    refine wf.relocs.space (file.laidOut wf _) le ?_
    have inImage := wf.relocsFilled.1
    rw [relocSpan_end] at inImage
    omega
  case relocsFilled => rw [file.relocSpan wf]; exact file.filled wf wf.relocsFilled
  case fixupsHeld => rw [file.peSections wf]; exact wf.fixupsHeld
  case fixupsApart => exact wf.fixupsApart
  case fixupsClear => rw [file.relocSpan wf]; exact wf.fixupsClear
  case slotsFixups => exact wf.slotsFixups
  case slotsRelocs => rw [file.relocSpan wf]; exact wf.slotsRelocs

end SameFile

end Dyndxt.Loader
