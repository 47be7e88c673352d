import Dyndxt.Loader.MappedImage
import Dyndxt.Loader.ImportTable
import Dyndxt.Loader.RelocTable

/-!
# Well-formed DLLs

A relocatable i386 DLL as the PE format describes it: the NT headers at
`e_lfanew`, the section headers behind the optional header, and the import and
relocation tables in the image that the file lays out. The loader finds the
same structures at its own offsets, its checks on such a file pass, and its
loops can walk the tables.
-/

namespace Dyndxt.Loader
open Dyndxt.Mem Dyndxt.Pool Dyndxt.Run

section Format

variable (b : Build) (inp : DllLoaderInput)

/-- The NT headers' offset, `e_lfanew`. -/
def DllLoaderInput.peOffset : Nat := (inp.dosHeader b).eLfanew.toNat

def DllLoaderInput.peHeader : ImageNtHeaders32 :=
  ImageNtHeaders32.read b.space inp.raw (inp.peOffset b)

/-- The section headers' offset: behind the signature, the file header and the
optional header. -/
def DllLoaderInput.peTable : Nat :=
  inp.peOffset b + 24 + (inp.peHeader b).fileHeader.sizeOfOptionalHeader.toNat

def DllLoaderInput.peSections : List ImageSectionHeader :=
  ImageSectionHeader.readTable b.space inp.raw (inp.peTable b)
    (inp.peHeader b).fileHeader.numberOfSections.toNat

def DllLoaderInput.peDirectory (entry : Fin 16) : ImageDataDirectory :=
  (inp.peHeader b).optionalHeader.dataDirectory entry

/-- `SizeOfImage`. -/
def DllLoaderInput.peSize : Nat := (inp.peHeader b).optionalHeader.sizeOfImage.toNat

/-- What the file lays out: its headers, and each section's raw data at the
section's address. -/
def DllLoaderInput.peCopies : List Copy :=
  ⟨0, (inp.peHeader b).optionalHeader.sizeOfHeaders.toNat, 0⟩ ::
    (inp.peSections b).map ImageSectionHeader.copy

/-- The byte laid out at an image offset, if there is one. -/
def DllLoaderInput.peByte (a : Nat) : Option UInt8 := copiedByte b.space inp.raw (inp.peCopies b) a

/-- The image laid out over the contents of its block. -/
def DllLoaderInput.laidOut (stale : Bytes) : Bytes := fun a => (inp.peByte b a).getD (stale a)

/-- A span of the image that the file fills. -/
def DllLoaderInput.Filled (sp : Span) : Prop :=
  sp.off + sp.len ≤ inp.peSize b ∧ ∀ i < sp.len, (inp.peByte b (sp.off + i)).isSome

instance (sp : Span) : Decidable (inp.Filled b sp) := inferInstanceAs (Decidable (_ ∧ _))

/-- A word of a section's raw data. -/
def ImageSectionHeader.Holds (header : ImageSectionHeader) (w : Nat) : Prop :=
  header.virtualAddress.toNat ≤ w ∧ w + 4 ≤ header.virtualAddress.toNat + header.sizeOfRawData.toNat

instance (header : ImageSectionHeader) (w : Nat) : Decidable (header.Holds w) :=
  inferInstanceAs (Decidable (_ ∧ _))

/-- The relocation table, with its terminating zero. -/
def DllLoaderInput.relocSpan (blocks : List RelocBlock) : Span :=
  let p := (inp.peDirectory b imageDirectoryEntryBaseReloc).virtualAddress.toNat
  ⟨p, relocTableEnd p blocks - p⟩

/-- A relocatable i386 DLL with the imports `ds` and the relocation blocks
`blocks`. -/
structure DllLoaderInput.WellFormed (ds : List ImportModule) (blocks : List RelocBlock) : Prop where
  inSpace : inp.rawData + inp.rawDataSize.toNat < b.space
  -- headers
  magic : (inp.dosHeader b).eMagic = imageDosSignature
  lfanew : sizeofImageDosHeader ≤ inp.peOffset b ∧ inp.peOffset b < 2 ^ 31
  signature : (inp.peHeader b).signature = imageNtSignature
  machine : (inp.peHeader b).fileHeader.machine = imageFileMachineI386
  dynamicBase : (inp.peHeader b).optionalHeader.dllCharacteristics &&&
    imageDllCharacteristicsDynamicBase ≠ 0
  optionalHeader : sizeofImageOptionalHeader32 ≤ (inp.peHeader b).fileHeader.sizeOfOptionalHeader.toNat
  tableInFile : inp.peTable b + (inp.peHeader b).fileHeader.numberOfSections.toNat *
    sizeofImageSectionHeader ≤ inp.rawDataSize.toNat
  -- raw data and where it goes
  inFile : ∀ c ∈ inp.peCopies b, c.len ≠ 0 → c.src + c.len ≤ inp.rawDataSize.toNat
  inImage : ∀ c ∈ inp.peCopies b, c.len ≠ 0 → c.dest + c.len ≤ inp.peSize b
  disjoint : (inp.peCopies b).Pairwise Copy.Clear
  -- imports
  noImports : (inp.peDirectory b imageDirectoryEntryImport).size = 0 → ds = []
  imports : (inp.peDirectory b imageDirectoryEntryImport).size ≠ 0 → ImportTableAt b.space
    (inp.laidOut b fun _ => 0) (inp.peDirectory b imageDirectoryEntryImport).virtualAddress.toNat ds
  importsFilled : (inp.peDirectory b imageDirectoryEntryImport).size ≠ 0 → ∀ sp ∈ importReads
    (inp.peDirectory b imageDirectoryEntryImport).virtualAddress.toNat ds, inp.Filled b sp
  slotsHeld : ∀ slot ∈ importList ds, ∃ header ∈ inp.peSections b, header.Holds slot.1
  slotsApart : ((importList ds).map Prod.fst).Pairwise fun w w' => w + 4 ≤ w' ∨ w' + 4 ≤ w
  slotsClear : ∀ slot ∈ importList ds, ∀ sp ∈ importReads
    (inp.peDirectory b imageDirectoryEntryImport).virtualAddress.toNat ds, sp.ClearOf slot.1
  -- relocations
  relocDirectory : (inp.peDirectory b imageDirectoryEntryBaseReloc).size ≠ 0
  blocksOk : ∀ block ∈ blocks, block.Ok
  relocs : RelocTableAt b.space (inp.laidOut b fun _ => 0)
    (inp.peDirectory b imageDirectoryEntryBaseReloc).virtualAddress.toNat blocks
  relocsFilled : inp.Filled b (inp.relocSpan b blocks)
  fixupsHeld : ∀ w ∈ fixups blocks, ∃ header ∈ inp.peSections b, header.Holds w
  fixupsApart : ∀ w ∈ fixups blocks, ∀ w' ∈ fixups blocks, Apart w w'
  fixupsClear : ∀ w ∈ fixups blocks, (inp.relocSpan b blocks).ClearOf w
  -- imports against relocations
  slotsFixups : ∀ slot ∈ importList ds, ∀ w ∈ fixups blocks, w + 4 ≤ slot.1 ∨ slot.1 + 4 ≤ w
  slotsRelocs : ∀ slot ∈ importList ds, (inp.relocSpan b blocks).ClearOf slot.1

end Format

variable {b : Build} {inp : DllLoaderInput} {ds : List ImportModule} {blocks : List RelocBlock}
  {calls : Ledger} {stale : Bytes} {a off w : Nat} {sp : Span}

/-! ## The loader's own offsets -/

theorem passes_of_le (inSpace : inp.rawData + inp.rawDataSize.toNat < b.space)
    (inFile : off ≤ inp.rawDataSize.toNat) : inp.Passes b off := by
  unfold DllLoaderInput.Passes DllLoaderInput.ptr DllLoaderInput.eof
  rw [Nat.mod_eq_of_lt (by omega), Nat.mod_eq_of_lt inSpace]
  omega

theorem peSize_lt : inp.peSize b < b.space := b.word_lt _

/-- What the file fills does not depend on the block. -/
theorem laidOut_sameOn (stale stale' : Bytes) (filled : inp.Filled b sp) :
    SameOn sp.off (sp.off + sp.len) (inp.laidOut b stale) (inp.laidOut b stale') := by
  intro a low high
  have some := filled.2 (a - sp.off) (by omega)
  rw [show sp.off + (a - sp.off) = a by omega] at some
  obtain ⟨byte, found⟩ := Option.isSome_iff_exists.mp some
  simp only [DllLoaderInput.laidOut, found, Option.getD_some]

theorem relocSpan_end : (inp.relocSpan b blocks).off + (inp.relocSpan b blocks).len =
    relocTableEnd (inp.peDirectory b imageDirectoryEntryBaseReloc).virtualAddress.toNat blocks := by
  have := @le_relocTableEnd (inp.peDirectory b imageDirectoryEntryBaseReloc).virtualAddress.toNat blocks
  simp only [DllLoaderInput.relocSpan]
  omega

namespace DllLoaderInput.WellFormed

variable (wf : inp.WellFormed b ds blocks)

include wf

theorem ntOffset_eq : inp.ntOffset b = inp.peOffset b := by
  obtain ⟨low, long⟩ := wf.lfanew
  have unsigned : sizeT b (inp.dosHeader b).eLfanew = inp.peOffset b := if_pos long
  rw [DllLoaderInput.ntOffset, unsigned]
  omega

theorem ntHeader_eq : inp.ntHeader b = inp.peHeader b := by
  rw [DllLoaderInput.ntHeader, wf.ntOffset_eq]
  rfl

theorem tableOffset_eq : inp.tableOffset b = inp.peTable b := by
  have size := wf.optionalHeader
  unfold sizeofImageOptionalHeader32 at size
  rw [DllLoaderInput.tableOffset, wf.ntOffset_eq, wf.ntHeader_eq, DllLoaderInput.peTable,
    sizeofImageNtHeaders32, sizeofImageOptionalHeader32]
  omega

theorem table_lt : inp.peTable b < b.space := by
  have inFile := wf.tableInFile
  have inSpace := wf.inSpace
  omega

theorem sections_eq : inp.sections b = inp.peSections b := by
  rw [DllLoaderInput.sections, DllLoaderInput.numSections, wf.tableOffset_eq, wf.ntHeader_eq,
    Nat.mod_eq_of_lt wf.table_lt]
  rfl

theorem mapped_eq : inp.mapped b stale = inp.laidOut b stale := by
  have copies : inp.copies b = inp.peCopies b := by
    rw [DllLoaderInput.copies, wf.ntHeader_eq, wf.sections_eq]
    rfl
  funext a
  rw [DllLoaderInput.mapped, DllLoaderInput.fileByte, copies]
  rfl

/-- The loader's checks on the headers. -/
theorem headersPass : inp.HeadersPass b := by
  have inFile := wf.tableInFile
  have lfanew := wf.lfanew.1
  have size := wf.optionalHeader
  have table : inp.peTable b =
      inp.peOffset b + 24 + (inp.peHeader b).fileHeader.sizeOfOptionalHeader.toNat := rfl
  unfold sizeofImageOptionalHeader32 at size
  unfold sizeofImageDosHeader at lfanew
  constructor
  · apply passes_of_le wf.inSpace
    unfold sizeofImageDosHeader
    omega
  · exact wf.magic
  · apply passes_of_le wf.inSpace
    rw [wf.ntOffset_eq]
    omega
  · apply passes_of_le wf.inSpace
    rw [wf.ntOffset_eq, sizeofImageNtHeaders32]
    omega
  · rw [wf.ntHeader_eq, headerRefusal, if_neg (not_not.mpr wf.signature),
      if_neg (not_not.mpr wf.machine), if_neg wf.dynamicBase]
  · apply passes_of_le wf.inSpace
    rw [wf.tableOffset_eq]
    omega

/-- All of the file passes' checks, with the two blocks allocated. -/
theorem filePasses (tableBlock : inp.tableBlock b calls ≠ 0) (imageBlock : inp.imageBlock b calls ≠ 0) :
    inp.FilePasses b calls := by
  refine ⟨wf.headersPass, tableBlock, ?_, imageBlock, ?_, ?_⟩
  · apply passes_of_le wf.inSpace
    rw [wf.tableOffset_eq, DllLoaderInput.tableSize, DllLoaderInput.numSections, wf.ntHeader_eq]
    exact wf.tableInFile
  · rw [wf.ntHeader_eq, UInt32.le_iff_toNat_le]
    by_contra beyond
    have inImage := wf.inImage _ List.mem_cons_self
    simp only [DllLoaderInput.peSize] at inImage
    omega
  · intro header listed data
    rw [wf.sections_eq] at listed
    have inFile : header.copy.src + header.copy.len ≤ inp.rawDataSize.toNat := by
      apply wf.inFile _ (List.mem_cons_of_mem _ (List.mem_map_of_mem listed))
      exact fun zero => data (UInt32.toNat_inj.mp zero)
    simp only [ImageSectionHeader.copy] at inFile
    exact ⟨passes_of_le wf.inSpace (by omega), passes_of_le wf.inSpace inFile⟩

/-! ## The image laid out -/

theorem copy_fits : ∀ c ∈ inp.peCopies b, c.dest + c.len ≤ b.space := by
  intro c listed
  have small := @peSize_lt b inp
  by_cases none : c.len = 0
  · rw [none]
    rcases List.mem_cons.mp listed with rfl | section_
    · exact Nat.zero_le _
    · obtain ⟨header, _, rfl⟩ := List.mem_map.mp section_
      exact Nat.le_of_lt (b.word_lt _)
  · have := wf.inImage c listed none
    omega

/-- The byte that a copy lays out. -/
theorem peByte_eq {c : Copy} (listed : c ∈ inp.peCopies b) {i : Nat} (lt : i < c.len) :
    inp.peByte b (c.dest + i) = some (inp.raw (c.src + i)) := by
  have inImage := wf.inImage c listed (by omega)
  have inFile := wf.inFile c listed (by omega)
  have inSpace := wf.inSpace
  have small := @peSize_lt b inp
  have covers : c.Covers b.space (c.dest + i) :=
    (Copy.covers_iff (wf.copy_fits c listed) (by omega)).mpr (by omega)
  have origin : c.origin b.space (c.dest + i) = c.src + i := by
    rw [Copy.origin_eq (by omega) (Nat.le_add_right _ _), Nat.add_sub_cancel_left]
    exact Nat.mod_eq_of_lt (by omega)
  rw [DllLoaderInput.peByte, copiedByte_eq wf.disjoint wf.copy_fits (by omega) listed covers, origin]

theorem laidOut_copy (stale : Bytes) {c : Copy} (listed : c ∈ inp.peCopies b) {i : Nat} (lt : i < c.len) :
    inp.laidOut b stale (c.dest + i) = inp.raw (c.src + i) := by
  rw [DllLoaderInput.laidOut, wf.peByte_eq listed lt, Option.getD_some]

/-- A word held by a section is filled. -/
theorem filled_held {header : ImageSectionHeader} (listed : header ∈ inp.peSections b)
    (holds : header.Holds w) : inp.Filled b ⟨w, 4⟩ := by
  have copy : header.copy ∈ inp.peCopies b := List.mem_cons_of_mem _ (List.mem_map_of_mem listed)
  obtain ⟨low, high⟩ := holds
  have inImage : header.copy.dest + header.copy.len ≤ inp.peSize b :=
    wf.inImage _ copy (by simp only [ImageSectionHeader.copy]; omega)
  simp only [ImageSectionHeader.copy] at inImage
  refine ⟨by simp only; omega, fun i lt => ?_⟩
  have lt : i < 4 := lt
  have byte := wf.peByte_eq copy (i := w + i - header.virtualAddress.toNat)
    (by simp only [ImageSectionHeader.copy]; omega)
  simp only [ImageSectionHeader.copy, show header.virtualAddress.toNat +
    (w + i - header.virtualAddress.toNat) = w + i by omega] at byte
  rw [byte]
  rfl

theorem held_fits (held : ∃ header ∈ inp.peSections b, header.Holds w) : w + 4 ≤ inp.peSize b := by
  obtain ⟨header, listed, holds⟩ := held
  exact (wf.filled_held listed holds).1

/-! ## The tables -/

theorem bindable (some : (inp.peDirectory b imageDirectoryEntryImport).size ≠ 0) :
    Bindable b.space (inp.laidOut b fun _ => 0)
      (inp.peDirectory b imageDirectoryEntryImport).virtualAddress.toNat ds := by
  have small := @peSize_lt b inp
  refine ⟨wf.imports some, ?_, ?_, wf.slotsApart, wf.slotsClear⟩
  · intro sp listed
    have inImage := (wf.importsFilled some sp listed).1
    omega
  · intro slot listed
    have inImage := wf.held_fits (wf.slotsHeld slot listed)
    omega

/-- The import tables stand in the image whatever the block held. -/
theorem imports_agree (stale : Bytes)
    (some : (inp.peDirectory b imageDirectoryEntryImport).size ≠ 0) :
    AgreeOn (tableNeeds (inp.peDirectory b imageDirectoryEntryImport).virtualAddress.toNat ds)
      (inp.laidOut b fun _ => 0) (inp.laidOut b stale) := by
  intro sp needed
  rcases List.mem_append.mp needed with read | word
  · exact laidOut_sameOn _ _ (wf.importsFilled some sp read)
  · obtain ⟨slot, listed, rfl⟩ := List.mem_map.mp word
    obtain ⟨header, held, holds⟩ := wf.slotsHeld slot listed
    exact laidOut_sameOn _ _ (wf.filled_held held holds)

/-- With the slots filled, the image can be relocated. -/
theorem relocatable {slots : List (Nat × UInt32)} {ctx : DllContext}
    (bound : ∀ slot ∈ slots, ∃ entry ∈ importList ds, entry.1 = slot.1)
    (image : ctx.image = putAll b.space slots (inp.laidOut b stale))
    (header : ctx.output.header = inp.peHeader b)
    (space : ctx.output.image + inp.peSize b ≤ b.space) : Relocatable b ctx blocks := by
  have small := @peSize_lt b inp
  have tableEnd := @relocSpan_end b inp blocks
  have inImage := wf.relocsFilled.1
  have slotFits : ∀ slot ∈ slots, slot.1 + 4 ≤ b.space := by
    intro slot listed
    obtain ⟨entry, listed, same⟩ := bound slot listed
    have := wf.held_fits (wf.slotsHeld entry listed)
    omega
  have table : SameOn (inp.relocSpan b blocks).off
      ((inp.relocSpan b blocks).off + (inp.relocSpan b blocks).len) (inp.laidOut b fun _ => 0)
      ctx.image := by
    refine (laidOut_sameOn _ stale wf.relocsFilled).trans ?_
    rw [image]
    have agree : AgreeOn [inp.relocSpan b blocks] (inp.laidOut b stale)
        (putAll b.space slots (inp.laidOut b stale)) := by
      apply putAll_agreeOn slotFits
      · simp only [List.mem_singleton, forall_eq]
        omega
      · simp only [List.mem_singleton, forall_eq]
        intro slot listed
        obtain ⟨entry, listed, same⟩ := bound slot listed
        rw [← same]
        exact wf.slotsRelocs entry listed
    exact agree _ (List.mem_singleton_self _)
  rw [tableEnd] at table inImage
  have clear := wf.fixupsClear
  simp only [Span.ClearOf, tableEnd] at clear
  constructor
  · rw [header]; exact wf.relocDirectory
  · exact wf.blocksOk
  · rw [header]
    exact wf.relocs.congr table (by have : relocTableEnd _ _ ≤ _ := inImage; omega)
  · rw [header]; exact inImage
  · rw [header]; exact space
  · rw [header]; exact fun w listed => wf.held_fits (wf.fixupsHeld w listed)
  · exact wf.fixupsApart
  · rw [header]; exact clear

end DllLoaderInput.WellFormed

end Dyndxt.Loader
