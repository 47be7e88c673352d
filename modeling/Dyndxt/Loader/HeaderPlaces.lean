import Dyndxt.Loader.Load

/-!
# Where the headers are taken from

A file says where its NT headers are (`e_lfanew`) and how long their optional
header is (`SizeOfOptionalHeader`), so where its section table is. The loader
moves its pointer by the size of its own structures and then up by what the
file's fields have beyond them. A field below the structure's size moves
nothing, so the loader reads behind the place the file gives.
-/

namespace Dyndxt.Loader
open Dyndxt.Mem Dyndxt.Pool Dyndxt.Run

section Places

variable (b : Build) (inp : DllLoaderInput)

/-- The offset of the NT headers in the file. -/
def DllLoaderInput.lfanew : Nat := sizeT b (inp.dosHeader b).eLfanew

/-- The NT headers at `e_lfanew`. -/
def DllLoaderInput.fileHeaders : ImageNtHeaders32 :=
  ImageNtHeaders32.read b.space inp.raw (inp.lfanew b)

/-- `SizeOfOptionalHeader`, in the headers at `e_lfanew`. -/
def DllLoaderInput.optionalSize : Nat := (inp.fileHeaders b).fileHeader.sizeOfOptionalHeader.toNat

/-- As many section headers at `off` as the headers at `e_lfanew` count. -/
def DllLoaderInput.sectionsAt (off : Nat) : List ImageSectionHeader :=
  ImageSectionHeader.readTable b.space inp.raw (off % b.space)
    (inp.fileHeaders b).fileHeader.numberOfSections.toNat

/-- The section headers where the file says they are: behind the signature,
the file header and the optional header. -/
def DllLoaderInput.fileSections : List ImageSectionHeader :=
  inp.sectionsAt b (inp.lfanew b + 24 + inp.optionalSize b)

/-- The headers on the output are those of the file. -/
structure TakenFromFile (ctx : DllContext) : Prop where
  header : ctx.output.header = inp.fileHeaders b
  sections : ctx.sectionTable = inp.fileSections b

/-- No field is below its structure's size, or the file has the same headers
where the loader then looks. -/
structure DllLoaderInput.SameHeaders : Prop where
  header : 64 ≤ inp.lfanew b ∨
    inp.fileHeaders b = ImageNtHeaders32.read b.space inp.raw 64
  sections : 64 ≤ inp.lfanew b ∧ 224 ≤ inp.optionalSize b ∨
    inp.fileSections b = inp.sectionsAt b (max 64 (inp.lfanew b) + 24 + max 224 (inp.optionalSize b))

end Places

variable {b : Build} {inp : DllLoaderInput} {ctx ctx' : DllContext}

theorem ntOffset_eq : inp.ntOffset b = max 64 (inp.lfanew b) := rfl

/-- The headers the loader copies are the file's exactly when the first
condition holds. -/
theorem ntHeader_eq_iff : inp.ntHeader b = inp.fileHeaders b ↔
    64 ≤ inp.lfanew b ∨ inp.fileHeaders b = ImageNtHeaders32.read b.space inp.raw 64 := by
  have copied : inp.ntHeader b = ImageNtHeaders32.read b.space inp.raw (max 64 (inp.lfanew b)) := rfl
  rcases Nat.lt_or_ge (inp.lfanew b) 64 with below | above
  · rw [Nat.max_eq_left (by omega)] at copied
    rw [copied, eq_comm]
    exact ⟨.inr, fun same => same.resolve_left (by omega)⟩
  · rw [Nat.max_eq_right above] at copied
    exact ⟨fun _ => .inl above, fun _ => copied⟩

/-- Over the file's headers, the table the loader copies. -/
theorem sections_eq (header : inp.ntHeader b = inp.fileHeaders b) : inp.sections b =
    inp.sectionsAt b (max 64 (inp.lfanew b) + 24 + max 224 (inp.optionalSize b)) := by
  have offset : inp.tableOffset b =
      max 64 (inp.lfanew b) + 24 + max 224 (inp.optionalSize b) := by
    have size : (inp.ntHeader b).fileHeader.sizeOfOptionalHeader.toNat = inp.optionalSize b := by
      rw [header, DllLoaderInput.optionalSize]
    rw [DllLoaderInput.tableOffset, size, ntOffset_eq, sizeofImageNtHeaders32,
      sizeofImageOptionalHeader32]
    omega
  rw [DllLoaderInput.sections, DllLoaderInput.numSections, DllLoaderInput.sectionsAt, offset, header]

/-- With the file's headers copied, the table is the file's exactly when the
second condition holds. -/
theorem sections_eq_iff (header : inp.ntHeader b = inp.fileHeaders b) :
    inp.sections b = inp.fileSections b ↔ 64 ≤ inp.lfanew b ∧ 224 ≤ inp.optionalSize b ∨
      inp.fileSections b =
        inp.sectionsAt b (max 64 (inp.lfanew b) + 24 + max 224 (inp.optionalSize b)) := by
  rw [sections_eq header]
  constructor
  · exact fun same => .inr same.symm
  · rintro (⟨nt, optional⟩ | same)
    · rw [DllLoaderInput.fileSections, Nat.max_eq_right nt, Nat.max_eq_right optional]
    · exact same.symm

/-- The headers are taken from where the file says they are exactly when none
of its fields is below the structure's size, or the headers there are the same. -/
theorem dllParseHeader_takes (parsed : dllParseHeader b inp ctx = .ok ctx') :
    TakenFromFile b inp ctx' ↔ inp.SameHeaders b := by
  have ends := @dllParseHeader_ends b inp ctx
  rw [parsed] at ends
  obtain ⟨rfl, -⟩ := ends
  have header : ((ctx.withHeaders b inp).withTable b inp).output.header = inp.ntHeader b := rfl
  have table : ((ctx.withHeaders b inp).withTable b inp).sectionTable = inp.sections b := rfl
  constructor
  · rintro ⟨sameHeader, sameTable⟩
    rw [header] at sameHeader
    rw [table] at sameTable
    exact ⟨ntHeader_eq_iff.mp sameHeader, (sections_eq_iff sameHeader).mp sameTable⟩
  · rintro ⟨sameHeader, sameTable⟩
    have sameHeader := ntHeader_eq_iff.mpr sameHeader
    exact ⟨header.trans sameHeader, table.trans ((sections_eq_iff sameHeader).mpr sameTable)⟩

/-- The context of a header pass that returned true. -/
def parsed? : Pass → Option DllContext
  | .ok ctx => some ctx
  | .error _ => none

theorem parsed?_eq {p : Pass} {α : Type} {f : DllContext → α} {a : α}
    (h : (parsed? p).map f = some a) : ∃ c, p = .ok c ∧ f c = a := by
  cases p with
  | error c => cases h
  | ok c => exact ⟨c, rfl, Option.some.inj h⟩

theorem sectionsDll_takes : ∃ c, dllParseHeader .target sectionsDll (.initial {} fun _ => 0) = .ok c ∧
    TakenFromFile .target sectionsDll c := by
  have run : (parsed? (dllParseHeader .target sectionsDll (.initial {} fun _ => 0))).map
      (·.output.image) = some 0 := by decide +kernel
  obtain ⟨c, parsed, _⟩ := parsed?_eq run
  refine ⟨c, parsed, (dllParseHeader_takes parsed).mpr ⟨.inl (by decide +kernel), .inl ?_⟩⟩
  decide +kernel

/-- A file with 15 data directories: `SizeOfOptionalHeader` is 216, and the
header of `.text` stands at 304. -/
def fifteenDirectories : DllLoaderInput :=
  fileOf [(0, 0x5A4D), (60, 64), (64, 0x4550), (68, 0x1014C), (84, 216), (144, 0x2000), (148, 344),
    (156, 0x400000), (180, 15), (304, 0x7865742E), (308, 0x74), (312, 0x10), (316, 0x1000)] 0x200 0x30000

/-- Its section header is copied from 312 on. -/
theorem fifteenDirectories_misses :
    ∃ c, dllParseHeader .target fifteenDirectories (.initial {} fun _ => 0) = .ok c ∧
      ¬ TakenFromFile .target fifteenDirectories c := by
  have run : (parsed? (dllParseHeader .target fifteenDirectories (.initial {} fun _ => 0))).map (fun c =>
      decide (c.sectionTable = fifteenDirectories.fileSections .target)) = some false := by
    decide +kernel
  obtain ⟨c, parsed, differs⟩ := parsed?_eq run
  exact ⟨c, parsed, fun taken => of_decide_eq_false differs taken.sections⟩

end Dyndxt.Loader
