import Dyndxt.Loader.EntryWords

/-!
# Relocating on the target and on the host

The loops of the target follow those of the host, two rounds behind at the
start of each block: they leave with the same result and the same image when
every `SizeOfBlock` is plain and nothing the host walks or patches lies beyond
the target's address space.
-/

namespace Dyndxt.Loader
open Dyndxt.Mem Dyndxt.Pool Dyndxt.Run

section Builds

variable (newBase : UInt32) (ctx ctx' : DllContext)

/-- Each build returns when the other does, and the same. -/
structure BuildsAgree : Prop where
  target : ∀ n r, dllRelocate .target n newBase ctx = .leave r →
    ∃ m r', dllRelocate .host m newBase ctx' = .leave r' ∧ SameReturn (Alike (2 ^ 32)) r r'
  host : ∀ n r', dllRelocate .host n newBase ctx' = .leave r' →
    ∃ m r, dllRelocate .target m newBase ctx = .leave r ∧ SameReturn (Alike (2 ^ 32)) r r'

/-- A block header, and the block behind it: below the top on both builds, and
with a plain size. `ptr` is the image of the target. -/
structure PlainBlock (ptr p : Nat) (c : DllContext) : Prop where
  header : p + 8 ≤ 2 ^ 32
  room : c.load32 .host p ≠ 0 → ptr + p + (sizeOfBlock .host p c).toNat + 8 < 2 ^ 32 ∧
    c.output.image + p + (sizeOfBlock .host p c).toNat + 8 < 2 ^ 64
  plain : c.load32 .host p ≠ 0 → PlainSize (sizeOfBlock .host p c)

/-- What the host walks and patches lies in the target's address space too, and
every `SizeOfBlock` is plain. -/
structure PlainWalk : Prop where
  block : ∀ p c, Reaches .host newBase ctx' (.block p, c) → PlainBlock ctx.output.image p c
  fixup : ∀ dest e relocationEnd c, Reaches .host newBase ctx' (.entry dest e relocationEnd, c) →
    e < relocationEnd → c.load16 .host e >>> 12 = imageRelBasedHighLow →
    dest + (c.load16 .host e &&& 0x0FFF).toNat + 4 ≤ 2 ^ 32

end Builds

variable {newBase : UInt32} {delta : Int32} {ctx ctx' c c' : DllContext} {p : Nat}

/-! ## The same bytes -/

theorem Alike.load32 (alike : Alike (2 ^ 32) c c') (fits : p + 4 ≤ 2 ^ 32) : c'.load32 .host p = c.load32 .target p := by
  obtain ⟨ptr, image, rfl, same⟩ := alike
  have byte (i : Nat) (lt : i < 4) : image ((p + i) % 2 ^ 64) = c.image ((p + i) % 2 ^ 32) := by
    rw [Nat.mod_eq_of_lt (by omega), Nat.mod_eq_of_lt (by omega)]
    exact same (p + i) (Nat.zero_le _) (by omega)
  have first := byte 0 (by decide)
  rw [Nat.add_zero] at first
  simp only [DllContext.load32, Build.space, u32, first, byte 1 (by decide), byte 2 (by decide),
    byte 3 (by decide)]

theorem Alike.load16 (alike : Alike (2 ^ 32) c c') (fits : p + 2 ≤ 2 ^ 32) : c'.load16 .host p = c.load16 .target p := by
  obtain ⟨ptr, image, rfl, same⟩ := alike
  have byte (i : Nat) (lt : i < 2) : image ((p + i) % 2 ^ 64) = c.image ((p + i) % 2 ^ 32) := by
    rw [Nat.mod_eq_of_lt (by omega), Nat.mod_eq_of_lt (by omega)]
    exact same (p + i) (Nat.zero_le _) (by omega)
  have first := byte 0 (by decide)
  rw [Nat.add_zero] at first
  simp only [DllContext.load16, Build.space, u16, first, byte 1 (by decide)]

theorem Alike.store32 (alike : Alike (2 ^ 32) c c') (fits : p + 4 ≤ 2 ^ 32) (v : UInt32) :
    Alike (2 ^ 32) (c.store32 .target p v) (c'.store32 .host p v) := by
  obtain ⟨ptr, image, rfl, same⟩ := alike
  refine ⟨ptr, _, rfl, fun a low lt => ?_⟩
  show store (2 ^ 64) image p 4 _ a = store (2 ^ 32) c.image p 4 _ a
  rw [store_apply _ (show p + 4 ≤ 2 ^ 32 from fits) (show a < 2 ^ 32 from lt),
    store_apply _ (show p + 4 ≤ 2 ^ 64 by omega) (show a < 2 ^ 64 by omega), same a low lt]

/-! ## Round by round -/

/-- The target's loops beside the host's in a plain walk. -/
structure Together (newBase : UInt32) (ctx ctx' : DllContext) (s t : RelocPc × DllContext) : Prop where
  alike : Alike (2 ^ 32) s.2 t.2
  imagePtr : s.2.output.image = ctx.output.image
  reaches : Reaches .host newBase ctx' t
  beside : Beside .target s.2 s.1 t.1
  target : EntriesBelow .target s
  host : EntriesBelow .host t

/-- The delta of the host, which is that of the target. -/
def hostDelta (newBase : UInt32) (ctx' : DllContext) : Int32 :=
  imageDelta ctx'.output.header.optionalHeader.imageBase newBase

/-- The round of a block that both builds come to. -/
theorem Together.block {s' : RelocPc × DllContext} (plain : PlainWalk newBase ctx ctx')
    (together : Together newBase ctx ctx' (.block p, c) (.block p, c'))
    (turn : relocTurn .target newBase delta (.block p, c) = .again s') :
    ∃ t', rebaseTurn .host newBase ctx' (.block p, c') = .again t' ∧ Together newBase ctx ctx' s' t' := by
  obtain ⟨header, rooms, plainSize⟩ := plain.block p c' together.reaches
  have address : c'.load32 .host p = c.load32 .target p := together.alike.load32 (by omega)
  have size : sizeOfBlock .host p c' = sizeOfBlock .target p c := together.alike.load32 (by omega)
  have some : c.load32 .target p ≠ 0 := by
    intro none
    simp [relocTurn, none] at turn
  obtain ⟨roomTarget, roomHost⟩ := rooms (address ▸ some)
  rw [size, ← together.imagePtr] at roomTarget
  have enter : rebaseTurn .host newBase ctx' (.block p, c') = _ := block_turn (address ▸ some) roomHost
  rw [block_turn some roomTarget] at turn
  cases turn
  refine ⟨_, enter, together.alike, together.imagePtr, together.reaches.snoc enter, ?_, ?_, ?_⟩
  · have ends : c'.load32 .host (p + 4) = c.load32 .target (p + 4) := size
    rw [address, ends]
    exact beside_start (.inr (size ▸ plainSize (address ▸ some))) _ _
  · refine entriesBelow_entry (by rw [← Nat.add_assoc]; exact roomTarget) ?_
    simp only [Build.sizeofPtr]
    omega
  · refine entriesBelow_entry (by rw [← Nat.add_assoc]; exact roomHost) ?_
    simp only [Build.sizeofPtr]
    omega

/-- The round of an entry that both builds come to. -/
theorem Together.entry {dest e relocationEnd : Nat} (plain : PlainWalk newBase ctx ctx')
    (together : Together newBase ctx ctx' (.entry dest e relocationEnd, c) (.entry dest e relocationEnd, c')) :
    SameTurn (Alike (2 ^ 32)) (relocTurn .target newBase (hostDelta newBase ctx') (.entry dest e relocationEnd, c))
      (rebaseTurn .host newBase ctx' (.entry dest e relocationEnd, c')) := by
  have alike : Alike (2 ^ 32) c c' := together.alike
  obtain ⟨room, near⟩ : c.output.image + relocationEnd + 8 < Build.target.space ∧ e ≤ relocationEnd + 8 :=
    together.target _ _ _ rfl
  have top : relocationEnd + 8 < 2 ^ 32 := Nat.lt_of_le_of_lt (by omega) room
  have word (inside : e < relocationEnd) : c'.load16 .host e = c.load16 .target e := alike.load16 (by omega)
  have least : min Build.target.space Build.host.space = 2 ^ 32 := rfl
  refine entry_same alike near room (together.host _ _ _ rfl).1 word (alike.setErrorStatus _) fun inside high => ?_
  rw [least]
  have fits := plain.fixup dest e relocationEnd c' together.reaches inside (word inside ▸ high)
  rw [word inside] at fits
  refine ⟨fits, fun p inSpace => ?_⟩
  rw [alike.load32 inSpace]
  exact alike.store32 inSpace _

/-- A round in the halves of a size: the target skips it, or the block has no
entries. -/
theorem Together.half {s' : RelocPc × DllContext} {dest w relocationEnd : Nat}
    (together : Together newBase ctx ctx' (.entry dest (p + w) relocationEnd, c)
      (.entry dest (p + 8) relocationEnd, c')) (side : w = 4 ∨ w = 6)
    (low : c.load16 .target (p + 4) >>> 12 = imageRelBasedAbsolute)
    (high : c.load16 .target (p + 6) >>> 12 = imageRelBasedAbsolute)
    (turn : relocTurn .target newBase delta (.entry dest (p + w) relocationEnd, c) = .again s') :
    (∃ t', rebaseTurn .host newBase ctx' (.entry dest (p + 8) relocationEnd, c') = .again t' ∧
        Together newBase ctx ctx' s' t') ∨
      Together newBase ctx ctx' s' (.entry dest (p + 8) relocationEnd, c') ∧
        entriesLeft s' < entriesLeft (.entry dest (p + w) relocationEnd, c) := by
  obtain ⟨roomTarget, nearTarget⟩ : c.output.image + relocationEnd + 8 < Build.target.space ∧
    p + w ≤ relocationEnd + 8 := together.target _ _ _ rfl
  obtain ⟨roomHost, nearHost⟩ : c'.output.image + relocationEnd + 8 < Build.host.space ∧
    p + 8 ≤ relocationEnd + 8 := together.host _ _ _ rfl
  have climbs := (entry_climbs turn together.target).1
  rw [half_turn roomTarget nearTarget side low high] at turn
  by_cases inside : p + w < relocationEnd
  · rw [if_pos inside] at turn
    cases turn
    refine .inr ⟨⟨together.alike, together.imagePtr, together.reaches, beside_next side low high, climbs,
      together.host⟩, ?_⟩
    simp only [entriesLeft]
    omega
  · rw [if_neg inside] at turn
    cases turn
    have other : rebaseTurn .host newBase ctx' (.entry dest (p + 8) relocationEnd, c') = _ :=
      entry_turn roomHost nearHost
    rw [if_neg (by omega)] at other
    exact .inl ⟨_, other, together.alike, together.imagePtr, together.reaches.snoc other, .same _,
      entriesBelow_block, entriesBelow_block⟩

/-- The target leaves only where the host does. -/
theorem Together.leaves {s t : RelocPc × DllContext} {r : Pass} (plain : PlainWalk newBase ctx ctx')
    (together : Together newBase ctx ctx' s t)
    (left : relocTurn .target newBase (hostDelta newBase ctx') s = .leave r) :
    ∃ r', rebaseTurn .host newBase ctx' t = .leave r' ∧ SameReturn (Alike (2 ^ 32)) r r' := by
  obtain ⟨pc, c⟩ := s
  obtain ⟨pc', c'⟩ := t
  have beside : Beside .target c pc pc' := together.beside
  have alike : Alike (2 ^ 32) c c' := together.alike
  cases beside with
  | half dest p w relocationEnd side low high =>
    obtain ⟨room, near⟩ := together.target _ _ _ rfl
    rw [half_turn room near side low high] at left
    split at left <;> cases left
  | same =>
    cases pc with
    | block p =>
      have header := (plain.block p c' together.reaches).header
      have address : c'.load32 .host p = c.load32 .target p := alike.load32 (by omega)
      simp only [rebaseTurn, relocTurn, address] at left ⊢
      split at left
      · cases left
      · next none =>
        cases left
        rw [if_neg none]
        exact ⟨_, rfl, .ok (alike.rebased newBase)⟩
    | entry dest e relocationEnd => exact (together.entry plain).of_leave left

theorem together_follows (plain : PlainWalk newBase ctx ctx') :
    Follows (relocTurn .target newBase (hostDelta newBase ctx')) (rebaseTurn .host newBase ctx')
      (Together newBase ctx ctx') (SameReturn (Alike (2 ^ 32))) entriesLeft := by
  refine ⟨?_, fun s t r together left => together.leaves plain left⟩
  rintro ⟨pc, c⟩ ⟨pc', c'⟩ s' together turn
  have beside : Beside .target c pc pc' := together.beside
  cases beside with
  | half dest p w relocationEnd side low high => exact together.half side low high turn
  | same =>
    cases pc with
    | block p => exact .inl (together.block plain turn)
    | entry dest e relocationEnd =>
      obtain ⟨d', there, alike⟩ := (together.entry plain).of_again turn
      exact .inl ⟨_, there, alike, (relocTurn_kept turn).imagePtr.trans together.imagePtr,
        together.reaches.snoc there, .same _, (entry_climbs turn together.target).1,
        (entry_climbs there together.host).1⟩

/-! ## The pass -/

/-- Both builds return the same in a plain walk. -/
theorem dllRelocate_builds_agree (alike : Alike (2 ^ 32) ctx ctx') (plain : PlainWalk newBase ctx ctx') :
    BuildsAgree newBase ctx ctx' := by
  have header := alike.header
  have entered : Alike (2 ^ 32) (ctx.setErrorContext .relocate) (ctx'.setErrorContext .relocate) :=
    alike.setErrorContext _
  have follows := together_follows plain
  rw [hostDelta, header] at follows
  have start (differs : newBase ≠ ctx'.output.header.optionalHeader.imageBase)
      (some : ctx'.relocDirectory.size ≠ 0) : Together newBase ctx ctx' (relocEntry ctx) (relocEntry ctx') := by
    refine ⟨entered, rfl, ⟨differs, some, .refl _⟩, ?_, entriesBelow_block, entriesBelow_block⟩
    simp only [relocEntry, header]
    exact .same _
  constructor
  · intro n r left
    refine dllRelocate_carries header entered (entered.setErrorStatus _) (fun differs some returns => ?_) left
    rw [← header] at differs
    rw [DllContext.relocDirectory, ← header] at some
    exact follows.returns (start differs some) returns
  · intro n r' left
    have carried : ∃ m r, dllRelocate .target m newBase ctx = .leave r ∧
        SameReturn (fun c' c => Alike (2 ^ 32) c c') r' r := by
      refine dllRelocate_carries header.symm entered (entered.setErrorStatus _)
        (fun differs some returns => ?_) left
      obtain ⟨r, back, same⟩ := follows.returns_of (start differs some) returns
      exact ⟨r, back, SameReturn.flip same⟩
    obtain ⟨m, r, leaves, same⟩ := carried
    exact ⟨m, r, leaves, same.flip⟩

/-- Which words are read as entries of a block, which are acted on, and when
both builds return the same. -/
theorem dllRelocate_entries (b : Build) (newBase : UInt32) (delta : Int32) (p : Nat) (c ctx ctx' : DllContext) :
    (Walkable b p c → (EntriesAfterHeader b newBase delta p c ↔ b = .host) ∧
      (ActsAfterHeader b newBase delta p c ↔ b = .host ∨ PlainSize (sizeOfBlock b p c))) ∧
    (Alike (2 ^ 32) ctx ctx' → PlainWalk newBase ctx ctx' → BuildsAgree newBase ctx ctx') :=
  ⟨fun walkable => ⟨entriesAfterHeader_iff walkable, actsAfterHeader_iff walkable⟩,
    fun alike plain => dllRelocate_builds_agree alike plain⟩

/-- An image for base `0x400000` with one block of 12 bytes, for the page
`0x2000`: a fixup at `0x2004`, and padding. -/
def onePage : DllContext where
  output := {
    header := { optionalHeader := {
      imageBase := 0x400000
      addressOfEntryPoint := 0x40
      sizeOfImage := 0x4000
      dataDirectory := fun i => if i = imageDirectoryEntryBaseReloc then ⟨0x10, 12⟩ else {} } }
    image := 0x50000 }
  image := ofWords [(0x10, 0x2000), (0x14, 12), (0x18, 0x3004), (0x2004, 0x401234)]

/-- The host's walk of it. -/
def onePageAt (k : Nat) : RelocPc × DllContext :=
  (goesTo (rebaseTurn .host 0x50000 onePage))^[k] (relocEntry onePage)

theorem onePage_reaches {t : RelocPc × DllContext} (reached : Reaches .host 0x50000 onePage t) :
    t = onePageAt 0 ∨ t = onePageAt 1 ∨ t = onePageAt 2 ∨ t = onePageAt 3 ∨ t = onePageAt 4 := by
  have left : (rebaseTurn .host 0x50000 onePage (onePageAt 4)).leaves = true := by decide +kernel
  obtain ⟨k, le, rfl⟩ := reached.steps.of_leaves left
  have five : k = 0 ∨ k = 1 ∨ k = 2 ∨ k = 3 ∨ k = 4 := by omega
  rcases five with rfl | rfl | rfl | rfl | rfl <;> simp [onePageAt]

theorem onePage_plain : PlainWalk 0x50000 onePage onePage := by
  have pc : (onePageAt 0).1 = .block 0x10 ∧ (onePageAt 1).1 = .entry 0x2000 0x18 0x1C ∧
      (onePageAt 2).1 = .entry 0x2000 0x1A 0x1C ∧ (onePageAt 3).1 = .entry 0x2000 0x1C 0x1C ∧
      (onePageAt 4).1 = .block 0x1C := by decide +kernel
  obtain ⟨pc₀, pc₁, pc₂, pc₃, pc₄⟩ := pc
  constructor
  · intro p c reached
    rcases onePage_reaches reached with same | same | same | same | same
    · rw [← same] at pc₀
      cases pc₀
      have here : c = (onePageAt 0).2 := congrArg Prod.snd same
      subst here
      exact ⟨by decide, fun _ => by decide +kernel, fun _ => by unfold PlainSize; decide +kernel⟩
    · rw [← same] at pc₁
      cases pc₁
    · rw [← same] at pc₂
      cases pc₂
    · rw [← same] at pc₃
      cases pc₃
    · rw [← same] at pc₄
      cases pc₄
      have here : c = (onePageAt 4).2 := congrArg Prod.snd same
      subst here
      have none : (onePageAt 4).2.load32 .host 0x1C = 0 := by decide +kernel
      exact ⟨by decide, fun some => absurd none some, fun some => absurd none some⟩
  · intro dest e relocationEnd c reached inside highLow
    rcases onePage_reaches reached with same | same | same | same | same
    · rw [← same] at pc₀
      cases pc₀
    · rw [← same] at pc₁
      cases pc₁
      have here : c = (onePageAt 1).2 := congrArg Prod.snd same
      subst here
      decide +kernel
    · rw [← same] at pc₂
      cases pc₂
      have here : c = (onePageAt 2).2 := congrArg Prod.snd same
      subst here
      decide +kernel
    · rw [← same] at pc₃
      cases pc₃
      exact absurd inside (by decide)
    · rw [← same] at pc₄
      cases pc₄

/-- Both builds move its fixup alike. -/
theorem onePage_agrees : PlainWalk 0x50000 onePage onePage ∧ BuildsAgree 0x50000 onePage onePage :=
  ⟨onePage_plain, (dllRelocate_entries .host 0x50000 0 0x10 onePage onePage onePage).2
    ⟨_, _, rfl, fun _ _ _ => rfl⟩ onePage_plain⟩

/-- An image for base `0x400000` with one block of padding, for the page
`0x2000`: of `0x1000` bytes, which is an entry of type 1 when it is read as
one. -/
def paddedPage : DllContext where
  output := {
    header := { optionalHeader := {
      imageBase := 0x400000
      addressOfEntryPoint := 0x40
      sizeOfImage := 0x4000
      dataDirectory := fun i => if i = imageDirectoryEntryBaseReloc then ⟨0x10, 0x1004⟩ else {} } }
    image := 0x50000 }
  image := ofWords [(0x10, 0x2000), (0x14, 0x1000)]

theorem paddedPage_zero {a : Nat} (behind : 0x18 ≤ a) : paddedPage.image a = 0 := by
  have none : ([(0x10, 0x2000), (0x14, 0x1000)] : List (Nat × UInt32)).find?
      (fun w => w.1 ≤ a && a < w.1 + 4) = none := by
    simp only [List.find?_eq_none, List.mem_cons, List.not_mem_nil, or_false, forall_eq_or_imp, forall_eq,
      Bool.and_eq_true, decide_eq_true_eq]
    omega
  simp only [paddedPage, ofWords, none]

theorem paddedPage_walkable (b : Build) : Walkable b 0x10 (paddedPage.setErrorContext .relocate) := by
  cases b <;> exact ⟨⟨by decide +kernel, by decide +kernel⟩, by decide +kernel⟩

/-- A block whose size the target refuses as an entry. -/
theorem refuses_low (walkable : Walkable .target p c) (unknown : ¬ KnownType (c.load16 .target (p + 4))) :
    Returns (relocTurn .target newBase delta) (.block p, c)
      (.error (c.setErrorStatus .unsupportedRelocationType)) := by
  have room := walkable.room
  have size := walkable.size
  have below : p + 4 < p + (sizeOfBlock .target p c).toNat := by omega
  have refuse := @entry_turn .target newBase delta c (c.load32 .target p).toNat (p + 4)
    (p + (sizeOfBlock .target p c).toNat) (by omega) (by omega)
  rw [if_pos below, if_neg (fun absolute => unknown (.inl absolute)),
    if_neg (fun high => unknown (.inr high))] at refuse
  exact (Steps.one (block_turn walkable.virtualAddress room)).returns (returns_leave refuse)

/-- A block of padding, on the host. -/
theorem skips_padding {n : Nat} (walkable : Walkable .host p c)
    (length : (sizeOfBlock .host p c).toNat = 8 + 2 * n)
    (padding : ∀ i < n, c.load16 .host (p + 8 + 2 * i) = 0) :
    ∃ c', Steps (relocTurn .host newBase delta) (.block p, c)
      (.block (p + (sizeOfBlock .host p c).toNat), c') ∧ c'.image = c.image := by
  have room := walkable.room
  have none : fixupsOf (c.load32 .host p).toNat (List.replicate n 0) = [] := by
    rw [fixupsOf, List.filter_eq_nil_iff.mpr, List.map_nil]
    intro e listed
    rw [List.eq_of_mem_replicate listed]
    decide
  obtain ⟨c', walk, patched⟩ := @entries_run .host c newBase delta (c.load32 .host p).toNat
    (List.replicate n 0) (p + 8) (p + (sizeOfBlock .host p c).toNat)
    (fun i lt => by rw [List.getElem_replicate]; exact padding i (by simpa using lt))
    (by rw [List.length_replicate]; omega)
    (fun e listed => by rw [List.eq_of_mem_replicate listed]; exact .inl (by decide))
    (by omega) (by rw [none]; simp) (by rw [none]; simp)
  rw [none] at patched
  refine ⟨c', .step (block_turn walkable.virtualAddress room) (walk.snoc (if_neg (Nat.lt_irrefl _))), ?_⟩
  exact patched.image

theorem paddedPage_host : ∃ c, Returns (rebaseTurn .host 0x50000 paddedPage) (relocEntry paddedPage)
    (.ok c) := by
  have size : (sizeOfBlock .host 0x10 (paddedPage.setErrorContext .relocate)).toNat = 0x1000 := by
    decide +kernel
  obtain ⟨c, walk, image⟩ := @skips_padding 0x50000 (hostDelta 0x50000 paddedPage)
    (paddedPage.setErrorContext .relocate) 0x10 2044 (paddedPage_walkable .host) size fun i lt => by
      have first := paddedPage_zero (show 0x18 ≤ 0x10 + 8 + 2 * i by omega)
      have second := paddedPage_zero (show 0x18 ≤ 0x10 + 8 + 2 * i + 1 by omega)
      show u16 (2 ^ 64) paddedPage.image (0x10 + 8 + 2 * i) = 0
      rw [u16, Nat.mod_eq_of_lt (by omega), Nat.mod_eq_of_lt (by omega), first, second]
      rfl
  have ends : c.load32 .host 0x1010 = 0 := by
    show u32 (2 ^ 64) c.image 0x1010 = 0
    rw [image]
    decide +kernel
  rw [size] at walk
  exact ⟨_, Steps.returns walk (returns_leave (by simp [rebaseTurn, relocTurn, ends]; rfl))⟩

/-- The target reads the size of the block as an entry and refuses it; the host
returns true. -/
theorem paddedPage_disagrees : (∀ newBase delta, ¬ EntriesAfterHeader .target newBase delta 0x10 paddedPage) ∧
    Alike (2 ^ 32) paddedPage paddedPage ∧ ¬ BuildsAgree 0x50000 paddedPage paddedPage := by
  obtain ⟨⟨virtualAddress, room⟩, size⟩ := paddedPage_walkable .target
  have walkable : Walkable .target 0x10 paddedPage := ⟨⟨virtualAddress, room⟩, size⟩
  have entered : (0x50000 : UInt32) ≠ paddedPage.output.header.optionalHeader.imageBase ∧
      paddedPage.relocDirectory.size ≠ 0 := by decide
  refine ⟨fun newBase delta after => ?_, ⟨_, _, rfl, fun _ _ _ => rfl⟩, fun agree => ?_⟩
  · exact absurd ((entriesAfterHeader_iff walkable).mp after) (by decide)
  · obtain ⟨c, host⟩ := paddedPage_host
    obtain ⟨n, leaves⟩ := dllRelocate_returns entered.1 entered.2 host
    obtain ⟨m, r, left, same⟩ := agree.host n (.ok c) (leaves n (Nat.le_refl n))
    have target : Returns (rebaseTurn .target 0x50000 paddedPage) (relocEntry paddedPage) _ :=
      refuses_low (paddedPage_walkable .target) (by decide +kernel)
    cases same with
    | ok alike => cases (returns_of_leave entered.1 entered.2 left).unique target

end Dyndxt.Loader
