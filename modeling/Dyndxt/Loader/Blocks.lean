import Dyndxt.Loader.Frame

/-!
# The blocks a load owns

At every moment of a load the blocks it owns are those its output points to:
`Owns held ctx` says that the live blocks are these and the `held` ones, live
before the load, and that every block returned was live. Each pass keeps it,
whichever way it ends, and `DLLFreeContext` takes the output's blocks to none.
-/

namespace Dyndxt.Loader
open Dyndxt.Mem Dyndxt.Pool Dyndxt.Run

/-- The blocks an output points to. -/
def DllLoaderOutput.blocks (output : DllLoaderOutput) : List Nat :=
  (if output.image ≠ 0 then [output.image] else []) ++
    (if output.sectionHeaders ≠ 0 then [output.sectionHeaders] else [])

/-- The live blocks are the output's and the held ones. -/
structure Owns (held : List Nat) (ctx : DllContext) : Prop where
  clean : Clean ctx.calls
  live : live ctx.calls = ctx.output.blocks ++ held

variable {b : Build} {inp : DllLoaderInput} {ctx ctx' : DllContext} {held : List Nat}

theorem Owns.same (owns : Owns held ctx) (same : SameBlocks ctx ctx') : Owns held ctx' := by
  refine ⟨same.calls ▸ owns.clean, ?_⟩
  rw [same.calls, owns.live, DllLoaderOutput.blocks, DllLoaderOutput.blocks, same.imagePtr,
    same.sectionHeaders]

/-! ## Release -/

theorem dllFreeContext_true (some : ctx.output.sectionHeaders ≠ 0) : dllFreeContext ctx true =
    { ctx with
      output := { ctx.output with sectionHeaders := 0 }
      calls := .free ctx.output.sectionHeaders :: ctx.calls } := by
  simp [dllFreeContext, some, DllContext.callFree]

/-- Nothing is left to free but the image. -/
theorem dllFreeContext_none (none : ctx.output.sectionHeaders = 0) (keepImage : Bool)
    (kept : keepImage = true ∨ ctx.output.image = 0) : dllFreeContext ctx keepImage = ctx := by
  rcases kept with rfl | noImage
  · simp [dllFreeContext, none]
  · simp [dllFreeContext, none, noImage]

theorem dllFreeContext_image (none : ctx.output.sectionHeaders = 0) (some : ctx.output.image ≠ 0) :
    dllFreeContext ctx false =
    { ctx with
      output := { ctx.output with image := 0 }
      calls := .free ctx.output.image :: ctx.calls } := by
  simp [dllFreeContext, none, some, DllContext.callFree]

/-- The image is freed after the section headers. -/
theorem dllFreeContext_false : dllFreeContext ctx false = dllFreeContext (dllFreeContext ctx true) false := by
  by_cases none : ctx.output.sectionHeaders = 0
  · rw [dllFreeContext_none none true (.inl rfl)]
  · simp [dllFreeContext, none, DllContext.callFree]

@[simp] theorem dllFreeContext_sectionHeaders (keepImage : Bool) :
    (dllFreeContext ctx keepImage).output.sectionHeaders = 0 := by
  unfold dllFreeContext
  by_cases some : ctx.output.sectionHeaders = 0 <;> cases keepImage <;>
    simp only [some, ne_eq, not_true, not_false_iff, if_true, if_false] <;> split <;> first | rfl | exact some

/-- A release changes the pointers and the allocator's ledger only. -/
theorem dllFreeContext_keeps (keepImage : Bool) : ∃ sectionHeaders image calls,
    dllFreeContext ctx keepImage =
      { ctx with output := { ctx.output with sectionHeaders, image }, calls } := by
  unfold dllFreeContext
  simp only
  split <;> split <;> exact ⟨_, _, _, rfl⟩

theorem dllFreeContext_status (keepImage : Bool) :
    (dllFreeContext ctx keepImage).output.status = ctx.output.status := by
  obtain ⟨_, _, _, freed⟩ := @dllFreeContext_keeps ctx keepImage
  rw [freed]

theorem dllFreeContext_imagePtr : (dllFreeContext ctx false).output.image = 0 := by
  unfold dllFreeContext
  by_cases some : ctx.output.sectionHeaders = 0 <;>
    simp only [some, ne_eq, not_true, not_false_iff, if_true, if_false, true_and] <;> split <;>
    first | rfl | (rename_i null; simpa using null)

theorem Owns.freeTable (owns : Owns held ctx) : Owns held (dllFreeContext ctx true) := by
  by_cases none : ctx.output.sectionHeaders = 0
  · rw [dllFreeContext_none none true (.inl rfl)]
    exact owns
  · rw [dllFreeContext_true none]
    have alive := owns.live
    simp only [DllLoaderOutput.blocks, ne_eq, none, not_false_iff, if_true] at alive
    refine ⟨⟨?_, owns.clean⟩, ?_⟩
    · rw [alive]; simp
    · simp only [live_free, alive, DllLoaderOutput.blocks, ne_eq, not_true, if_false, List.append_nil]
      by_cases noImage : ctx.output.image = 0
      · simp [noImage]
      · by_cases same : ctx.output.image = ctx.output.sectionHeaders
        · simp [same, none]
        · simp [noImage, same]

/-- `DLLFreeContext` returns blocks the load owns. -/
theorem Owns.free (owns : Owns held ctx) (keepImage : Bool) :
    Owns held (dllFreeContext ctx keepImage) := by
  cases keepImage with
  | true => exact owns.freeTable
  | false =>
    rw [dllFreeContext_false]
    have owns := owns.freeTable
    have noTable : (dllFreeContext ctx true).output.sectionHeaders = 0 := by simp
    by_cases noImage : (dllFreeContext ctx true).output.image = 0
    · rw [dllFreeContext_none noTable false (.inr noImage)]
      exact owns
    · rw [dllFreeContext_image noTable noImage]
      have alive := owns.live
      simp only [DllLoaderOutput.blocks, ne_eq, noTable, noImage, not_false_iff, not_true, if_true,
        if_false, List.append_nil] at alive
      refine ⟨⟨?_, owns.clean⟩, ?_⟩
      · rw [alive]; simp
      · simp [live_free, alive, DllLoaderOutput.blocks]

/-- A pass that refuses in a context it owns is cleaned up to one that owns
nothing. -/
structure Refused (held : List Nat) (ctx : DllContext) : Prop where
  status : ctx.output.status ≠ .ok
  owns : Owns held ctx

structure CleanedUp (held : List Nat) (ctx : DllContext) : Prop extends Refused held ctx where
  sectionHeaders : ctx.output.sectionHeaders = 0
  imagePtr : ctx.output.image = 0

theorem cleanUp_ends {post : DllContext → Prop} {p : Pass} (h : Ends post (Refused held) p) :
    Ends post (CleanedUp held) (cleanUp p) := by
  cases p with
  | ok c => exact h
  | error c =>
    exact ⟨⟨by rw [dllFreeContext_status]; exact h.status, h.owns.free false⟩,
      dllFreeContext_sectionHeaders false, dllFreeContext_imagePtr⟩

/-- A clean-up leaves the status, the context and the access logs of the
refusal. -/
theorem cleanUp_outcome {post : DllContext → Prop}
    {P : DllLoaderStatus → DllLoaderContext → List Span → List Span → Prop} {p : Pass}
    (h : Ends post (fun c => P c.output.status c.output.context c.rawReads c.imageWrites) p) :
    Ends post (fun c => P c.output.status c.output.context c.rawReads c.imageWrites) (cleanUp p) := by
  cases p with
  | ok c => exact h
  | error c =>
    obtain ⟨_, _, _, freed⟩ := @dllFreeContext_keeps c false
    have same : cleanUp (.error c) = .error (dllFreeContext c false) := rfl
    rw [same, freed]
    exact h

end Dyndxt.Loader
