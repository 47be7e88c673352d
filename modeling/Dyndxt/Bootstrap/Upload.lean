import Mathlib.Data.List.Flatten
import Dyndxt.Bootstrap.Answers

/-!
# Uploading a loader

A client asks for a block with `a`, reads its address from the reply, makes its
image for that address, and sends it behind an `i`, in chunks. The code at the
entry point then runs once, with the image where it was made for.
-/

namespace Dyndxt.Bootstrap
open Dyndxt.Mem Dyndxt.Run Dyndxt.Pool Dyndxt.Loader
open Dyndxt.Params (numeral)
open Dyndxt.Session (xboxSOk xboxSSendBinary)

/-! ## The client -/

/-- A command with one number. -/
def commandText (al : UInt8) (spec : List UInt8) (v : UInt32) : List UInt8 :=
  ascii "ldxt!" ++ al :: 0x20 :: (spec ++ (hexPrefix ++ lowercaseHex v))

/-- The bytes of the longest of these, with the NUL. -/
def commandSize : Nat := 20

/-- The base that a reply gives. -/
def replyBase (reply : List UInt8) : Option UInt32 :=
  if messageOk ++ hexPrefix <+: reply then some (.ofNat (numeral 16 (reply.drop (messageOk ++ hexPrefix).length))) else none

/-- What is sent: an image of `size` bytes for every base, in chunks, and where
to enter it. -/
structure Upload where
  size : UInt32
  chunks : UInt32 → List (List UInt8)
  entrypoint : UInt32 → UInt32
  positive : size ≠ 0
  whole : ∀ base, (chunks base).flatten.length = size.toNat
  nonempty : ∀ base, ∀ chunk ∈ chunks base, chunk ≠ []
  entered : ∀ base, base ≠ 0 → entrypoint base ≠ 0

def Upload.image (u : Upload) (base : UInt32) : List UInt8 := (u.chunks base).flatten

/-! ## The monitor -/

/-- A command is put in its buffer. -/
def Target.asked (t : Target) (command : UInt32) (text : List UInt8) : Target :=
  { t with memory := write t.memory command (text ++ [0]) }

/-- A chunk is put at `ctx.buffer`, and its size in `data_size`. -/
def Target.sent (t : Target) (chunk : List UInt8) : Target :=
  { t with
    memory := write t.memory t.ctx.buffer chunk
    ctx := { t.ctx with dataSize := .ofNat chunk.length } }

/-- Chunks one after the other, with the codes returned. -/
def transfer (labels : Labels) (budget : Nat) (dxtMain : UInt32 → Bytes × Ledger → UInt32 × Bytes × Ledger)
    (response : UInt32) (t : Target) : List (List UInt8) → Option (List UInt32 × Target)
  | [] => some ([], t)
  | chunk :: chunks => match receiveImageData labels budget dxtMain response (t.sent chunk) with
    | none => none
    | some o => match transfer labels budget dxtMain response o.target chunks with
      | none => none
      | some (codes, t) => some (o.eax :: codes, t)

/-- The bootstrap's strings are in memory, apart from the command and the
response, which is on one side of `0x80000000`, and the pointers tell that a
number follows where the command's argument is. -/
structure Hosted (labels : Labels) (command response : UInt32) (m : Bytes) : Prop where
  strings : labels.In m
  clearCommand : labels.Clear command commandSize
  clearResponse : labels.Clear response replySize
  side : (response + .ofNat messageOk.length).toNat + 11 ≤ 2 ^ 31 ∨ 2 ^ 31 ≤ (response + .ofNat messageOk.length).toNat
  tellsSize : Tells labels.gSizeArg (command + 5 + 1 + 1)
  tellsEntrypoint : Tells labels.gEntrypointArg (command + 5 + 1 + 1)

/-- Between two chunks: what was received of `size` bytes is at `base`, and
nothing else has changed. -/
structure Receiving (begun : Target) (base size : UInt32) (received : List UInt8) (t : Target) : Prop where
  memory : t.memory = write begun.memory base received
  buffer : t.ctx.buffer = base + .ofNat received.length
  remaining : t.ctx.bytesRemaining.toNat + received.length = size.toNat
  data : t.data = begun.data
  calls : t.calls = begun.calls

variable {alloc : Ledger → Nat → UInt32} {dxtMain : UInt32 → Bytes × Ledger → UInt32 × Bytes × Ledger} {labels : Labels}
  {command response ctx edi esi v base size : UInt32} {m : Bytes} {t begun : Target} {al : UInt8} {budget : Nat}
  {spec received chunk : List UInt8}

/-! ## Commands -/

theorem run_lowercaseHex (v : UInt32) : hexRun (lowercaseHex v) = lowercaseHex v ∧ afterRun (lowercaseHex v) = [] :=
  ⟨List.takeWhile_eq_self_iff.mpr fun c listed => (lowercaseHex_all v c listed).1,
    List.dropWhile_eq_nil_iff.mpr fun c listed => (lowercaseHex_all v c listed).1⟩

/-- The number that a client writes is the one that is taken. -/
theorem argued_lowercaseHex (two : spec.length = argLen) (tells : Tells edi esi) (nonzero : v ≠ 0) :
    argued edi esi spec (spec ++ (hexPrefix ++ lowercaseHex v)) = some v := by
  have number : (takeNumber esi (hexPrefix ++ lowercaseHex v)).1 = v := by
    rw [takeNumber_marked, (run_lowercaseHex v).1, numeral_lowercaseHex, UInt32.ofNat_toNat]
  rw [argued_number edi esi two, number]
  exact if_pos ⟨tells, nonzero⟩

theorem not_stuck (two : spec.length = argLen) : ¬ Stuck spec (spec ++ (hexPrefix ++ lowercaseHex v)) := by
  rintro ⟨-, endless⟩
  rw [show (spec ++ (hexPrefix ++ lowercaseHex v)).drop 2 = hexPrefix ++ lowercaseHex v from List.drop_left' two] at endless
  obtain ⟨-, c, first, -⟩ := endless
  rw [show (hexPrefix ++ lowercaseHex v).drop 2 = lowercaseHex v from rfl, (run_lowercaseHex v).2] at first
  exact nomatch first

theorem commandText_plain (plain : 0 ∉ spec) (letter : al ≠ 0) : 0 ∉ commandText al spec v := by
  unfold commandText
  simp only [List.mem_append, List.mem_cons, not_or]
  refine ⟨by decide +kernel, letter.symm, by decide, plain, by decide, fun listed => ?_⟩
  exact (lowercaseHex_all v 0 listed).2 rfl

theorem commandText_length (two : spec.length = argLen) : (commandText al spec v).length + 1 ≤ commandSize := by
  have digits := lowercaseHex_length v
  have five : (ascii "ldxt!").length = 5 := by decide +kernel
  have two' : hexPrefix.length = 2 := rfl
  unfold commandText commandSize
  simp only [List.length_append, List.length_cons, five, two', two, argLen]
  omega

/-- The reply to `a` gives back the address. -/
theorem replyBase_rendered (v : UInt32) : replyBase (messageOk ++ (hexPrefix ++ lowercaseHex v)) = some v := by
  have starts : messageOk ++ hexPrefix <+: messageOk ++ (hexPrefix ++ lowercaseHex v) := by
    rw [← List.append_assoc]
    exact List.prefix_append _ _
  unfold replyBase
  rw [if_pos starts, ← List.append_assoc, List.drop_left, numeral_lowercaseHex, UInt32.ofNat_toNat]

/-- With a command in its buffer, the strings are where they were. -/
theorem Hosted.asked (hosted : Hosted labels command response t.memory) (two : spec.length = argLen) :
    Standby labels response (t.asked command (commandText al spec v)).memory := by
  refine ⟨hosted.strings.write hosted.clearCommand ?_, hosted.clearResponse, hosted.side⟩
  rw [List.length_append]
  exact commandText_length two

theorem textAt_asked (two : spec.length = argLen) (plain : 0 ∉ spec) (letter : al ≠ 0) :
    TextAt (t.asked command (commandText al spec v)).memory command (commandText al spec v) := by
  refine textAt_iff.mpr ⟨bytesAt_write ?_, commandText_plain plain letter⟩
  have short := @commandText_length v al spec two
  unfold commandSize at short
  rw [List.length_append, List.length_singleton]
  omega

/-! ## The transfer -/

theorem write_append (fits : received.length + chunk.length ≤ 2 ^ 32) :
    write (write m base received) (base + .ofNat received.length) chunk = write m base (received ++ chunk) := by
  rw [write, address_add, place_mod]
  exact place_append fits

/-- The target after a chunk, but for what is run. -/
def Target.taken (t : Target) (chunk : List UInt8) : Target :=
  let t := t.sent chunk
  { t with ctx := { t.ctx with
      buffer := t.ctx.buffer + t.ctx.dataSize
      bufferSize := t.ctx.bufferSize - t.ctx.dataSize
      bytesRemaining := t.ctx.bytesRemaining - t.ctx.dataSize } }

theorem receiveImageData_sent (labels : Labels) (budget : Nat) (dxtMain : UInt32 → Bytes × Ledger → UInt32 × Bytes × Ledger)
    (response : UInt32) (some_ : UInt32.ofNat chunk.length ≠ 0) :
    receiveImageData labels budget dxtMain response (t.sent chunk) =
      if (t.taken chunk).ctx.bytesRemaining ≠ 0 then some { eax := xboxSOk, target := t.taken chunk }
      else
        let (eax, memory, calls) := dxtMain t.data.gImageEntrypoint ((t.taken chunk).memory, t.calls)
        some { eax, target := { t.taken chunk with memory, calls } } :=
  if_neg some_

theorem Receiving.taken (receiving : Receiving begun base size received t) (fits : received.length + chunk.length ≤ size.toNat) :
    Receiving begun base size (received ++ chunk) (t.taken chunk) := by
  have small := size.toNat_lt
  have length : (UInt32.ofNat chunk.length).toNat = chunk.length := by
    rw [UInt32.toNat_ofNat', Nat.mod_eq_of_lt (by omega)]
  have left := receiving.remaining
  refine ⟨?_, ?_, ?_, receiving.data, receiving.calls⟩
  · show write t.memory t.ctx.buffer chunk = _
    rw [receiving.memory, receiving.buffer, write_append (by omega)]
  · show t.ctx.buffer + .ofNat chunk.length = _
    rw [receiving.buffer, List.length_append, UInt32.ofNat_add, UInt32.add_assoc]
  · show (t.ctx.bytesRemaining - .ofNat chunk.length).toNat + _ = _
    rw [UInt32.toNat_sub_of_le _ _ (UInt32.le_iff_toNat_le.mpr (by omega)), length, List.length_append]
    omega

/-- A chunk that is all that is missing, and one that is not. -/
theorem Receiving.zero_iff (receiving : Receiving begun base size received t)
    (fits : received.length + chunk.length ≤ size.toNat) :
    (t.taken chunk).ctx.bytesRemaining = 0 ↔ received.length + chunk.length = size.toNat := by
  have left := (receiving.taken fits).remaining
  have zero : (0 : UInt32).toNat = 0 := rfl
  rw [List.length_append] at left
  rw [← UInt32.toNat_inj]
  omega

theorem chunk_some (some_ : chunk ≠ []) (fits : chunk.length ≤ size.toNat) : UInt32.ofNat chunk.length ≠ 0 := by
  have small := size.toNat_lt
  have positive := List.length_pos_iff.mpr some_
  intro zero
  have length := congrArg UInt32.toNat zero
  rw [UInt32.toNat_ofNat', Nat.mod_eq_of_lt (by omega)] at length
  exact absurd length (by show chunk.length ≠ 0; omega)

/-- As long as something is missing, each chunk is taken and nothing is run. -/
theorem Receiving.run {chunks : List (List UInt8)} (receiving : Receiving begun base size received t)
    (nonempty : ∀ chunk ∈ chunks, chunk ≠ []) (more : received.length + chunks.flatten.length < size.toNat)
    (labels : Labels) (budget : Nat) (response : UInt32) :
    ∃ t', Receiving begun base size (received ++ chunks.flatten) t' ∧ ∀ dxtMain,
      transfer labels budget dxtMain response t chunks = some (List.replicate chunks.length xboxSOk, t') := by
  induction chunks generalizing received t with
  | nil =>
    rw [List.flatten_nil, List.append_nil]
    exact ⟨t, receiving, fun _ => rfl⟩
  | cons chunk chunks ih =>
    rw [List.flatten_cons, List.length_append] at more
    obtain ⟨some_, nonempty⟩ := List.forall_mem_cons.mp nonempty
    have left : Receiving begun base size (received ++ chunk) (t.taken chunk) := receiving.taken (by omega)
    have goesOn : (t.taken chunk).ctx.bytesRemaining ≠ 0 := fun zero => by
      have := (receiving.zero_iff (by omega)).mp zero
      omega
    obtain ⟨t', receiving', rest⟩ := ih left nonempty (by rw [List.length_append]; omega)
    rw [List.append_assoc] at receiving'
    refine ⟨t', receiving', fun dxtMain => ?_⟩
    have taken := receiveImageData_sent (t := t) labels budget dxtMain response
      (@chunk_some size chunk some_ (by omega))
    rw [if_pos goesOn] at taken
    simp only [transfer, taken, rest dxtMain, List.length_cons, List.replicate_succ]

theorem transfer_snoc {before : List (List UInt8)} {codes : List UInt32} {t' : Target} {o : Outcome}
    (reached : transfer labels budget dxtMain response t before = some (codes, t'))
    (last : receiveImageData labels budget dxtMain response (t'.sent chunk) = some o) :
    transfer labels budget dxtMain response t (before ++ [chunk]) = some (codes ++ [o.eax], o.target) := by
  induction before generalizing t codes with
  | nil =>
    cases reached
    simp only [List.nil_append, transfer, last]
  | cons first before ih =>
    simp only [List.cons_append, transfer] at reached ⊢
    cases taken : receiveImageData labels budget dxtMain response (t.sent first) with
    | none => rw [taken] at reached; cases reached
    | some o₁ =>
      rw [taken] at reached
      dsimp only at reached ⊢
      cases rest : transfer labels budget dxtMain response o₁.target before with
      | none => rw [rest] at reached; cases reached
      | some p =>
        rw [rest] at reached
        cases reached
        rw [ih rest]
        rfl

/-- The last chunk runs the entry point. -/
theorem Receiving.last (receiving : Receiving begun base size received t) (some_ : chunk ≠ [])
    (last : received.length + chunk.length = size.toNat) (labels : Labels) (budget : Nat) (response : UInt32)
    (dxtMain : UInt32 → Bytes × Ledger → UInt32 × Bytes × Ledger) :
    ∃ o, receiveImageData labels budget dxtMain response (t.sent chunk) = some o ∧
      (o.eax, o.target.memory, o.target.calls) =
        dxtMain begun.data.gImageEntrypoint (write begun.memory base (received ++ chunk), begun.calls) := by
  have left : Receiving begun base size (received ++ chunk) (t.taken chunk) := receiving.taken (by omega)
  have done := (receiving.zero_iff (by omega)).mpr last
  have taken := receiveImageData_sent (t := t) labels budget dxtMain response (@chunk_some size chunk some_ (by omega))
  rw [if_neg (not_not.mpr done), left.memory, receiving.data, receiving.calls] at taken
  exact ⟨_, taken, rfl⟩

/-- An image in chunks: nothing runs before the last of them, and then the entry
point once, with the image at the base. -/
theorem Receiving.whole {chunks : List (List UInt8)} (receiving : Receiving begun base size [] t) (positive : size ≠ 0)
    (nonempty : ∀ chunk ∈ chunks, chunk ≠ []) (whole : chunks.flatten.length = size.toNat) (labels : Labels) (budget : Nat)
    (response : UInt32) :
    (∀ before after, chunks = before ++ after → after ≠ [] → ∃ t', Receiving begun base size before.flatten t' ∧ ∀ dxtMain,
      transfer labels budget dxtMain response t before = some (List.replicate before.length xboxSOk, t')) ∧
    ∀ dxtMain, ∃ code final,
      transfer labels budget dxtMain response t chunks = some (List.replicate (chunks.length - 1) xboxSOk ++ [code], final) ∧
      (code, final.memory, final.calls) =
        dxtMain begun.data.gImageEntrypoint (write begun.memory base chunks.flatten, begun.calls) := by
  have run (before after : List (List UInt8)) (split : chunks = before ++ after) (more : after ≠ []) :
      ∃ t', Receiving begun base size before.flatten t' ∧ ∀ dxtMain,
        transfer labels budget dxtMain response t before = some (List.replicate before.length xboxSOk, t') := by
    subst split
    obtain ⟨befores, afters⟩ := List.forall_mem_append.mp nonempty
    have left : 0 < after.flatten.length := by
      obtain ⟨chunk, after, rfl⟩ := List.exists_cons_of_ne_nil more
      have first := List.length_pos_iff.mpr (afters chunk List.mem_cons_self)
      rw [List.flatten_cons, List.length_append]
      omega
    rw [List.flatten_append, List.length_append] at whole
    exact receiving.run befores (by rw [List.length_nil]; omega) labels budget response
  refine ⟨run, fun dxtMain => ?_⟩
  rcases List.eq_nil_or_concat' chunks with rfl | ⟨before, last, rfl⟩
  · exact absurd (UInt32.toNat_inj.mp whole.symm) positive
  · obtain ⟨t', receiving', before_⟩ := run before [last] rfl (List.cons_ne_nil _ _)
    rw [List.flatten_append, List.flatten_singleton, List.length_append] at whole
    obtain ⟨o, last_, ran⟩ := receiving'.last (nonempty last (List.mem_append_right _ List.mem_cons_self)) whole labels budget
      response dxtMain
    refine ⟨o.eax, o.target, ?_, ?_⟩
    · rw [List.length_append, List.length_singleton, Nat.add_sub_cancel]
      exact transfer_snoc (before_ dxtMain) last_
    · rw [ran, List.flatten_append, List.flatten_singleton]

/-! ## The whole -/

/-- The answer to `a`: a block, and its address in the reply. -/
theorem answerAlloc_granted (hosted : Hosted labels command response m) (nonzero : size ≠ 0)
    (granted : alloc t.calls size.toNat ≠ 0) :
    answerAlloc alloc labels response (command + 5 + 1 + 1) (sizeArg ++ (hexPrefix ++ lowercaseHex size)) t =
      told response (messageOk ++ (hexPrefix ++ lowercaseHex (alloc t.calls size.toNat))) xboxSOk
        { t with
          ctx := { t.ctx with bufferSize := size }
          data := { t.data with gImage := alloc t.calls size.toNat }
          calls := .alloc size.toNat (alloc t.calls size.toNat).toNat :: t.calls } := by
  unfold answerAlloc
  rw [argued_lowercaseHex (by decide +kernel) hosted.tellsSize nonzero]
  exact if_neg granted

/-- The answer to `i`: all of the block is to be filled. -/
theorem answerInstall_entered (hosted : Hosted labels command response m) (nonzero : v ≠ 0) :
    answerInstall labels response (command + 5 + 1 + 1) (entrypointArg ++ (hexPrefix ++ lowercaseHex v)) t =
      { eax := xboxSSendBinary
        target := { t with
          data := { t.data with gImageEntrypoint := v }
          ctx := { t.ctx with
            buffer := t.data.gImage
            bytesRemaining := t.ctx.bufferSize
            handler := some .receiveImageData } } } := by
  unfold answerInstall
  rw [argued_lowercaseHex (by decide +kernel) hosted.tellsEntrypoint nonzero]

/-- A command of the client is found by its letter, with its argument behind. -/
theorem commandText_found (two : spec.length = argLen) (plain : 0 ∉ spec) (letter : al ≠ 0) :
    subcommand (t.asked command (commandText al spec v)).memory command = al ∧
      TextAt (t.asked command (commandText al spec v)).memory (command + 5 + 1 + 1) (spec ++ (hexPrefix ++ lowercaseHex v)) := by
  have five : (ascii "ldxt!").length = 5 := by decide +kernel
  have at_ : TextAt (t.asked command (commandText al spec v)).memory command (commandText al spec v) :=
    textAt_asked two plain letter
  obtain ⟨-, -, found⟩ := textAt_append.mp at_
  rw [five] at found
  exact ⟨found.1, found.2.2.2.2⟩

theorem Hosted.allocates (hosted : Hosted labels command response t.memory) (alloc : Ledger → Nat → UInt32) (ctx : UInt32)
    (nonzero : size ≠ 0) (granted : alloc t.calls size.toNat ≠ 0) : ∃ enough, ∀ budget, enough ≤ budget →
      processCommand alloc labels budget command response ctx (t.asked command (commandText 0x61 sizeArg size)) =
        some (told response (messageOk ++ (hexPrefix ++ lowercaseHex (alloc t.calls size.toNat))) xboxSOk
          { t.asked command (commandText 0x61 sizeArg size) with
            ctx := { t.ctx with bufferSize := size }
            data := { t.data with gImage := alloc t.calls size.toNat }
            calls := .alloc size.toNat (alloc t.calls size.toNat).toNat :: t.calls }) := by
  have two : sizeArg.length = argLen := by decide +kernel
  obtain ⟨letter, at_⟩ := @commandText_found command size t 0x61 sizeArg two (by decide +kernel) (by decide)
  obtain ⟨enough, given⟩ := handleAlloc_answers (0x61 : UInt8).toUInt32 (hosted.asked two) at_ (not_stuck two)
  rw [@answerAlloc_granted alloc labels command response size _ (t.asked command (commandText 0x61 sizeArg size)) hosted nonzero
    granted] at given
  exact ⟨enough, fun budget le => (processCommand_toAlloc budget ctx letter).trans (given budget le)⟩

theorem Hosted.installs (hosted : Hosted labels command response t.memory) (alloc : Ledger → Nat → UInt32) (ctx : UInt32)
    (nonzero : v ≠ 0) : ∃ enough, ∀ budget, enough ≤ budget →
      processCommand alloc labels budget command response ctx (t.asked command (commandText 0x69 entrypointArg v)) =
        some
          { eax := xboxSSendBinary
            target := { t.asked command (commandText 0x69 entrypointArg v) with
              data := { t.data with gImageEntrypoint := v }
              ctx := { t.ctx with
                buffer := t.data.gImage
                bytesRemaining := t.ctx.bufferSize
                handler := some .receiveImageData } } } := by
  have two : entrypointArg.length = argLen := by decide +kernel
  obtain ⟨letter, at_⟩ := @commandText_found command v t 0x69 entrypointArg two (by decide +kernel) (by decide)
  obtain ⟨enough, given⟩ := handleInstall_answers (0x69 : UInt8).toUInt32 (hosted.asked two) at_ (not_stuck two)
  rw [@answerInstall_entered labels command response v _ (t.asked command (commandText 0x69 entrypointArg v)) hosted nonzero]
    at given
  exact ⟨enough, fun budget le => (processCommand_toInstall alloc budget ctx letter).trans (given budget le)⟩

theorem reply_length (v : UInt32) : (messageOk ++ (hexPrefix ++ lowercaseHex v) ++ [0]).length ≤ replySize := by
  have digits := lowercaseHex_length v
  have length : messageOk.length = 35 := by decide +kernel
  have two : hexPrefix.length = 2 := rfl
  simp only [List.length_append, List.length_singleton, length, two, replySize]
  omega

theorem reply_plain (v : UInt32) : 0 ∉ messageOk ++ (hexPrefix ++ lowercaseHex v) := by
  simp only [List.mem_append, not_or]
  exact ⟨by decide +kernel, by decide, fun listed => (lowercaseHex_all v 0 listed).2 rfl⟩

/-- Wherever the pool puts the block: the client reads its address, the whole
image arrives there however it is cut, nothing runs before its last chunk, and
then the entry point is called once. The rest of memory is as it was, but for
the buffers of the command and the response. -/
theorem upload_runs (alloc : Ledger → Nat → UInt32) (labels : Labels) (command response ctx : UInt32) (t : Target)
    (u : Upload) (base : UInt32) (hosted : Hosted labels command response t.memory)
    (block : alloc t.calls u.size.toNat = base) (granted : base ≠ 0) :
    ∃ allocated reply installed,
      (∃ enough, ∀ budget, enough ≤ budget → processCommand alloc labels budget command response ctx
        (t.asked command (commandText 0x61 sizeArg u.size)) = some allocated) ∧ allocated.eax = xboxSOk ∧
      TextAt allocated.target.memory response reply ∧ replyBase reply = some base ∧
      (∃ enough, ∀ budget, enough ≤ budget → processCommand alloc labels budget command response ctx
        (allocated.target.asked command (commandText 0x69 entrypointArg (u.entrypoint base))) = some installed) ∧
      installed.eax = xboxSSendBinary ∧
      (∀ budget before after, u.chunks base = before ++ after → after ≠ [] → ∃ t', ∀ dxtMain,
        transfer labels budget dxtMain response installed.target before =
          some (List.replicate before.length xboxSOk, t')) ∧
      ∃ m, (∀ budget dxtMain, ∃ code final, transfer labels budget dxtMain response installed.target (u.chunks base) =
          some (List.replicate ((u.chunks base).length - 1) xboxSOk ++ [code], final) ∧
          (code, final.memory, final.calls) =
            dxtMain (u.entrypoint base) (m, .alloc u.size.toNat base.toNat :: t.calls)) ∧
        BytesAt m base (u.image base) ∧
        ∀ q, (∀ i < u.size.toNat, q ≠ base + .ofNat i) → (∀ i < commandSize, q ≠ command + .ofNat i) →
          (∀ i < replySize, q ≠ response + .ofNat i) → load8 m q = load8 t.memory q := by
  have small := u.size.toNat_lt
  have image : (u.image base).length = u.size.toNat := u.whole base
  -- the reply is written behind the command
  have allocates := hosted.allocates alloc ctx u.positive (by rwa [block])
  rw [block] at allocates
  generalize made : (told response _ xboxSOk _ : Outcome) = allocated at allocates
  have memory : allocated.target.memory = write (t.asked command (commandText 0x61 sizeArg u.size)).memory response
      (messageOk ++ (hexPrefix ++ lowercaseHex base) ++ [0]) := by rw [← made]; rfl
  have text : TextAt allocated.target.memory response (messageOk ++ (hexPrefix ++ lowercaseHex base)) := by
    rw [memory]
    exact textAt_iff.mpr ⟨bytesAt_write (Nat.le_trans (reply_length base) (by decide)), reply_plain base⟩
  have hosted' : Hosted labels command response allocated.target.memory := by
    have asked : Standby labels response (t.asked command (commandText 0x61 sizeArg u.size)).memory :=
      hosted.asked (by decide +kernel)
    refine { hosted with strings := ?_ }
    rw [memory]
    exact asked.strings.write hosted.clearResponse (reply_length base)
  have installs := hosted'.installs alloc ctx (u.entered base granted)
  generalize begun : (⟨xboxSSendBinary, _⟩ : Outcome) = installed at installs
  have receiving : Receiving installed.target base u.size [] installed.target := by
    refine ⟨(write_nil _ _).symm, ?_, ?_, rfl, rfl⟩ <;> rw [← begun, ← made]
    · exact (advance_zero base).symm
    · rfl
  have transferred budget := receiving.whole u.positive (u.nonempty base) (u.whole base) labels budget response
  refine ⟨allocated, _, installed, allocates, by rw [← made]; rfl, text, replyBase_rendered base, installs,
    by rw [← begun], ?_, write installed.target.memory base (u.image base), ?_, bytesAt_write (by omega), ?_⟩
  · intro budget before after split more
    obtain ⟨t', -, taken⟩ := (transferred budget).1 before after split more
    exact ⟨t', taken⟩
  · intro budget dxtMain
    have ran := (transferred budget).2 dxtMain
    have entrypoint : installed.target.data.gImageEntrypoint = u.entrypoint base := by rw [← begun]
    have calls : installed.target.calls = .alloc u.size.toNat base.toNat :: t.calls := by
      rw [← begun, ← made]
      rfl
    rwa [entrypoint, calls] at ran
  · intro q block_ command_ response_
    have asked : installed.target.memory =
        write allocated.target.memory command (commandText 0x69 entrypointArg (u.entrypoint base) ++ [0]) := by
      rw [← begun]
      rfl
    have spares (al : UInt8) (spec : List UInt8) (v : UInt32) (two : spec.length = argLen) :
        ∀ i < (commandText al spec v ++ [0]).length, q ≠ command + .ofNat i := fun i inside => by
      rw [List.length_append] at inside
      exact command_ i (Nat.lt_of_lt_of_le inside (commandText_length two))
    rw [load8_apart (by rwa [image]), asked, load8_apart (spares _ _ _ (by decide +kernel)), memory,
      load8_apart fun i inside => response_ i (Nat.lt_of_lt_of_le inside (reply_length base)), Target.asked,
      load8_apart (spares _ _ _ (by decide +kernel))]

/-- A loader of four bytes that holds a byte of its own address. -/
def fourBytes : Upload where
  size := 4
  chunks base := [[0xC3], [(base >>> 16).toUInt8, 0, 0]]
  entrypoint base := base
  positive := by decide
  whole _ := rfl
  nonempty _ := by simp
  entered _ some_ := some_

theorem fourBytes_run : ∃ m : Bytes, load8 m 0x80000 = 0xC3 ∧ load8 m 0x80001 = 8 ∧ load8 m 0x5000 = 0 ∧
    ∃ installed : Outcome, ∀ budget, ∃ final,
      transfer labelsAt budget idleMain 0x2000 installed.target [[0xC3], [8, 0, 0]] =
        some ([xboxSOk, xboxSOk], final) ∧ final.memory = m := by
  generalize connected : opened.target (memoryWith "") = t
  have hosted : Hosted labelsAt 0x1000 0x2000 t.memory := by
    rw [← connected]
    refine ⟨?_, ?_, labelsAt_clear, ?_, ?_, ?_⟩ <;> decide +kernel
  have zero : load8 t.memory 0x5000 = 0 := by
    rw [← connected]
    decide +kernel
  obtain ⟨-, -, installed, -, -, -, -, -, -, -, m, runs, image, spares⟩ :=
    upload_runs smallPool labelsAt 0x1000 0x2000 0x4000 t fourBytes 0x80000 hosted rfl (by decide)
  have other := spares 0x5000 (by decide) (by decide) (by decide)
  refine ⟨m, image.1, image.2.1, other.trans zero, installed, fun budget => ?_⟩
  obtain ⟨code, final, ran, returned⟩ := runs budget idleMain
  obtain ⟨rfl, unchanged⟩ := Prod.mk.inj returned
  exact ⟨final, ran, (Prod.mk.inj unchanged).1⟩


end Dyndxt.Bootstrap
