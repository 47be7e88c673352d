import Dyndxt.Bootstrap.IntegerToHex
import Dyndxt.Bootstrap.ResolveLoop

/-!
# The commands `a` and `i` by their texts

What the two commands do with any text, without registers and loops: the
argument that is taken from it, and the text of the reply.
-/

namespace Dyndxt.Bootstrap
open Dyndxt.Mem Dyndxt.Run Dyndxt.Pool Dyndxt.Loader
open Dyndxt.Session (xboxSOk xboxSSendBinary xboxEFail xboxEUnknownCommand xboxEAccessDenied)

/-! ## Strings -/

/-- `SIZE_ARG` -/
def sizeArg : List UInt8 := ascii "s="

/-- `ENTRYPOINT_ARG` -/
def entrypointArg : List UInt8 := ascii "e="

/-- `MESSAGE_OK` -/
def messageOk : List UInt8 := ascii "Ready to receive binary data. base="

def messageInstallFailed : List UInt8 := ascii "Install failed"

def messageOutOfMemory : List UInt8 := ascii "Out of memory"

def messageUsageResolve : List UInt8 := ascii "Usage \"r [b=<base_hex> [o=<ordinal>]]\""

def messageUsageAlloc : List UInt8 := ascii "Usage \"a s=<size_hex>\""

def messageUsageInstall : List UInt8 := ascii "Usage \"i e=<entrypoint_hex>\""

/-- What is compared, looked up or copied, and where it is. -/
def Labels.strings (labels : Labels) : List (UInt32 × List UInt8) :=
  [(labels.gBaseArg, baseArg), (labels.gOrdinalArg, ordinalArg), (labels.gSizeArg, sizeArg),
    (labels.gEntrypointArg, entrypointArg), (labels.gHexChars, hexChars),
    (labels.gMessageInstallFailed, messageInstallFailed ++ [0]), (labels.gMessageOutOfMemory, messageOutOfMemory ++ [0]),
    (labels.gMessageOk, messageOk ++ [0]), (labels.gMessageUsageResolve, messageUsageResolve ++ [0]),
    (labels.gMessageUsageAlloc, messageUsageAlloc ++ [0]), (labels.gMessageUsageInstall, messageUsageInstall ++ [0])]

/-- The bootstrap's strings are in memory. -/
def Labels.In (labels : Labels) (m : Bytes) : Prop := ∀ s ∈ labels.strings, BytesAt m s.1 s.2

/-- None of them is in the `n` bytes at `p`. -/
def Labels.Clear (labels : Labels) (p : UInt32) (n : Nat) : Prop :=
  ∀ s ∈ labels.strings, ∀ j < s.2.length, ∀ i < n, s.1 + .ofNat j ≠ p + .ofNat i

instance (labels : Labels) (m : Bytes) : Decidable (labels.In m) :=
  inferInstanceAs (Decidable (∀ s ∈ labels.strings, BytesAt m s.1 s.2))

instance (labels : Labels) (p : UInt32) (n : Nat) : Decidable (labels.Clear p n) :=
  inferInstanceAs (Decidable (∀ s ∈ labels.strings, ∀ j < s.2.length, ∀ i < n, s.1 + .ofNat j ≠ p + .ofNat i))

/-- The bytes of the longest reply: `MESSAGE_OK`, `0x`, eight digits and the
NUL. -/
def replySize : Nat := 46

/-- The strings are in memory, and the response is a buffer apart from them that
does not straddle `0x80000000`. -/
structure Standby (labels : Labels) (response : UInt32) (m : Bytes) : Prop where
  strings : labels.In m
  clear : labels.Clear response replySize
  side : (response + .ofNat messageOk.length).toNat + 11 ≤ 2 ^ 31 ∨ 2 ^ 31 ≤ (response + .ofNat messageOk.length).toNat

/-! ## Answers -/

/-- The argument of a command, with its specifier at `edi` and its text at
`esi`. -/
def argued (edi esi : UInt32) (spec text : List UInt8) : Option UInt32 :=
  let value := (takeNumber esi (text.drop 2)).1
  if spec <+: text ∧ Tells edi esi ∧ value ≠ 0 then some value else none

/-- A text is replied. -/
def told (response : UInt32) (text : List UInt8) (code : UInt32) (t : Target) : Outcome :=
  { eax := code, target := { t with memory := write t.memory response (text ++ [0]) } }

/-- What a command does, if it comes to an end. -/
inductive Answer where
  | endless
  | done (o : Outcome)

/-- What the program does on growing budgets. -/
def Answer.Given (program : Nat → Option Outcome) : Answer → Prop
  | .endless => ∀ budget, program budget = none
  | .done o => ∃ enough, ∀ budget, enough ≤ budget → program budget = some o

section

variable (alloc : Ledger → Nat → UInt32) (labels : Labels) (response esi : UInt32) (text : List UInt8) (t : Target)

/-- `a` -/
def answerAlloc : Outcome :=
  match argued labels.gSizeArg esi sizeArg text with
  | none => told response messageUsageAlloc xboxEFail t
  | some size =>
    let block := alloc t.calls size.toNat
    let t := { t with ctx := { t.ctx with bufferSize := size }, calls := .alloc size.toNat block.toNat :: t.calls }
    if block = 0 then told response messageOutOfMemory xboxEAccessDenied t
    else told response (messageOk ++ (hexPrefix ++ lowercaseHex block)) xboxSOk { t with data := { t.data with gImage := block } }

/-- `i` -/
def answerInstall : Outcome :=
  match argued labels.gEntrypointArg esi entrypointArg text with
  | none => told response messageUsageInstall xboxEFail t
  | some entrypoint =>
    { eax := xboxSSendBinary
      target := { t with
        data := { t.data with gImageEntrypoint := entrypoint }
        ctx := { t.ctx with
          buffer := t.data.gImage
          bytesRemaining := t.ctx.bufferSize
          handler := some .receiveImageData } } }

/-- The specifier is there, and behind it a number that `parse_integer` does not
come to the end of. -/
def Stuck (spec text : List UInt8) : Prop := spec <+: text ∧ Endless (text.drop 2)

instance (spec text : List UInt8) : Decidable (Stuck spec text) := inferInstanceAs (Decidable (_ ∧ _))

/-- A command other than `r`, by its letter and the text of its arguments. -/
def answer (al : UInt8) : Answer :=
  if al = 0x69 then
    if Stuck entrypointArg text then .endless else .done (answerInstall labels response esi text t)
  else if al = 0x61 then
    if Stuck sizeArg text then .endless else .done (answerAlloc alloc labels response esi text t)
  else .done { eax := xboxEUnknownCommand, target := t }

end

variable {alloc : Ledger → Nat → UInt32} {labels : Labels} {response eax esi edi code message v p : UInt32}
  {text spec bytes rest later : List UInt8} {t : Target} {m : Bytes} {n k : Nat} {al : UInt8}

/-! ## Memory -/

/-- What is written at `p` leaves the strings apart from it. -/
theorem Labels.In.write (strings : labels.In m) (clear : labels.Clear p n) (fits : bytes.length ≤ n) :
    labels.In (write m p bytes) :=
  fun s listed => (strings s listed).congr fun j inside =>
    load8_apart fun i below => clear s listed j inside i (Nat.lt_of_lt_of_le below fits)

/-- What is written over the end of what was written before, and no shorter. -/
theorem write_over (fits : (bytes ++ later).length ≤ 2 ^ 32) (covers : rest.length ≤ later.length) :
    write (write m p (bytes ++ rest)) (p + .ofNat bytes.length) later = write m p (bytes ++ later) := by
  rw [List.length_append] at fits
  have fits' : bytes.length + rest.length ≤ 2 ^ 32 := by omega
  have first : write m p (bytes ++ rest) = place Build.target.space (write m p bytes) (p.toNat + bytes.length) rest :=
    (place_append fits').symm
  have whole : write m p (bytes ++ later) = place Build.target.space (write m p bytes) (p.toNat + bytes.length) later :=
    (place_append fits).symm
  rw [first, whole, write, address_add, place_mod]
  exact place_place covers

/-- A message of the bootstrap is copied to the response. -/
theorem strcpy_told (standby : Standby labels response m) (listed : (message, text ++ [0]) ∈ labels.strings)
    (plain : 0 ∉ text) (short : text.length < replySize) : ∃ enough, ∀ budget, enough ≤ budget →
      strcpy budget m response message = some (write m response (text ++ [0]), response + .ofNat text.length) := by
  refine strcpy_copies (textAt_iff.mpr ⟨standby.strings _ listed, plain⟩) fun i le j le' => ?_
  refine standby.clear _ listed j ?_ i (Nat.lt_of_le_of_lt le short)
  rw [List.length_append]
  exact Nat.lt_succ_of_le le'

theorem respond_told (standby : Standby labels response t.memory) (listed : (message, text ++ [0]) ∈ labels.strings)
    (plain : 0 ∉ text) (short : text.length < replySize) : ∃ enough, ∀ budget, enough ≤ budget →
      respond budget response message code t = some (told response text code t) := by
  obtain ⟨enough, budgets⟩ := strcpy_told standby listed plain short
  refine ⟨enough, fun budget le => ?_⟩
  unfold respond
  rw [budgets budget le]
  rfl

/-- A number behind a message. -/
theorem number_told (standby : Standby labels response m) (nonzero : v ≠ 0) : ∃ enough, ∀ budget, enough ≤ budget →
    integerToHex budget labels.gHexChars (write m response (messageOk ++ [0])) v (response + .ofNat messageOk.length) =
      some (write m response (messageOk ++ (hexPrefix ++ lowercaseHex v) ++ [0])) := by
  have length : messageOk.length = 35 := by decide +kernel
  have listed : (labels.gHexChars, hexChars) ∈ labels.strings := by simp [Labels.strings]
  have sixteen : hexChars.length = 16 := by decide +kernel
  have strings : labels.In (write m response (messageOk ++ [0])) := standby.strings.write standby.clear (by decide +kernel)
  have table : TableAt (write m response (messageOk ++ [0])) labels.gHexChars (response + .ofNat messageOk.length) := by
    refine ⟨strings _ listed, fun i below j inside => ?_⟩
    have apart := standby.clear _ listed j (by rw [sixteen]; exact inside) (messageOk.length + i)
      (by rw [length]; unfold replySize; omega)
    rwa [UInt32.ofNat_add, ← UInt32.add_assoc] at apart
  obtain ⟨enough, budgets⟩ := integerToHex_eq standby.side nonzero table
  have digits := lowercaseHex_length v
  have two : hexPrefix.length = 2 := rfl
  refine ⟨enough, fun budget le => (budgets budget le).trans (congrArg some ?_)⟩
  rw [List.append_assoc messageOk]
  refine write_over ?_ ?_ <;> simp only [List.length_append, List.length_singleton, length, two] <;> omega

/-! ## The argument -/

theorem argued_other (other : ¬ spec <+: text) : argued edi esi spec text = none := if_neg fun all => other all.1

theorem argued_number (edi esi : UInt32) (two : spec.length = argLen) (more : List UInt8) :
    argued edi esi spec (spec ++ more) =
      if Tells edi esi ∧ (takeNumber esi more).1 ≠ 0 then some (takeNumber esi more).1 else none := by
  have behind : (spec ++ more).drop 2 = more := List.drop_left' two
  unfold argued
  rw [behind]
  simp only [List.prefix_append, true_and]

/-- `parse_arg` goes by the text. -/
theorem parseArg_argued (eax : UInt32) (spec_ : BytesAt m edi spec) (two : spec.length = argLen) (plain : 0 ∉ spec)
    (at_ : TextAt m esi text) (free : ¬ Stuck spec text) :
    ∃ arg : ParsedArg, (arg.ecx ≠ 0 ∨ arg.eax = 0 ↔ argued edi esi spec text = none) ∧
      (∀ v, argued edi esi spec text = some v → arg.eax = v) ∧
      ∃ enough, ∀ budget, enough ≤ budget → parseArg budget m eax esi edi argLen = some arg := by
  by_cases starts : spec <+: text
  · obtain ⟨more, rfl⟩ := starts
    have ends : ¬ Endless more := fun endless =>
      free ⟨List.prefix_append _ _, by rwa [show (spec ++ more).drop 2 = more from List.drop_left' two]⟩
    obtain ⟨arg, value, -, tells, budgets⟩ := parseArg_takes eax spec_ two at_ ends
    refine ⟨arg, ?_, fun v found => ?_, budgets⟩
    · rw [argued_number edi esi two, value, ite_eq_right_iff, ← tells]
      constructor
      · rintro refused ⟨zero, nonzero⟩
        exact absurd refused (not_or.mpr ⟨not_not.mpr zero, nonzero⟩)
      · intro none
        by_contra accepted
        rw [not_or, not_not] at accepted
        exact nomatch none accepted
    · rw [argued_number edi esi two] at found
      split at found
      · rw [value]
        exact Option.some.inj found
      · cases found
  · rw [argued_other starts]
    refine ⟨{ eax, ecx := 1, esi }, iff_of_true (.inl (show (1 : UInt32) ≠ 0 by decide)) rfl, nofun, 0, fun budget _ => ?_⟩
    rw [← two]
    exact parseArg_mismatch spec_ plain at_ starts

theorem parseArg_stuck (eax : UInt32) (spec_ : BytesAt m edi spec) (two : spec.length = argLen) (at_ : TextAt m esi text)
    (stuck : Stuck spec text) (budget : Nat) : parseArg budget m eax esi edi argLen = none := by
  obtain ⟨⟨more, rfl⟩, endless⟩ := stuck
  rw [show (spec ++ more).drop 2 = more from List.drop_left' two] at endless
  exact parseArg_endless eax spec_ two at_ endless budget

/-! ## The handlers -/

theorem handleAlloc_answers (eax : UInt32) (standby : Standby labels response t.memory) (at_ : TextAt t.memory esi text)
    (free : ¬ Stuck sizeArg text) : ∃ enough, ∀ budget, enough ≤ budget →
      handleAlloc alloc labels budget response eax esi t = some (answerAlloc alloc labels response esi text t) := by
  have spec_ : BytesAt t.memory labels.gSizeArg sizeArg := standby.strings (labels.gSizeArg, sizeArg) (by simp [Labels.strings])
  obtain ⟨arg, refused, value, enough, parses⟩ := parseArg_argued eax spec_ (by decide +kernel) (by decide +kernel) at_ free
  unfold handleAlloc answerAlloc
  cases asked : argued labels.gSizeArg esi sizeArg text with
  | none =>
    have bad := refused.mpr asked
    obtain ⟨enough', responds⟩ := @respond_told labels response xboxEFail labels.gMessageUsageAlloc messageUsageAlloc t standby
      (by simp [Labels.strings]) (by decide +kernel) (by decide +kernel)
    refine ⟨enough + enough', fun budget le => ?_⟩
    rw [parses budget (by omega)]
    exact (if_pos bad).trans (responds budget (by omega))
  | some size =>
    have good : ¬ (arg.ecx ≠ 0 ∨ arg.eax = 0) := fun bad => nomatch (refused.mp bad).symm.trans asked
    have size_ : arg.eax = size := value size asked
    by_cases denied : alloc t.calls size.toNat = 0
    · obtain ⟨enough', responds⟩ := @respond_told labels response xboxEAccessDenied labels.gMessageOutOfMemory
        messageOutOfMemory { t with ctx := { t.ctx with bufferSize := size }
                                    calls := .alloc size.toNat (alloc t.calls size.toNat).toNat :: t.calls }
        standby (by simp [Labels.strings]) (by decide +kernel) (by decide +kernel)
      refine ⟨enough + enough', fun budget le => ?_⟩
      rw [parses budget (by omega)]
      refine (if_neg good).trans ?_
      rw [size_]
      exact (if_pos denied).trans ((responds budget (by omega)).trans (congrArg some (if_pos denied).symm))
    · obtain ⟨enough', copies⟩ := @strcpy_told labels response labels.gMessageOk messageOk t.memory standby
        (by simp [Labels.strings]) (by decide +kernel) (by decide +kernel)
      obtain ⟨enough'', writes⟩ := number_told standby denied
      refine ⟨enough + enough' + enough'', fun budget le => ?_⟩
      rw [parses budget (by omega)]
      refine (if_neg good).trans ?_
      rw [size_]
      refine (if_neg denied).trans (Eq.trans ?_ (congrArg some (if_neg denied).symm))
      dsimp only [Target.allocate]
      rw [copies budget (by omega)]
      dsimp only [Option.bind_eq_bind, Option.bind_some]
      rw [writes budget (by omega)]
      rfl

theorem handleInstall_answers (eax : UInt32) (standby : Standby labels response t.memory) (at_ : TextAt t.memory esi text)
    (free : ¬ Stuck entrypointArg text) : ∃ enough, ∀ budget, enough ≤ budget →
      handleInstall labels budget response eax esi t = some (answerInstall labels response esi text t) := by
  have spec_ : BytesAt t.memory labels.gEntrypointArg entrypointArg :=
    standby.strings (labels.gEntrypointArg, entrypointArg) (by simp [Labels.strings])
  obtain ⟨arg, refused, value, enough, parses⟩ := parseArg_argued eax spec_ (by decide +kernel) (by decide +kernel) at_ free
  unfold handleInstall answerInstall
  cases asked : argued labels.gEntrypointArg esi entrypointArg text with
  | none =>
    have bad := refused.mpr asked
    obtain ⟨enough', responds⟩ := @respond_told labels response xboxEFail labels.gMessageUsageInstall messageUsageInstall t
      standby (by simp [Labels.strings]) (by decide +kernel) (by decide +kernel)
    refine ⟨enough + enough', fun budget le => ?_⟩
    rw [parses budget (by omega)]
    exact (if_pos bad).trans (responds budget (by omega))
  | some entrypoint =>
    have good : ¬ (arg.ecx ≠ 0 ∨ arg.eax = 0) := fun bad => nomatch (refused.mp bad).symm.trans asked
    refine ⟨enough, fun budget le => ?_⟩
    rw [parses budget le]
    refine (if_neg good).trans ?_
    rw [value entrypoint asked]
    rfl

theorem handleAlloc_stuck (eax : UInt32) (standby : Standby labels response t.memory) (at_ : TextAt t.memory esi text)
    (stuck : Stuck sizeArg text) (budget : Nat) : handleAlloc alloc labels budget response eax esi t = none := by
  have spec_ : BytesAt t.memory labels.gSizeArg sizeArg := standby.strings (labels.gSizeArg, sizeArg) (by simp [Labels.strings])
  unfold handleAlloc
  rw [parseArg_stuck eax spec_ (by decide +kernel) at_ stuck budget]
  rfl

theorem handleInstall_stuck (eax : UInt32) (standby : Standby labels response t.memory) (at_ : TextAt t.memory esi text)
    (stuck : Stuck entrypointArg text) (budget : Nat) : handleInstall labels budget response eax esi t = none := by
  have spec_ : BytesAt t.memory labels.gEntrypointArg entrypointArg :=
    standby.strings (labels.gEntrypointArg, entrypointArg) (by simp [Labels.strings])
  unfold handleInstall
  rw [parseArg_stuck eax spec_ (by decide +kernel) at_ stuck budget]
  rfl

/-! ## The command -/

theorem processCommand_toInstall (alloc : Ledger → Nat → UInt32) (budget : Nat) (ctx : UInt32) {command : UInt32}
    (letter : subcommand t.memory command = 0x69) : processCommand alloc labels budget command response ctx t =
      handleInstall labels budget response (0x69 : UInt8).toUInt32 (command + 5 + 1 + 1) t := by
  unfold processCommand
  dsimp only
  rw [letter, if_pos rfl]

theorem processCommand_toAlloc (budget : Nat) (ctx : UInt32) {command : UInt32}
    (letter : subcommand t.memory command = 0x61) : processCommand alloc labels budget command response ctx t =
      handleAlloc alloc labels budget response (0x61 : UInt8).toUInt32 (command + 5 + 1 + 1) t := by
  unfold processCommand
  dsimp only
  rw [letter, if_neg (by decide), if_pos rfl]

/-- Every command but `r`, by its letter and by the text where the arguments are
looked for: `a` and `i` go on with a number exactly where their specifier is, the
pointers tell and the number is not zero; otherwise they reply with their usage
and change nothing else, or never come to the end of the number. A command that
is only a letter has its arguments behind the NUL. -/
theorem processCommand_answers (alloc : Ledger → Nat → UInt32) (labels : Labels) (command response ctx : UInt32) (t : Target)
    (al : UInt8) (args : List UInt8) (standby : Standby labels response t.memory) (other : al ≠ 0x72)
    (letter : subcommand t.memory command = al) (at_ : TextAt t.memory (command + 5 + 1 + 1) args) :
    (answer alloc labels response (command + 5 + 1 + 1) args t al).Given fun budget =>
      processCommand alloc labels budget command response ctx t := by
  unfold answer
  by_cases install : al = 0x69
  · subst install
    rw [if_pos rfl]
    simp only [processCommand_toInstall alloc _ ctx letter]
    by_cases stuck : Stuck entrypointArg args
    · rw [if_pos stuck]
      exact handleInstall_stuck _ standby at_ stuck
    · rw [if_neg stuck]
      exact handleInstall_answers _ standby at_ stuck
  rw [if_neg install]
  by_cases allocate : al = 0x61
  · subst allocate
    rw [if_pos rfl]
    simp only [processCommand_toAlloc _ ctx letter]
    by_cases stuck : Stuck sizeArg args
    · rw [if_pos stuck]
      exact handleAlloc_stuck _ standby at_ stuck
    · rw [if_neg stuck]
      exact handleAlloc_answers _ standby at_ stuck
  rw [if_neg allocate]
  refine ⟨0, fun budget _ => ?_⟩
  unfold processCommand
  dsimp only
  rw [letter, if_neg install, if_neg allocate, if_neg other]

theorem labelsAt_clear : labelsAt.Clear 0x2000 replySize := by decide +kernel

/-- The block's address is in the reply. -/
theorem sixteenBytes_replied : ∃ o enough, (∀ budget, enough ≤ budget →
    processCommand smallPool labelsAt budget 0x1000 0x2000 0x4000 (opened.target (memoryWith "ldxt!a s=0x10")) = some o) ∧
      o.eax = xboxSOk ∧ TextAt o.target.memory 0x2000 (ascii "Ready to receive binary data. base=0x80000") := by
  generalize connected : opened.target (memoryWith "ldxt!a s=0x10") = t
  have standby : Standby labelsAt 0x2000 t.memory := by
    rw [← connected]
    exact ⟨by decide +kernel, labelsAt_clear, by decide +kernel⟩
  have letter : subcommand t.memory 0x1000 = 0x61 := by
    rw [← connected]
    decide +kernel
  have at_ : TextAt t.memory (0x1000 + 5 + 1 + 1) (ascii "s=0x10") := by
    rw [← connected]
    decide +kernel
  have answers := processCommand_answers smallPool labelsAt 0x1000 0x2000 0x4000 t 0x61 (ascii "s=0x10") standby
    (by decide) letter at_
  have found : answer smallPool labelsAt 0x2000 0x1007 (ascii "s=0x10") t 0x61 =
      .done (answerAlloc smallPool labelsAt 0x2000 0x1007 (ascii "s=0x10") t) := by
    have free : ¬ Stuck sizeArg (ascii "s=0x10") := by decide +kernel
    unfold answer
    rw [if_neg (by decide), if_pos rfl, if_neg free]
  obtain ⟨enough, budgets⟩ := found ▸ answers
  refine ⟨_, enough, budgets, ?_, ?_⟩ <;> rw [← connected] <;> decide +kernel

end Dyndxt.Bootstrap
