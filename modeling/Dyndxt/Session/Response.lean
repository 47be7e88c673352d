import Dyndxt.Loader.DllContext
import Dyndxt.Session.LoadCommand

/-!
# `response_util.c`: what a reply writes

The response buffer, as the bytes at each offset from `response` and the spans
that were written. The length a writer is given bounds the characters it
copies, but not always the NUL after them: an error fits its buffer exactly
when the whole message does, with its NUL.
-/

namespace Dyndxt.Session
open Dyndxt.Mem Dyndxt.Pool Dyndxt.Params Dyndxt.Loader Dyndxt.Registry

structure Response where
  bytes : Bytes
  written : List Span := []

/-- `len` bytes at `p`: those of a text, and zeros behind it. -/
def Response.put (r : Response) (p len : Nat) (text : Chars) : Response where
  bytes i := if p ≤ i ∧ i < p + len then text[i - p]?.getD 0 else r.bytes i
  written := ⟨p, len⟩ :: r.written

/-- The characters from `p` to a NUL, if there is one within `n` bytes. -/
def textWithin (m : Bytes) : Nat → Nat → Option Chars
  | 0, _ => none
  | n + 1, p => if m p = 0 then some [] else (textWithin m n (p + 1)).map (m p :: ·)

/-- `strlen` of a string that ends somewhere in the address space. -/
def strlen (m : Bytes) (p : Nat) : Nat := ((textWithin m (2 ^ 32) p).getD []).length

/-- `strncat`: at most `n` characters, and always a NUL after them. -/
def strncat (dest : Nat) (src : Chars) (n : Nat) (r : Response) : Response :=
  r.put (dest + strlen r.bytes dest) (min n src.length + 1) (src.take n)

/-- `strncpy`: exactly `n` bytes, NULs behind a shorter string. -/
def strncpy (dest : Nat) (src : Chars) (n : Nat) (r : Response) : Response := r.put dest n src

section Writers

variable (message suffix : Chars) (responseLen : UInt32) (r : Response)

/-- What `SetXBDMError` writes. -/
def setXBDMError : Response := strncat 0 message responseLen.toNat (r.put 0 1 [])

/-- What `SetXBDMErrorWithSuffix` writes. -/
def setXBDMErrorWithSuffix : Response :=
  let messageLen : UInt32 := .ofNat message.length
  let r := strncat 0 message responseLen.toNat (r.put 0 1 [])
  if messageLen < responseLen then strncat messageLen.toNat suffix (responseLen - messageLen).toNat r else r

/-- What a reply writes. -/
def Reply.respond : Reply → Response
  | .error _ message => setXBDMError (ascii message) responseLen r
  | .errorWithSuffix _ message suffix => setXBDMErrorWithSuffix (ascii message) suffix responseLen r
  | .parseError parseReturnCode => strncpy 0 (ascii (cpPrintError parseReturnCode).1) responseLen.toNat r
  | .text _ message => strncat 0 (ascii message) responseLen.toNat (r.put 0 1 [])
  | .silent _ => r

/-- No byte behind the buffer is written, and the buffer holds as much of the
message as there is room for, with a NUL after it. -/
structure Fits : Prop where
  inside : ∀ span ∈ r.written, span.off + span.len ≤ responseLen.toNat
  text : textWithin r.bytes responseLen.toNat 0 = some (message.take (responseLen.toNat - 1))

end Writers

variable {r : Response} {m : Bytes} {text message suffix : Chars} {p n len : Nat} {responseLen : UInt32}

/-! ## Texts in memory -/

theorem put_inside {i : Nat} (inside : i < len) : (r.put p len text).bytes (p + i) = text[i]?.getD 0 := by
  have range : p ≤ p + i ∧ p + i < p + len := by omega
  simp only [Response.put, if_pos range, Nat.add_sub_cancel_left]

theorem put_outside {i : Nat} (outside : i < p ∨ p + len ≤ i) : (r.put p len text).bytes i = r.bytes i := by
  have range : ¬ (p ≤ i ∧ i < p + len) := by omega
  simp only [Response.put, if_neg range]

/-- A text and the NUL after it, within reach. -/
theorem textWithin_eq (stands : ∀ i ≤ text.length, m (p + i) = text[i]?.getD 0) (free : 0 ∉ text)
    (reach : text.length < n) : textWithin m n p = some text := by
  induction text generalizing p n with
  | nil =>
    obtain ⟨n, rfl⟩ := Nat.exists_eq_add_of_lt reach
    have nul : m p = 0 := stands 0 (Nat.le_refl _)
    simp only [textWithin, nul, if_true]
  | cons c text ih =>
    obtain ⟨n, rfl⟩ := Nat.exists_eq_add_of_lt reach
    have first : m p = c := stands 0 (Nat.zero_le _)
    rw [List.mem_cons, not_or] at free
    have some_ : ¬ m p = 0 := fun nul => free.1 (nul.symm.trans first)
    have rest : textWithin m ((c :: text).length + n) (p + 1) = some text := by
      refine ih (fun i le => ?_) free.2 (by rw [List.length_cons]; omega)
      rw [Nat.add_assoc, Nat.add_comm 1 i]
      exact stands (i + 1) (Nat.succ_le_succ le)
    rw [textWithin, if_neg some_, rest, Option.map_some, first]

theorem textWithin_none (some_ : ∀ i < n, m (p + i) ≠ 0) : textWithin m n p = none := by
  induction n generalizing p with
  | zero => rfl
  | succ n ih =>
    have first : ¬ m p = 0 := some_ 0 (Nat.succ_pos n)
    have rest : textWithin m n (p + 1) = none := by
      refine ih fun i lt => ?_
      rw [Nat.add_assoc, Nat.add_comm 1 i]
      exact some_ (i + 1) (Nat.succ_lt_succ lt)
    rw [textWithin, if_neg first, rest, Option.map_none]

theorem strlen_nul (nul : m p = 0) : strlen m p = 0 := by
  have empty : textWithin m (2 ^ 32) p = some [] := by
    refine textWithin_eq (fun i le => ?_) (by simp) (by decide)
    obtain rfl : i = 0 := Nat.le_zero.mp le
    exact nul
  rw [strlen, empty]
  rfl

/-- At an empty string `strncat` writes its characters and a NUL. -/
theorem strncat_nul (nul : r.bytes p = 0) :
    strncat p message n r = r.put p (min n message.length + 1) (message.take n) := by
  rw [strncat, strlen_nul nul, Nat.add_zero]

/-! ## Writers -/

/-- A reply to an empty list of writes. -/
abbrev fresh (buffer : Bytes) : Response := { bytes := buffer }

/-- A message that is shorter than the buffer is its own longest prefix. -/
theorem fits_whole (short : message.length < responseLen.toNat) (free : 0 ∉ message)
    (inside : ∀ span ∈ r.written, span.off + span.len ≤ responseLen.toNat)
    (stands : ∀ i ≤ message.length, r.bytes i = message[i]?.getD 0) : Fits message responseLen r := by
  refine ⟨inside, ?_⟩
  rw [List.take_of_length_le (by omega)]
  refine textWithin_eq (fun i le => ?_) free short
  rw [Nat.zero_add]
  exact stands i le

/-- What `*response = 0; strncat(response, message, response_len)` leaves. -/
theorem setXBDMError_eq (message : Chars) (responseLen : UInt32) (r : Response) :
    setXBDMError message responseLen r = (r.put 0 1 []).put 0 (min responseLen.toNat message.length + 1)
      (message.take responseLen.toNat) :=
  strncat_nul (@put_inside r [] 0 1 0 Nat.zero_lt_one)

/-- `SetXBDMError` writes behind the buffer exactly when the message fills it. -/
theorem setXBDMError_fits (buffer : Bytes) (free : 0 ∉ message) :
    Fits message responseLen (setXBDMError message responseLen (fresh buffer)) ↔
      message.length < responseLen.toNat := by
  rw [setXBDMError_eq]
  constructor
  · intro fits
    have last := fits.inside _ List.mem_cons_self
    dsimp only at last
    omega
  · intro short
    refine fits_whole short free ?_ fun i le => ?_
    · intro span listed
      obtain rfl | rfl : span = ⟨0, min responseLen.toNat message.length + 1⟩ ∨ span = ⟨0, 1⟩ := by
        simpa [Response.put] using listed
      · dsimp only
        omega
      · dsimp only
        omega
    · have read := @put_inside ((fresh buffer).put 0 1 []) (message.take responseLen.toNat) 0
        (min responseLen.toNat message.length + 1) i (by omega)
      rw [Nat.zero_add, List.take_of_length_le (by omega)] at read
      rw [List.take_of_length_le (by omega)]
      exact read

/-- `SetXBDMErrorWithSuffix` does so exactly when message and suffix together
fill it. -/
theorem setXBDMErrorWithSuffix_fits (buffer : Bytes) (sized : message.length < 2 ^ 32)
    (free : 0 ∉ message ++ suffix) :
    Fits (message ++ suffix) responseLen
        (setXBDMErrorWithSuffix message suffix responseLen (fresh buffer)) ↔
      (message ++ suffix).length < responseLen.toNat := by
  have length : (UInt32.ofNat message.length).toNat = message.length := by
    rw [UInt32.toNat_ofNat', Nat.mod_eq_of_lt sized]
  have errorEq := setXBDMError_eq message responseLen (fresh buffer)
  unfold setXBDMError at errorEq
  unfold setXBDMErrorWithSuffix
  dsimp only
  rw [errorEq, length]
  by_cases room : message.length < responseLen.toNat
  · have guard : UInt32.ofNat message.length < responseLen := by rwa [UInt32.lt_iff_toNat_lt, length]
    have left : (responseLen - UInt32.ofNat message.length).toNat = responseLen.toNat - message.length := by
      rw [UInt32.toNat_sub_of_le _ _ (UInt32.le_of_lt guard), length]
    generalize first : ((fresh buffer).put 0 1 []).put 0 (min responseLen.toNat message.length + 1)
      (message.take responseLen.toNat) = r
    have whole (i : Nat) (le : i ≤ message.length) : r.bytes i = message[i]?.getD 0 := by
      have read := @put_inside ((fresh buffer).put 0 1 []) (message.take responseLen.toNat) 0
        (min responseLen.toNat message.length + 1) i (by omega)
      rwa [first, Nat.zero_add, List.take_of_length_le (by omega)] at read
    have nul : r.bytes message.length = 0 := by
      rw [whole _ (Nat.le_refl _), List.getElem?_eq_none (Nat.le_refl _), Option.getD_none]
    rw [if_pos guard, left, strncat_nul nul]
    constructor
    · intro fits
      have last := fits.inside _ List.mem_cons_self
      dsimp only at last
      rw [List.length_append]
      omega
    · intro short
      rw [List.length_append] at short
      refine fits_whole (by rwa [List.length_append]) free ?_ fun i le => ?_
      · intro span listed
        rw [← first] at listed
        obtain rfl | rfl | rfl : span = ⟨message.length,
            min (responseLen.toNat - message.length) suffix.length + 1⟩ ∨
            span = ⟨0, min responseLen.toNat message.length + 1⟩ ∨ span = ⟨0, 1⟩ := by
          simpa [Response.put] using listed
        · dsimp only
          omega
        · dsimp only
          omega
        · dsimp only
          omega
      · rw [List.length_append] at le
        rcases Nat.lt_or_ge i message.length with before | behind
        · rw [put_outside (.inl before), whole i (by omega), List.getElem?_append_left before]
        · obtain ⟨j, rfl⟩ := Nat.exists_eq_add_of_le behind
          rw [put_inside (by omega), List.take_of_length_le (by omega),
            List.getElem?_append_right (by omega), Nat.add_sub_cancel_left]
  · have guard : ¬ UInt32.ofNat message.length < responseLen := by rwa [UInt32.lt_iff_toNat_lt, length]
    rw [if_neg guard]
    constructor
    · intro fits
      have last := fits.inside _ List.mem_cons_self
      dsimp only at last
      omega
    · intro short
      rw [List.length_append] at short
      omega

/-- `CPPrintError` leaves no NUL exactly when its text fills the buffer. -/
theorem strncpy_fits (buffer : Bytes) (free : 0 ∉ message) :
    Fits message responseLen (strncpy 0 message responseLen.toNat (fresh buffer)) ↔
      message.length < responseLen.toNat := by
  constructor
  · intro fits
    by_contra long
    have text := fits.text
    rw [textWithin_none] at text
    · cases text
    · intro i lt
      have inside : i < message.length := by omega
      rw [Nat.zero_add, strncpy, ← Nat.zero_add i, put_inside lt, List.getElem?_eq_getElem inside,
        Option.getD_some]
      exact fun nul => free (nul ▸ List.getElem_mem inside)
  · intro short
    refine fits_whole short free ?_ fun i le => ?_
    · intro span listed
      obtain rfl : span = ⟨0, responseLen.toNat⟩ := by simpa [strncpy, Response.put] using listed
      dsimp only
      omega
    · have read := @put_inside (fresh buffer) message 0 responseLen.toNat i (by omega)
      rwa [Nat.zero_add] at read

/-! ## The errors of `ProcessCommand` -/

/-- The error message that a command is to be answered with. -/
inductive Intends (alloc : Ledger → Nat → Nat) (command : Chars) (calls : Ledger) : Chars → Prop
  /-- Neither `hello` nor `load`: the command is echoed. -/
  | unknown (notHello : (command.drop sizeofHandlerName).take 5 ≠ helloCommand)
      (notLoad : (command.drop sizeofHandlerName).take 4 ≠ loadCommand) :
      Intends alloc command calls (ascii "Unknown command " ++ command)
  | malformed (r : ParseResult) (load : (command.drop sizeofHandlerName).take 4 = loadCommand)
      (parsed : cpParseCommandParameters .target alloc (some (command.drop 4)) (some {}) calls = .ok r)
      (negative : r.ret < 0) : Intends alloc command calls (ascii (cpPrintError r.ret).1)
  | unsized (r : ParseResult) (size : UInt32) (load : (command.drop sizeofHandlerName).take 4 = loadCommand)
      (parsed : cpParseCommandParameters .target alloc (some (command.drop 4)) (some {}) calls = .ok r)
      (nonnegative : ¬ r.ret < 0) (missing : cpGetUInt32 32 sizeKey (r.result.getD {}) = (false, size)) :
      Intends alloc command calls (ascii "Missing required 'size' param")
  | starved (r : ParseResult) (size : UInt32) (load : (command.drop sizeofHandlerName).take 4 = loadCommand)
      (parsed : cpParseCommandParameters .target alloc (some (command.drop 4)) (some {}) calls = .ok r)
      (nonnegative : ¬ r.ret < 0) (found : cpGetUInt32 32 sizeKey (r.result.getD {}) = (true, size)) :
      Intends alloc command calls (ascii "Allocation failed")

variable {alloc : Ledger → Nat → Nat} {command : Chars} {ctx : CommandContext} {store : ContextStore}
  {registry : ModuleRegistry} {o : Outcome}

theorem cpPrintError_free (parseReturnCode : Int) : 0 ∉ ascii (cpPrintError parseReturnCode).1 := by
  unfold cpPrintError
  repeat' split
  all_goals decide +kernel

/-- An error's reply is the one intended, by one of the writers. -/
theorem handleDynamicLoad_fits (buffer : Bytes) (load : (command.drop sizeofHandlerName).take 4 = loadCommand)
    (handled : handleDynamicLoad alloc (command.drop 4) ctx store registry = some o)
    (error : IsError o.reply.code) : ∃ message, Intends alloc command registry.calls message ∧
      (Fits message responseLen (o.reply.respond responseLen (fresh buffer)) ↔
        message.length < responseLen.toNat) := by
  cases handleDynamicLoad_ends alloc (command.drop 4) ctx registry with
  | overread calls parsed ends => cases (ends store).symm.trans handled
  | malformed r parsed negative ends =>
    cases (ends store).symm.trans handled
    exact ⟨_, .malformed r load parsed negative, strncpy_fits buffer (cpPrintError_free r.ret)⟩
  | unsized r size parsed nonnegative missing ends =>
    cases (ends store).symm.trans handled
    exact ⟨_, .unsized r size load parsed nonnegative missing, setXBDMError_fits buffer (by decide +kernel)⟩
  | starved r size parsed nonnegative found ends =>
    cases (ends store).symm.trans handled
    exact ⟨_, .starved r size load parsed nonnegative found, setXBDMError_fits buffer (by decide +kernel)⟩
  | accepted r size base parsed nonnegative found some_ ends =>
    cases (ends store).symm.trans handled
    exact absurd error (by decide : ¬ IsError xboxSSendBinary)

/-- The error response of `ProcessCommand` fits its buffer exactly when the
message is shorter than the buffer. -/
theorem processCommand_fits (alloc : Ledger → Nat → Nat) (command : Chars) (ctx : CommandContext)
    (store : ContextStore) (registry : ModuleRegistry) (o : Outcome) (buffer : Bytes) (responseLen : UInt32)
    (free : 0 ∉ command) (processed : processCommand alloc command ctx store registry = some o)
    (error : IsError o.reply.code) : ∃ message, Intends alloc command registry.calls message ∧
      (Fits message responseLen (o.reply.respond responseLen (fresh buffer)) ↔
        message.length < responseLen.toNat) := by
  unfold processCommand at processed
  dsimp only at processed
  split at processed
  · cases processed
  split at processed
  · unfold handleHello at processed
    split at processed
    · cases processed
    · cases processed
      exact absurd error (by decide : ¬ IsError xboxSMultiline)
  next notHello =>
  split at processed
  · next load => exact handleDynamicLoad_fits buffer load processed error
  next notLoad =>
  cases processed
  refine ⟨_, .unknown notHello notLoad, setXBDMErrorWithSuffix_fits buffer (by decide +kernel) ?_⟩
  rw [List.mem_append, not_or]
  exact ⟨by decide +kernel, free⟩

/-- `ddxt!x` -/
def unknownCommand : Chars := [0x64, 0x64, 0x78, 0x74, 0x21, 0x78]

/-- It is echoed in a buffer of 23 bytes. -/
theorem unknownCommand_fits : ∃ o, processCommand bump unknownCommand {} {} {} = some o ∧
    Fits (ascii "Unknown command " ++ unknownCommand) 23 (o.reply.respond 23 (fresh fun _ => 1)) := by
  obtain ⟨o, processed⟩ : ∃ o, processCommand bump unknownCommand {} {} {} = some o := ⟨_, rfl⟩
  have error : IsError o.reply.code := by
    cases processed
    decide
  obtain ⟨message, intends, fits⟩ := processCommand_fits bump unknownCommand {} {} {} o (fun _ => 1) 23
    (by decide) processed error
  refine ⟨o, processed, ?_⟩
  cases intends with
  | unknown notHello notLoad => exact fits.mpr (by decide +kernel)
  | malformed r load => exact absurd load (by decide)
  | unsized r size load => exact absurd load (by decide)
  | starved r size load => exact absurd load (by decide)

/-- In one of 22 bytes its NUL is the 23rd. -/
theorem unknownCommand_overruns : ∃ o, processCommand bump unknownCommand {} {} {} = some o ∧
    IsError o.reply.code ∧ (o.reply.respond 22 (fresh fun _ => 1)).written.head? = some ⟨16, 7⟩ ∧
    ¬ Fits (ascii "Unknown command " ++ unknownCommand) 22 (o.reply.respond 22 (fresh fun _ => 1)) := by
  refine ⟨_, rfl, by decide, by decide +kernel, fun fits => ?_⟩
  have last := fits.inside ⟨16, 7⟩ (by decide +kernel)
  exact absurd last (by decide)

end Dyndxt.Session
