import Dyndxt.Session.HelloLines
import Dyndxt.Session.Install

/-!
# Reserving memory for an image

A `reserve` tells the client the address of a block of the size asked for. The
text it is told is what an `install` reads the same address from, so an image
of that size is received in the block.
-/

namespace Dyndxt.Session
open Dyndxt.Mem Dyndxt.Pool Dyndxt.Params Dyndxt.Registry Dyndxt.Loader Dyndxt.Run

/-- The size that a string on its own asks for. -/
def requestedReserve (params : Chars) : Option UInt32 :=
  (readParameters params).bind fun cp => match cpGetUInt32 32 sizeKey cp with
    | (true, size) => some size
    | (false, _) => none

/-- The block is reserved, and the client told of it. -/
structure Reserved (size : UInt32) (rest : List Nat) (o : Outcome) (ptr : Nat) : Prop where
  block : ptr ≠ 0
  reply : o.reply = .text xboxSOk (addressText ptr)
  allocated : ∃ calls, o.registry.calls = .alloc size.toNat ptr :: calls
  held : Held (ptr :: rest) o.registry.calls

/-- What stands for the address in the reply. -/
def addressChars (ptr : Nat) : Chars := 0x30 :: 0x78 :: upperHex (ptr % 2 ^ 32)

/-- The pairs ask to install an image, whatever else they say. -/
structure InstallRequest.AskedBy (request : InstallRequest) (es : List Entry) : Prop where
  base : Numbered (ascii "base") es request.base
  length : Numbered (ascii "length") es request.length
  dxtMain : Numbered (ascii "entrypoint") es request.dxtMain

/-- `"ddxt!reserve "` -/
def reservePrefix : Chars := [0x64, 0x64, 0x78, 0x74, 0x21, 0x72, 0x65, 0x73, 0x65, 0x72, 0x76, 0x65, 0x20]

/-- `"serve"` -/
def reserveKey : Chars := [0x73, 0x65, 0x72, 0x76, 0x65]

variable {alloc : Ledger → Nat → Nat} {ctx : CommandContext} {store : ContextStore} {registry : ModuleRegistry}
  {rest : List Nat} {p : Chars} {o : Outcome} {ptr : Nat} {size : UInt32} {request : InstallRequest}
  {es : List Entry} {out : Except PcpErr (List Entry)}

/-! ## The command -/

theorem processCommandFull_reserve : processCommandFull alloc (reservePrefix ++ p) ctx store registry =
    handleReserve alloc (reserveKey ++ space :: p) ctx store registry := rfl

theorem isKey_reserveKey : IsKey reserveKey := by
  refine ⟨by decide, ?_⟩
  simp only [reserveKey, List.mem_cons, List.not_mem_nil, or_false, forall_eq_or_imp, forall_eq]
  decide

/-- How a `reserve` ends. -/
inductive ReserveEnds (alloc : Ledger → Nat → Nat) (p : Chars) (registry : ModuleRegistry) (rest : List Nat)
    (o : Outcome) : Prop where
  | reserved (size : UInt32) (ptr : Nat) : requestedReserve p = some size → Reserved size rest o ptr →
      Served registry.calls o.registry.calls → ReserveEnds alloc p registry rest o
  | refused : IsError o.reply.code → Held rest o.registry.calls →
      ((requestedReserve p).isSome → Denied alloc registry.calls o.registry.calls) →
      ReserveEnds alloc p registry rest o

theorem handleReserve_ends (alloc : Ledger → Nat → Nat) (ctx : CommandContext) (store : ContextStore)
    (parses : Parses p out) (held : Held rest registry.calls) :
    ∃ o, handleReserve alloc (reserveKey ++ space :: p) ctx store registry = some o ∧ o.ctx = ctx ∧ o.store = store ∧
      o.registry.exportTable = registry.exportTable ∧ ReserveEnds alloc p registry rest o := by
  obtain ⟨r, returned, parsed⟩ := parsedBehind alloc isKey_reserveKey parses held
  unfold handleReserve
  rw [returned]
  dsimp only
  cases parsed with
  | refused negative held cause =>
    rw [if_pos negative]
    refine ⟨_, rfl, rfl, rfl, rfl, .refused (isError_cpPrintError r.ret) held fun asked => ?_⟩
    rcases cause with ⟨e, reading⟩ | denied
    · subst reading
      rw [requestedReserve, readParameters_error parses] at asked
      cases asked
    · exact denied
  | read nonnegative es reading owned served same =>
    subst reading
    rw [if_neg nonnegative]
    obtain ⟨cp', found, read'⟩ := readParameters_ok parses
    have looked : cpGetUInt32 32 sizeKey cp' = cpGetUInt32 32 sizeKey (r.result.getD {}) :=
      cpGetUInt32_congr ((read' sizeKey).trans (same sizeKey (by decide)).symm)
    have asked : requestedReserve p = match cpGetUInt32 32 sizeKey (r.result.getD {}) with
        | (true, size) => some size
        | (false, _) => none := by
      rw [requestedReserve, found, Option.bind_some, looked]
    have deleted := owned.delete
    have served := served.trans (@served_cpDelete _ (r.result.getD {}))
    generalize (cpDelete (r.result.getD {}) r.calls).2 = calls at deleted served
    generalize cpGetUInt32 32 sizeKey (r.result.getD {}) = result at asked
    obtain ⟨sizeFound, size⟩ := result
    cases sizeFound with
    | false =>
      refine ⟨_, rfl, rfl, rfl, rfl, .refused isError_fail deleted fun some_ => ?_⟩
      rw [asked] at some_
      cases some_
    | true =>
      dsimp only [dmAllocatePoolWithTag]
      rw [if_neg Bool.true_eq_false.mp]
      by_cases null : alloc calls size.toNat = 0
      · refine ⟨_, if_pos null, rfl, rfl, rfl, .refused isError_accessDenied ?_ fun _ => ?_⟩
        · show Held rest (.alloc size.toNat (alloc calls size.toNat) :: calls)
          rw [null]
          exact deleted.allocNull
        · show Denied alloc registry.calls (.alloc size.toNat (alloc calls size.toNat) :: calls)
          rw [null]
          exact (denied_alloc null).later served.suffix
      · refine ⟨_, if_neg null, rfl, rfl, rfl, .reserved size _ asked ⟨null, rfl, ⟨calls, rfl⟩, deleted.alloc null⟩ ?_⟩
        exact served.trans (served_alloc null)

/-! ## The address -/

/-- The reply has the address in a form that an `install` reads it from. -/
theorem spells_addressChars (ptr : Nat) : Spells (addressChars ptr) (.ofNat ptr) := by
  have numeral_ : Numeral (addressChars ptr) (ptr % 2 ^ 32) := prints_upperHex.hex 0 _
  refine ⟨false, ptr % 2 ^ 32, numeral_.literal .absent, Nat.mod_lt _ (by decide), ?_⟩
  unfold literalValue
  rw [if_neg Bool.false_ne_true, UInt32.toNat_ofNat']
  omega

theorem addressText_eq (ptr : Nat) : addressText ptr = textOf (ascii "addr=" ++ addressChars ptr) := by
  have start : ascii "addr=0x" = ascii "addr=" ++ [0x30, 0x78] := by decide +kernel
  rw [addressText, start, List.append_assoc]
  rfl

theorem requestedInstall_asked (asked : request.AskedBy es) (parses : Parses p (.ok es)) :
    requestedInstall p = some request := by
  obtain ⟨cp, found, read⟩ := readParameters_ok parses
  rw [requestedInstall, found, Option.bind_some, cpGetUInt32_numbered asked.base read,
    cpGetUInt32_numbered asked.length read, cpGetUInt32_numbered asked.dxtMain read]
  rfl

/-! ## From one command to the other -/

/-- A `reserve` is accepted exactly when it has a size and no allocation
fails. A client that then sends an `install` with the address it was told, the
size it had asked for and an entry point in the block begins a transfer to just
that block. -/
theorem reserve_then_install (alloc : Ledger → Nat → Nat) (p : Chars) (ctx : CommandContext) (store : ContextStore)
    (registry : ModuleRegistry) (rest : List Nat) (whole : ¬ CutOff p) (held : Held rest registry.calls) :
    ∃ o, processCommandFull alloc (reservePrefix ++ p) ctx store registry = some o ∧
      (o.reply.code = xboxSOk ↔ (requestedReserve p).isSome ∧ ¬ Denied alloc registry.calls o.registry.calls) ∧
      (o.reply.code ≠ xboxSOk → Held rest o.registry.calls) ∧
      (o.reply.code = xboxSOk → ∃ size ptr, requestedReserve p = some size ∧ Reserved size rest o ptr ∧
        o.reply = .text xboxSOk (textOf (ascii "addr=" ++ addressChars ptr)) ∧
        ∀ q es k o', Parses q (.ok es) → firstBinding (ascii "base") es = (true, some (addressChars ptr)) →
          Numbered (ascii "length") es size → Numbered (ascii "entrypoint") es (.ofNat (ptr + k)) → k < size.toNat →
          ptr + size.toNat < 2 ^ 32 →
          processCommandFull alloc (installPrefix ++ q) o.ctx o.store o.registry = some o' →
          ¬ Denied alloc o.registry.calls o'.registry.calls →
          InstallBegun ⟨.ofNat ptr, size, .ofNat (ptr + k)⟩ o.ctx o' ∧ Held (ptr :: rest) o'.registry.calls) := by
  obtain ⟨out, parses⟩ := (parses_or_cutOff p).resolve_right whole
  obtain ⟨o, handled, -, -, -, ends⟩ := handleReserve_ends alloc ctx store parses held
  refine ⟨o, processCommandFull_reserve.trans handled, ?_⟩
  cases ends with
  | refused error held denied =>
    have other : o.reply.code ≠ xboxSOk := by
      intro ok
      rw [ok] at error
      exact absurd error (by decide)
    refine ⟨iff_of_false other ?_, fun _ => held, fun ok => absurd ok other⟩
    exact fun ⟨asked, granted⟩ => granted (denied asked)
  | reserved size ptr asked reserved served =>
    have code : o.reply.code = xboxSOk := by rw [reserved.reply]; rfl
    refine ⟨iff_of_true code ⟨by rw [asked]; rfl, served.not_denied⟩, fun other => absurd code other, fun _ => ?_⟩
    refine ⟨size, ptr, asked, reserved, by rw [reserved.reply, addressText_eq], ?_⟩
    intro q es k o' parses base length dxtMain inside room installed granted
    have asks : (⟨.ofNat ptr, size, .ofNat (ptr + k)⟩ : InstallRequest).AskedBy es :=
      ⟨⟨_, base, spells_addressChars ptr⟩, length, dxtMain⟩
    have some_ : 0 < ptr := Nat.pos_of_ne_zero reserved.block
    have base_ : (UInt32.ofNat ptr).toNat = ptr := by rw [UInt32.toNat_ofNat', Nat.mod_eq_of_lt (by omega)]
    have main_ : (UInt32.ofNat (ptr + k)).toNat = ptr + k := by rw [UInt32.toNat_ofNat', Nat.mod_eq_of_lt (by omega)]
    have fits : (⟨.ofNat ptr, size, .ofNat (ptr + k)⟩ : InstallRequest).Fits := by
      refine ⟨?_, ?_, ?_, ?_⟩ <;> dsimp only <;> omega
    obtain ⟨o'', handled', -, held', ends'⟩ := handleInstall_ends alloc o.ctx o.store parses reserved.held
    rw [processCommandFull_install, handled'] at installed
    cases installed
    cases ends' with
    | begun request found _ begun _ =>
      cases (requestedInstall_asked asks parses).symm.trans found
      exact ⟨begun, held'⟩
    | refused _ _ _ denied => exact absurd (denied _ (requestedInstall_asked asks parses) fits) granted

/-- `base=0x1280 length=16 entrypoint=4736` -/
def installReserved : Chars :=
  ascii "base" ++ equals :: addressChars 4736 ++ ([space] ++ (ascii "length" ++ equals :: ascii "16" ++
    ([space] ++ (ascii "entrypoint" ++ equals :: ascii "4736"))))

def installReservedPairs : List Entry :=
  [⟨ascii "base", some (addressChars 4736)⟩, ⟨ascii "length", some (ascii "16")⟩,
    ⟨ascii "entrypoint", some (ascii "4736")⟩]

theorem installReserved_parses : Parses installReserved (.ok installReservedPairs) := by
  have renderable : ∀ e ∈ installReservedPairs, Renderable e := by
    have all : ∀ e ∈ installReservedPairs, (e.key ≠ [] ∧ ∀ c ∈ e.key, c ≠ space ∧ c ≠ equals) ∧ 0 ∉ e.key ∧
        ∀ v ∈ e.value, v ≠ [] ∧ 0 ∉ v := by decide +kernel
    exact fun e listed => ⟨⟨(all e listed).1.1, (all e listed).1.2⟩, (all e listed).2.1, (all e listed).2.2⟩
  have blank : Spaces [space] := by simp [Spaces]
  have base : Written ⟨ascii "base", some (addressChars 4736)⟩ _ := .bare _ (by decide +kernel) (by decide +kernel)
  have length : Written ⟨ascii "length", some (ascii "16")⟩ _ := .bare _ (by decide +kernel) (by decide +kernel)
  have dxtMain : Written ⟨ascii "entrypoint", some (ascii "4736")⟩ _ := .bare _ (by decide +kernel) (by decide +kernel)
  have joined := Joined.more base blank (by simp) (.more length blank (by simp) (.last dxtMain))
  have parses : Parses ([] ++ (installReserved ++ [])) (.ok installReservedPairs) :=
    joined.parses renderable (by simp [Spaces]) (by simp [Spaces])
  rwa [List.nil_append, List.append_nil] at parses

/-- Sixteen bytes are reserved at 4736, and an image is begun to be sent there. -/
theorem sizeSixteen_reserved : ∃ o o', processCommandFull bump (reservePrefix ++ sizeSixteen) {} {} {} = some o ∧
    processCommandFull bump (installPrefix ++ installReserved) o.ctx o.store o.registry = some o' ∧
    InstallBegun ⟨4736, 16, 4736⟩ o.ctx o' := by
  have whole : ¬ CutOff sizeSixteen := by
    intro cut
    obtain ⟨calls, overread⟩ := cut.overread .target []
    have read : (parseString .target bump sizeSixteen []).isOk = true := by decide +kernel
    rw [overread] at read
    cases read
  have codes : ((processCommandFull bump (reservePrefix ++ sizeSixteen) {} {} {}).bind fun o =>
      (processCommandFull bump (installPrefix ++ installReserved) o.ctx o.store o.registry).map fun o' =>
        (o.reply.code, o.registry.calls.head?, decide (Granted o'.registry.calls))) =
      some (xboxSOk, some (.alloc 16 4736), true) := by decide +kernel
  have asked : requestedReserve sizeSixteen = some 16 := by decide +kernel
  obtain ⟨o, processed, second⟩ := Option.bind_eq_some_iff.mp codes
  obtain ⟨o', installed, facts⟩ := Option.map_eq_some_iff.mp second
  simp only [Prod.mk.injEq, decide_eq_true_eq] at facts
  obtain ⟨code, first, granted⟩ := facts
  obtain ⟨o₁, processed₁, -, -, told⟩ :=
    reserve_then_install bump sizeSixteen {} {} {} [] whole (held_live clean_nil)
  cases processed.symm.trans processed₁
  obtain ⟨size, ptr, asked', reserved, -, begins⟩ := told code
  cases asked.symm.trans asked'
  obtain ⟨calls, allocated⟩ := reserved.allocated
  rw [allocated] at first
  cases first
  have length : Numbered (ascii "length") installReservedPairs 16 :=
    ⟨ascii "16", by decide +kernel, false, 16, readInteger_whole.mp (by decide +kernel), by decide, by decide⟩
  have dxtMain : Numbered (ascii "entrypoint") installReservedPairs 4736 :=
    ⟨ascii "4736", by decide +kernel, false, 4736, readInteger_whole.mp (by decide +kernel), by decide, by decide⟩
  have all : ¬ Denied bump o.registry.calls o'.registry.calls :=
    fun ⟨_, _, _, later, _⟩ => not_granted_null (granted.of_suffix later)
  obtain ⟨begun, -⟩ := begins installReserved installReservedPairs 0 o' installReserved_parses (by decide +kernel) length
    dxtMain (by decide) (by decide) installed all
  exact ⟨o, o', processed, installed, begun⟩

end Dyndxt.Session
