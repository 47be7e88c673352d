import Dyndxt.Bootstrap.ParseInteger
import Dyndxt.Bootstrap.Install

/-!
# `parse_arg`

The specifier is compared byte by byte and a number is read behind it. Whether
there was one is then asked of the bits that the pointers behind the specifier
and behind its match have in common, and not of the pointer that has moved.
-/

namespace Dyndxt.Bootstrap
open Dyndxt.Mem Dyndxt.Run Dyndxt.Pool Dyndxt.Loader
open Dyndxt.Params (numeral)
open Dyndxt.Session (xboxEFail)

/-- The text starts with the specifier, and `parse_integer` takes this value
from behind it and moves on to `stop`. -/
def Consumes (budget : Nat) (m : Bytes) (esi : UInt32) (spec text : List UInt8) (value stop : UInt32) : Prop :=
  spec <+: text ∧ parseInteger budget m esi (esi + .ofNat spec.length) = some (value, stop) ∧
    stop ≠ esi + .ofNat spec.length

/-- `parse_arg` returns 0 with the value and the pointer behind the argument
where there is one, and otherwise 1. -/
structure ParsesArg (budget : Nat) (m : Bytes) (eax esi edi : UInt32) (spec text : List UInt8) : Prop where
  found : ∀ value stop, Consumes budget m esi spec text value stop →
    parseArg budget m eax esi edi spec.length = some { eax := value, ecx := 0, esi := stop }
  missing : (¬ ∃ value stop, Consumes budget m esi spec text value stop) →
    ∃ arg, parseArg budget m eax esi edi spec.length = some arg ∧ arg.ecx = 1

/-- The handlers do not use what `parse_arg` has not reported as parsed. -/
structure Refuses (budget : Nat) : Prop where
  alloc : ∀ (alloc : Ledger → Nat → UInt32) (labels : Labels) (response eax esi : UInt32) (t : Target) (arg : ParsedArg)
    (o : Outcome), parseArg budget t.memory eax esi labels.gSizeArg argLen = some arg → arg.ecx ≠ 0 →
    handleAlloc alloc labels budget response eax esi t = some o → o.eax = xboxEFail ∧ Spares t o
  install : ∀ (labels : Labels) (response eax esi : UInt32) (t : Target) (arg : ParsedArg) (o : Outcome),
    parseArg budget t.memory eax esi labels.gEntrypointArg argLen = some arg → arg.ecx ≠ 0 →
    handleInstall labels budget response eax esi t = some o → o.eax = xboxEFail ∧ Spares t o
  resolve : ∀ (labels : Labels) (ctx : UInt32) (s : ResolveState) (base ordinal : ParsedArg),
    parseArg budget s.target.memory s.eax s.esi labels.gBaseArg argLen = some base → base.ecx ≠ 0 →
    parseArg budget s.target.memory base.eax base.esi labels.gOrdinalArg argLen = some ordinal → ordinal.ecx ≠ 0 →
    ∃ s', resolveTurn labels budget ctx s = .leave (some (false, s')) ∧ s'.target = s.target

/-- The pointers have a bit in common exactly where a number follows. -/
def PointersTell (esi edi : UInt32) (spec text : List UInt8) : Prop := ∀ rest, text = spec ++ rest →
  ((edi + .ofNat spec.length) &&& (esi + .ofNat spec.length) ≠ 0 ↔ ∃ more, rest = hexPrefix ++ more)

variable {budget : Nat} {m : Bytes} {eax esi edi v stop : UInt32} {spec text rest : List UInt8}

/-! ## `repe cmpsb` -/

theorem repeCmpsb_match (spec_ : BytesAt m edi spec) (at_ : BytesAt m esi spec) :
    repeCmpsb m spec.length esi edi = (0, esi + .ofNat spec.length, edi + .ofNat spec.length, true) := by
  induction spec generalizing esi edi with
  | nil => rw [List.length_nil, advance_zero, advance_zero]; rfl
  | cons c spec ih =>
    rw [List.length_cons, repeCmpsb, if_pos (at_.1.trans spec_.1.symm), ih spec_.2 at_.2, advance, advance]

theorem repeCmpsb_mismatch (spec_ : BytesAt m edi spec) (plain : 0 ∉ spec) (at_ : TextAt m esi text)
    (differs : ¬ spec <+: text) : ∃ left stop edi', repeCmpsb m spec.length esi edi = (left, stop, edi', false) := by
  induction spec generalizing esi edi text with
  | nil => exact absurd (List.nil_prefix) differs
  | cons c spec ih =>
    rw [List.length_cons, repeCmpsb]
    rw [List.mem_cons, not_or] at plain
    cases text with
    | nil =>
      have here : load8 m esi ≠ load8 m edi := by
        rw [spec_.1, at_]
        exact plain.1
      exact ⟨_, _, _, if_neg here⟩
    | cons c' text =>
      by_cases same : c = c'
      · rw [if_pos (by rw [at_.1, spec_.1, same])]
        refine ih spec_.2 plain.2 at_.2.2 fun starts => differs ?_
        rw [same]
        exact List.cons_prefix_cons.mpr ⟨rfl, starts⟩
      · exact ⟨_, _, _, if_neg (by rw [at_.1, spec_.1]; exact fun h => same h.symm)⟩

/-! ## The argument -/

theorem parseArg_mismatch (spec_ : BytesAt m edi spec) (plain : 0 ∉ spec) (at_ : TextAt m esi text)
    (differs : ¬ spec <+: text) : parseArg budget m eax esi edi spec.length = some { eax, ecx := 1, esi } := by
  obtain ⟨left, stop, edi', compared⟩ := repeCmpsb_mismatch spec_ plain at_ differs
  unfold parseArg
  rw [compared]
  exact if_pos (.inl rfl)

theorem parseArg_match (spec_ : BytesAt m edi spec) (at_ : BytesAt m esi spec) :
    parseArg budget m eax esi edi spec.length =
      (parseInteger budget m esi (esi + .ofNat spec.length)).map fun r =>
        { eax := r.1, ecx := if (edi + .ofNat spec.length) &&& (esi + .ofNat spec.length) = 0 then 1 else 0, esi := r.2 } := by
  unfold parseArg
  rw [repeCmpsb_match spec_ at_]
  refine (if_neg (by simp)).trans ?_
  cases parseInteger budget m esi (esi + .ofNat spec.length) <;> rfl

/-- `parse_integer` moves exactly where `0x` follows. -/
theorem parseInteger_moves (at_ : TextAt m esi text) (read : parseInteger budget m eax esi = some (v, stop)) :
    stop ≠ esi ↔ ∃ more, text = hexPrefix ++ more := by
  constructor
  · intro moved
    by_contra unmarked
    rw [parseInteger_unmarked at_ unmarked] at read
    cases read
    exact moved rfl
  · rintro ⟨more, rfl⟩ same
    obtain ⟨-, stop_, -⟩ := parseInteger_value at_ read
    have short := at_.length_lt
    have run : (hexRun more).length ≤ more.length := (List.takeWhile_prefix _).length_le
    rw [same, UInt32.add_assoc] at stop_
    have none : (2 : UInt32) + .ofNat (hexRun more).length = 0 := by
      have := congrArg (· - esi) stop_
      simpa using this.symm
    have number := congrArg UInt32.toNat none
    rw [UInt32.toNat_add, UInt32.toNat_ofNat'] at number
    simp only [hexPrefix, List.cons_append, List.nil_append, List.length_cons] at short
    have two : (2 : UInt32).toNat = 2 := rfl
    have zero : (0 : UInt32).toNat = 0 := rfl
    omega

/-! ## The handlers -/

theorem refuses (budget : Nat) : Refuses budget := by
  constructor
  · intro alloc labels response eax esi t arg o parsed bad handled
    unfold handleAlloc at handled
    rw [parsed] at handled
    dsimp only [Option.bind_eq_bind, Option.bind_some] at handled
    rw [if_pos (.inl bad)] at handled
    exact respond_leaves handled
  · intro labels response eax esi t arg o parsed bad handled
    unfold handleInstall at handled
    rw [parsed] at handled
    dsimp only [Option.bind_eq_bind, Option.bind_some] at handled
    rw [if_pos (.inl bad)] at handled
    exact respond_leaves handled
  · intro labels ctx s base ordinal parsedBase badBase parsedOrdinal badOrdinal
    unfold resolveTurn
    rw [parsedBase]
    dsimp only
    rw [if_neg badBase]
    split
    · exact ⟨_, rfl, rfl⟩
    · rw [parsedOrdinal]
      dsimp only
      rw [if_pos (.inl badOrdinal)]
      exact ⟨_, rfl, rfl⟩

/-- What `parse_arg` returns on a match, by whether the pointer has moved. -/
theorem parsesArg_match (spec_ : BytesAt m edi spec) (at_ : BytesAt m esi spec)
    (read : parseInteger budget m esi (esi + .ofNat spec.length) = some (v, stop)) :
    ParsesArg budget m eax esi edi spec (spec ++ rest) ↔
      ((edi + .ofNat spec.length) &&& (esi + .ofNat spec.length) ≠ 0 ↔ stop ≠ esi + .ofNat spec.length) := by
  have parsed : parseArg budget m eax esi edi spec.length = some
      { eax := v, ecx := if (edi + .ofNat spec.length) &&& (esi + .ofNat spec.length) = 0 then 1 else 0, esi := stop } := by
    rw [parseArg_match spec_ at_, read, Option.map_some]
  by_cases moved : stop = esi + .ofNat spec.length
  · have none : ¬ ∃ value stop, Consumes budget m esi spec (spec ++ rest) value stop := by
      rintro ⟨value', stop', -, read', moved'⟩
      cases read.symm.trans read'
      exact moved' moved
    constructor
    · rintro ⟨-, missing⟩
      obtain ⟨arg, parsed', one⟩ := missing none
      cases parsed.symm.trans parsed'
      refine ⟨fun common => ?_, fun moved' => absurd moved moved'⟩
      rw [if_neg common] at one
      cases one
    · intro tell
      have apart : (edi + .ofNat spec.length) &&& (esi + .ofNat spec.length) = 0 := by
        by_contra common
        exact tell.mp common moved
      rw [if_pos apart] at parsed
      exact ⟨fun value stop consumes => absurd ⟨value, stop, consumes⟩ none, fun _ => ⟨_, parsed, rfl⟩⟩
  · have consumes : Consumes budget m esi spec (spec ++ rest) v stop := ⟨List.prefix_append _ _, read, moved⟩
    constructor
    · rintro ⟨found, -⟩
      refine ⟨fun _ => moved, fun _ apart => ?_⟩
      have zero := congrArg ParsedArg.ecx (Option.some.inj (parsed.symm.trans (found v stop consumes)))
      rw [if_pos apart] at zero
      cases zero
    · intro tell
      rw [if_neg (tell.mpr moved)] at parsed
      refine ⟨fun value' stop' consumes' => ?_, fun none => absurd ⟨v, stop, consumes⟩ none⟩
      cases read.symm.trans consumes'.2.1
      exact parsed

/-- Where `parse_integer` ends, `parse_arg` reports the valid arguments exactly
when the two pointers happen to tell, and the handlers go by its report. -/
theorem parseArg_reports (budget : Nat) (m : Bytes) (eax esi edi : UInt32) (spec text : List UInt8) (_ : spec ≠ []) (plain : 0 ∉ spec)
    (spec_ : BytesAt m edi spec) (at_ : TextAt m esi text)
    (ends : spec <+: text → (parseInteger budget m esi (esi + .ofNat spec.length)).isSome) :
    (ParsesArg budget m eax esi edi spec text ↔ PointersTell esi edi spec text) ∧ Refuses budget := by
  refine ⟨?_, refuses budget⟩
  by_cases starts : spec <+: text
  · obtain ⟨rest, rfl⟩ := starts
    obtain ⟨bytes, -, behind⟩ := textAt_append.mp at_
    obtain ⟨⟨value, stop⟩, read⟩ := Option.isSome_iff_exists.mp (ends (List.prefix_append _ _))
    rw [parsesArg_match spec_ bytes read, parseInteger_moves behind read]
    refine ⟨fun tell rest' same => ?_, fun tell => tell rest rfl⟩
    rwa [← List.append_cancel_left same]
  · have mismatch := @parseArg_mismatch budget m eax esi edi spec text spec_ plain at_ starts
    constructor
    · rintro - rest rfl
      exact absurd (List.prefix_append _ _) starts
    · intro _
      exact ⟨fun value stop consumes => absurd consumes.1 starts, fun _ => ⟨_, mismatch, rfl⟩⟩

/-- `s=16` is taken for the address of the text, and `a` asks the pool for as
many bytes. -/
theorem decimalSize_used : TextAt (memoryWith "ldxt!a s=16") 0x1007 (ascii "s=16") ∧
    parseArg 64 (memoryWith "ldxt!a s=16") 0 0x1007 labelsAt.gSizeArg 2 = some { eax := 0x1007, ecx := 0, esi := 0x1009 } ∧
    ¬ ParsesArg 64 (memoryWith "ldxt!a s=16") 0 0x1007 labelsAt.gSizeArg (ascii "s=") (ascii "s=16") := by
  have at_ : TextAt (memoryWith "ldxt!a s=16") 0x1007 (ascii "s=16") := by decide +kernel
  have parsed : parseArg 64 (memoryWith "ldxt!a s=16") 0 0x1007 labelsAt.gSizeArg 2 =
      some { eax := 0x1007, ecx := 0, esi := 0x1009 } := by decide +kernel
  refine ⟨at_, parsed, fun parses => ?_⟩
  have read : parseInteger 64 (memoryWith "ldxt!a s=16") 0x1007 0x1009 = some (0x1007, 0x1009) := by decide +kernel
  have none : ¬ ∃ value stop, Consumes 64 (memoryWith "ldxt!a s=16") 0x1007 (ascii "s=") (ascii "s=16") value stop := by
    rintro ⟨value, stop, -, read', moved⟩
    cases read.symm.trans read'
    exact moved rfl
  obtain ⟨arg, parsed', one⟩ := parses.missing none
  cases parsed.symm.trans parsed'
  cases one

theorem hexSize_parsed : ParsesArg 64 (memoryWith "ldxt!a s=0x10") 0 0x1007 labelsAt.gSizeArg (ascii "s=") (ascii "s=0x10") ∧
    parseArg 64 (memoryWith "ldxt!a s=0x10") 0 0x1007 labelsAt.gSizeArg 2 = some { eax := 16, ecx := 0, esi := 0x100D } := by
  obtain ⟨parses, -⟩ := parseArg_reports 64 (memoryWith "ldxt!a s=0x10") 0 0x1007 labelsAt.gSizeArg (ascii "s=")
    (ascii "s=0x10") (by decide) (by decide) (by decide +kernel) (by decide +kernel) fun _ => by decide +kernel
  refine ⟨parses.mpr ?_, by decide +kernel⟩
  rintro rest same
  have same : ascii "s=" ++ (hexPrefix ++ [0x31, 0x30]) = ascii "s=" ++ rest := same
  exact iff_of_true (by decide) ⟨_, (List.append_cancel_left same).symm⟩

end Dyndxt.Bootstrap
