import Dyndxt.Machine.Stack

/-!
# The first stages

`bootstrap_l1.asm` calls the procedure that it is given, with the parameters of
`DmAllocatePoolWithTag` if there is a size in `io_address` and with none
otherwise, and keeps the result in `io_address`, which is in its own code
segment. A client allocates the block for the second stage with it, puts
`bootstrap_l2.asm` there, and enters it the same way, so that it registers its
command processor.
-/

namespace Dyndxt.Bootstrap
open Dyndxt.Mem Dyndxt.Machine

/-- `DYNAMIC_DXT_POOL`, `'txDD'` -/
def dynamicDxtPool : UInt32 := 0x44447874

/-- The labels of `bootstrap_l1.asm`, where it is loaded. -/
structure L1Labels where
  geteip : UInt32
  afterCall : UInt32
  ioAddress : UInt32

/-- The labels of `bootstrap_l2.asm`, where it is loaded; each use of the macro
has a `geteip` of its own. -/
structure L2Labels where
  geteip₁ : UInt32
  geteip₂ : UInt32
  geteip₃ : UInt32
  afterCall : UInt32
  processCommand : UInt32
  gHandlerName : UInt32
  dmRegisterCommandProcessor : UInt32

section

variable {W : Type} (readOnly : UInt32 → Bool) (code : Code W)

/-- `RELOCATE_ADDRESS`: the address of a label, from the one that `geteip` turns
out to have. -/
def relocateAddress (geteip label : UInt32) (s : Cpu W) : Option (UInt32 × Cpu W) := do
  let s ← s.push readOnly geteip
  let (reg, s) := s.pop
  return (reg + (label - geteip), s)

/-- `call_entrypoint`, with the address returned to. -/
def callEntrypoint (labels : L1Labels) (s : Cpu W) : Option (UInt32 × Cpu W) := do
  let s ← s.call readOnly code s.edx labels.afterCall
  let (ecx, s) := s.pop
  -- protection is off while the result is stored
  let s := { s with ecx, edx := s.cr0 }
  let s ← s.push readOnly s.edx
  let s := { s with edx := s.edx &&& (0xFFFEFFFF : UInt32) }
  let s := { s with cr0 := s.edx }
  let s ← s.store readOnly s.ecx s.eax
  let (edx, s) := s.pop
  let s := { s with edx, cr0 := edx, eax := 0x02DB0000, esp := s.ebp }
  let (ebp, s) := s.pop
  return ({ s with ebp } : Cpu W).ret 4

/-- `bootstrap` -/
def bootstrap (labels : L1Labels) (s : Cpu W) : Option (UInt32 × Cpu W) := do
  let s ← s.push readOnly s.ebp
  let s := { s with ebp := s.esp }
  let s := { s with edx := s.load (s.ebp + 8) }
  let (ecx, s) ← relocateAddress readOnly labels.geteip labels.ioAddress s
  let s := { s with ecx }
  let s ← s.push readOnly s.ecx
  if s.load s.ecx = (0 : UInt32) then callEntrypoint readOnly code labels s
  else
    let s ← s.push readOnly dynamicDxtPool
    let s ← s.push readOnly (s.load s.ecx)
    callEntrypoint readOnly code labels s

/-- `bootstrap_l2` -/
def bootstrapL2 (labels : L2Labels) (s : Cpu W) : Option (UInt32 × Cpu W) := do
  let (ecx, s) ← relocateAddress readOnly labels.geteip₁ labels.processCommand s
  let s := { s with ecx }
  let s ← s.push readOnly s.ecx
  let (ecx, s) ← relocateAddress readOnly labels.geteip₂ labels.gHandlerName s
  let s := { s with ecx }
  let s ← s.push readOnly s.ecx
  let (edx, s) ← relocateAddress readOnly labels.geteip₃ labels.dmRegisterCommandProcessor s
  let s := { s with edx }
  let s ← s.call readOnly code (s.load s.edx) labels.afterCall
  return s.ret 0

end

variable {W : Type} {readOnly : UInt32 → Bool} {code : Code W} {labels : L1Labels} {s : Cpu W}
  {fn : W → List UInt32 → UInt32 × W} {pre : Cpu W → Prop} {kept : Nat} {params rest : List UInt32}
  {geteip label dest ebp next param : UInt32}

theorem relocateAddress_some (free : readOnly (s.esp - 4) = false) : relocateAddress readOnly geteip label s =
    some (label, { s with memory := setWord s.memory (s.esp - 4) geteip }) := by
  have back : s.esp - 4 + 4 = s.esp := UInt32.sub_add_cancel _ _
  have there : geteip + (label - geteip) = label := by grind
  have top : StackAt (setWord s.memory (s.esp - 4) geteip) (s.esp - 4) [geteip] := ⟨word_setWord _ _ _, trivial⟩
  have popped := @pop_eq W geteip [] { s with esp := s.esp - 4, memory := setWord s.memory (s.esp - 4) geteip } top
  dsimp only at popped
  unfold relocateAddress
  simp only [Option.bind_eq_bind, Option.bind_some, push_some, free, popped, back, there]
  rfl

/-- The protection bit is off in what is loaded to `cr0`. -/
theorem unprotected (cr0 : UInt32) : cr0 &&& 0xFFFEFFFF &&& writeProtect = 0 := by
  have disjoint : (0xFFFEFFFF : UInt32) &&& writeProtect = 0 := by decide
  rw [UInt32.and_assoc, disjoint]
  exact UInt32.and_zero

/-- The procedure takes its parameters off the stack, and what is then on top is
where the result goes. -/
theorem callEntrypoint_returns (callee : Stdcall code s.edx params.length kept pre fn)
    (ready : pre { s with esp := s.esp - 4, memory := setWord s.memory (s.esp - 4) labels.afterCall })
    (stack : StackAt s.memory s.esp (params ++ dest :: ebp :: next :: param :: rest))
    (frame : s.ebp = s.esp + 4 * .ofNat (params.length + 1)) (enough : rest.length + 4 ≤ kept)
    (short : 4 * (params.length + rest.length + 5) ≤ 2 ^ 32) (free : readOnly (s.esp - 4) = false)
    (free' : readOnly (s.esp + 4 * .ofNat params.length) = false)
    (apart : Beyond dest (s.esp + 4 * .ofNat params.length) (rest.length + 4)) :
    ∃ s', callEntrypoint readOnly code labels s = some (next, s') ∧ s'.esp = s.ebp + 4 + 4 + 4 ∧ s'.ebp = ebp ∧
      s'.cr0 = s.cr0 ∧ s'.eax = 0x02DB0000 ∧ StackAt s'.memory s'.esp rest ∧
      (word s'.memory dest, s'.world) = fn s.world params := by
  have pushed := stack.push (v := labels.afterCall) (by simp; omega)
  obtain ⟨s₁, called, returned⟩ := callee _ labels.afterCall params (dest :: ebp :: next :: param :: rest) ready rfl
    (by simp; omega) pushed
  have esp₁ : s₁.esp = s.esp + 4 * .ofNat params.length := by
    rw [returned.esp, ← add_four_mul, UInt32.sub_add_cancel]
  have behind : s.ebp = s₁.esp + 4 := by
    rw [esp₁, frame, UInt32.ofNat_add]
    have one : UInt32.ofNat 1 = 1 := rfl
    rw [one]
    grind
  have free₁ : readOnly s₁.esp = false := by rwa [esp₁]
  -- what is on the stack when protection is off, and when the result is stored
  have saved : StackAt (setWord s₁.memory s₁.esp s₁.cr0) s₁.esp (s₁.cr0 :: ebp :: next :: param :: rest) := by
    have pushed₁ := returned.stack.2.push (v := s₁.cr0) (by simp; omega)
    rwa [UInt32.add_sub_cancel] at pushed₁
  have stored := saved.store (p := dest) (v := s₁.eax) (by rw [esp₁]; exact apart)
  have result : word (setWord (setWord s₁.memory s₁.esp s₁.cr0) dest s₁.eax) dest = s₁.eax := word_setWord _ _ _
  have popped := pop_eq returned.stack
  have ebp₁ : s₁.ebp = s₁.esp + 4 := returned.ebp.trans behind
  unfold callEntrypoint
  simp only [call_some, free, called, Option.bind_eq_bind, Option.bind_some, popped, push_some, free₁, UInt32.add_sub_cancel]
  simp only [store_some, unprotected, or_true, Option.bind_some]
  generalize setWord (setWord s₁.memory s₁.esp s₁.cr0) dest s₁.eax = m at stored result ⊢
  obtain ⟨cr0_, ebp_, next_, -, rest_⟩ := stored
  simp only [Cpu.pop, Cpu.ret, Cpu.load, ebp₁, ebp_, cr0_, next_]
  refine ⟨_, rfl, by rw [behind], rfl, returned.cr0, rfl, rest_, ?_⟩
  rw [result]
  exact returned.result

/-- What the procedure is called with. -/
def ioParams (m : Bytes) (ioAddress : UInt32) : List UInt32 :=
  if word m ioAddress = 0 then [] else [word m ioAddress, dynamicDxtPool]

/-- The stack pointer after so many pushes. -/
def pushed (esp : UInt32) : Nat → UInt32
  | 0 => esp
  | k + 1 => pushed esp k - 4

/-- The slots of `n` pushes, from the last one up. -/
theorem pushed_slot {esp bottom : UInt32} {n : Nat} (last : pushed esp n = bottom) {k : Nat} (le : k ≤ n) :
    pushed esp k = bottom + 4 * .ofNat (n - k) := by
  subst last
  induction le with
  | refl =>
    rw [Nat.sub_self]
    exact (UInt32.add_zero _).symm
  | @step n le ih =>
    have more : UInt32.ofNat (n + 1 - k) = .ofNat (n - k) + 1 := by
      rw [Nat.succ_sub le]
      exact UInt32.ofNat_add (n - k) 1
    rw [ih, more]
    show _ = pushed esp n - 4 + 4 * (_ + 1)
    grind

/-- Up to the call: the parameters are on the stack, above the address for the
result and the frame. -/
theorem bootstrap_enters (stack : StackAt s.memory s.esp (next :: param :: rest)) (writable : Writable readOnly s.esp 4)
    (apart : Beyond labels.ioAddress (s.esp - 20) 5) (short : 4 * (rest.length + 8) ≤ 2 ^ 32) :
    ∃ t, bootstrap readOnly code labels s = callEntrypoint readOnly code labels t ∧ t.edx = param ∧ t.ebp = s.esp - 4 ∧
      t.esp = s.esp - 8 - 4 * .ofNat (ioParams s.memory labels.ioAddress).length ∧ t.cr0 = s.cr0 ∧ t.world = s.world ∧
      StackAt t.memory t.esp
        (ioParams s.memory labels.ioAddress ++ labels.ioAddress :: s.ebp :: next :: param :: rest) ∧
      ∀ p, Beyond p (s.esp - 20) 5 → word t.memory p = word s.memory p := by
  obtain ⟨free₁, free₂, free₃, free₄, -⟩ := writable
  have slot (k : Nat) (lt : k < 5) {p v : UInt32} {m : Bytes} (beyond : Beyond p (s.esp - 20) 5) :
      word (setWord m (s.esp - 20 + 4 * .ofNat k) v) p = word m p := word_apart (beyond.symm lt)
  have last : pushed s.esp 5 = s.esp - 20 := by simp only [pushed]; grind
  have at₄ : s.esp - 20 + 4 * .ofNat 4 = s.esp - 4 := (pushed_slot last (show 1 ≤ 5 by decide)).symm
  have at₃ : s.esp - 20 + 4 * .ofNat 3 = s.esp - 4 - 4 := (pushed_slot last (show 2 ≤ 5 by decide)).symm
  have at₂ : s.esp - 20 + 4 * .ofNat 2 = s.esp - 4 - 4 - 4 := (pushed_slot last (show 3 ≤ 5 by decide)).symm
  have at₁ : s.esp - 20 + 4 * .ofNat 1 = s.esp - 4 - 4 - 4 - 4 := (pushed_slot last (show 4 ≤ 5 by decide)).symm
  unfold bootstrap
  simp only [Option.bind_eq_bind, Option.bind_some, push_some, free₁, Cpu.load]
  -- the frame, and the parameter behind it
  have stack₁ := stack.push (v := s.ebp) (by simp; omega)
  have param_ : word (setWord s.memory (s.esp - 4) s.ebp) (s.esp - 4 + 8) = param := by
    have third := stack₁.2.2.1
    rwa [UInt32.add_assoc] at third
  have same₁ (p : UInt32) (beyond : Beyond p (s.esp - 20) 5) :
      word (setWord s.memory (s.esp - 4) s.ebp) p = word s.memory p := at₄ ▸ slot 4 (by decide) beyond
  generalize setWord s.memory (s.esp - 4) s.ebp = m₁ at stack₁ param_ same₁ ⊢
  -- the address for the result
  simp only [param_, relocateAddress_some, free₂, Option.bind_some, push_some]
  have stack₂ := (stack₁.store (p := s.esp - 4 - 4) (v := labels.geteip) (beyond_below (by simp; omega))).push
    (v := labels.ioAddress) (by simp; omega)
  have same₂ (p : UInt32) (beyond : Beyond p (s.esp - 20) 5) :
      word (setWord (setWord m₁ (s.esp - 4 - 4) labels.geteip) (s.esp - 4 - 4) labels.ioAddress) p = word s.memory p :=
    (at₃ ▸ slot 3 (by decide) beyond).trans ((at₃ ▸ slot 3 (by decide) beyond).trans (same₁ p beyond))
  generalize setWord (setWord m₁ (s.esp - 4 - 4) labels.geteip) (s.esp - 4 - 4) labels.ioAddress = m₂ at stack₂ same₂ ⊢
  have io₂ := same₂ _ apart
  unfold ioParams
  have eight : s.esp - 4 - 4 = s.esp - 8 := by grind
  by_cases none : word s.memory labels.ioAddress = 0
  · simp only [io₂, if_pos none]
    refine ⟨_, rfl, rfl, rfl, ?_, rfl, rfl, stack₂, same₂⟩
    rw [eight]
    exact (UInt32.sub_zero _).symm
  · simp only [io₂, if_neg none]
    simp only [push_some, free₃, Option.bind_some]
    -- the parameters, last one first
    have stack₃ := stack₂.push (v := dynamicDxtPool) (by simp; omega)
    have same₃ (p : UInt32) (beyond : Beyond p (s.esp - 20) 5) :
        word (setWord m₂ (s.esp - 4 - 4 - 4) dynamicDxtPool) p = word s.memory p :=
      (at₂ ▸ slot 2 (by decide) beyond).trans (same₂ p beyond)
    generalize setWord m₂ (s.esp - 4 - 4 - 4) dynamicDxtPool = m₃ at stack₃ same₃ ⊢
    simp only [same₃ _ apart, push_some, free₄, Option.bind_some]
    have stack₄ := stack₃.push (v := word s.memory labels.ioAddress) (by simp; omega)
    refine ⟨_, rfl, rfl, rfl, ?_, rfl, rfl, stack₄, fun p beyond => ?_⟩
    · have sixteen : s.esp - 4 - 4 - 4 - 4 = s.esp - 8 - 4 * .ofNat 2 := by
        have two : UInt32.ofNat 2 = 2 := rfl
        rw [two]; grind
      exact sixteen
    · exact (at₁ ▸ slot 1 (by decide) beyond).trans (same₃ p beyond)

theorem ioParams_length (m : Bytes) (ioAddress : UInt32) :
    (ioParams m ioAddress).length = 0 ∨ (ioParams m ioAddress).length = 2 := by
  unfold ioParams
  split
  · exact .inl rfl
  · exact .inr rfl

/-- The first stage is a function of one parameter, which calls it with what
`io_address` asks for and keeps the result there. -/
theorem bootstrap_returns (stack : StackAt s.memory s.esp (next :: param :: rest)) (writable : Writable readOnly s.esp 5)
    (apart : Beyond labels.ioAddress (s.esp - 20) (rest.length + 7)) (short : 4 * (rest.length + 8) ≤ 2 ^ 32)
    (callee : Stdcall code param (ioParams s.memory labels.ioAddress).length kept pre fn) (enough : rest.length + 4 ≤ kept)
    (ready : ∀ t : Cpu W, t.esp = s.esp - 12 - 4 * .ofNat (ioParams s.memory labels.ioAddress).length → t.world = s.world →
      (∀ p, Beyond p (s.esp - 20) 5 → word t.memory p = word s.memory p) → pre t) :
    ∃ s', bootstrap readOnly code labels s = some (next, s') ∧
      Returned (fun w _ => (0x02DB0000, (fn w (ioParams s.memory labels.ioAddress)).2)) [param] rest s s' ∧
      word s'.memory labels.ioAddress = (fn s.world (ioParams s.memory labels.ioAddress)).1 := by
  obtain ⟨free₁, free₂, free₃, free₄, free₅, -⟩ := writable
  obtain ⟨t, entered, param_, ebp_, esp_, cr0_, world_, stack_, same⟩ :=
    @bootstrap_enters W readOnly code labels s rest next param stack ⟨free₁, free₂, free₃, free₄, trivial⟩
      (apart.le (by omega)) short
  have length := ioParams_length s.memory labels.ioAddress
  generalize ioParams s.memory labels.ioAddress = params at *
  have zero : UInt32.ofNat 0 = 0 := rfl
  have one : UInt32.ofNat 1 = 1 := rfl
  have two : UInt32.ofNat 2 = 2 := rfl
  have three : UInt32.ofNat 3 = 3 := rfl
  have slot : t.esp + 4 * .ofNat params.length = s.esp - 8 := by rw [esp_]; grind
  have place : ∃ k < 5, t.esp - 4 = s.esp - 20 + 4 * .ofNat k ∧ readOnly (t.esp - 4) = false := by
    rcases length with none | some_
    · refine ⟨2, by decide, ?_, ?_⟩ <;> rw [esp_, none, zero]
      · rw [two]; grind
      · rwa [show s.esp - 8 - 4 * 0 - 4 = s.esp - 4 - 4 - 4 by grind]
    · refine ⟨0, by decide, ?_, ?_⟩ <;> rw [esp_, some_, two]
      · rw [zero]; grind
      · rwa [show s.esp - 8 - 4 * 2 - 4 = s.esp - 4 - 4 - 4 - 4 - 4 by grind]
  obtain ⟨k, lt, at_, free⟩ := place
  have callee : Stdcall code t.edx params.length kept pre fn := param_ ▸ callee
  have ready_ : pre { t with esp := t.esp - 4, memory := setWord t.memory (t.esp - 4) labels.afterCall } := by
    refine ready _ ?_ world_ fun p beyond => ?_
    · dsimp only
      rw [esp_]
      grind
    · dsimp only
      rw [at_]
      exact (word_apart (beyond.symm lt)).trans (same p beyond)
  have frame : t.ebp = t.esp + 4 * .ofNat (params.length + 1) := by
    rw [ebp_, UInt32.ofNat_add, one]
    grind
  have free' : readOnly (t.esp + 4 * .ofNat params.length) = false := by
    rwa [slot, show s.esp - 8 = s.esp - 4 - 4 by grind]
  have apart' : Beyond labels.ioAddress (t.esp + 4 * .ofNat params.length) (rest.length + 4) := by
    have third := beyond_next (beyond_next (beyond_next apart))
    rwa [slot, show s.esp - 8 = s.esp - 20 + 4 + 4 + 4 by grind]
  obtain ⟨s', left, esp', ebp', cr0', eax', rest', result⟩ :=
    callEntrypoint_returns callee ready_ stack_ frame enough (by omega) free free' apart'
  refine ⟨s', entered.trans left, ⟨?_, ebp', cr0'.trans cr0_, rest', ?_⟩, ?_⟩
  · rw [esp', ebp_]
    show _ = s.esp + 4 * .ofNat 2
    rw [two]
    grind
  · rw [eax', ← world_, ← (Prod.mk.inj result).2]
  · rw [← world_]
    exact congrArg Prod.fst result

/-! ## The second stage -/

/-- The import of `DmRegisterCommandProcessor` is filled in and apart from the
words that are pushed. -/
structure L2Ready (readOnly : UInt32 → Bool) (labels : L2Labels) (address : UInt32) (s : Cpu W) : Prop where
  writable : Writable readOnly s.esp 3
  slot : word s.memory labels.dmRegisterCommandProcessor = address
  apart : Beyond labels.dmRegisterCommandProcessor (s.esp - 12) 3

/-- The second stage is a function of no parameters, which registers its
processor under its name. -/
theorem bootstrapL2_registers {labels : L2Labels} {register : W → List UInt32 → UInt32 × W} {address f : UInt32}
    {entry : Code W} (registers : Stdcall code address 2 (kept + 1) (fun _ => True) register)
    (loaded : entry f = returning (bootstrapL2 readOnly code labels)) (short : 4 * (kept + 5) ≤ 2 ^ 32) :
    Stdcall entry f 0 kept (L2Ready readOnly labels address)
      fun w _ => register w [labels.gHandlerName, labels.processCommand] := by
  intro s next params rest ready none le stack
  obtain rfl := List.length_eq_zero_iff.mp none
  rw [List.nil_append] at stack
  obtain ⟨⟨free₁, free₂, free₃, -⟩, slot_, apart⟩ := ready
  have three : pushed s.esp 3 = s.esp - 12 := by simp only [pushed]; grind
  have same (k : Nat) (lt : k < 3) {p v : UInt32} {m : Bytes} (at_ : p = s.esp - 12 + 4 * .ofNat k) :
      word (setWord m p v) labels.dmRegisterCommandProcessor = word m labels.dmRegisterCommandProcessor :=
    at_ ▸ word_apart (apart.symm lt)
  have at₂ : s.esp - 4 = s.esp - 12 + 4 * .ofNat 2 := pushed_slot three (show 1 ≤ 3 by decide)
  have at₁ : s.esp - 4 - 4 = s.esp - 12 + 4 * .ofNat 1 := pushed_slot three (show 2 ≤ 3 by decide)
  have at₀ : s.esp - 4 - 4 - 4 = s.esp - 12 + 4 * .ofNat 0 := pushed_slot three (show 3 ≤ 3 by decide)
  -- the parameters, last one first
  have stack₁ := (stack.store (p := s.esp - 4) (v := labels.geteip₁) (beyond_below (by simp; omega))).push
    (v := labels.processCommand) (by simp; omega)
  have slot₁ : word (setWord (setWord s.memory (s.esp - 4) labels.geteip₁) (s.esp - 4) labels.processCommand)
      labels.dmRegisterCommandProcessor = address := by rw [same 2 (by decide) at₂, same 2 (by decide) at₂, slot_]
  rw [loaded]
  unfold returning bootstrapL2
  simp only [relocateAddress_some, free₁, Option.bind_eq_bind, Option.bind_some, push_some]
  generalize setWord (setWord s.memory (s.esp - 4) labels.geteip₁) (s.esp - 4) labels.processCommand = m₁
    at stack₁ slot₁ ⊢
  have stack₂ := (stack₁.store (p := s.esp - 4 - 4) (v := labels.geteip₂) (beyond_below (by simp; omega))).push
    (v := labels.gHandlerName) (by simp; omega)
  have slot₂ : word (setWord (setWord m₁ (s.esp - 4 - 4) labels.geteip₂) (s.esp - 4 - 4) labels.gHandlerName)
      labels.dmRegisterCommandProcessor = address := by rw [same 1 (by decide) at₁, same 1 (by decide) at₁, slot₁]
  simp only [relocateAddress_some, free₂, Option.bind_some, push_some]
  generalize setWord (setWord m₁ (s.esp - 4 - 4) labels.geteip₂) (s.esp - 4 - 4) labels.gHandlerName = m₂
    at stack₂ slot₂ ⊢
  have stack₃ := (stack₂.store (p := s.esp - 4 - 4 - 4) (v := labels.geteip₃) (beyond_below (by simp; omega))).push
    (v := labels.afterCall) (by simp; omega)
  have slot₃ : word (setWord m₂ (s.esp - 4 - 4 - 4) labels.geteip₃) labels.dmRegisterCommandProcessor = address := by
    rw [same 0 (by decide) at₀, slot₂]
  simp only [relocateAddress_some, free₃, Option.bind_some, Cpu.load, slot₃, call_some]
  generalize setWord (setWord m₂ (s.esp - 4 - 4 - 4) labels.geteip₃) (s.esp - 4 - 4 - 4) labels.afterCall = m₃ at stack₃ ⊢
  obtain ⟨s₁, called, returned⟩ := registers
    ⟨s.eax, labels.gHandlerName, labels.dmRegisterCommandProcessor, s.esp - 4 - 4 - 4, s.ebp, s.cr0, m₃, s.world⟩
    labels.afterCall [labels.gHandlerName, labels.processCommand] (next :: rest) trivial rfl (by simp; omega) stack₃
  have esp_ : s₁.esp = s.esp := by
    have three : UInt32.ofNat 3 = 3 := rfl
    rw [returned.esp]
    show s.esp - 4 - 4 - 4 + 4 * .ofNat 3 = s.esp
    rw [three]
    grind
  obtain ⟨next_, rest_⟩ := returned.stack
  have here : s₁.ret 0 = (next, { s₁ with esp := s₁.esp + 4 + 0 }) := congrArg (·, _) next_
  rw [called]
  dsimp only [Option.bind_some]
  simp only [pure, here, stack.1, if_true]
  refine ⟨_, rfl, ?_, returned.ebp, returned.cr0, ?_, returned.result⟩
  · rw [esp_]
    have one : UInt32.ofNat 1 = 1 := rfl
    show s.esp + 4 + 0 = s.esp + 4 * .ofNat 1
    rw [one]
    grind
  · show StackAt s₁.memory (s₁.esp + 4 + 0) rest
    rwa [UInt32.add_zero]

/-! ## Both stages -/

/-- `resume thread=<thread>`, where the first stage has taken the place of
`DmResumeThread`. -/
def resume (readOnly : UInt32 → Bool) (code : Code W) (labels : L1Labels) (next thread : UInt32) (s : Cpu W) :
    Option (Cpu W) := do
  let s ← s.push readOnly thread
  let s ← s.push readOnly next
  returning (bootstrap readOnly code labels) s

/-- A `resume` has come back, with everything where it was. -/
structure Resumed (rest : List UInt32) (s s' : Cpu W) : Prop where
  eax : s'.eax = 0x02DB0000
  esp : s'.esp = s.esp
  ebp : s'.ebp = s.ebp
  cr0 : s'.cr0 = s.cr0
  stack : StackAt s'.memory s'.esp rest

theorem resume_returns {thread : UInt32} (stack : StackAt s.memory s.esp rest) (writable : Writable readOnly s.esp 7)
    (apart : Beyond labels.ioAddress (s.esp - 28) (rest.length + 7)) (short : 4 * (rest.length + 8) ≤ 2 ^ 32)
    (callee : Stdcall code thread (ioParams s.memory labels.ioAddress).length kept pre fn) (enough : rest.length + 4 ≤ kept)
    (ready : ∀ t : Cpu W, t.esp = s.esp - 20 - 4 * .ofNat (ioParams s.memory labels.ioAddress).length → t.world = s.world →
      (∀ p, Beyond p (s.esp - 28) 7 → word t.memory p = word s.memory p) → pre t) :
    ∃ s', resume readOnly code labels next thread s = some s' ∧ Resumed rest s s' ∧
      (word s'.memory labels.ioAddress, s'.world) = fn s.world (ioParams s.memory labels.ioAddress) := by
  obtain ⟨free₁, free₂, writable⟩ := writable
  have last : pushed s.esp 7 = s.esp - 28 := by simp only [pushed]; grind
  have at₆ : s.esp - 4 = s.esp - 28 + 4 * .ofNat 6 := pushed_slot last (show 1 ≤ 7 by decide)
  have at₅ : s.esp - 4 - 4 = s.esp - 28 + 4 * .ofNat 5 := pushed_slot last (show 2 ≤ 7 by decide)
  have same (p : UInt32) (beyond : Beyond p (s.esp - 28) 7) :
      word (setWord (setWord s.memory (s.esp - 4) thread) (s.esp - 4 - 4) next) p = word s.memory p := by
    rw [at₅, word_apart (beyond.symm (by decide)), at₆, word_apart (beyond.symm (by decide))]
  have pushed := (stack.push (v := thread) (by omega)).push (v := next) (by simp; omega)
  have bottom : s.esp - 4 - 4 - 20 = s.esp - 28 := by grind
  unfold resume
  simp only [Option.bind_eq_bind, Option.bind_some, push_some, free₁, free₂]
  generalize setWord (setWord s.memory (s.esp - 4) thread) (s.esp - 4 - 4) next = m at pushed same ⊢
  have asked : ioParams m labels.ioAddress = ioParams s.memory labels.ioAddress := by
    unfold ioParams
    rw [same _ (apart.le (by omega))]
  obtain ⟨s', ran, returned, result⟩ := @bootstrap_returns W readOnly code labels
    ⟨s.eax, s.ecx, s.edx, s.esp - 4 - 4, s.ebp, s.cr0, m, s.world⟩ fn pre kept rest next thread pushed writable
    (by rw [bottom]; exact apart) short (by rw [asked]; exact callee) enough fun t esp_ world_ memory_ =>
      ready t (by rw [esp_, asked]; grind) world_ fun p beyond =>
        (memory_ p (by rw [bottom]; exact beyond.le (by decide))).trans (same p beyond)
  dsimp only at returned result
  rw [asked] at returned result
  have back : (⟨s.eax, s.ecx, s.edx, s.esp - 4 - 4, s.ebp, s.cr0, m, s.world⟩ : Cpu W).load (s.esp - 4 - 4) = next := pushed.1
  obtain ⟨eax_, world_⟩ := Prod.mk.inj returned.result
  refine ⟨s', ?_, ⟨eax_, ?_, returned.ebp, returned.cr0, returned.stack⟩, ?_⟩
  · unfold returning
    rw [ran]
    exact if_pos back.symm
  · rw [returned.esp]
    have two : UInt32.ofNat 2 = 2 := rfl
    show s.esp - 4 - 4 + 4 * .ofNat 2 = s.esp
    rw [two]
    grind
  · rw [result, world_]

/-- A `resume` into a block that holds the second stage, with nothing in
`io_address`. -/
theorem resume_enters {code' : Code W} {labels' : L2Labels} {register : W → List UInt32 → UInt32 × W}
    {dmRegister block : UInt32} (registers : Stdcall code' dmRegister 2 (kept + 1) (fun _ => True) register)
    (loaded : code block = returning (bootstrapL2 readOnly code' labels')) (stack : StackAt s.memory s.esp rest)
    (writable : Writable readOnly s.esp 8) (apart : Beyond labels.ioAddress (s.esp - 28) (rest.length + 7))
    (apart' : Beyond labels'.dmRegisterCommandProcessor (s.esp - 32) 8) (enough : rest.length + 4 ≤ kept)
    (short : 4 * (kept + 5) ≤ 2 ^ 32) (zero : word s.memory labels.ioAddress = 0)
    (import_ : word s.memory labels'.dmRegisterCommandProcessor = dmRegister) :
    ∃ s', resume readOnly code labels next block s = some s' ∧ Resumed rest s s' ∧
      (word s'.memory labels.ioAddress, s'.world) = register s.world [labels'.gHandlerName, labels'.processCommand] := by
  have none : ioParams s.memory labels.ioAddress = [] := if_pos zero
  have callee := @bootstrapL2_registers W readOnly code' kept labels' register dmRegister block code registers loaded short
  have lower : s.esp - 20 - 12 = s.esp - 32 := by grind
  have upper : s.esp - 32 + 4 = s.esp - 28 := by grind
  have five : s.esp - 4 - 4 - 4 - 4 - 4 = s.esp - 20 := by grind
  have entered := @resume_returns W readOnly code labels s (fun w _ => register w [labels'.gHandlerName, labels'.processCommand])
    (L2Ready readOnly labels' dmRegister) kept rest next block stack
    (writable_le writable (by decide)) apart (by omega)
  rw [none] at entered
  refine entered callee enough fun t esp_ _ memory_ => ?_
  have here : t.esp = s.esp - 20 := esp_.trans (UInt32.sub_zero _)
  refine ⟨?_, (memory_ _ (upper ▸ beyond_next apart')).trans import_, ?_⟩
  · rw [here, ← five]
    exact writable.2.2.2.2.2
  · rw [here, lower]
    exact apart'.le (by decide)

/-- Two resumes: the first asks `DmAllocatePoolWithTag` for as many bytes as
`io_address` says and leaves the block's address there, and the second enters
the second stage in that block, which registers its processor. Whatever the
client has done to the rest of memory in between, both come back with the
stack, the frame and the protection as they were. -/
theorem resume_registers (readOnly : UInt32 → Bool) (code code' : Code W) (labels : L1Labels) (labels' : UInt32 → L2Labels)
    (allocate register : W → List UInt32 → UInt32 × W) (dmAllocate dmRegister next next' : UInt32) (s : Cpu W)
    (rest : List UInt32) (kept : Nat) (size block : UInt32) (w : W) (stack : StackAt s.memory s.esp rest)
    (writable : Writable readOnly s.esp 8) (apart : Beyond labels.ioAddress (s.esp - 28) (rest.length + 7))
    (enough : rest.length + 4 ≤ kept) (short : 4 * (kept + 5) ≤ 2 ^ 32)
    (allocates : Stdcall code dmAllocate 2 kept (fun _ => True) allocate)
    (registers : Stdcall code' dmRegister 2 (kept + 1) (fun _ => True) register)
    (size_ : word s.memory labels.ioAddress = size) (some_ : size ≠ 0)
    (granted : allocate s.world [size, dynamicDxtPool] = (block, w))
    (loaded : code block = returning (bootstrapL2 readOnly code' (labels' block)))
    (apart' : Beyond (labels' block).dmRegisterCommandProcessor (s.esp - 32) 8) :
    ∃ s₁, resume readOnly code labels next dmAllocate s = some s₁ ∧ Resumed rest s s₁ ∧
      word s₁.memory labels.ioAddress = block ∧ s₁.world = w ∧
      ∀ m, StackAt m s₁.esp rest → word m labels.ioAddress = 0 →
        word m (labels' block).dmRegisterCommandProcessor = dmRegister →
        ∃ s₂, resume readOnly code labels next' block { s₁ with memory := m } = some s₂ ∧ Resumed rest s s₂ ∧
          (word s₂.memory labels.ioAddress, s₂.world) =
            register w [(labels' block).gHandlerName, (labels' block).processCommand] := by
  have params : ioParams s.memory labels.ioAddress = [size, dynamicDxtPool] := by
    unfold ioParams
    rw [size_, if_neg some_]
  obtain ⟨s₁, ran, resumed, result⟩ := @resume_returns W readOnly code labels s allocate (fun _ => True) kept rest next
    dmAllocate stack (writable_le writable (by decide)) apart (by omega) (by rw [params]; exact allocates) enough fun _ _ _ _ => trivial
  rw [params, granted] at result
  obtain ⟨block_, world_⟩ := Prod.mk.inj result
  refine ⟨s₁, ran, resumed, block_, world_, fun m stack' zero import_ => ?_⟩
  obtain ⟨s₂, ran₂, resumed₂, result₂⟩ := @resume_enters W readOnly code labels { s₁ with memory := m } kept rest next' code'
    (labels' block) register dmRegister block registers loaded stack' (by rwa [resumed.esp]) (by rwa [resumed.esp])
    (by rwa [resumed.esp]) enough short zero import_
  dsimp only at result₂
  rw [world_] at result₂
  refine ⟨s₂, ran₂, ⟨resumed₂.eax, ?_, ?_, ?_, resumed₂.stack⟩, result₂⟩
  · exact resumed₂.esp.trans resumed.esp
  · exact resumed₂.ebp.trans resumed.ebp
  · exact resumed₂.cr0.trans resumed.cr0

/-! ## A system -/

/-- A function of two parameters that leaves memory as it is. -/
def imported (fn : W → List UInt32 → UInt32 × W) (s : Cpu W) : Option (Cpu W) :=
  let (eax, world) := fn s.world [s.load (s.esp + 4), s.load (s.esp + 8)]
  some { s with eax, world, esp := s.esp + 12 }

theorem imported_stdcall (fn : W → List UInt32 → UInt32 × W) {f : UInt32} (at_ : code f = imported fn) :
    Stdcall code f 2 kept (fun _ => True) fn := by
  intro s next params rest _ two _ stack
  obtain ⟨first, second, rfl⟩ := List.length_eq_two.mp two
  obtain ⟨-, first_, second_, rest_⟩ := stack
  have eight : s.esp + 4 + 4 = s.esp + 8 := UInt32.add_assoc _ _ _
  have twelve : s.esp + 8 + 4 = s.esp + 12 := UInt32.add_assoc _ _ _
  rw [eight] at second_ rest_
  rw [twelve] at rest_
  refine ⟨_, congrFun at_ s, ?_⟩
  have params_ : fn s.world [s.load (s.esp + 4), s.load (s.esp + 8)] = fn s.world [first, second] := by
    unfold Cpu.load
    rw [first_, second_]
  exact ⟨rfl, rfl, rfl, rest_, params_⟩

/-- The parameters of the calls, with the block or the code returned. -/
def recorded (eax : UInt32) (calls : List (List UInt32)) (params : List UInt32) : UInt32 × List (List UInt32) :=
  (eax, params :: calls)

def lowPages (p : UInt32) : Bool := p < 0x8000

def l1At : L1Labels where
  geteip := 0x1010
  afterCall := 0x1030
  ioAddress := 0x1050

def l2At (base : UInt32) : L2Labels where
  geteip₁ := base + 0x05
  geteip₂ := base + 0x11
  geteip₃ := base + 0x1D
  afterCall := base + 0x25
  processCommand := base + 0x100
  gHandlerName := base + 0x400
  dmRegisterCommandProcessor := base + 0x410

def importedCode (f : UInt32) : Cpu (List (List UInt32)) → Option (Cpu (List (List UInt32))) :=
  if f = 0x5000 then imported (recorded 0x80000) else imported (recorded 0)

def loadedCode (f : UInt32) : Cpu (List (List UInt32)) → Option (Cpu (List (List UInt32))) :=
  if f = 0x80000 then returning (bootstrapL2 lowPages importedCode (l2At 0x80000)) else importedCode f

/-- The first stage in a protected page, with a size in `io_address`. -/
def resuming : Cpu (List (List UInt32)) where
  eax := 0
  ecx := 0
  edx := 0
  esp := 0x9000
  ebp := 0x9100
  cr0 := 0x80010033
  memory := ofWords [(0x1050, 0x600), (0x9000, 0x7777)]
  world := []

theorem resuming_registered : ∃ s₁ s₂, resume lowPages loadedCode l1At 0x4000 0x5000 resuming = some s₁ ∧
    resume lowPages loadedCode l1At 0x4000 0x80000
      { s₁ with memory := ofWords [(0x1050, 0), (0x9000, 0x7777), (0x80410, 0x6000)] } = some s₂ ∧
    s₂.cr0 = 0x80010033 ∧ s₂.world = [[0x80400, 0x80100], [0x600, 0x44447874]] := by
  obtain ⟨s₁, first, resumed, -, -, then_⟩ := resume_registers lowPages loadedCode importedCode l1At l2At (recorded 0x80000)
    (recorded 0) 0x5000 0x6000 0x4000 0x4000 resuming [0x7777] 5 0x600 0x80000 [[0x600, 0x44447874]]
    ⟨by decide +kernel, trivial⟩
    ⟨by decide, by decide, by decide, by decide, by decide, by decide, by decide, by decide, trivial⟩
    (by decide) (by decide) (by decide) (imported_stdcall _ rfl) (imported_stdcall _ rfl) (by decide +kernel) (by decide)
    rfl rfl (by decide)
  obtain ⟨s₂, second, resumed₂, result⟩ := then_ (ofWords [(0x1050, 0), (0x9000, 0x7777), (0x80410, 0x6000)])
    (by rw [resumed.esp]; exact ⟨by decide +kernel, trivial⟩) (by decide +kernel) (by decide +kernel)
  exact ⟨s₁, s₂, first, second, resumed₂.cr0, congrArg Prod.snd result⟩

end Dyndxt.Bootstrap
