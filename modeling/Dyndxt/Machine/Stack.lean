import Dyndxt.Mem.Bytes

/-!
# A stack of words and the calls on it

Straight-line i386 code by its registers, in one flat memory of 32-bit
addresses that may run over the top. What is on the stack is a list of words;
a `push` and a `pop` are a `cons` and a `tail`, and a `stdcall` function takes
its parameters off the list.

Nothing here is about a particular program: what the rest of the system holds
and what the code at an address does are parameters.
-/

namespace Dyndxt.Machine
open Dyndxt.Mem

/-! ## Words -/

/-- `dword [p]` -/
def word (m : Bytes) (p : UInt32) : UInt32 := u32 (2 ^ 32) m p.toNat

/-- `mov dword [p], v` -/
def setWord (m : Bytes) (p v : UInt32) : Bytes := store32 (2 ^ 32) m p.toNat v

/-- The word at `p` is not among the `n` words from `q` up. -/
def Beyond (p q : UInt32) (n : Nat) : Prop := 4 * n ≤ (p - q).toNat ∧ (p - q).toNat + 4 ≤ 2 ^ 32

instance (p q : UInt32) (n : Nat) : Decidable (Beyond p q n) := inferInstanceAs (Decidable (_ ∧ _))

/-- The words from `p` up. -/
def StackAt (m : Bytes) : UInt32 → List UInt32 → Prop
  | _, [] => True
  | p, w :: ws => word m p = w ∧ StackAt m (p + 4) ws

/-! ## Code -/

/-- The registers, the memory, and what the system holds besides. -/
structure Cpu (W : Type) where
  eax : UInt32
  ecx : UInt32
  edx : UInt32
  esp : UInt32
  ebp : UInt32
  cr0 : UInt32
  memory : Bytes
  world : W

/-- `CR0.WP`: stores heed the write protection of pages. -/
def writeProtect : UInt32 := 0x00010000

/-- What the code at an address does from its entry to its return; `none` is a
fault. -/
abbrev Code (W : Type) := UInt32 → Cpu W → Option (Cpu W)

section

variable {W : Type} (readOnly : UInt32 → Bool)

def Cpu.load (s : Cpu W) (p : UInt32) : UInt32 := word s.memory p

/-- `mov dword [p], v`, which faults in a page that is protected. -/
def Cpu.store (s : Cpu W) (p v : UInt32) : Option (Cpu W) :=
  if readOnly p = true ∧ s.cr0 &&& writeProtect ≠ 0 then none else some { s with memory := setWord s.memory p v }

def Cpu.push (s : Cpu W) (v : UInt32) : Option (Cpu W) := ({ s with esp := s.esp - 4 } : Cpu W).store readOnly (s.esp - 4) v

def Cpu.pop (s : Cpu W) : UInt32 × Cpu W := (s.load s.esp, { s with esp := s.esp + 4 })

/-- `call f`, with the address of the next instruction. -/
def Cpu.call (code : Code W) (f next : UInt32) (s : Cpu W) : Option (Cpu W) := do
  let s ← s.push readOnly next
  code f s

/-- `ret n`, with the address returned to. -/
def Cpu.ret (s : Cpu W) (n : UInt32) : UInt32 × Cpu W := (s.load s.esp, { s with esp := s.esp + 4 + n })

end

/-- Code that returns to where it was called from. -/
def returning {W : Type} (f : Cpu W → Option (UInt32 × Cpu W)) (s : Cpu W) : Option (Cpu W) :=
  match f s with
  | none => none
  | some (eip, s') => if eip = s.load s.esp then some s' else none

/-- The `n` words below `p` can be pushed to. -/
def Writable (readOnly : UInt32 → Bool) : UInt32 → Nat → Prop
  | _, 0 => True
  | p, n + 1 => readOnly (p - 4) = false ∧ Writable readOnly (p - 4) n

/-- What holds when a function has returned: the return address and the
parameters are off the stack, what was behind them is still there, and the
result and the system are what the function makes of its parameters. -/
structure Returned {W : Type} (fn : W → List UInt32 → UInt32 × W) (params rest : List UInt32) (s s' : Cpu W) : Prop where
  esp : s'.esp = s.esp + 4 * .ofNat (params.length + 1)
  ebp : s'.ebp = s.ebp
  cr0 : s'.cr0 = s.cr0
  stack : StackAt s'.memory s'.esp rest
  result : (s'.eax, s'.world) = fn s.world params

/-- A `stdcall` function of `args` parameters at `f`, that leaves at least
`kept` words behind them. -/
def Stdcall {W : Type} (code : Code W) (f : UInt32) (args kept : Nat) (pre : Cpu W → Prop)
    (fn : W → List UInt32 → UInt32 × W) : Prop :=
  ∀ s next params rest, pre s → params.length = args → rest.length ≤ kept →
    StackAt s.memory s.esp (next :: (params ++ rest)) → ∃ s', code f s = some s' ∧ Returned fn params rest s s'

variable {W : Type} {readOnly : UInt32 → Bool} {m : Bytes} {p q v w : UInt32} {ws xs : List UInt32} {n k : Nat} {s : Cpu W}

/-! ## Loads and stores -/

theorem word_setWord (m : Bytes) (p v : UInt32) : word (setWord m p v) p = v := u32_store32_same (by decide)

theorem sub_toNat (p q : UInt32) : (p - q).toNat = (2 ^ 32 - q.toNat + p.toNat) % 2 ^ 32 := UInt32.toNat_sub p q

/-- A word apart from the one that is stored. -/
theorem word_apart (beyond : Beyond p q 1) : word (setWord m p v) q = word m q := by
  obtain ⟨above, below⟩ := beyond
  have lt := p.toNat_lt
  have lt' := q.toNat_lt
  rw [sub_toNat] at above below
  refine u32_congr fun i lt4 => store_miss _ ?_
  unfold Mem.dist
  omega

theorem beyond_next (beyond : Beyond p q (n + 1)) : Beyond p (q + 4) n := by
  obtain ⟨above, below⟩ := beyond
  have lt := p.toNat_lt
  have lt' := q.toNat_lt
  have four : (4 : UInt32).toNat = 4 := rfl
  unfold Beyond
  rw [sub_toNat] at above below ⊢
  rw [UInt32.toNat_add, four]
  omega

theorem Beyond.le (beyond : Beyond p q n) (le : k ≤ n) : Beyond p q k := ⟨by have := beyond.1; omega, beyond.2⟩

/-- And the words are not at its place. -/
theorem Beyond.symm (beyond : Beyond p q n) (lt : k < n) : Beyond (q + 4 * .ofNat k) p 1 := by
  obtain ⟨above, below⟩ := beyond
  have four : (4 : UInt32).toNat = 4 := rfl
  have lt₁ := p.toNat_lt
  have lt₂ := q.toNat_lt
  unfold Beyond
  rw [sub_toNat] at above below ⊢
  rw [UInt32.toNat_add, UInt32.toNat_mul, UInt32.toNat_ofNat', four]
  omega

/-- Below the stack pointer there is nothing on the stack. -/
theorem beyond_below (fits : 4 * (n + 1) ≤ 2 ^ 32) : Beyond (q - 4) q n := by
  have lt := q.toNat_lt
  have four : (4 : UInt32).toNat = 4 := rfl
  unfold Beyond
  rw [sub_toNat, sub_toNat, four]
  omega

/-! ## The stack -/

theorem StackAt.store (stack : StackAt m q ws) (beyond : Beyond p q ws.length) : StackAt (setWord m p v) q ws := by
  induction ws generalizing q with
  | nil => trivial
  | cons w ws ih =>
    rw [List.length_cons] at beyond
    exact ⟨(word_apart (beyond.le (Nat.le_add_left 1 _))).trans stack.1, ih stack.2 (beyond_next beyond)⟩

theorem add_four_mul (p : UInt32) (n : Nat) : p + 4 + 4 * .ofNat n = p + 4 * .ofNat (n + 1) := by
  rw [UInt32.ofNat_add]
  have one : UInt32.ofNat 1 = 1 := rfl
  rw [one]
  grind

/-- A store where nothing is protected, or protection is off. -/
theorem store_some (free : readOnly p = false ∨ s.cr0 &&& writeProtect = 0) :
    s.store readOnly p v = some { s with memory := setWord s.memory p v } := by
  refine if_neg fun protected_ => ?_
  rcases free with open_ | off
  · exact Bool.false_ne_true (open_.symm.trans protected_.1)
  · exact protected_.2 off

theorem push_some (free : readOnly (s.esp - 4) = false) :
    s.push readOnly v = some { s with esp := s.esp - 4, memory := setWord s.memory (s.esp - 4) v } :=
  store_some (.inl free)

theorem writable_le (writable : Writable readOnly p n) (le : k ≤ n) : Writable readOnly p k := by
  induction k generalizing p n with
  | zero => trivial
  | succ k ih =>
    obtain ⟨n, rfl⟩ : ∃ n', n = n' + 1 := ⟨n - 1, by omega⟩
    exact ⟨writable.1, ih writable.2 (Nat.le_of_succ_le_succ le)⟩

theorem pop_eq (stack : StackAt s.memory s.esp (w :: ws)) : s.pop = (w, { s with esp := s.esp + 4 }) :=
  congrArg (·, _) stack.1

theorem call_some (free : readOnly (s.esp - 4) = false) (code : Code W) (f next : UInt32) : s.call readOnly code f next =
    code f { s with esp := s.esp - 4, memory := setWord s.memory (s.esp - 4) next } := by
  unfold Cpu.call
  rw [push_some free]
  rfl

/-- A word pushed is on top. -/
theorem StackAt.push (stack : StackAt m p ws) (fits : 4 * (ws.length + 1) ≤ 2 ^ 32) :
    StackAt (setWord m (p - 4) v) (p - 4) (v :: ws) := by
  refine ⟨word_setWord m (p - 4) v, ?_⟩
  rw [UInt32.sub_add_cancel]
  exact stack.store (beyond_below fits)

end Dyndxt.Machine
