import Dyndxt.Loader.DllContext
import Dyndxt.Mem.Place
import Dyndxt.Run.Paths
import Dyndxt.Bootstrap.ProcessCommand

/-!
# Installing into the allocated block

The commands and transfers of one connection. The bootstrap keeps the address
of the block that `a` allocated in a variable of its own, but its size only in
the context's `buffer_size`, where `r` and an `a` that fails write too. An `i`
fills the block exactly as long as neither has happened since.
-/

namespace Dyndxt.Bootstrap
open Dyndxt.Mem Dyndxt.Run Dyndxt.Pool Dyndxt.Loader
open Dyndxt.Session (xboxSOk xboxSSendBinary xboxSNoMoreData xboxEUnexpected xboxEFail xboxEUnknownCommand
  xboxEAccessDenied)

/-! ## A connection -/

/-- A block of the pool, with the size asked for. -/
structure Block where
  address : Nat
  size : Nat
deriving DecidableEq, Repr

/-- What lasts from one call to the next. `block` is the one of the last `a`
that succeeded, `installed` whether an install was started since, and `sized`
whether `buffer_size` was set by that `a` and not by another command since. -/
structure Connection where
  ctx : CommandContext
  data : Data
  calls : Ledger
  unfinished : Bool
  block : Option Block
  installed : Bool
  sized : Bool
deriving DecidableEq, Repr

/-- The debug monitor's calls, with the memory as it is then. -/
inductive Call where
  | command (budget : Nat) (memory : Bytes) (command response : UInt32)
  /-- The handler, with so many bytes received. -/
  | proceed (budget : Nat) (memory : Bytes) (response dataSize : UInt32)

/-- The block that the last call of the pool handed out. -/
def lastBlock : Ledger → Option Block
  | .alloc size ptr :: _ => some ⟨ptr, size⟩
  | _ => none

/-- The connection after a command, `al`. -/
def Connection.commanded (s : Connection) (al : UInt8) (o : Outcome) : Connection :=
  let s := { s with
    ctx := o.target.ctx
    data := o.target.data
    calls := o.target.calls
    unfinished := o.eax = xboxSSendBinary ∨ o.eax = xboxSBinary }
  if al = 0x69 then { s with installed := s.installed || o.eax = xboxSSendBinary }
  else if al = 0x61 then
    if o.eax = xboxSOk then { s with block := lastBlock o.target.calls, installed := false, sized := true }
    else { s with sized := s.sized && o.eax ≠ xboxEAccessDenied }
  else if al = 0x72 then { s with sized := false }
  else s

/-- The connection after a call of its handler. -/
def Connection.proceeded (s : Connection) (goesOn : Bool) (o : Outcome) : Connection :=
  { s with ctx := o.target.ctx, data := o.target.data, calls := o.target.calls, unfinished := goesOn }

section

variable (alloc : Ledger → Nat → UInt32) (dxtMain : UInt32 → Bytes × Ledger → UInt32 × Bytes × Ledger)
  (labels : Labels) (ctx : UInt32)

/-- The target at a call. -/
def Connection.target (s : Connection) (memory : Bytes) : Target :=
  { memory, ctx := s.ctx, data := s.data, calls := s.calls }

/-- One call. Commands wait for the end of a transfer, and no more bytes are
received than fit the buffer. -/
def Connection.exec (s : Connection) : Call → Option Connection
  | .command budget memory command response =>
    if s.unfinished then none
    else (processCommand alloc labels budget command response ctx (s.target memory)).map fun o =>
      s.commanded (subcommand memory command) o
  | .proceed budget memory response dataSize =>
    if s.unfinished = false then none
    else match s.ctx.handler with
      | none => none
      | some .sendResolvedExports =>
        let o := sendResolvedExports (s.target memory)
        some (s.proceeded (o.eax = xboxSOk) o)
      | some .receiveImageData =>
        if dataSize > s.ctx.bufferSize then none
        else
          let t := { s.target memory with ctx := { s.ctx with dataSize } }
          (receiveImageData labels budget dxtMain response t).map fun o =>
            s.proceeded (o.eax = xboxSOk ∧ o.target.ctx.bytesRemaining ≠ 0) o

/-- An install started on this connection fills the block in `g_image`: with
all its bytes if it is the first since the `a`, and never with more. -/
structure Fills (s : Connection) (o : Outcome) : Prop where
  image : ∀ block, s.block = some block → o.target.data.gImage.toNat = block.address
  most : o.target.ctx.bytesRemaining.toNat ≤ s.block.elim 0 (·.size)
  whole : s.installed = false → ∀ block, s.block = some block →
    o.target.ctx.buffer.toNat = block.address ∧ o.target.ctx.bytesRemaining.toNat = block.size

/-- Every `i` that returns `S_SEND_BINARY` starts such an install. -/
def InstallFills (s : Connection) : Call → Prop
  | .command budget memory command response => subcommand memory command = 0x69 →
      ∀ o, processCommand alloc labels budget command response ctx (s.target memory) = some o →
        o.eax = xboxSSendBinary → Fills s o
  | .proceed .. => True

end

/-- An `i` that is accepted comes after an `a` that succeeded, with no `r` and no
failed `a` in between. -/
def Sized (alloc : Ledger → Nat → UInt32) (labels : Labels) (ctx : UInt32) (s : Connection) : Call → Prop
  | .command budget memory command response => subcommand memory command = 0x69 →
    ∀ o, processCommand alloc labels budget command response ctx (s.target memory) = some o →
      o.eax = xboxSSendBinary → s.sized = true
  | .proceed .. => True

/-- A connection that has given no command yet. -/
structure Initial (s : Connection) : Prop where
  finished : s.unfinished = false
  block : s.block = none
  sized : s.sized = false

variable {alloc : Ledger → Nat → UInt32} {dxtMain : UInt32 → Bytes × Ledger → UInt32 × Bytes × Ledger}
  {labels : Labels} {ctx : UInt32} {budget : Nat} {memory : Bytes} {command response message code eax esi : UInt32}
  {t : Target} {o : Outcome} {s s' : Connection} {call : Call}

section

variable (alloc : Ledger → Nat → UInt32) (labels : Labels) (ctx esi : UInt32) (t : Target)

/-- The block that `.HandleResolve` allocates for the entries. -/
def resolveBlock : UInt32 := alloc t.calls (4 * 128)

/-- The connection with the block in its context. -/
def Target.begun : Target :=
  { t with
    calls := .alloc (4 * 128) (resolveBlock alloc t).toNat :: t.calls
    memory := putContext t.memory ctx (resolveBlock alloc t) (resolveBlock alloc t) (4 * 128) 0 }

/-- The registers before the first argument. -/
def resolveStart : ResolveState :=
  { eax := resolveBlock alloc t, ebx := resolveBlock alloc t, edx := ctx, esi, target := t.begun alloc ctx }

/-- The block freed and the context without it. -/
def Target.withdrawn : Target :=
  { t.freePool (load t.memory (ctx + userDataOffset)) with memory := putContext t.memory ctx 0 0 0 0 }

/-- The context as it is in memory. -/
def Target.readBack : Target := { t with ctx := getContext t.memory ctx t.ctx }

/-- The connection with the handler that sends the block. -/
def Target.sending : Target :=
  Target.readBack ctx { t with
    memory := storeDword t.memory (ctx + handlerOffset) labels.sendResolvedExports
    ctx := { t.ctx with handler := some .sendResolvedExports } }

end

/-! ## What the handlers leave -/

/-- Only the memory has changed. -/
structure Spares (t : Target) (o : Outcome) : Prop where
  ctx : o.target.ctx = t.ctx
  data : o.target.data = t.data
  calls : o.target.calls = t.calls

/-- A message changes nothing but the response. -/
theorem respond_leaves (responded : respond budget response message code t = some o) :
    o.eax = code ∧ Spares t o := by
  unfold respond at responded
  cases copied : strcpy budget t.memory response message with
  | none => rw [copied] at responded; cases responded
  | some p =>
    rw [copied] at responded
    cases responded
    exact ⟨rfl, rfl, rfl, rfl⟩

/-- What `.HandleAlloc` has done, by the code it returns. -/
inductive Allocates (t : Target) (o : Outcome) : Prop where
  | usage (code : o.eax = xboxEFail) (spares : Spares t o)
  | denied (size : UInt32) (code : o.eax = xboxEAccessDenied)
      (ctx : o.target.ctx = { t.ctx with bufferSize := size }) (data : o.target.data = t.data)
      (calls : o.target.calls = .alloc size.toNat 0 :: t.calls)
  | done (size block : UInt32) (code : o.eax = xboxSOk) (ctx : o.target.ctx = { t.ctx with bufferSize := size })
      (data : o.target.data.gImage = block) (calls : o.target.calls = .alloc size.toNat block.toNat :: t.calls)
      (granted : block ≠ 0)

theorem handleAlloc_allocates (handled : handleAlloc alloc labels budget response eax esi t = some o) :
    Allocates t o := by
  unfold handleAlloc at handled
  cases parsed : parseArg budget t.memory eax esi labels.gSizeArg argLen with
  | none => rw [parsed] at handled; cases handled
  | some arg =>
    rw [parsed] at handled
    dsimp only [Option.bind_eq_bind, Option.bind_some] at handled
    split at handled
    · obtain ⟨code, spares⟩ := respond_leaves handled
      exact .usage code spares
    · split at handled
      · next null =>
        obtain ⟨code, spares⟩ := respond_leaves handled
        have null : alloc t.calls arg.eax.toNat = 0 := null
        refine .denied arg.eax code spares.ctx spares.data (spares.calls.trans ?_)
        show PoolCall.alloc arg.eax.toNat (alloc t.calls arg.eax.toNat).toNat :: t.calls = _
        rw [null]
        rfl
      · next granted =>
        cases copied : strcpy budget t.memory response labels.gMessageOk with
        | none =>
          simp only [Target.allocate, copied] at handled
          cases handled
        | some p =>
          obtain ⟨m, edi⟩ := p
          simp only [Target.allocate, copied, Option.bind_some] at handled
          cases written : integerToHex budget labels.gHexChars m (alloc t.calls arg.eax.toNat) edi with
          | none => rw [written] at handled; cases handled
          | some m' =>
            rw [written] at handled
            cases handled
            exact .done arg.eax _ rfl rfl rfl rfl granted

/-- What `.HandleInstall` has done, by the code it returns. -/
inductive Installs (t : Target) (o : Outcome) : Prop where
  | usage (code : o.eax = xboxEFail) (spares : Spares t o)
  | started (code : o.eax = xboxSSendBinary) (buffer : o.target.ctx.buffer = t.data.gImage)
      (remaining : o.target.ctx.bytesRemaining = t.ctx.bufferSize)
      (size : o.target.ctx.bufferSize = t.ctx.bufferSize) (data : o.target.data.gImage = t.data.gImage)
      (handler : o.target.ctx.handler = some .receiveImageData) (calls : o.target.calls = t.calls)

theorem handleInstall_installs (handled : handleInstall labels budget response eax esi t = some o) :
    Installs t o := by
  unfold handleInstall at handled
  cases parsed : parseArg budget t.memory eax esi labels.gEntrypointArg argLen with
  | none => rw [parsed] at handled; cases handled
  | some arg =>
    rw [parsed] at handled
    dsimp only [Option.bind_eq_bind, Option.bind_some] at handled
    split at handled
    · obtain ⟨code, spares⟩ := respond_leaves handled
      exact .usage code spares
    · cases handled
      exact .started rfl rfl rfl rfl rfl rfl rfl

/-! ## What `.HandleResolve` leaves -/

/-- The argument loop changes the memory alone. -/
def OnlyMemory (t : Target) (s : ResolveState) : Prop := ∃ memory, s.target = { t with memory }

def LeavesMemory (t : Target) : Option (Bool × ResolveState) → Prop
  | none => True
  | some (_, s) => OnlyMemory t s

theorem checkSpace_memory {s : ResolveState} (same : OnlyMemory t s) :
    (checkSpace s).Holds (OnlyMemory t) (LeavesMemory t) := by
  unfold checkSpace
  dsimp only
  split
  · exact same
  · exact same

theorem resolveTurn_memory {s : ResolveState} (same : OnlyMemory t s) :
    (resolveTurn labels budget ctx s).Holds (OnlyMemory t) (LeavesMemory t) := by
  unfold resolveTurn
  split
  · trivial
  · dsimp only
    split
    · exact checkSpace_memory same
    · split
      · exact same
      · split
        · trivial
        · split
          · exact same
          · split
            · trivial
            · obtain ⟨memory, same⟩ := same
              refine checkSpace_memory ⟨?_, ?_⟩
              rotate_left
              · unfold storeExport
                dsimp only
                rw [same]

theorem resolveLoop_memory {s : ResolveState} (same : OnlyMemory t s) (n : Nat) :
    (run (resolveTurn labels budget ctx) n s).Holds (OnlyMemory t) (LeavesMemory t) := by
  refine run_holds (fun s s' same next => ?_) (fun s r same left => ?_) n same
  · have kept := @resolveTurn_memory labels ctx budget t s same
    rwa [next] at kept
  · have kept := @resolveTurn_memory labels ctx budget t s same
    rwa [left] at kept

/-- The handler by how its loop leaves. -/
theorem handleResolve_eq : handleResolve alloc labels budget ctx response esi t =
    (left (run (resolveTurn labels budget ctx) budget (resolveStart alloc ctx esi t))).bind fun result => result.bind fun
      | (true, s) => some { eax := xboxSBinary, target := s.target.sending labels ctx }
      | (false, s) => (respond budget response labels.gMessageUsageResolve xboxEFail (s.target.withdrawn ctx)).map fun o =>
          { o with target := o.target.readBack ctx } := by
  unfold handleResolve
  dsimp only [Option.bind_eq_bind, Target.allocate]
  congr 1
  funext result
  congr 1
  funext ⟨valid, s⟩
  cases valid with
  | true => rfl
  | false =>
    show (respond budget response labels.gMessageUsageResolve xboxEFail (s.target.withdrawn ctx)).bind _ =
      (respond budget response labels.gMessageUsageResolve xboxEFail (s.target.withdrawn ctx)).map _
    cases responded : respond budget response labels.gMessageUsageResolve xboxEFail (s.target.withdrawn ctx) with
    | none => rfl
    | some o =>
      obtain ⟨-, spares⟩ := respond_leaves responded
      have same : s.target.ctx = o.target.ctx := spares.ctx.symm
      show some { o with target := { o.target with ctx := getContext o.target.memory ctx s.target.ctx } } = _
      rw [same]
      rfl

/-- What `.HandleResolve` has done when its loop left with `valid` and `s`. -/
inductive Resolved (labels : Labels) (ctx : UInt32) (s : ResolveState) (o : Outcome) : Bool → Prop where
  | sending (same : o = { eax := xboxSBinary, target := s.target.sending labels ctx }) : Resolved labels ctx s o true
  | usage (code : o.eax = xboxEFail) (data : o.target.data = s.target.data)
      (calls : o.target.calls = .free (load s.target.memory (ctx + userDataOffset)).toNat :: s.target.calls) :
      Resolved labels ctx s o false

theorem handleResolve_resolves (handled : handleResolve alloc labels budget ctx response esi t = some o) :
    ∃ valid s, run (resolveTurn labels budget ctx) budget (resolveStart alloc ctx esi t) = .leave (some (valid, s)) ∧
      OnlyMemory (t.begun alloc ctx) s ∧ Resolved labels ctx s o valid := by
  rw [handleResolve_eq] at handled
  have kept := @resolveLoop_memory labels ctx budget (t.begun alloc ctx) (resolveStart alloc ctx esi t) ⟨_, rfl⟩ budget
  cases ran : run (resolveTurn labels budget ctx) budget (resolveStart alloc ctx esi t) with
  | again s => rw [ran] at handled; cases handled
  | leave result =>
    rw [ran] at handled kept
    cases result with
    | none => cases handled
    | some p =>
      obtain ⟨valid, s⟩ := p
      refine ⟨valid, s, rfl, kept, ?_⟩
      cases valid with
      | true =>
        cases handled
        exact .sending rfl
      | false =>
        obtain ⟨o', responded, rfl⟩ := Option.map_eq_some_iff.mp handled
        obtain ⟨code, spares⟩ := respond_leaves responded
        exact .usage code spares.data spares.calls

/-- Either way the bootstrap's variables stay, and the code tells which. -/
theorem Resolved.ends {s : ResolveState} {valid : Bool} (resolved : Resolved labels ctx s o valid) :
    o.target.data = s.target.data ∧
    (o.eax = xboxEFail ∨ o.eax = xboxSBinary ∧ o.target.ctx.handler = some .sendResolvedExports) := by
  cases resolved with
  | sending same =>
    rw [same]
    exact ⟨rfl, .inr ⟨rfl, rfl⟩⟩
  | usage code data => exact ⟨data, .inl code⟩

/-! ## What the continuations leave -/

/-- What `ReceiveImageData` has done: the message, bytes counted, or the image
run after the last of them. -/
inductive Receives (dxtMain : UInt32 → Bytes × Ledger → UInt32 × Bytes × Ledger) (t : Target) (o : Outcome) : Prop where
  | failed (none : t.ctx.dataSize = 0) (spares : Spares t o)
  | counted (some : t.ctx.dataSize ≠ 0) (more : t.ctx.bytesRemaining - t.ctx.dataSize ≠ 0) (data : o.target.data = t.data)
      (handler : o.target.ctx.handler = t.ctx.handler) (size : o.target.ctx.bufferSize = t.ctx.bufferSize - t.ctx.dataSize)
      (calls : o.target.calls = t.calls)
  | ran (some : t.ctx.dataSize ≠ 0) (last : t.ctx.bytesRemaining - t.ctx.dataSize = 0) (data : o.target.data = t.data)
      (handler : o.target.ctx.handler = t.ctx.handler) (size : o.target.ctx.bufferSize = t.ctx.bufferSize - t.ctx.dataSize)
      (calls : o.target.calls = (dxtMain t.data.gImageEntrypoint (t.memory, t.calls)).2.2)

theorem receiveImageData_receives (handled : receiveImageData labels budget dxtMain response t = some o) :
    Receives dxtMain t o := by
  unfold receiveImageData at handled
  dsimp only at handled
  split at handled
  · next none => exact .failed none (respond_leaves handled).2
  · next some =>
    split at handled
    · next more =>
      cases handled
      exact .counted some more rfl rfl rfl rfl
    · next last =>
      cases handled
      exact .ran some (not_not.mp last) rfl rfl rfl rfl

/-- However many bytes came: the variables and the handler stay. -/
theorem Receives.leaves (receives : Receives dxtMain t o) : o.target.data = t.data ∧ o.target.ctx.handler = t.ctx.handler ∧
    (o.target.ctx.bufferSize = t.ctx.bufferSize ∨ o.target.ctx.bufferSize = t.ctx.bufferSize - t.ctx.dataSize) := by
  cases receives with
  | failed none spares =>
    rw [spares.data, spares.ctx]
    exact ⟨rfl, rfl, .inl rfl⟩
  | counted some more data handler size => exact ⟨data, handler, .inr size⟩
  | ran some last data handler size => exact ⟨data, handler, .inr size⟩

theorem sendResolvedExports_sends : (sendResolvedExports t).target.data = t.data ∧
    (sendResolvedExports t).target.ctx.handler = t.ctx.handler ∧
    (sendResolvedExports t).target.ctx.bufferSize = t.ctx.bufferSize := by
  unfold sendResolvedExports
  dsimp only
  split <;> exact ⟨rfl, rfl, rfl⟩

/-! ## What every call keeps -/

/-- The variable points to the block, and `buffer_size` counts from its size as
long as it is the allocation's. -/
structure Accounted (s : Connection) : Prop where
  image : ∀ block, s.block = some block → s.data.gImage.toNat = block.address
  sized : s.sized = true → ∃ block, s.block = some block ∧ s.ctx.bufferSize.toNat ≤ block.size ∧
    (s.installed = false → s.ctx.bufferSize.toNat = block.size)
  receiving : s.unfinished = true → s.ctx.handler = some .receiveImageData → s.installed = true

/-- Before any command there is nothing to account for. -/
theorem Initial.accounted (initial : Initial s) : Accounted s := by
  constructor
  · intro block found
    rw [initial.block] at found
    cases found
  · intro sized
    rw [initial.sized] at sized
    cases sized
  · intro unfinished
    rw [initial.finished] at unfinished
    cases unfinished

/-- A call that leaves the variable, and the size if it still counts, with no
transfer begun. -/
theorem Accounted.same (accounted : Accounted s) (image : s'.data.gImage = s.data.gImage)
    (block : s'.block = s.block) (sized : s'.sized = true → s.sized = true ∧
      s'.ctx.bufferSize = s.ctx.bufferSize ∧ s'.installed = s.installed) (finished : s'.unfinished = false) :
    Accounted s' := by
  constructor
  · intro b found
    rw [image]
    exact accounted.image b (block ▸ found)
  · intro counts
    obtain ⟨counts, size, installed⟩ := sized counts
    rw [block, size, installed]
    exact accounted.sized counts
  · intro unfinished
    rw [finished] at unfinished
    cases unfinished

/-- A command that returns another code has begun no transfer. -/
theorem not_begun {eax : UInt32} (returned : eax = code) (send : code ≠ xboxSSendBinary) (binary : code ≠ xboxSBinary) :
    decide (eax = xboxSSendBinary ∨ eax = xboxSBinary) = false := by
  rw [returned]
  exact decide_eq_false (not_or.mpr ⟨send, binary⟩)

/-- An `i` that is accepted reads `g_image` and the size, and changes neither. -/
theorem Accounted.install (accounted : Accounted s) (installs : Installs (s.target memory) o) :
    Accounted (s.commanded 0x69 o) := by
  unfold Connection.commanded
  dsimp only
  rw [if_pos rfl]
  cases installs with
  | usage code spares =>
    have started : (s.installed || decide (o.eax = xboxSSendBinary)) = s.installed := by
      rw [code]
      exact Bool.or_false _
    refine accounted.same (congrArg Data.gImage spares.data) rfl (fun sized => ⟨sized, ?_, started⟩) ?_
    · exact congrArg CommandContext.bufferSize spares.ctx
    · exact not_begun code (by decide) (by decide)
  | started code buffer remaining size data =>
    have started : (s.installed || decide (o.eax = xboxSSendBinary)) = true := by
      rw [code]
      exact Bool.or_true _
    constructor
    · intro block found
      dsimp only
      rw [data]
      exact accounted.image block found
    · intro sized
      obtain ⟨block, found, most, -⟩ := accounted.sized sized
      refine ⟨block, found, ?_, fun none => ?_⟩
      · dsimp only
        rw [size]
        exact most
      · rw [started] at none
        cases none
    · intro _ _
      exact started

/-- An `a` that succeeds sets `g_image` and the size together; one whose
allocation failed sets the size alone. -/
theorem Accounted.allocate (accounted : Accounted s) (allocates : Allocates (s.target memory) o) :
    Accounted (s.commanded 0x61 o) := by
  unfold Connection.commanded
  dsimp only
  rw [if_neg (show ¬ (0x61 : UInt8) = 0x69 by decide), if_pos rfl]
  cases allocates with
  | usage code spares =>
    have failed : ¬ o.eax = xboxSOk := by rw [code]; decide
    rw [if_neg failed]
    refine accounted.same (congrArg Data.gImage spares.data) rfl (fun sized => ⟨?_, ?_, rfl⟩) ?_
    · exact (Bool.and_eq_true_iff.mp sized).1
    · exact congrArg CommandContext.bufferSize spares.ctx
    · exact not_begun code (by decide) (by decide)
  | denied size code ctx data =>
    have failed : ¬ o.eax = xboxSOk := by rw [code]; decide
    rw [if_neg failed]
    refine accounted.same (congrArg Data.gImage data) rfl (fun sized => ?_) ?_
    · have kept := (Bool.and_eq_true_iff.mp sized).2
      rw [code] at kept
      cases kept
    · exact not_begun code (by decide) (by decide)
  | done size block code ctx data calls =>
    rw [if_pos code]
    have handed : lastBlock o.target.calls = some ⟨block.toNat, size.toNat⟩ := by
      rw [calls]
      rfl
    constructor
    · intro b found
      cases handed.symm.trans found
      exact congrArg UInt32.toNat data
    · intro _
      refine ⟨_, handed, ?_, fun _ => ?_⟩
      · dsimp only
        rw [ctx]
      · dsimp only
        rw [ctx]
    · intro unfinished
      dsimp only at unfinished
      rw [not_begun code (by decide) (by decide)] at unfinished
      cases unfinished

/-- An `r` leaves `g_image`, and the size is no longer that of the block. -/
theorem Accounted.resolve (accounted : Accounted s) (data : o.target.data = s.data)
    (resolves : o.eax = xboxEFail ∨
      o.eax = xboxSBinary ∧ o.target.ctx.handler = some .sendResolvedExports) :
    Accounted (s.commanded 0x72 o) := by
  unfold Connection.commanded
  dsimp only
  rw [if_neg (show ¬ (0x72 : UInt8) = 0x69 by decide), if_neg (show ¬ (0x72 : UInt8) = 0x61 by decide), if_pos rfl]
  constructor
  · intro block found
    rw [data]
    exact accounted.image block found
  · intro sized
    cases sized
  · intro unfinished receiving
    rcases resolves with code | ⟨-, sending⟩
    · dsimp only at unfinished
      rw [not_begun code (by decide) (by decide)] at unfinished
      cases unfinished
    · cases sending.symm.trans receiving

/-- Every command keeps the account. -/
theorem Accounted.commanded (accounted : Accounted s)
    (handled : processCommand alloc labels budget command response ctx (s.target memory) = some o) :
    Accounted (s.commanded (subcommand memory command) o) := by
  unfold processCommand at handled
  dsimp only at handled
  have al : subcommand (s.target memory).memory command = subcommand memory command := rfl
  rw [al] at handled
  split at handled
  · next install =>
    rw [install] at handled ⊢
    exact accounted.install (handleInstall_installs handled)
  · next other =>
    split at handled
    · next allocate =>
      rw [allocate] at handled ⊢
      exact accounted.allocate (handleAlloc_allocates handled)
    · next other' =>
      split at handled
      · next resolve =>
        rw [resolve]
        obtain ⟨valid, s', -, ⟨m, same⟩, resolved⟩ := handleResolve_resolves handled
        obtain ⟨data, code⟩ := resolved.ends
        exact accounted.resolve (data.trans (by rw [same]; rfl)) code
      · next unknown =>
        cases handled
        unfold Connection.commanded
        dsimp only
        rw [if_neg other, if_neg other', if_neg unknown]
        have begun := @not_begun xboxEUnknownCommand _ rfl (by decide) (by decide)
        exact accounted.same rfl rfl (fun sized => ⟨sized, rfl, rfl⟩) begun

/-- Bytes received are counted down from the size. -/
theorem Accounted.receive {dataSize : UInt32} {goesOn : Bool} (accounted : Accounted s) (installed : s.installed = true)
    (room : dataSize ≤ s.ctx.bufferSize) (data : o.target.data = s.data)
    (size : o.target.ctx.bufferSize = s.ctx.bufferSize ∨ o.target.ctx.bufferSize = s.ctx.bufferSize - dataSize) :
    Accounted (s.proceeded goesOn o) := by
  constructor
  · intro block found
    show o.target.data.gImage.toNat = block.address
    rw [data]
    exact accounted.image block found
  · intro sized
    obtain ⟨block, found, most, -⟩ := accounted.sized sized
    refine ⟨block, found, ?_, fun none => ?_⟩
    · show o.target.ctx.bufferSize.toNat ≤ block.size
      rcases size with same | less
      · rw [same]
        exact most
      · rw [less, UInt32.toNat_sub_of_le _ _ room]
        omega
    · cases installed.symm.trans none
  · intro _ _
    exact installed

/-- Sending the resolved exports leaves the size. -/
theorem Accounted.send {goesOn : Bool} (accounted : Accounted s) (sending : s.ctx.handler = some .sendResolvedExports) :
    Accounted (s.proceeded goesOn (sendResolvedExports (s.target memory))) := by
  obtain ⟨data, handler, size⟩ := @sendResolvedExports_sends (s.target memory)
  have size : (sendResolvedExports (s.target memory)).target.ctx.bufferSize = s.ctx.bufferSize := size
  constructor
  · intro block found
    exact (congrArg (·.gImage.toNat) data).trans (accounted.image block found)
  · intro sized
    obtain ⟨block, found, most, whole⟩ := accounted.sized sized
    refine ⟨block, found, ?_, fun none => ?_⟩
    · exact size ▸ most
    · exact (congrArg UInt32.toNat size).trans (whole none)
  · intro _ receiving
    cases (handler.trans sending).symm.trans receiving

/-- One call keeps the account. -/
theorem exec_accounted (accounted : Accounted s) (next : s.exec alloc dxtMain labels ctx call = some s') :
    Accounted s' := by
  cases call with
  | command budget memory command response =>
    unfold Connection.exec at next
    dsimp only at next
    split at next
    · cases next
    · obtain ⟨o, handled, rfl⟩ := Option.map_eq_some_iff.mp next
      exact accounted.commanded handled
  | proceed budget memory response dataSize =>
    unfold Connection.exec at next
    dsimp only at next
    split at next
    · cases next
    · next busy =>
      have busy : s.unfinished = true := Bool.eq_true_of_not_eq_false busy
      split at next
      · cases next
      · next sending =>
        cases next
        exact accounted.send sending
      · next receiving =>
        split at next
        · cases next
        · next room =>
          obtain ⟨o, handled, rfl⟩ := Option.map_eq_some_iff.mp next
          obtain ⟨data, -, size⟩ := (receiveImageData_receives handled).leaves
          exact accounted.receive (accounted.receiving busy receiving) (UInt32.not_lt.mp room) data size

/-! ## Installs -/

/-- In every run, an `i` that comes after an `a` that succeeded, with no `r` and
no failed `a` in between, fills the allocated block and no more. -/
theorem install_fills_block (alloc : Ledger → Nat → UInt32)
    (dxtMain : UInt32 → Bytes × Ledger → UInt32 × Bytes × Ledger) (labels : Labels) (ctx : UInt32)
    (start s : Connection) (call : Call) (initial : Initial start)
    (path : Path (Connection.exec alloc dxtMain labels ctx) (fun _ _ => True) start s) (sized : Sized alloc labels ctx s call) :
    InstallFills alloc labels ctx s call := by
  have accounted := path.invariant (fun s call s' accounted _ => exec_accounted accounted) initial.accounted
  cases call with
  | proceed budget memory response dataSize => trivial
  | command budget memory command response =>
    intro install o handled code
    obtain ⟨block, found, most, whole⟩ := accounted.sized (sized install o handled code)
    unfold processCommand at handled
    dsimp only at handled
    have al : subcommand (s.target memory).memory command = 0x69 := install
    rw [if_pos al] at handled
    cases handleInstall_installs handled with
    | usage failed => cases code.symm.trans failed
    | started code buffer remaining size data =>
      have image := accounted.image block found
      refine ⟨fun b found' => ?_, ?_, fun none b found' => ?_⟩
      · rw [data]
        exact accounted.image b found'
      · rw [remaining, found]
        exact most
      · cases found.symm.trans found'
        rw [buffer, remaining]
        exact ⟨image, whole none⟩

/-- The bootstrap's strings at one place in memory. -/
def labelsAt : Labels where
  gBaseArg := 0x1101
  gOrdinalArg := 0x1105
  gSizeArg := 0x1109
  gEntrypointArg := 0x110D
  gHexChars := 0x1110
  gMessageInstallFailed := 0x1120
  gMessageOutOfMemory := 0x1130
  gMessageOk := 0x1140
  gMessageUsageResolve := 0x1170
  gMessageUsageAlloc := 0x11A0
  gMessageUsageInstall := 0x11C0
  sendResolvedExports := 0x11E0

/-- The strings themselves, and a command at `0x1000`. -/
def memoryWith (command : String) : Bytes :=
  [(0x1101, "b="), (0x1105, "o="), (0x1109, "s="), (0x110D, "e="), (0x1110, "0123456789abcdef"),
    (0x1120, "Install failed"), (0x1130, "Out of memory"), (0x1140, "Ready to receive binary data. base="),
    (0x1170, "Usage \"r [b=<base_hex> [o=<ordinal>]]\""), (0x11A0, "Usage \"a s=<size_hex>\""),
    (0x11C0, "Usage \"i e=<entrypoint_hex>\""), (0x1000, command)].foldl
    (fun m text => place Build.target.space m text.1 (ascii text.2)) fun _ => 0

def commandOf (text : String) : Call := .command 64 (memoryWith text) 0x1000 0x2000

/-- A pool with room for blocks of 16 bytes. -/
def smallPool (_ : Ledger) (size : Nat) : UInt32 := if size ≤ 16 then 0x80000 else 0

def idleMain (_ : UInt32) (s : Bytes × Ledger) : UInt32 × Bytes × Ledger := (xboxSOk, s)

/-- A connection with the buffer of 64 bytes that it was opened with. -/
def opened : Connection where
  ctx := { buffer := 0x3000, bufferSize := 64 }
  data := {}
  calls := []
  unfinished := false
  block := none
  installed := false
  sized := false

/-- `i e=0x1` on a connection: the bytes to receive, with the allocated block. -/
def installAt (s : Connection) : Option (UInt32 × UInt32 × Option Block) :=
  (processCommand smallPool labelsAt 64 0x1000 0x2000 0x4000 (s.target (memoryWith "ldxt!i e=0x1"))).map fun o =>
    (o.eax, o.target.ctx.bytesRemaining, s.block)

/-- An `a` that fails after one that succeeded leaves its own size behind, and
the next `i` receives that many bytes into the smaller block. -/
theorem failedAlloc_overfills : ¬ ∀ (alloc : Ledger → Nat → UInt32)
    (dxtMain : UInt32 → Bytes × Ledger → UInt32 × Bytes × Ledger) (labels : Labels) (ctx : UInt32)
    (start s : Connection), Initial start →
    Path (Connection.exec alloc dxtMain labels ctx) (fun _ _ => True) start s →
    ∀ call, InstallFills alloc labels ctx s call := by
  intro fills
  have overrun : (([commandOf "ldxt!a s=0x10", commandOf "ldxt!a s=0x20"].foldlM
      (Connection.exec smallPool idleMain labelsAt 0x4000) opened).bind installAt) =
      some (xboxSSendBinary, 32, some ⟨0x80000, 16⟩) := by decide +kernel
  obtain ⟨s, followed, installed⟩ := Option.bind_eq_some_iff.mp overrun
  obtain ⟨o, handled, found⟩ := Option.map_eq_some_iff.mp installed
  simp only [Prod.mk.injEq] at found
  obtain ⟨code, remaining, block⟩ := found
  have filled := fills smallPool idleMain labelsAt 0x4000 opened s ⟨rfl, rfl, rfl⟩ (path_of_foldlM followed)
    (.command 64 (memoryWith "ldxt!i e=0x1") 0x1000 0x2000) (by decide +kernel) o handled code
  have most := filled.most
  rw [remaining, block] at most
  exact absurd most (by decide)

/-- After an `a` alone the block is filled. -/
theorem firstInstall_fills : ∃ s, Connection.exec smallPool idleMain labelsAt 0x4000 opened (commandOf "ldxt!a s=0x10") =
    some s ∧ InstallFills smallPool labelsAt 0x4000 s (commandOf "ldxt!i e=0x1") ∧
    installAt s = some (xboxSSendBinary, 16, some ⟨0x80000, 16⟩) := by
  have run : ((Connection.exec smallPool idleMain labelsAt 0x4000 opened (commandOf "ldxt!a s=0x10")).map
      fun s => (s.sized, installAt s)) = some (true, some (xboxSSendBinary, 16, some ⟨0x80000, 16⟩)) := by
    decide +kernel
  obtain ⟨s, allocated, found⟩ := Option.map_eq_some_iff.mp run
  obtain ⟨sized, installed⟩ := Prod.mk.inj found
  have path : Path (Connection.exec smallPool idleMain labelsAt 0x4000) (fun _ _ => True) opened s :=
    .snoc (commandOf "ldxt!a s=0x10") .refl trivial allocated
  exact ⟨s, allocated, install_fills_block smallPool idleMain labelsAt 0x4000 opened s _ ⟨rfl, rfl, rfl⟩ path
    fun _ _ _ _ => sized, installed⟩

end Dyndxt.Bootstrap
