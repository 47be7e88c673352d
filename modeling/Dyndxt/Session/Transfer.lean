import Mathlib.Data.List.Flatten
import Dyndxt.Mem.Place
import Dyndxt.Session.Interleaving

/-!
# Receiving an image

The debug monitor puts the bytes it has received at `ctx->buffer`, their
number in `data_size`, and calls the handler, until the image is complete.
However the image is cut up, the last call completes it on the same memory
and with the same record.
-/

namespace Dyndxt.Session
open Dyndxt.Mem Dyndxt.Pool Dyndxt.Params Dyndxt.Registry

/-- The target's memory with what a connection's calls read and write. -/
structure Transfer where
  memory : Bytes
  ctx : CommandContext
  store : ContextStore
  registry : ModuleRegistry

/-- What `ReceiveImageDataComplete` replies and does, by the memory it finds. -/
abbrev Completion := Bytes → ReceiveImageDataContext → ModuleRegistry → Reply × ModuleRegistry

section

variable (alloc : Ledger → Nat → Nat) (complete : Completion)

/-- The size that a `load` command asks for. -/
def requestedSize (command : Chars) (calls : Ledger) : Option UInt32 :=
  match cpParseCommandParameters .target alloc (some command) (some {}) calls with
  | .error _ => none
  | .ok { ret, result, .. } =>
    if ret < 0 then none
    else match cpGetUInt32 32 sizeKey (result.getD {}) with
      | (true, size) => some size
      | (false, _) => none

/-- The state after an accepted `load`. -/
def Transfer.begin (memory : Bytes) (o : Outcome) : Transfer where
  memory
  ctx := o.ctx
  store := o.store
  registry := o.registry

/-- A chunk is put at `ctx->buffer` and the handler called. -/
def Transfer.receive (s : Transfer) (chunk : List UInt8) : Option (Reply × Transfer) :=
  let memory := place (2 ^ 32) s.memory s.ctx.buffer chunk
  match serve alloc (complete memory) (.proceed (.ofNat chunk.length)) s.ctx s.store s.registry with
  | none => none
  | some o => some (o.reply, { memory, ctx := o.ctx, store := o.store, registry := o.registry })

/-- Chunks one after the other, with the replies. -/
def Transfer.receiveAll (s : Transfer) : List (List UInt8) → Option (List Reply × Transfer)
  | [] => some ([], s)
  | chunk :: chunks => match s.receive alloc complete chunk with
    | none => none
    | some (reply, s) => match s.receiveAll chunks with
      | none => none
      | some (replies, s) => some (reply :: replies, s)

end

/-- The fields of the context when so many bytes of `n` have been received at
`base`; addresses are modulo the address space. -/
structure Counts (base : Nat) (n : UInt32) (received : Nat) (ctx : CommandContext) : Prop where
  buffer : ctx.buffer % 2 ^ 32 = (base + received) % 2 ^ 32
  bufferSize : ctx.bufferSize.toNat + received = n.toNat
  bytesRemaining : ctx.bytesRemaining.toNat + received = n.toNat

/-- The record that a `load` leaves for the completion. -/
def receiveContext (base : Nat) (n : UInt32) : ReceiveImageDataContext where
  dxtMain := 0
  imageBase := base
  rawImageSize := n
  numTlsCallbacks := 0
  tlsCallbacks := 0
  relocationNeeded := true

/-- Between two calls: the counts, the bytes received so far in memory, and
the rest as the `load` left it. -/
structure Receiving (memory : Bytes) (o : Outcome) (base : Nat) (n : UInt32) (received : List UInt8)
    (s : Transfer) : Prop where
  counts : Counts base n received.length s.ctx
  memory : s.memory = place (2 ^ 32) memory base received
  handler : s.ctx.handler = some .receiveImageData
  userData : s.ctx.userData = .contextStore
  store : s.store = o.store
  registry : s.registry = o.registry

variable {alloc : Ledger → Nat → Nat} {complete : Completion} {command : Chars} {ctx : CommandContext}
  {store : ContextStore} {registry : ModuleRegistry} {o : Outcome} {memory : Bytes} {base : Nat} {n : UInt32}
  {received chunk : List UInt8} {s : Transfer}

/-! ## The command -/

/-- What an accepted `load` leaves. -/
theorem handleDynamicLoad_accepted (loaded : handleDynamicLoad alloc command ctx store registry = some o)
    (accepted : o.reply.code = xboxSSendBinary) :
    ∃ n r base, requestedSize alloc command registry.calls = some n ∧
      cpParseCommandParameters .target alloc (some command) (some {}) registry.calls = .ok r ∧ base ≠ 0 ∧ o =
      { reply := .silent xboxSSendBinary
        ctx :=
          { ctx with
            buffer := base
            bufferSize := n
            userData := .contextStore
            bytesRemaining := n
            handler := some .receiveImageData }
        store := .setReceive (receiveContext base n)
        registry :=
          { registry with calls := .alloc n.toNat base :: (cpDelete (r.result.getD {}) r.calls).2 } } := by
  have opened : opens o.reply.code = true := by rw [accepted]; exact opens_sendBinary
  cases handleDynamicLoad_ends alloc command ctx registry with
  | overread calls parsed ends => cases (ends store).symm.trans loaded
  | malformed r parsed negative ends =>
    cases (ends store).symm.trans loaded
    exact absurd opened (by simp [Reply.code, not_opens_cpPrintError])
  | unsized r size parsed nonnegative missing ends =>
    cases (ends store).symm.trans loaded
    cases opened
  | starved r size parsed nonnegative found ends =>
    cases (ends store).symm.trans loaded
    cases opened
  | accepted r size base parsed nonnegative found some_ ends =>
    cases (ends store).symm.trans loaded
    refine ⟨size, r, base, ?_, parsed, some_, rfl⟩
    unfold requestedSize
    rw [parsed]
    dsimp only
    rw [if_neg nonnegative, found]

/-! ## One call -/

/-- The context after a call has taken its bytes. -/
def CommandContext.take (ctx : CommandContext) (size : UInt32) : CommandContext :=
  { ctx with
    dataSize := size
    buffer := (ctx.buffer + size.toNat) % 2 ^ 32
    bufferSize := ctx.bufferSize - size
    bytesRemaining := ctx.bytesRemaining - size }

/-- What a call of `ReceiveImageData` does: it refuses at once, takes its bytes
or completes the image. -/
inductive Receives (alloc : Ledger → Nat → Nat) (size : UInt32) (ctx : CommandContext) (store : ContextStore)
    (registry : ModuleRegistry) : Prop where
  | empty (none : size = 0) (called : ∀ complete, serve alloc complete (.proceed size) ctx store registry =
      some { reply := .silent xboxEUnexpected, ctx := { ctx with dataSize := size }, store, registry })
  | more (some_ : size ≠ 0) (remaining : (ctx.take size).bytesRemaining ≠ 0)
      (called : ∀ complete, serve alloc complete (.proceed size) ctx store registry =
        some { reply := .silent xboxSOk, ctx := ctx.take size, store, registry })
  | last (some_ : size ≠ 0) (remaining : (ctx.take size).bytesRemaining = 0)
      (called : ∀ complete, serve alloc complete (.proceed size) ctx store registry =
        some
          { reply := (complete store.receive registry).1
            ctx := ctx.take size
            store
            registry := (complete store.receive registry).2 })

theorem receives (handler : ctx.handler = some .receiveImageData) (userData : ctx.userData = .contextStore)
    (alloc : Ledger → Nat → Nat) (size : UInt32) : Receives alloc size ctx store registry := by
  have served complete : serve alloc complete (.proceed size) ctx store registry =
      receiveImageData complete { ctx with dataSize := size } store registry := by
    unfold serve
    rw [handler]
  by_cases none : size = 0
  · refine .empty none fun complete => ?_
    rw [served]
    exact if_pos none
  · by_cases remaining : (ctx.take size).bytesRemaining = 0
    · refine .last none remaining fun complete => ?_
      rw [served]
      refine (if_neg none).trans ((if_neg (not_not.mpr remaining)).trans ?_)
      exact if_neg (not_not.mpr userData)
    · refine .more none remaining fun complete => ?_
      rw [served]
      exact (if_neg none).trans (if_pos remaining)

/-! ## One chunk -/

/-- The state after a chunk, but for what completing the image does. -/
def Transfer.advance (s : Transfer) (chunk : List UInt8) : Transfer where
  memory := place (2 ^ 32) s.memory s.ctx.buffer chunk
  ctx := s.ctx.take (.ofNat chunk.length)
  store := s.store
  registry := s.registry

theorem dataSize_toNat (fits : chunk.length ≤ n.toNat) : (UInt32.ofNat chunk.length).toNat = chunk.length := by
  have small := n.toNat_lt
  rw [UInt32.toNat_ofNat', Nat.mod_eq_of_lt (by omega)]

theorem dataSize_ne_zero (fits : chunk.length ≤ n.toNat) (some_ : chunk ≠ []) : UInt32.ofNat chunk.length ≠ 0 := by
  intro zero
  have length := dataSize_toNat fits
  rw [zero] at length
  exact some_ (List.length_eq_zero_iff.mp length.symm)

/-- A chunk that fits moves all three fields by its length. -/
theorem Counts.advance {done : Nat} (counts : Counts base n done s.ctx) (chunk : List UInt8)
    (fits : done + chunk.length ≤ n.toNat) : Counts base n (done + chunk.length) (s.advance chunk).ctx := by
  have length := @dataSize_toNat n chunk (by omega)
  have size := counts.bufferSize
  have remaining := counts.bytesRemaining
  constructor
  · show (s.ctx.buffer + (UInt32.ofNat chunk.length).toNat) % 2 ^ 32 % 2 ^ 32 = _
    rw [length, Nat.mod_mod, ← Nat.mod_add_mod, counts.buffer, Nat.mod_add_mod, Nat.add_assoc]
  · show (s.ctx.bufferSize - .ofNat chunk.length).toNat + _ = _
    rw [UInt32.toNat_sub_of_le _ _ (UInt32.le_iff_toNat_le.mpr (by omega)), length]
    omega
  · show (s.ctx.bytesRemaining - .ofNat chunk.length).toNat + _ = _
    rw [UInt32.toNat_sub_of_le _ _ (UInt32.le_iff_toNat_le.mpr (by omega)), length]
    omega

theorem Receiving.advance (receiving : Receiving memory o base n received s) (chunk : List UInt8)
    (fits : received.length + chunk.length ≤ n.toNat) :
    Receiving memory o base n (received ++ chunk) (s.advance chunk) := by
  have small := n.toNat_lt
  refine ⟨?_, ?_, receiving.handler, receiving.userData, receiving.store, receiving.registry⟩
  · rw [List.length_append]
    exact receiving.counts.advance chunk fits
  · show place (2 ^ 32) s.memory s.ctx.buffer chunk = _
    rw [← place_mod, receiving.counts.buffer, place_mod, receiving.memory, place_append (by omega)]

/-- The bytes that a chunk leaves to be received. -/
theorem Receiving.remaining (receiving : Receiving memory o base n received s) (chunk : List UInt8)
    (fits : received.length + chunk.length ≤ n.toNat) :
    (s.ctx.take (.ofNat chunk.length)).bytesRemaining = 0 ↔ received.length + chunk.length = n.toNat := by
  have left : (s.ctx.take (.ofNat chunk.length)).bytesRemaining.toNat + _ = _ :=
    (receiving.counts.advance chunk fits).bytesRemaining
  have zero : (0 : UInt32).toNat = 0 := rfl
  rw [← UInt32.toNat_inj]
  omega

/-- A chunk that leaves something to receive: nothing is run. -/
theorem Receiving.more (receiving : Receiving memory o base n received s) (some_ : chunk ≠ [])
    (more : received.length + chunk.length < n.toNat) (alloc : Ledger → Nat → Nat) (complete : Completion) :
    s.receive alloc complete chunk = some (.silent xboxSOk, s.advance chunk) := by
  have left := receiving.remaining chunk (by omega)
  unfold Transfer.receive
  cases receives receiving.handler receiving.userData alloc (.ofNat chunk.length) with
  | empty none called => exact absurd none (@dataSize_ne_zero n chunk (by omega) some_)
  | more some_ remaining called =>
    dsimp only
    rw [called]
    rfl
  | last some_ remaining called => exact absurd (left.mp remaining) (by omega)

/-- The last chunk: the image is completed on what was received. -/
theorem Receiving.last (receiving : Receiving memory o base n received s) (some_ : chunk ≠ [])
    (last : received.length + chunk.length = n.toNat) (alloc : Ledger → Nat → Nat) (complete : Completion) :
    s.receive alloc complete chunk =
      let (reply, registry) :=
        complete (place (2 ^ 32) memory base (received ++ chunk)) o.store.receive o.registry
      some (reply, { s.advance chunk with registry }) := by
  have left := receiving.remaining chunk (by omega)
  have placed : place (2 ^ 32) s.memory s.ctx.buffer chunk = _ := (receiving.advance chunk (by omega)).memory
  unfold Transfer.receive
  cases receives receiving.handler receiving.userData alloc (.ofNat chunk.length) with
  | empty none called => exact absurd none (@dataSize_ne_zero n chunk (by omega) some_)
  | more some_ remaining called => exact absurd (left.mpr last) remaining
  | last some_ remaining called =>
    dsimp only
    rw [called, receiving.store, receiving.registry, ← placed]
    unfold Transfer.advance
    rw [receiving.store]

/-! ## Any number of chunks -/

/-- As long as something is left to receive, each chunk is taken and nothing
run. -/
theorem Receiving.run {chunks : List (List UInt8)} (receiving : Receiving memory o base n received s)
    (nonempty : ∀ chunk ∈ chunks, chunk ≠ []) (more : received.length + chunks.flatten.length < n.toNat)
    (alloc : Ledger → Nat → Nat) (complete : Completion) :
    ∃ s', s.receiveAll alloc complete chunks = some (List.replicate chunks.length (.silent xboxSOk), s') ∧
      Receiving memory o base n (received ++ chunks.flatten) s' := by
  induction chunks generalizing received s with
  | nil =>
    refine ⟨s, rfl, ?_⟩
    rwa [List.flatten_nil, List.append_nil]
  | cons chunk chunks ih =>
    rw [List.flatten_cons, List.length_append] at more
    obtain ⟨some_, nonempty⟩ := List.forall_mem_cons.mp nonempty
    have taken := receiving.more some_ (by omega) alloc complete
    have advanced := receiving.advance chunk (by omega)
    obtain ⟨s', rest, receiving'⟩ := ih advanced nonempty (by rw [List.length_append]; omega)
    refine ⟨s', ?_, ?_⟩
    · simp only [Transfer.receiveAll, taken, rest, List.length_cons, List.replicate_succ]
    · rwa [List.flatten_cons, ← List.append_assoc]

theorem receiveAll_snoc {before : List (List UInt8)} {replies : List Reply} {reply : Reply} {s' s'' : Transfer}
    (reached : s.receiveAll alloc complete before = some (replies, s'))
    (call : s'.receive alloc complete chunk = some (reply, s'')) :
    s.receiveAll alloc complete (before ++ [chunk]) = some (replies ++ [reply], s'') := by
  induction before generalizing s replies with
  | nil =>
    cases reached
    simp only [List.nil_append, Transfer.receiveAll, call]
  | cons first before ih =>
    simp only [List.cons_append, Transfer.receiveAll] at reached ⊢
    cases taken : s.receive alloc complete first with
    | none => rw [taken] at reached; cases reached
    | some p =>
      obtain ⟨reply₁, s₁⟩ := p
      rw [taken] at reached
      dsimp only at reached ⊢
      cases rest : s₁.receiveAll alloc complete before with
      | none => rw [rest] at reached; cases reached
      | some q =>
        obtain ⟨replies₁, s₂⟩ := q
        rw [rest] at reached
        cases reached
        rw [ih rest]
        rfl

theorem flatten_some {chunks : List (List UInt8)} (some_ : chunks ≠ []) (nonempty : ∀ chunk ∈ chunks, chunk ≠ []) :
    0 < chunks.flatten.length := by
  obtain ⟨chunk, chunks, rfl⟩ := List.exists_cons_of_ne_nil some_
  have first := List.length_pos_iff.mpr (nonempty chunk List.mem_cons_self)
  rw [List.flatten_cons, List.length_append]
  omega

/-- An accepted `load` is ready for its first chunk. -/
theorem receiving_begin (memory : Bytes) (asked : requestedSize alloc command registry.calls = some n)
    (loaded : handleDynamicLoad alloc command ctx store registry = some o)
    (accepted : o.reply.code = xboxSSendBinary) :
    ∃ base calls, base ≠ 0 ∧ o.registry.calls = .alloc n.toNat base :: calls ∧
      o.store.receive = receiveContext base n ∧ Receiving memory o base n [] (.begin memory o) := by
  obtain ⟨n', r, base, asked', -, some_, rfl⟩ := handleDynamicLoad_accepted loaded accepted
  cases asked.symm.trans asked'
  refine ⟨base, _, some_, rfl, rfl, ⟨?_, ?_, ?_⟩, rfl, rfl, rfl, rfl, rfl⟩
  · rfl
  · rfl
  · rfl

/-- What the call for a chunk does, with the chunks before and after it. -/
structure Takes (alloc : Ledger → Nat → Nat) (complete : Completion) (memory : Bytes) (o : Outcome) (base : Nat)
    (n : UInt32) (before : List (List UInt8)) (chunk : List UInt8) (after : List (List UInt8)) (s : Transfer)
    (reply : Reply) (s' : Transfer) : Prop where
  reached : (Transfer.begin memory o).receiveAll alloc complete before =
    some (List.replicate before.length (.silent xboxSOk), s)
  call : s.receive alloc complete chunk = some (reply, s')
  room : chunk.length ≤ s.ctx.bufferSize.toNat
  counts : Counts base n before.flatten.length s.ctx
  counts' : Counts base n (before.flatten.length + chunk.length) s'.ctx
  store : s'.store = o.store
  registry : s.registry = o.registry
  /-- A call that is not the last runs nothing: it does the same whatever
  `ReceiveImageDataComplete` would. -/
  waits : after ≠ [] → reply = .silent xboxSOk ∧ s'.registry = o.registry ∧
    ∀ other, s.receive alloc other chunk = some (reply, s')
  /-- The last one completes the image, from the `load`'s record. -/
  completes : after = [] →
    (reply, s'.registry) = complete s'.memory (receiveContext base n) o.registry

theorem Receiving.takes {before after : List (List UInt8)}
    (receiving : Receiving memory o base n [] (.begin memory o)) (record : o.store.receive = receiveContext base n)
    (nonempty : ∀ c ∈ before ++ chunk :: after, c ≠ [])
    (size : (before ++ chunk :: after).flatten.length = n.toNat) (alloc : Ledger → Nat → Nat)
    (complete : Completion) :
    ∃ s reply s', Takes alloc complete memory o base n before chunk after s reply s' ∧
      s'.memory = place (2 ^ 32) memory base (before.flatten ++ chunk) := by
  obtain ⟨befores, some_, afters⟩ : (∀ c ∈ before, c ≠ []) ∧ chunk ≠ [] ∧ ∀ c ∈ after, c ≠ [] := by
    simpa only [List.forall_mem_append, List.forall_mem_cons] using nonempty
  have positive := List.length_pos_iff.mpr some_
  rw [List.flatten_append, List.flatten_cons, List.length_append, List.length_append] at size
  obtain ⟨s, reached, found⟩ := receiving.run befores (by simp only [List.length_nil]; omega) alloc complete
  rw [List.nil_append] at found
  have left := found.advance chunk (by omega)
  have counts := left.counts
  have free := found.counts.bufferSize
  rw [List.length_append] at counts
  by_cases last : after = []
  · subst last
    have call := found.last some_ (by rw [List.flatten_nil, List.length_nil] at size; omega) alloc complete
    refine ⟨s, _, _, ⟨reached, call, by omega, found.counts, counts, left.store, found.registry, ?_, ?_⟩, left.memory⟩
    · intro more
      exact absurd rfl more
    · intro _
      rw [← record, ← left.memory]
  · have more := flatten_some last afters
    have call := found.more some_ (by omega) alloc
    refine ⟨s, _, _, ⟨reached, call complete, by omega, found.counts, counts, left.store, found.registry, ?_, ?_⟩,
      left.memory⟩
    · intro _
      exact ⟨rfl, left.registry, call⟩
    · intro none
      exact absurd none last

/-- However an image is cut into chunks, each call finds and leaves the counts
of what was received, every call but the last takes its bytes and runs
nothing, and the last one completes the image, on a memory that is the same for
every way to cut it: the one before with the image at its base. -/
theorem image_transfer (alloc : Ledger → Nat → Nat) (complete : Completion) (command : Chars)
    (ctx : CommandContext) (store : ContextStore) (registry : ModuleRegistry) (o : Outcome) (n : UInt32)
    (memory : Bytes) (image : List UInt8) (chunks : List (List UInt8))
    (asked : requestedSize alloc command registry.calls = some n)
    (loaded : handleDynamicLoad alloc command ctx store registry = some o)
    (accepted : o.reply.code = xboxSSendBinary) (size : image.length = n.toNat) (positive : 1 ≤ n)
    (cut : chunks.flatten = image) (nonempty : ∀ chunk ∈ chunks, chunk ≠ []) :
    ∃ base calls, base ≠ 0 ∧ o.registry.calls = .alloc n.toNat base :: calls ∧
      (∀ before chunk after, chunks = before ++ chunk :: after →
        ∃ s reply s', Takes alloc complete memory o base n before chunk after s reply s') ∧
      ∃ reply final, (Transfer.begin memory o).receiveAll alloc complete chunks =
          some (List.replicate (chunks.length - 1) (.silent xboxSOk) ++ [reply], final) ∧
        final.memory = place (2 ^ 32) memory base image ∧
        (∀ i (lt : i < image.length), final.memory ((base + i) % 2 ^ 32) = image[i]) ∧
        (reply, final.registry) = complete final.memory (receiveContext base n) o.registry := by
  obtain ⟨base, calls, some_, allocated, record, receiving⟩ := receiving_begin memory asked loaded accepted
  have whole : chunks.flatten.length = n.toNat := by rw [cut, size]
  refine ⟨base, calls, some_, allocated, ?_, ?_⟩
  · rintro before chunk after rfl
    obtain ⟨s, reply, s', takes, -⟩ := receiving.takes record nonempty whole alloc complete
    exact ⟨s, reply, s', takes⟩
  · rcases List.eq_nil_or_concat' chunks with rfl | ⟨before, chunk, rfl⟩
    · have positive := UInt32.le_iff_toNat_le.mp positive
      have one : (1 : UInt32).toNat = 1 := rfl
      rw [List.flatten_nil, List.length_nil] at whole
      omega
    · obtain ⟨s, reply, final, takes, memory'⟩ := receiving.takes record nonempty whole alloc complete
      have image' : before.flatten ++ chunk = image := by
        rw [← cut, List.flatten_append, List.flatten_singleton]
      rw [image'] at memory'
      refine ⟨reply, final, ?_, memory', fun i lt => ?_, takes.completes rfl⟩
      · rw [List.length_append, List.length_singleton, Nat.add_sub_cancel]
        exact receiveAll_snoc takes.reached takes.call
      · have small := n.toNat_lt
        rw [memory']
        exact place_get (by omega) lt

/-- ` size=4` -/
def sizeFour : Chars := [32, 115, 105, 122, 101, 61, 52]

theorem threeChunks_transfer : ∃ o base final, handleDynamicLoad bump sizeFour {} {} {} = some o ∧ base ≠ 0 ∧
    (Transfer.begin (fun _ => 0) o).receiveAll bump (fun _ => done) [[1], [2, 3], [4]] =
      some ([.silent xboxSOk, .silent xboxSOk, .silent xboxSOk], final) ∧
    final.memory = place (2 ^ 32) (fun _ => 0) base [1, 2, 3, 4] := by
  have code : (handleDynamicLoad bump sizeFour {} {} {}).map (·.reply.code) = some xboxSSendBinary := by
    decide +kernel
  cases loaded : handleDynamicLoad bump sizeFour {} {} {} with
  | none => rw [loaded] at code; cases code
  | some o =>
    rw [loaded] at code
    obtain ⟨base, calls, some_, -, -, reply, final, received, memory, -, completed⟩ :=
      image_transfer bump (fun _ => done) sizeFour {} {} {} o 4 (fun _ => 0) [1, 2, 3, 4] [[1], [2, 3], [4]]
        (by decide +kernel) loaded (Option.some.inj code) rfl (by decide) rfl (by decide)
    have replied : reply = .silent xboxSOk := congrArg Prod.fst completed
    rw [replied] at received
    exact ⟨o, base, final, rfl, some_, received, memory⟩

end Dyndxt.Session
