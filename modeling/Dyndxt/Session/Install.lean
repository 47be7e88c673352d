import Dyndxt.Session.Service

/-!
# Installing an image

An `install` is accepted exactly for an image that lies in the address space
with its entry point inside. However it is then sent, its bytes go where the
client said and nowhere else, and once they are all there its entry point is
called.
-/

namespace Dyndxt.Session
open Dyndxt.Mem Dyndxt.Pool Dyndxt.Params Dyndxt.Registry Dyndxt.Loader Dyndxt.Run

/-- The parameters of an `install`. -/
structure InstallRequest where
  base : UInt32
  length : UInt32
  dxtMain : UInt32
deriving DecidableEq, Repr

/-- The image ends before the last address, and the entry point is in it. -/
structure InstallRequest.Fits (request : InstallRequest) : Prop where
  base : 0 < request.base.toNat
  space : request.base.toNat + request.length.toNat < 2 ^ 32
  above : request.base.toNat ≤ request.dxtMain.toNat
  below : request.dxtMain.toNat < request.base.toNat + request.length.toNat

/-- What the lookups find. -/
def installRequest (base length dxtMain : Bool × UInt32) : Option InstallRequest :=
  if base.1 ∧ length.1 ∧ dxtMain.1 then some ⟨base.2, length.2, dxtMain.2⟩ else none

/-- What a string on its own asks to install. -/
def requestedInstall (params : Chars) : Option InstallRequest :=
  (readParameters params).bind fun cp => installRequest (cpGetUInt32 32 (ascii "base") cp)
    (cpGetUInt32 32 (ascii "length") cp) (cpGetUInt32 32 (ascii "entrypoint") cp)

/-- The state of an accepted `install`. -/
structure InstallBegun (request : InstallRequest) (ctx : CommandContext) (o : Outcome) : Prop where
  reply : o.reply = .silent xboxSSendBinary
  ctx : o.ctx =
    { ctx with
      buffer := request.base.toNat
      bufferSize := request.length
      userData := .contextStore
      bytesRemaining := request.length
      handler := some .receiveImageData }
  store : o.store = .setReceive (installContext request.base request.length request.dxtMain)

/-- The keys that are looked up. -/
def installKeys : List Chars := [ascii "base", ascii "length", ascii "entrypoint"]

/-- `"ddxt!install "` -/
def installPrefix : Chars := [0x64, 0x64, 0x78, 0x74, 0x21, 0x69, 0x6E, 0x73, 0x74, 0x61, 0x6C, 0x6C, 0x20]

/-- `"stall"` -/
def installKey : Chars := [0x73, 0x74, 0x61, 0x6C, 0x6C]

variable {alloc : Ledger → Nat → Nat} {request : InstallRequest} {base length dxtMain : Bool × UInt32}
  {ctx : CommandContext} {store : ContextStore} {registry : ModuleRegistry} {rest : List Nat} {p : Chars}
  {cp cp' : CommandParameters} {o : Outcome} {memory : Bytes}

/-! ## The checks -/

/-- The checks pass for an image that fits; one whose end is past the last
address has its end wrap around to below its base. -/
theorem installError_none : installError base length dxtMain = none ↔
    ∃ request, installRequest base length dxtMain = some request ∧ request.Fits := by
  obtain ⟨baseFound, base⟩ := base
  obtain ⟨lengthFound, length⟩ := length
  obtain ⟨mainFound, dxtMain⟩ := dxtMain
  have baseLt := base.toNat_lt
  have lengthLt := length.toNat_lt
  have sum : (base + length).toNat = (base.toNat + length.toNat) % 2 ^ 32 := UInt32.toNat_add base length
  unfold installError installRequest
  constructor
  · intro accepted
    dsimp only at accepted
    split_ifs at accepted with noBase noLength noMain zero empty below above
    rw [Bool.not_eq_false] at noBase noLength noMain
    rw [← UInt32.toNat_inj] at zero empty
    rw [UInt32.lt_iff_toNat_lt] at below
    rw [ge_iff_le, UInt32.le_iff_toNat_le, sum] at above
    have zero' : (0 : UInt32).toNat = 0 := rfl
    refine ⟨_, if_pos ⟨noBase, noLength, noMain⟩, ?_, ?_, ?_, ?_⟩ <;> dsimp only <;> omega
  · rintro ⟨request, asked, fits⟩
    dsimp only at asked ⊢
    split_ifs at asked with found
    cases asked
    obtain ⟨rfl, rfl, rfl⟩ := found
    obtain ⟨positive, space, above, below⟩ := fits
    dsimp only at positive space above below
    have zero' : (0 : UInt32).toNat = 0 := rfl
    have sum' : (base + length).toNat = base.toNat + length.toNat := by rw [sum, Nat.mod_eq_of_lt space]
    rw [if_neg Bool.true_eq_false.mp, if_neg Bool.true_eq_false.mp, if_neg Bool.true_eq_false.mp, if_neg, if_neg, if_neg,
      if_neg]
    · rw [ge_iff_le, UInt32.le_iff_toNat_le]
      omega
    · rw [UInt32.lt_iff_toNat_lt]
      omega
    · rw [← UInt32.toNat_inj]
      omega
    · rw [← UInt32.toNat_inj]
      omega

/-! ## The command -/

theorem processCommandFull_install : processCommandFull alloc (installPrefix ++ p) ctx store registry =
    handleInstall alloc (installKey ++ space :: p) ctx store registry := rfl

theorem isKey_installKey : IsKey installKey := by
  refine ⟨by decide, ?_⟩
  simp only [installKey, List.mem_cons, List.not_mem_nil, or_false, forall_eq_or_imp, forall_eq]
  decide

theorem installKeys_other : ∀ k ∈ installKeys, k ≠ installKey := by decide +kernel

theorem requestedInstall_read {es : List Entry} (parses : Parses p (.ok es))
    (read : ∀ k, k ≠ installKey → cpGetString k cp = firstBinding k es) :
    requestedInstall p = installRequest (cpGetUInt32 32 (ascii "base") cp) (cpGetUInt32 32 (ascii "length") cp)
      (cpGetUInt32 32 (ascii "entrypoint") cp) := by
  obtain ⟨cp', found, read'⟩ := readParameters_ok parses
  have same (k : Chars) (listed : k ∈ installKeys) : cpGetUInt32 32 k cp' = cpGetUInt32 32 k cp :=
    cpGetUInt32_congr ((read' k).trans (read k (installKeys_other k listed)).symm)
  rw [requestedInstall, found, Option.bind_some, same _ (by simp [installKeys]), same _ (by simp [installKeys]),
    same _ (by simp [installKeys])]

/-- How an `install` ends: it begins the transfer that `p` asks for, or returns
an error. -/
inductive InstallEnds (alloc : Ledger → Nat → Nat) (p : Chars) (ctx : CommandContext) (store : ContextStore)
    (registry : ModuleRegistry) (o : Outcome) : Prop where
  | begun (request : InstallRequest) : requestedInstall p = some request → request.Fits → InstallBegun request ctx o →
      Served registry.calls o.registry.calls → InstallEnds alloc p ctx store registry o
  | refused : IsError o.reply.code → o.ctx = ctx → o.store = store →
      (∀ request, requestedInstall p = some request → request.Fits → Denied alloc registry.calls o.registry.calls) →
      InstallEnds alloc p ctx store registry o

theorem handleInstall_ends (alloc : Ledger → Nat → Nat) (ctx : CommandContext) (store : ContextStore)
    {out : Except PcpErr (List Entry)} (parses : Parses p out) (held : Held rest registry.calls) :
    ∃ o, handleInstall alloc (installKey ++ space :: p) ctx store registry = some o ∧
      o.registry.exportTable = registry.exportTable ∧ Held rest o.registry.calls ∧
      InstallEnds alloc p ctx store registry o := by
  obtain ⟨r, returned, parsed⟩ := parsedBehind alloc isKey_installKey parses held
  unfold handleInstall
  rw [returned]
  dsimp only
  cases parsed with
  | refused negative held cause =>
    rw [if_pos negative]
    refine ⟨_, rfl, rfl, held, .refused (isError_cpPrintError r.ret) rfl rfl fun request asked _ => ?_⟩
    rcases cause with ⟨e, reading⟩ | denied
    · subst reading
      rw [requestedInstall, readParameters_error parses] at asked
      cases asked
    · exact denied
  | read nonnegative es reading owned served same =>
    subst reading
    rw [if_neg nonnegative]
    have asked := requestedInstall_read parses same
    have deleted := owned.delete
    have served := served.trans (@served_cpDelete _ (r.result.getD {}))
    generalize (cpDelete (r.result.getD {}) r.calls).2 = calls at deleted served
    cases checked : installError (cpGetUInt32 32 (ascii "base") (r.result.getD {}))
        (cpGetUInt32 32 (ascii "length") (r.result.getD {})) (cpGetUInt32 32 (ascii "entrypoint") (r.result.getD {})) with
    | some message =>
      refine ⟨_, rfl, rfl, deleted, .refused isError_fail rfl rfl fun request asked' fits => ?_⟩
      have accepted := installError_none.mpr ⟨request, asked.symm.trans asked', fits⟩
      rw [checked] at accepted
      cases accepted
    | none =>
      obtain ⟨request, found, fits⟩ := installError_none.mp checked
      refine ⟨_, rfl, rfl, deleted, .begun request (asked.trans found) fits ?_ served⟩
      unfold installRequest at found
      split_ifs at found
      cases found
      exact ⟨rfl, rfl, rfl⟩

/-- `ddxt!install p` asks for binary data exactly when `p` gives an image that
fits and no allocation of the command fails, and then begins its transfer to
the base that `p` gives. Otherwise it returns an error and changes nothing.
Either way it frees what it allocated. -/
theorem processCommand_install (alloc : Ledger → Nat → Nat) (p : Chars) (ctx : CommandContext) (store : ContextStore)
    (registry : ModuleRegistry) (rest : List Nat) (whole : ¬ CutOff p) (held : Held rest registry.calls) :
    ∃ o, processCommandFull alloc (installPrefix ++ p) ctx store registry = some o ∧
      (o.reply.code = xboxSSendBinary ↔ (∃ request, requestedInstall p = some request ∧ request.Fits) ∧
        ¬ Denied alloc registry.calls o.registry.calls) ∧
      (∀ request, requestedInstall p = some request → o.reply.code = xboxSSendBinary → InstallBegun request ctx o) ∧
      (o.reply.code ≠ xboxSSendBinary → IsError o.reply.code ∧ o.ctx = ctx ∧ o.store = store) ∧
      o.registry.exportTable = registry.exportTable ∧ Held rest o.registry.calls := by
  obtain ⟨out, parses⟩ := (parses_or_cutOff p).resolve_right whole
  obtain ⟨o, handled, tables, held', ends⟩ := handleInstall_ends alloc ctx store parses held
  refine ⟨o, processCommandFull_install.trans handled, ?_⟩
  cases ends with
  | begun request asked fits begun served =>
    have code : o.reply.code = xboxSSendBinary := by rw [begun.reply]; rfl
    refine ⟨iff_of_true code ⟨⟨request, asked, fits⟩, served.not_denied⟩, fun request' asked' _ => ?_,
      fun other => absurd code other, tables, held'⟩
    cases asked.symm.trans asked'
    exact begun
  | refused error ctx store denied =>
    have other := isError_ne error
    refine ⟨iff_of_false other ?_, fun _ _ code => absurd code other, fun _ => ⟨error, ctx, store⟩, tables, held'⟩
    rintro ⟨⟨request, asked, fits⟩, granted⟩
    exact granted (denied request asked fits)

/-! ## The transfer -/

/-- A connection's side of the service. -/
def Service.transfer {Conn : Type} (s : Service Conn) (c : Conn) : Transfer where
  memory := s.memory
  ctx := s.ctx c
  store := s.store
  registry := s.hosted.registry

section

variable {Conn : Type} [DecidableEq Conn] {s s' : Service Conn} {c : Conn} (code : LoadedCode) (responseLen : UInt32)
  (budget : Nat) (stale : Ledger → Bytes) {target : Nat} {n : UInt32} {received chunk : List UInt8}
  {completed : Completed}

theorem exec_data (alloc : Ledger → Nat → Nat) (busy : s.unfinished c = true) (handler : (s.ctx c).handler = some .receiveImageData) :
    s.exec alloc code responseLen budget stale (c, .data chunk) = s.receive alloc code responseLen budget stale c chunk :=
  if_neg (by simp [busy, handler])

/-- A chunk that leaves something to receive runs nothing. -/
theorem data_more (alloc : Ledger → Nat → Nat) (receiving : Receiving memory o target n received (s.transfer c)) (busy : s.unfinished c = true)
    (some_ : chunk ≠ []) (more : received.length + chunk.length < n.toNat) :
    ∃ s', s.exec alloc code responseLen budget stale (c, .data chunk) = some s' ∧
      Receiving memory o target n (received ++ chunk) (s'.transfer c) ∧ s'.hosted = s.hosted ∧ s'.given = s.given ∧
      s'.unfinished c = true := by
  have size := @dataSize_ne_zero n chunk (by omega) some_
  have left := receiving.remaining chunk (by omega)
  have remaining : ((s.ctx c).take (.ofNat chunk.length)).bytesRemaining ≠ 0 := fun zero => by
    have last := left.mp zero
    omega
  have handler : (s.ctx c).handler = some .receiveImageData := receiving.handler
  have advanced := receiving.advance chunk (by omega)
  rw [exec_data code responseLen budget stale alloc busy handler, Service.receive]
  dsimp only
  rw [if_neg (by simp [remaining]), serve_more handler size remaining]
  refine ⟨_, rfl, ?_, rfl, rfl, ?_⟩
  · show Receiving memory o target n (received ++ chunk)
      { memory := place (2 ^ 32) s.memory (s.ctx c).buffer chunk
        ctx := Function.update s.ctx c ((s.ctx c).take (.ofNat chunk.length)) c
        store := s.store
        registry := s.hosted.registry }
    rw [Function.update_self]
    exact advanced
  · dsimp only [after_unfinished]
    rw [Function.update_self]
    unfold goesOn
    dsimp only
    rw [show ((s.ctx c).take (.ofNat chunk.length)).handler = some .receiveImageData from handler]
    exact decide_eq_true ⟨rfl, remaining⟩

/-- The last chunk completes the image. -/
theorem data_last (alloc : Ledger → Nat → Nat) (receiving : Receiving memory o target n received (s.transfer c)) (busy : s.unfinished c = true)
    (some_ : chunk ≠ []) (last : received.length + chunk.length = n.toNat)
    (run : receiveImageDataComplete alloc code.run responseLen budget (stale s.hosted.registry.calls)
      (place (2 ^ 32) memory target (received ++ chunk)) o.store.receive s.hosted = some completed) :
    ∃ s', s.exec alloc code responseLen budget stale (c, .data chunk) = some s' ∧
      s'.memory = place (2 ^ 32) memory target (received ++ chunk) ∧ s'.hosted = completed.hosted ∧
      s'.given = completed.keeps o.store.receive.relocationNeeded ++ s.given ∧ s'.unfinished c = false := by
  have size := @dataSize_ne_zero n chunk (by omega) some_
  have remaining := (receiving.remaining chunk (by omega)).mpr last
  have handler : (s.ctx c).handler = some .receiveImageData := receiving.handler
  have store : s.store = o.store := receiving.store
  have placed : place (2 ^ 32) s.memory (s.ctx c).buffer chunk = _ := (receiving.advance chunk (by omega)).memory
  rw [exec_data code responseLen budget stale alloc busy handler, Service.receive]
  dsimp only
  rw [if_pos (decide_eq_true ⟨size, remaining⟩), placed, store, run]
  dsimp only
  have ends : Receives alloc (.ofNat chunk.length) (s.ctx c) o.store s.hosted.registry :=
    receives handler receiving.userData alloc _
  cases ends with
  | empty none called => exact absurd none size
  | more some_ more called => exact absurd remaining more
  | last some_ remaining called =>
    rw [called]
    refine ⟨_, rfl, rfl, rfl, rfl, ?_⟩
    dsimp only [after_unfinished]
    rw [Function.update_self]

/-- As long as something is left to receive, nothing runs. -/
theorem data_run (alloc : Ledger → Nat → Nat) {chunks : List (List UInt8)} (receiving : Receiving memory o target n received (s.transfer c))
    (busy : s.unfinished c = true) (nonempty : ∀ chunk ∈ chunks, chunk ≠ [])
    (more : received.length + chunks.flatten.length < n.toNat) :
    ∃ s', (chunks.map fun chunk => (c, Request.data chunk)).foldlM (Service.exec alloc code responseLen budget stale) s =
        some s' ∧ Receiving memory o target n (received ++ chunks.flatten) (s'.transfer c) ∧ s'.hosted = s.hosted ∧
      s'.given = s.given ∧ s'.unfinished c = true := by
  induction chunks generalizing received s with
  | nil =>
    refine ⟨s, rfl, ?_, rfl, rfl, busy⟩
    rwa [List.flatten_nil, List.append_nil]
  | cons chunk chunks ih =>
    rw [List.flatten_cons, List.length_append] at more
    obtain ⟨some_, nonempty⟩ := List.forall_mem_cons.mp nonempty
    obtain ⟨s₁, taken, receiving₁, hosted₁, given₁, busy₁⟩ := data_more code responseLen budget stale alloc receiving
      busy some_ (by omega)
    obtain ⟨s₂, rest, receiving₂, hosted₂, given₂, busy₂⟩ := ih receiving₁ busy₁ nonempty
      (by rw [List.length_append]; omega)
    refine ⟨s₂, ?_, ?_, hosted₂.trans hosted₁, given₂.trans given₁, busy₂⟩
    · rw [List.map_cons, List.foldlM_cons, taken]
      exact rest
    · rwa [List.flatten_cons, ← List.append_assoc]

/-- However an image is cut up, nothing runs before its last chunk, and that
one completes it. -/
theorem sent_runs (alloc : Ledger → Nat → Nat) {chunks : List (List UInt8)}
    (receiving : Receiving memory o target n [] (s.transfer c)) (busy : s.unfinished c = true)
    (nonempty : ∀ chunk ∈ chunks, chunk ≠ []) (length : chunks.flatten.length = n.toNat) (positive : 0 < n.toNat)
    (run : receiveImageDataComplete alloc code.run responseLen budget (stale s.hosted.registry.calls)
      (place (2 ^ 32) memory target chunks.flatten) o.store.receive s.hosted = some completed) :
    (∀ before after, chunks = before ++ after → after ≠ [] → ∃ s',
      (before.map fun chunk => (c, Request.data chunk)).foldlM (Service.exec alloc code responseLen budget stale) s =
        some s' ∧ s'.hosted = s.hosted ∧ s'.unfinished c = true) ∧
    ∃ final, (chunks.map fun chunk => (c, Request.data chunk)).foldlM (Service.exec alloc code responseLen budget stale) s =
        some final ∧ final.memory = place (2 ^ 32) memory target chunks.flatten ∧ final.hosted = completed.hosted ∧
      final.given = completed.keeps o.store.receive.relocationNeeded ++ s.given ∧ final.unfinished c = false := by
  constructor
  · intro before after split more
    subst split
    obtain ⟨befores, afters⟩ := List.forall_mem_append.mp nonempty
    have left := flatten_some more afters
    rw [List.flatten_append, List.length_append] at length
    obtain ⟨s', run, -, hosted, -, busy'⟩ := data_run code responseLen budget stale alloc receiving busy befores
      (by rw [List.length_nil]; omega)
    exact ⟨s', run, hosted, busy'⟩
  · rcases List.eq_nil_or_concat' chunks with rfl | ⟨before, last, rfl⟩
    · rw [List.flatten_nil, List.length_nil] at length
      omega
    · obtain ⟨befores, lasts⟩ := List.forall_mem_append.mp nonempty
      have some_ := lasts last List.mem_cons_self
      have more := List.length_pos_iff.mpr some_
      rw [List.flatten_append, List.flatten_singleton] at length run ⊢
      rw [List.length_append] at length
      obtain ⟨s', ran, receiving', hosted, given, busy'⟩ := data_run code responseLen budget stale alloc receiving
        busy befores (by rw [List.length_nil]; omega)
      rw [List.nil_append] at receiving'
      rw [← hosted] at run
      obtain ⟨final, taken, memory, final_, given', idle⟩ := data_last code responseLen budget stale alloc receiving'
        busy' some_ length run
      refine ⟨final, ?_, memory, final_, by rw [given', given], idle⟩
      rw [List.map_append, List.foldlM_append, ran]
      show List.foldlM _ s' [(c, Request.data last)] = some final
      rw [List.foldlM_cons, taken]
      rfl

/-- An accepted `install` is ready for its first chunk. -/
theorem receiving_install {goes : Bool} (begun : InstallBegun request (s.ctx c) o) :
    Receiving s.memory o request.base.toNat request.length [] ((s.after c o goes).transfer c) := by
  have ctx : ((s.after c o goes).transfer c).ctx = o.ctx := by
    show Function.update s.ctx c o.ctx c = o.ctx
    rw [Function.update_self]
  refine ⟨⟨?_, ?_, ?_⟩, rfl, ?_, ?_, rfl, rfl⟩ <;> rw [ctx, begun.ctx] <;> rfl

/-- An accepted `install` whose image is then sent in any number of chunks:
nothing is run before the last one, and then the entry point is called once,
with the image where the client said and every other byte as it was. -/
theorem install_runs (alloc : Ledger → Nat → Nat) (code : LoadedCode) (responseLen : UInt32) (budget : Nat)
    (stale : Ledger → Bytes) (s : Service Conn) (c : Conn) (p : Chars) (rest : List Nat) (request : InstallRequest)
    (image : List UInt8) (chunks : List (List UInt8)) (o : Outcome) (whole : ¬ CutOff p)
    (held : Held rest s.hosted.registry.calls) (asked : requestedInstall p = some request)
    (processed : processCommandFull alloc (installPrefix ++ p) (s.ctx c) s.store s.hosted.registry = some o)
    (accepted : o.reply.code = xboxSSendBinary) (size : image.length = request.length.toNat)
    (cut : chunks.flatten = image) (nonempty : ∀ chunk ∈ chunks, chunk ≠ []) :
    ∃ begun, s.exec alloc code responseLen budget stale (c, .command (installPrefix ++ p)) = some begun ∧
      (∀ before after, chunks = before ++ after → after ≠ [] → ∃ s',
        (before.map fun chunk => (c, Request.data chunk)).foldlM (Service.exec alloc code responseLen budget stale)
          begun = some s' ∧ s'.hosted = begun.hosted ∧ s'.unfinished c = true) ∧
      ∃ final, (chunks.map fun chunk => (c, Request.data chunk)).foldlM
          (Service.exec alloc code responseLen budget stale) begun = some final ∧
        final.hosted = code.run request.dxtMain.toNat begun.hosted ∧ final.given = s.given ∧
        final.unfinished c = false ∧
        ∀ a < 2 ^ 32, final.memory a = if request.base.toNat ≤ a ∧ a < request.base.toNat + request.length.toNat then
          image.getD (a - request.base.toNat) 0 else s.memory a := by
  obtain ⟨o', processed', asks, begins, -, tables, -⟩ :=
    processCommand_install alloc p (s.ctx c) s.store s.hosted.registry rest whole held
  cases processed.symm.trans processed'
  obtain ⟨⟨request', asked', fits⟩, -⟩ := asks.mp accepted
  cases asked.symm.trans asked'
  have begun := begins request asked accepted
  have executed : s.exec alloc code responseLen budget stale (c, .command (installPrefix ++ p)) =
      some { s.after c o (opens o.reply.code) with given := o.tells ++ s.given } := by
    dsimp only [Service.exec]
    rw [processed]
  have silent : o.tells = [] := tells_nothing fun text reply => by
    rw [begun.reply] at reply
    cases reply
  rw [silent, List.nil_append] at executed
  generalize started : ({ s.after c o (opens o.reply.code) with given := s.given } : Service Conn) = begun' at executed
  have receiving : Receiving s.memory o request.base.toNat request.length [] (begun'.transfer c) :=
    started ▸ receiving_install begun
  have busy : begun'.unfinished c = true := by
    rw [← started]
    show Function.update s.unfinished c _ c = true
    rw [Function.update_self, accepted]
    rfl
  have given : begun'.given = s.given := by rw [← started]
  have length : chunks.flatten.length = request.length.toNat := by rw [cut, size]
  have record : o.store.receive = installContext request.base request.length request.dxtMain := by
    rw [begun.store]
    rfl
  have relocation : o.store.receive.relocationNeeded = false := by
    rw [record]
    rfl
  have positive := fits.above.trans_lt fits.below
  obtain ⟨waits, final, run, memory, hosted, given', idle⟩ := sent_runs code responseLen budget stale alloc receiving busy
    nonempty length (by omega) (receiveImageDataComplete_installed relocation code.run)
  refine ⟨begun', executed, waits, final, run, ?_, ?_, idle, fun a lt => ?_⟩
  · rw [hosted, record]
    rfl
  · rw [given', given]
    unfold Completed.keeps
    rw [relocation]
    rfl
  · have fits' := fits.space
    rw [memory, cut]
    unfold place
    rw [store_apply _ (by omega) lt, size]

end

/-- `base=16 length=4 entrypoint=18` -/
def fourBytes : Chars :=
  [0x62, 0x61, 0x73, 0x65, 0x3D, 0x31, 0x36, 0x20, 0x6C, 0x65, 0x6E, 0x67, 0x74, 0x68, 0x3D, 0x34, 0x20, 0x65, 0x6E,
    0x74, 0x72, 0x79, 0x70, 0x6F, 0x69, 0x6E, 0x74, 0x3D, 0x31, 0x38]

def fourBytesRequest : InstallRequest where
  base := 16
  length := 4
  dxtMain := 18

theorem fourBytes_whole : ¬ CutOff fourBytes := by
  intro cut
  obtain ⟨calls, overread⟩ := cut.overread .target []
  have read : (parseString .target bump fourBytes []).isOk = true := by decide +kernel
  rw [overread] at read
  cases read

theorem fourBytes_accepted : ∃ o, processCommandFull bump (installPrefix ++ fourBytes) {} {} {} = some o ∧
    InstallBegun fourBytesRequest {} o := by
  have code : (processCommandFull bump (installPrefix ++ fourBytes) {} {} {}).map (·.reply.code) =
      some xboxSSendBinary := by decide +kernel
  have asked : requestedInstall fourBytes = some fourBytesRequest := by decide +kernel
  obtain ⟨o, processed, -, begins, -⟩ := processCommand_install bump fourBytes {} {} {} [] fourBytes_whole
    (held_live clean_nil)
  rw [processed] at code
  exact ⟨o, processed, begins fourBytesRequest asked (Option.some.inj code)⟩

/-- Sent in two chunks, the image is run where it was put. -/
theorem fourBytes_runs : ∃ begun final : Service Bool,
    newService.exec bump registeringCode 256 0 (fun _ _ => 0) (true, .command (installPrefix ++ fourBytes)) = some begun ∧
      final.hosted = registeringCode.run 18 begun.hosted ∧ final.memory 18 = 0xC3 := by
  have asked : requestedInstall fourBytes = some fourBytesRequest := by decide +kernel
  have code : (processCommandFull bump (installPrefix ++ fourBytes) {} {} {}).map (·.reply.code) =
      some xboxSSendBinary := by decide +kernel
  obtain ⟨o, processed, accepted⟩ := Option.map_eq_some_iff.mp code
  obtain ⟨begun, started, -, final, -, hosted, -, -, memory⟩ := install_runs bump registeringCode 256 0 (fun _ _ => 0)
    newService true fourBytes [] fourBytesRequest [0x90, 0x90, 0xC3, 0] [[0x90], [0x90, 0xC3, 0]] o fourBytes_whole
    (held_live clean_nil) asked processed accepted rfl rfl (by decide)
  exact ⟨begun, final, started, hosted, memory 18 (by decide)⟩

end Dyndxt.Session
