import Dyndxt.Loader.Rebase
import Dyndxt.Registry.ByName
import Dyndxt.Session.Install
import Dyndxt.Session.LoadCommand

/-!
# Loading a DLL

A `load` from the command to the DLL's first instruction: however the file is
sent, its imports are what the registry has for them, and its code is called
once, in an image that is the file bound to these and moved to its block. Where
something is missing the client is told what, and nothing is kept.
-/

namespace Dyndxt.Session
open Dyndxt.Mem Dyndxt.Pool Dyndxt.Params Dyndxt.Registry Dyndxt.Loader Dyndxt.Run

/-- The address that is registered for an import. -/
def registered (c : Contents) : Query → Option UInt32
  | .byOrdinal image ordinal => (c.find image ordinal).map ModuleExport.address
  | .byName image name => ((c.exports image).find? fun e => decide (e.IsNamed name)).map ModuleExport.address

/-- The first of the imports that nothing is registered for. -/
def FirstMissing (c : Contents) (ds : List ImportModule) (query : Query) : Prop :=
  ∃ before slot after, importList ds = before ++ (slot, query) :: after ∧
    (∀ e ∈ before, (registered c e.2).isSome) ∧ registered c query = none

/-- A file on its own. -/
def dllFile (file : List UInt8) : DllLoaderInput where
  rawData := 0
  raw i := file.getD i 0
  rawDataSize := .ofNat file.length
  alloc _ _ := 0
  resolveImportByOrdinal _ _ _ := ⟨false, none⟩
  resolveImportByName _ _ _ := ⟨false, none⟩

section

variable (alloc : Ledger → Nat → Nat)

/-- The loader's input once the file was received for an accepted `load`. -/
def Outcome.input (o : Outcome) (memory : Bytes) (file : List UInt8) : DllLoaderInput :=
  dllInput alloc (place (2 ^ 32) memory o.ctx.buffer file) o.store.receive o.registry

/-- How the completion of a load ends. -/
inductive LoadCompletes (code : LoadedCode) (responseLen : UInt32) (budget : Nat) (stale : Bytes) (ds : List ImportModule)
    (blocks : List RelocBlock) (file : List UInt8) (input : DllLoaderInput) (raw : Nat) (s : Hosted) : Completed → Prop where
  /-- The DLL's code is called at its entry point. -/
  | runs {c : DllContext} {slots : List (Nat × UInt32)} {base : UInt32} :
      dllLoad .target input budget { image := stale, calls := s.registry.calls } = .leave (.ok c) →
      base = .ofNat c.output.image →
      List.Forall₂ (fun import_ slot => slot.1 = import_.1 ∧ registered s.registry.contents import_.2 = some slot.2)
        (importList ds) slots →
      (dllFile file).ReferenceImage .target base slots (fixups blocks) stale c.image →
      c.output.entrypoint = (if base = ((dllFile file).peHeader .target).optionalHeader.imageBase then 0
        else base + ((dllFile file).peHeader .target).optionalHeader.addressOfEntryPoint) →
      LoadCompletes code responseLen budget stale ds blocks file input raw s
        { reply := .text xboxSOk (imageText c.output.image c.output.entrypoint.toNat)
          image := c.output.image
          hosted := (code.run c.output.entrypoint.toNat
            { s with registry := { s.registry with calls := .free raw :: c.calls } }).freeContext c true }
  /-- The client is told of the import. -/
  | missing {query : Query} {output : DllLoaderOutput} {calls : Ledger} : FirstMissing s.registry.contents ds query →
      Unresolved .target query output → LoadCompletes code responseLen budget stale ds blocks file input raw s
        { reply := .text xboxEFail (failureText "DLLLoad failed " responseLen output)
          image := 0
          hosted := { s with registry := { s.registry with calls } } }
  | denied {output : DllLoaderOutput} {calls : Ledger} : OutOfMemory .target input s.registry.calls output →
      LoadCompletes code responseLen budget stale ds blocks file input raw s
        { reply := .text xboxEFail (failureText "DLLLoad failed " responseLen output)
          image := 0
          hosted := { s with registry := { s.registry with calls } } }

end

variable {alloc : Ledger → Nat → Nat} {code : LoadedCode} {responseLen : UInt32} {memory stale : Bytes}
  {receiveCtx : ReceiveImageDataContext} {r : ModuleRegistry} {s : Hosted} {o : Outcome} {n : UInt32} {base : Nat}
  {file : List UInt8} {ds : List ImportModule} {blocks : List RelocBlock} {query : Query} {rest : List Nat}
  {imports : List (Nat × Query)} {slots : List (Nat × UInt32)} {asked : List Query}

/-! ## The registry's answers -/

theorem dllInput_answer : (dllInput alloc memory receiveCtx r).answer asked query =
    ⟨(registered r.contents query).isSome, some ((registered r.contents query).getD 0)⟩ := by
  cases query with
  | byOrdinal image ordinal =>
    simp only [DllLoaderInput.answer, dllInput, mrGetMethodByOrdinal_eq, registered]
    cases r.contents.find image ordinal <;> rfl
  | byName image name =>
    simp only [DllLoaderInput.answer, dllInput, mrGetMethodByName_eq, registered]
    cases (r.contents.exports image).find? fun e => decide (e.IsNamed name) <;> rfl

/-- What the loader resolves is what is registered. -/
theorem resolveAll_registered
    (resolved : (dllInput alloc memory receiveCtx r).resolveAll asked imports = some slots) :
    List.Forall₂ (fun import_ slot => slot.1 = import_.1 ∧ registered r.contents import_.2 = some slot.2) imports slots := by
  induction imports generalizing asked slots with
  | nil =>
    cases resolved
    exact .nil
  | cons import_ imports ih =>
    obtain ⟨slot, query⟩ := import_
    obtain ⟨v, slots, answer, more, rfl⟩ := resolveAll_cons resolved
    rw [dllInput_answer] at answer
    refine .cons ⟨rfl, ?_⟩ (ih more)
    cases found : registered r.contents query with
    | none => rw [found] at answer; cases answer
    | some address =>
      rw [found] at answer
      cases answer
      rfl

theorem accepted_registered (accepted : Accepted (dllInput alloc memory receiveCtx r) asked imports slots) :
    ∀ e ∈ imports, (registered r.contents e.2).isSome := by
  induction accepted with
  | nil asked => exact nofun
  | cons found accepted ih =>
    rw [dllInput_answer] at found
    exact List.forall_mem_cons.mpr ⟨found, ih⟩

theorem firstRefused_missing (first : FirstRefused (dllInput alloc memory receiveCtx r) ds query) :
    FirstMissing r.contents ds query := by
  obtain ⟨before, slot, after, slots, whole, accepted, refused⟩ := first
  rw [dllInput_answer] at refused
  exact ⟨before, slot, after, whole, accepted_registered accepted, by simpa using refused⟩

/-! ## The file in memory -/

theorem dllFile_same (size : file.length = n.toNat) (room : base + n.toNat < 2 ^ 32) :
    SameFile ((dllFile file).resolvedBy (dllInput alloc (place (2 ^ 32) memory base file) (receiveContext base n) r))
      (dllInput alloc (place (2 ^ 32) memory base file) (receiveContext base n) r) := by
  have whole : UInt32.ofNat file.length = n := by rw [size, UInt32.ofNat_toNat]
  refine ⟨whole.symm, fun i _ lt => ?_, rfl, rfl⟩
  have lt : i < n.toNat := by rw [← whole]; exact lt
  show place (2 ^ 32) memory base file ((base + i) % 2 ^ 32) = file.getD i 0
  unfold place
  rw [store_apply _ (by omega) (Nat.mod_lt _ (by decide)), Nat.mod_eq_of_lt (by omega), if_pos (by omega),
    Nat.add_sub_cancel_left]

/-! ## The completion -/

/-- An image without a TLS directory has no callbacks to invoke. -/
theorem dllInvokeTlsCallbacks_plain {σ : Type} {b : Build} {call : TlsCall → σ → σ} {c : DllContext}
    (plain : (c.output.header.optionalHeader.dataDirectory imageDirectoryEntryTls).size = 0) (budget : Nat) (t : σ) :
    dllInvokeTlsCallbacks b call budget c t = .leave (.ok (c.setErrorContext .invokeTlsCallbacks), t) :=
  if_pos plain

/-- What is freed does not depend on the error context. -/
theorem freeContext_context {c : DllContext} (context : DllLoaderContext) :
    s.freeContext (c.setErrorContext context) true = s.freeContext c true := by
  unfold Hosted.freeContext dllFreeContext
  by_cases table : c.output.sectionHeaders = 0 <;> simp [DllContext.setErrorContext, DllContext.callFree, table]

/-- Nothing of a refused load stays but its report. -/
theorem receiveImageDataComplete_refused {budget : Nat} {c : DllContext} (relocation : receiveCtx.relocationNeeded = true)
    (held : Held (receiveCtx.imageBase :: (s.blocks ++ rest)) s.registry.calls)
    (load : dllLoad .target (dllInput alloc memory receiveCtx s.registry) budget { image := stale, calls := s.registry.calls } =
      .leave (.error c)) :
    ∃ calls, receiveImageDataComplete alloc code.run responseLen budget stale memory receiveCtx s = some
      { reply := .text xboxEFail (failureText "DLLLoad failed " responseLen c.output)
        image := 0
        hosted := { s with registry := { s.registry with calls } } } := by
  have cleaned : CleanedUp (live s.registry.calls) c := dllLoad_ends load held.clean
  refine ⟨.free receiveCtx.imageBase :: (dllFreeContext c false).calls, ?_⟩
  unfold receiveImageDataComplete
  rw [relocation, if_neg Bool.true_eq_false.mp]
  dsimp only
  rw [load, ← cleaned.imagePtr]

/-- `ReceiveImageDataComplete` on a well-formed DLL without TLS callbacks. -/
theorem receiveImageDataComplete_load (wf : (dllFile file).WellFormed .target ds blocks)
    (plain : ((dllFile file).peDirectory .target imageDirectoryEntryTls).size = 0) (size : file.length = n.toNat)
    (room : base + n.toNat < 2 ^ 32) (held : Held (base :: (s.blocks ++ rest)) s.registry.calls)
    (space : ∀ block, block = (dllInput alloc (place (2 ^ 32) memory base file) (receiveContext base n) s.registry).imageBlock
      .target s.registry.calls → block ≠ 0 → block + (dllFile file).peSize .target ≤ 2 ^ 32) :
    ∃ n₀, ∀ budget ≥ n₀, ∃ completed,
      receiveImageDataComplete alloc code.run responseLen budget stale (place (2 ^ 32) memory base file) (receiveContext base n) s =
        some completed ∧
      LoadCompletes code responseLen budget stale ds blocks file
        (dllInput alloc (place (2 ^ 32) memory base file) (receiveContext base n) s.registry) base s completed := by
  have same := @dllFile_same alloc memory s.registry n base file size room
  generalize named : dllInput alloc (place (2 ^ 32) memory base file) (receiveContext base n) s.registry = input at same space
  have own := wf.resolvedBy input
  have wf' : input.WellFormed .target ds blocks := same.wellFormed own (by rw [← named]; exact room)
  have addresses (asked : List Query) (query : Query) : (input.answer asked query).result ≠ none := by
    rw [← named, dllInput_answer]
    exact nofun
  obtain ⟨n₀, p, loads, outcome⟩ := @dllLoad_outcome .target input ds blocks
    { image := stale, calls := s.registry.calls } wf' rfl addresses (fun some_ => by
      rw [same.peSize own]
      exact space _ rfl some_)
  refine ⟨n₀, fun budget enough => ?_⟩
  have load := loads budget enough
  cases outcome with
  | @denied c denied =>
    obtain ⟨calls, completed⟩ := @receiveImageDataComplete_refused alloc code responseLen (place (2 ^ 32) memory base file) stale
      (receiveContext base n) s rest budget c rfl held (by rw [named]; exact load)
    exact ⟨_, completed, .denied denied⟩
  | @refused c query first unresolved =>
    obtain ⟨calls, completed⟩ := @receiveImageDataComplete_refused alloc code responseLen (place (2 ^ 32) memory base file) stale
      (receiveContext base n) s rest budget c rfl held (by rw [named]; exact load)
    subst named
    exact ⟨_, completed, .missing (firstRefused_missing first) unresolved⟩
  | @bound c slots resolved bound =>
    have header : input.peHeader .target = (dllFile file).peHeader .target := same.peHeader own
    have noCallbacks : (c.output.header.optionalHeader.dataDirectory imageDirectoryEntryTls).size = 0 := by
      rw [bound.header, header]
      exact plain
    have completed : receiveImageDataComplete alloc code.run responseLen budget stale (place (2 ^ 32) memory base file)
        (receiveContext base n) s = some
        { reply := .text xboxSOk (imageText c.output.image c.output.entrypoint.toNat)
          image := c.output.image
          hosted := (code.run c.output.entrypoint.toNat
            { s with registry := { s.registry with calls := .free base :: c.calls } }).freeContext c true } := by
      unfold receiveImageDataComplete
      rw [show (receiveContext base n).relocationNeeded = true from rfl, if_neg Bool.true_eq_false.mp]
      dsimp only
      rw [named, load]
      dsimp only
      rw [dllInvokeTlsCallbacks_plain noCallbacks, ← freeContext_context .invokeTlsCallbacks]
      rfl
    have listed : List.Forall₂ (fun import_ slot => slot.1 = import_.1 ∧
        registered s.registry.contents import_.2 = some slot.2) (importList ds) slots := by
      subst named
      exact resolveAll_registered resolved
    refine ⟨_, completed, .runs load rfl listed ?_ ?_⟩
    · rw [bound.imagePtr]
      exact (same.referenceImage own bound.image).own
    · rw [bound.entrypoint, bound.imagePtr, header]

/-! ## The whole load -/

theorem processCommandFull_load {p : Chars} {ctx : CommandContext} {store : ContextStore} :
    processCommandFull alloc (loadPrefix ++ p) ctx store r = handleDynamicLoad alloc (loadKey ++ space :: p) ctx store r :=
  rfl

/-- The state of an accepted `load`. -/
structure LoadStarted (n : UInt32) (ctx : CommandContext) (registry : ModuleRegistry) (o : Outcome) : Prop where
  reply : o.reply = .silent xboxSSendBinary
  ctx : o.ctx =
    { ctx with
      buffer := o.ctx.buffer
      bufferSize := n
      userData := .contextStore
      bytesRemaining := n
      handler := some .receiveImageData }
  record : o.store.receive = receiveContext o.ctx.buffer n
  tables : o.registry.exportTable = registry.exportTable

theorem handleDynamicLoad_started {p : Chars} {ctx : CommandContext} {store : ContextStore} (whole : ¬ CutOff p)
    (clean : Clean r.calls) (asked : requestedSize bump p [] = some n)
    (handled : handleDynamicLoad alloc (loadKey ++ space :: p) ctx store r = some o)
    (accepted : o.reply.code = xboxSSendBinary) : LoadStarted n ctx r o := by
  obtain ⟨out, parses⟩ := (parses_or_cutOff p).resolve_right whole
  obtain ⟨o', handled', ends⟩ := @handleDynamicLoad_load alloc p ctx r out store parses clean
  cases handled.symm.trans handled'
  rcases ends with ⟨n', base, granted, -, begun⟩ | ⟨declined, -⟩
  · cases asked.symm.trans granted.size
    obtain ⟨size, parsed, block, -, -, -, rfl⟩ := handleDynamicLoad_accepted handled accepted
    have same : size = n := congrArg CommandContext.bufferSize begun.ctx
    subst same
    exact ⟨rfl, rfl, rfl, rfl⟩
  · exact absurd accepted (isError_ne declined.code)

section

variable {Conn : Type} [DecidableEq Conn]

/-- An accepted `load` is ready for its first chunk. -/
theorem receiving_load {s : Service Conn} {c : Conn} {goes : Bool} (started : LoadStarted n (s.ctx c) s.hosted.registry o) :
    Receiving s.memory o o.ctx.buffer n [] ((s.after c o goes).transfer c) := by
  have ctx : ((s.after c o goes).transfer c).ctx = o.ctx := by
    show Function.update s.ctx c o.ctx c = o.ctx
    rw [Function.update_self]
  refine ⟨⟨?_, ?_, ?_⟩, rfl, ?_, ?_, rfl, rfl⟩ <;> rw [ctx]
  · rfl
  · rw [started.ctx]
    rfl
  · rw [started.ctx]
    rfl
  · rw [started.ctx]
  · rw [started.ctx]

/-- An accepted `load` of a well-formed DLL that is then sent in any number of
chunks: nothing is run before the last one, and then either the DLL's code is
called once, in the file's image with the registered addresses bound to its
imports, or the client is told what was missing and nothing is kept. -/
theorem load_runs (alloc : Ledger → Nat → Nat) (code : LoadedCode) (responseLen : UInt32) (stale : Ledger → Bytes)
    (s : Service Conn) (c : Conn) (p : Chars) (rest : List Nat) (n : UInt32) (file : List UInt8)
    (chunks : List (List UInt8)) (ds : List ImportModule) (blocks : List RelocBlock) (o : Outcome) (whole : ¬ CutOff p)
    (held : Held (s.hosted.blocks ++ rest) s.hosted.registry.calls) (asked : requestedSize bump p [] = some n)
    (processed : processCommandFull alloc (loadPrefix ++ p) (s.ctx c) s.store s.hosted.registry = some o)
    (accepted : o.reply.code = xboxSSendBinary) (size : file.length = n.toNat) (cut : chunks.flatten = file)
    (nonempty : ∀ chunk ∈ chunks, chunk ≠ []) (wf : (dllFile file).WellFormed .target ds blocks)
    (plain : ((dllFile file).peDirectory .target imageDirectoryEntryTls).size = 0)
    (room : o.ctx.buffer + n.toNat < 2 ^ 32)
    (fits : ∀ block, block = (o.input alloc s.memory file).imageBlock .target o.registry.calls → block ≠ 0 →
      block + (dllFile file).peSize .target ≤ 2 ^ 32) :
    ∃ n₀, ∀ budget ≥ n₀, ∃ begun final completed,
      s.exec alloc code responseLen budget stale (c, .command (loadPrefix ++ p)) = some begun ∧
      begun.hosted = { s.hosted with registry := o.registry } ∧ o.registry.contents = s.hosted.registry.contents ∧
      (∀ before after, chunks = before ++ after → after ≠ [] → ∃ s',
        (before.map fun chunk => (c, Request.data chunk)).foldlM (Service.exec alloc code responseLen budget stale)
          begun = some s' ∧ s'.hosted = begun.hosted ∧ s'.unfinished c = true) ∧
      (chunks.map fun chunk => (c, Request.data chunk)).foldlM (Service.exec alloc code responseLen budget stale) begun =
        some final ∧ final.unfinished c = false ∧ final.hosted = completed.hosted ∧
      final.given = completed.keeps true ++ s.given ∧
      receiveImageDataComplete alloc code.run responseLen budget (stale o.registry.calls) final.memory o.store.receive begun.hosted =
        some completed ∧
      LoadCompletes code responseLen budget (stale o.registry.calls) ds blocks file (o.input alloc s.memory file)
        o.ctx.buffer begun.hosted completed ∧
      completed.Accounts rest := by
  have handled := processCommandFull_load.symm.trans processed
  have started : LoadStarted n (s.ctx c) s.hosted.registry o :=
    handleDynamicLoad_started whole held.clean asked handled accepted
  -- the raw image is held from here on
  have custody : Held (o.ctx.buffer :: (({ s.hosted with registry := o.registry } : Hosted).blocks ++ rest)) o.registry.calls := by
    have owned : Held (s.hosted.registry.blocks ++ (s.hosted.holds ++ rest)) s.hosted.registry.calls := by
      rwa [← List.append_assoc]
    cases handleDynamicLoad_custody handled owned with
    | listing _ handler => rw [started.ctx] at handler; cases handler
    | installing _ relocation => rw [started.record] at relocation; cases relocation
    | closed closed => rw [accepted, opens_sendBinary] at closed; cases closed
    | loading _ _ _ _ owned =>
      rw [started.record] at owned
      unfold Hosted.blocks
      rwa [List.append_assoc]
  generalize handed : ({ s.hosted with registry := o.registry } : Hosted) = hosted at custody
  have registry : hosted.registry = o.registry := by rw [← handed]
  have input : o.input alloc s.memory file =
      dllInput alloc (place (2 ^ 32) s.memory o.ctx.buffer file) (receiveContext o.ctx.buffer n) hosted.registry := by
    rw [Outcome.input, started.record, registry]
  rw [← registry] at custody
  obtain ⟨n₀, completes⟩ := @receiveImageDataComplete_load alloc code responseLen s.memory (stale o.registry.calls) hosted n
    o.ctx.buffer file ds blocks rest wf plain size room custody (by rw [← input, registry]; exact fits)
  refine ⟨n₀, fun budget enough => ?_⟩
  obtain ⟨completed, ran, ends⟩ := completes budget enough
  have executed : s.exec alloc code responseLen budget stale (c, .command (loadPrefix ++ p)) =
      some { s.after c o (opens o.reply.code) with given := s.given } := by
    have silent : o.tells = [] := tells_nothing fun text reply => by
      rw [started.reply] at reply
      cases reply
    dsimp only [Service.exec]
    rw [processed]
    simp only [silent, List.nil_append]
  generalize next : ({ s.after c o (opens o.reply.code) with given := s.given } : Service Conn) = begun at executed
  have same : begun.hosted = hosted := by rw [← next, ← handed]; rfl
  have receiving : Receiving s.memory o o.ctx.buffer n [] (begun.transfer c) := next ▸ receiving_load started
  have busy : begun.unfinished c = true := by
    rw [← next]
    show Function.update s.unfinished c _ c = true
    rw [Function.update_self, accepted]
    rfl
  have positive : 0 < n.toNat := by
    obtain ⟨headers, inFile⟩ := SameFile.peTable_le wf
    have whole : (dllFile file).rawDataSize = n := by
      show UInt32.ofNat file.length = n
      rw [size, UInt32.ofNat_toNat]
    rw [whole] at inFile
    omega
  obtain ⟨waits, final, run, memory, hosted', given, idle⟩ := sent_runs code responseLen budget stale alloc receiving busy
    nonempty (by rw [cut, size]) positive (by rw [same, registry, cut, started.record]; exact ran)
  refine ⟨begun, final, completed, executed, same, ?_, waits, run, idle, hosted', ?_, ?_, ?_, ?_⟩
  · rw [ModuleRegistry.contents, started.tables]
    rfl
  · rw [given, started.record, ← next]
    rfl
  · rw [memory, same, started.record, cut]
    exact ran
  · rw [input, same]
    exact ends
  · exact receiveImageDataComplete_accounts custody rfl ran

end

/-- `size=480` -/
def sizeOfBound : Chars := [0x73, 0x69, 0x7A, 0x65, 0x3D, 0x34, 0x38, 0x30]

/-- The two exports that `boundDll` imports. -/
def importedTables : List ModuleExportTable :=
  [⟨0x1000, ⟨0x1040, [0x61]⟩, [⟨0x1080, ⟨5, none, none, 0xA0005⟩⟩, ⟨0x10C0, ⟨6, some ⟨0x1100, [0x66]⟩, none, 0xB0001⟩⟩]⟩]

def importedRegistry : ModuleRegistry where
  exportTable := importedTables
  calls := (importedTables.flatMap ModuleExportTable.blocks).map (.alloc 4)

/-- The bytes of `boundDll`. -/
def boundFile : List UInt8 := (List.range 480).map boundDll.raw

theorem boundFile_wellFormed : (dllFile boundFile).WellFormed .target boundDllImports boundDllBlocks := by
  have own := boundDll_wellFormed.resolvedBy (dllFile boundFile)
  have same : SameFile (boundDll.resolvedBy (dllFile boundFile)) (dllFile boundFile) := by
    have size : boundDll.rawDataSize.toNat = 480 := by decide
    refine ⟨by decide +kernel, fun i _ lt => ?_, rfl, rfl⟩
    have lt : i < 480 := by rw [← size]; exact lt
    unfold dllFile DllLoaderInput.resolvedBy
    dsimp only
    rw [boundFile, List.getD_eq_getElem?_getD, List.getElem?_map, List.getElem?_range lt]
    rfl
  exact same.wellFormed own (by decide +kernel)

/-- Sent in two chunks, the DLL runs with both of its imports bound. -/
theorem boundFile_runs : ∃ (n : Nat) (begun final : Service Bool) (c : DllContext),
    { newService with hosted := { registry := importedRegistry } }.exec bump registeringCode 256 n (fun _ _ => 0)
      (true, .command (loadPrefix ++ sizeOfBound)) = some begun ∧
    ([boundFile.take 100, boundFile.drop 100].map fun chunk => (true, Request.data chunk)).foldlM
      (Service.exec bump registeringCode 256 n fun _ _ => 0) begun = some final ∧
    final.given = [c.output.image] ∧ u32 (2 ^ 32) c.image 0x250 = 0xA0005 ∧ u32 (2 ^ 32) c.image 0x254 = 0xB0001 := by
  have held : Held (importedRegistry.blocks ++ []) importedRegistry.calls := ⟨trivial, by decide⟩
  have whole : ¬ CutOff sizeOfBound := by
    intro cut
    obtain ⟨calls, overread⟩ := cut.overread .target []
    have read : (parseString .target bump sizeOfBound []).isOk = true := by decide +kernel
    rw [overread] at read
    cases read
  have computed : (processCommandFull bump (loadPrefix ++ sizeOfBound) {} {} importedRegistry).map (fun o =>
      (o.reply.code, o.ctx.buffer, o.registry.calls.length)) = some (xboxSSendBinary, 5056, 16) := by decide +kernel
  obtain ⟨o, processed, values⟩ := Option.map_eq_some_iff.mp computed
  obtain ⟨accepted, buffer, length⟩ : o.reply.code = xboxSSendBinary ∧ o.ctx.buffer = 5056 ∧ o.registry.calls.length = 16 := by
    simpa only [Prod.mk.injEq] using values
  have image (memory : Bytes) : (o.input bump memory boundFile).imageBlock .target o.registry.calls = 5184 := by
    show 4096 + 64 * (o.registry.calls.length + 1) = 5184
    rw [length]
  have room : o.ctx.buffer + (480 : UInt32).toNat < 2 ^ 32 := by
    rw [buffer]
    decide
  have imports : importList boundDllImports = [(0x250, .byOrdinal [0x61] 5), (0x254, .byName [0x61] [0x66])] := by decide
  obtain ⟨n, runs⟩ := load_runs bump registeringCode 256 (fun _ _ => 0)
    ({ newService with hosted := { registry := importedRegistry } } : Service Bool) true sizeOfBound [] 480 boundFile
    [boundFile.take 100, boundFile.drop 100] boundDllImports boundDllBlocks o whole held (by decide +kernel) processed accepted
    (by decide +kernel) (by simp) (by decide +kernel) boundFile_wellFormed (by decide +kernel) room
    (fun block same _ => by rw [same, image]; decide +kernel)
  obtain ⟨begun, final, completed, started, hosted, contents, -, run, -, -, given, -, ends, -⟩ := runs n (Nat.le_refl n)
  have registry : begun.hosted.registry = o.registry := by rw [hosted]
  have known : registered importedRegistry.contents (.byOrdinal [0x61] 5) = some 0xA0005 ∧
      registered importedRegistry.contents (.byName [0x61] [0x66]) = some 0xB0001 := by decide +kernel
  rw [← contents, ← registry] at known
  cases ends with
  | @runs c slots base load block bound reference entry =>
    rw [imports] at bound
    obtain ⟨slot, rest, first, more, rfl⟩ := List.forall₂_cons_left_iff.mp bound
    obtain ⟨slot', rest, second, more, rfl⟩ := List.forall₂_cons_left_iff.mp more
    have words := reference.slotWords
    refine ⟨n, begun, final, c, started, run, given, ?_, ?_⟩
    · have word := words slot List.mem_cons_self
      rw [first.1] at word
      exact word.trans (Option.some.inj (first.2.symm.trans known.1))
    · have word := words slot' (by simp)
      rw [second.1] at word
      exact word.trans (Option.some.inj (second.2.symm.trans known.2))
  | missing first =>
    obtain ⟨before, slot, after, whole, -, missing⟩ := first
    have listed : (slot, _) ∈ importList boundDllImports := whole ▸ List.mem_append_right _ List.mem_cons_self
    rw [imports] at listed
    rcases List.mem_cons.mp listed with same | listed
    · cases same
      cases missing.symm.trans known.1
    · cases List.mem_singleton.mp listed
      cases missing.symm.trans known.2
  | denied denied =>
    rw [registry] at denied
    cases denied with
    | table null =>
      have some_ : (o.input bump newService.memory boundFile).tableBlock .target o.registry.calls ≠ 0 :=
        Nat.ne_of_gt (Nat.lt_of_lt_of_le (by decide) (Nat.le_add_right 4096 _))
      exact absurd null some_
    | image _ null => cases (image _).symm.trans null

end Dyndxt.Session
