import Dyndxt.Loader.Load
import Dyndxt.Loader.TlsCallbacks
import Dyndxt.Registry.Ownership
import Dyndxt.Session.DxtMain

/-!
# `ReceiveImageDataComplete`

What happens when the last byte of an image has arrived: the raw image is
loaded and given back, and the DLL's code runs. That code shares the registry
and the pool: what it registers the registry holds, and what the registry held
before it may give back. What other blocks it holds is kept on the side.
-/

namespace Dyndxt.Session
open Dyndxt.Mem Dyndxt.Pool Dyndxt.Loader Dyndxt.Registry Dyndxt.Run

/-- The registry, with the pool blocks that the DLL's code holds. -/
structure Hosted where
  registry : ModuleRegistry
  holds : List Nat := []

/-- The blocks of the registry and of the DLLs' code. -/
def Hosted.blocks (s : Hosted) : List Nat := s.registry.blocks ++ s.holds

/-- The code of the loaded DLLs, by the address called. -/
structure LoadedCode where
  run : Nat → Hosted → Hosted
  /-- What it returns it held, or the registry did and no longer does. -/
  minds : ∀ address s, Minds s.blocks s.registry.calls (run address s).blocks (run address s).registry.calls

/-- What the completion replies and leaves; `image` is the image block of its
load. -/
structure Completed where
  reply : Reply
  image : Nat
  hosted : Hosted

/-! ## Texts -/

def dllLoaderContextCode : DllLoaderContext → Nat
  | .notParsed => 0
  | .dosHeader => 1
  | .ntHeader => 2
  | .ntHeaderSectionTable => 3
  | .loadImage => 4
  | .loadSection => 5
  | .resolveImports => 6
  | .relocate => 7
  | .invokeTlsCallbacks => 8

def dllLoaderStatusCode : DllLoaderStatus → Nat
  | .ok => 0
  | .error => 1
  | .fileTooSmall => 2
  | .invalidSignature => 3
  | .wrongMachineType => 4
  | .fixedBase => 5
  | .outOfMemory => 6
  | .dllForwardingNotSupported => 7
  | .unresolvedImport => 8
  | .noRelocationData => 9
  | .unsupportedRelocationType => 10

/-- `%X` -/
def upperHex (n : Nat) : List UInt8 := (Nat.toDigits 16 n).map fun c => UInt8.ofNat c.toUpper.toNat

def textOf (chars : List UInt8) : String := String.ofList (chars.map fun c => Char.ofNat c.toNat)

/-- `image_base=0x%X entrypoint=0x%X` -/
def imageText (image entrypoint : Nat) : String :=
  textOf (ascii "image_base=0x" ++ upperHex (image % 2 ^ 32) ++ ascii " entrypoint=0x" ++ upperHex (entrypoint % 2 ^ 32))

/-- What failed, the loader's context and status, and as much of its message
as fits the response. -/
def failureText (what : String) (responseLen : UInt32) (output : DllLoaderOutput) : String :=
  let response := ascii what ++ decimal (dllLoaderContextCode output.context) ++ ascii "::" ++
    decimal (dllLoaderStatusCode output.status) ++ ascii " "
  textOf <| response ++
    if output.errorMessage = [] then []
    else output.errorMessage.take ((responseLen.toNat + 2 ^ 32 - (response.length + 1)) % 2 ^ 32)

/-! ## The completion -/

section

variable (alloc : Ledger → Nat → Nat) (run : Nat → Hosted → Hosted) (responseLen : UInt32)

/-- `ctx.input`, with the memory that the raw image is in. -/
def dllInput (memory : Bytes) (receiveCtx : ReceiveImageDataContext) (registry : ModuleRegistry) :
    DllLoaderInput where
  rawData := receiveCtx.imageBase
  raw i := memory ((receiveCtx.imageBase + i) % 2 ^ 32)
  rawDataSize := receiveCtx.rawImageSize
  alloc
  resolveImportByOrdinal _ image ordinal :=
    let (found, result) := mrGetMethodByOrdinal image ordinal registry
    ⟨found, some result⟩
  resolveImportByName _ image name :=
    let (found, result) := mrGetMethodByName image name registry
    ⟨found, some result⟩

/-- `DLLFreeContext` on the pool's ledger. -/
def Hosted.freeContext (s : Hosted) (ctx : DllContext) (keepImage : Bool) : Hosted :=
  { s with registry := { s.registry with
      calls := (dllFreeContext { ctx with calls := s.registry.calls } keepImage).calls } }

/-- After `DLLInvokeTLSCallbacks`. -/
def invokeEntrypoint : Pass × Hosted → Completed
  | (.error ctx, s) =>
    { reply := .text xboxEFail (failureText "Failed to invoke TLS callbacks " responseLen ctx.output)
      image := ctx.output.image
      hosted := s.freeContext ctx false }
  | (.ok ctx, s) =>
    { reply := .text xboxSOk (imageText ctx.output.image ctx.output.entrypoint.toNat)
      image := ctx.output.image
      hosted := (run ctx.output.entrypoint.toNat s).freeContext ctx true }

/-- `ReceiveImageDataComplete`, next to the DLLs that were loaded before; `stale`
is what the image block holds when it is allocated, and `none` a loop still
going after so many rounds. -/
def receiveImageDataComplete (budget : Nat) (stale memory : Bytes) (receiveCtx : ReceiveImageDataContext) (s : Hosted) :
    Option Completed :=
  if receiveCtx.relocationNeeded = false then some
    { reply := .text xboxSOk (imageText receiveCtx.imageBase receiveCtx.dxtMain)
      image := receiveCtx.imageBase
      hosted := run receiveCtx.dxtMain s }
  else
    let input := dllInput alloc memory receiveCtx s.registry
    match dllLoad .target input budget { image := stale, calls := s.registry.calls } with
    | .again _ => none
    | .leave (.error ctx) => some
      { reply := .text xboxEFail (failureText "DLLLoad failed " responseLen ctx.output)
        image := ctx.output.image
        hosted := { s with registry := { s.registry with
          calls := .free receiveCtx.imageBase :: (dllFreeContext ctx false).calls } } }
    | .leave (.ok ctx) =>
      let s : Hosted := { s with registry := { s.registry with calls := .free receiveCtx.imageBase :: ctx.calls } }
      match dllInvokeTlsCallbacks .target (fun t => run t.callback.toNat) budget ctx s with
      | .again _ => none
      | .leave r => some (invokeEntrypoint run responseLen r)

end

variable {alloc : Ledger → Nat → Nat} {code : LoadedCode} {responseLen : UInt32} {budget : Nat} {stale memory : Bytes}
  {receiveCtx : ReceiveImageDataContext} {rest : List Nat} {c : Completed} {s : Hosted} {ctx ctx' : DllContext}

/-! ## What it leaves -/

/-- A loader that owns an image and a section header table, next to what the
registry and the DLLs hold. -/
structure Hosts (rest : List Nat) (ctx : DllContext) (s : Hosted) : Prop where
  image : ctx.output.image ≠ 0
  sectionHeaders : ctx.output.sectionHeaders ≠ 0
  held : Held (s.blocks ++ (ctx.output.image :: ctx.output.sectionHeaders :: rest)) s.registry.calls

/-- The image block stays exactly when the reply is `XBOX_S_OK`, and nothing
else of the load does. -/
def Completed.Accounts (rest : List Nat) (c : Completed) : Prop :=
  Held ((if c.reply.code = xboxSOk then [c.image] else []) ++ (c.hosted.blocks ++ rest)) c.hosted.registry.calls

theorem Hosts.same (hosts : Hosts rest ctx s) (same : SameBlocks ctx ctx') : Hosts rest ctx' s := by
  obtain ⟨image, sectionHeaders, held⟩ := hosts
  rw [← same.imagePtr] at image held
  rw [← same.sectionHeaders] at sectionHeaders held
  exact ⟨image, sectionHeaders, held⟩

theorem Hosts.run (hosts : Hosts rest ctx s) (code : LoadedCode) (address : Nat) :
    Hosts rest ctx (code.run address s) :=
  ⟨hosts.image, hosts.sectionHeaders, code.minds address s _ hosts.held⟩

theorem Hosts.freeContext_calls (hosts : Hosts rest ctx s) (keepImage : Bool) :
    (s.freeContext ctx keepImage).registry.calls =
      (if keepImage then [] else [.free ctx.output.image]) ++ .free ctx.output.sectionHeaders :: s.registry.calls :=
  @dllFreeContext_calls { ctx with calls := s.registry.calls } hosts.sectionHeaders hosts.image keepImage

/-- The table is given back, and the image is still there. -/
theorem Hosts.freeTable (hosts : Hosts rest ctx s) :
    Held (ctx.output.image :: (s.blocks ++ rest)) (.free ctx.output.sectionHeaders :: s.registry.calls) := by
  have front : (s.blocks ++ (ctx.output.image :: ctx.output.sectionHeaders :: rest)).Perm
      (ctx.output.sectionHeaders :: ctx.output.image :: (s.blocks ++ rest)) :=
    List.perm_middle.trans ((List.perm_middle.cons _).trans (.swap _ _ _))
  exact (hosts.held.perm front).free

theorem accounts_of_error (failed : c.reply.code = xboxEFail)
    (held : Held (c.hosted.blocks ++ rest) c.hosted.registry.calls) : c.Accounts rest := by
  have differs : c.reply.code ≠ xboxSOk := by rw [failed]; decide
  unfold Completed.Accounts
  rwa [if_neg differs]

theorem accounts_of_ok (succeeded : c.reply.code = xboxSOk)
    (held : Held (c.image :: (c.hosted.blocks ++ rest)) c.hosted.registry.calls) : c.Accounts rest := by
  unfold Completed.Accounts
  rwa [if_pos succeeded]

/-- Whether the callbacks could be invoked or not, the load is accounted for. -/
theorem invokeEntrypoint_accounts {r : Pass} (hosts : Ends (Hosts rest · s) (Hosts rest · s) r) :
    (invokeEntrypoint code.run responseLen (r, s)).Accounts rest := by
  cases r with
  | error ctx =>
    have hosts : Hosts rest ctx s := hosts
    refine accounts_of_error rfl ?_
    show Held (s.blocks ++ rest) (s.freeContext ctx false).registry.calls
    rw [hosts.freeContext_calls false]
    exact hosts.freeTable.free
  | ok ctx =>
    have hosts : Hosts rest ctx s := hosts
    have ran := hosts.run code ctx.output.entrypoint.toNat
    refine accounts_of_ok rfl ?_
    show Held (ctx.output.image :: _) ((code.run _ s).freeContext ctx true).registry.calls
    rw [ran.freeContext_calls true]
    exact ran.freeTable

/-- A load that failed keeps nothing, and the raw image is given back. -/
theorem cleanedUp_gives_back (start : Held (receiveCtx.imageBase :: (s.blocks ++ rest)) s.registry.calls)
    (cleaned : CleanedUp (live s.registry.calls) ctx) :
    Held (s.blocks ++ rest) (.free receiveCtx.imageBase :: (dllFreeContext ctx false).calls) := by
  have alive := cleaned.owns.live
  simp only [DllLoaderOutput.blocks, cleaned.imagePtr, cleaned.sectionHeaders, ne_eq, not_true, if_false,
    List.nil_append] at alive
  have owned : Held (receiveCtx.imageBase :: (s.blocks ++ rest)) ctx.calls :=
    ⟨cleaned.owns.clean, alive ▸ start.live⟩
  rw [dllFreeContext_none cleaned.sectionHeaders false (.inr cleaned.imagePtr)]
  exact owned.free

/-- A load that succeeded hands over its own two blocks, and the raw image is
given back. -/
theorem loaded_hands_over {input : DllLoaderInput}
    (start : Held (receiveCtx.imageBase :: (s.blocks ++ rest)) s.registry.calls)
    (loaded : Loaded .target input s.registry.calls ctx) :
    Hosts rest ctx { s with registry := { s.registry with calls := .free receiveCtx.imageBase :: ctx.calls } } := by
  have image : ctx.output.image ≠ 0 := loaded.imagePtr ▸ loaded.passes.imageBlock
  have table : ctx.output.sectionHeaders ≠ 0 := loaded.sectionHeaders ▸ loaded.passes.tableBlock
  have alive := loaded.owns.live
  simp only [DllLoaderOutput.blocks, image, table, ne_eq, not_false_iff, if_true] at alive
  have owned : Held (ctx.output.image :: ctx.output.sectionHeaders :: receiveCtx.imageBase :: (s.blocks ++ rest))
      ctx.calls := ⟨loaded.owns.clean, alive ▸ (start.live.cons _).cons _⟩
  have front : (ctx.output.image :: ctx.output.sectionHeaders :: receiveCtx.imageBase :: (s.blocks ++ rest)).Perm
      (receiveCtx.imageBase :: ctx.output.image :: ctx.output.sectionHeaders :: (s.blocks ++ rest)) :=
    @List.perm_middle _ _ [_, _] _
  refine ⟨image, table, (owned.perm front).free.perm ?_⟩
  exact (List.perm_middle.symm.cons _).trans List.perm_middle.symm

/-- A load that fails gives back the raw image and keeps nothing; one that
succeeds gives back the raw image and keeps its image, whatever its code
registers. -/
theorem receiveImageDataComplete_accounts (start : Held (receiveCtx.imageBase :: (s.blocks ++ rest)) s.registry.calls)
    (relocation : receiveCtx.relocationNeeded = true)
    (completed : receiveImageDataComplete alloc code.run responseLen budget stale memory receiveCtx s = some c) :
    c.Accounts rest := by
  unfold receiveImageDataComplete at completed
  rw [relocation, if_neg Bool.true_eq_false.mp] at completed
  dsimp only at completed
  generalize loading : dllLoad .target (dllInput alloc memory receiveCtx s.registry) budget
    { image := stale, calls := s.registry.calls } = t at completed
  cases t with
  | again ctx => cases completed
  | leave r =>
    have ends := dllLoad_ends loading start.clean
    cases r with
    | error ctx =>
      have cleaned : CleanedUp (live s.registry.calls) ctx := ends
      have gives := cleanedUp_gives_back start cleaned
      cases completed
      exact accounts_of_error rfl gives
    | ok ctx =>
      have hosts := loaded_hands_over start ends
      dsimp only at completed
      generalize invoking : dllInvokeTlsCallbacks _ _ _ ctx _ = t at completed
      cases t with
      | again s => cases completed
      | leave p =>
        obtain ⟨r, s'⟩ := p
        cases completed
        obtain ⟨same, hosts⟩ := dllInvokeTlsCallbacks_ends (I := Hosts rest ctx)
          (fun t _ hosts => hosts.run code t.callback.toNat) invoking hosts
        exact invokeEntrypoint_accounts (same.mono (fun _ same => hosts.same same) fun _ same => hosts.same same)

/-- An image that needs no relocation is run where it is. -/
theorem receiveImageDataComplete_installed (relocation : receiveCtx.relocationNeeded = false) (run : Nat → Hosted → Hosted) :
    receiveImageDataComplete alloc run responseLen budget stale memory receiveCtx s = some
      { reply := .text xboxSOk (imageText receiveCtx.imageBase receiveCtx.dxtMain)
        image := receiveCtx.imageBase
        hosted := run receiveCtx.dxtMain s } := if_pos relocation

end Dyndxt.Session
