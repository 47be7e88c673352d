import Dyndxt.Params.Lookup
import Dyndxt.Registry.Enumerate
import Dyndxt.Session.Xbdm

/-!
# `dxtmain.c`: the command and its continuations

The two commands of the lean build, `hello` and `load`, and the handlers that
carry their conversations on. The static `context_store` is a union: its first
two words are the cursor of a `hello` and the entrypoint and image base of a
`load`. The parameter `complete` is what `ReceiveImageDataComplete` replies
and does to the pool and the registry.
-/

namespace Dyndxt.Session
open Dyndxt.Pool Dyndxt.Params Dyndxt.Registry

structure ReceiveImageDataContext where
  dxtMain : Nat
  imageBase : Nat
  rawImageSize : UInt32
  numTlsCallbacks : UInt32
  tlsCallbacks : Nat
  relocationNeeded : Bool
deriving DecidableEq, Repr

/-- `context_store`, by words. -/
structure ContextStore where
  word0 : Nat := 0
  word1 : Nat := 0
  word2 : UInt32 := 0
  word3 : UInt32 := 0
  word4 : Nat := 0
  byte20 : Bool := false
deriving DecidableEq, Repr

/-- `send_method_addresses_context.cursor`. -/
def ContextStore.cursor (store : ContextStore) : ModuleRegistryCursor where
  module_ := store.word0
  export_ := store.word1

def ContextStore.setCursor (store : ContextStore) (cursor : ModuleRegistryCursor) : ContextStore :=
  { store with word0 := cursor.module_, word1 := cursor.export_ }

/-- `receive_image_data_context`. -/
def ContextStore.receive (store : ContextStore) : ReceiveImageDataContext where
  dxtMain := store.word0
  imageBase := store.word1
  rawImageSize := store.word2
  numTlsCallbacks := store.word3
  tlsCallbacks := store.word4
  relocationNeeded := store.byte20

def ContextStore.setReceive (r : ReceiveImageDataContext) : ContextStore where
  word0 := r.dxtMain
  word1 := r.imageBase
  word2 := r.rawImageSize
  word3 := r.numTlsCallbacks
  word4 := r.tlsCallbacks
  byte20 := r.relocationNeeded

/-- What a call of the command or of a handler leaves: its reply, the
context, the store and the registry with the pool's ledger, and the line that
`SendMethodAddresses` prints to the context's buffer. -/
structure Outcome where
  reply : Reply
  ctx : CommandContext
  store : ContextStore
  registry : ModuleRegistry
  line : Option (List UInt8 × ModuleExport) := none
deriving DecidableEq, Repr

/-! ## Commands -/

/-- `HandleHello`; `none` is a null pointer dereferenced. -/
def handleHello (ctx : CommandContext) (store : ContextStore) (registry : ModuleRegistry) : Option Outcome :=
  match mrEnumerateRegistryBegin registry with
  | none => none
  | some cursor => some
    { reply := .text xboxSMultiline "Registered exports"
      ctx := { ctx with userData := .contextStore, handler := some .sendMethodAddresses }
      store := store.setCursor cursor
      registry }

/-- `"size"` -/
def sizeKey : Chars := [0x73, 0x69, 0x7A, 0x65]

section

variable (alloc : Ledger → Nat → Nat)

/-- `HandleDynamicLoad`; `none` is the parser's read behind the NUL. -/
def handleDynamicLoad (command : Chars) (ctx : CommandContext) (store : ContextStore)
    (registry : ModuleRegistry) : Option Outcome :=
  match cpParseCommandParameters .target alloc (some command) (some {}) registry.calls with
  | .error _ => none
  | .ok { ret, result, calls } =>
    if ret < 0 then some { reply := .parseError ret, ctx, store, registry := { registry with calls } }
    else
      let cp := result.getD {}
      let (sizeFound, size) := cpGetUInt32 32 sizeKey cp
      let (_, calls) := cpDelete cp calls
      if sizeFound = false then some
        { reply := .error xboxEFail "Missing required 'size' param", ctx, store
          registry := { registry with calls } }
      else
        let (allocation, calls) := dmAllocatePoolWithTag alloc calls size.toNat
        if allocation = 0 then some
          { reply := .error xboxEAccessDenied "Allocation failed", ctx, store
            registry := { registry with calls } }
        else some
          { reply := .silent xboxSSendBinary
            ctx :=
              { ctx with
                buffer := allocation
                bufferSize := size
                userData := .contextStore
                bytesRemaining := size
                handler := some .receiveImageData }
            store := .setReceive
              { dxtMain := 0
                imageBase := allocation
                rawImageSize := size
                numTlsCallbacks := 0
                tlsCallbacks := 0
                relocationNeeded := true }
            registry := { registry with calls } }

/-- `"hello"` -/
def helloCommand : Chars := [0x68, 0x65, 0x6C, 0x6C, 0x6F]

/-- `"load"` -/
def loadCommand : Chars := [0x6C, 0x6F, 0x61, 0x64]

/-- `sizeof(kHandlerName)` -/
def sizeofHandlerName : Nat := 5

/-- `ProcessCommand`. The command is at least as long as the handler's name
and the character after it. -/
def processCommand (command : Chars) (ctx : CommandContext) (store : ContextStore)
    (registry : ModuleRegistry) : Option Outcome :=
  let subcommand := command.drop sizeofHandlerName
  if command.length < sizeofHandlerName then none
  else if subcommand.take 5 = helloCommand then handleHello ctx store registry
  else if subcommand.take 4 = loadCommand then handleDynamicLoad alloc (command.drop 4) ctx store registry
  else some
    { reply := .errorWithSuffix xboxEUnknownCommand "Unknown command " command, ctx, store, registry }

end

/-! ## Continuations -/

/-- `SendMethodAddresses`; `none` is a read of something else than the registry
through the cursor. -/
def sendMethodAddresses (ctx : CommandContext) (store : ContextStore) (registry : ModuleRegistry) :
    Option Outcome :=
  if ctx.userData ≠ .contextStore then none
  else match mrEnumerateRegistry store.cursor registry with
    | none => none
    | some (none, cursor) => some
      { reply := .silent xboxSNoMoreData, ctx, store := store.setCursor cursor, registry }
    | some (some line, cursor) => some
      { reply := .silent xboxSOk, ctx, store := store.setCursor cursor, registry, line := some line }

/-- `ReceiveImageData`. -/
def receiveImageData (complete : ReceiveImageDataContext → ModuleRegistry → Reply × ModuleRegistry)
    (ctx : CommandContext) (store : ContextStore) (registry : ModuleRegistry) : Option Outcome :=
  if ctx.dataSize = 0 then some { reply := .silent xboxEUnexpected, ctx, store, registry }
  else
    let ctx := { ctx with
      buffer := (ctx.buffer + ctx.dataSize.toNat) % 2 ^ 32
      bufferSize := ctx.bufferSize - ctx.dataSize
      bytesRemaining := ctx.bytesRemaining - ctx.dataSize }
    if ctx.bytesRemaining ≠ 0 then some { reply := .silent xboxSOk, ctx, store, registry }
    else if ctx.userData ≠ .contextStore then none
    else
      let (reply, registry) := complete store.receive registry
      some { reply, ctx, store, registry }

/-! ## The ends of `HandleDynamicLoad` -/

/-- How a `load` ends. Only an accepted one writes the store, and none reads
it. -/
inductive DynamicLoad (alloc : Ledger → Nat → Nat) (command : Chars) (ctx : CommandContext)
    (registry : ModuleRegistry) : Prop where
  | overread (calls : Ledger)
      (parsed : cpParseCommandParameters .target alloc (some command) (some {}) registry.calls = .error calls)
      (handled : ∀ store, handleDynamicLoad alloc command ctx store registry = none)
  | malformed (r : ParseResult)
      (parsed : cpParseCommandParameters .target alloc (some command) (some {}) registry.calls = .ok r)
      (negative : r.ret < 0)
      (handled : ∀ store, handleDynamicLoad alloc command ctx store registry = some
        { reply := .parseError r.ret, ctx, store, registry := { registry with calls := r.calls } })
  | unsized (r : ParseResult) (size : UInt32)
      (parsed : cpParseCommandParameters .target alloc (some command) (some {}) registry.calls = .ok r)
      (nonnegative : ¬ r.ret < 0) (missing : cpGetUInt32 32 sizeKey (r.result.getD {}) = (false, size))
      (handled : ∀ store, handleDynamicLoad alloc command ctx store registry = some
        { reply := .error xboxEFail "Missing required 'size' param", ctx, store
          registry := { registry with calls := (cpDelete (r.result.getD {}) r.calls).2 } })
  | starved (r : ParseResult) (size : UInt32)
      (parsed : cpParseCommandParameters .target alloc (some command) (some {}) registry.calls = .ok r)
      (nonnegative : ¬ r.ret < 0) (found : cpGetUInt32 32 sizeKey (r.result.getD {}) = (true, size))
      (handled : ∀ store, handleDynamicLoad alloc command ctx store registry = some
        { reply := .error xboxEAccessDenied "Allocation failed", ctx, store
          registry :=
            { registry with calls := .alloc size.toNat 0 :: (cpDelete (r.result.getD {}) r.calls).2 } })
  | accepted (r : ParseResult) (size : UInt32) (base : Nat)
      (parsed : cpParseCommandParameters .target alloc (some command) (some {}) registry.calls = .ok r)
      (nonnegative : ¬ r.ret < 0) (found : cpGetUInt32 32 sizeKey (r.result.getD {}) = (true, size))
      (some_ : base ≠ 0)
      (handled : ∀ store, handleDynamicLoad alloc command ctx store registry = some
        { reply := .silent xboxSSendBinary
          ctx :=
            { ctx with
              buffer := base
              bufferSize := size
              userData := .contextStore
              bytesRemaining := size
              handler := some .receiveImageData }
          store := .setReceive
            { dxtMain := 0
              imageBase := base
              rawImageSize := size
              numTlsCallbacks := 0
              tlsCallbacks := 0
              relocationNeeded := true }
          registry :=
            { registry with calls := .alloc size.toNat base :: (cpDelete (r.result.getD {}) r.calls).2 } })

theorem handleDynamicLoad_ends (alloc : Ledger → Nat → Nat) (command : Chars) (ctx : CommandContext)
    (registry : ModuleRegistry) : DynamicLoad alloc command ctx registry := by
  cases parsed : cpParseCommandParameters .target alloc (some command) (some {}) registry.calls with
  | error calls =>
    refine .overread calls parsed fun store => ?_
    unfold handleDynamicLoad
    rw [parsed]
  | ok r =>
    by_cases negative : r.ret < 0
    · refine .malformed r parsed negative fun store => ?_
      unfold handleDynamicLoad
      rw [parsed]
      exact if_pos negative
    · cases looked : cpGetUInt32 32 sizeKey (r.result.getD {}) with
      | mk found size =>
        cases found with
        | false =>
          refine .unsized r size parsed negative looked fun store => ?_
          unfold handleDynamicLoad
          rw [parsed]
          dsimp only
          rw [if_neg negative, looked]
          exact if_pos rfl
        | true =>
          generalize freed : (cpDelete (r.result.getD {}) r.calls).2 = calls
          by_cases null : alloc calls size.toNat = 0
          · refine .starved r size parsed negative looked fun store => ?_
            unfold handleDynamicLoad dmAllocatePoolWithTag
            rw [parsed]
            dsimp only
            rw [if_neg negative, looked, freed, null]
            rfl
          · refine .accepted r size (alloc calls size.toNat) parsed negative looked null fun store => ?_
            unfold handleDynamicLoad dmAllocatePoolWithTag
            rw [parsed]
            dsimp only
            rw [if_neg negative, looked, freed]
            dsimp only
            rw [if_neg null]
            rfl

end Dyndxt.Session
