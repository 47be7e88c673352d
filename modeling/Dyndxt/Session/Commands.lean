import Dyndxt.Session.Complete

/-!
# `dxtmain.c`: the commands beyond the lean build

`reserve`, `install` and `export`, which `LEAN_BUILD` leaves out, and the
dispatch of the build that has them all. An `install` begins the transfer of an
image that needs no relocation into memory of the client's choice.
-/

namespace Dyndxt.Session
open Dyndxt.Pool Dyndxt.Params Dyndxt.Registry Dyndxt.Loader

/-- `addr=0x%X` -/
def addressText (allocation : Nat) : String := textOf (ascii "addr=0x" ++ upperHex (allocation % 2 ^ 32))

/-- A reply that changes nothing but the pool. -/
def declined (reply : Reply) (ctx : CommandContext) (store : ContextStore) (registry : ModuleRegistry)
    (calls : Ledger) : Outcome :=
  { reply, ctx, store, registry := { registry with calls } }

section

variable (alloc : Ledger → Nat → Nat)

/-- `HandleReserve`; `none` is the parser's read behind the NUL. -/
def handleReserve (command : Chars) (ctx : CommandContext) (store : ContextStore) (registry : ModuleRegistry) :
    Option Outcome :=
  match cpParseCommandParameters .target alloc (some command) (some {}) registry.calls with
  | .error _ => none
  | .ok { ret, result, calls } =>
    if ret < 0 then some (declined (.parseError ret) ctx store registry calls)
    else
      let cp := result.getD {}
      let (sizeFound, size) := cpGetUInt32 32 sizeKey cp
      let (_, calls) := cpDelete cp calls
      if sizeFound = false then
        some (declined (.error xboxEFail "Missing required 'size' param") ctx store registry calls)
      else
        let (allocation, calls) := dmAllocatePoolWithTag alloc calls size.toNat
        if allocation = 0 then
          some (declined (.error xboxEAccessDenied "Allocation failed") ctx store registry calls)
        else some (declined (.text xboxSOk (addressText allocation)) ctx store registry calls)

/-! ## `install` -/

/-- What `HandleInstall` says of its three parameters, in the order it looks
at them; `none` is what it accepts. -/
def installError (base length dxtMain : Bool × UInt32) : Option String :=
  if base.1 = false then some "Missing required 'base' param"
  else if length.1 = false then some "Missing required 'length' param"
  else if dxtMain.1 = false then some "Missing required 'entrypoint' param"
  else if base.2 = 0 then some "Invalid 'base' param"
  else if length.2 = 0 then some "Invalid 'length' param"
  else if dxtMain.2 < base.2 then some "Invalid 'entrypoint' param, < base"
  else if dxtMain.2 ≥ base.2 + length.2 then some "Invalid 'entrypoint' param, > image"
  else none

/-- The record that an `install` leaves for the completion. -/
def installContext (base length dxtMain : UInt32) : ReceiveImageDataContext where
  dxtMain := dxtMain.toNat
  imageBase := base.toNat
  rawImageSize := length
  numTlsCallbacks := 0
  tlsCallbacks := 0
  relocationNeeded := false

/-- `HandleInstall`. -/
def handleInstall (command : Chars) (ctx : CommandContext) (store : ContextStore) (registry : ModuleRegistry) :
    Option Outcome :=
  match cpParseCommandParameters .target alloc (some command) (some {}) registry.calls with
  | .error _ => none
  | .ok { ret, result, calls } =>
    if ret < 0 then some (declined (.parseError ret) ctx store registry calls)
    else
      let cp := result.getD {}
      let base := cpGetUInt32 32 (ascii "base") cp
      let length := cpGetUInt32 32 (ascii "length") cp
      let dxtMain := cpGetUInt32 32 (ascii "entrypoint") cp
      let (_, calls) := cpDelete cp calls
      match installError base length dxtMain with
      | some message => some (declined (.error xboxEFail message) ctx store registry calls)
      | none => some
        { reply := .silent xboxSSendBinary
          ctx :=
            { ctx with
              buffer := base.2.toNat
              bufferSize := length.2
              userData := .contextStore
              bytesRemaining := length.2
              handler := some .receiveImageData }
          store := .setReceive (installContext base.2 length.2 dxtMain.2)
          registry := { registry with calls } }

/-! ## `export` -/

/-- `PoolStrdup` of a string that was found; a null string stays null. -/
def strdupFound (calls : Ledger) : Option Chars → Option (Option PoolString) × Ledger
  | none => (some none, calls)
  | some source => match poolStrdup alloc calls source with
    | (none, calls) => (none, calls)
    | (some copy, calls) => (some (some copy), calls)

/-- What the parameters of an `export` say. -/
structure ExportRequest where
  moduleName : Chars
  methodName : Option Chars
  alias_ : Option Chars
  ordinal : UInt32
  address : UInt32
deriving DecidableEq, Repr

/-- The parameters that `HandleRegisterModuleExport` looks up, and what it
says if one that it needs is missing. -/
def exportRequest (cp : CommandParameters) : Except String ExportRequest :=
  let (nameFound, moduleName) := cpGetString (ascii "module") cp
  let (_, methodName) := cpGetString (ascii "name") cp
  let (_, alias_) := cpGetString (ascii "alias") cp
  let (ordinalFound, ordinal) := cpGetUInt32 32 (ascii "ordinal") cp
  let (addressFound, address) := cpGetUInt32 32 (ascii "addr") cp
  if ordinalFound = false then .error "Missing required 'ordinal' param"
  else if addressFound = false then .error "Missing required 'address' param"
  else if nameFound = false then .error "Missing required 'module' param"
  else .ok { moduleName := moduleName.getD [], methodName, alias_, ordinal, address }

/-- The strings copied and the export registered; `none` is a null pointer
dereferenced in the registry. -/
def saveExport (cp : CommandParameters) (request : ExportRequest) (ctx : CommandContext) (store : ContextStore)
    (registry : ModuleRegistry) (calls : Ledger) : Option Outcome :=
  let outOfMemory (calls : Ledger) :=
    some (declined (.error xboxEAccessDenied "Out of memory") ctx store registry (cpDelete cp calls).2)
  match poolStrdup alloc calls request.moduleName with
  | (none, calls) => outOfMemory calls
  | (some moduleNameSaved, calls) => match strdupFound alloc calls request.methodName with
    | (none, calls) => outOfMemory (.free moduleNameSaved.block :: calls)
    | (some methodName, calls) => match strdupFound alloc calls request.alias_ with
      | (none, calls) => outOfMemory (.free moduleNameSaved.block :: freeString calls methodName)
      | (some alias_, calls) =>
        let (_, calls) := cpDelete cp calls
        let entry : ModuleExport := { ordinal := request.ordinal, methodName, alias_, address := request.address }
        match mrRegisterMethod .target alloc moduleNameSaved.chars entry { registry with calls } with
        | .error _ => none
        | .ok (false, registry) =>
          let calls := freeString (freeString registry.calls methodName) alias_
          some (declined (.error xboxEFail "Registration failed") ctx store registry
            (.free moduleNameSaved.block :: calls))
        | .ok (true, registry) =>
          some (declined (.silent xboxSOk) ctx store registry (.free moduleNameSaved.block :: registry.calls))

/-- `HandleRegisterModuleExport`; `none` is the parser's read behind the NUL
or a null pointer dereferenced in the registry. -/
def handleRegisterModuleExport (command : Chars) (ctx : CommandContext) (store : ContextStore)
    (registry : ModuleRegistry) : Option Outcome :=
  match cpParseCommandParameters .target alloc (some command) (some {}) registry.calls with
  | .error _ => none
  | .ok { ret, result, calls } =>
    if ret < 0 then some (declined (.parseError ret) ctx store registry calls)
    else
      let cp := result.getD {}
      match exportRequest cp with
      | .error message => some (declined (.error xboxEFail message) ctx store registry (cpDelete cp calls).2)
      | .ok request => saveExport alloc cp request ctx store registry calls

/-! ## Dispatch -/

/-- `"reserve"` -/
def reserveCommand : Chars := [0x72, 0x65, 0x73, 0x65, 0x72, 0x76, 0x65]

/-- `"install"` -/
def installCommand : Chars := [0x69, 0x6E, 0x73, 0x74, 0x61, 0x6C, 0x6C]

/-- `"export"` -/
def exportCommand : Chars := [0x65, 0x78, 0x70, 0x6F, 0x72, 0x74]

/-- `ProcessCommand` of the build that has all the commands. -/
def processCommandFull (command : Chars) (ctx : CommandContext) (store : ContextStore) (registry : ModuleRegistry) :
    Option Outcome :=
  let subcommand := command.drop sizeofHandlerName
  if command.length < sizeofHandlerName then none
  else if subcommand.take 5 = helloCommand then handleHello ctx store registry
  else if subcommand.take 4 = loadCommand then handleDynamicLoad alloc (command.drop 4) ctx store registry
  else if subcommand.take 7 = reserveCommand then handleReserve alloc (command.drop 7) ctx store registry
  else if subcommand.take 7 = installCommand then handleInstall alloc (command.drop 7) ctx store registry
  else if subcommand.take 6 = exportCommand then handleRegisterModuleExport alloc (command.drop 6) ctx store registry
  else some
    { reply := .errorWithSuffix xboxEUnknownCommand "Unknown command " command, ctx, store, registry }

end

end Dyndxt.Session
