import Dyndxt.Registry.Custody
import Dyndxt.Registry.ByName
import Dyndxt.Session.Verbs
import Dyndxt.Params.Numbers

/-!
# The `export` command

`HandleRegisterModuleExport` copies the strings it was given, hands two of them
to the registry and gives back the rest, on every way out. What it registers is
what its parameters say on their own.
-/

namespace Dyndxt.Session
open Dyndxt.Pool Dyndxt.Params Dyndxt.Registry Dyndxt.Loader

/-- The entry is the one asked for. -/
structure ExportRequest.Denotes (request : ExportRequest) (e : ModuleExport) : Prop where
  ordinal : e.ordinal = request.ordinal
  methodName : e.methodName.map PoolString.chars = request.methodName
  alias_ : e.alias_.map PoolString.chars = request.alias_
  address : e.address = request.address

/-- What a string on its own asks to export. -/
def requestedExport (params : Chars) : Option ExportRequest :=
  (readParameters params).bind fun cp => (exportRequest cp).toOption

/-- The export is registered, and the registry has taken over its blocks. -/
structure Exported (request : ExportRequest) (registry : ModuleRegistry) (rest : List Nat) (o : Outcome) : Prop where
  reply : o.reply = .silent xboxSOk
  recorded : ∃ e, request.Denotes e ∧ o.registry.contents = registry.contents.record (request.moduleName, e)
  held : Held (o.registry.blocks ++ rest) o.registry.calls

/-- An error was returned, the tables are as they were, and so is what is
held. -/
structure NotExported (registry : ModuleRegistry) (rest : List Nat) (o : Outcome) : Prop where
  error : IsError o.reply.code
  tables : o.registry.exportTable = registry.exportTable
  held : Held (registry.blocks ++ rest) o.registry.calls

/-- How the part of the handler behind its checks ends. -/
inductive Saved (alloc : Ledger → Nat → Nat) (request : ExportRequest) (ctx : CommandContext) (store : ContextStore)
    (registry : ModuleRegistry) (rest : List Nat) (calls : Ledger) : Option Outcome → Prop where
  | exported {o : Outcome} : Exported request registry rest o → o.ctx = ctx → o.store = store →
      Served calls o.registry.calls → Saved alloc request ctx store registry rest calls (some o)
  | failed {o : Outcome} : NotExported registry rest o → o.ctx = ctx → o.store = store →
      Denied alloc calls o.registry.calls → Saved alloc request ctx store registry rest calls (some o)
  | crashed {earlier : Ledger} : calls <:+ earlier → alloc earlier (sizeofExportNode .target) = 0 →
      Saved alloc request ctx store registry rest calls none

variable {alloc : Ledger → Nat → Nat} {request : ExportRequest} {ctx : CommandContext} {store : ContextStore}
  {registry : ModuleRegistry} {rest : List Nat} {calls calls' : Ledger} {cp cp' : CommandParameters} {p : Chars}
  {o : Outcome}

/-! ## Saving -/

theorem isError_accessDenied : IsError xboxEAccessDenied := by decide

theorem isError_fail : IsError xboxEFail := by decide

theorem NotExported.not_ok (failed : NotExported registry rest o) : o.reply.code ≠ xboxSOk := by
  intro ok
  have error := failed.error
  rw [ok] at error
  exact absurd error (by decide)

/-- An error that leaves the registry alone. -/
theorem notExported_declined {code : UInt32} {message : String} (error : IsError code)
    (held : Held (registry.blocks ++ rest) calls) :
    NotExported registry rest (declined (.error code message) ctx store registry calls) :=
  ⟨error, rfl, held⟩

/-- Out of memory, with the parameters given back. -/
theorem Saved.outOfMemory (owned : Owned (registry.blocks ++ rest) cp calls') (denied : Denied alloc calls calls') :
    Saved alloc request ctx store registry rest calls
      (some (declined (.error xboxEAccessDenied "Out of memory") ctx store registry (cpDelete cp calls').2)) :=
  .failed (notExported_declined isError_accessDenied owned.delete) rfl rfl (denied.more served_cpDelete.suffix)

theorem saveExport_saved (owned : Owned (registry.blocks ++ rest) cp calls) :
    Saved alloc request ctx store registry rest calls (saveExport alloc cp request ctx store registry calls) := by
  unfold saveExport
  dsimp only
  rcases poolStrdup_cases alloc calls request.moduleName with ⟨ptr, some_, saved⟩ | ⟨failed, null⟩
  case inr =>
    rw [failed]
    exact .outOfMemory owned.allocNull (denied_alloc null)
  rw [saved]
  dsimp only
  generalize nameCalls : PoolCall.alloc ((request.moduleName.length + 1) % 2 ^ 32) ptr :: calls = calls₁
  have served₁ : Served calls calls₁ := nameCalls ▸ served_alloc some_
  have owned₁ : Owned (ptr :: (registry.blocks ++ rest)) cp calls₁ := nameCalls ▸ owned.alloc some_
  have named := strdupFound_copied alloc request.methodName owned₁
  generalize strdupFound alloc calls₁ request.methodName = x at named
  cases named with
  | denied owned₂ denied => exact .outOfMemory owned₂.free ((denied.later served₁.suffix).more (List.suffix_cons _ _))
  | @copied methodName calls₂ chars owned₂ served₂ =>
    have aliased := strdupFound_copied alloc request.alias_ owned₂
    dsimp only
    generalize strdupFound alloc calls₂ request.alias_ = x at aliased
    cases aliased with
    | denied owned₃ denied =>
      have earlier := (served₁.trans served₂).suffix
      refine .outOfMemory owned₃.freeString.free ((denied.later earlier).more ?_)
      exact (suffix_freeString _).trans (List.suffix_cons _ _)
    | @copied alias_ calls₃ chars' owned₃ served₃ =>
      dsimp only
      generalize deleted : (cpDelete cp calls₃).2 = calls₄
      have served₄ : Served calls calls₄ :=
        ((served₁.trans served₂).trans served₃).trans (deleted ▸ served_cpDelete)
      generalize entry : ({ ordinal := request.ordinal, methodName, alias_, address := request.address } :
        ModuleExport) = e
      have denotes : request.Denotes e := entry ▸ ⟨rfl, chars, chars', rfl⟩
      -- the copy of the module's name is no longer needed when the registry has its own
      have handed : Held (e.strings ++ (registry.blocks ++ ptr :: rest)) calls₄ := by
        have strings : e.strings = stringBlock methodName ++ stringBlock alias_ := by rw [← entry]; rfl
        have all : Held _ calls₄ := deleted ▸ owned₃.delete
        rw [strings]
        refine all.perm ?_
        rw [List.perm_iff_count]
        intro q
        simp only [List.count_append, List.count_cons]
        omega
      have custody := mrRegisterMethod_custody .target alloc request.moduleName
        (r := { registry with calls := calls₄ }) handed
      generalize mrRegisterMethod .target alloc request.moduleName e { registry with calls := calls₄ } = x at custody
      cases custody with
      | registered held recorded served₅ =>
        refine .exported ⟨rfl, ⟨e, denotes, recorded⟩, ?_⟩ rfl rfl ((served₄.trans served₅).trans served_free)
        exact (held.perm List.perm_middle).free
      | @refused r' tables held denied =>
        have freed : freeString (freeString r'.calls methodName) alias_ = freeAll e.strings r'.calls := by
          rw [← entry, ModuleExport.strings, freeAll_append, freeString_eq, freeString_eq]
        have left := (held.freeAll.perm List.perm_middle).free
        dsimp only
        rw [freed]
        refine .failed ⟨isError_fail, tables, left⟩ rfl rfl ?_
        have later := (served_freeAll e.strings r'.calls).suffix
        exact (denied.later served₄.suffix).more (later.trans (List.suffix_cons _ _))
      | crashed later null => exact .crashed (served₄.suffix.trans later) null

/-! ## From text to registry -/

/-- `"ddxt!export "` -/
def exportPrefix : Chars := [0x64, 0x64, 0x78, 0x74, 0x21, 0x65, 0x78, 0x70, 0x6F, 0x72, 0x74, 0x20]

/-- `"xport"` -/
def exportKey : Chars := [0x78, 0x70, 0x6F, 0x72, 0x74]

/-- The keys that are looked up. -/
def exportKeys : List Chars := [ascii "module", ascii "name", ascii "alias", ascii "ordinal", ascii "addr"]

theorem processCommandFull_export : processCommandFull alloc (exportPrefix ++ p) ctx store registry =
    handleRegisterModuleExport alloc (exportKey ++ space :: p) ctx store registry := rfl

theorem isKey_exportKey : IsKey exportKey := by
  refine ⟨by decide, ?_⟩
  simp only [exportKey, List.mem_cons, List.not_mem_nil, or_false, forall_eq_or_imp, forall_eq]
  decide

theorem exportKeys_other : ∀ k ∈ exportKeys, k ≠ exportKey := by decide +kernel

/-- The request is read off what the keys find. -/
theorem exportRequest_congr (same : ∀ k ∈ exportKeys, cpGetString k cp = cpGetString k cp') :
    exportRequest cp = exportRequest cp' := by
  simp only [exportKeys, List.forall_mem_cons, List.not_mem_nil, false_implies, implies_true, and_true] at same
  obtain ⟨moduleName, methodName, alias_, ordinal, address⟩ := same
  unfold exportRequest
  rw [moduleName, methodName, alias_, cpGetUInt32_congr ordinal, cpGetUInt32_congr address]

theorem requestedExport_read {es : List Entry} (parses : Parses p (.ok es))
    (read : ∀ k, k ≠ exportKey → cpGetString k cp = firstBinding k es) :
    requestedExport p = (exportRequest cp).toOption := by
  obtain ⟨cp', found, read'⟩ := readParameters_ok parses
  rw [requestedExport, found, Option.bind_some]
  congr 1
  refine exportRequest_congr fun k listed => ?_
  rw [read', read k (exportKeys_other k listed)]

/-- The handler has registered the export that `p` asks for, has refused it and
changed nothing, or has run into a node that could not be allocated. -/
inductive ExportEnds (alloc : Ledger → Nat → Nat) (p : Chars) (ctx : CommandContext) (store : ContextStore)
    (registry : ModuleRegistry) (rest : List Nat) : Option Outcome → Prop where
  | exported {o : Outcome} (request : ExportRequest) : requestedExport p = some request →
      Exported request registry rest o → o.ctx = ctx → o.store = store → Served registry.calls o.registry.calls →
      ExportEnds alloc p ctx store registry rest (some o)
  | refused {o : Outcome} : NotExported registry rest o → o.ctx = ctx → o.store = store →
      requestedExport p = none ∨ Denied alloc registry.calls o.registry.calls →
      ExportEnds alloc p ctx store registry rest (some o)
  | crashed {earlier : Ledger} : registry.calls <:+ earlier → alloc earlier (sizeofExportNode .target) = 0 →
      ExportEnds alloc p ctx store registry rest none

theorem handleRegisterModuleExport_ends (alloc : Ledger → Nat → Nat) (ctx : CommandContext) (store : ContextStore)
    {out : Except PcpErr (List Entry)} (parses : Parses p out) (owned : Held (registry.blocks ++ rest) registry.calls) :
    ExportEnds alloc p ctx store registry rest
      (handleRegisterModuleExport alloc (exportKey ++ space :: p) ctx store registry) := by
  obtain ⟨r, returned, parsed⟩ := parsedBehind alloc isKey_exportKey parses owned
  unfold handleRegisterModuleExport
  rw [returned]
  dsimp only
  cases parsed with
  | refused negative held cause =>
    rw [if_pos negative]
    refine .refused ⟨isError_cpPrintError r.ret, rfl, held⟩ rfl rfl (cause.imp (fun ⟨e, reading⟩ => ?_) id)
    subst reading
    rw [requestedExport, readParameters_error parses]
    rfl
  | read nonnegative es reading owned served same =>
    subst reading
    rw [if_neg nonnegative]
    have asked := requestedExport_read parses same
    cases request : exportRequest (r.result.getD {}) with
    | error message =>
      rw [request] at asked
      exact .refused (notExported_declined isError_fail owned.delete) rfl rfl (.inl asked)
    | ok request' =>
      rw [request] at asked
      have saved := @saveExport_saved alloc request' ctx store registry rest r.calls _ owned
      dsimp only
      generalize saveExport alloc (r.result.getD {}) request' ctx store registry r.calls = x at saved
      cases saved with
      | exported exported ctx store served' =>
        exact .exported request' asked exported ctx store (served.trans served')
      | failed failed ctx store denied => exact .refused failed ctx store (.inr (denied.later served.suffix))
      | crashed later null => exact .crashed (served.suffix.trans later) null

/-- `ddxt!export p` registers the export that `p` asks for on its own exactly
when `p` asks for one and no allocation of the command fails; otherwise an
error is returned and the tables are as they were. Either way every block that
the command allocated is freed or the registry's. Only an export node that
could not be allocated stops it. -/
theorem processCommand_export (alloc : Ledger → Nat → Nat) (p : Chars) (ctx : CommandContext) (store : ContextStore)
    (registry : ModuleRegistry) (rest : List Nat) (whole : ¬ CutOff p)
    (owned : Held (registry.blocks ++ rest) registry.calls) :
    (processCommandFull alloc (exportPrefix ++ p) ctx store registry = none →
      ∃ earlier, registry.calls <:+ earlier ∧ alloc earlier (sizeofExportNode .target) = 0) ∧
    ∀ o, processCommandFull alloc (exportPrefix ++ p) ctx store registry = some o →
      o.ctx = ctx ∧ o.store = store ∧
      (o.reply.code = xboxSOk ↔
        (requestedExport p).isSome ∧ ¬ Denied alloc registry.calls o.registry.calls) ∧
      (∀ request, requestedExport p = some request → o.reply.code = xboxSOk →
        Exported request registry rest o) ∧
      (o.reply.code ≠ xboxSOk → NotExported registry rest o) := by
  obtain ⟨out, parses⟩ := (parses_or_cutOff p).resolve_right whole
  have ends := handleRegisterModuleExport_ends alloc ctx store parses owned
  rw [processCommandFull_export]
  generalize handleRegisterModuleExport alloc (exportKey ++ space :: p) ctx store registry = x at ends
  cases ends with
  | @exported o request asked exported ctx store served =>
    have code : o.reply.code = xboxSOk := by rw [exported.reply]; rfl
    refine ⟨nofun, fun o' same => ?_⟩
    cases same
    refine ⟨ctx, store, ?_, fun request' asked' _ => ?_, fun other => absurd code other⟩
    · rw [asked]
      exact iff_of_true code ⟨rfl, served.not_denied⟩
    · cases asked.symm.trans asked'
      exact exported
  | @refused o failed ctx store cause =>
    have other := failed.not_ok
    refine ⟨nofun, fun o' same => ?_⟩
    cases same
    refine ⟨ctx, store, iff_of_false other ?_, fun _ _ ok => absurd ok other, fun _ => failed⟩
    rintro ⟨asked, granted⟩
    rcases cause with none | denied
    · rw [none] at asked
      cases asked
    · exact granted denied
  | crashed later null => exact ⟨fun _ => ⟨_, later, null⟩, nofun⟩

/-- `module=m ordinal=1 addr=4` -/
def ordinalOne : Chars :=
  [0x6D, 0x6F, 0x64, 0x75, 0x6C, 0x65, 0x3D, 0x6D, 0x20, 0x6F, 0x72, 0x64, 0x69, 0x6E, 0x61, 0x6C, 0x3D, 0x31, 0x20,
    0x61, 0x64, 0x64, 0x72, 0x3D, 0x34]

def ordinalOneRequest : ExportRequest :=
  { moduleName := [0x6D], methodName := none, alias_ := none, ordinal := 1, address := 4 }

theorem ordinalOne_processed : ∃ o, processCommandFull bump (exportPrefix ++ ordinalOne) {} {} {} = some o ∧
    o.reply.code = xboxSOk ∧ Served [] o.registry.calls := by
  have all : (processCommandFull bump (exportPrefix ++ ordinalOne) {} {} {}).map
      (fun o => (o.reply.code, decide (Granted o.registry.calls))) = some (xboxSOk, true) := by decide +kernel
  obtain ⟨o, processed, outcome⟩ := Option.map_eq_some_iff.mp all
  obtain ⟨code, granted⟩ := Prod.mk.inj outcome
  exact ⟨o, processed, code, _, (List.append_nil _).symm, of_decide_eq_true granted⟩

theorem ordinalOne_exported : ∃ o, processCommandFull bump (exportPrefix ++ ordinalOne) {} {} {} = some o ∧
    Exported ordinalOneRequest {} [] o := by
  have whole : ¬ CutOff ordinalOne := by
    intro cut
    obtain ⟨calls, overread⟩ := cut.overread .target []
    have read : (parseString .target bump ordinalOne []).isOk = true := by decide +kernel
    rw [overread] at read
    cases read
  have asked : requestedExport ordinalOne = some ordinalOneRequest := by decide +kernel
  obtain ⟨o, processed, code, -⟩ := ordinalOne_processed
  obtain ⟨-, ends⟩ := processCommand_export bump ordinalOne {} {} {} [] whole (held_live clean_nil)
  obtain ⟨-, -, -, exported, -⟩ := ends o processed
  exact ⟨o, processed, exported ordinalOneRequest asked code⟩

/-! ## What is asked for is found -/

/-- The text is an integer literal that denotes the number, modulo `2 ^ 32`. -/
def Spells (text : Chars) (v : UInt32) : Prop :=
  ∃ negative magnitude, IsLiteral text negative magnitude ∧ magnitude < 2 ^ 32 ∧
    (v.toNat : Int) = literalValue negative magnitude % 2 ^ 32

/-- The first pair with the key spells the number. -/
def Numbered (k : Chars) (es : List Entry) (v : UInt32) : Prop :=
  ∃ text, firstBinding k es = (true, some text) ∧ Spells text v

/-- The pairs ask for the export, whatever else they say. -/
structure ExportRequest.AskedBy (request : ExportRequest) (es : List Entry) : Prop where
  moduleName : firstBinding (ascii "module") es = (true, some request.moduleName)
  methodName : (firstBinding (ascii "name") es).2 = request.methodName
  alias_ : (firstBinding (ascii "alias") es).2 = request.alias_
  ordinal : Numbered (ascii "ordinal") es request.ordinal
  address : Numbered (ascii "addr") es request.address

/-- The method's name or its alias. -/
def ExportRequest.IsNamed (request : ExportRequest) (name : Chars) : Prop :=
  request.methodName = some name ∨ request.alias_ = some name

theorem cpGetUInt32_numbered {es : List Entry} {k : Chars} {v : UInt32} (numbered : Numbered k es v)
    (read : ∀ k, cpGetString k cp = firstBinding k es) : cpGetUInt32 32 k cp = (true, v) := by
  obtain ⟨text, bound, negative, magnitude, literal, fits, value⟩ := numbered
  rw [cpGetUInt32_literal 32 (hasValue_of_got ((read k).trans bound)) literal]
  congr 1
  apply UInt32.toNat_inj.mp
  have same := @unsignedOf_mod negative magnitude fits
  rw [UInt32.toNat_ofNat']
  omega

theorem requestedExport_asked {es : List Entry} (asked : request.AskedBy es) (parses : Parses p (.ok es)) :
    requestedExport p = some request := by
  obtain ⟨cp, found, read⟩ := readParameters_ok parses
  rw [requestedExport, found, Option.bind_some, exportRequest, read, read, read, asked.moduleName,
    cpGetUInt32_numbered asked.ordinal read, cpGetUInt32_numbered asked.address read]
  dsimp only
  rw [asked.methodName, asked.alias_]
  rfl

/-- The lookups find what was asked for. -/
structure Resolves (request : ExportRequest) (registry after : ModuleRegistry) : Prop where
  ordinal : mrGetMethodByOrdinal request.moduleName request.ordinal after = (true, request.address)
  named : ∀ name, request.IsNamed name → (mrGetMethodByName request.moduleName name registry).1 = false →
    mrGetMethodByName request.moduleName name after = (true, request.address)
  others : ∀ moduleName ordinal, (moduleName, ordinal) ≠ (request.moduleName, request.ordinal) →
    mrGetMethodByOrdinal moduleName ordinal after = mrGetMethodByOrdinal moduleName ordinal registry

theorem ExportRequest.Denotes.isNamed {e : ModuleExport} {name : Chars} (denotes : request.Denotes e) :
    e.IsNamed name ↔ request.IsNamed name := by
  unfold ModuleExport.IsNamed ExportRequest.IsNamed
  rw [denotes.methodName, denotes.alias_]

theorem Exported.resolves (exported : Exported request registry rest o) : Resolves request registry o.registry := by
  obtain ⟨e, denotes, recorded⟩ := exported.recorded
  constructor
  · rw [mrGetMethodByOrdinal_eq, recorded, Contents.find_record, if_pos ⟨rfl, denotes.ordinal⟩]
    exact congrArg (Prod.mk true) denotes.address
  · intro name named new
    rw [mrGetMethodByName_eq] at new
    cases before : (registry.contents.exports request.moduleName).find? fun e => decide (e.IsNamed name) with
    | some e =>
      rw [before] at new
      cases new
    | none =>
      have others : ∀ e ∈ registry.contents.exports request.moduleName, decide (e.IsNamed name) = false :=
        fun e listed => by simpa using List.find?_eq_none.mp before e listed
      have found := @Map.find_amend _ _ _ ModuleExport.ordinal e.ordinal e _ (fun e => decide (e.IsNamed name))
        (decide_eq_true (denotes.isNamed.mpr named)) others
      rw [mrGetMethodByName_eq, recorded, Contents.exports_record, if_pos rfl, found]
      exact congrArg (Prod.mk true) denotes.address
  · intro moduleName ordinal other
    rw [mrGetMethodByOrdinal_eq, mrGetMethodByOrdinal_eq, recorded, Contents.find_record, if_neg]
    rintro ⟨rfl, same⟩
    exact other (congrArg (Prod.mk request.moduleName) (same.symm.trans denotes.ordinal))

/-- However a client writes the pairs that ask for an export, once no
allocation fails it is accepted: the export is found by its ordinal and, unless
another already answered to it, by either name; no other ordinal finds anything
else. Only an export node that could not be allocated stops it. -/
theorem export_registers (alloc : Ledger → Nat → Nat) (request : ExportRequest) (pairs : List Entry) (params : Chars)
    (ctx : CommandContext) (store : ContextStore) (registry : ModuleRegistry) (rest : List Nat)
    (asked : request.AskedBy pairs) (renderable : ∀ e ∈ pairs, Renderable e) (rendering : Rendering pairs params)
    (owned : Held (registry.blocks ++ rest) registry.calls) :
    (processCommandFull alloc (exportPrefix ++ params) ctx store registry = none →
      ∃ earlier, registry.calls <:+ earlier ∧ alloc earlier (sizeofExportNode .target) = 0) ∧
    ∀ o, processCommandFull alloc (exportPrefix ++ params) ctx store registry = some o →
      ¬ Denied alloc registry.calls o.registry.calls →
      o.reply = .silent xboxSOk ∧ Resolves request registry o.registry ∧
        Held (o.registry.blocks ++ rest) o.registry.calls := by
  obtain ⟨lead, body, trail, before, joined, after, rfl⟩ := rendering
  have parses := joined.parses renderable before after
  have found := requestedExport_asked asked parses
  have ends := handleRegisterModuleExport_ends alloc ctx store parses owned
  rw [processCommandFull_export]
  generalize handleRegisterModuleExport alloc _ ctx store registry = x at ends
  cases ends with
  | exported request' found' exported =>
    refine ⟨nofun, fun o' same _ => ?_⟩
    cases same
    cases found.symm.trans found'
    exact ⟨exported.reply, exported.resolves, exported.held⟩
  | refused failed _ _ cause =>
    refine ⟨nofun, fun o' same granted => ?_⟩
    cases same
    rcases cause with none | denied
    · rw [found] at none
      cases none
    · exact absurd denied granted
  | crashed later null => exact ⟨fun _ => ⟨_, later, null⟩, nofun⟩

theorem ordinalOne_registers : ∃ o, processCommandFull bump (exportPrefix ++ ordinalOne) {} {} {} = some o ∧
    mrGetMethodByOrdinal [0x6D] 1 o.registry = (true, 4) := by
  let pairs : List Entry := [⟨ascii "module", some [0x6D]⟩, ⟨ascii "ordinal", some [0x31]⟩, ⟨ascii "addr", some [0x34]⟩]
  have ordinal : Spells [0x31] 1 := ⟨false, 1, readInteger_whole.mp (by decide +kernel), by decide, by decide⟩
  have address : Spells [0x34] 4 := ⟨false, 4, readInteger_whole.mp (by decide +kernel), by decide, by decide⟩
  have asked : ordinalOneRequest.AskedBy pairs :=
    ⟨by decide +kernel, by decide +kernel, by decide +kernel, ⟨_, by decide +kernel, ordinal⟩,
      ⟨_, by decide +kernel, address⟩⟩
  have renderable : ∀ e ∈ pairs, Renderable e := by
    have all : ∀ e ∈ pairs, (e.key ≠ [] ∧ ∀ c ∈ e.key, c ≠ space ∧ c ≠ equals) ∧ 0 ∉ e.key ∧
        ∀ v ∈ e.value, v ≠ [] ∧ 0 ∉ v := by decide +kernel
    exact fun e listed => ⟨⟨(all e listed).1.1, (all e listed).1.2⟩, (all e listed).2.1, (all e listed).2.2⟩
  have rendering : Rendering pairs ordinalOne := by
    refine ⟨[], ordinalOne, [], by simp [Spaces], ?_, by simp [Spaces], rfl⟩
    have blank : Spaces [space] := by simp [Spaces]
    have module_ : Written ⟨ascii "module", some [0x6D]⟩ (ascii "module" ++ equals :: [0x6D]) :=
      .bare _ (by decide) (by decide)
    have ordinal_ : Written ⟨ascii "ordinal", some [0x31]⟩ (ascii "ordinal" ++ equals :: [0x31]) :=
      .bare _ (by decide) (by decide)
    have address_ : Written ⟨ascii "addr", some [0x34]⟩ (ascii "addr" ++ equals :: [0x34]) :=
      .bare _ (by decide) (by decide)
    have joined := Joined.more module_ blank (by simp) (.more ordinal_ blank (by simp) (.last address_))
    have text : ordinalOne = ascii "module" ++ equals :: [0x6D] ++ ([space] ++
        (ascii "ordinal" ++ equals :: [0x31] ++ ([space] ++ (ascii "addr" ++ equals :: [0x34])))) := by decide +kernel
    rw [text]
    exact joined
  obtain ⟨o, processed, -, served⟩ := ordinalOne_processed
  obtain ⟨-, resolves, -⟩ := (export_registers bump ordinalOneRequest pairs ordinalOne {} {} {} [] asked renderable
    rendering (held_live clean_nil)).2 o processed served.not_denied
  exact ⟨o, processed, resolves.ordinal⟩

end Dyndxt.Session
