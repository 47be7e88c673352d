import Dyndxt.Bootstrap.ResolveLoop

/-!
# `.HandleResolve`

What a resolve request is answered with, and for which texts the handler does
so. It takes a looser language than that of the requests: an ordinal before any
base is resolved against the context, a specifier with nothing behind it or with
`0x` alone is a base, and the entries are not counted. The allocation is not
checked, so without a block any entry is written through a null pointer.
-/

namespace Dyndxt.Bootstrap
open Dyndxt.Mem Dyndxt.Run Dyndxt.Pool Dyndxt.Loader
open Dyndxt.Params (digitOf)
open Dyndxt.Session (xboxEFail)

section

variable (alloc : Ledger → Nat → UInt32) (labels : Labels) (ctx response esi : UInt32) (t : Target)

/-- The specifiers, the arguments and the usage message are in memory apart
from the block and the context, and the response is apart from the message and
the context. -/
structure Situated (text usage : List UInt8) : Prop where
  placed : Placed (resolveBlock alloc t) ctx
  standing : Standing labels (resolveBlock alloc t) ctx t.memory esi text
  message : TextAt t.memory labels.gMessageUsageResolve usage
  messageClear : ∀ i ≤ usage.length, ¬ Written (resolveBlock alloc t) ctx (labels.gMessageUsageResolve + .ofNat i)
  responseClear : ∀ i ≤ usage.length, ∀ j ≤ usage.length,
    labels.gMessageUsageResolve + .ofNat j ≠ response + .ofNat i
  contextClear : ∀ i ≤ usage.length,
    (response + .ofNat i).toNat < ctx.toNat ∨ ctx.toNat + 24 ≤ (response + .ofNat i).toNat

/-- The addresses are ready to be sent, each resolved in the memory as it is
when its turn comes. -/
structure Resolves (args : List Argument) (o : Outcome) : Prop where
  code : o.eax = xboxSBinary
  remaining : o.target.ctx.bytesRemaining.toNat = 4 * (entriesOf 0 args).length
  words : ∀ i (inside : i < (entriesOf 0 args).length),
    u32 Build.target.space o.target.memory (o.target.ctx.buffer.toNat + 4 * i) =
      (getExportAddress ((t.begun alloc ctx).storeAll ctx (resolveBlock alloc t) ((entriesOf 0 args).take i)).memory
        (entriesOf 0 args)[i].1 (entriesOf 0 args)[i].2).2

/-- The block is freed and the context cleared. -/
structure Fails (o : Outcome) : Prop where
  code : o.eax = xboxEFail
  freed : o.target.calls = .free (resolveBlock alloc t).toNat :: .alloc (4 * 128) (resolveBlock alloc t).toNat :: t.calls
  userData : o.target.ctx.userData = 0
  buffer : o.target.ctx.buffer = 0
  bufferSize : o.target.ctx.bufferSize = 0
  bytesRemaining : o.target.ctx.bytesRemaining = 0

/-- The handler ends with this outcome. -/
def HandlesTo (o : Outcome) : Prop :=
  ∃ enough, ∀ budget, enough ≤ budget → handleResolve alloc labels budget ctx response esi t = some o

/-- The well-formed requests are answered, all other texts fail, and nothing is
written beyond the block. -/
structure AnswersRequests (text : List UInt8) : Prop where
  wellFormed : ∀ args, WellFormed text args → ∃ o, HandlesTo alloc labels ctx response esi t o ∧ Resolves alloc ctx t args o
  other : (¬ ∃ args, WellFormed text args) → ∃ o, HandlesTo alloc labels ctx response esi t o ∧ Fails alloc t o
  within : ∀ budget n, (run (resolveTurn labels budget ctx) n (resolveStart alloc ctx esi t)).Holds
    (Within (resolveBlock alloc t)) (LeavesWithin (resolveBlock alloc t))

/-- A request has no more entries than its block takes, which is none without
one, and at each of its arguments the pointers tell. A text that is none is
walked to an argument that is refused, with no more entries before it either. -/
structure Answerable (text : List UInt8) : Prop where
  wellFormed : ∀ args, WellFormed text args →
    AllTell labels esi args ∧ (entriesOf 0 args).length ≤ capacity (resolveBlock alloc t)
  other : (¬ ∃ args, WellFormed text args) →
    ∃ entries, entries.length ≤ capacity (resolveBlock alloc t) ∧ Walk labels ctx esi text entries (some false)

end

variable {alloc : Ledger → Nat → UInt32} {labels : Labels} {ctx response esi : UInt32} {t : Target}
  {text usage : List UInt8} {entries : List Entry} {args : List Argument} {s : ResolveState} {budget budget' : Nat}

/-! ## The context -/

theorem load8_storeDword_field {m : Bytes} {q d v : UInt32} (ctxRoom : ctx.toNat + 24 ≤ 2 ^ 32) (inside : d.toNat + 4 ≤ 24)
    (clear : q.toNat < ctx.toNat ∨ ctx.toNat + 24 ≤ q.toNat) : load8 (storeDword m (ctx + d) v) q = load8 m q := by
  have at_ := field_toNat ctxRoom (by omega : d.toNat < 24)
  exact load8_storeDword (by omega) (by omega)

/-- Only the context is written. -/
theorem putContext_outside {m : Bytes} {q u b n r : UInt32} (ctxRoom : ctx.toNat + 24 ≤ 2 ^ 32)
    (clear : q.toNat < ctx.toNat ∨ ctx.toNat + 24 ≤ q.toNat) : load8 (putContext m ctx u b n r) q = load8 m q := by
  unfold putContext
  dsimp only
  iterate 4 rw [load8_storeDword_field ctxRoom (by decide) clear]

theorem load_storeDword_field {m : Bytes} {d d' v : UInt32} (ctxRoom : ctx.toNat + 24 ≤ 2 ^ 32) (inside : d.toNat + 4 ≤ 24)
    (inside' : d'.toNat + 4 ≤ 24) (apart : d.toNat + 4 ≤ d'.toNat ∨ d'.toNat + 4 ≤ d.toNat) :
    load (storeDword m (ctx + d) v) (ctx + d') = load m (ctx + d') := by
  have at_ := field_toNat ctxRoom (by omega : d.toNat < 24)
  have at' := field_toNat ctxRoom (by omega : d'.toNat < 24)
  exact load_storeDword_apart (by omega) (by omega) (by omega)

/-- What was put in the context is read back. -/
theorem getContext_putContext {m : Bytes} {u b n r : UInt32} (context : CommandContext) (ctxRoom : ctx.toNat + 24 ≤ 2 ^ 32) :
    getContext (putContext m ctx u b n r) ctx context =
      { context with userData := u, buffer := b, bufferSize := n, bytesRemaining := r } := by
  have fields {d d' v : UInt32} {m : Bytes} := @load_storeDword_field ctx m d d' v ctxRoom
  unfold getContext putContext
  dsimp only
  congr 1
  · rw [fields (by decide) (by decide) (by decide), fields (by decide) (by decide) (by decide), load_storeDword]
  · rw [fields (by decide) (by decide) (by decide), load_storeDword]
  · rw [fields (by decide) (by decide) (by decide), fields (by decide) (by decide) (by decide),
      fields (by decide) (by decide) (by decide), load_storeDword]
  · rw [load_storeDword]

/-- Two memories with the same context in them. -/
theorem getContext_congr {m m' : Bytes} {context : CommandContext} (ctxRoom : ctx.toNat + 24 ≤ 2 ^ 32)
    (same : ∀ q : UInt32, ctx.toNat ≤ q.toNat → q.toNat < ctx.toNat + 24 → load8 m' q = load8 m q) :
    getContext m' ctx context = getContext m ctx context := by
  have field (d : UInt32) (inside : d.toNat + 4 ≤ 24) : load m' (ctx + d) = load m (ctx + d) := by
    refine load_congr fun i lt => ?_
    have at_ := field_toNat ctxRoom (by omega : d.toNat < 24)
    have byte : (ctx + d + .ofNat i).toNat = ctx.toNat + d.toNat + i := by
      rw [address_add, at_]
      exact Nat.mod_eq_of_lt (by show _ < 2 ^ 32; omega)
    exact same _ (by omega) (by omega)
  unfold getContext
  rw [field _ (by decide), field _ (by decide), field _ (by decide), field _ (by decide)]

/-! ## The handler -/

/-- The context is put into memory, and nothing else changed there. -/
theorem begun_outside (placed : Placed (resolveBlock alloc t) ctx) :
    Outside (resolveBlock alloc t) ctx t.memory (t.begun alloc ctx).memory := by
  intro q clear
  unfold Written at clear
  exact putContext_outside placed.ctxRoom (by omega)

theorem Situated.start (situated : Situated alloc labels ctx response esi t text usage) :
    At labels (resolveBlock alloc t) ctx (resolveStart alloc ctx esi t) ctx esi text 0 :=
  ⟨rfl, rfl, (advance_zero _).symm, Nat.zero_le _, situated.standing.outside (begun_outside situated.placed)⟩

/-- What the loop comes to on every budget that is enough. -/
theorem Situated.runs {result : Option Bool} (situated : Situated alloc labels ctx response esi t text usage)
    (walk : Walk labels ctx esi text entries result) (few : entries.length ≤ capacity (resolveBlock alloc t)) :
    ∃ enough, ∀ budget, enough ≤ budget → ∃ r,
      run (resolveTurn labels budget ctx) budget (resolveStart alloc ctx esi t) = .leave r ∧
        Ends ((t.begun alloc ctx).storeAll ctx (resolveBlock alloc t) entries) r result := by
  obtain ⟨enough, runs⟩ := walk.runs situated.placed situated.start (by omega)
  refine ⟨enough + (text.length + 1), fun budget le => ?_⟩
  obtain ⟨r, left, ends⟩ := (runs budget (by omega)).ends
  exact ⟨r, run_eq_of_le left (by omega), ends⟩

/-- A walk to the NUL ends with the handler that sends. -/
theorem Situated.accepts (situated : Situated alloc labels ctx response esi t text usage)
    (walk : Walk labels ctx esi text entries (some true)) (few : entries.length ≤ capacity (resolveBlock alloc t)) :
    HandlesTo alloc labels ctx response esi t
      { eax := xboxSBinary
        target := ((t.begun alloc ctx).storeAll ctx (resolveBlock alloc t) entries).sending labels ctx } := by
  obtain ⟨enough, runs⟩ := situated.runs walk few
  refine ⟨enough, fun budget le => ?_⟩
  obtain ⟨r, ran, s', rfl, target⟩ := runs budget le
  rw [handleResolve_eq, ran, ← target]
  rfl

/-- The block's address stays where the context has it. -/
theorem storeAll_field (placed : Placed (resolveBlock alloc t) ctx) (few : entries.length ≤ 128) {d : UInt32}
    (inside : d.toNat + 4 ≤ 20) :
    load ((t.begun alloc ctx).storeAll ctx (resolveBlock alloc t) entries).memory (ctx + d) =
      load (t.begun alloc ctx).memory (ctx + d) := by
  have at_ := field_toNat placed.ctxRoom (by omega : d.toNat < 24)
  have apart := placed.apart
  have ctxRoom := placed.ctxRoom
  have same := @storeAll_below (resolveBlock alloc t) ctx entries (t.begun alloc ctx) 0 placed (by omega)
    (ctx + d) (by omega) (by omega) (by omega)
  rwa [Nat.mul_zero, advance_zero] at same

theorem storeAll_userData (placed : Placed (resolveBlock alloc t) ctx) (few : entries.length ≤ 128) :
    load ((t.begun alloc ctx).storeAll ctx (resolveBlock alloc t) entries).memory (ctx + userDataOffset) =
      resolveBlock alloc t :=
  (storeAll_field placed few (by decide)).trans
    (congrArg CommandContext.userData (getContext_putContext {} placed.ctxRoom))

theorem storeAll_buffer (placed : Placed (resolveBlock alloc t) ctx) (few : entries.length ≤ 128) :
    load ((t.begun alloc ctx).storeAll ctx (resolveBlock alloc t) entries).memory (ctx + bufferOffset) =
      resolveBlock alloc t :=
  (storeAll_field placed few (by decide)).trans
    (congrArg CommandContext.buffer (getContext_putContext {} placed.ctxRoom))

/-- A walk to a refused argument ends with the usage message and the block freed. -/
theorem Situated.refuses (situated : Situated alloc labels ctx response esi t text usage)
    (walk : Walk labels ctx esi text entries (some false)) (few : entries.length ≤ capacity (resolveBlock alloc t)) :
    ∃ o, HandlesTo alloc labels ctx response esi t o ∧ Fails alloc t o := by
  obtain ⟨enough, runs⟩ := situated.runs walk few
  have placed := situated.placed
  have most := Nat.le_trans few (capacity_le _)
  have outside := @storeAll_outside (resolveBlock alloc t) ctx entries (t.begun alloc ctx) 0 placed (by omega)
  rw [Nat.mul_zero, advance_zero] at outside
  have user := @storeAll_userData alloc ctx t entries placed most
  obtain ⟨memory, spares⟩ := @Target.storeAll_spares ctx (resolveBlock alloc t) entries (t.begun alloc ctx)
  generalize all : (t.begun alloc ctx).storeAll ctx (resolveBlock alloc t) entries = t' at runs outside user spares
  have message : TextAt (t'.withdrawn ctx).memory labels.gMessageUsageResolve usage := by
    refine situated.message.congr fun i le => ?_
    have clear := situated.messageClear i le
    refine (putContext_outside placed.ctxRoom ?_).trans ((outside _ clear).trans (begun_outside placed _ clear))
    unfold Written at clear
    omega
  obtain ⟨enough', copies⟩ := strcpy_copies message situated.responseClear
  have context : getContext (write (t'.withdrawn ctx).memory response (usage ++ [0])) ctx t'.ctx =
      { t'.ctx with userData := 0, buffer := 0, bufferSize := 0, bytesRemaining := 0 } := by
    rw [← getContext_putContext t'.ctx placed.ctxRoom]
    refine getContext_congr placed.ctxRoom fun q low high => load8_apart fun i inside there => ?_
    rw [List.length_append, List.length_singleton] at inside
    have clear := situated.contextClear i (by omega)
    rw [← there] at clear
    omega
  refine ⟨{
    eax := xboxEFail
    target := Target.readBack ctx { t'.withdrawn ctx with memory := write (t'.withdrawn ctx).memory response (usage ++ [0]) } },
    ⟨enough + enough', fun budget le => ?_⟩, rfl, ?_, ?_, ?_, ?_, ?_⟩
  · obtain ⟨r, ran, s', rfl, target⟩ := runs budget (by omega)
    have copied := copies budget (by omega)
    rw [handleResolve_eq, ran]
    show (respond budget response labels.gMessageUsageResolve xboxEFail (s'.target.withdrawn ctx)).map _ = _
    rw [target]
    unfold respond
    rw [copied]
    rfl
  · show .free (load t'.memory (ctx + userDataOffset)).toNat :: t'.calls = _
    rw [user, spares]
    rfl
  · exact congrArg CommandContext.userData context
  · exact congrArg CommandContext.buffer context
  · exact congrArg CommandContext.bufferSize context
  · exact congrArg CommandContext.bytesRemaining context

/-- A walk into a digit run has no outcome. -/
theorem Situated.hangs (situated : Situated alloc labels ctx response esi t text usage)
    (walk : Walk labels ctx esi text entries none) (few : entries.length ≤ capacity (resolveBlock alloc t)) (o : Outcome) :
    ¬ HandlesTo alloc labels ctx response esi t o := by
  rintro ⟨enough, handles⟩
  obtain ⟨enough', runs⟩ := situated.runs walk few
  obtain ⟨r, ran, none⟩ := runs (enough + enough') (by omega)
  have handled := handles (enough + enough') (by omega)
  rw [handleResolve_eq, ran, show r = .none from none] at handled
  exact nomatch handled

/-- The first entry is not written without a block. -/
theorem Situated.crashes {result : Option Bool} (situated : Situated alloc labels ctx response esi t text usage)
    (null : resolveBlock alloc t = 0) (walk : Walk labels ctx esi text entries result) (some : entries ≠ []) (o : Outcome) :
    ¬ HandlesTo alloc labels ctx response esi t o := by
  rintro ⟨enough, handles⟩
  have placed := situated.placed
  have start := @Situated.start alloc labels ctx response esi t text usage situated
  rw [null] at placed start
  obtain ⟨enough', runs⟩ := walk.crashes placed start some
  obtain ⟨r, left, none⟩ := (runs (enough + enough' + (text.length + 1)) (by omega)).ends
  have handled := handles (enough + enough' + (text.length + 1)) (by omega)
  rw [handleResolve_eq, run_eq_of_le left (by omega), show r = .none from none] at handled
  exact nomatch handled

/-- More entries than the block takes: there is no block, or they overrun it. -/
theorem beyond_capacity {buffer : UInt32} (many : ¬ entries.length ≤ capacity buffer) :
    buffer = 0 ∧ entries ≠ [] ∨ buffer ≠ 0 ∧ 128 < entries.length := by
  by_cases null : buffer = 0
  · refine .inl ⟨null, ?_⟩
    rintro rfl
    exact many (Nat.zero_le _)
  · rw [capacity_some null] at many
    exact .inr ⟨null, Nat.lt_of_not_le many⟩

theorem HandlesTo.unique {o o' : Outcome} (handles : HandlesTo alloc labels ctx response esi t o)
    (handles' : HandlesTo alloc labels ctx response esi t o') : o = o' := by
  obtain ⟨enough, handles⟩ := handles
  obtain ⟨enough', handles'⟩ := handles'
  exact Option.some.inj ((handles (enough + enough') (by omega)).symm.trans (handles' (enough + enough') (by omega)))

/-! ## The write pointer -/

theorem parseArg_mono {m : Bytes} {eax edi : UInt32} {ecx : Nat} {arg : ParsedArg} (le : budget ≤ budget')
    (parsed : parseArg budget m eax esi edi ecx = some arg) : parseArg budget' m eax esi edi ecx = some arg := by
  unfold parseArg at parsed ⊢
  dsimp only at parsed ⊢
  split at parsed
  · next mismatch => rwa [if_pos mismatch]
  · next matched =>
    rw [if_neg matched]
    cases read : parseInteger budget m esi (repeCmpsb m ecx esi edi).2.1 with
    | none => rw [read] at parsed; exact nomatch parsed
    | some r =>
      rw [read] at parsed
      rw [parseInteger_mono le read]
      exact parsed

/-- A smaller budget does not finish a round or does the same. -/
theorem resolveTurn_cut (le : budget ≤ budget') (s : ResolveState) :
    resolveTurn labels budget ctx s = .leave none ∨ resolveTurn labels budget ctx s = resolveTurn labels budget' ctx s := by
  unfold resolveTurn
  cases base : parseArg budget s.target.memory s.eax s.esi labels.gBaseArg argLen with
  | none => exact .inl rfl
  | some arg =>
    rw [parseArg_mono le base]
    dsimp only
    split
    · exact .inr rfl
    · split
      · exact .inr rfl
      · cases ordinal : parseArg budget s.target.memory arg.eax arg.esi labels.gOrdinalArg argLen with
        | none => exact .inl rfl
        | some arg' =>
          rw [parseArg_mono le ordinal]
          exact .inr rfl

/-- On no budget is anything written beyond the block. -/
theorem Situated.within {result : Option Bool} (situated : Situated alloc labels ctx response esi t text usage)
    (walk : Walk labels ctx esi text entries result) (few : entries.length ≤ capacity (resolveBlock alloc t))
    (budget n : Nat) :
    (run (resolveTurn labels budget ctx) n (resolveStart alloc ctx esi t)).Holds
      (Within (resolveBlock alloc t)) (LeavesWithin (resolveBlock alloc t)) := by
  obtain ⟨enough, runs⟩ := walk.runs situated.placed situated.start (by omega)
  have whole := (runs (budget + enough) (by omega)).within n
  exact run_holds_of_cut (resolveTurn_cut (by omega)) (fun valid s none => nomatch none) n whole

/-! ## Requests -/

/-- A request is walked to the NUL, or to an argument whose pointers do not tell. -/
theorem WellFormed.walk (wellFormed : WellFormed text args) (labels : Labels) (ctx esi : UInt32) :
    (AllTell labels esi args → Walk labels ctx esi text (entriesOf 0 args) (some true)) ∧
    (¬ AllTell labels esi args → ∃ entries, entries.length ≤ 128 ∧ Walk labels ctx esi text entries (some false)) := by
  obtain ⟨rfl, ⟨digits, rest, rfl⟩, valid, few⟩ := wellFormed
  obtain ⟨told, untold⟩ := @walk_valid labels ctx esi _ (List.cons_ne_nil _ _) valid (.inr ⟨digits, rest, rfl⟩)
  refine ⟨told, fun none => ?_⟩
  obtain ⟨entries, le, walk⟩ := untold none
  exact ⟨entries, Nat.le_trans le few, walk⟩

/-- The entries of a request in the block. -/
theorem Situated.resolves (situated : Situated alloc labels ctx response esi t text usage)
    (few : (entriesOf 0 args).length ≤ 128) : Resolves alloc ctx t args
      { eax := xboxSBinary
        target := ((t.begun alloc ctx).storeAll ctx (resolveBlock alloc t) (entriesOf 0 args)).sending labels ctx } := by
  have placed := situated.placed
  have apart := placed.apart
  have ctxRoom := placed.ctxRoom
  have room := placed.room
  constructor
  · rfl
  · have counted := @storeAll_counts (resolveBlock alloc t) ctx (entriesOf 0 args) (t.begun alloc ctx) 0 placed (by omega)
    rw [Nat.mul_zero, advance_zero] at counted
    have zero : load (t.begun alloc ctx).memory (ctx + bytesRemainingOffset) = 0 :=
      congrArg CommandContext.bytesRemaining (getContext_putContext {} ctxRoom)
    show (load (storeDword _ (ctx + handlerOffset) _) (ctx + bytesRemainingOffset)).toNat = _
    rw [load_storeDword_field ctxRoom (by decide) (by decide) (by decide), counted, zero, UInt32.zero_add,
      UInt32.toNat_ofNat']
    exact Nat.mod_eq_of_lt (by omega)
  · intro i inside
    have buffer : load (storeDword ((t.begun alloc ctx).storeAll ctx (resolveBlock alloc t) (entriesOf 0 args)).memory
        (ctx + handlerOffset) labels.sendResolvedExports) (ctx + bufferOffset) = resolveBlock alloc t := by
      rw [load_storeDword_field ctxRoom (by decide) (by decide) (by decide), storeAll_buffer placed few]
    have slot := slot_toNat room (by omega : i ≤ 128)
    have field := field_toNat ctxRoom (d := handlerOffset) (by decide)
    have d : handlerOffset.toNat = 0 := rfl
    have word := @storeAll_word (resolveBlock alloc t) ctx (entriesOf 0 args) (t.begun alloc ctx) i 0 placed (by omega) inside
    rw [Nat.mul_zero, advance_zero, Nat.zero_add] at word
    show u32 _ (storeDword _ (ctx + handlerOffset) _) ((load _ (ctx + bufferOffset)).toNat + 4 * i) = _
    rw [buffer, ← slot, ← word]
    exact load_storeDword_apart (by omega) (by omega) (by omega)

/-- The handler answers exactly the well-formed requests, for the texts that are
answerable and for no other. -/
theorem handleResolve_answers (alloc : Ledger → Nat → UInt32) (labels : Labels) (ctx response esi : UInt32) (t : Target)
    (text usage : List UInt8) (situated : Situated alloc labels ctx response esi t text usage) :
    AnswersRequests alloc labels ctx response esi t text ↔ Answerable alloc labels ctx esi t text := by
  constructor
  · rintro ⟨wellFormed, other, within⟩
    constructor
    · intro args request
      obtain ⟨o, handles, resolves⟩ := wellFormed args request
      have told : AllTell labels esi args := by
        by_contra untold
        obtain ⟨entries, few, walk⟩ := (request.walk labels ctx esi).2 untold
        by_cases fits : entries.length ≤ capacity (resolveBlock alloc t)
        · obtain ⟨o', handles', fails⟩ := situated.refuses walk fits
          rw [handles.unique handles'] at resolves
          exact nomatch resolves.code.symm.trans fails.code
        · obtain ⟨null, some⟩ | ⟨-, many⟩ := beyond_capacity fits
          · exact situated.crashes null walk some o handles
          · omega
      refine ⟨told, ?_⟩
      by_contra many
      have walk := (request.walk labels ctx esi).1 told
      obtain ⟨null, some⟩ | ⟨-, many⟩ := beyond_capacity many
      · exact situated.crashes null walk some o handles
      · have few := request.few
        omega
    · intro none
      obtain ⟨entries, result, walk⟩ := walk_total labels ctx esi text
      obtain ⟨o, handles, fails⟩ := other none
      have few : entries.length ≤ capacity (resolveBlock alloc t) := by
        by_contra many
        obtain ⟨null, some⟩ | ⟨block, many⟩ := beyond_capacity many
        · exact situated.crashes null walk some o handles
        · obtain ⟨enough, beyond⟩ := walk.overruns situated.placed block situated.start (by omega)
          obtain ⟨n, beyond⟩ := beyond enough (Nat.le_refl _)
          exact beyond (within enough n)
      match result, walk with
      | some false, walk => exact ⟨entries, few, walk⟩
      | some true, walk =>
        rw [handles.unique (situated.accepts walk few)] at fails
        exact nomatch fails.code
      | .none, walk => exact absurd handles (situated.hangs walk few o)
  · rintro ⟨wellFormed, other⟩
    have walks : ∃ entries result, entries.length ≤ capacity (resolveBlock alloc t) ∧
        Walk labels ctx esi text entries result := by
      by_cases request : ∃ args, WellFormed text args
      · obtain ⟨args, request⟩ := request
        obtain ⟨told, few⟩ := wellFormed args request
        exact ⟨_, _, few, (request.walk labels ctx esi).1 told⟩
      · obtain ⟨entries, few, walk⟩ := other request
        exact ⟨entries, _, few, walk⟩
    obtain ⟨entries, result, few, walk⟩ := walks
    refine ⟨fun args request => ?_, fun none => ?_, situated.within walk few⟩
    · obtain ⟨told, few⟩ := wellFormed args request
      have walk := (request.walk labels ctx esi).1 told
      exact ⟨_, situated.accepts walk few, situated.resolves request.few⟩
    · obtain ⟨entries, few, walk⟩ := other none
      exact situated.refuses walk few

/-! ## Runs -/

/-- A pool whose next block is at `0x80000`. -/
def pool (_ : Ledger) (_ : Nat) : UInt32 := 0x80000

/-- A connection at a command. -/
def connected (command : String) : Target := { memory := memoryWith command, ctx := {}, data := {}, calls := [] }

def usageResolve : List UInt8 := ascii "Usage \"r [b=<base_hex> [o=<ordinal>]]\""

theorem request_answered : WellFormed (ascii "b=0x5000 o=0x1") [.base (ascii "5000"), .ordinal (ascii "1")] ∧
    AnswersRequests pool labelsAt 0x4000 0x2000 0x1007 (connected "ldxt!r b=0x5000 o=0x1") (ascii "b=0x5000 o=0x1") := by
  have request : WellFormed (ascii "b=0x5000 o=0x1") [.base (ascii "5000"), .ordinal (ascii "1")] := by
    refine ⟨by decide +kernel, ⟨_, _, rfl⟩, fun arg listed => ?_, by decide +kernel⟩
    obtain rfl | rfl := List.mem_pair.mp listed
    · exact ⟨by decide +kernel, show ∀ c ∈ ascii "5000", (digitOf 16 c).isSome by decide +kernel, by decide +kernel⟩
    · exact ⟨by decide +kernel, show ∀ c ∈ ascii "1", (digitOf 16 c).isSome by decide +kernel, by decide +kernel⟩
  have situated : Situated pool labelsAt 0x4000 0x2000 0x1007 (connected "ldxt!r b=0x5000 o=0x1") (ascii "b=0x5000 o=0x1")
      usageResolve := by
    refine ⟨by decide, ⟨?_, ?_, ?_, ?_, ?_, ?_⟩, ?_, ?_, ?_, ?_⟩ <;> decide +kernel
  refine ⟨request, (handleResolve_answers _ _ 0x4000 _ _ _ _ _ situated).mpr
    ⟨fun args request' => ⟨?_, request'.few⟩, fun none => absurd ⟨_, request⟩ none⟩⟩
  by_contra untold
  obtain ⟨entries, -, walk⟩ := (request'.walk labelsAt 0x4000 0x1007).2 untold
  have walk' := (request.walk labelsAt 0x4000 0x1007).1 ⟨by decide, by decide, trivial⟩
  exact nomatch (walk.unique walk').2

/-- `o=0x1` with no base is resolved against the context. -/
theorem orphanOrdinal_resolved : (¬ ∃ args, WellFormed (ascii "o=0x1") args) ∧
    (∃ o, HandlesTo pool labelsAt 0x4000 0x2000 0x1007 (connected "ldxt!r o=0x1") o ∧ o.eax = xboxSBinary) ∧
    ¬ AnswersRequests pool labelsAt 0x4000 0x2000 0x1007 (connected "ldxt!r o=0x1") (ascii "o=0x1") := by
  have none : ¬ ∃ args, WellFormed (ascii "o=0x1") args := by
    rintro ⟨_, same, ⟨digits, rest, rfl⟩, -, -⟩
    have first : (requestText (.base digits :: rest)).head? = some 0x62 := by cases rest <;> rfl
    rw [← same] at first
    exact absurd first (by decide +kernel)
  have situated : Situated pool labelsAt 0x4000 0x2000 0x1007 (connected "ldxt!r o=0x1") (ascii "o=0x1") usageResolve := by
    refine ⟨by decide, ⟨?_, ?_, ?_, ?_, ?_, ?_⟩, ?_, ?_, ?_, ?_⟩ <;> decide +kernel
  have walk : Walk labelsAt 0x4000 0x1007 (ascii "o=0x1") [(0x4000, 1)] (some true) :=
    .last (show readArgument labelsAt 0x4000 0x1007 (ascii "o=0x1") = .taken 0x4000 [(0x4000, 1)] [] by decide +kernel)
  have handles := @Situated.accepts _ _ _ _ _ _ _ _ _ situated walk (by decide +kernel)
  refine ⟨none, ⟨_, handles, rfl⟩, fun answers => ?_⟩
  obtain ⟨o, handles', fails⟩ := answers.other none
  rw [handles'.unique handles] at fails
  exact nomatch fails.code

end Dyndxt.Bootstrap
