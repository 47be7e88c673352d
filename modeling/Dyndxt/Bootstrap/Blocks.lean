import Mathlib.Logic.Function.Basic
import Dyndxt.Pool.Held
import Dyndxt.Bootstrap.Resolve

/-!
# The bootstrap's blocks

Connections that give their commands and make their transfers in any order. A
block that `r` allocates is freed once, at the end of its transfer or with the
usage error; one that `a` allocates stays. `r` checks neither its allocation nor
how many entries it stores, and behind its block they may reach the context that
the block is freed by.
-/

namespace Dyndxt.Bootstrap
open Dyndxt.Mem Dyndxt.Run Dyndxt.Pool Dyndxt.Loader
open Dyndxt.Session (xboxSOk xboxSSendBinary xboxSNoMoreData xboxEUnexpected xboxEFail xboxEUnknownCommand
  xboxEAccessDenied)

/-- What the connections share, the blocks that `a` has handed out, those that
the image's code holds, and each connection's own. -/
structure Server (Conn : Type) where
  data : Data
  calls : Ledger
  given : List Nat
  made : List Nat
  ctx : Conn → CommandContext
  unfinished : Conn → Bool

/-- The code at the image's entrypoint, by the blocks that it holds. -/
structure ImageCode where
  run : List Nat → UInt32 → Bytes × Ledger → UInt32 × Bytes × Ledger
  holds : List Nat → UInt32 → Bytes × Ledger → List Nat
  /-- It frees only what it holds. -/
  minds : ∀ made entrypoint s, Minds made s.2 (holds made entrypoint s) (run made entrypoint s).2.2

/-- The blocks that the image's code holds after a call, which runs it when the
last bytes have come. -/
def Connection.made (image : ImageCode) (made : List Nat) (s : Connection) : Call → List Nat
  | .command .. => made
  | .proceed _ memory _ dataSize =>
    if s.ctx.handler = some .receiveImageData ∧ dataSize ≠ 0 ∧ s.ctx.bytesRemaining - dataSize = 0 then
      image.holds made s.data.gImageEntrypoint (memory, s.calls)
    else made

section

variable {Conn : Type} [DecidableEq Conn] (alloc : Ledger → Nat → UInt32) (image : ImageCode) (labels : Labels)
  (ctxAt : Conn → UInt32)

/-- One of the connections. -/
def Server.connection (s : Server Conn) (c : Conn) : Connection where
  ctx := s.ctx c
  data := s.data
  calls := s.calls
  unfinished := s.unfinished c
  block := none
  installed := false
  sized := false

/-- The server after a call on `c` that leaves it as `s'` and the image's code
with these blocks. -/
def Server.with (s : Server Conn) (c : Conn) (s' : Connection) (made : List Nat) : Server Conn where
  data := s'.data
  calls := s'.calls
  given := s'.block.toList.map Block.address ++ s.given
  made
  ctx := Function.update s.ctx c s'.ctx
  unfinished := Function.update s.unfinished c s'.unfinished

/-- A call on one of the connections, whose contexts are at `ctxAt`. -/
def Server.exec (s : Server Conn) : Conn × Call → Option (Server Conn)
  | (c, call) => ((s.connection c).exec alloc (image.run s.made) labels (ctxAt c) call).map fun s' =>
    s.with c s' ((s.connection c).made image s.made call)

/-- The allocation is made, and the entries fit the block. -/
structure Fits (budget : Nat) (ctx esi : UInt32) (t : Target) : Prop where
  granted : resolveBlock alloc t ≠ 0
  placed : Placed (resolveBlock alloc t) ctx
  within : ∀ n, (run (resolveTurn labels budget ctx) n (resolveStart alloc ctx esi t)).Holds
    (Within (resolveBlock alloc t)) (LeavesWithin (resolveBlock alloc t))

/-- What `r` does not check is so, and its block is apart from all contexts. -/
def ResolveFits (s : Server Conn) : Conn × Call → Prop
  | (c, .command budget memory command _) => subcommand memory command = 0x72 →
      Fits alloc labels budget (ctxAt c) (command + 5 + 1 + 1) ((s.connection c).target memory) ∧
        ∀ c', Placed (resolveBlock alloc ((s.connection c).target memory)) (ctxAt c')
  | (_, .proceed ..) => True

end

/-- The connection is sent what was resolved. -/
def Connection.Resolving (s : Connection) : Prop :=
  s.unfinished = true ∧ s.ctx.handler = some .sendResolvedExports

/-- What is live: the buffers of the connections that are sent what was
resolved, what `a` handed out and what the image's code holds. -/
structure Server.Settled {Conn : Type} (s : Server Conn) (sending : List Conn) : Prop where
  nodup : sending.Nodup
  resolving : ∀ c, c ∈ sending ↔ (s.connection c).Resolving
  held : Held (sending.map (fun c => (s.ctx c).userData.toNat) ++ (s.given ++ s.made)) s.calls

variable {Conn : Type} [DecidableEq Conn] {alloc : Ledger → Nat → UInt32}
  {dxtMain : UInt32 → Bytes × Ledger → UInt32 × Bytes × Ledger} {image : ImageCode} {labels : Labels} {ctxAt : Conn → UInt32}
  {budget : Nat} {memory : Bytes} {command response ctx eax esi : UInt32} {t : Target} {o : Outcome}
  {s s' : Server Conn} {c : Conn} {sending : List Conn} {made made' : List Nat}

/-! ## What one call does to the pool -/

/-- The block is in the context, and the entries so far are in the block. -/
structure HasBlock (block ctx : UInt32) (s : ResolveState) : Prop where
  userData : load s.target.memory (ctx + userDataOffset) = block
  stored : ∃ k ≤ 128, s.ebx = block + .ofNat (4 * k)

/-- The argument loop leaves it there. -/
def LeavesBlock (block ctx : UInt32) : Option (Bool × ResolveState) → Prop
  | none => True
  | some (_, s) => HasBlock block ctx s

theorem checkSpace_block {s : ResolveState} {block : UInt32} (same : HasBlock block ctx s) :
    (checkSpace s).Holds (HasBlock block ctx) (LeavesBlock block ctx) := by
  unfold checkSpace
  dsimp only
  split
  · exact ⟨same.userData, same.stored⟩
  · exact same

/-- An entry that fits the block is apart from the context. -/
theorem HasBlock.store {s : ResolveState} {block : UInt32} (has : HasBlock block ctx s) (placed : Placed block ctx)
    (within : (checkSpace (storeExport ctx s)).Holds (Within block) (LeavesWithin block)) :
    HasBlock block ctx (storeExport ctx s) := by
  obtain ⟨userData, k, few, slot⟩ := has
  have next : (storeExport ctx s).ebx = block + .ofNat (4 * (k + 1)) := by
    show s.ebx + 4 = _
    rw [slot, next_slot]
  have fits : Within block (storeExport ctx s) := by
    have kept := checkSpace_ebx (storeExport ctx s)
    cases space : checkSpace (storeExport ctx s) with
    | again s' =>
      rw [space] at within kept
      have same : s'.ebx = (storeExport ctx s).ebx := kept
      rw [Within, ← same]
      exact within
    | leave r =>
      rw [space] at within kept
      obtain ⟨valid, left⟩ := kept
      exact within valid _ left
  have one := (within_iff next (by omega)).mp fits
  have at_ := slot_toNat placed.room few
  have field := field_toNat placed.ctxRoom (d := userDataOffset) (by decide)
  have d : userDataOffset.toNat = 16 := rfl
  have room := placed.room
  have ctxRoom := placed.ctxRoom
  have apart := placed.apart
  refine ⟨?_, k + 1, one, next⟩
  rw [← userData]
  refine (load_countEntry ctxRoom (by omega) (by omega)).trans ?_
  rw [slot]
  exact load_storeDword_apart (by omega) (by omega) (by omega)

/-- A round that stays in the block leaves the context's `user_data`. -/
theorem resolveTurn_block {s : ResolveState} {block : UInt32} (placed : Placed block ctx) (has : HasBlock block ctx s)
    (within : (resolveTurn labels budget ctx s).Holds (Within block) (LeavesWithin block)) :
    (resolveTurn labels budget ctx s).Holds (HasBlock block ctx) (LeavesBlock block ctx) := by
  have read (arg : ParsedArg) : HasBlock block ctx (s.after arg) := ⟨has.userData, has.stored⟩
  unfold resolveTurn at within ⊢
  split
  · trivial
  · next arg parsed =>
    rw [parsed] at within
    dsimp only at within ⊢
    split
    · exact checkSpace_block ⟨has.userData, has.stored⟩
    · next other =>
      rw [if_neg other] at within
      split
      · exact read arg
      · next based =>
        rw [if_neg based] at within
        split
        · trivial
        · next arg' parsed' =>
          rw [parsed'] at within
          dsimp only at within ⊢
          split
          · exact read arg'
          · next good =>
            rw [if_neg good] at within
            split
            · trivial
            · next some =>
              rw [if_neg some] at within
              exact checkSpace_block ((read arg').store placed within)

theorem resolveStart_block {esi : UInt32} (ctxRoom : ctx.toNat + 24 ≤ 2 ^ 32) :
    HasBlock (resolveBlock alloc t) ctx (resolveStart alloc ctx esi t) :=
  ⟨congrArg CommandContext.userData (getContext_putContext {} ctxRoom), 0, Nat.zero_le _, (advance_zero _).symm⟩

/-- What `.HandleResolve` does with its block. -/
inductive ResolveBlock (block : UInt32) (t : Target) (o : Outcome) : Prop where
  | sending (code : o.eax = xboxSBinary) (handler : o.target.ctx.handler = some .sendResolvedExports)
      (userData : o.target.ctx.userData = block) (calls : o.target.calls = .alloc (4 * 128) block.toNat :: t.calls)
  | usage (code : o.eax = xboxEFail)
      (calls : o.target.calls = .free block.toNat :: .alloc (4 * 128) block.toNat :: t.calls)

/-- The block that `r` sends or frees is the one that it allocated. -/
theorem handleResolve_block (fits : Fits alloc labels budget ctx esi t)
    (handled : handleResolve alloc labels budget ctx response esi t = some o) : ResolveBlock (resolveBlock alloc t) t o := by
  have ctxRoom := fits.placed.ctxRoom
  obtain ⟨valid, s, ran, ⟨m, same⟩, resolved⟩ := handleResolve_resolves handled
  have has := run_holds_within (fun _ => resolveTurn_block fits.placed) fits.within budget
    (@resolveStart_block alloc ctx t esi ctxRoom)
  rw [ran] at has
  have userData : load s.target.memory (ctx + userDataOffset) = resolveBlock alloc t := has.userData
  have calls : s.target.calls = .alloc (4 * 128) (resolveBlock alloc t).toNat :: t.calls := by
    rw [same]
    rfl
  cases resolved with
  | sending outcome =>
    rw [outcome]
    refine .sending rfl rfl ?_ calls
    show load (storeDword _ (ctx + handlerOffset) _) (ctx + userDataOffset) = _
    rw [load_storeDword_field ctxRoom (by decide) (by decide) (by decide), userData]
  | usage code data freed =>
    refine .usage code (freed.trans ?_)
    rw [userData, calls]

/-- Received bytes touch no block, and the image's code minds the others. -/
theorem Receives.minds {s : Connection} {dataSize : UInt32} (receiving : s.ctx.handler = some .receiveImageData)
    (receives : Receives (image.run made) { s.target memory with ctx := { s.ctx with dataSize } } o) :
    Minds made s.calls (s.made image made (.proceed budget memory response dataSize)) o.target.calls := by
  unfold Connection.made
  dsimp only
  cases receives with
  | failed none spares =>
    rw [if_neg fun both => both.2.1 none]
    intro rest held
    exact spares.calls ▸ held
  | counted some more data handler size calls =>
    rw [if_neg fun both => more both.2.2]
    intro rest held
    exact calls ▸ held
  | ran some last data handler size calls =>
    rw [if_pos ⟨receiving, some, last⟩, calls]
    exact image.minds made s.data.gImageEntrypoint (memory, s.calls)

/-! ## One call on a connection -/

/-- What a call does to the pool and to the blocks of the image's code, and how
it leaves the connection. -/
inductive CallBlock (s s' : Connection) (made made' : List Nat) : Prop where
  | kept : ¬ s.Resolving → ¬ s'.Resolving → s'.block = none → Minds made s.calls made' s'.calls → CallBlock s s' made made'
  | gave (block : Block) : ¬ s.Resolving → ¬ s'.Resolving → s'.block = some block → made' = made →
      (∀ bs, Held bs s.calls → Held (block.address :: bs) s'.calls) → CallBlock s s' made made'
  | begun : ¬ s.Resolving → s'.Resolving → s'.block = none → made' = made →
      (∀ bs, Held bs s.calls → Held (s'.ctx.userData.toNat :: bs) s'.calls) → CallBlock s s' made made'
  | goesOn : s.Resolving → s'.Resolving → s'.block = none → made' = made → s'.ctx.userData = s.ctx.userData →
      s'.calls = s.calls → CallBlock s s' made made'
  | ended : s.Resolving → ¬ s'.Resolving → s'.block = none → made' = made →
      s'.calls = .free s.ctx.userData.toNat :: s.calls → CallBlock s s' made made'

theorem toNat_ne_zero {v : UInt32} (some_ : v ≠ 0) : v.toNat ≠ 0 := fun zero => some_ (UInt32.toNat_inj.mp zero)

/-- A connection that has not begun a transfer. -/
theorem not_resolving {s : Connection} (finished : s.unfinished = false) : ¬ s.Resolving := fun ⟨busy, _⟩ =>
  nomatch finished.symm.trans busy

/-- An `i` leaves the pool alone. -/
theorem commanded_install {s : Connection} (idle : ¬ s.Resolving) (none : s.block = none)
    (handled : handleInstall labels budget response eax esi (s.target memory) = some o) :
    CallBlock s (s.commanded 0x69 o) made made := by
  unfold Connection.commanded
  dsimp only
  rw [if_pos rfl]
  cases handleInstall_installs handled with
  | usage code spares =>
    refine .kept idle (not_resolving (not_begun code (by decide) (by decide))) none fun rest held => ?_
    exact spares.calls ▸ held
  | started code buffer remaining size data handler calls =>
    refine .kept idle ?_ none fun rest held => calls ▸ held
    rintro ⟨-, sending⟩
    cases handler.symm.trans sending

/-- An `a` hands out its block or none. -/
theorem commanded_alloc {s : Connection} (idle : ¬ s.Resolving) (none : s.block = none)
    (handled : handleAlloc alloc labels budget response eax esi (s.target memory) = some o) :
    CallBlock s (s.commanded 0x61 o) made made := by
  unfold Connection.commanded
  dsimp only
  rw [if_neg (show ¬ (0x61 : UInt8) = 0x69 by decide), if_pos rfl]
  cases handleAlloc_allocates handled with
  | usage code spares =>
    rw [if_neg (by rw [code]; decide)]
    refine .kept idle (not_resolving (not_begun code (by decide) (by decide))) none fun rest held => ?_
    exact spares.calls ▸ held
  | denied size code ctx data calls =>
    rw [if_neg (by rw [code]; decide)]
    refine .kept idle (not_resolving (not_begun code (by decide) (by decide))) none fun rest held => ?_
    show Held (made ++ rest) o.target.calls
    rw [calls]
    exact held.allocNull
  | done size block code ctx data calls granted =>
    rw [if_pos code]
    refine .gave ⟨block.toNat, size.toNat⟩ idle (not_resolving (not_begun code (by decide) (by decide))) ?_ rfl fun bs held => ?_
    · show lastBlock o.target.calls = _
      rw [calls]
      rfl
    · show Held (block.toNat :: bs) o.target.calls
      rw [calls]
      exact held.alloc (toNat_ne_zero granted)

/-- An `r` begins a transfer with its block, or has freed it. -/
theorem commanded_resolve {s : Connection} (idle : ¬ s.Resolving) (none : s.block = none)
    (fits : Fits alloc labels budget ctx esi (s.target memory))
    (handled : handleResolve alloc labels budget ctx response esi (s.target memory) = some o) :
    CallBlock s (s.commanded 0x72 o) made made := by
  unfold Connection.commanded
  dsimp only
  rw [if_neg (show ¬ (0x72 : UInt8) = 0x69 by decide), if_neg (show ¬ (0x72 : UInt8) = 0x61 by decide), if_pos rfl]
  have granted := toNat_ne_zero fits.granted
  cases handleResolve_block fits handled with
  | sending code handler userData calls =>
    refine .begun idle ⟨decide_eq_true (.inr code), handler⟩ none rfl fun bs held => ?_
    show Held (o.target.ctx.userData.toNat :: bs) o.target.calls
    rw [userData, calls]
    exact held.alloc granted
  | usage code calls =>
    refine .kept idle (not_resolving (not_begun code (by decide) (by decide))) none fun rest held => ?_
    show Held (made ++ rest) o.target.calls
    rw [calls]
    exact (held.alloc granted).free

/-- What a command does to the pool, by its letter. -/
theorem commanded_block {s : Connection} (idle : ¬ s.Resolving) (none : s.block = none)
    (fits : subcommand memory command = 0x72 → Fits alloc labels budget ctx (command + 5 + 1 + 1) (s.target memory))
    (handled : processCommand alloc labels budget command response ctx (s.target memory) = some o) :
    CallBlock s (s.commanded (subcommand memory command) o) made made := by
  unfold processCommand at handled
  dsimp only at handled
  have al : subcommand (s.target memory).memory command = subcommand memory command := rfl
  rw [al] at handled
  split at handled
  · next install =>
    rw [install] at handled ⊢
    exact commanded_install idle none handled
  · next other =>
    split at handled
    · next allocate =>
      rw [allocate] at handled ⊢
      exact commanded_alloc idle none handled
    · next other' =>
      split at handled
      · next resolve =>
        rw [resolve]
        exact commanded_resolve idle none (fits resolve) handled
      · next unknown =>
        cases handled
        unfold Connection.commanded
        dsimp only
        rw [if_neg other, if_neg other', if_neg unknown]
        have begun := @not_begun xboxEUnknownCommand _ rfl (by decide) (by decide)
        exact .kept idle (not_resolving begun) none fun rest held => held

/-- The transfer goes on, or the block is freed at its end. -/
theorem sent_block {s : Connection} (resolving : s.Resolving) (none : s.block = none) :
    CallBlock s (s.proceeded ((sendResolvedExports (s.target memory)).eax = xboxSOk)
      (sendResolvedExports (s.target memory))) made made := by
  unfold sendResolvedExports
  dsimp only
  split
  · exact .goesOn resolving ⟨rfl, resolving.2⟩ none rfl rfl rfl
  · exact .ended resolving (not_resolving rfl) none rfl rfl

/-- Only the image's code, after the last bytes, changes the pool. -/
theorem received_block {s : Connection} {goesOn : Bool} {dataSize : UInt32}
    (receiving : s.ctx.handler = some .receiveImageData) (none : s.block = none)
    (handled : receiveImageData labels budget (image.run made) response
      { s.target memory with ctx := { s.ctx with dataSize } } = some o) :
    CallBlock s (s.proceeded goesOn o) made (s.made image made (.proceed budget memory response dataSize)) := by
  have receives := receiveImageData_receives handled
  refine .kept (fun resolving => ?_) (fun resolving => ?_) none (receives.minds receiving)
  · cases receiving.symm.trans resolving.2
  · obtain ⟨-, handler, -⟩ := receives.leaves
    cases (handler.trans receiving).symm.trans resolving.2

/-- What one call does to the pool. -/
theorem exec_block {s s' : Connection} {call : Call} (none : s.block = none)
    (fits : ∀ budget memory command response, call = .command budget memory command response →
      subcommand memory command = 0x72 → Fits alloc labels budget ctx (command + 5 + 1 + 1) (s.target memory))
    (next : s.exec alloc (image.run made) labels ctx call = some s') : CallBlock s s' made (s.made image made call) := by
  cases call with
  | command budget memory command response =>
    unfold Connection.exec at next
    dsimp only at next
    split at next
    · cases next
    · next idle =>
      obtain ⟨o, handled, rfl⟩ := Option.map_eq_some_iff.mp next
      exact commanded_block (fun resolving => idle resolving.1) none (fits _ _ _ _ rfl) handled
  | proceed budget memory response dataSize =>
    unfold Connection.exec at next
    dsimp only at next
    split at next
    · cases next
    · next busy =>
      split at next
      · cases next
      · next sending =>
        cases next
        have kept : s.made image made (.proceed budget memory response dataSize) = made :=
          if_neg fun both => absurd (sending.symm.trans both.1) (by decide)
        rw [kept]
        exact sent_block ⟨Bool.eq_true_of_not_eq_false busy, sending⟩ none
      · next receiving =>
        split at next
        · cases next
        · obtain ⟨o, handled, rfl⟩ := Option.map_eq_some_iff.mp next
          exact received_block receiving none handled

/-! ## Connections together -/

variable {sc : Connection}

theorem ctx_self : (s.with c sc made).ctx c = sc.ctx := by
  show Function.update s.ctx c sc.ctx c = sc.ctx
  rw [Function.update_self]

theorem ctx_other {c' : Conn} (other : c' ≠ c) : (s.with c sc made).ctx c' = s.ctx c' := by
  show Function.update s.ctx c sc.ctx c' = s.ctx c'
  rw [Function.update_of_ne other]

/-- What was handed out before, if the call hands out nothing. -/
theorem given_none (none : sc.block = none) : (s.with c sc made).given = s.given := by
  rw [Server.with, none]
  rfl

theorem resolving_self : ((s.with c sc made).connection c).Resolving ↔ sc.Resolving := by
  simp only [Connection.Resolving, Server.connection, Server.with, Function.update_self]

theorem resolving_other {c' : Conn} (other : c' ≠ c) :
    ((s.with c sc made).connection c').Resolving ↔ (s.connection c').Resolving := by
  simp only [Connection.Resolving, Server.connection, Server.with, Function.update_of_ne other]

/-- The buffers of connections other than the one called. -/
theorem buffers_other {cs : List Conn} (absent : c ∉ cs) :
    (cs.map fun c' => ((s.with c sc made).ctx c').userData.toNat) = cs.map fun c' => (s.ctx c').userData.toNat := by
  refine List.map_congr_left fun c' listed => ?_
  have other : c' ≠ c := fun same => absent (same ▸ listed)
  rw [ctx_other other]

/-- Who is resolving, if the connection called is not and was not. -/
theorem Server.Settled.idle (settled : s.Settled sending) (before : ¬ (s.connection c).Resolving)
    (after : ¬ sc.Resolving) : c ∉ sending ∧ ∀ c', c' ∈ sending ↔ ((s.with c sc made).connection c').Resolving := by
  have absent : c ∉ sending := fun listed => before ((settled.resolving c).mp listed)
  refine ⟨absent, fun c' => ?_⟩
  by_cases here : c' = c
  · subst here
    rw [resolving_self]
    exact iff_of_false absent after
  · rw [resolving_other here]
    exact settled.resolving c'

/-- A call on one connection keeps the blocks of all. -/
theorem Server.Settled.called (settled : s.Settled sending) (call : CallBlock (s.connection c) sc s.made made) :
    ∃ sending', (s.with c sc made).Settled sending' := by
  cases call with
  | kept before after none pool =>
    obtain ⟨absent, resolving⟩ := settled.idle before after
    have aside {made : List Nat} : (sending.map (fun c => (s.ctx c).userData.toNat) ++ (s.given ++ made)).Perm
        (made ++ (sending.map (fun c => (s.ctx c).userData.toNat) ++ s.given)) := by
      rw [← List.append_assoc]
      exact List.perm_append_comm
    refine ⟨sending, settled.nodup, resolving, ?_⟩
    rw [buffers_other absent, given_none none]
    exact (pool _ (settled.held.perm aside)).perm aside.symm
  | gave block before after some same pool =>
    subst same
    obtain ⟨absent, resolving⟩ := settled.idle before after
    refine ⟨sending, settled.nodup, resolving, ?_⟩
    rw [buffers_other absent, Server.with, some]
    exact (pool _ settled.held).perm List.perm_middle.symm
  | begun before after none same pool =>
    have absent : c ∉ sending := fun listed => before ((settled.resolving c).mp listed)
    subst same
    refine ⟨c :: sending, List.nodup_cons.mpr ⟨absent, settled.nodup⟩, fun c' => ?_, ?_⟩
    · by_cases here : c' = c
      · subst here
        rw [resolving_self]
        exact iff_of_true List.mem_cons_self after
      · rw [resolving_other here, List.mem_cons, or_iff_right here]
        exact settled.resolving c'
    · rw [List.map_cons, buffers_other absent, given_none none, ctx_self]
      exact pool _ settled.held
  | goesOn before after none same userData calls =>
    subst same
    refine ⟨sending, settled.nodup, fun c' => ?_, ?_⟩
    · by_cases here : c' = c
      · subst here
        rw [resolving_self, settled.resolving c']
        exact iff_of_true before after
      · rw [resolving_other here]
        exact settled.resolving c'
    · have same (c' : Conn) : ((s.with c sc s.made).ctx c').userData = (s.ctx c').userData := by
        by_cases here : c' = c
        · subst here
          rw [ctx_self]
          exact userData
        · rw [ctx_other here]
      simp only [same, given_none none]
      show Held _ sc.calls
      rw [calls]
      exact settled.held
  | ended before after none same calls =>
    have listed : c ∈ sending := (settled.resolving c).mpr before
    have absent : c ∉ sending.erase c := settled.nodup.not_mem_erase
    subst same
    refine ⟨sending.erase c, settled.nodup.erase c, fun c' => ?_, ?_⟩
    · by_cases here : c' = c
      · subst here
        rw [resolving_self]
        exact iff_of_false absent after
      · rw [resolving_other here, List.mem_erase_of_ne here]
        exact settled.resolving c'
    · rw [buffers_other absent, given_none none]
      have first : Held ((s.ctx c).userData.toNat :: ((sending.erase c).map (fun c' => (s.ctx c').userData.toNat) ++
          (s.given ++ s.made))) s.calls :=
        settled.held.perm (((List.perm_cons_erase listed).map _).append_right _)
      show Held _ sc.calls
      rw [calls]
      exact first.free

theorem Server.Settled.exec {a : Conn × Call} (settled : s.Settled sending)
    (fits : ResolveFits alloc labels ctxAt s a) (next : s.exec alloc image labels ctxAt a = some s') :
    ∃ sending', s'.Settled sending' := by
  obtain ⟨c, call⟩ := a
  obtain ⟨sc, called, rfl⟩ := Option.map_eq_some_iff.mp next
  refine settled.called (exec_block rfl (fun budget memory command response same resolve => ?_) called)
  subst same
  exact (fits resolve).1

end Dyndxt.Bootstrap
