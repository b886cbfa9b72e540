import BankingTransactions.RequestContracts
import BankingTransactions.SerialExecution

/-!
# What a request writes and publishes

A request notes whether one of its operations has failed, what it has committed and what it
has handed to the event bus. Unless an operation fails it commits nothing, or the account
that it opens, or one settlement: then the unit of work has written the pending events of
the accounts that it has loaded, and the service has published the events of the
transaction when the transfer has succeeded.
-/
namespace BankingTransactions
open DecimalArithmetic InteractionPrograms ThreadPools

structure Traffic where
  failed : Bool
  committed : List Flush
  handed : List DomainEvent

namespace Traffic

def start : Traffic := ⟨false, [], []⟩

/-- An operation was answered. -/
def note (n : Traffic) (o : IoOp) (res : o.Res) : Traffic :=
  match (res : Except Exn o.Val) with
  | .error _ => { n with failed := true }
  | .ok _ =>
    match o with
    | .commit w => { n with committed := n.committed ++ [w] }
    | .publishMany events => { n with handed := n.handed ++ events }
    | _ => n

@[simp] theorem note_error (n : Traffic) (o : IoOp) (e : Exn) :
    n.note o (.error e) = { n with failed := true } := rfl

theorem note_failed {n : Traffic} (h : n.failed = true) (o : IoOp) (res : o.Res) :
    (n.note o res).failed = true := by
  obtain e | a := (res : Except Exn o.Val)
  · rfl
  · cases o <;> exact h

end Traffic

/-- The contract of a request that takes notes. -/
abbrev trafficContract (r : Request) : Contract IoOp IoOp.Res (RowView × Traffic) :=
  (rowContract r).noting Traffic.note

/-- What the service publishes after a settlement was committed. -/
def Settlement.published (S : Settlement) : List DomainEvent :=
  match S.raised with
  | none => S.tx.domainEvents
  | some _ => []

/-- The objects and the notes of a request at its end when no operation has failed. -/
def Request.Notes (r : Request) (heap : Heap) (n : Traffic) : Prop :=
  n = .start ∨
    match r with
    | .create draws command => ∃ a, command.opened draws = .ok a ∧ heap = ⟨[a], []⟩ ∧
        n = ⟨false, [{ Flush.empty with newAccounts := [AccountMapper.toNewOrm a] }], []⟩
    | .transfer draws command => ∃ amount find senderRow receiverRow S,
        command.money = .ok amount ∧
        command.resolve draws amount find = .ok (senderRow, receiverRow, S) ∧ heap = S.heap ∧
        n = ⟨false, [S.flush senderRow receiverRow], S.published⟩

/-- Reading an account changes no object. -/
theorem Heap.callAccount_get (heap : Heap) (ref : AccountRef) :
    (heap.callAccount ref (MonadState.get : Method Account Account)).2 = heap := by
  unfold callAccount
  split
  · rfl
  · rename_i a ha
    obtain ⟨href, rfl⟩ := List.getElem?_eq_some_iff.mp ha
    simp

section Programs

variable {r : Request} {α : Type}

/-- Code of which nothing is asked once an operation has failed. -/
abbrev Heeds (r : Request) (x : SqlTask α) (Q : Except Exn α → Heap → Traffic → Prop)
    (p : Process SqlState) (v : RowView × Traffic) : Prop :=
  Task.wp (trafficContract r) x (fun res p v => v.2.failed = true ∨ Q res p.heap v.2) p v

/-- Once an operation has failed, code that keeps to the contract may go on. -/
theorem heeds_of_failed {x : SqlTask α} {Q : Except Exn α → Heap → Traffic → Prop}
    {p : Process SqlState} {v : RowView × Traffic} (hx : Keeps r x p v.1)
    (hv : v.2.failed = true) : Heeds r x Q p v :=
  Task.wp_mono (fun _ _ _ h => .inl h.2)
    (Task.wp_noting (I := fun n => n.failed = true) (fun _ o res h => Traffic.note_failed h o res)
      hx hv)

theorem heeds_uow {body : SqlTask α} {Q : Except Exn α → Heap → Traffic → Prop}
    {p : Process SqlState} {v : RowView × Traffic}
    (h : Heeds r body Q { p with adapters := { p.adapters with
      session := .empty, seenAccounts := [], seenTransactions := [] } } v) :
    Heeds r (withUow sqlUow body) Q p v := by
  unfold Heeds
  rw [wp_withUow]
  refine Task.wp_mono ?_ h
  rintro (e | a) p ⟨v, n⟩ hQ
  · rintro (e' | _)
    · exact .inl rfl
    · rintro (e' | _)
      · exact .inl rfl
      · exact hQ
  · rintro (e' | _)
    · exact .inl rfl
    · exact hQ

/-- An exception is allowed once an operation has failed, and before anything was committed. -/
def Refuses (v : RowView × Traffic) : Prop := v.2.failed = true ∨ v.2 = .start

theorem heeds_finishes {w : Flush} {v : RowView} (hv : v.attempted = false)
    (hw : r.flush v.rows = .ok w) {K : RowView × Traffic → Prop}
    (hK : ∀ v', K (v', ⟨false, [w], []⟩)) :
    TransferService.finishes (trafficContract r) (fun _ => Refuses) w K (v, .start) := by
  refine ⟨hv, hw, ?_⟩
  rintro (e | _)
  · simp only
    split
    · rintro (e' | _) <;> exact .inl rfl
    · exact .inl rfl
  · exact hK _

theorem heeds_commits {w : Flush} {v : RowView} (hv : v.attempted = false)
    (hw : r.flush v.rows = .ok w) {K : RowView × Traffic → Prop}
    (hK : ∀ v', K (v', ⟨false, [w], []⟩)) :
    TransferService.commits (trafficContract r) (fun _ => Refuses) r.newId w K (v, .start) :=
  ⟨fun _ => .inl rfl, heeds_finishes hv hw hK, fun hid => absurd (hid rfl) (by simp [hv])⟩

theorem heeds_opens {w : Flush} {v : RowView} (hv : v.attempted = false)
    (hw : r.flush v.rows = .ok w) {K : RowView × Traffic → Prop}
    (hK : ∀ v', K (v', ⟨false, [w], []⟩)) :
    TransferService.opens (trafficContract r) (fun _ => Refuses) r.newId w K (v, .start) :=
  ⟨fun _ => .inl rfl, heeds_finishes hv hw hK, fun hid => absurd (hid rfl) (by simp [hv])⟩

theorem heeds_rereads {row : AccountRow} {v : RowView} (h : v.rows row.id = some row)
    {K : RowView × Traffic → Prop} (hK : K (v, .start)) :
    TransferService.rereads (trafficContract r) (fun _ => Refuses) row K (v, .start) := by
  refine ⟨fun _ => .inl rfl, .inr rfl, fun row' _ hseen => ?_⟩
  obtain rfl := hseen row h
  rw [RowView.see_of_seen h]
  exact ⟨rfl, hK⟩

/-- What the unit of work of a transfer has committed, and how it ends. -/
def SettlesUnit (draws : TransferDraws) (command : TransferCommand)
    (res : Except Exn (AccountRef × AccountRef × TransactionRef)) (heap : Heap) (n : Traffic) :
    Prop :=
  (n = .start ∧ ∃ e, res = .error e) ∨
    ∃ amount find senderRow receiverRow S, command.money = .ok amount ∧
      command.resolve draws amount find = .ok (senderRow, receiverRow, S) ∧
      n = ⟨false, [S.flush senderRow receiverRow], []⟩ ∧ res = TransferService.ending S ∧
      heap = ⟨[S.sender.collectEvents.2, S.receiver.collectEvents.2], [S.tx]⟩

theorem heeds_transferUnit (draws : TransferDraws) {command : TransferCommand} {amount : Money}
    (hmoney : command.money = .ok amount) (acquired : List String) :
    Heeds (.transfer draws command) (TransferService.transferUnit sqlUow draws
      command.fromAccountId command.toAccountId amount command.idempotencyKey)
      (SettlesUnit draws command) (.within [] [] .empty acquired) (.fresh, .start) := by
  refine TransferService.wp_transferUnit_of (E := fun _ => Refuses)
    (fun e p v _ h => h.imp id fun h => .inl ⟨h, e, rfl⟩) ?_
  refine ⟨fun _ => .inl rfl, .inr rfl, fun senderRow hsender _ => ⟨senderRow, rfl, hsender, ?_⟩⟩
  cases hs : AccountMapper.toDomain senderRow.load with
  | error e => exact .inr rfl
  | ok sender =>
    refine ⟨fun _ => .inl rfl, .inr rfl, fun receiverRow hreceiver _ =>
      ⟨receiverRow, rfl, hreceiver, ?_⟩⟩
    cases hr : AccountMapper.toDomain receiverRow.load with
    | error e => exact .inr rfl
    | ok receiver =>
      cases ht : Transaction.initiate draws.tx command.fromAccountId command.toAccountId amount
          command.idempotencyKey with
      | error e => exact .inr rfl
      | ok tx =>
        obtain ⟨-, hne, -⟩ := Transaction.initiate_ok ht
        have hsee : ((RowView.fresh.see senderRow).see receiverRow).rows command.fromAccountId =
            some senderRow := by simp [hsender, hreceiver, hne]
        have hsee' : ((RowView.fresh.see senderRow).see receiverRow).rows command.toAccountId =
            some receiverRow := by simp [hreceiver]
        have hresolve : command.resolve draws amount
            ((RowView.fresh.see senderRow).see receiverRow).rows =
              .ok (senderRow, receiverRow, draws.settle amount sender receiver tx) := by
          simp only [TransferCommand.resolve, hsee, hsee', hs, hr, ht]
        have hflush := Request.flush_transfer_ok.mpr ⟨amount, senderRow, receiverRow, _, hmoney,
          hresolve, rfl⟩
        have hcommits := heeds_commits (r := .transfer draws command)
          (K := fun v => v.2.failed = true ∨ SettlesUnit draws command
            (TransferService.ending (draws.settle amount sender receiver tx))
            (TransferService.leaves (draws.settle amount sender receiver tx) acquired).heap v.2)
          rfl hflush fun v' => .inr (.inr ⟨amount, _, senderRow, receiverRow, _, hmoney, hresolve,
            rfl, rfl, rfl⟩)
        simp only [TransferService.persists, draws.settle_tx_id sender receiver ht]
        split
        · exact heeds_rereads (hsender ▸ hsee) (heeds_rereads (hreceiver ▸ hsee') hcommits)
        · exact hcommits

/-! ### The lock manager -/

theorem heeds_acquireAll (keys : List String) {p : Process SqlState} {heap : Heap}
    (hp : p.heap = heap) {v v₀ : RowView × Traffic} (hv : v = v₀) :
    Task.wp (trafficContract r) (RedisLockManager.acquireAll keys) (fun res p' v' =>
      match res with
      | .ok _ => p'.heap = heap ∧ v' = v₀
      | .error _ => v'.2.failed = true) p v := by
  induction keys generalizing p v with
  | nil =>
    rw [RedisLockManager.acquireAll, Task.wp_pure]
    exact ⟨hp, hv⟩
  | cons key keys ih =>
    rw [RedisLockManager.acquireAll, Task.wp_bind, wp_exec]
    rintro (e | _)
    · exact rfl
    · simp only
      rw [Task.wp_bind, wp_modifyAdapters]
      simp only
      refine ih ?_ ?_
      · exact hp
      · exact hv

/-- The lock is acquired and nothing else has happened, or an operation has failed. -/
theorem heeds_enter (keys : List String) {p : Process SqlState} {v : RowView × Traffic} :
    Task.wp (trafficContract r) (RedisLockManager.enter keys) (fun res p' v' =>
      match res with
      | .ok _ => p'.heap = p.heap ∧ v' = v
      | .error _ => v'.2.failed = true) p v := by
  rw [RedisLockManager.enter, Task.wp_bind, wp_modifyAdapters]
  simp only
  rw [Task.wp_tryCatch]
  refine Task.wp_mono (fun res p' v' h => ?_) (heeds_acquireAll keys rfl rfl)
  cases res with
  | ok _ => exact h
  | error e =>
    have hrelease : Keeps r RedisLockManager.release p' v'.1 :=
      quiet_of_steady steady_unlock fun _ _ _ => trivial
    simp only
    rw [Task.wp_bind]
    refine Task.wp_mono (fun res p v hv => ?_)
      (heeds_of_failed (Q := fun _ _ _ => False) hrelease h)
    cases res with
    | error e' => exact hv.resolve_right id
    | ok _ =>
      simp only
      rw [Task.wp_throw]
      exact hv.resolve_right id

theorem heeds_releaseAll (lockKeys : List String) {p : Process SqlState} {v : RowView × Traffic}
    {n : Traffic} (hv : v.2.failed = true ∨ v.2 = n) :
    Heeds r (RedisLockManager.releaseAll lockKeys) (fun res heap n' =>
      res = .ok () ∧ heap = p.heap ∧ n' = n) p v := by
  induction lockKeys generalizing v with
  | nil =>
    unfold Heeds
    rw [RedisLockManager.releaseAll, Task.wp_pure]
    exact hv.imp id fun h => ⟨rfl, rfl, h⟩
  | cons lockKey rest ih =>
    unfold Heeds
    rw [RedisLockManager.releaseAll, Task.wp_bind, wp_safeRelease]
    rintro (e | _)
    · simp only
      split
      · exact ih (.inl rfl)
      · exact .inl rfl
    · exact ih hv

/-- The lock is given back, whatever has happened, and nothing else changes. -/
theorem heeds_release {p : Process SqlState} {v : RowView × Traffic} {n : Traffic}
    (hv : v.2.failed = true ∨ v.2 = n) :
    Heeds r RedisLockManager.release (fun res heap n' =>
      res = .ok () ∧ heap = p.heap ∧ n' = n) p v := by
  unfold Heeds
  rw [RedisLockManager.release, Task.wp_bind, wp_getAdapters]
  exact heeds_releaseAll p.adapters.acquired.reverse hv

/-! ### The services -/

/-- The lookup finds a transaction, or nothing; it fails only with an operation. -/
theorem heeds_lookup (key : IdempotencyKey) :
    Task.wp (trafficContract r) (withUow sqlUow (sqlUow.transactions.getByIdempotencyKey key))
      (fun res p v => match res with
        | .ok none => p.heap = .empty ∧ v = (.fresh, .start)
        | .ok (some _) => v.2 = .start
        | .error _ => Refuses v) .init (.fresh, .start) := by
  rw [wp_withUow]
  change Task.wp _ _ _ (Process.within [] [] .empty []) _
  rw [wp_getByIdempotencyKey]
  rintro (e | _ | orm)
  · rintro (e' | _)
    · exact .inl rfl
    · rintro (e' | _) <;> exact .inl rfl
  · rintro (e' | _)
    · exact .inl rfl
    · exact ⟨rfl, rfl⟩
  · simp only
    cases TransactionMapper.toDomain orm with
    | error e =>
      rintro (e' | _)
      · exact .inl rfl
      · rintro (e' | _)
        · exact .inl rfl
        · exact .inr rfl
    | ok tx =>
      rintro (e' | _)
      · exact .inl rfl
      · rfl

/-- Steps 3 to 9: what the unit of work has committed is what the lock leaves. -/
theorem heeds_lock {draws : TransferDraws} {command : TransferCommand} {amount : Money}
    (hmoney : command.money = .ok amount) (keys : List String) {p : Process SqlState}
    (hp : p.heap = .empty) :
    Heeds (.transfer draws command) (withLock redisLock keys (withUow sqlUow
      (TransferService.transferUnit sqlUow draws command.fromAccountId command.toAccountId amount
        command.idempotencyKey))) (SettlesUnit draws command) p (.fresh, .start) := by
  unfold Heeds
  rw [wp_withLock]
  refine Task.wp_mono (fun res p' v h => ?_) (heeds_enter keys)
  cases res with
  | error e => exact .inl h
  | ok _ =>
    obtain ⟨hheap, rfl⟩ := h
    have hunit : Heeds (.transfer draws command) (withUow sqlUow (TransferService.transferUnit
        sqlUow draws command.fromAccountId command.toAccountId amount command.idempotencyKey))
        (SettlesUnit draws command) p' (.fresh, .start) := by
      obtain ⟨heap, adapters⟩ := p'
      obtain rfl : heap = .empty := hheap.trans hp
      exact heeds_uow (heeds_transferUnit draws hmoney adapters.acquired)
    refine Task.wp_mono (fun res p v hunit => ?_) hunit
    obtain hfailed | hunit := hunit
    · refine Task.wp_mono (fun res' p' v' h => ?_) (heeds_release (n := v.2) (.inl hfailed))
      have hv' : v'.2.failed = true := h.elim id fun h => h.2.2 ▸ hfailed
      cases res' <;> exact .inl hv'
    · refine Task.wp_mono (fun res' p' v' h => ?_) (heeds_release (n := v.2) (.inr rfl))
      obtain hv' | ⟨rfl, hheap, hnotes⟩ := h
      · cases res' <;> exact .inl hv'
      · simp only
        rw [hheap, hnotes]
        exact .inr hunit

/-- Step 10 after a completed transfer: the accounts have been drained, so that the events
of the transaction are handed over. -/
theorem heeds_publishRemaining {S : Settlement} (hraised : S.raised = none) {w : Flush}
    {p : Process SqlState}
    (hheap : p.heap = ⟨[S.sender.collectEvents.2, S.receiver.collectEvents.2], [S.tx]⟩)
    (v : RowView) :
    Heeds r (TransferService.publishRemaining sqlBus 0 1 0) (fun _ heap n =>
      heap = S.heap ∧ n = ⟨false, [w], S.published⟩) p (v, ⟨false, [w], []⟩) := by
  obtain ⟨heap, adapters⟩ := p
  obtain rfl : heap = _ := hheap
  have hread (v : RowView) (n : Traffic)
      (hn : n.failed = true ∨ n = ⟨false, [w], S.published⟩) :
      Task.wp (trafficContract r) (do
        return TransactionDTO.fromAggregate (← callTransaction 0 MonadState.get))
        (fun _ p v => v.2.failed = true ∨ p.heap = S.heap ∧ v.2 = ⟨false, [w], S.published⟩)
        ⟨⟨[S.sender.collectEvents.2, S.receiver.collectEvents.2], [S.tx.collectEvents.2]⟩,
          adapters⟩ (v, n) := by
    rw [Task.wp_bind, wp_readTransaction (t := S.tx.collectEvents.2) _ _ rfl]
    simp only
    rw [Task.wp_pure]
    exact hn.imp id fun hn => ⟨by simp only [Settlement.heap, hraised, if_true], hn⟩
  unfold Heeds
  rw [TransferService.publishRemaining, Task.wp_bind,
    wp_callAccount (a := S.sender.collectEvents.2) _ _ _ rfl]
  simp only [Account.collect_on]
  rw [Task.wp_bind, wp_callAccount (a := S.receiver.collectEvents.2) _ _ _ rfl]
  simp only [Account.collect_on]
  rw [Task.wp_bind, wp_callTransaction (t := S.tx) _ _ _ rfl]
  have hpublished : S.published = S.tx.domainEvents := by simp only [Settlement.published, hraised]
  by_cases hevents : S.tx.domainEvents = []
  · simp only [Transaction.collect_on, Account.domainEvents_collected, List.nil_append, hevents,
      ne_eq, not_true_eq_false, if_false]
    exact hread v _ (.inr (by rw [hpublished, hevents]))
  · simp only [Transaction.collect_on, Account.domainEvents_collected, List.nil_append, hevents,
      ne_eq, not_false_eq_true, if_true]
    rw [Task.wp_bind, sqlBus, wp_exec]
    rintro (e | _)
    · exact .inl rfl
    · exact hread v _ (.inr (by rw [hpublished]; rfl))

/-- What a settlement leaves to the service. -/
theorem heeds_ending {draws : TransferDraws} {command : TransferCommand}
    {res : Except Exn (AccountRef × AccountRef × TransactionRef)} {p : Process SqlState}
    {v : RowView × Traffic} :
    v.2.failed = true ∨ SettlesUnit draws command res p.heap v.2 →
      match res with
      | .ok refs => Heeds (.transfer draws command)
          (TransferService.publishRemaining sqlBus refs.1 refs.2.1 refs.2.2)
          (fun _ heap n => (Request.transfer draws command).Notes heap n) p v
      | .error _ => v.2.failed = true ∨ (Request.transfer draws command).Notes p.heap v.2 := by
  intro h
  obtain hfailed | ⟨hstart, e, rfl⟩ | ⟨amount, find, senderRow, receiverRow, S, hmoney, hresolve,
    hn, rfl, hheap⟩ := h
  · cases res with
    | ok refs => exact heeds_of_failed (keeps_publishRemaining ..) hfailed
    | error e => exact .inl hfailed
  · exact .inr (.inl hstart)
  · have hnotes (heap : Heap) (n : Traffic) (hheap : heap = S.heap)
        (hn : n = ⟨false, [S.flush senderRow receiverRow], S.published⟩) :
        (Request.transfer draws command).Notes heap n :=
      .inr ⟨amount, find, senderRow, receiverRow, S, hmoney, hresolve, hheap, hn⟩
    cases hraised : S.raised with
    | none =>
      obtain ⟨v, n⟩ := v
      obtain rfl : n = _ := hn
      simp only [TransferService.ending, hraised]
      exact Task.wp_mono (fun _ _ _ h => h.imp id fun h => hnotes _ _ h.1 h.2)
        (heeds_publishRemaining hraised hheap v)
    | some e =>
      simp only [TransferService.ending, hraised]
      exact .inr (hnotes _ _ (by simp [hheap, Settlement.heap, hraised])
        (by simp only [hn, Settlement.published, hraised]))

/-- A transfer commits nothing or one settlement, and publishes what that leaves. -/
theorem heeds_initiate (draws : TransferDraws) (command : TransferCommand) :
    Heeds (.transfer draws command) (TransferService.initiate sqlUow redisLock sqlBus draws command)
      (fun _ heap n => (Request.transfer draws command).Notes heap n) .init (.fresh, .start) := by
  unfold Heeds
  rw [TransferService.initiate, Task.wp_bind]
  refine Task.wp_mono ?_ (heeds_lookup command.idempotencyKey)
  rintro (e | _ | ref) p v h
  · exact h.imp id .inl
  · obtain ⟨hheap, rfl⟩ := h
    simp only
    rw [Task.wp_bind, Task.wp_ofExcept]
    cases hcurrency : Currency.ofValue command.currency with
    | error e => exact .inr (.inl rfl)
    | ok currency =>
      simp only
      rw [Task.wp_bind, Task.wp_ofExcept]
      cases hamount : Money.new command.amount currency with
      | error e => exact .inr (.inl rfl)
      | ok amount =>
        have hmoney : command.money = .ok amount := bind_eq_ok.mpr ⟨currency, hcurrency, hamount⟩
        simp only
        rw [Task.wp_bind]
        refine Task.wp_mono (fun res p v h => ?_) (heeds_lock hmoney _ hheap)
        have hending := heeds_ending h
        cases res <;> exact hending
  · simp only
    rw [Task.wp_bind, callTransaction, Task.wp_stepState]
    split
    · rw [Task.wp_pure]
      exact .inr (.inl h)
    · exact .inr (.inl h)

theorem heeds_create (draws : AccountDraws) (command : CreateAccountCommand) :
    Heeds (.create draws command) (AccountService.create sqlUow draws command)
      (fun _ heap n => (Request.create draws command).Notes heap n) .init (.fresh, .start) := by
  have hstart (heap : Heap) :
      Traffic.start.failed = true ∨ (Request.create draws command).Notes heap .start :=
    .inr (.inl rfl)
  unfold Heeds
  rw [AccountService.create, Task.wp_bind, Task.wp_ofExcept]
  cases hcurrency : Currency.ofValue command.currency with
  | error e => exact hstart _
  | ok currency =>
    simp only
    rw [Task.wp_bind, Task.wp_ofExcept]
    cases hamount : Money.new command.initialBalance currency with
    | error e => exact hstart _
    | ok initialBalance =>
      simp only
      rw [Task.wp_bind, Task.wp_ofExcept]
      cases ha : Account.create draws command.ownerId currency (some initialBalance) with
      | error e => exact hstart _
      | ok a =>
        have hopened : command.opened draws = .ok a :=
          bind_eq_ok.mpr ⟨currency, hcurrency, bind_eq_ok.mpr ⟨initialBalance, hamount, ha⟩⟩
        have hid : a.id = draws.id := CreateAccountCommand.opened_id hopened
        simp only
        rw [Task.wp_bind, wp_newAccount]
        simp only
        rw [Task.wp_bind]
        have hunit : Heeds (.create draws command) (withUow sqlUow (do
            sqlUow.accounts.save 0
            sqlUow.commit)) (fun _ heap n => (Request.create draws command).Notes heap n)
            ⟨⟨[a], []⟩, .init⟩ (.fresh, .start) := by
          refine heeds_uow ?_
          have hopens := heeds_opens (r := .create draws command)
            (K := fun v => (Request.create draws command).Notes ⟨[a], []⟩ v.2) (v := .fresh) rfl
            (Request.flush_create_ok.mpr ⟨a, hopened, rfl⟩) fun _ => .inr ⟨a, hopened, rfl, rfl⟩
          rw [show (Request.create draws command).newId = a.id from hid.symm] at hopens
          exact TransferService.wp_open_of hopens (fun _ _ _ _ h => h.imp id .inl) fun _ h => .inr h
        refine Task.wp_mono (fun res p v h => ?_) hunit
        cases res with
        | error e => exact h
        | ok _ =>
          simp only
          rw [Task.wp_bind, callAccount, Task.wp_stepState, Heap.callAccount_get]
          split
          · rw [Task.wp_pure]
            exact h
          · exact h

/-- Every request takes such notes, whatever the other requests do. -/
theorem noted_program (r : Request) :
    r.program.wp (trafficContract r) (fun out v => v.2.failed = true ∨ r.Notes out.2.heap v.2)
      (.fresh, .start) := by
  have h : Heeds r r.task (fun _ heap n => r.Notes heap n) .init (.fresh, .start) := by
    unfold Heeds
    cases r with
    | create draws command =>
      rw [Request.task, Task.wp_bind]
      refine Task.wp_mono (fun res p v h => ?_) (heeds_create draws command)
      cases res with
      | error e => exact h
      | ok dto =>
        simp only
        rw [Task.wp_pure]
        exact h
    | transfer draws command =>
      rw [Request.task, Task.wp_bind]
      refine Task.wp_mono (fun res p v h => ?_) (heeds_initiate draws command)
      cases res with
      | error e => exact h
      | ok dto =>
        simp only
        rw [Task.wp_pure]
        exact h
  rw [Heeds, Task.wp_def] at h
  exact h

end Programs

end BankingTransactions
