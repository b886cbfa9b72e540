import BankingTransactions.Settlement
import BankingTransactions.SteadyCode
import BankingTransactions.Server

/-!
# What a request knows of the database

The rows it has locked, and no more. `rowContract` says so: between a locking read
and the end of the database transaction the same row is read again, and a request
may commit only once, and only what `Request.flush` makes of the rows in its view.
Any operation may fail. Every request keeps to this contract, by itself, whatever
the other requests do.
-/
namespace BankingTransactions
open DecimalArithmetic InteractionPrograms ThreadPools

/-- The rows that a request has locked, and whether it has tried to commit. -/
structure RowView where
  rows : AccountId → Option AccountRow
  attempted : Bool

namespace RowView

def fresh : RowView := ⟨fun _ => none, false⟩

def see (v : RowView) (row : AccountRow) : RowView :=
  { v with rows := Function.update v.rows row.id (some row) }

/-- The database transaction has ended. -/
def ended (v : RowView) : RowView := { v with rows := fun _ => none }

@[simp] theorem ended_fresh : fresh.ended = fresh := rfl

@[simp] theorem see_attempted (v : RowView) (row : AccountRow) :
    (v.see row).attempted = v.attempted := rfl

@[simp] theorem see_rows (v : RowView) (row : AccountRow) :
    (v.see row).rows = Function.update v.rows row.id (some row) := rfl

theorem see_of_seen {v : RowView} {row : AccountRow} (h : v.rows row.id = some row) :
    v.see row = v := by
  rw [see, ← h, Function.update_eq_self]

end RowView

/-- What a request may do, and what it may hear in a given view. Any operation may fail. -/
def rowContract (r : Request) : Contract IoOp IoOp.Res RowView where
  demand v
    | .selectAccount id, Q => (∀ e, Q (.error e) v) ∧ Q (.ok none) v ∧
        ((id = r.newId → v.attempted = true) → ∀ row : AccountRow, Q (.ok (some row.load)) v)
    | .selectAccountForUpdate id, Q => (∀ e, Q (.error e) v) ∧ Q (.ok none) v ∧
        ∀ row : AccountRow, row.id = id → (∀ seen, v.rows id = some seen → seen = row) →
          Q (.ok (some row.load)) (v.see row)
    | .selectTransaction id, Q => (∀ e, Q (.error e) v) ∧ Q (.ok none) v ∧
        ((id = r.newId → v.attempted = true) → ∀ row : TransactionRow, Q (.ok (some row.load)) v)
    | .selectTransactionByKey _, Q => ∀ res, Q res v
    | .commit w, Q => v.attempted = false ∧ r.flush v.rows = .ok w ∧
        ∀ res, Q res { v.ended with attempted := true }
    | .rollback, Q => ∀ res, Q res v.ended
    | .close, Q => ∀ res, Q res v.ended
    | .acquireKey _, Q => ∀ res, Q res v
    | .deleteKey _, Q => ∀ res, Q res v
    | .publishMany _, Q => ∀ res, Q res v
  mono {v o Q Q'} h hQ := by
    cases o with
    | selectAccount id =>
      exact ⟨fun e => h _ _ (hQ.1 e), h _ _ hQ.2.1, fun hid row => h _ _ (hQ.2.2 hid row)⟩
    | selectAccountForUpdate id =>
      exact ⟨fun e => h _ _ (hQ.1 e), h _ _ hQ.2.1,
        fun row hid hseen => h _ _ (hQ.2.2 row hid hseen)⟩
    | selectTransaction id =>
      exact ⟨fun e => h _ _ (hQ.1 e), h _ _ hQ.2.1, fun hid row => h _ _ (hQ.2.2 hid row)⟩
    | commit w => exact ⟨hQ.1, hQ.2.1, fun res => h _ _ (hQ.2.2 res)⟩
    | selectTransactionByKey _ => exact fun res => h _ _ (hQ res)
    | rollback => exact fun res => h _ _ (hQ res)
    | close => exact fun res => h _ _ (hQ res)
    | acquireKey _ => exact fun res => h _ _ (hQ res)
    | deleteKey _ => exact fun res => h _ _ (hQ res)
    | publishMany _ => exact fun res => h _ _ (hQ res)

section Programs

variable {r : Request} {α : Type}

/-- Code that keeps to the contract, however it ends. -/
abbrev Keeps (r : Request) (x : Task (Program IoOp IoOp.Res) Exn (Process SqlState) α)
    (p : Process SqlState) (v : RowView) : Prop :=
  Task.wp (rowContract r) x (fun _ _ _ => True) p v

theorem keeps_uow {body : SqlTask α} {p : Process SqlState} {v : RowView}
    (h : Keeps r body { p with adapters := { p.adapters with
      session := .empty, seenAccounts := [], seenTransactions := [] } } v) :
    Keeps r (withUow sqlUow body) p v := by
  unfold Keeps
  rw [wp_withUow]
  refine Task.wp_mono ?_ h
  rintro (e | a) p v -
  · rintro (e' | _)
    · trivial
    · rintro (e' | _) <;> trivial
  · rintro (e' | _) <;> trivial

theorem keeps_rereads {row : AccountRow} {v : RowView} (h : v.rows row.id = some row)
    {K : RowView → Prop} (hK : K v) :
    TransferService.rereads (rowContract r) (fun _ _ => True) row K v := by
  refine ⟨fun e => trivial, trivial, fun row' _ hseen => ?_⟩
  obtain rfl := hseen row h
  rw [RowView.see_of_seen h]
  exact ⟨rfl, hK⟩

theorem keeps_finishes {w : Flush} {v : RowView} (hv : v.attempted = false)
    (hw : r.flush v.rows = .ok w) :
    TransferService.finishes (rowContract r) (fun _ _ => True) w (fun _ => True) v := by
  refine ⟨hv, hw, ?_⟩
  rintro (e | _)
  · simp only
    split
    · rintro (e' | _) <;> trivial
    · trivial
  · trivial

theorem keeps_commits {w : Flush} {v : RowView} (hv : v.attempted = false)
    (hw : r.flush v.rows = .ok w) :
    TransferService.commits (rowContract r) (fun _ _ => True) r.newId w (fun _ => True) v :=
  ⟨fun e => trivial, keeps_finishes hv hw, fun hid => absurd (hid rfl) (by simp [hv])⟩

theorem keeps_opens {w : Flush} {v : RowView} (hv : v.attempted = false)
    (hw : r.flush v.rows = .ok w) :
    TransferService.opens (rowContract r) (fun _ _ => True) r.newId w (fun _ => True) v :=
  ⟨fun e => trivial, keeps_finishes hv hw, fun hid => absurd (hid rfl) (by simp [hv])⟩

/-- The unit of work of a transfer keeps to the contract: it commits what it makes of
the two rows that it has locked. -/
theorem keeps_transferUnit (draws : TransferDraws) {command : TransferCommand} {amount : Money}
    (hmoney : command.money = .ok amount) (acquired : List String) :
    Keeps (.transfer draws command) (TransferService.transferUnit sqlUow draws
      command.fromAccountId command.toAccountId amount command.idempotencyKey)
      (.within [] [] .empty acquired) .fresh := by
  refine TransferService.wp_transferUnit_of (E := fun _ _ => True) (fun _ _ _ _ _ => trivial) ?_
  refine ⟨fun e => trivial, trivial, fun senderRow hsender _ => ⟨senderRow, rfl, hsender, ?_⟩⟩
  cases hs : AccountMapper.toDomain senderRow.load with
  | error e => trivial
  | ok sender =>
    refine ⟨fun e => trivial, trivial, fun receiverRow hreceiver _ =>
      ⟨receiverRow, rfl, hreceiver, ?_⟩⟩
    cases hr : AccountMapper.toDomain receiverRow.load with
    | error e => trivial
    | ok receiver =>
      cases ht : Transaction.initiate draws.tx command.fromAccountId command.toAccountId amount
          command.idempotencyKey with
      | error e => trivial
      | ok tx =>
        obtain ⟨-, hne, -⟩ := Transaction.initiate_ok ht
        have hsee : ((RowView.fresh.see senderRow).see receiverRow).rows command.fromAccountId =
            some senderRow := by simp [hsender, hreceiver, hne]
        have hsee' : ((RowView.fresh.see senderRow).see receiverRow).rows command.toAccountId =
            some receiverRow := by simp [hreceiver]
        have hflush : (Request.transfer draws command).flush
            ((RowView.fresh.see senderRow).see receiverRow).rows =
              .ok ((draws.settle amount sender receiver tx).flush senderRow receiverRow) := by
          refine Request.flush_transfer_ok.mpr ⟨amount, senderRow, receiverRow, _, hmoney, ?_, rfl⟩
          simp only [TransferCommand.resolve, hsee, hsee', hs, hr, ht]
        have hcommits := keeps_commits rfl hflush
        simp only [TransferService.persists, draws.settle_tx_id sender receiver ht]
        split
        · exact keeps_rereads (hsender ▸ hsee) (keeps_rereads (hreceiver ▸ hsee') hcommits)
        · exact hcommits

theorem keeps_bind {β : Type} {x : SqlTask β} {f : β → SqlTask α} {p : Process SqlState}
    {v : RowView} (hx : Keeps r x p v) (hf : ∀ b p v, Keeps r (f b) p v) :
    Keeps r (x >>= f) p v := by
  unfold Keeps
  rw [Task.wp_bind]
  refine Task.wp_mono ?_ hx
  rintro (e | b) p v -
  · trivial
  · exact hf b p v

theorem keeps_pure (a : α) (p : Process SqlState) (v : RowView) : Keeps r (pure a) p v := by
  rw [Keeps, Task.wp_pure]
  trivial

theorem keeps_callAccount (ref : AccountRef) (m : Method Account α) (p : Process SqlState)
    (v : RowView) : Keeps r (callAccount ref m) p v := by
  rw [Keeps, callAccount, Task.wp_stepState]
  trivial

theorem keeps_callTransaction (ref : TransactionRef) (m : Method Transaction α)
    (p : Process SqlState) (v : RowView) : Keeps r (callTransaction ref m) p v := by
  rw [Keeps, callTransaction, Task.wp_stepState]
  trivial

theorem keeps_publishMany (events : List DomainEvent) (p : Process SqlState) (v : RowView) :
    Keeps r (sqlBus.publishMany events) p v := by
  rw [Keeps, sqlBus, wp_exec]
  rintro (e | _) <;> trivial

/-- Code that is free to run in every view and changes neither the view nor the objects. -/
def Quiet (r : Request) (x : SqlTask α) : Prop :=
  ∀ {Q : Except Exn α → Process SqlState → RowView → Prop} {p : Process SqlState} {v : RowView},
    (∀ res p', p'.heap = p.heap → Q res p' v) → Task.wp (rowContract r) x Q p v

theorem quiet_of_steady {x : SqlTask α} (hx : Steady (fun o => o.isLockOp = true) SameHeap x) :
    Quiet r x := by
  intro Q p v hQ
  have hlock : (rowContract r).Ignores v fun o => o.isLockOp = true := by
    intro o Q ho hQ
    cases o with
    | acquireKey k => exact hQ
    | deleteKey k => exact hQ
    | _ => cases ho
  refine Task.wp_mono (fun res p' v' h => ?_) (Task.wp_of_ignores hlock (hx p))
  obtain ⟨hheap, rfl⟩ := h
  exact hQ res p' hheap

theorem fresh_ignores : (rowContract r).Ignores .fresh fun o =>
    o matches .selectTransactionByKey _ | .rollback | .close := by
  intro o Q ho hQ
  cases o with
  | selectTransactionByKey key => exact hQ
  | rollback => exact hQ
  | close => exact hQ
  | _ => cases ho

theorem keeps_lookup (key : IdempotencyKey) :
    Task.wp (rowContract r) (withUow sqlUow (sqlUow.transactions.getByIdempotencyKey key))
      (fun res p v => v = .fresh ∧ (res = .ok none → p.heap = .empty)) .init .fresh :=
  wp_lookup _ _ fresh_ignores.preserves (fun _ => rfl) rfl rfl rfl key
    fun _ _ _ hv hheap => ⟨hv, hheap⟩

theorem keeps_lock {draws : TransferDraws} {command : TransferCommand} {amount : Money}
    (hmoney : command.money = .ok amount) (keys : List String) {p : Process SqlState}
    (hp : p.heap = .empty) :
    Keeps (.transfer draws command) (withLock redisLock keys (withUow sqlUow
      (TransferService.transferUnit sqlUow draws command.fromAccountId command.toAccountId amount
        command.idempotencyKey))) p .fresh := by
  unfold Keeps
  rw [wp_withLock]
  refine quiet_of_steady (steady_lock keys) fun res p' hp' => ?_
  cases res with
  | error e => trivial
  | ok _ =>
    have hunit : Keeps (.transfer draws command) (withUow sqlUow (TransferService.transferUnit
        sqlUow draws command.fromAccountId command.toAccountId amount command.idempotencyKey))
        p' .fresh := by
      obtain ⟨heap, adapters⟩ := p'
      obtain rfl : heap = .empty := hp'.trans hp
      exact keeps_uow (keeps_transferUnit draws hmoney adapters.acquired)
    refine Task.wp_mono (fun res p v _ => ?_) hunit
    refine quiet_of_steady steady_unlock fun res' p' _ => ?_
    cases res' <;> trivial

theorem keeps_publishRemaining (sender receiver : AccountRef) (tx : TransactionRef)
    (p : Process SqlState) (v : RowView) :
    Keeps r (TransferService.publishRemaining sqlBus sender receiver tx) p v := by
  refine keeps_bind (keeps_callAccount ..) fun ofSender p v => ?_
  refine keeps_bind (keeps_callAccount ..) fun ofReceiver p v => ?_
  refine keeps_bind (keeps_callTransaction ..) fun ofTx p v => ?_
  dsimp only
  split
  · refine keeps_bind (keeps_publishMany ..) fun _ p v => ?_
    exact keeps_bind (keeps_callTransaction ..) fun _ p v => keeps_pure ..
  · exact keeps_bind (keeps_callTransaction ..) fun _ p v => keeps_pure ..

theorem keeps_initiate (draws : TransferDraws) (command : TransferCommand) :
    Keeps (.transfer draws command)
      (TransferService.initiate sqlUow redisLock sqlBus draws command) .init .fresh := by
  unfold Keeps
  rw [TransferService.initiate, Task.wp_bind]
  refine Task.wp_mono ?_ (keeps_lookup command.idempotencyKey)
  rintro (e | _ | ref) p v ⟨rfl, hheap⟩
  · simp only
  · simp only
    rw [Task.wp_bind, Task.wp_ofExcept]
    cases hcurrency : Currency.ofValue command.currency with
    | error e => simp only
    | ok currency =>
      simp only
      rw [Task.wp_bind, Task.wp_ofExcept]
      cases hamount : Money.new command.amount currency with
      | error e => simp only
      | ok amount =>
        have hmoney : command.money = .ok amount := bind_eq_ok.mpr ⟨currency, hcurrency, hamount⟩
        simp only
        exact keeps_bind (keeps_lock hmoney _ (hheap rfl)) fun _ p v => keeps_publishRemaining ..
  · exact keeps_bind (keeps_callTransaction ..) fun _ p v => keeps_pure ..

theorem keeps_create (draws : AccountDraws) (command : CreateAccountCommand) :
    Keeps (.create draws command) (AccountService.create sqlUow draws command) .init .fresh := by
  unfold Keeps
  rw [AccountService.create, Task.wp_bind, Task.wp_ofExcept]
  cases hcurrency : Currency.ofValue command.currency with
  | error e => simp only
  | ok currency =>
    simp only
    rw [Task.wp_bind, Task.wp_ofExcept]
    cases hamount : Money.new command.initialBalance currency with
    | error e => simp only
    | ok initialBalance =>
      simp only
      rw [Task.wp_bind, Task.wp_ofExcept]
      cases ha : Account.create draws command.ownerId currency (some initialBalance) with
      | error e => simp only
      | ok a =>
        have hopened : command.opened draws = .ok a :=
          bind_eq_ok.mpr ⟨currency, hcurrency, bind_eq_ok.mpr ⟨initialBalance, hamount, ha⟩⟩
        simp only
        rw [Task.wp_bind, wp_newAccount]
        refine keeps_bind (keeps_uow ?_) fun _ p v =>
          keeps_bind (keeps_callAccount ..) fun _ p v => keeps_pure ..
        have hid : a.id = draws.id := by rw [(Account.create_ok ha).2]
        have hopens := keeps_opens (v := .fresh) rfl (Request.flush_create_ok.mpr ⟨a, hopened, rfl⟩)
        rw [show (Request.create draws command).newId = a.id from hid.symm] at hopens
        exact TransferService.wp_open_of hopens (fun _ _ _ _ _ => trivial) fun _ _ => trivial

/-- Every request keeps to its contract from its start. -/
theorem keeps_program (r : Request) :
    r.program.wp (rowContract r) (fun _ _ => True) .fresh := by
  have h : Keeps r r.task .init .fresh := by
    cases r with
    | create draws command =>
      exact keeps_bind (keeps_create draws command) fun _ p v => keeps_pure ..
    | transfer draws command =>
      exact keeps_bind (keeps_initiate draws command) fun _ p v => keeps_pure ..
  rw [Keeps, Task.wp_def] at h
  exact h

end Programs

end BankingTransactions
