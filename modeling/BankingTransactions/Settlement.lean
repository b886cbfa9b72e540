import BankingTransactions.SqlExecution

/-!
# What a request makes of the rows it finds

`settle` is step 7 of a transfer as a function of the two loaded accounts: the
exception that was raised, if any, and the three aggregates as they are then. It
has one of three forms, chosen by `CanDebit` and `CanCredit`. `Request.flush` is
what a request commits when it finds given rows, or the exception with which it
ends before there is anything to commit; nothing else about the database enters.
-/
namespace BankingTransactions
open DecimalArithmetic InteractionPrograms

structure Settlement where
  raised : Option Exn
  sender : Account
  receiver : Account
  tx : Transaction
  deriving DecidableEq

namespace TransferDraws

variable (draws : TransferDraws)

def processed (tx : Transaction) : Transaction :=
  ((Transaction.markProcessing draws.processing.now draws.processing.stamp).on tx).2

def completedTx (tx : Transaction) : Transaction :=
  ((Transaction.complete draws.completed.now draws.completed.stamp).on (draws.processed tx)).2

def failedTx (e : Exn) (tx : Transaction) : Transaction :=
  ((Transaction.fail e.failureCode e.message draws.failed.now draws.failed.stamp).on
    (draws.processed tx)).2

def debit (amount : Money) (txId : TransactionId) : Method Account Unit :=
  Account.debit amount txId draws.debited.now draws.debited.stamp

def credit (amount : Money) (txId : TransactionId) : Method Account Unit :=
  Account.credit amount txId draws.credited.now draws.credited.stamp

/-- Step 7, as a function. -/
def settle (amount : Money) (sender receiver : Account) (tx : Transaction) : Settlement :=
  match (draws.debit amount tx.id).on sender with
  | (.error e, sender) => ⟨some e, sender, receiver, draws.failedTx e tx⟩
  | (.ok _, sender) =>
    match (draws.credit amount tx.id).on receiver with
    | (.error e, receiver) => ⟨some e, sender, receiver, draws.failedTx e tx⟩
    | (.ok _, receiver) => ⟨none, sender, receiver, draws.completedTx tx⟩

variable {draws}

theorem processed_eq {tx : Transaction} (h : tx.status = .pending) :
    draws.processed tx = tx.advanced .processing draws.processing.now
      (draws.processing.stamp.event (.transactionProcessing tx.id tx.fromAccountId tx.toAccountId
        tx.amount.amount tx.amount.currency.value)) := by
  simp only [processed, Transaction.markProcessing_on, h, if_true]

variable (draws) in
theorem markProcessing_on_pending {tx : Transaction} (h : tx.status = .pending) :
    (Transaction.markProcessing draws.processing.now draws.processing.stamp).on tx =
      (.ok (), draws.processed tx) := by
  simp only [processed, Transaction.markProcessing_on, h, if_true]

theorem complete_on_processed {tx : Transaction} (h : tx.status = .pending) :
    (Transaction.complete draws.completed.now draws.completed.stamp).on (draws.processed tx) =
      (.ok (), draws.completedTx tx) := by
  simp [completedTx, processed_eq h, Transaction.complete_on, Transaction.advanced]

theorem fail_on_processed {tx : Transaction} (h : tx.status = .pending) (e : Exn) :
    (Transaction.fail e.failureCode e.message draws.failed.now draws.failed.stamp).on
      (draws.processed tx) = (.ok (), draws.failedTx e tx) := by
  simp [failedTx, processed_eq h, Transaction.fail_on, Transaction.advanced]

variable (draws) in
/-- Both accounts accept: the amount moves. -/
theorem settle_of_accepted {amount : Money} {sender receiver : Account} (tx : Transaction)
    (hd : sender.CanDebit amount) (hc : receiver.CanCredit amount) :
    ∃ bs br : Money, bs.currency = sender.balance.currency ∧
      bs.cents + amount.cents = sender.balance.cents ∧
      br.currency = receiver.balance.currency ∧
      br.cents = receiver.balance.cents + amount.cents ∧
      draws.settle amount sender receiver tx = ⟨none,
        sender.moved bs draws.debited.now (draws.debited.stamp.event (.balanceDebited sender.id
          tx.id amount.amount amount.currency.value bs.amount)),
        receiver.moved br draws.credited.now (draws.credited.stamp.event (.balanceCredited
          receiver.id tx.id amount.amount amount.currency.value br.amount)),
        draws.completedTx tx⟩ := by
  obtain ⟨bs, hscur, hs, hdebit⟩ :=
    Account.debit_of_canDebit hd tx.id draws.debited.now draws.debited.stamp
  obtain ⟨br, hrcur, hr, hcredit⟩ :=
    Account.credit_of_canCredit hc tx.id draws.credited.now draws.credited.stamp
  exact ⟨bs, br, hscur, hs, hrcur, hr, by simp only [settle, debit, credit, hdebit, hcredit]⟩

variable (draws) in
/-- The sender refuses: neither account is touched. -/
theorem settle_of_not_canDebit {amount : Money} {sender : Account} (receiver : Account)
    (tx : Transaction)
    (hd : ¬ sender.CanDebit amount) :
    ∃ e : Exn, e.isException = true ∧
      draws.settle amount sender receiver tx = ⟨some e, sender, receiver, draws.failedTx e tx⟩ := by
  obtain ⟨e, he, hdebit⟩ :=
    Account.debit_of_not_canDebit hd tx.id draws.debited.now draws.debited.stamp
  exact ⟨e, he, by simp only [settle, debit, hdebit]⟩

variable (draws) in
/-- The receiver refuses: the aggregate of the sender stays debited. -/
theorem settle_of_not_canCredit {amount : Money} {sender receiver : Account} (tx : Transaction)
    (hd : sender.CanDebit amount) (hc : ¬ receiver.CanCredit amount) :
    ∃ (e : Exn) (bs : Money), e.isException = true ∧ bs.currency = sender.balance.currency ∧
      bs.cents + amount.cents = sender.balance.cents ∧
      draws.settle amount sender receiver tx = ⟨some e,
        sender.moved bs draws.debited.now (draws.debited.stamp.event (.balanceDebited sender.id
          tx.id amount.amount amount.currency.value bs.amount)),
        receiver, draws.failedTx e tx⟩ := by
  obtain ⟨bs, hscur, hs, hdebit⟩ :=
    Account.debit_of_canDebit hd tx.id draws.debited.now draws.debited.stamp
  obtain ⟨e, he, hcredit⟩ :=
    Account.credit_of_not_canCredit hc tx.id draws.credited.now draws.credited.stamp
  exact ⟨e, bs, he, hscur, hs, by simp only [settle, debit, credit, hdebit, hcredit]⟩

variable (draws) in
/-- A settlement raises unless both accounts accept. -/
theorem settle_raised {amount : Money} {sender receiver : Account} (tx : Transaction)
    (h : ¬ (sender.CanDebit amount ∧ receiver.CanCredit amount)) :
    ∃ e, (draws.settle amount sender receiver tx).raised = some e := by
  by_cases hd : sender.CanDebit amount
  · obtain ⟨e, bs, -, -, -, hS⟩ := draws.settle_of_not_canCredit tx hd fun hc => h ⟨hd, hc⟩
    exact ⟨e, by rw [hS]⟩
  · obtain ⟨e, -, hS⟩ := draws.settle_of_not_canDebit receiver tx hd
    exact ⟨e, by rw [hS]⟩

theorem completedTx_eq {tx : Transaction} (h : tx.status = .pending) :
    draws.completedTx tx = { (draws.processed tx).advanced .completed draws.completed.now
      (draws.completed.stamp.event (.transactionCompleted tx.id tx.fromAccountId tx.toAccountId
        tx.amount.amount tx.amount.currency.value)) with
      completedAt := some draws.completed.now } := by
  simp [completedTx, processed_eq h, Transaction.complete_on, Transaction.advanced,
    AggregateRoot.recordEvent]

theorem failedTx_eq {tx : Transaction} (h : tx.status = .pending) (e : Exn) :
    draws.failedTx e tx = { (draws.processed tx).advanced .failed draws.failed.now
      (draws.failed.stamp.event (.transactionFailed tx.id tx.fromAccountId tx.toAccountId
        tx.amount.amount tx.amount.currency.value e.failureCode e.message true)) with
      failureCode := some e.failureCode
      failureReason := some e.message
      rollbackRequired := true } := by
  simp [failedTx, processed_eq h, Transaction.fail_on, Transaction.advanced,
    AggregateRoot.recordEvent]

theorem settle_id (amount : Money) (sender receiver : Account) (tx : Transaction) :
    (draws.settle amount sender receiver tx).sender.id = sender.id ∧
      (draws.settle amount sender receiver tx).receiver.id = receiver.id := by
  by_cases hd : sender.CanDebit amount
  · by_cases hc : receiver.CanCredit amount
    · obtain ⟨bs, br, -, -, -, -, hS⟩ := draws.settle_of_accepted tx hd hc
      rw [hS]
      exact ⟨rfl, rfl⟩
    · obtain ⟨e, bs, -, -, -, hS⟩ := draws.settle_of_not_canCredit tx hd hc
      rw [hS]
      exact ⟨rfl, rfl⟩
  · obtain ⟨e, -, hS⟩ := draws.settle_of_not_canDebit receiver tx hd
    rw [hS]
    exact ⟨rfl, rfl⟩

theorem settle_tx_cases (amount : Money) (sender receiver : Account) (tx : Transaction) :
    (draws.settle amount sender receiver tx).raised = none ∧
        (draws.settle amount sender receiver tx).tx = draws.completedTx tx ∨
      ∃ e, (draws.settle amount sender receiver tx).raised = some e ∧
        (draws.settle amount sender receiver tx).tx = draws.failedTx e tx := by
  unfold settle
  split
  · exact .inr ⟨_, rfl, rfl⟩
  · split
    · exact .inr ⟨_, rfl, rfl⟩
    · exact .inl ⟨rfl, rfl⟩

theorem settle_tx_same (amount : Money) (sender receiver : Account) {tx : Transaction}
    (h : tx.status = .pending) :
    (draws.settle amount sender receiver tx).tx.id = tx.id ∧
      (draws.settle amount sender receiver tx).tx.amount = tx.amount ∧
      (draws.settle amount sender receiver tx).tx.idempotencyKey = tx.idempotencyKey := by
  obtain ⟨-, htx⟩ | ⟨e, -, htx⟩ := draws.settle_tx_cases amount sender receiver tx
  · rw [htx, completedTx_eq h, processed_eq h]
    exact ⟨rfl, rfl, rfl⟩
  · rw [htx, failedTx_eq h, processed_eq h]
    exact ⟨rfl, rfl, rfl⟩

variable (draws) in
theorem settle_tx_id {fromId toId : AccountId} {amount : Money} {key : IdempotencyKey}
    {tx : Transaction} (sender receiver : Account)
    (htx : Transaction.initiate draws.tx fromId toId amount key = .ok tx) :
    (draws.settle amount sender receiver tx).tx.id = draws.tx.id := by
  obtain ⟨-, -, htx⟩ := Transaction.initiate_ok htx
  rw [(draws.settle_tx_same amount sender receiver (by rw [htx]; rfl)).1, htx]
  rfl

end TransferDraws

/-! ## What is committed -/

namespace Settlement

/-- The pending objects of the session at the commit of a transfer. -/
def flush (S : Settlement) (senderRow receiverRow : AccountRow) : Flush where
  newAccounts := []
  dirtyAccounts :=
    match S.raised with
    | none => [AccountMapper.updateOrm senderRow.load S.sender,
        AccountMapper.updateOrm receiverRow.load S.receiver]
    | some _ => []
  newTransactions := [TransactionMapper.toNewOrm S.tx]
  dirtyTransactions := []
  newOutbox := S.sender.outbox ++ S.receiver.outbox

end Settlement

/-- Step 2: the amount of a command. -/
def TransferCommand.money (command : TransferCommand) : Except Exn Money := do
  let currency ← Currency.ofValue command.currency
  Money.new command.amount currency

/-- The rows and the settlement of a transfer of `amount`. -/
def TransferCommand.resolve (command : TransferCommand) (draws : TransferDraws) (amount : Money)
    (find : AccountId → Option AccountRow) : Except Exn (AccountRow × AccountRow × Settlement) :=
  match find command.fromAccountId with
  | none => .error (.resourceNotFound "Account" command.fromAccountId)
  | some senderRow =>
    match AccountMapper.toDomain senderRow.load with
    | .error e => .error e
    | .ok sender =>
      match find command.toAccountId with
      | none => .error (.resourceNotFound "Account" command.toAccountId)
      | some receiverRow =>
        match AccountMapper.toDomain receiverRow.load with
        | .error e => .error e
        | .ok receiver =>
          match Transaction.initiate draws.tx command.fromAccountId command.toAccountId amount
              command.idempotencyKey with
          | .error e => .error e
          | .ok tx => .ok (senderRow, receiverRow, draws.settle amount sender receiver tx)

theorem TransferCommand.resolve_ok {command : TransferCommand} {draws : TransferDraws}
    {amount : Money} {find : AccountId → Option AccountRow} {senderRow receiverRow : AccountRow}
    {S : Settlement} :
    command.resolve draws amount find = .ok (senderRow, receiverRow, S) ↔
      find command.fromAccountId = some senderRow ∧ find command.toAccountId = some receiverRow ∧
      ∃ sender receiver tx, AccountMapper.toDomain senderRow.load = .ok sender ∧
        AccountMapper.toDomain receiverRow.load = .ok receiver ∧
        Transaction.initiate draws.tx command.fromAccountId command.toAccountId amount
          command.idempotencyKey = .ok tx ∧
        S = draws.settle amount sender receiver tx := by
  constructor
  · intro h
    unfold resolve at h
    split at h
    · cases h
    · rename_i s hs
      split at h
      · cases h
      · rename_i sender hsender
        split at h
        · cases h
        · rename_i r hr
          split at h
          · cases h
          · rename_i receiver hreceiver
            split at h
            · cases h
            · rename_i tx htx
              obtain ⟨rfl, rfl, rfl⟩ : s = senderRow ∧ r = receiverRow ∧ _ = S := by
                simpa using h
              exact ⟨hs, hr, sender, receiver, tx, hsender, hreceiver, htx, rfl⟩
  · rintro ⟨hs, hr, sender, receiver, tx, hsender, hreceiver, htx, rfl⟩
    simp only [resolve, hs, hr, hsender, hreceiver, htx]

/-- The account that `AccountService.create` opens. -/
def CreateAccountCommand.opened (command : CreateAccountCommand) (draws : AccountDraws) :
    Except Exn Account := do
  let currency ← Currency.ofValue command.currency
  let initialBalance ← Money.new command.initialBalance currency
  Account.create draws command.ownerId currency (some initialBalance)

theorem CreateAccountCommand.opened_ok {command : CreateAccountCommand} {draws : AccountDraws}
    {a : Account} (h : command.opened draws = .ok a) :
    ∃ currency balance, Currency.ofValue command.currency = .ok currency ∧
      Money.new command.initialBalance currency = .ok balance ∧
      Account.create draws command.ownerId currency (some balance) = .ok a := by
  obtain ⟨currency, hcurrency, h⟩ := bind_eq_ok.mp h
  obtain ⟨balance, hbalance, h⟩ := bind_eq_ok.mp h
  exact ⟨currency, balance, hcurrency, hbalance, h⟩

theorem CreateAccountCommand.opened_id {command : CreateAccountCommand} {draws : AccountDraws}
    {a : Account} (h : command.opened draws = .ok a) : a.id = draws.id := by
  obtain ⟨currency, balance, -, -, h⟩ := opened_ok h
  rw [(Account.create_ok h).2]

/-- What a request commits when it finds these rows, or how it ends before. -/
def Request.flush (find : AccountId → Option AccountRow) : Request → Except Exn Flush
  | .create draws command => do
    let a ← command.opened draws
    return { Flush.empty with newAccounts := [AccountMapper.toNewOrm a] }
  | .transfer draws command => do
    let amount ← command.money
    let (senderRow, receiverRow, S) ← command.resolve draws amount find
    return S.flush senderRow receiverRow

theorem Request.flush_transfer_ok {find : AccountId → Option AccountRow} {draws : TransferDraws}
    {command : TransferCommand} {w : Flush} :
    (Request.transfer draws command).flush find = .ok w ↔
      ∃ amount senderRow receiverRow S, command.money = .ok amount ∧
        command.resolve draws amount find = .ok (senderRow, receiverRow, S) ∧
        w = S.flush senderRow receiverRow := by
  simp only [Request.flush, bind_eq_ok, Prod.exists]
  constructor
  · rintro ⟨amount, hmoney, senderRow, receiverRow, S, hS, hw⟩
    exact ⟨amount, senderRow, receiverRow, S, hmoney, hS, (Except.ok.inj hw).symm⟩
  · rintro ⟨amount, senderRow, receiverRow, S, hmoney, hS, rfl⟩
    exact ⟨amount, hmoney, senderRow, receiverRow, S, hS, rfl⟩

theorem Request.flush_create_ok {find : AccountId → Option AccountRow} {draws : AccountDraws}
    {command : CreateAccountCommand} {w : Flush} :
    (Request.create draws command).flush find = .ok w ↔
      ∃ a, command.opened draws = .ok a ∧
        w = { Flush.empty with newAccounts := [AccountMapper.toNewOrm a] } := by
  simp only [Request.flush, bind_eq_ok]
  constructor
  · rintro ⟨a, ha, hw⟩
    exact ⟨a, ha, (Except.ok.inj hw).symm⟩
  · rintro ⟨a, ha, rfl⟩
    exact ⟨a, ha, rfl⟩

namespace TransferService

variable {V : Type} (C : Contract IoOp IoOp.Res V)

section Calls

variable {α : Type} (Q : Except Exn α → Process SqlState → V → Prop) (v : V) (a b : Account)
  (accounts : List Account) (tx : Transaction) (transactions : List Transaction) (w : Flush)
  (acquired : List String)

theorem wp_callSender (m : Method Account α) :
    Task.wp C (callAccount 0 m) Q (.within [a, b] transactions w acquired) v =
      Q (m.on a).1 (.within [(m.on a).2, b] transactions w acquired) v :=
  wp_callAccount C Q v rfl m

theorem wp_callReceiver (m : Method Account α) :
    Task.wp C (callAccount 1 m) Q (.within [a, b] transactions w acquired) v =
      Q (m.on b).1 (.within [a, (m.on b).2] transactions w acquired) v :=
  wp_callAccount C Q v rfl m

theorem wp_callTx (m : Method Transaction α) :
    Task.wp C (callTransaction 0 m) Q (.within accounts [tx] w acquired) v =
      Q (m.on tx).1 (.within accounts [(m.on tx).2] w acquired) v :=
  wp_callTransaction C Q v rfl m

end Calls

/-- The `except` block, after the failure was recorded on the transaction. -/
def recordFailure (e : Exn) : SqlTask Unit := do
  sqlUow.transactions.save 0
  sqlUow.commit
  throw e

theorem wp_applyTransfer {draws : TransferDraws} {amount : Money} {sender receiver : Account}
    {tx : Transaction} (htx : tx.status = .pending) (w : Flush) (acquired : List String)
    (Q : Except Exn Unit → Process SqlState → V → Prop) (v : V) :
    Task.wp C (applyTransfer sqlUow draws amount 0 1 0) Q
        (.within [sender, receiver] [tx] w acquired) v =
      let S := draws.settle amount sender receiver tx
      match S.raised with
      | none => Q (.ok ()) (.within [S.sender, S.receiver] [S.tx] w acquired) v
      | some e =>
        Task.wp C (recordFailure e) Q (.within [S.sender, S.receiver] [S.tx] w acquired) v := by
  have hprocess := draws.markProcessing_on_pending htx
  simp only [applyTransfer, Task.wp_bind, Task.wp_tryCatch, wp_callTx, wp_callSender,
    wp_callReceiver, Method.on_get, hprocess]
  by_cases hd : sender.CanDebit amount
  · obtain ⟨bs, -, -, hdebit⟩ :=
      Account.debit_of_canDebit hd tx.id draws.debited.now draws.debited.stamp
    by_cases hc : receiver.CanCredit amount
    · obtain ⟨br, -, -, hcredit⟩ :=
        Account.credit_of_canCredit hc tx.id draws.credited.now draws.credited.stamp
      simp only [TransferDraws.settle, TransferDraws.debit, TransferDraws.credit, hdebit, hcredit,
        TransferDraws.complete_on_processed htx]
    · obtain ⟨e, he, hcredit⟩ :=
        Account.credit_of_not_canCredit hc tx.id draws.credited.now draws.credited.stamp
      simp only [TransferDraws.settle, TransferDraws.debit, TransferDraws.credit, hdebit, hcredit,
        he, if_true, Task.wp_bind, wp_callTx, TransferDraws.fail_on_processed htx, recordFailure]
  · obtain ⟨e, he, hdebit⟩ :=
      Account.debit_of_not_canDebit hd tx.id draws.debited.now draws.debited.stamp
    simp only [TransferDraws.settle, TransferDraws.debit, hdebit, he, if_true, Task.wp_bind,
      wp_callTx, TransferDraws.fail_on_processed htx, recordFailure]

/-! ## The operations of a transfer

The demands that the unit of work of a transfer makes, one after the other. `E` is
what is asked of every exception on the way, `K` of what comes after. -/

section Demands

variable (E : Exn → V → Prop)

/-- Lock and load an account. -/
def loads (id : AccountId) (K : AccountRow → Account → V → Prop) (v : V) : Prop :=
  C.demand v (.selectAccountForUpdate id) fun r v =>
    match (r : Except Exn (Option AccountORM)) with
    | .error e => E e v
    | .ok none => E (.resourceNotFound "Account" id) v
    | .ok (some orm) => ∃ row : AccountRow, orm = row.load ∧ row.id = id ∧
        match AccountMapper.toDomain row.load with
        | .error e => E e v
        | .ok a => K row a v

/-- Read a locked row again, to update it. -/
def rereads (row : AccountRow) (K : V → Prop) (v : V) : Prop :=
  C.demand v (.selectAccountForUpdate row.id) fun r v =>
    match (r : Except Exn (Option AccountORM)) with
    | .error e => E e v
    | .ok none => E .noResultFound v
    | .ok (some orm) => orm = row.load ∧ K v

/-- Commit; what is refused is rolled back. -/
def finishes (w : Flush) (K : V → Prop) (v : V) : Prop :=
  C.demand v (.commit w) fun r v =>
    match (r : Except Exn Unit) with
    | .ok _ => K v
    | .error e =>
      if e.isException then C.demand v .rollback fun r v =>
        match (r : Except Exn Unit) with
        | .ok _ => E e v
        | .error e' => E e' v
      else E e v

/-- Save a new transaction and commit. -/
def commits (id : TransactionId) (w : Flush) (K : V → Prop) (v : V) : Prop :=
  C.demand v (.selectTransaction id) fun r v =>
    match (r : Except Exn (Option TransactionORM)) with
    | .error e => E e v
    | .ok (some _) => False
    | .ok none => finishes C E w K v

/-- Save a new account and commit. -/
def opens (id : AccountId) (w : Flush) (K : V → Prop) (v : V) : Prop :=
  C.demand v (.selectAccount id) fun r v =>
    match (r : Except Exn (Option AccountORM)) with
    | .error e => E e v
    | .ok (some _) => False
    | .ok none => finishes C E w K v

/-- Steps 8 and 9, or the `except` block. -/
def persists (senderRow receiverRow : AccountRow) (S : Settlement) (K : V → Prop) (v : V) : Prop :=
  let commit := commits C E S.tx.id (S.flush senderRow receiverRow) K
  match S.raised with
  | none => rereads C E senderRow (rereads C E receiverRow commit) v
  | some _ => commit v

/-- Steps 4 to 9. -/
def transfers (draws : TransferDraws) (command : TransferCommand) (amount : Money)
    (K : Settlement → V → Prop) : V → Prop :=
  loads C E command.fromAccountId fun senderRow sender =>
    loads C E command.toAccountId fun receiverRow receiver v =>
      match Transaction.initiate draws.tx command.fromAccountId command.toAccountId amount
          command.idempotencyKey with
      | .error e => E e v
      | .ok tx =>
        let S := draws.settle amount sender receiver tx
        persists C E senderRow receiverRow S (K S) v

end Demands

/-- How the unit of work ends when the settlement was committed. -/
def ending (S : Settlement) : Except Exn (AccountRef × AccountRef × TransactionRef) :=
  match S.raised with
  | none => .ok (0, 1, 0)
  | some e => .error e

/-- The process when the settlement was committed. -/
def leaves (S : Settlement) (acquired : List String) : Process SqlState :=
  .within [S.sender.collectEvents.2, S.receiver.collectEvents.2] [S.tx] .empty acquired

section Rules

variable {C} {E : Exn → V → Prop} {draws : TransferDraws} {command : TransferCommand}
  {amount : Money} {acquired : List String} {v : V}

theorem wp_getWithLock_of {Q : Except Exn (Option AccountRef) → Process SqlState → V → Prop}
    {accounts : List Account} {transactions : List Transaction} {w : Flush} {id : AccountId}
    {K : AccountRow → Account → V → Prop} (h : loads C E id K v)
    (hE : ∀ e p v, p.adapters.acquired = acquired → E e v → Q (.error e) p v)
    (hnone : ∀ p v, p.adapters.acquired = acquired → E (.resourceNotFound "Account" id) v →
      Q (.ok none) p v)
    (hK : ∀ row a v, row.id = id → a.id = id → K row a v →
      Q (.ok (some accounts.length)) (.within (accounts ++ [a]) transactions w acquired) v) :
    Task.wp C (sqlUow.accounts.getWithLock id) Q (.within accounts transactions w acquired) v := by
  rw [wp_getWithLock]
  refine C.mono (fun r v h => ?_) h
  obtain e | _ | orm := (r : Except Exn (Option AccountORM))
  · exact hE _ _ _ rfl h
  · exact hnone _ _ rfl h
  · obtain ⟨row, rfl, hrow, h⟩ := h
    cases ha : AccountMapper.toDomain row.load with
    | error e =>
      simp only [ha] at h ⊢
      exact hE _ _ _ rfl h
    | ok a =>
      simp only [ha] at h ⊢
      exact hK row a v hrow ((AccountMapper.toDomain_id ha).trans hrow) h

theorem wp_update_of {Q : Except Exn Unit → Process SqlState → V → Prop}
    {accounts : List Account} {transactions : List Transaction} {w : Flush} {ref : AccountRef}
    {a : Account} (ha : accounts[ref]? = some a) {row : AccountRow} (hid : a.id = row.id)
    (hnew : ∀ o ∈ w.dirtyAccounts, o.id ≠ row.id) {K : V → Prop} (h : rereads C E row K v)
    (hE : ∀ e p v, p.adapters.acquired = acquired → E e v → Q (.error e) p v)
    (hK : ∀ v, K v → Q (.ok ()) (.within accounts transactions
      { w with dirtyAccounts := w.dirtyAccounts ++ [AccountMapper.updateOrm row.load a] }
      acquired) v) :
    Task.wp C (sqlUow.accounts.update ref) Q (.within accounts transactions w acquired) v := by
  rw [wp_updateAccount C accounts transactions w acquired v ha, hid]
  refine C.mono (fun r v h => ?_) h
  obtain e | _ | orm := (r : Except Exn (Option AccountORM))
  · exact hE _ _ _ rfl h
  · exact hE _ _ _ rfl h
  · obtain ⟨rfl, h⟩ := h
    have htracked : w.trackedAccount row.load = row.load := by
      have hnone : w.dirtyAccounts.find? (fun o => o.id = row.load.id) = none :=
        List.find?_eq_none.mpr fun o ho => by
          simp only [decide_eq_true_eq]
          exact hnew o ho
      rw [Flush.trackedAccount, hnone]
      rfl
    have hmark : w.markAccount (AccountMapper.updateOrm row.load a) =
        { w with dirtyAccounts := w.dirtyAccounts ++ [AccountMapper.updateOrm row.load a] } := by
      have hkeep : w.dirtyAccounts.filter
          (fun o => o.id ≠ (AccountMapper.updateOrm row.load a).id) = w.dirtyAccounts :=
        List.filter_eq_self.mpr fun o ho => decide_eq_true (hnew o ho)
      simp only [Flush.markAccount, hkeep]
    simp only [htracked, hmark]
    exact hK v h

theorem wp_finish_of {Q : Except Exn Unit → Process SqlState → V → Prop}
    {p p' : Process SqlState}
    (hp : ∀ Q, Task.wp C SQLAlchemyUnitOfWork.collectAndStoreEvents Q p v = Q (.ok ()) p' v)
    {K : V → Prop} (h : finishes C E p'.adapters.session K v)
    (hE : ∀ e p v, p.adapters.acquired = p'.adapters.acquired → E e v → Q (.error e) p v)
    (hK : ∀ v, K v → Q (.ok ()) p'.flushed v) :
    Task.wp C sqlUow.commit Q p v := by
  rw [wp_commit C v hp]
  refine C.mono (fun r v h => ?_) h
  obtain e | _ := (r : Except Exn Unit)
  · cases he : e.isException
    · simp only [he, Bool.false_eq_true, if_false] at h ⊢
      exact hE _ _ _ rfl h
    · simp only [he, if_true] at h ⊢
      refine C.mono (fun r v h => ?_) h
      obtain e' | _ := (r : Except Exn Unit) <;> exact hE _ _ _ rfl h
  · exact hK v h

theorem wp_commit_of {α : Type} {Q : Except Exn α → Process SqlState → V → Prop}
    {accounts : List Account} {tx : Transaction} {w w' : Flush} {next : SqlTask α}
    (hw : w' = { w with
      newTransactions := w.newTransactions ++ [TransactionMapper.toNewOrm tx]
      newOutbox := w.newOutbox ++ accounts.flatMap Account.outbox })
    {K : V → Prop} (h : commits C E tx.id w' K v)
    (hE : ∀ e p v, p.adapters.acquired = acquired → E e v → Q (.error e) p v)
    (hK : ∀ v, K v → Task.wp C next Q
      (.within (accounts.map fun a => a.collectEvents.2) [tx] .empty acquired) v) :
    Task.wp C (do
      sqlUow.transactions.save 0
      sqlUow.commit
      next) Q (.within accounts [tx] w acquired) v := by
  rw [Task.wp_bind, wp_saveTransaction (t := tx) C accounts [tx] w acquired v rfl]
  refine C.mono (fun r v h => ?_) h
  obtain e | _ | orm := (r : Except Exn (Option TransactionORM))
  · exact hE _ _ _ rfl h
  · subst hw
    simp only
    rw [Task.wp_bind]
    exact wp_finish_of (wp_collectAndStoreEvents C _ accounts [tx] _ acquired) h hE hK
  · exact h.elim

/-- An account opening that keeps to its demands. -/
theorem wp_open_of {Q : Except Exn Unit → Process SqlState → V → Prop} {a : Account}
    {K : V → Prop}
    (h : opens C E a.id { Flush.empty with newAccounts := [AccountMapper.toNewOrm a] } K v)
    (hE : ∀ e p v, p.adapters.acquired = [] → E e v → Q (.error e) p v)
    (hK : ∀ v, K v → Q (.ok ()) ⟨⟨[a], []⟩, .init⟩ v) :
    Task.wp C (do
      sqlUow.accounts.save 0
      sqlUow.commit) Q ⟨⟨[a], []⟩, .init⟩ v := by
  rw [Task.wp_bind, wp_saveAccount (a := a) C v rfl]
  refine C.mono (fun r v h => ?_) h
  obtain e | _ | orm := (r : Except Exn (Option AccountORM))
  · exact hE _ _ _ rfl h
  · exact wp_finish_of (wp_collectAndStoreEvents_unseen C _ rfl rfl) h hE hK
  · exact h.elim

/-- A transfer that keeps to its demands ends as the settlement says or with an
exception that was allowed. -/
theorem wp_transferUnit_of
    {Q : Except Exn (AccountRef × AccountRef × TransactionRef) → Process SqlState → V → Prop}
    (hE : ∀ e p v, p.adapters.acquired = acquired → E e v → Q (.error e) p v)
    (h : transfers C E draws command amount (fun S v => Q (ending S) (leaves S acquired) v) v) :
    Task.wp C (transferUnit sqlUow draws command.fromAccountId command.toAccountId amount
      command.idempotencyKey) Q (.within [] [] .empty acquired) v := by
  rw [transferUnit, Task.wp_bind]
  refine wp_getWithLock_of h (fun e p v hp h => hE _ _ _ hp h)
    (fun p v hp h => by simpa only [Task.wp_throw] using hE _ p v hp h)
    fun senderRow sender v hsenderRow hsender h => ?_
  simp only
  rw [Task.wp_bind]
  refine wp_getWithLock_of h (fun e p v hp h => hE _ _ _ hp h)
    (fun p v hp h => by simpa only [Task.wp_throw] using hE _ p v hp h)
    fun receiverRow receiver v hreceiverRow hreceiver h => ?_
  simp only
  rw [Task.wp_bind, Task.wp_ofExcept]
  cases ht : Transaction.initiate draws.tx command.fromAccountId command.toAccountId amount
      command.idempotencyKey with
  | error e =>
    simp only [ht] at h
    exact hE _ _ _ rfl h
  | ok tx =>
    simp only [ht] at h ⊢
    obtain ⟨-, hne, htx⟩ := Transaction.initiate_ok ht
    have hpending : tx.status = .pending := by rw [htx]; rfl
    rw [Task.wp_bind, wp_newTransaction]
    simp only
    rw [Task.wp_bind]
    change Task.wp C (applyTransfer sqlUow draws amount 0 1 0) _
      (.within [sender, receiver] [tx] .empty acquired) v
    rw [wp_applyTransfer C hpending]
    obtain ⟨hid, hid'⟩ := draws.settle_id amount sender receiver tx
    generalize draws.settle amount sender receiver tx = S at *
    obtain ⟨raised, s, r, t⟩ := S
    cases raised with
    | some e =>
      refine wp_commit_of ?_ h (fun e p v hp h => hE _ _ _ hp h) fun v h => ?_
      · simp [Settlement.flush, Flush.empty]
      · rw [Task.wp_throw]
        exact h
    | none =>
      simp only
      rw [Task.wp_bind]
      refine wp_update_of (a := s) rfl (hid.trans (hsender.trans hsenderRow.symm))
        (by simp [Flush.empty]) h (fun e p v hp h => hE _ _ _ hp h) fun v h => ?_
      simp only
      rw [Task.wp_bind]
      refine wp_update_of (a := r) rfl (hid'.trans (hreceiver.trans hreceiverRow.symm)) ?_ h
        (fun e p v hp h => hE _ _ _ hp h) fun v h => ?_
      · intro o ho
        obtain rfl : o = AccountMapper.updateOrm senderRow.load s := by simpa [Flush.empty] using ho
        rw [hreceiverRow]
        exact fun h => hne (hsenderRow.symm.trans h)
      · simp only
        refine wp_commit_of ?_ h (fun e p v hp h => hE _ _ _ hp h) fun v h => ?_
        · simp [Settlement.flush, Flush.empty]
        · rw [Task.wp_pure]
          exact h

/-- The demands of a transfer where the rows that are read are those of `find`, in views that
reading keeps in `I`. -/
theorem transfers_of_find {find : AccountId → Option AccountRow}
    (hfind : ∀ {id row}, find id = some row → row.id = id) {I : V → Prop}
    {K : Settlement → V → Prop}
    (hloads : ∀ {id K v}, I v →
      (find id = none → ∀ v, I v → E (.resourceNotFound "Account" id) v) →
      (∀ row, find id = some row → ∀ v, I v →
        match AccountMapper.toDomain row.load with
        | .error e => E e v
        | .ok a => K row a v) → loads C E id K v)
    (hrereads : ∀ {row : AccountRow} {K v}, I v → find row.id = some row → (∀ v, I v → K v) →
      rereads C E row K v)
    (hends : ∀ e, command.resolve draws amount find = .error e → ∀ v, I v → E e v)
    (hcommits : ∀ senderRow receiverRow S,
      command.resolve draws amount find = .ok (senderRow, receiverRow, S) → ∀ v, I v →
        commits C E draws.tx.id (S.flush senderRow receiverRow) (K S) v)
    (hv : I v) : transfers C E draws command amount K v := by
  unfold transfers
  refine hloads hv (fun hnone => ?_) fun senderRow hsender v hv => ?_
  · exact hends _ (by simp only [TransferCommand.resolve, hnone])
  cases ha : AccountMapper.toDomain senderRow.load with
  | error e => exact hends _ (by simp only [TransferCommand.resolve, hsender, ha]) _ hv
  | ok sender =>
    refine hloads hv (fun hnone => ?_) fun receiverRow hreceiver v hv => ?_
    · exact hends _ (by simp only [TransferCommand.resolve, hsender, ha, hnone])
    cases hb : AccountMapper.toDomain receiverRow.load with
    | error e =>
      exact hends _ (by simp only [TransferCommand.resolve, hsender, ha, hreceiver, hb]) _ hv
    | ok receiver =>
      simp only
      cases htx : Transaction.initiate draws.tx command.fromAccountId command.toAccountId amount
          command.idempotencyKey with
      | error e =>
        exact hends _ (by simp only [TransferCommand.resolve, hsender, ha, hreceiver, hb, htx]) _ hv
      | ok tx =>
        have hresolve : command.resolve draws amount find =
            .ok (senderRow, receiverRow, draws.settle amount sender receiver tx) := by
          simp only [TransferCommand.resolve, hsender, ha, hreceiver, hb, htx]
        have hcommits := hcommits _ _ _ hresolve
        simp only [persists, draws.settle_tx_id sender receiver htx]
        split
        · exact hrereads hv (hfind hsender ▸ hsender) fun v hv =>
            hrereads hv (hfind hreceiver ▸ hreceiver) hcommits
        · exact hcommits v hv

end Rules

end TransferService

end BankingTransactions
