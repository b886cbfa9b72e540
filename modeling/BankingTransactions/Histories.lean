import BankingTransactions.Settlement
import BankingTransactions.Server

/-!
# Serial histories

A commit is legal when it writes exactly what its request makes of the database
just before, and the identifier of the request was not in use. A serial history
is a chain of legal commits. `Commit.Legal.cases` says once what a legal commit can
be: an account is opened, an amount has moved, or a failure is recorded.
-/
namespace BankingTransactions
open DecimalArithmetic InteractionPrograms ThreadPools

namespace Database

theorem flush_opened {db db' : Database} {orm : AccountORM} :
    db.flush { Flush.empty with newAccounts := [orm] } = .ok db' ↔
      ∃ balance, Numeric.store orm.balance = some balance ∧ orm.id ∉ db.accounts.map (·.id) ∧
        orm.accountNumber ∉ db.accounts.map (·.accountNumber) ∧
        db'.accounts = db.accounts ++ [orm.withBalance balance] ∧
        db'.transactions = db.transactions ∧ db'.outbox = db.outbox := by
  have hflush : db.flush { Flush.empty with newAccounts := [orm] } = db.insertAccount orm := by
    simp only [flush, Flush.empty, List.foldlM_cons, List.foldlM_nil, bind_pure, pure_bind,
      List.append_nil]
    exact bind_pure _
  rw [hflush, insertAccount_ok]

theorem flush_transfer {db db' : Database} {dirty : List AccountORM} {orm : TransactionORM}
    {messages : List OutboxMessage} :
    db.flush ⟨[], dirty, [orm], [], messages⟩ = .ok db' ↔
      ∃ moved, dirty.foldlM updateAccount db = .ok moved ∧
      ∃ amount, Numeric.store orm.amount = some amount ∧
        orm.idempotencyKey.length ≤ keyLength ∧ orm.id ∉ moved.transactions.map (·.id) ∧
        orm.idempotencyKey ∉ moved.transactions.map (·.idempotencyKey) ∧
        db'.accounts = moved.accounts ∧
        db'.transactions = moved.transactions ++ [orm.withAmount amount] ∧
        db'.outbox = moved.outbox ++ messages := by
  simp only [flush, List.foldlM_cons, List.foldlM_nil, bind_pure, pure_bind, bind_eq_ok]
  refine exists_congr fun moved => and_congr_right fun _ => ?_
  constructor
  · rintro ⟨inserted, hinsert, hdb⟩
    obtain rfl := Except.ok.inj hdb
    obtain ⟨amount, hamount, hlength, hid, hkey, ha, ht, ho⟩ := insertTransaction_ok.mp hinsert
    exact ⟨amount, hamount, hlength, hid, hkey, ha, ht, by rw [← ho]⟩
  · rintro ⟨amount, hamount, hlength, hid, hkey, ha, ht, ho⟩
    refine ⟨{ db' with outbox := moved.outbox },
      insertTransaction_ok.mpr ⟨amount, hamount, hlength, hid, hkey, ha, ht, rfl⟩, ?_⟩
    exact congrArg Except.ok (ext rfl rfl ho.symm)

theorem updates_keep {db db' : Database} {orms : List AccountORM}
    (h : orms.foldlM updateAccount db = .ok db') :
    db'.transactions = db.transactions ∧ db'.outbox = db.outbox := by
  induction orms generalizing db with
  | nil =>
    obtain rfl := Except.ok.inj h
    exact ⟨rfl, rfl⟩
  | cons orm orms ih =>
    rw [List.foldlM_cons, bind_eq_ok] at h
    obtain ⟨mid, hmid, h⟩ := h
    obtain ⟨-, -, -, -, htransactions, houtbox⟩ := updateAccount_ok.mp hmid
    exact ⟨(ih h).1.trans htransactions, (ih h).2.trans houtbox⟩

/-- What two updates of different accounts make of the accounts. -/
theorem update_pair {db db' : Database} {orm orm' : AccountORM} (hne : orm.id ≠ orm'.id)
    (h : [orm, orm'].foldlM updateAccount db = .ok db') :
    ∃ balance balance', Numeric.store orm.balance = some balance ∧
      Numeric.store orm'.balance = some balance' ∧
      ∀ id, db'.findAccount id =
        if id = orm.id then (db.findAccount id).map (setAccount orm balance)
        else if id = orm'.id then (db.findAccount id).map (setAccount orm' balance')
        else db.findAccount id := by
  simp only [List.foldlM_cons, List.foldlM_nil, bind_pure, bind_eq_ok] at h
  obtain ⟨mid, hmid, hdb⟩ := h
  obtain ⟨balance, hbalance, -, haccounts, -, -⟩ := updateAccount_ok.mp hmid
  obtain ⟨balance', hbalance', -, haccounts', -, -⟩ := updateAccount_ok.mp hdb
  refine ⟨balance, balance', hbalance, hbalance', fun id => ?_⟩
  have hset (orm : AccountORM) (balance : Numeric) (db db' : Database)
      (h : db'.accounts = db.accounts.map (setAccount orm balance)) :
      db'.findAccount id = (db.findAccount id).map (setAccount orm balance) := by
    simp only [findAccount, h, List.find?_map, Function.comp_def, setAccount_id]
  rw [hset orm' balance' mid db' haccounts', hset orm balance db mid haccounts]
  cases hfind : db.findAccount id with
  | none => simp
  | some row =>
    obtain ⟨-, rfl⟩ := findAccount_eq_some.mp hfind
    split_ifs with hid hid'
    · simp [setAccount, hid, hne]
    · simp [setAccount, hid', hne.symm]
    · simp [setAccount, hid, hid']

/-- Every balance is a whole number of cents. -/
def Whole (db : Database) : Prop := ∀ row ∈ db.accounts, ∃ c, row.balance.IsCents c

theorem Whole.of_find {db : Database} (h : db.Whole) {id : AccountId} {row : AccountRow}
    (hrow : db.findAccount id = some row) : ∃ c, row.balance.IsCents c :=
  h row (findAccount_eq_some.mp hrow).1

end Database

namespace TransferCommand

variable (command : TransferCommand) (draws : TransferDraws) (amount : Money) (stored : Numeric)

/-- The row of a completed transfer. -/
def completedRow : TransactionRow :=
  { id := draws.tx.id, fromAccountId := command.fromAccountId, toAccountId := command.toAccountId
    amount := stored, currency := amount.currency, transactionType := .transfer
    status := .completed, idempotencyKey := command.idempotencyKey, failureCode := none
    failureReason := none, createdAt := draws.tx.createdAt, updatedAt := draws.completed.now
    completedAt := some draws.completed.now }

/-- The row of a transfer that failed with `e`. -/
def failedRow (e : Exn) : TransactionRow :=
  { id := draws.tx.id, fromAccountId := command.fromAccountId, toAccountId := command.toAccountId
    amount := stored, currency := amount.currency, transactionType := .transfer
    status := .failed, idempotencyKey := command.idempotencyKey
    failureCode := some e.failureCode, failureReason := some e.message
    createdAt := draws.tx.createdAt, updatedAt := draws.failed.now, completedAt := none }

end TransferCommand

/-- The balance that is moved by `amount` cents, as a new row. -/
def AccountRecord.changed (row : AccountRow) (balance : Numeric) (now : Time) : AccountRow :=
  { row with balance := balance, updatedAt := now }

/-- The outbox message of the debit of a transfer. -/
def TransferDraws.debitMessage (draws : TransferDraws) (command : TransferCommand)
    (amount after : Money) : OutboxMessage :=
  .ofEvent (draws.debited.stamp.event (.balanceDebited command.fromAccountId draws.tx.id
    amount.amount amount.currency.value after.amount))

/-- The outbox message of the credit of a transfer. -/
def TransferDraws.creditMessage (draws : TransferDraws) (command : TransferCommand)
    (amount after : Money) : OutboxMessage :=
  .ofEvent (draws.credited.stamp.event (.balanceCredited command.toAccountId draws.tx.id
    amount.amount amount.currency.value after.amount))

namespace Commit

/-- The commit writes what its request makes of the database before. -/
structure Legal (c : Commit) : Prop where
  written : c.request.flush c.before.findAccount = .ok c.written
  flushed : c.before.flush c.written = .ok c.after

/-- An account is opened. -/
structure Opens (c : Commit) (draws : AccountDraws) (command : CreateAccountCommand)
    (a : Account) (balance : Numeric) : Prop where
  request : c.request = .create draws command
  opened : command.opened draws = .ok a
  cents : balance.IsCents a.balance.cents
  new : c.before.findAccount draws.id = none
  accounts : ∀ id, c.after.findAccount id =
    if id = draws.id then some ((AccountMapper.toNewOrm a).withBalance balance)
    else c.before.findAccount id
  transactions : c.after.transactions = c.before.transactions
  events : c.written.newOutbox = []

/-- A transfer finds these two rows. -/
structure Finds (c : Commit) (draws : TransferDraws) (command : TransferCommand)
    (amount : Money) (sender receiver : AccountRow) (stored : Numeric) : Prop where
  request : c.request = .transfer draws command
  money : command.money = .ok amount
  positive : amount.cents ≠ 0
  distinct : command.fromAccountId ≠ command.toAccountId
  findsSender : c.before.findAccount command.fromAccountId = some sender
  findsReceiver : c.before.findAccount command.toAccountId = some receiver
  cents : stored.IsCents amount.cents
  unused : c.before.findByKey command.idempotencyKey = none
  new : c.before.findTransaction draws.tx.id = none

/-- The amount has moved. -/
structure Completes (c : Commit) (draws : TransferDraws) (command : TransferCommand)
    (amount : Money) (sender receiver : AccountRow) (stored : Numeric)
    (debited credited : Money) (balance balance' : Numeric) : Prop
    extends Finds c draws command amount sender receiver stored where
  acceptsDebit : sender.AcceptsDebit amount
  acceptsCredit : receiver.AcceptsCredit amount
  debitedCents : balance.IsCents debited.cents
  creditedCents : balance'.IsCents credited.cents
  moved : balance.units + 100 * amount.cents = sender.balance.units
  moved' : balance'.units = receiver.balance.units + 100 * amount.cents
  accounts : ∀ id, c.after.findAccount id =
    if id = command.fromAccountId then some (sender.changed balance draws.debited.now)
    else if id = command.toAccountId then some (receiver.changed balance' draws.credited.now)
    else c.before.findAccount id
  transactions : c.after.transactions =
    c.before.transactions ++ [command.completedRow draws amount stored]
  events : c.written.newOutbox =
    [draws.debitMessage command amount debited, draws.creditMessage command amount credited]

/-- A failure is recorded. -/
structure Fails (c : Commit) (draws : TransferDraws) (command : TransferCommand)
    (amount : Money) (sender receiver : AccountRow) (stored : Numeric) (e : Exn) : Prop
    extends Finds c draws command amount sender receiver stored where
  refused : ¬ (sender.AcceptsDebit amount ∧ receiver.AcceptsCredit amount)
  accounts : c.after.accounts = c.before.accounts
  transactions : c.after.transactions =
    c.before.transactions ++ [command.failedRow draws amount stored e]
  noEvents : ¬ sender.AcceptsDebit amount → c.written.newOutbox = []
  phantom : sender.AcceptsDebit amount → ∃ debited : Money,
    100 * (debited.cents + amount.cents : ℤ) = sender.balance.units ∧
    c.written.newOutbox = [draws.debitMessage command amount debited]

theorem legal_create {c : Commit} (h : c.Legal) {draws : AccountDraws}
    {command : CreateAccountCommand} (hrequest : c.request = .create draws command) :
    ∃ a balance, c.Opens draws command a balance := by
  have hwritten := h.written
  rw [hrequest] at hwritten
  obtain ⟨a, hopened, hw⟩ := Request.flush_create_ok.mp hwritten
  have hflushed := h.flushed
  rw [hw] at hflushed
  obtain ⟨balance, hstore, hnew, -, haccounts, htransactions, -⟩ :=
    Database.flush_opened.mp hflushed
  have hid : (AccountMapper.toNewOrm a).id = draws.id := CreateAccountCommand.opened_id hopened
  refine ⟨a, balance, hrequest, hopened, Money.isCents_of_store hstore, ?_, fun id => ?_,
    htransactions, by rw [hw]; rfl⟩
  · rw [Database.findAccount_eq_none, ← hid]
    exact hnew
  · rw [← hid]
    simp only [Database.findAccount, haccounts]
    exact find_insert (fun r : AccountRow => r.id)
      (a := (AccountMapper.toNewOrm a).withBalance balance) hnew id

theorem finds_of_legal {c : Commit} (h : c.Legal) {draws : TransferDraws}
    {command : TransferCommand} (hrequest : c.request = .transfer draws command) :
    ∃ amount sender receiver stored a b tx moved,
      c.Finds draws command amount sender receiver stored ∧
      AccountMapper.toDomain sender.load = .ok a ∧ AccountMapper.toDomain receiver.load = .ok b ∧
      Transaction.initiate draws.tx command.fromAccountId command.toAccountId amount
        command.idempotencyKey = .ok tx ∧
      c.written = (draws.settle amount a b tx).flush sender receiver ∧
      c.written.dirtyAccounts.foldlM Database.updateAccount c.before = .ok moved ∧
      c.after.accounts = moved.accounts ∧
      c.after.transactions = c.before.transactions ++
        [(TransactionMapper.toNewOrm (draws.settle amount a b tx).tx).withAmount stored] := by
  have hwritten := h.written
  rw [hrequest] at hwritten
  obtain ⟨amount, sender, receiver, S, hmoney, hresolve, hw⟩ :=
    Request.flush_transfer_ok.mp hwritten
  obtain ⟨hsender, hreceiver, a, b, tx, ha, hb, htx, rfl⟩ := TransferCommand.resolve_ok.mp hresolve
  have hflushed := h.flushed
  rw [hw] at hflushed
  obtain ⟨moved, hmoved, stored, hstored, -, hnew, hunused, haccounts, htransactions, -⟩ :=
    Database.flush_transfer.mp hflushed
  obtain ⟨hpositive, hne, htx'⟩ := Transaction.initiate_ok htx
  obtain ⟨hid, hamount, hkey⟩ := draws.settle_tx_same amount a b
    (show tx.status = .pending by rw [htx']; rfl)
  have hid' : (draws.settle amount a b tx).tx.id = draws.tx.id := by rw [hid, htx']; rfl
  have hamount' : (draws.settle amount a b tx).tx.amount = amount := by rw [hamount, htx']; rfl
  have hkey' : (draws.settle amount a b tx).tx.idempotencyKey = command.idempotencyKey := by
    rw [hkey, htx']; rfl
  have hkept := (Database.updates_keep hmoved).1
  refine ⟨amount, sender, receiver, stored, a, b, tx, moved, ⟨hrequest, hmoney, hpositive, hne,
    hsender, hreceiver, ?_, ?_, ?_⟩, ha, hb, htx, hw, by rw [hw]; exact hmoved, haccounts,
    by rw [htransactions, hkept]⟩
  · rw [← hamount']
    exact Money.isCents_of_store hstored
  · rw [Database.findByKey_eq_none, ← hkey', ← hkept]
    exact hunused
  · rw [Database.findTransaction_eq_none, ← hid', ← hkept]
    exact hnew

theorem completed_row {draws : TransferDraws} {command : TransferCommand} {amount : Money}
    {tx : Transaction} (stored : Numeric)
    (htx : Transaction.initiate draws.tx command.fromAccountId command.toAccountId amount
      command.idempotencyKey = .ok tx) :
    (TransactionMapper.toNewOrm (draws.completedTx tx)).withAmount stored =
      command.completedRow draws amount stored := by
  obtain ⟨-, -, rfl⟩ := Transaction.initiate_ok htx
  rw [TransferDraws.completedTx_eq rfl, TransferDraws.processed_eq rfl]
  rfl

theorem failed_row {draws : TransferDraws} {command : TransferCommand} {amount : Money}
    {tx : Transaction} (stored : Numeric) (e : Exn)
    (htx : Transaction.initiate draws.tx command.fromAccountId command.toAccountId amount
      command.idempotencyKey = .ok tx) :
    (TransactionMapper.toNewOrm (draws.failedTx e tx)).withAmount stored =
      command.failedRow draws amount stored e := by
  obtain ⟨-, -, rfl⟩ := Transaction.initiate_ok htx
  rw [TransferDraws.failedTx_eq rfl, TransferDraws.processed_eq rfl]
  rfl

/-- Updating a row from the aggregate it was loaded into changes the balance and the time. -/
theorem setAccount_moved {row : AccountRow} {c : ℕ} {h : row.balance.IsCents c} {b : Money}
    (hcur : b.currency = (row.account c h).balance.currency) (balance : Numeric) {now : Time}
    {e : DomainEvent} :
    Database.setAccount (AccountMapper.updateOrm row.load ((row.account c h).moved b now e))
      balance row = row.changed balance now := by
  have hid : row.id = (AccountMapper.updateOrm row.load ((row.account c h).moved b now e)).id := rfl
  simp only [Database.setAccount, if_pos hid]
  simp only [AccountMapper.updateOrm, Account.moved, AccountRecord.changed, hcur]
  rfl

theorem legal_transfer {c : Commit} (h : c.Legal) (hwhole : c.before.Whole)
    {draws : TransferDraws} {command : TransferCommand}
    (hrequest : c.request = .transfer draws command) :
    (∃ amount sender receiver stored debited credited balance balance',
      c.Completes draws command amount sender receiver stored debited credited balance balance') ∨
    ∃ amount sender receiver stored e,
      c.Fails draws command amount sender receiver stored e := by
  obtain ⟨amount, sender, receiver, stored, a, b, tx, moved, hfinds, ha, hb, htx, hw, hmoved,
    haccounts, htransactions⟩ := finds_of_legal h hrequest
  obtain ⟨cs, hcs⟩ := hwhole.of_find hfinds.findsSender
  obtain ⟨cr, hcr⟩ := hwhole.of_find hfinds.findsReceiver
  obtain rfl : a = sender.account cs hcs :=
    Except.ok.inj (ha.symm.trans (AccountMapper.toDomain_load hcs))
  obtain rfl : b = receiver.account cr hcr :=
    Except.ok.inj (hb.symm.trans (AccountMapper.toDomain_load hcr))
  have hsenderId : sender.id = command.fromAccountId :=
    (Database.findAccount_eq_some.mp hfinds.findsSender).2
  have hreceiverId : receiver.id = command.toAccountId :=
    (Database.findAccount_eq_some.mp hfinds.findsReceiver).2
  have htxId : tx.id = draws.tx.id := by rw [(Transaction.initiate_ok htx).2.2]; rfl
  by_cases hd : sender.AcceptsDebit amount
  · have hd' := (AccountRecord.canDebit_account hcs amount).mpr hd
    have hcredit := AccountRecord.canCredit_account hcr hfinds.cents.lt
    by_cases hc : receiver.AcceptsCredit amount
    · obtain ⟨bs, br, hbscur, hbs, hbrcur, hbr, hS⟩ :=
        draws.settle_of_accepted tx hd' (hcredit.mpr hc)
      left
      rw [hS] at hw htransactions
      rw [hw] at hmoved
      have hne : sender.id ≠ receiver.id := by
        rw [hsenderId, hreceiverId]
        exact hfinds.distinct
      simp only [Settlement.flush] at hmoved
      obtain ⟨balance, balance', hstore, hstore', hfind⟩ := Database.update_pair hne hmoved
      have hdebited : balance.IsCents bs.cents := Money.isCents_of_store hstore
      have hcredited : balance'.IsCents br.cents := Money.isCents_of_store hstore'
      refine ⟨amount, sender, receiver, stored, bs, br, balance, balance', hfinds, hd, hc,
        hdebited, hcredited, ?_, ?_, fun id => ?_, ?_, ?_⟩
      · have hbs' : bs.cents + amount.cents = cs := hbs
        rw [hdebited, hcs, ← hbs']
        push_cast
        ring
      · have hbr' : br.cents = cr + amount.cents := hbr
        rw [hcredited, hcr, hbr']
        push_cast
        ring
      · have hafter : c.after.findAccount id = moved.findAccount id := by
          simp only [Database.findAccount, haccounts]
        rw [hafter, hfind id]
        change (if id = sender.id then _ else if id = receiver.id then _ else _) = _
        rw [hsenderId, hreceiverId]
        split_ifs with hid hid'
        · rw [hid, hfinds.findsSender]
          exact congrArg some (setAccount_moved hbscur balance)
        · rw [hid', hfinds.findsReceiver]
          exact congrArg some (setAccount_moved hbrcur balance')
        · rfl
      · rw [htransactions, completed_row stored htx]
      · rw [hw, TransferDraws.debitMessage, TransferDraws.creditMessage, ← hsenderId, ← hreceiverId,
          ← htxId]
        rfl
    · obtain ⟨e, bs, -, hbscur, hbs, hS⟩ :=
        draws.settle_of_not_canCredit tx hd' (mt hcredit.mp hc)
      right
      rw [hS] at hw htransactions
      rw [hw] at hmoved
      obtain rfl := Except.ok.inj hmoved
      refine ⟨amount, sender, receiver, stored, e, hfinds, fun h => hc h.2, haccounts, ?_,
        fun h => absurd hd h, fun _ => ⟨bs, ?_, ?_⟩⟩
      · rw [htransactions, failed_row stored e htx]
      · have hbs' : bs.cents + amount.cents = cs := hbs
        rw [hcs, ← hbs']
        push_cast
        ring
      · rw [hw, TransferDraws.debitMessage, ← hsenderId, ← htxId]
        rfl
  · obtain ⟨e, -, hS⟩ := draws.settle_of_not_canDebit (receiver.account cr hcr) tx
      (mt (AccountRecord.canDebit_account hcs amount).mp hd)
    right
    rw [hS] at hw htransactions
    rw [hw] at hmoved
    obtain rfl := Except.ok.inj hmoved
    refine ⟨amount, sender, receiver, stored, e, hfinds, fun h => hd h.1, haccounts, ?_,
      fun _ => by rw [hw]; rfl, fun h => absurd h hd⟩
    rw [htransactions, failed_row stored e htx]

/-- What a legal commit can be. -/
inductive Effect (c : Commit) : Prop
  | opened {draws command a balance} (h : c.Opens draws command a balance)
  | completed {draws command amount sender receiver stored debited credited balance balance'}
      (h : c.Completes draws command amount sender receiver stored debited credited balance
        balance')
  | failed {draws command amount sender receiver stored e}
      (h : c.Fails draws command amount sender receiver stored e)

theorem Legal.cases {c : Commit} (h : c.Legal) (hwhole : c.before.Whole) : c.Effect := by
  cases hrequest : c.request with
  | create draws command =>
    obtain ⟨a, balance, ha⟩ := legal_create h hrequest
    exact .opened ha
  | transfer draws command =>
    obtain ⟨_, _, _, _, _, _, _, _, hc⟩ | ⟨_, _, _, _, _, hf⟩ := legal_transfer h hwhole hrequest
    · exact .completed hc
    · exact .failed hf

theorem Fails.findAccount {c : Commit} {draws : TransferDraws} {command : TransferCommand}
    {amount : Money} {sender receiver : AccountRow} {stored : Numeric} {e : Exn}
    (h : c.Fails draws command amount sender receiver stored e) (id : AccountId) :
    c.after.findAccount id = c.before.findAccount id := by
  simp only [Database.findAccount, h.accounts]

theorem Legal.whole {c : Commit} (h : c.Legal) (hwhole : c.before.Whole) : c.after.Whole := by
  intro row hrow
  have hfind := Database.findAccount_eq_some.mpr ⟨hrow, rfl⟩
  cases h.cases hwhole with
  | opened ho =>
    rw [ho.accounts] at hfind
    split_ifs at hfind
    · obtain rfl := Option.some.inj hfind
      exact ⟨_, ho.cents⟩
    · exact hwhole.of_find hfind
  | completed hc =>
    rw [hc.accounts] at hfind
    split_ifs at hfind
    · obtain rfl := Option.some.inj hfind
      exact ⟨_, hc.debitedCents⟩
    · obtain rfl := Option.some.inj hfind
      exact ⟨_, hc.creditedCents⟩
    · exact hwhole.of_find hfind
  | failed hf =>
    rw [hf.findAccount] at hfind
    exact hwhole.of_find hfind

/-- A row is only touched by a transfer from or to it. -/
theorem Legal.frame {c : Commit} (h : c.Legal) (hwhole : c.before.Whole) {id : AccountId}
    {row : AccountRow} (hrow : c.before.findAccount id = some row)
    (hother : ∀ draws command, c.request = .transfer draws command →
      id ≠ command.fromAccountId ∧ id ≠ command.toAccountId) :
    c.after.findAccount id = some row := by
  cases h.cases hwhole with
  | opened ho =>
    rw [ho.accounts, if_neg, hrow]
    rintro rfl
    rw [ho.new] at hrow
    cases hrow
  | completed hc =>
    obtain ⟨hfrom, hto⟩ := hother _ _ hc.request
    rw [hc.accounts, if_neg hfrom, if_neg hto, hrow]
  | failed hf => rw [hf.findAccount, hrow]

/-- A commit adds no identifier but that of its request. -/
theorem Legal.ids {c : Commit} (h : c.Legal) (hwhole : c.before.Whole) (id : UUID)
    (hid : id ≠ c.request.newId) :
    (c.before.findAccount id = none → c.after.findAccount id = none) ∧
      (c.before.findTransaction id = none → c.after.findTransaction id = none) := by
  cases h.cases hwhole with
  | opened ho =>
    simp only [ho.request, Request.newId] at hid
    refine ⟨fun hnone => by rw [ho.accounts, if_neg hid, hnone], fun hnone => ?_⟩
    rw [Database.findTransaction, ho.transactions]
    exact hnone
  | completed hc =>
    simp only [hc.request, Request.newId] at hid
    refine ⟨fun hnone => ?_, fun hnone => ?_⟩
    · rw [hc.accounts, if_neg, if_neg, hnone]
      · rintro rfl
        rw [hc.findsReceiver] at hnone
        cases hnone
      · rintro rfl
        rw [hc.findsSender] at hnone
        cases hnone
    · rw [Database.findTransaction_eq_none] at hnone ⊢
      rw [hc.transactions, List.map_append, List.mem_append, not_or]
      exact ⟨hnone, by simpa [TransferCommand.completedRow] using hid⟩
  | failed hf =>
    simp only [hf.request, Request.newId] at hid
    refine ⟨fun hnone => by rw [hf.findAccount, hnone], fun hnone => ?_⟩
    rw [Database.findTransaction_eq_none] at hnone ⊢
    rw [hf.transactions, List.map_append, List.mem_append, not_or]
    exact ⟨hnone, by simpa [TransferCommand.failedRow] using hid⟩

end Commit

/-! ## Chains of legal commits -/

/-- `history` leads from one database to another, one legal commit after the other. -/
inductive SerialHistory (start : Database) : List Commit → Database → Prop
  | nil : SerialHistory start [] start
  | snoc {history : List Commit} {c : Commit} :
      SerialHistory start history c.before → c.Legal → SerialHistory start (history ++ [c]) c.after

namespace SerialHistory

variable {start db : Database} {history : List Commit}

theorem whole (h : SerialHistory start history db) (hstart : start.Whole) : db.Whole := by
  induction h with
  | nil => exact hstart
  | snoc _ hc ih => exact hc.whole ih

theorem legal (h : SerialHistory start history db) (hstart : start.Whole) :
    ∀ c ∈ history, c.Legal ∧ c.before.Whole := by
  induction h with
  | nil => simp
  | snoc hbefore hc ih =>
    intro c hmem
    rcases List.mem_append.mp hmem with hmem | hmem
    · exact ih c hmem
    · obtain rfl := List.mem_singleton.mp hmem
      exact ⟨hc, hbefore.whole hstart⟩

/-- The database after a history. -/
def databaseAfter (start : Database) (history : List Commit) : Database :=
  (history.getLast?.map (·.after)).getD start

theorem databaseAfter_eq (h : SerialHistory start history db) :
    databaseAfter start history = db := by
  cases h with
  | nil => rfl
  | snoc hbefore hc => simp [databaseAfter]

/-- What comes before a commit leads to the database that it finds. -/
theorem split {before after : List Commit} {c : Commit}
    (h : SerialHistory start (before ++ c :: after) db) : SerialHistory start before c.before := by
  generalize hall : before ++ c :: after = history at h
  induction h generalizing after with
  | nil => simp at hall
  | @snoc history c' hbefore hc ih =>
    rcases List.eq_nil_or_concat after with rfl | ⟨rest, last, rfl⟩
    · obtain ⟨rfl, hlast⟩ := List.append_inj' hall rfl
      obtain rfl := List.singleton_inj.mp hlast
      exact hbefore
    · rw [List.concat_eq_append, ← List.cons_append, ← List.append_assoc] at hall
      exact ih (List.append_inj' hall rfl).1

end SerialHistory

theorem Database.whole_empty : Database.empty.Whole := by
  intro row hrow
  cases hrow

end BankingTransactions
