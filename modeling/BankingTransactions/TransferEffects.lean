import BankingTransactions.CommutingActions
import BankingTransactions.SerialOutcomes

/-!
# What a transfer adds to the database

A transfer that runs alone adds to the database: amounts to two balances, a row to the
transactions, messages to the outbox. What it adds, and its outcome, depend on the row of its
key and the rows of its two accounts only, and on its draws only in the generated ids and
timestamps; the anonymous forms of outcomes, rows and messages leave these out.
-/
namespace BankingTransactions
open DecimalArithmetic InteractionPrograms CommutingActions

/-! ## Generated ids and timestamps left out -/

def TransactionDTO.anonymous (dto : TransactionDTO) : TransactionDTO :=
  { dto with id := 0, createdAt := 0, completedAt := dto.completedAt.map fun _ => 0 }

def TransactionRecord.anonymous {ν : Type} (row : TransactionRecord ν) : TransactionRecord ν :=
  { row with id := 0, createdAt := 0, updatedAt := 0, completedAt := row.completedAt.map fun _ => 0 }

/-- The ids of accounts stay: no transfer generates one. -/
def EventBody.anonymous : EventBody → EventBody
  | .balanceDebited a _ x c y => .balanceDebited a 0 x c y
  | .balanceCredited a _ x c y => .balanceCredited a 0 x c y
  | .transactionInitiated _ f t x c k => .transactionInitiated 0 f t x c k
  | .transactionProcessing _ f t x c => .transactionProcessing 0 f t x c
  | .transactionCompleted _ f t x c => .transactionCompleted 0 f t x c
  | .transactionFailed _ f t x c d r b => .transactionFailed 0 f t x c d r b
  | .transactionRolledBack _ f x c => .transactionRolledBack 0 f x c
  | body => body

/-- The aggregate id of a message is the id of its event. -/
def OutboxMessage.anonymous (m : OutboxMessage) : OutboxMessage :=
  { m with payload := ⟨0, 0, m.payload.body.anonymous⟩, aggregateId := "" }

/-- The same transaction as far as it is not generated, or the same exception. -/
def AlikeOutcome : Except Exn Response → Except Exn Response → Prop
  | .ok (.transaction dto), .ok (.transaction dto') => dto.anonymous = dto'.anonymous
  | .error e, .error e' => e = e'
  | _, _ => False

/-! ## The settlement of given accounts -/

namespace Account

/-- The balance after a debit, or why it is refused. -/
def debitResult (a : Account) (amount : Money) : Except Exn Money :=
  match a.status with
  | .closed => .error (.accountClosed a.id)
  | .frozen => .error (.accountFrozen a.id)
  | .active => a.balance.sub amount

def creditResult (a : Account) (amount : Money) : Except Exn Money :=
  match a.status with
  | .closed => .error (.accountClosed a.id)
  | .frozen => .error (.accountFrozen a.id)
  | .active => a.balance.add amount

theorem debit_on_result (amount : Money) (transactionId : UUID) (now : Time) (stamp : Stamp)
    (a : Account) :
    (debit amount transactionId now stamp).on a =
      match a.debitResult amount with
      | .error e => (.error e, a)
      | .ok b => (.ok (), a.moved b now (stamp.event
          (.balanceDebited a.id transactionId amount.amount amount.currency.value b.amount))) := by
  rw [debit_on, debitResult]
  cases a.status <;> rfl

theorem credit_on_result (amount : Money) (transactionId : UUID) (now : Time) (stamp : Stamp)
    (a : Account) :
    (credit amount transactionId now stamp).on a =
      match a.creditResult amount with
      | .error e => (.error e, a)
      | .ok b => (.ok (), a.moved b now (stamp.event
          (.balanceCredited a.id transactionId amount.amount amount.currency.value b.amount))) := by
  rw [credit_on, creditResult]
  cases a.status <;> rfl

/-- The outbox of an account that has been debited or credited. -/
theorem outbox_moved (a : Account) (b : Money) (now : Time) (e : DomainEvent) :
    (a.moved b now e).outbox = a.outbox ++ [.ofEvent e] := by
  simp [outbox, moved, AggregateRoot.recordEvent]

end Account

namespace Settlement

/-- The same settlement as far as nothing of it is generated. -/
structure Alike (S S' : Settlement) : Prop where
  raised : S.raised = S'.raised
  sender : S.sender.balance = S'.sender.balance
  receiver : S.receiver.balance = S'.receiver.balance
  dto : (TransactionDTO.fromAggregate S.tx).anonymous = (TransactionDTO.fromAggregate S'.tx).anonymous
  orm : (TransactionMapper.toNewOrm S.tx).anonymous = (TransactionMapper.toNewOrm S'.tx).anonymous
  outbox : (S.sender.outbox ++ S.receiver.outbox).map OutboxMessage.anonymous =
    (S'.sender.outbox ++ S'.receiver.outbox).map OutboxMessage.anonymous

end Settlement

namespace TransferDraws

variable {draws draws' : TransferDraws} {fromId toId : AccountId} {amount : Money}
  {key : IdempotencyKey} {tx tx' : Transaction}

theorem completedTx_alike (htx : Transaction.initiate draws.tx fromId toId amount key = .ok tx)
    (htx' : Transaction.initiate draws'.tx fromId toId amount key = .ok tx') :
    (TransactionDTO.fromAggregate (draws.completedTx tx)).anonymous =
        (TransactionDTO.fromAggregate (draws'.completedTx tx')).anonymous ∧
      (TransactionMapper.toNewOrm (draws.completedTx tx)).anonymous =
        (TransactionMapper.toNewOrm (draws'.completedTx tx')).anonymous := by
  obtain ⟨-, -, rfl⟩ := Transaction.initiate_ok htx
  obtain ⟨-, -, rfl⟩ := Transaction.initiate_ok htx'
  rw [completedTx_eq rfl, processed_eq rfl, completedTx_eq rfl, processed_eq rfl]
  constructor <;> rfl

theorem failedTx_alike (e : Exn)
    (htx : Transaction.initiate draws.tx fromId toId amount key = .ok tx)
    (htx' : Transaction.initiate draws'.tx fromId toId amount key = .ok tx') :
    (TransactionDTO.fromAggregate (draws.failedTx e tx)).anonymous =
        (TransactionDTO.fromAggregate (draws'.failedTx e tx')).anonymous ∧
      (TransactionMapper.toNewOrm (draws.failedTx e tx)).anonymous =
        (TransactionMapper.toNewOrm (draws'.failedTx e tx')).anonymous := by
  obtain ⟨-, -, rfl⟩ := Transaction.initiate_ok htx
  obtain ⟨-, -, rfl⟩ := Transaction.initiate_ok htx'
  rw [failedTx_eq rfl, processed_eq rfl, failedTx_eq rfl, processed_eq rfl]
  constructor <;> rfl

/-- What is settled between two accounts depends on the draws in what they generate only. -/
theorem settle_alike (sender receiver : Account)
    (htx : Transaction.initiate draws.tx fromId toId amount key = .ok tx)
    (htx' : Transaction.initiate draws'.tx fromId toId amount key = .ok tx') :
    (draws.settle amount sender receiver tx).Alike (draws'.settle amount sender receiver tx') := by
  simp only [settle, debit, credit, Account.debit_on_result, Account.credit_on_result]
  cases sender.debitResult amount with
  | error e =>
    obtain ⟨hdto, horm⟩ := failedTx_alike e htx htx'
    exact ⟨rfl, rfl, rfl, hdto, horm, rfl⟩
  | ok debited =>
    cases receiver.creditResult amount with
    | error e =>
      obtain ⟨hdto, horm⟩ := failedTx_alike e htx htx'
      refine ⟨rfl, rfl, rfl, hdto, horm, ?_⟩
      simp only [Account.outbox_moved, List.map_append]
      rfl
    | ok credited =>
      obtain ⟨hdto, horm⟩ := completedTx_alike htx htx'
      refine ⟨rfl, rfl, rfl, hdto, horm, ?_⟩
      simp only [Account.outbox_moved, List.map_append]
      rfl

end TransferDraws

/-! ## Increments of the database -/

/-- The balance in ten-thousandths, and the status. -/
def AccountRecord.standing (row : AccountRow) : ℤ × AccountStatus := (row.balance.units, row.status)

def Database.standing (db : Database) (id : AccountId) : Option (ℤ × AccountStatus) :=
  (db.findAccount id).map AccountRecord.standing

/-- Amounts for the balances, rows for the transactions and messages for the outbox. -/
abbrev Delta : Type := (AccountId → ℤ) × Multiset TransactionRow × Multiset OutboxMessage

namespace Database

structure Adds (δ : Delta) (db db' : Database) : Prop where
  accounts : ∀ id, db'.standing id = (db.standing id).map fun p => (p.1 + δ.1 id, p.2)
  transactions : (db'.transactions : Multiset TransactionRow) = db.transactions + δ.2.1
  outbox : (db'.outbox : Multiset OutboxMessage) = db.outbox + δ.2.2

theorem adds_zero (db : Database) : db.Adds 0 db := by
  constructor
  · intro id
    cases db.standing id <;> simp
  · exact (add_zero _).symm
  · exact (add_zero _).symm

theorem Adds.trans {δ δ' : Delta} {db db' db'' : Database} (h : db.Adds δ db')
    (h' : db'.Adds δ' db'') : db.Adds (δ + δ') db'' := by
  constructor
  · intro id
    rw [h'.accounts, h.accounts, Option.map_map]
    congr 1
    funext p
    simp [add_assoc]
  · rw [h'.transactions, h.transactions, add_assoc]
    rfl
  · rw [h'.outbox, h.outbox, add_assoc]
    rfl

def increments : Increments Database Delta := ⟨Adds, adds_zero, Adds.trans⟩

end Database

namespace TransferCommand

variable (command : TransferCommand) (amount : Money) (sender receiver : AccountRow)

/-- The amount from one balance to the other. -/
def shift (id : AccountId) : ℤ :=
  if id = command.fromAccountId then -(100 * amount.cents)
  else if id = command.toAccountId then 100 * amount.cents else 0

/-- What a settlement of this command between these rows adds. -/
def delta (S : Settlement) (row : TransactionRow) : Delta :=
  (if sender.AcceptsDebit amount ∧ receiver.AcceptsCredit amount then command.shift amount else 0,
    {row}, (S.sender.outbox ++ S.receiver.outbox : List OutboxMessage))

variable {command amount sender receiver} {db db' : Database} {draws : TransferDraws}
  {S : Settlement}

theorem standing_of_legal (hwhole : db.Whole) {w : Flush}
    (h : Commit.Legal ⟨0, .transfer draws command, db, w, db'⟩) (hmoney : command.money = .ok amount)
    (hsender : db.findAccount command.fromAccountId = some sender)
    (hreceiver : db.findAccount command.toAccountId = some receiver) (id : AccountId) :
    db'.standing id = (db.standing id).map fun p => (p.1 + (if sender.AcceptsDebit amount ∧
      receiver.AcceptsCredit amount then command.shift amount else 0) id, p.2) := by
  obtain ⟨_, _, _, _, debited, credited, balance, balance', hcompletes⟩ |
    ⟨_, _, _, _, _, hfails⟩ := Commit.legal_transfer h hwhole rfl
  · obtain rfl := Except.ok.inj (hmoney.symm.trans hcompletes.money)
    obtain rfl := Option.some.inj (hsender.symm.trans hcompletes.findsSender)
    obtain rfl := Option.some.inj (hreceiver.symm.trans hcompletes.findsReceiver)
    have hfind := hcompletes.accounts id
    have hmoved := hcompletes.moved
    have hmoved' := hcompletes.moved'
    simp only at hfind
    rw [if_pos ⟨hcompletes.acceptsDebit, hcompletes.acceptsCredit⟩, Database.standing,
      Database.standing, hfind, shift]
    split_ifs with hfrom hto
    · rw [hfrom, hsender]
      simp only [Option.map_some, AccountRecord.standing, AccountRecord.changed]
      congr 2
      omega
    · rw [hto, hreceiver]
      simp only [Option.map_some, AccountRecord.standing, AccountRecord.changed]
      congr 2
    · cases db.findAccount id <;> simp
  · obtain rfl := Except.ok.inj (hmoney.symm.trans hfails.money)
    obtain rfl := Option.some.inj (hsender.symm.trans hfails.findsSender)
    obtain rfl := Option.some.inj (hreceiver.symm.trans hfails.findsReceiver)
    have hfind : db'.findAccount id = db.findAccount id := hfails.findAccount id
    rw [if_neg hfails.refused, Database.standing, Database.standing, hfind]
    cases db.findAccount id <;> simp

/-- A run that commits the settlement `S`, and what it adds. -/
structure Ran (command : TransferCommand) (draws : TransferDraws) (db : Database) (amount : Money)
    (sender receiver : AccountRow) (stored : Numeric) (S : Settlement) (db' : Database) : Prop where
  serial : command.serial draws db = .committed S (S.flush sender receiver) db'
  legal : Commit.Legal ⟨0, .transfer draws command, db, S.flush sender receiver, db'⟩
  adds : db.Adds (command.delta amount sender receiver S
    ((TransactionMapper.toNewOrm S.tx).withAmount stored)) db'

theorem ran_of_flush (hwhole : db.Whole) (hkey : db.findByKey command.idempotencyKey = none)
    (hmoney : command.money = .ok amount) (hne : command.fromAccountId ≠ command.toAccountId)
    (hresolve : command.resolve draws amount db.findAccount = .ok (sender, receiver, S))
    (hflush : db.flush (S.flush sender receiver) = .ok db') :
    ∃ stored, Numeric.store S.tx.amount.amount = some stored ∧
      command.Ran draws db amount sender receiver stored S db' := by
  have hsettles := serial_settles draws hkey hmoney hne
  simp only [hresolve, hflush] at hsettles
  obtain ⟨hsender, hreceiver, -⟩ := resolve_ok.mp hresolve
  have hlegal : Commit.Legal ⟨0, .transfer draws command, db, S.flush sender receiver, db'⟩ :=
    ⟨Request.flush_transfer_ok.mpr ⟨amount, sender, receiver, S, hmoney, hresolve, rfl⟩, hflush⟩
  obtain ⟨moved, hmoved, stored, hstored, -, -, -, -, htransactions, houtbox⟩ :=
    Database.flush_transfer.mp hflush
  obtain ⟨hkept, hkept'⟩ := Database.updates_keep hmoved
  refine ⟨stored, hstored, hsettles, hlegal,
    standing_of_legal hwhole hlegal hmoney hsender hreceiver, ?_, ?_⟩
  · rw [htransactions, hkept, ← Multiset.coe_add]
    rfl
  · rw [houtbox, hkept', ← Multiset.coe_add]
    rfl

end TransferCommand

/-! ## Two runs of a command -/

/-- The anonymous form of an increment. -/
def Delta.anonymous : Delta →+ Delta :=
  (AddMonoidHom.id _).prodMap ((Multiset.mapAddMonoidHom TransactionRecord.anonymous).prodMap
    (Multiset.mapAddMonoidHom OutboxMessage.anonymous))

theorem Settlement.Alike.storable {S S' : Settlement} (h : S.Alike S')
    (sender receiver : AccountRow) :
    TransferCommand.Storable S sender receiver ↔ TransferCommand.Storable S' sender receiver := by
  have hamount : S.tx.amount.amount = S'.tx.amount.amount := congrArg TransactionRecord.amount h.orm
  have hkey : S.tx.idempotencyKey = S'.tx.idempotencyKey :=
    congrArg TransactionRecord.idempotencyKey h.orm
  have hdirty : (S.flush sender receiver).dirtyAccounts.map AccountRecord.balance =
      (S'.flush sender receiver).dirtyAccounts.map AccountRecord.balance := by
    simp only [Settlement.flush, h.raised]
    cases S'.raised with
    | some e => rfl
    | none => simp [AccountMapper.updateOrm, h.sender, h.receiver]
  have hbalances (S : Settlement) :
      (∀ o ∈ (S.flush sender receiver).dirtyAccounts, (Numeric.store o.balance).isSome) ↔
        ∀ x ∈ (S.flush sender receiver).dirtyAccounts.map AccountRecord.balance,
          (Numeric.store x).isSome := by
    simp
  rw [TransferCommand.Storable, TransferCommand.Storable, hbalances, hbalances, hdirty, hamount, hkey]

/-- Whether a transaction can be initiated does not depend on what it draws. -/
theorem Transaction.initiate_cases (draws draws' : Transaction.Draws)
    (fromAccountId toAccountId : AccountId) (amount : Money) (idempotencyKey : IdempotencyKey) :
    (∃ e, initiate draws fromAccountId toAccountId amount idempotencyKey = .error e ∧
        initiate draws' fromAccountId toAccountId amount idempotencyKey = .error e) ∨
      ∃ tx tx', initiate draws fromAccountId toAccountId amount idempotencyKey = .ok tx ∧
        initiate draws' fromAccountId toAccountId amount idempotencyKey = .ok tx' := by
  unfold initiate
  split_ifs
  · exact .inl ⟨_, rfl, rfl⟩
  · exact .inl ⟨_, rfl, rfl⟩
  · exact .inr ⟨_, _, rfl, rfl⟩

namespace TransferCommand

variable {command : TransferCommand} {draws draws' : TransferDraws} {amount : Money}
  {sender receiver : AccountRow} {S S' : Settlement} {stored : Numeric} {db db' : Database}

theorem anonymous_delta (h : S.Alike S') :
    (command.delta amount sender receiver S
        ((TransactionMapper.toNewOrm S.tx).withAmount stored)).anonymous =
      (command.delta amount sender receiver S'
        ((TransactionMapper.toNewOrm S'.tx).withAmount stored)).anonymous := by
  have hrow : ((TransactionMapper.toNewOrm S.tx).withAmount stored).anonymous =
      ((TransactionMapper.toNewOrm S'.tx).withAmount stored).anonymous :=
    congrArg (fun orm : TransactionORM => orm.withAmount stored) h.orm
  refine Prod.ext rfl (Prod.ext ?_ ?_)
  · exact congrArg (fun row => ({row} : Multiset TransactionRow)) hrow
  · exact congrArg (fun l : List OutboxMessage => (l : Multiset OutboxMessage)) h.outbox

/-- The rows that a transfer finds decide how it is settled, up to what it draws. -/
theorem resolve_alike (command : TransferCommand) (draws draws' : TransferDraws) (amount : Money)
    (find : AccountId → Option AccountRow) :
    (∃ e, command.resolve draws amount find = .error e ∧
        command.resolve draws' amount find = .error e) ∨
      ∃ sender receiver S S', command.resolve draws amount find = .ok (sender, receiver, S) ∧
        command.resolve draws' amount find = .ok (sender, receiver, S') ∧ S.Alike S' := by
  unfold resolve
  cases find command.fromAccountId with
  | none => exact .inl ⟨_, rfl, rfl⟩
  | some sender =>
    cases hsender : AccountMapper.toDomain sender.load with
    | error e => exact .inl ⟨e, by simp only [hsender], by simp only [hsender]⟩
    | ok a =>
      cases find command.toAccountId with
      | none =>
        exact .inl ⟨.resourceNotFound "Account" command.toAccountId, by simp only [hsender],
          by simp only [hsender]⟩
      | some receiver =>
        cases hreceiver : AccountMapper.toDomain receiver.load with
        | error e =>
          exact .inl ⟨e, by simp only [hsender, hreceiver], by simp only [hsender, hreceiver]⟩
        | ok b =>
          simp only [hsender, hreceiver]
          obtain ⟨e, htx, htx'⟩ | ⟨tx, tx', htx, htx'⟩ := Transaction.initiate_cases draws.tx draws'.tx
            command.fromAccountId command.toAccountId amount command.idempotencyKey
          · exact .inl ⟨e, by rw [htx], by rw [htx']⟩
          · exact .inr ⟨sender, receiver, draws.settle amount a b tx, draws'.settle amount a b tx',
              by rw [htx], by rw [htx'], TransferDraws.settle_alike a b htx htx'⟩

/-- Both databases have the same rows for a command. -/
structure SameRows (command : TransferCommand) (db db' : Database) : Prop where
  key : db.findByKey command.idempotencyKey = db'.findByKey command.idempotencyKey
  sender : db.findAccount command.fromAccountId = db'.findAccount command.fromAccountId
  receiver : db.findAccount command.toAccountId = db'.findAccount command.toAccountId

theorem SameRows.symm (h : command.SameRows db db') : command.SameRows db' db :=
  ⟨h.key.symm, h.sender.symm, h.receiver.symm⟩

/-- Two settlements that are alike are both committed, or are both refused by the database. -/
theorem flushes_alike (hwhole : db.Whole) (hwhole' : db'.Whole)
    (hfound : db.findByKey command.idempotencyKey = none)
    (hfound' : db'.findByKey command.idempotencyKey = none) (hmoney : command.money = .ok amount)
    (hne : command.fromAccountId ≠ command.toAccountId)
    (hresolve : command.resolve draws amount db.findAccount = .ok (sender, receiver, S))
    (hresolve' : command.resolve draws' amount db'.findAccount = .ok (sender, receiver, S'))
    (hnew : db.findTransaction draws.tx.id = none)
    (hnew' : db'.findTransaction draws'.tx.id = none) (halike : S.Alike S') :
    command.serial draws db = .unchanged (.error .dbapiError) db ∧
        command.serial draws' db' = .unchanged (.error .dbapiError) db' ∨
      ∃ stored db₁ db₁', command.Ran draws db amount sender receiver stored S db₁ ∧
        command.Ran draws' db' amount sender receiver stored S' db₁' := by
  have hflush := flush_settlement hresolve hfound hnew
  have hflush' := flush_settlement hresolve' hfound' hnew'
  have hstorable := halike.storable sender receiver
  by_cases hfits : Storable S sender receiver
  · rw [if_pos hfits] at hflush
    rw [if_pos (hstorable.mp hfits)] at hflush'
    obtain ⟨db₁, hdb₁⟩ := hflush
    obtain ⟨db₁', hdb₁'⟩ := hflush'
    obtain ⟨stored, hstored, hran⟩ := ran_of_flush hwhole hfound hmoney hne hresolve hdb₁
    obtain ⟨stored', hstored', hran'⟩ :=
      ran_of_flush hwhole' hfound' hmoney hne hresolve' hdb₁'
    have hamount : S.tx.amount.amount = S'.tx.amount.amount :=
      congrArg TransactionRecord.amount halike.orm
    rw [hamount, hstored'] at hstored
    obtain rfl := Option.some.inj hstored
    exact .inr ⟨stored', db₁, db₁', hran, hran'⟩
  · have hsettles := serial_settles draws hfound hmoney hne
    have hsettles' := serial_settles draws' hfound' hmoney hne
    rw [if_neg hfits] at hflush
    rw [if_neg (mt hstorable.mpr hfits)] at hflush'
    simp only [hresolve, hflush] at hsettles
    simp only [hresolve', hflush'] at hsettles'
    exact .inl ⟨hsettles, hsettles'⟩

/-- Two runs on the same rows: the key is stored, or both are refused in the same way, or they
commit settlements that are alike. -/
theorem serial_cases (hwhole : db.Whole) (hwhole' : db'.Whole) (hrows : command.SameRows db db')
    (hnew : db.findTransaction draws.tx.id = none)
    (hnew' : db'.findTransaction draws'.tx.id = none) :
    (∃ row, db.findByKey command.idempotencyKey = some row) ∨
      (∃ e, command.serial draws db = .unchanged (.error e) db ∧
        command.serial draws' db' = .unchanged (.error e) db') ∨
      ∃ amount sender receiver stored S S' db₁ db₁', command.Reaches db amount sender receiver ∧
        S.Alike S' ∧ (draws = draws' → S = S') ∧
        command.Ran draws db amount sender receiver stored S db₁ ∧
        command.Ran draws' db' amount sender receiver stored S' db₁' := by
  cases hfound : db.findByKey command.idempotencyKey with
  | some row => exact .inl ⟨row, rfl⟩
  | none =>
    right
    have hfound' : db'.findByKey command.idempotencyKey = none := hrows.key ▸ hfound
    cases hmoney : command.money with
    | error e =>
      exact .inl ⟨e, by simp only [serial, hfound, hmoney], by simp only [serial, hfound', hmoney]⟩
    | ok amount =>
      by_cases hne : command.fromAccountId = command.toAccountId
      · exact .inl ⟨Server.lockTimeout (RedisLockManager.lockKey command.fromAccountId.str),
          by simp only [serial, hfound, hmoney, if_pos hne],
          by simp only [serial, hfound', hmoney, if_pos hne]⟩
      have hsettles := serial_settles draws hfound hmoney hne
      have hsettles' := serial_settles draws' hfound' hmoney hne
      have hfind : command.resolve draws' amount db'.findAccount =
          command.resolve draws' amount db.findAccount := by
        simp only [resolve, hrows.sender, hrows.receiver]
      obtain ⟨e, hresolve, hresolve'⟩ | ⟨sender, receiver, S, S', hresolve, hresolve', halike⟩ :=
        resolve_alike command draws draws' amount db.findAccount
      · simp only [hresolve] at hsettles
        simp only [hfind, hresolve'] at hsettles'
        exact .inl ⟨e, hsettles, hsettles'⟩
      have hsame (h : draws = draws') : S = S' := by
        subst h
        rw [hresolve] at hresolve'
        simpa using hresolve'
      rcases flushes_alike hwhole hwhole' hfound hfound' hmoney hne hresolve
        (hfind.trans hresolve') hnew hnew' halike with hrefused | ⟨stored, db₁, db₁', hran, hran'⟩
      · exact .inl ⟨.dbapiError, hrefused⟩
      · obtain ⟨hsender, hreceiver, a, b, tx, -, -, htx, -⟩ := resolve_ok.mp hresolve
        have hpositive := (Transaction.initiate_ok htx).1
        exact .inr ⟨amount, sender, receiver, stored, S, S', db₁, db₁',
          ⟨hfound, hmoney, hpositive, hne, hsender, hreceiver⟩, halike, hsame, hran, hran'⟩

/-- What the caller is told of a settlement. -/
def told (S : Settlement) : Except Exn Response :=
  match S.raised with
  | none => .ok (.transaction (TransactionDTO.fromAggregate S.tx))
  | some e => .error e

theorem committed_outcome (S : Settlement) (w : Flush) (db : Database) :
    (SerialRun.committed S w db).outcome = told S := by
  unfold SerialRun.committed told
  cases S.raised <;> rfl

theorem told_alike (h : S.Alike S') : AlikeOutcome (told S) (told S') := by
  unfold told
  rw [h.raised]
  cases S'.raised with
  | none => exact h.dto
  | some e => rfl

/-- A transfer as an action on the database. -/
def act (command : TransferCommand) (draws : TransferDraws) (db : Database) :
    Except Exn Response × Database :=
  ((command.serial draws db).outcome, (command.serial draws db).db)

theorem act_of_found {row : TransactionRow} (h : db.findByKey command.idempotencyKey = some row)
    (draws : TransferDraws) :
    command.act draws db = ((TransactionMapper.toDomain row.load).map fun tx =>
      .transaction (TransactionDTO.fromAggregate tx), db) := by
  rw [act, serial_found h]
  rfl

theorem act_of_unchanged {outcome : Except Exn Response}
    (h : command.serial draws db = .unchanged outcome db) : command.act draws db = (outcome, db) := by
  rw [act, h]
  rfl

theorem Ran.act (h : command.Ran draws db amount sender receiver stored S db') :
    command.act draws db = (told S, db') := by
  rw [TransferCommand.act, h.serial, committed_outcome, SerialRun.committed_db]

/-- Two runs on the same rows are alike in whatever two alike settlements agree. -/
theorem act_related {E : Type} [AddCommMonoid E] {keep : Delta →+ E}
    {R : Except Exn Response → Except Exn Response → Prop}
    (hunchanged : ∀ outcome, AlikeOutcome outcome outcome → R outcome outcome)
    (hcommitted : ∀ amount sender receiver stored S S', Settlement.Alike S S' →
      (draws = draws' → S = S') → R (told S) (told S') ∧
        keep (command.delta amount sender receiver S
            ((TransactionMapper.toNewOrm S.tx).withAmount stored)) =
          keep (command.delta amount sender receiver S'
            ((TransactionMapper.toNewOrm S'.tx).withAmount stored)))
    (hwhole : db.Whole) (hwhole' : db'.Whole) (hrows : command.SameRows db db')
    (hnew : db.findTransaction draws.tx.id = none)
    (hnew' : db'.findTransaction draws'.tx.id = none) :
    Alike Database.increments keep R (command.act draws) (command.act draws') db db' := by
  rcases serial_cases hwhole hwhole' hrows hnew hnew' with
    ⟨row, hfound⟩ | ⟨e, hserial, hserial'⟩ |
    ⟨amount, sender, receiver, stored, S, S', db₁, db₁', -, halike, hsame, hran, hran'⟩
  · have hact := act_of_found hfound draws
    have hact' := act_of_found (hrows.key ▸ hfound) draws'
    apply alike_of_unchanged
    · rw [hact, hact']
      apply hunchanged
      cases TransactionMapper.toDomain row.load <;> rfl
    · rw [hact]
    · rw [hact']
  · have hact := act_of_unchanged hserial
    have hact' := act_of_unchanged hserial'
    apply alike_of_unchanged
    · rw [hact, hact']
      exact hunchanged _ rfl
    · rw [hact]
    · rw [hact']
  · obtain ⟨hR, hkeep⟩ := hcommitted amount sender receiver stored S S' halike hsame
    refine ⟨?_, _, _, ?_, ?_, hkeep⟩
    · rw [hran.act, hran'.act]
      exact hR
    · rw [hran.act]
      exact hran.adds
    · rw [hran'.act]
      exact hran'.adds

theorem act_alike (hwhole : db.Whole) (hwhole' : db'.Whole) (hrows : command.SameRows db db')
    (hnew : db.findTransaction draws.tx.id = none)
    (hnew' : db'.findTransaction draws'.tx.id = none) :
    Alike Database.increments Delta.anonymous AlikeOutcome (command.act draws)
      (command.act draws') db db' :=
  act_related (fun _ h => h)
    (fun _ _ _ _ _ _ halike _ => ⟨told_alike halike, anonymous_delta halike⟩)
    hwhole hwhole' hrows hnew hnew'

/-- With the same draws nothing differs. -/
theorem act_same (hwhole : db.Whole) (hwhole' : db'.Whole) (hrows : command.SameRows db db')
    (hnew : db.findTransaction draws.tx.id = none)
    (hnew' : db'.findTransaction draws.tx.id = none) :
    Alike Database.increments (AddMonoidHom.id Delta) Eq (command.act draws)
      (command.act draws) db db' := by
  refine act_related (fun _ _ => rfl) ?_ hwhole hwhole' hrows hnew hnew'
  intro amount sender receiver stored S S' _ hsame
  rw [hsame rfl]
  exact ⟨rfl, rfl⟩

/-! ## A command that returns -/

theorem told_isOk : (told S).isOk = true ↔ S.raised = none := by
  unfold told
  cases S.raised <;> simp [Except.isOk, Except.toBool]

/-- Only a settlement that both accounts have accepted is told without an exception. -/
theorem Ran.accepted (h : command.Ran draws db amount sender receiver stored S db')
    (hwhole : db.Whole) (hnew : db.findTransaction draws.tx.id = none)
    (hreaches : command.Reaches db amount sender receiver) (hraised : S.raised = none) :
    sender.AcceptsDebit amount ∧ receiver.AcceptsCredit amount := by
  have htold : (command.serial draws db).outcome = told S := by rw [h.serial, committed_outcome]
  by_contra hrefused
  by_cases hfits : command.Fits amount sender receiver
  · obtain ⟨tx, S', db₁, hcommits⟩ := hreaches.commits hwhole hfits hnew
    obtain ⟨e, he⟩ := hcommits.refused hrefused
    rw [hcommits.serial, committed_outcome, told, told, he, hraised] at htold
    cases htold
  · obtain ⟨_, _, _, _, _, -, -, hunfit⟩ := hreaches.serial hwhole hnew
    rw [hunfit hfits, told, hraised] at htold
    cases htold

/-- The balances that a command moves when it returns: those of its accounts, unless its key
is stored. -/
def moves (command : TransferCommand) (db : Database) (id : AccountId) : ℤ :=
  match db.findByKey command.idempotencyKey, command.money with
  | none, .ok amount => command.shift amount id
  | _, _ => 0

theorem act_adds (hwhole : db.Whole) (hnew : db.findTransaction draws.tx.id = none)
    (hok : (command.act draws db).1.isOk = true) :
    ∃ δ, db.Adds δ (command.act draws db).2 ∧ δ.1 = command.moves db := by
  rcases serial_cases hwhole hwhole ⟨rfl, rfl, rfl⟩ hnew hnew with
    ⟨row, hfound⟩ | ⟨e, hserial, -⟩ |
    ⟨amount, sender, receiver, stored, S, _, db₁, _, hreaches, -, -, hran, -⟩
  · refine ⟨0, ?_, ?_⟩
    · rw [act_of_found hfound]
      exact db.adds_zero
    · funext id
      simp only [moves, hfound]
      rfl
  · rw [act_of_unchanged hserial] at hok
    cases hok
  · refine ⟨_, by rw [hran.act]; exact hran.adds, ?_⟩
    rw [hran.act, told_isOk] at hok
    have haccepted := hran.accepted hwhole hnew hreaches hok
    funext id
    simp only [delta, if_pos haccepted, moves, hreaches.unused, hreaches.money]

end TransferCommand

end BankingTransactions
