import BankingTransactions.AccountLedger
import BankingTransactions.MoneyArithmetic
import BankingTransactions.Persistence
import BankingTransactions.TransactionLifecycle

/-!
# Storing an aggregate and reading it again

A mapper writes an aggregate to a new record, or onto the record of its row, and
rebuilds it from a row. `update_orm` leaves out the fields that no operation changes,
which is right because of what the sequences of calls keep. An account comes back
equal, up to the sign of zero. A transaction comes back equal unless it failed from
PROCESSING: `rollback_required` has no column, and `to_domain` reads the default.
-/
namespace BankingTransactions
open DecimalArithmetic

theorem Money.value_lt_iff_cents (m : Money) : m.amount.value < 10 ^ 15 ↔ m.cents < 10 ^ 17 := by
  rw [value_amount, ← Nat.cast_lt (α := ℚ)]
  push_cast
  constructor <;> intro h <;> linarith

/-- A column keeps a number that was read from it. -/
theorem Numeric.store_load (n : Numeric) : store n.load = some n := by
  obtain ⟨units, hbound⟩ := n
  simp only [store, load, Decimal.rescale_self, hbound, dif_pos, Option.some.injEq, mk.injEq]
  by_cases h : units < 0
  · simp only [h, decide_true, if_true]
    omega
  · simp only [h, decide_false, Bool.false_eq_true, if_false]
    omega

/-! ## Accounts -/

/-- The row that a record becomes in the table, when its balance fits the column. -/
def AccountRecord.stored (orm : AccountORM) : Option AccountRow :=
  (Numeric.store orm.balance).map orm.withBalance

/-- An UPDATE of a loaded record leaves its row as if the whole record was written. -/
theorem Database.setAccount_updateOrm (row : AccountRow) (a : Account) (balance : Numeric) :
    setAccount (AccountMapper.updateOrm row.load a) balance row =
      (AccountMapper.updateOrm row.load a).withBalance balance :=
  if_pos rfl

namespace Account

/-- Equal in every field that is persistent. -/
structure Same (a a' : Account) : Prop where
  id : a.id = a'.id
  ownerId : a.ownerId = a'.ownerId
  accountNumber : a.accountNumber = a'.accountNumber
  balance : a.balance.Equal a'.balance
  status : a.status = a'.status
  createdAt : a.createdAt = a'.createdAt
  updatedAt : a.updatedAt = a'.updatedAt

theorem Step.createdAt {a a' : Account} {call : Call} {r : Except Exn Unit}
    (h : Step a call r a') : a'.createdAt = a.createdAt := by
  cases h <;> rfl

theorem createdAt_after (a : Account) (calls : List Call) :
    (a.after calls).createdAt = a.createdAt := by
  induction calls using List.reverseRecOn with
  | nil => rfl
  | append_singleton calls call ih =>
    rw [after_concat, (step_called _ call).createdAt, ih]

end Account

namespace AccountMapper

/-- The record is read back as the account that was written to it. -/
def Returns (orm : AccountORM) (a : Account) : Prop :=
  ∃ row a', orm.stored = some row ∧ toDomain row.load = .ok a' ∧ a'.Same a ∧ a'.domainEvents = []

/-- The records that the program writes for an account in use: onto the row that it was
loaded from, or for a new account. -/
inductive Written : AccountORM → Account → Prop
  | updated {row : AccountRow} {a : Account} (h : toDomain row.load = .ok a)
      (calls : List Account.Call) :
      Written (updateOrm row.load (a.after calls)) (a.after calls)
  | inserted {draws : AccountDraws} {ownerId : UUID} {currency : Currency}
      {initialBalance : Option Money} {a : Account}
      (h : Account.create draws ownerId currency initialBalance = .ok a)
      (calls : List Account.Call) : Written (toNewOrm (a.after calls)) (a.after calls)

/-- A written record has every persistent field of the account. -/
theorem Written.eq_toNewOrm {orm : AccountORM} {a : Account} (h : Written orm a) :
    orm = toNewOrm a := by
  cases h with
  | inserted => rfl
  | @updated row a h calls =>
    obtain ⟨hid, howner, hnumber, -⟩ := Account.sameAccount_after a calls
    have hcreatedAt := Account.createdAt_after a calls
    obtain ⟨balance, -, ha⟩ := bind_eq_ok.mp h
    obtain rfl := Except.ok.inj ha
    simp only [toNewOrm, updateOrm, hid, howner, hnumber, hcreatedAt]
    rfl

theorem returns_toNewOrm {a : Account} (h : a.balance.cents < 10 ^ 17) :
    Returns (toNewOrm a) a := by
  have hstore : Numeric.store a.balance.amount = some (.ofCents a.balance.cents h) := by
    rw [Money.store_amount, dif_pos h]
  have hcents := Numeric.isCents_ofCents a.balance.cents h
  have hbalance := (Money.equal_iff (.ofCents a.balance.cents hcents.lt_precision
    a.balance.currency) a.balance).mpr ⟨rfl, rfl⟩
  refine ⟨(toNewOrm a).withBalance (.ofCents a.balance.cents h), _, ?_, toDomain_load hcents,
    ⟨rfl, rfl, rfl, hbalance, rfl, rfl, rfl⟩, rfl⟩
  show (Numeric.store a.balance.amount).map _ = _
  rw [hstore]
  rfl

end AccountMapper

/-- An account survives a load, any calls and a store, and a creation, any calls and
a store, while its balance fits the column. -/
theorem account_survives {orm : AccountORM} {a : Account} (h : AccountMapper.Written orm a)
    (hbalance : a.balance.amount.value < 10 ^ 15) : AccountMapper.Returns orm a := by
  rw [h.eq_toNewOrm]
  exact AccountMapper.returns_toNewOrm (a.balance.value_lt_iff_cents.mp hbalance)

theorem account_survives_sample :
    AccountMapper.Returns
      (AccountMapper.toNewOrm (Account.Sample.opened.after [.freeze "audit" 1 ⟨1, 1⟩]))
      (Account.Sample.opened.after [.freeze "audit" 1 ⟨1, 1⟩]) :=
  account_survives (.inserted Account.Sample.create_eq _)
    (by rw [Money.value_lt_iff_cents]; decide +kernel)

/-! ## Transactions -/

/-- The row that a record becomes in the table, when its amount fits the column. The widths of the
other columns are left out; `Database.insertTransaction` has that of the key. -/
def TransactionRecord.stored (orm : TransactionORM) : Option TransactionRow :=
  (Numeric.store orm.amount).map orm.withAmount

theorem Database.setTransaction_updateOrm (row : TransactionRow) (tx : Transaction) :
    setTransaction (TransactionMapper.updateOrm row.load tx) row =
      (TransactionMapper.updateOrm row.load tx).withAmount row.amount :=
  if_pos rfl

namespace Transaction

/-- Equal in every field, and with the same answers to the questions a reader asks. -/
structure Same (tx tx' : Transaction) : Prop where
  id : tx.id = tx'.id
  fromAccountId : tx.fromAccountId = tx'.fromAccountId
  toAccountId : tx.toAccountId = tx'.toAccountId
  amount : tx.amount = tx'.amount
  transactionType : tx.transactionType = tx'.transactionType
  status : tx.status = tx'.status
  idempotencyKey : tx.idempotencyKey = tx'.idempotencyKey
  failureCode : tx.failureCode = tx'.failureCode
  failureReason : tx.failureReason = tx'.failureReason
  completedAt : tx.completedAt = tx'.completedAt
  createdAt : tx.createdAt = tx'.createdAt
  updatedAt : tx.updatedAt = tx'.updatedAt
  rollbackRequired : tx.rollbackRequired = tx'.rollbackRequired
  isTerminal : tx.isTerminal = tx'.isTerminal
  needsRollback : tx.needsRollback = tx'.needsRollback

theorem Step.createdAt {tx tx' : Transaction} {call : Call} {r : Except Exn Unit}
    (h : Step tx call r tx') : tx'.createdAt = tx.createdAt := by
  cases h <;> rfl

theorem createdAt_after (tx : Transaction) (calls : List Call) :
    (tx.after calls).createdAt = tx.createdAt := by
  induction calls using List.reverseRecOn with
  | nil => rfl
  | append_singleton calls call ih =>
    rw [after_concat, (step_called _ call).createdAt, ih]

end Transaction

namespace TransactionMapper

/-- The record is read back as the transaction that was written to it. -/
def Returns (orm : TransactionORM) (tx : Transaction) : Prop :=
  ∃ row tx', orm.stored = some row ∧ toDomain row.load = .ok tx' ∧ tx'.Same tx ∧
    tx'.domainEvents = []

/-- The records that a transaction `tx₀` is written to after some calls: a new one, or
that of the row that an earlier write has left. -/
inductive Written (tx₀ : Transaction) : List Transaction.Call → TransactionORM → Prop
  | inserted (calls : List Transaction.Call) : Written tx₀ calls (toNewOrm (tx₀.after calls))
  | updated {calls : List Transaction.Call} {orm : TransactionORM} {row : TransactionRow}
      (h : Written tx₀ calls orm) (hrow : orm.stored = some row)
      (more : List Transaction.Call) :
      Written tx₀ (calls ++ more) (updateOrm row.load (tx₀.after (calls ++ more)))

/-- A write leaves the row that a new record of the transaction would be stored as. -/
theorem Written.stored {tx₀ : Transaction} (hamount : tx₀.amount.cents < 10 ^ 17)
    {calls : List Transaction.Call} {orm : TransactionORM} (h : Written tx₀ calls orm) :
    orm.stored = some ((toNewOrm (tx₀.after calls)).withAmount (.ofCents _ hamount)) := by
  induction h with
  | inserted calls =>
    obtain ⟨-, -, -, hsame, -, -⟩ := Transaction.sameTransfer_after tx₀ calls
    have hstore : Numeric.store (tx₀.after calls).amount.amount = some (.ofCents _ hamount) := by
      rw [hsame, Money.store_amount, dif_pos hamount]
    show (Numeric.store (tx₀.after calls).amount.amount).map _ = _
    rw [hstore]
    rfl
  | @updated calls orm row _ hrow more ih =>
    rw [hrow] at ih
    obtain rfl := Option.some.inj ih
    obtain ⟨hid, hfrom, hto, hsame, hkey, htype⟩ := Transaction.sameTransfer_after tx₀ calls
    obtain ⟨hid', hfrom', hto', hsame', hkey', htype'⟩ :=
      Transaction.sameTransfer_after tx₀ (calls ++ more)
    have hcreated := Transaction.createdAt_after tx₀ calls
    have hcreated' := Transaction.createdAt_after tx₀ (calls ++ more)
    simp only [TransactionRecord.stored, updateOrm, TransactionRecord.load, Numeric.store_load,
      TransactionRecord.withAmount, toNewOrm, Option.map_some, hid, hfrom, hto, hsame, hkey, htype,
      hid', hfrom', hto', hsame', hkey', htype', hcreated, hcreated']

/-- What is read back is the transaction without its mark, and without its events. -/
theorem Written.toDomain {tx₀ : Transaction} (hamount : tx₀.amount.cents < 10 ^ 17)
    (hpos : tx₀.amount.cents ≠ 0) {calls : List Transaction.Call} {orm : TransactionORM}
    (h : Written tx₀ calls orm) :
    ∃ row, orm.stored = some row ∧ toDomain row.load = .ok { tx₀.after calls with
      domainEvents := [], recorded := [], rollbackRequired := false } := by
  have hcents := Numeric.isCents_ofCents tx₀.amount.cents hamount
  obtain ⟨-, -, -, hsame, -, -⟩ := Transaction.sameTransfer_after tx₀ calls
  have hmoney : Money.ofCents tx₀.amount.cents hcents.lt_precision
      (toNewOrm (tx₀.after calls)).currency = (tx₀.after calls).amount := by
    apply Money.eq_of_cents
    · rfl
    · rw [hsame]
      rfl
    · exact hpos
  refine ⟨_, h.stored hamount, ?_⟩
  rw [toDomain_load hcents]
  simp only [TransactionRecord.transaction, TransactionRecord.withAmount, hmoney]
  rfl

end TransactionMapper

namespace Transaction

/-- A stored transaction is read back unchanged exactly when no call has taken it from
PROCESSING to FAILED. -/
theorem transaction_survives_iff {draws : Draws} {fromAccountId toAccountId : AccountId}
    {amount : Money} {idempotencyKey : IdempotencyKey} {transactionType : TransactionType}
    {tx₀ : Transaction}
    (h : initiate draws fromAccountId toAccountId amount idempotencyKey transactionType = .ok tx₀)
    (hamount : amount.amount.value < 10 ^ 15) {calls : List Call} {orm : TransactionORM}
    (hwritten : TransactionMapper.Written tx₀ calls orm) :
    TransactionMapper.Returns orm (tx₀.after calls) ↔ ¬ tx₀.FailedFrom calls .processing := by
  obtain ⟨hstatus, hsound⟩ := sound_initiated h
  obtain ⟨hpos, -, hinitiated⟩ := initiate_ok h
  have hsame : tx₀.amount = amount := by rw [hinitiated]; rfl
  rw [← rollbackRequired_after hsound hstatus, Bool.not_eq_true]
  obtain ⟨row, hrow, hread⟩ := hwritten.toDomain
    (by rw [hsame]; exact amount.value_lt_iff_cents.mp hamount) (by rw [hsame]; exact hpos)
  constructor
  · rintro ⟨row', tx', hrow', hread', hsame', -⟩
    rw [hrow] at hrow'
    obtain rfl := Option.some.inj hrow'
    rw [hread] at hread'
    obtain rfl := Except.ok.inj hread'
    exact hsame'.rollbackRequired.symm
  · intro hunmarked
    refine ⟨row, _, hrow, hread, ?_, rfl⟩
    exact ⟨rfl, rfl, rfl, rfl, rfl, rfl, rfl, rfl, rfl, rfl, rfl, rfl, hunmarked.symm, rfl,
      by simp [needsRollback, hunmarked]⟩

theorem transaction_survives_sample :
    TransactionMapper.Returns
        (TransactionMapper.toNewOrm (Sample.initiated.after [.markProcessing 1 ⟨1, 1⟩]))
        (Sample.initiated.after [.markProcessing 1 ⟨1, 1⟩]) ↔
      ¬ Sample.initiated.FailedFrom [.markProcessing 1 ⟨1, 1⟩] .processing :=
  transaction_survives_iff Sample.initiate_eq (by norm_num [Sample.amount, Decimal.value])
    (.inserted _)

/-- A transfer that failed from PROCESSING needs a rollback, and no longer does when it is
read back. -/
theorem forgotten_rollback :
    initiate ⟨3, 0, 0, ⟨0, 0⟩⟩ 1 2 Sample.amount "key" = .ok Sample.initiated ∧
    ¬ TransactionMapper.Returns
      (TransactionMapper.toNewOrm (Sample.initiated.after
        [.markProcessing 1 ⟨1, 1⟩, .fail "CODE" "reason" 2 ⟨2, 2⟩]))
      (Sample.initiated.after [.markProcessing 1 ⟨1, 1⟩, .fail "CODE" "reason" 2 ⟨2, 2⟩]) := by
  refine ⟨Sample.initiate_eq, ?_⟩
  rintro ⟨row, tx', hrow, hread, hsame, -⟩
  have hmarked := hsame.needsRollback
  have hunmarked : tx'.rollbackRequired = false := by
    obtain ⟨amount, -, htx⟩ := bind_eq_ok.mp hread
    obtain rfl := Except.ok.inj htx
    rfl
  rw [needsRollback, hunmarked, Bool.and_false] at hmarked
  revert hmarked
  decide

end Transaction

end BankingTransactions
