import BankingTransactions.Aggregates

/-!
# Database rows, mappers and the committed database

A record is either an object of the session, whose amounts are decimals, or a
stored row, whose amounts are values of a `Numeric(19, 4)` column. The CHECK and
ENUM constraints on currencies, statuses and types are the types of the fields.
`Database` is a committed state; its unique constraints are fields, so that no
state violating them can be built, and `flush` is what a COMMIT makes of the
pending objects of a session, or the exception with which it is refused.
-/
namespace BankingTransactions
open DecimalArithmetic

/-! ## Columns -/

/-- A `Numeric(19, 4)` value, in ten-thousandths. -/
structure Numeric where
  units : ℤ
  bound : units.natAbs < 10 ^ 19
  deriving DecidableEq

namespace Numeric

/-- Write a decimal to the column. More than 15 digits before the point do not fit. -/
def store : Decimal → Option Numeric
  | .finite s c e =>
    if h : Decimal.rescale (-4) c e < 10 ^ 19 then
      some ⟨if s then -(Decimal.rescale (-4) c e) else Decimal.rescale (-4) c e,
        by split_ifs <;> simpa using h⟩
    else none
  | _ => none

/-- Read the column. -/
def load (n : Numeric) : Decimal := .finite (decide (n.units < 0)) n.units.natAbs (-4)

/-- A whole number of cents, as it is stored. -/
def ofCents (c : ℕ) (h : c < 10 ^ 17) : Numeric := ⟨100 * c, by omega⟩

@[simp] theorem units_ofCents (c : ℕ) (h : c < 10 ^ 17) : (ofCents c h).units = 100 * c := rfl

/-- The column holds a non-negative whole number of cents. -/
def IsCents (n : Numeric) (c : ℕ) : Prop := n.units = 100 * c

theorem isCents_ofCents (c : ℕ) (h : c < 10 ^ 17) : (ofCents c h).IsCents c := rfl

theorem IsCents.lt {n : Numeric} {c : ℕ} (h : n.IsCents c) : c < 10 ^ 17 := by
  have := n.bound
  unfold IsCents at h
  omega

theorem IsCents.lt_precision {n : Numeric} {c : ℕ} (h : n.IsCents c) : c < 10 ^ precision := by
  have := h.lt
  simp only [precision]
  omega

theorem IsCents.eq_ofCents {n : Numeric} {c : ℕ} (h : n.IsCents c) : n = ofCents c h.lt := by
  obtain ⟨units, bound⟩ := n
  cases h
  rfl

end Numeric

namespace Money

/-- A positive or zero number of cents. -/
def ofCents (c : ℕ) (h : c < 10 ^ precision) (currency : Currency) : Money :=
  ⟨.finite false c (-2), currency, rfl, h, by simp⟩

@[simp] theorem cents_ofCents (c : ℕ) (h : c < 10 ^ precision) (currency : Currency) :
    (ofCents c h currency).cents = c := rfl

@[simp] theorem currency_ofCents (c : ℕ) (h : c < 10 ^ precision) (currency : Currency) :
    (ofCents c h currency).currency = currency := rfl

/-- Storing an amount is exact, and is refused from `10 ^ 15` on. -/
theorem store_amount (m : Money) :
    Numeric.store m.amount =
      if h : m.cents < 10 ^ 17 then some (Numeric.ofCents m.cents h) else none := by
  obtain ⟨amount, currency, hm⟩ := m
  match amount, hm with
  | .finite s c e, ⟨he, hc, hs⟩ =>
    subst he
    have hscale : Decimal.rescale (-4) c (-2) = c * 100 := by simp [Decimal.rescale]
    have hcents : cents ⟨.finite s c (-2), currency, rfl, hc, hs⟩ = c := rfl
    by_cases h : c < 10 ^ 17
    · have h' : c * 100 < 10 ^ 19 := by omega
      simp only [Numeric.store, hscale, hcents, h, h', dif_pos, Numeric.ofCents, Option.some.injEq,
        Numeric.mk.injEq]
      split_ifs with hneg
      · simp [hs hneg]
      · push_cast; ring
    · have h' : ¬ c * 100 < 10 ^ 19 := by omega
      simp only [Numeric.store, hscale, hcents, h, h', dif_neg, not_false_eq_true]

theorem isCents_of_store {m : Money} {n : Numeric} (h : Numeric.store m.amount = some n) :
    n.IsCents m.cents := by
  rw [store_amount] at h
  split_ifs at h with hfits
  obtain rfl := Option.some.inj h
  rfl

/-- Reading whole cents gives back the amount. -/
theorem new_load {n : Numeric} {c : ℕ} (h : n.IsCents c) (currency : Currency) :
    new n.load currency = .ok (ofCents c h.lt_precision currency) := by
  have hlt := h.lt
  have hq : n.load.quantize (-2) = .ok (.finite false c (-2)) := by
    have hunits : n.units.natAbs = 100 * c := by rw [h]; omega
    have hneg : decide (n.units < 0) = false := by rw [h]; simp
    have hscale : Decimal.rescale (-2) (100 * c) (-4) = c := by
      have hdigits : ((-2 : ℤ) - -4).toNat = 2 := by decide
      rw [Decimal.rescale, if_neg (by decide), divHalfUp, hdigits]
      omega
    simp only [Numeric.load, Decimal.quantize, hunits, hneg, hscale]
    rw [if_pos (by simp only [precision]; omega)]
  have hcents : (Decimal.finite false c (-2)).IsHundredths :=
    ⟨rfl, by simp only [precision]; omega, by simp⟩
  exact new_of_quantize hq hcents currency

end Money

/-! ## Records -/

/-- `AccountORM`, with amounts of type `ν`. -/
structure AccountRecord (ν : Type) where
  id : AccountId
  ownerId : UUID
  accountNumber : String
  balance : ν
  currency : Currency
  status : AccountStatus
  createdAt : Time
  updatedAt : Time
  deriving DecidableEq

/-- `TransactionORM`, with amounts of type `ν`. -/
structure TransactionRecord (ν : Type) where
  id : TransactionId
  fromAccountId : AccountId
  toAccountId : AccountId
  amount : ν
  currency : Currency
  transactionType : TransactionType
  status : TransactionStatus
  idempotencyKey : String
  failureCode : Option String
  failureReason : Option String
  createdAt : Time
  updatedAt : Time
  completedAt : Option Time
  deriving DecidableEq

abbrev AccountORM := AccountRecord Decimal

abbrev AccountRow := AccountRecord Numeric

abbrev TransactionORM := TransactionRecord Decimal

abbrev TransactionRow := TransactionRecord Numeric

/-- The payload is the event that `to_json` renders. -/
structure OutboxMessage where
  eventType : String
  payload : DomainEvent
  aggregateId : String
  aggregateType : String
  published : Bool
  deriving DecidableEq

namespace AccountRecord

variable {ν ν' : Type}

def withBalance (r : AccountRecord ν) (balance : ν') : AccountRecord ν' :=
  { r with balance := balance }

/-- The object that a row is loaded into. -/
def load (r : AccountRow) : AccountORM := r.withBalance r.balance.load

end AccountRecord

namespace TransactionRecord

variable {ν ν' : Type}

def withAmount (r : TransactionRecord ν) (amount : ν') : TransactionRecord ν' :=
  { r with amount := amount }

def load (r : TransactionRow) : TransactionORM := r.withAmount r.amount.load

end TransactionRecord

/-! ## Mappers -/

namespace AccountMapper

def toDomain (orm : AccountORM) : Except Exn Account := do
  let balance ← Money.new orm.balance orm.currency
  return Account.reconstitute orm.id orm.ownerId orm.accountNumber balance orm.status
    orm.createdAt orm.updatedAt

def toNewOrm (account : Account) : AccountORM :=
  { id := account.id, ownerId := account.ownerId, accountNumber := account.accountNumber
    balance := account.balance.amount, currency := account.balance.currency
    status := account.status, createdAt := account.createdAt, updatedAt := account.updatedAt }

def updateOrm (orm : AccountORM) (account : Account) : AccountORM :=
  { orm with
    balance := account.balance.amount, currency := account.balance.currency
    status := account.status, updatedAt := account.updatedAt }

end AccountMapper

namespace TransactionMapper

def toDomain (orm : TransactionORM) : Except Exn Transaction := do
  let amount ← Money.new orm.amount orm.currency
  return Transaction.reconstitute orm.id orm.fromAccountId orm.toAccountId amount
    orm.transactionType orm.status orm.idempotencyKey orm.createdAt orm.updatedAt
    orm.failureCode orm.failureReason orm.completedAt

def toNewOrm (tx : Transaction) : TransactionORM :=
  { id := tx.id, fromAccountId := tx.fromAccountId, toAccountId := tx.toAccountId
    amount := tx.amount.amount, currency := tx.amount.currency
    transactionType := tx.transactionType, status := tx.status
    idempotencyKey := tx.idempotencyKey, failureCode := tx.failureCode
    failureReason := tx.failureReason, createdAt := tx.createdAt, updatedAt := tx.updatedAt
    completedAt := tx.completedAt }

def updateOrm (orm : TransactionORM) (tx : Transaction) : TransactionORM :=
  { orm with
    status := tx.status, failureCode := tx.failureCode, failureReason := tx.failureReason
    completedAt := tx.completedAt, updatedAt := tx.updatedAt }

end TransactionMapper

theorem AccountMapper.toDomain_id {orm : AccountORM} {a : Account} (h : toDomain orm = .ok a) :
    a.id = orm.id := by
  obtain ⟨balance, -, ha⟩ := bind_eq_ok.mp h
  obtain rfl := Except.ok.inj ha
  rfl

theorem AccountMapper.toDomain_ownerId {orm : AccountORM} {a : Account}
    (h : toDomain orm = .ok a) : a.ownerId = orm.ownerId := by
  obtain ⟨balance, -, ha⟩ := bind_eq_ok.mp h
  obtain rfl := Except.ok.inj ha
  rfl

/-- A loaded account has recorded nothing. -/
theorem AccountMapper.toDomain_events {orm : AccountORM} {a : Account} (h : toDomain orm = .ok a) :
    a.domainEvents = [] ∧ a.recorded = [] := by
  obtain ⟨balance, -, ha⟩ := bind_eq_ok.mp h
  obtain rfl := Except.ok.inj ha
  exact ⟨rfl, rfl⟩

theorem TransactionMapper.toDomain_parties {orm : TransactionORM} {tx : Transaction}
    (h : toDomain orm = .ok tx) :
    tx.fromAccountId = orm.fromAccountId ∧ tx.toAccountId = orm.toAccountId := by
  obtain ⟨amount, -, htx⟩ := bind_eq_ok.mp h
  obtain rfl := Except.ok.inj htx
  exact ⟨rfl, rfl⟩

/-- The aggregate that a row of whole cents stands for. -/
def AccountRecord.account (r : AccountRow) (c : ℕ) (h : r.balance.IsCents c) : Account :=
  Account.reconstitute r.id r.ownerId r.accountNumber
    (Money.ofCents c h.lt_precision r.currency)
    r.status r.createdAt r.updatedAt

theorem AccountMapper.toDomain_load {r : AccountRow} {c : ℕ} (h : r.balance.IsCents c) :
    AccountMapper.toDomain r.load = .ok (r.account c h) := by
  simp only [AccountMapper.toDomain, AccountRecord.load, AccountRecord.withBalance,
    Money.new_load h]
  rfl

/-- The aggregate that a row with an amount of whole cents stands for. -/
def TransactionRecord.transaction (r : TransactionRow) (c : ℕ) (h : r.amount.IsCents c) :
    Transaction :=
  Transaction.reconstitute r.id r.fromAccountId r.toAccountId
    (Money.ofCents c h.lt_precision r.currency)
    r.transactionType r.status r.idempotencyKey r.createdAt r.updatedAt r.failureCode
    r.failureReason r.completedAt

theorem TransactionMapper.toDomain_load {r : TransactionRow} {c : ℕ} (h : r.amount.IsCents c) :
    TransactionMapper.toDomain r.load = .ok (r.transaction c h) := by
  simp only [TransactionMapper.toDomain, TransactionRecord.load, TransactionRecord.withAmount,
    Money.new_load h]
  rfl

namespace AccountRecord

/-- The row accepts a debit of `amount`. -/
def AcceptsDebit (r : AccountRow) (amount : Money) : Prop :=
  r.status = .active ∧ r.currency = amount.currency ∧ 100 * amount.cents ≤ r.balance.units

/-- The row accepts a credit of `amount`. -/
def AcceptsCredit (r : AccountRow) (amount : Money) : Prop :=
  r.status = .active ∧ r.currency = amount.currency

instance (r : AccountRow) (amount : Money) : Decidable (r.AcceptsDebit amount) := by
  unfold AcceptsDebit; infer_instance

instance (r : AccountRow) (amount : Money) : Decidable (r.AcceptsCredit amount) := by
  unfold AcceptsCredit; infer_instance

theorem canDebit_account {r : AccountRow} {c : ℕ} (h : r.balance.IsCents c) (amount : Money) :
    (r.account c h).CanDebit amount ↔ r.AcceptsDebit amount := by
  have hcents : amount.cents ≤ c ↔ 100 * (amount.cents : ℤ) ≤ r.balance.units := by
    rw [h]
    omega
  unfold Account.CanDebit AcceptsDebit
  rw [← hcents]
  rfl

theorem canCredit_account {r : AccountRow} {c : ℕ} (h : r.balance.IsCents c) {amount : Money}
    (hamount : amount.cents < 10 ^ 17) :
    (r.account c h).CanCredit amount ↔ r.AcceptsCredit amount := by
  have hfits : c + amount.cents < 10 ^ precision := by
    have := h.lt
    simp only [precision]
    omega
  constructor
  · intro hcan
    exact ⟨hcan.1, hcan.2.1⟩
  · intro haccepts
    exact ⟨haccepts.1, haccepts.2, hfits⟩

end AccountRecord

/-! ## The committed database -/

/-- A lookup by a unique column. -/
theorem find_unique {α β : Type} [DecidableEq β] {column : α → β} {l : List α}
    (h : (l.map column).Nodup) {b : β} {a : α} :
    l.find? (fun x => column x = b) = some a ↔ a ∈ l ∧ column a = b := by
  constructor
  · intro hfind
    exact ⟨List.mem_of_find?_eq_some hfind, by simpa using List.find?_some hfind⟩
  · rintro ⟨hmem, rfl⟩
    cases hfind : l.find? (fun x => column x = column a) with
    | none => simpa using List.find?_eq_none.mp hfind a hmem
    | some a' =>
      have hcolumn : column a' = column a := by simpa using List.find?_some hfind
      rw [List.inj_on_of_nodup_map h (List.mem_of_find?_eq_some hfind) hmem hcolumn]

/-- A lookup by a unique column after an insertion. -/
theorem find_insert {α β : Type} [DecidableEq β] (column : α → β) {l : List α} {a : α}
    (h : column a ∉ l.map column) (b : β) :
    (l ++ [a]).find? (fun x => column x = b) =
      if b = column a then some a else l.find? fun x => column x = b := by
  rw [List.find?_append]
  split_ifs with hb
  · subst hb
    have hnone : l.find? (fun x => column x = column a) = none := by
      simpa [List.find?_eq_none] using h
    simp [hnone]
  · cases l.find? (fun x => column x = b) <;> simp [Ne.symm hb]

structure Database where
  accounts : List AccountRow
  transactions : List TransactionRow
  outbox : List OutboxMessage
  accountIds : (accounts.map (·.id)).Nodup
  accountNumbers : (accounts.map (·.accountNumber)).Nodup
  transactionIds : (transactions.map (·.id)).Nodup
  idempotencyKeys : (transactions.map (·.idempotencyKey)).Nodup
  deriving DecidableEq

/-- The pending objects of a session. -/
structure Flush where
  newAccounts : List AccountORM
  dirtyAccounts : List AccountORM
  newTransactions : List TransactionORM
  dirtyTransactions : List TransactionORM
  newOutbox : List OutboxMessage
  deriving DecidableEq

namespace Flush

def empty : Flush := ⟨[], [], [], [], []⟩

end Flush

namespace Database

@[ext] theorem ext {db db' : Database} (haccounts : db.accounts = db'.accounts)
    (htransactions : db.transactions = db'.transactions) (houtbox : db.outbox = db'.outbox) :
    db = db' := by
  obtain ⟨accounts, transactions, outbox⟩ := db
  cases haccounts
  cases htransactions
  cases houtbox
  rfl

def empty : Database :=
  ⟨[], [], [], List.nodup_nil, List.nodup_nil, List.nodup_nil, List.nodup_nil⟩

def findAccount (db : Database) (id : AccountId) : Option AccountRow :=
  db.accounts.find? fun r => r.id = id

def findTransaction (db : Database) (id : TransactionId) : Option TransactionRow :=
  db.transactions.find? fun r => r.id = id

def findByKey (db : Database) (key : String) : Option TransactionRow :=
  db.transactions.find? fun r => r.idempotencyKey = key

theorem findAccount_eq_some {db : Database} {id : AccountId} {row : AccountRow} :
    db.findAccount id = some row ↔ row ∈ db.accounts ∧ row.id = id := find_unique db.accountIds

theorem findAccount_eq_none {db : Database} {id : AccountId} :
    db.findAccount id = none ↔ id ∉ db.accounts.map (·.id) := by
  simp [findAccount, List.find?_eq_none]

theorem findTransaction_eq_some {db : Database} {id : TransactionId} {row : TransactionRow} :
    db.findTransaction id = some row ↔ row ∈ db.transactions ∧ row.id = id :=
  find_unique db.transactionIds

theorem findTransaction_eq_none {db : Database} {id : TransactionId} :
    db.findTransaction id = none ↔ id ∉ db.transactions.map (·.id) := by
  simp [findTransaction, List.find?_eq_none]

theorem findByKey_eq_some {db : Database} {key : String} {row : TransactionRow} :
    db.findByKey key = some row ↔ row ∈ db.transactions ∧ row.idempotencyKey = key :=
  find_unique db.idempotencyKeys

theorem findByKey_eq_none {db : Database} {key : String} :
    db.findByKey key = none ↔ key ∉ db.transactions.map (·.idempotencyKey) := by
  simp [findByKey, List.find?_eq_none]

def insertAccount (db : Database) (orm : AccountORM) : Except Exn Database :=
  match Numeric.store orm.balance with
  | none => .error .dbapiError
  | some balance =>
    if h : orm.id ∉ db.accounts.map (·.id) ∧ orm.accountNumber ∉ db.accounts.map (·.accountNumber)
    then .ok { db with
      accounts := db.accounts ++ [orm.withBalance balance]
      accountIds := by
        simpa [List.nodup_append, db.accountIds, AccountRecord.withBalance] using h.1
      accountNumbers := by
        simpa [List.nodup_append, db.accountNumbers, AccountRecord.withBalance] using h.2 }
    else .error .integrityError

/-- `UPDATE accounts SET ... WHERE id = ...` with the columns that `update_orm` sets. -/
def setAccount (orm : AccountORM) (balance : Numeric) (r : AccountRow) : AccountRow :=
  if r.id = orm.id then
    { r with balance := balance, currency := orm.currency, status := orm.status
             updatedAt := orm.updatedAt }
  else r

@[simp] theorem setAccount_id (orm : AccountORM) (balance : Numeric) (r : AccountRow) :
    (setAccount orm balance r).id = r.id := by unfold setAccount; split <;> rfl

@[simp] theorem setAccount_accountNumber (orm : AccountORM) (balance : Numeric) (r : AccountRow) :
    (setAccount orm balance r).accountNumber = r.accountNumber := by
  unfold setAccount; split <;> rfl

def updateAccount (db : Database) (orm : AccountORM) : Except Exn Database :=
  match Numeric.store orm.balance with
  | none => .error .dbapiError
  | some balance =>
    if orm.id ∈ db.accounts.map (·.id) then .ok { db with
      accounts := db.accounts.map (setAccount orm balance)
      accountIds := by
        simpa only [List.map_map, Function.comp_def, setAccount_id] using db.accountIds
      accountNumbers := by
        simpa only [List.map_map, Function.comp_def, setAccount_accountNumber] using
          db.accountNumbers }
    else .error (.failure "StaleDataError" "expected to update 1 row(s); 0 were matched")

/-- The longest idempotency key that the column holds. -/
def keyLength : ℕ := 255

/-- The column of the key is taken to hold any text that is short enough, and to refuse any other.
PostgreSQL also cuts off the blanks that are too many at the end of a longer one, and refuses a
text with U+0000. -/
def insertTransaction (db : Database) (orm : TransactionORM) : Except Exn Database :=
  match Numeric.store orm.amount with
  | none => .error .dbapiError
  | some amount =>
    if keyLength < orm.idempotencyKey.length then .error .dbapiError
    else if h : orm.id ∉ db.transactions.map (·.id) ∧
        orm.idempotencyKey ∉ db.transactions.map (·.idempotencyKey)
    then .ok { db with
      transactions := db.transactions ++ [orm.withAmount amount]
      transactionIds := by
        simpa [List.nodup_append, db.transactionIds, TransactionRecord.withAmount] using h.1
      idempotencyKeys := by
        simpa [List.nodup_append, db.idempotencyKeys, TransactionRecord.withAmount] using h.2 }
    else .error .integrityError

/-- `UPDATE transactions SET ... WHERE id = ...` with the columns that `update_orm` sets. -/
def setTransaction (orm : TransactionORM) (r : TransactionRow) : TransactionRow :=
  if r.id = orm.id then
    { r with status := orm.status, failureCode := orm.failureCode
             failureReason := orm.failureReason, completedAt := orm.completedAt
             updatedAt := orm.updatedAt }
  else r

@[simp] theorem setTransaction_id (orm : TransactionORM) (r : TransactionRow) :
    (setTransaction orm r).id = r.id := by unfold setTransaction; split <;> rfl

@[simp] theorem setTransaction_idempotencyKey (orm : TransactionORM) (r : TransactionRow) :
    (setTransaction orm r).idempotencyKey = r.idempotencyKey := by
  unfold setTransaction; split <;> rfl

def updateTransaction (db : Database) (orm : TransactionORM) : Except Exn Database :=
  if orm.id ∈ db.transactions.map (·.id) then .ok { db with
    transactions := db.transactions.map (setTransaction orm)
    transactionIds := by
      simpa only [List.map_map, Function.comp_def, setTransaction_id] using db.transactionIds
    idempotencyKeys := by
      simpa only [List.map_map, Function.comp_def, setTransaction_idempotencyKey] using
        db.idempotencyKeys }
  else .error (.failure "StaleDataError" "expected to update 1 row(s); 0 were matched")

theorem insertAccount_ok {db db' : Database} {orm : AccountORM} :
    db.insertAccount orm = .ok db' ↔
      ∃ balance, Numeric.store orm.balance = some balance ∧ orm.id ∉ db.accounts.map (·.id) ∧
        orm.accountNumber ∉ db.accounts.map (·.accountNumber) ∧
        db'.accounts = db.accounts ++ [orm.withBalance balance] ∧
        db'.transactions = db.transactions ∧ db'.outbox = db.outbox := by
  unfold insertAccount
  cases hstore : Numeric.store orm.balance with
  | none => simp
  | some balance =>
    constructor
    · intro h
      simp only at h
      split_ifs at h with hnew
      obtain rfl := Except.ok.inj h
      exact ⟨balance, rfl, hnew.1, hnew.2, rfl, rfl, rfl⟩
    · rintro ⟨_, hbalance, hid, hnumber, haccounts, htransactions, houtbox⟩
      obtain rfl := Option.some.inj hbalance
      simp only [dif_pos (And.intro hid hnumber)]
      congr 1
      exact ext haccounts.symm htransactions.symm houtbox.symm

theorem updateAccount_ok {db db' : Database} {orm : AccountORM} :
    db.updateAccount orm = .ok db' ↔
      ∃ balance, Numeric.store orm.balance = some balance ∧ orm.id ∈ db.accounts.map (·.id) ∧
        db'.accounts = db.accounts.map (setAccount orm balance) ∧
        db'.transactions = db.transactions ∧ db'.outbox = db.outbox := by
  unfold updateAccount
  cases hstore : Numeric.store orm.balance with
  | none => simp
  | some balance =>
    constructor
    · intro h
      simp only at h
      split_ifs at h with hid
      obtain rfl := Except.ok.inj h
      exact ⟨balance, rfl, hid, rfl, rfl, rfl⟩
    · rintro ⟨_, hbalance, hid, haccounts, htransactions, houtbox⟩
      obtain rfl := Option.some.inj hbalance
      simp only [if_pos hid]
      congr 1
      exact ext haccounts.symm htransactions.symm houtbox.symm

theorem insertTransaction_ok {db db' : Database} {orm : TransactionORM} :
    db.insertTransaction orm = .ok db' ↔
      ∃ amount, Numeric.store orm.amount = some amount ∧
        orm.idempotencyKey.length ≤ keyLength ∧ orm.id ∉ db.transactions.map (·.id) ∧
        orm.idempotencyKey ∉ db.transactions.map (·.idempotencyKey) ∧
        db'.accounts = db.accounts ∧
        db'.transactions = db.transactions ++ [orm.withAmount amount] ∧
        db'.outbox = db.outbox := by
  unfold insertTransaction
  cases hstore : Numeric.store orm.amount with
  | none => simp
  | some amount =>
    constructor
    · intro h
      simp only at h
      split_ifs at h with hlength hnew
      obtain rfl := Except.ok.inj h
      exact ⟨amount, rfl, not_lt.mp hlength, hnew.1, hnew.2, rfl, rfl, rfl⟩
    · rintro ⟨_, hamount, hlength, hid, hkey, haccounts, htransactions, houtbox⟩
      obtain rfl := Option.some.inj hamount
      simp only [if_neg (not_lt.mpr hlength), dif_pos (And.intro hid hkey)]
      congr 1
      exact ext haccounts.symm htransactions.symm houtbox.symm

/-- Flush and COMMIT: all of the pending objects are written, or none is. -/
def flush (db : Database) (w : Flush) : Except Exn Database := do
  let db ← w.newAccounts.foldlM insertAccount db
  let db ← w.dirtyAccounts.foldlM updateAccount db
  let db ← w.newTransactions.foldlM insertTransaction db
  let db ← w.dirtyTransactions.foldlM updateTransaction db
  return { db with outbox := db.outbox ++ w.newOutbox }

end Database

end BankingTransactions
