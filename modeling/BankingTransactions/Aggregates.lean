import BankingTransactions.ValueObjects

/-!
# Domain events and aggregates

`Account` and `Transaction` with their operations. An operation is a method: it
changes the object it is called on and may raise halfway, so that what an
exception leaves behind is computed and not assumed. Each reading of the clock
and each generated identifier is an argument, named for the place that draws it.
`recorded` is a history variable of the model: every event ever recorded on the
object, which no operation reads.
-/
namespace BankingTransactions
open DecimalArithmetic

/-! ## Events -/

inductive EventBody where
  | accountCreated (accountId ownerId : UUID) (currency : String) (initialBalance : Decimal)
  | balanceDebited (accountId transactionId : UUID) (amount : Decimal) (currency : String)
      (balanceAfter : Decimal)
  | balanceCredited (accountId transactionId : UUID) (amount : Decimal) (currency : String)
      (balanceAfter : Decimal)
  | accountFrozen (accountId ownerId : UUID) (reason : String)
  | accountUnfrozen (accountId ownerId : UUID)
  | accountClosed (accountId ownerId : UUID)
  | transactionInitiated (transactionId fromAccountId toAccountId : UUID) (amount : Decimal)
      (currency idempotencyKey : String)
  | transactionProcessing (transactionId fromAccountId toAccountId : UUID) (amount : Decimal)
      (currency : String)
  | transactionCompleted (transactionId fromAccountId toAccountId : UUID) (amount : Decimal)
      (currency : String)
  | transactionFailed (transactionId fromAccountId toAccountId : UUID) (amount : Decimal)
      (currency failureCode failureReason : String) (rollbackRequired : Bool)
  | transactionRolledBack (transactionId fromAccountId : UUID) (amount : Decimal)
      (currency : String)
  deriving DecidableEq

/-- The `metadata` dictionary, which stays empty, is left out. -/
structure DomainEvent where
  eventId : UUID
  occurredAt : Time
  body : EventBody
  deriving DecidableEq

/-- The class name of an event. -/
def DomainEvent.eventType (e : DomainEvent) : String :=
  match e.body with
  | .accountCreated .. => "AccountCreated"
  | .balanceDebited .. => "BalanceDebited"
  | .balanceCredited .. => "BalanceCredited"
  | .accountFrozen .. => "AccountFrozen"
  | .accountUnfrozen .. => "AccountUnfrozen"
  | .accountClosed .. => "AccountClosed"
  | .transactionInitiated .. => "TransactionInitiated"
  | .transactionProcessing .. => "TransactionProcessing"
  | .transactionCompleted .. => "TransactionCompleted"
  | .transactionFailed .. => "TransactionFailed"
  | .transactionRolledBack .. => "TransactionRolledBack"

/-- What the default factories of an event draw. -/
structure Stamp where
  eventId : UUID
  occurredAt : Time
  deriving DecidableEq

def Stamp.event (stamp : Stamp) (body : EventBody) : DomainEvent :=
  ⟨stamp.eventId, stamp.occurredAt, body⟩

@[simp] theorem Stamp.body_event (stamp : Stamp) (body : EventBody) :
    (stamp.event body).body = body := rfl

/-! ## Methods -/

/-- Code of a method: it may raise, and keeps what it changed before. -/
abbrev Method (σ : Type) : Type → Type := ExceptT Exn (StateM σ)

namespace Method

variable {σ α : Type}

/-- Call the method on an object. -/
def on (m : Method σ α) (s : σ) : Except Exn α × σ := m.run.run s

def ofExcept (x : Except Exn α) : Method σ α := ExceptT.mk (pure x)

variable {β : Type} (s : σ)

@[simp] theorem on_pure (a : α) : (pure a : Method σ α).on s = (.ok a, s) := rfl

@[simp] theorem on_throw (e : Exn) : (throw e : Method σ α).on s = (.error e, s) := rfl

@[simp] theorem on_ofExcept (x : Except Exn α) : (ofExcept x : Method σ α).on s = (x, s) := rfl

@[simp] theorem on_get : (get : Method σ σ).on s = (.ok s, s) := rfl

@[simp] theorem on_modify (f : σ → σ) : (modify f : Method σ Unit).on s = (.ok (), f s) := rfl

@[simp] theorem on_bind (x : Method σ α) (f : α → Method σ β) :
    (x >>= f).on s = match x.on s with
      | (.ok a, s') => (f a).on s'
      | (.error e, s') => (.error e, s') := by
  show Id.run (ExceptT.bindCont f (x.on s).1 (x.on s).2) = _
  rcases x.on s with ⟨_ | _, _⟩ <;> rfl

end Method

structure AggregateRoot where
  id : UUID
  createdAt : Time
  updatedAt : Time
  domainEvents : List DomainEvent
  recorded : List DomainEvent
  deriving DecidableEq

namespace AggregateRoot

/-- `_record_event` -/
def recordEvent (r : AggregateRoot) (e : DomainEvent) : AggregateRoot :=
  { r with domainEvents := r.domainEvents ++ [e], recorded := r.recorded ++ [e] }

/-- The list that `collect_events` leaves behind. -/
def cleared (r : AggregateRoot) : AggregateRoot := { r with domainEvents := [] }

end AggregateRoot

/-! ## Accounts -/

structure Account extends AggregateRoot where
  ownerId : UUID
  accountNumber : String
  status : AccountStatus
  balance : Money
  deriving DecidableEq

/-- `_generate_account_number` -/
def generateAccountNumber (digits : Fin 16 → Fin 10) : String :=
  "DE" ++ String.ofList (List.ofFn fun i => Char.ofNat (48 + (digits i).val))

/-- What `Account.create` draws. -/
structure AccountDraws where
  id : UUID
  createdAt : Time
  updatedAt : Time
  digits : Fin 16 → Fin 10
  created : Stamp
  deriving DecidableEq

namespace Account

def create (draws : AccountDraws) (ownerId : UUID) (currency : Currency)
    (initialBalance : Option Money) : Except Exn Account := do
  let balance ← match initialBalance with
    | some balance => .ok balance
    | none => Money.new Decimal.zero currency
  if balance.currency ≠ currency then
    .error (.currencyMismatch balance.currency currency)
  else
    let account : Account :=
      { id := draws.id, createdAt := draws.createdAt, updatedAt := draws.updatedAt
        domainEvents := [], recorded := []
        ownerId := ownerId, accountNumber := generateAccountNumber draws.digits
        status := .active, balance := balance }
    .ok { account with
      toAggregateRoot := account.recordEvent (draws.created.event
        (.accountCreated account.id ownerId balance.currency.value balance.amount)) }

theorem create_ok {draws : AccountDraws} {ownerId : UUID} {currency : Currency} {balance : Money}
    {a : Account} (h : create draws ownerId currency (some balance) = .ok a) :
    balance.currency = currency ∧
      a = { id := draws.id, createdAt := draws.createdAt, updatedAt := draws.updatedAt
            domainEvents := [draws.created.event (.accountCreated draws.id ownerId
              balance.currency.value balance.amount)]
            recorded := [draws.created.event (.accountCreated draws.id ownerId
              balance.currency.value balance.amount)]
            ownerId := ownerId, accountNumber := generateAccountNumber draws.digits
            status := .active, balance := balance } := by
  obtain ⟨b, hb, h⟩ := bind_eq_ok.mp h
  obtain rfl := Except.ok.inj hb
  simp only at h
  split_ifs at h with hcur
  exact ⟨not_not.mp hcur, (Except.ok.inj h).symm⟩

/-- Rebuild from persistence, without events. -/
def reconstitute (id ownerId : UUID) (accountNumber : String) (balance : Money)
    (status : AccountStatus) (createdAt updatedAt : Time) : Account :=
  { id, createdAt, updatedAt, domainEvents := [], recorded := [], ownerId, accountNumber, status
    balance }

def record (stamp : Stamp) (body : Account → EventBody) : Method Account Unit :=
  modify fun a => { a with toAggregateRoot := a.recordEvent (stamp.event (body a)) }

def assertNotClosed : Method Account Unit := do
  let a ← get
  if a.status = .closed then throw (.accountClosed a.id)

def assertNotFrozen : Method Account Unit := do
  let a ← get
  if a.status = .frozen then throw (.accountFrozen a.id)

def debit (amount : Money) (transactionId : UUID) (now : Time) (stamp : Stamp) :
    Method Account Unit := do
  assertNotClosed
  assertNotFrozen
  let a ← get
  let balance ← Method.ofExcept (a.balance.sub amount)
  modify fun a => { a with balance := balance }
  modify fun a => { a with updatedAt := now }
  record stamp fun a =>
    .balanceDebited a.id transactionId amount.amount amount.currency.value a.balance.amount

def credit (amount : Money) (transactionId : UUID) (now : Time) (stamp : Stamp) :
    Method Account Unit := do
  assertNotClosed
  assertNotFrozen
  let a ← get
  let balance ← Method.ofExcept (a.balance.add amount)
  modify fun a => { a with balance := balance }
  modify fun a => { a with updatedAt := now }
  record stamp fun a =>
    .balanceCredited a.id transactionId amount.amount amount.currency.value a.balance.amount

def freeze (reason : String) (now : Time) (stamp : Stamp) : Method Account Unit := do
  assertNotClosed
  let a ← get
  if a.status = .frozen then return ()
  modify fun a => { a with status := .frozen }
  modify fun a => { a with updatedAt := now }
  record stamp fun a => .accountFrozen a.id a.ownerId reason

def unfreeze (now : Time) (stamp : Stamp) : Method Account Unit := do
  assertNotClosed
  let a ← get
  if a.status = .active then return ()
  modify fun a => { a with status := .active }
  modify fun a => { a with updatedAt := now }
  record stamp fun a => .accountUnfrozen a.id a.ownerId

def close (now : Time) (stamp : Stamp) : Method Account Unit := do
  assertNotClosed
  let a ← get
  if !a.balance.isZero then throw (.accountNotEmpty a.id a.balance)
  modify fun a => { a with status := .closed }
  modify fun a => { a with updatedAt := now }
  record stamp fun a => .accountClosed a.id a.ownerId

/-- The events that are pending, and the object without them. -/
def collectEvents (a : Account) : List DomainEvent × Account :=
  (a.domainEvents, { a with toAggregateRoot := a.cleared })

@[simp] theorem domainEvents_collected (a : Account) : a.collectEvents.2.domainEvents = [] := rfl

@[simp] theorem recorded_collected (a : Account) : a.collectEvents.2.recorded = a.recorded := rfl

/-- `a` after its balance was changed by a transaction. -/
def moved (a : Account) (balance : Money) (now : Time) (e : DomainEvent) : Account :=
  { a with
    balance := balance
    toAggregateRoot := ({ a.toAggregateRoot with updatedAt := now }).recordEvent e }

/-- A debit or credit of a closed or frozen account raises; of an active one it
raises what the arithmetic raises, and leaves the account alone in every case. -/
theorem debit_on (amount : Money) (transactionId : UUID) (now : Time) (stamp : Stamp)
    (a : Account) :
    (debit amount transactionId now stamp).on a =
      match a.status with
      | .closed => (.error (.accountClosed a.id), a)
      | .frozen => (.error (.accountFrozen a.id), a)
      | .active =>
        match a.balance.sub amount with
        | .error e => (.error e, a)
        | .ok b => (.ok (), a.moved b now (stamp.event
            (.balanceDebited a.id transactionId amount.amount amount.currency.value b.amount))) := by
  cases hstatus : a.status with
  | closed => simp [debit, assertNotClosed, hstatus]
  | frozen => simp [debit, assertNotClosed, assertNotFrozen, hstatus]
  | active =>
    cases h : a.balance.sub amount <;>
      simp [debit, assertNotClosed, assertNotFrozen, record, moved, hstatus, h]

theorem credit_on (amount : Money) (transactionId : UUID) (now : Time) (stamp : Stamp)
    (a : Account) :
    (credit amount transactionId now stamp).on a =
      match a.status with
      | .closed => (.error (.accountClosed a.id), a)
      | .frozen => (.error (.accountFrozen a.id), a)
      | .active =>
        match a.balance.add amount with
        | .error e => (.error e, a)
        | .ok b => (.ok (), a.moved b now (stamp.event
            (.balanceCredited a.id transactionId amount.amount amount.currency.value b.amount))) := by
  cases hstatus : a.status with
  | closed => simp [credit, assertNotClosed, hstatus]
  | frozen => simp [credit, assertNotClosed, assertNotFrozen, hstatus]
  | active =>
    cases h : a.balance.add amount <;>
      simp [credit, assertNotClosed, assertNotFrozen, record, moved, hstatus, h]

/-- The account accepts a debit of `amount`. -/
def CanDebit (a : Account) (amount : Money) : Prop :=
  a.status = .active ∧ a.balance.currency = amount.currency ∧ amount.cents ≤ a.balance.cents

/-- The account accepts a credit of `amount`. -/
def CanCredit (a : Account) (amount : Money) : Prop :=
  a.status = .active ∧ a.balance.currency = amount.currency ∧
    a.balance.cents + amount.cents < 10 ^ precision

instance (a : Account) (amount : Money) : Decidable (a.CanDebit amount) := by
  unfold CanDebit; infer_instance

instance (a : Account) (amount : Money) : Decidable (a.CanCredit amount) := by
  unfold CanCredit; infer_instance

theorem debit_of_canDebit {a : Account} {amount : Money} (h : a.CanDebit amount)
    (transactionId : UUID) (now : Time) (stamp : Stamp) :
    ∃ b : Money, b.currency = a.balance.currency ∧ b.cents + amount.cents = a.balance.cents ∧
      (debit amount transactionId now stamp).on a = (.ok (), a.moved b now (stamp.event
        (.balanceDebited a.id transactionId amount.amount amount.currency.value b.amount))) := by
  obtain ⟨hstatus, hcur, hle⟩ := h
  have hsub := Money.sub_spec a.balance amount
  rw [if_neg (not_not.mpr hcur), if_neg (not_lt.mpr hle)] at hsub
  obtain ⟨b, hb, hbcur, hcents⟩ := hsub
  exact ⟨b, hbcur, hcents, by simp only [debit_on, hstatus, hb]⟩

theorem debit_of_not_canDebit {a : Account} {amount : Money} (h : ¬ a.CanDebit amount)
    (transactionId : UUID) (now : Time) (stamp : Stamp) :
    ∃ e : Exn, e.isException = true ∧
      (debit amount transactionId now stamp).on a = (.error e, a) := by
  rw [debit_on]
  cases hstatus : a.status with
  | closed => exact ⟨_, rfl, rfl⟩
  | frozen => exact ⟨_, rfl, rfl⟩
  | active =>
    have hsub := Money.sub_spec a.balance amount
    split_ifs at hsub with hcur hless
    · exact ⟨.currencyMismatch a.balance.currency amount.currency, rfl, by simp only [hsub]⟩
    · exact ⟨.insufficientFunds a.balance amount, rfl, by simp only [hsub]⟩
    · exact absurd ⟨hstatus, not_not.mp hcur, not_lt.mp hless⟩ h

theorem credit_of_canCredit {a : Account} {amount : Money} (h : a.CanCredit amount)
    (transactionId : UUID) (now : Time) (stamp : Stamp) :
    ∃ b : Money, b.currency = a.balance.currency ∧ b.cents = a.balance.cents + amount.cents ∧
      (credit amount transactionId now stamp).on a = (.ok (), a.moved b now (stamp.event
        (.balanceCredited a.id transactionId amount.amount amount.currency.value b.amount))) := by
  obtain ⟨hstatus, hcur, hlt⟩ := h
  have hadd := Money.add_spec a.balance amount
  rw [if_neg (not_not.mpr hcur), if_pos hlt] at hadd
  obtain ⟨b, hb, hbcur, hcents⟩ := hadd
  exact ⟨b, hbcur, hcents, by simp only [credit_on, hstatus, hb]⟩

theorem credit_of_not_canCredit {a : Account} {amount : Money} (h : ¬ a.CanCredit amount)
    (transactionId : UUID) (now : Time) (stamp : Stamp) :
    ∃ e : Exn, e.isException = true ∧
      (credit amount transactionId now stamp).on a = (.error e, a) := by
  rw [credit_on]
  cases hstatus : a.status with
  | closed => exact ⟨_, rfl, rfl⟩
  | frozen => exact ⟨_, rfl, rfl⟩
  | active =>
    have hadd := Money.add_spec a.balance amount
    split_ifs at hadd with hcur hless
    · exact ⟨.currencyMismatch a.balance.currency amount.currency, rfl, by simp only [hadd]⟩
    · exact absurd ⟨hstatus, not_not.mp hcur, hless⟩ h
    · exact ⟨.decimalInvalidOperation, rfl, by simp only [hadd]⟩

end Account

/-! ## Transactions -/

structure Transaction extends AggregateRoot where
  fromAccountId : AccountId
  toAccountId : AccountId
  amount : Money
  transactionType : TransactionType
  status : TransactionStatus
  idempotencyKey : IdempotencyKey
  failureCode : Option String
  failureReason : Option String
  completedAt : Option Time
  rollbackRequired : Bool
  deriving DecidableEq

namespace Transaction

/-- What `Transaction.initiate` draws. -/
structure Draws where
  id : TransactionId
  createdAt : Time
  updatedAt : Time
  initiated : Stamp
  deriving DecidableEq

/-- A new transaction in state PENDING, before its event is recorded. -/
def blank (draws : Draws) (fromAccountId toAccountId : AccountId) (amount : Money)
    (idempotencyKey : IdempotencyKey) (transactionType : TransactionType) : Transaction :=
  { id := draws.id, createdAt := draws.createdAt, updatedAt := draws.updatedAt
    domainEvents := [], recorded := [], fromAccountId, toAccountId, amount, transactionType
    status := .pending, idempotencyKey, failureCode := none, failureReason := none
    completedAt := none, rollbackRequired := false }

def initiate (draws : Draws) (fromAccountId toAccountId : AccountId) (amount : Money)
    (idempotencyKey : IdempotencyKey) (transactionType : TransactionType := .transfer) :
    Except Exn Transaction :=
  if amount.isZero then .error (.invalidTransferAmount amount)
  else if fromAccountId = toAccountId then .error (.sameAccountTransfer fromAccountId)
  else
    let tx := blank draws fromAccountId toAccountId amount idempotencyKey transactionType
    .ok { tx with
      toAggregateRoot := tx.recordEvent (draws.initiated.event
        (.transactionInitiated tx.id fromAccountId toAccountId amount.amount amount.currency.value
          idempotencyKey)) }

theorem initiate_ok {draws : Draws} {fromAccountId toAccountId : AccountId} {amount : Money}
    {idempotencyKey : IdempotencyKey} {transactionType : TransactionType} {tx : Transaction}
    (h : initiate draws fromAccountId toAccountId amount idempotencyKey transactionType = .ok tx) :
    amount.cents ≠ 0 ∧ fromAccountId ≠ toAccountId ∧
      tx = { blank draws fromAccountId toAccountId amount idempotencyKey transactionType with
        toAggregateRoot := (blank draws fromAccountId toAccountId amount idempotencyKey
          transactionType).recordEvent (draws.initiated.event (.transactionInitiated draws.id
            fromAccountId toAccountId amount.amount amount.currency.value idempotencyKey)) } := by
  unfold initiate at h
  split_ifs at h with hzero hsame
  refine ⟨by simpa [Money.isZero] using hzero, hsame, ?_⟩
  exact (Except.ok.inj h).symm

/-- Rebuild from persistence, without events and validation. -/
def reconstitute (id : TransactionId) (fromAccountId toAccountId : AccountId) (amount : Money)
    (transactionType : TransactionType) (status : TransactionStatus)
    (idempotencyKey : IdempotencyKey) (createdAt updatedAt : Time)
    (failureCode failureReason : Option String) (completedAt : Option Time)
    (rollbackRequired : Bool := false) : Transaction :=
  { id, createdAt, updatedAt, domainEvents := [], recorded := [], fromAccountId, toAccountId
    amount, transactionType, status, idempotencyKey, failureCode, failureReason, completedAt
    rollbackRequired }

def record (stamp : Stamp) (body : Transaction → EventBody) : Method Transaction Unit :=
  modify fun tx => { tx with toAggregateRoot := tx.recordEvent (stamp.event (body tx)) }

def markProcessing (now : Time) (stamp : Stamp) : Method Transaction Unit := do
  let tx ← get
  if !tx.status.canProcess then
    throw (.transactionAlreadyProcessing tx.id tx.status.value)
  modify fun tx => { tx with status := .processing }
  modify fun tx => { tx with updatedAt := now }
  record stamp fun tx => .transactionProcessing tx.id tx.fromAccountId tx.toAccountId
    tx.amount.amount tx.amount.currency.value

def complete (now : Time) (stamp : Stamp) : Method Transaction Unit := do
  let tx ← get
  if !tx.status.canComplete then
    throw (.transactionAlreadyCompleted tx.id tx.status.value)
  modify fun tx => { tx with status := .completed }
  modify fun tx => { tx with completedAt := some now }
  modify fun tx => { tx with updatedAt := now }
  record stamp fun tx => .transactionCompleted tx.id tx.fromAccountId tx.toAccountId
    tx.amount.amount tx.amount.currency.value

def fail (failureCode failureReason : String) (now : Time) (stamp : Stamp) :
    Method Transaction Unit := do
  let tx ← get
  if !tx.status.canFail then
    throw (.transactionNotFailable tx.id tx.status.value)
  modify fun tx => { tx with rollbackRequired := tx.status = .processing }
  modify fun tx => { tx with status := .failed }
  modify fun tx => { tx with failureCode := some failureCode }
  modify fun tx => { tx with failureReason := some failureReason }
  modify fun tx => { tx with updatedAt := now }
  record stamp fun tx => .transactionFailed tx.id tx.fromAccountId tx.toAccountId
    tx.amount.amount tx.amount.currency.value failureCode failureReason tx.rollbackRequired

def markRolledBack (now : Time) (stamp : Stamp) : Method Transaction Unit := do
  let tx ← get
  if tx.status ≠ .failed then
    throw (.transactionRollback tx.id tx.status.value)
  modify fun tx => { tx with updatedAt := now }
  record stamp fun tx => .transactionRolledBack tx.id tx.fromAccountId
    tx.amount.amount tx.amount.currency.value

/-- `tx` after a change of status that recorded one event. -/
def advanced (tx : Transaction) (status : TransactionStatus) (now : Time) (e : DomainEvent) :
    Transaction :=
  { tx with
    status := status
    toAggregateRoot := ({ tx.toAggregateRoot with updatedAt := now }).recordEvent e }

theorem markProcessing_on (now : Time) (stamp : Stamp) (tx : Transaction) :
    (markProcessing now stamp).on tx =
      if tx.status = .pending then
        (.ok (), tx.advanced .processing now (stamp.event (.transactionProcessing tx.id
          tx.fromAccountId tx.toAccountId tx.amount.amount tx.amount.currency.value)))
      else (.error (.transactionAlreadyProcessing tx.id tx.status.value), tx) := by
  split_ifs with h <;>
    simp [markProcessing, record, advanced, TransactionStatus.canProcess, h]

theorem complete_on (now : Time) (stamp : Stamp) (tx : Transaction) :
    (complete now stamp).on tx =
      if tx.status = .processing then
        (.ok (), { tx.advanced .completed now (stamp.event (.transactionCompleted tx.id
          tx.fromAccountId tx.toAccountId tx.amount.amount tx.amount.currency.value)) with
          completedAt := some now })
      else (.error (.transactionAlreadyCompleted tx.id tx.status.value), tx) := by
  split_ifs with h <;>
    simp [complete, record, advanced, TransactionStatus.canComplete, h]

theorem fail_on (failureCode failureReason : String) (now : Time) (stamp : Stamp)
    (tx : Transaction) :
    (fail failureCode failureReason now stamp).on tx =
      if tx.status = .pending ∨ tx.status = .processing then
        (.ok (), { tx.advanced .failed now (stamp.event (.transactionFailed tx.id
          tx.fromAccountId tx.toAccountId tx.amount.amount tx.amount.currency.value failureCode
          failureReason (tx.status = .processing))) with
          failureCode := some failureCode
          failureReason := some failureReason
          rollbackRequired := tx.status = .processing })
      else (.error (.transactionNotFailable tx.id tx.status.value), tx) := by
  split_ifs with h
  · rcases h with h | h <;> simp [fail, record, advanced, TransactionStatus.canFail, h]
  · obtain ⟨h₁, h₂⟩ := not_or.mp h
    simp [fail, TransactionStatus.canFail, h₁, h₂]

def isTerminal (tx : Transaction) : Bool := tx.status.isTerminal

def needsRollback (tx : Transaction) : Bool := tx.status = .failed && tx.rollbackRequired

/-- The events that are pending, and the object without them. -/
def collectEvents (tx : Transaction) : List DomainEvent × Transaction :=
  (tx.domainEvents, { tx with toAggregateRoot := tx.cleared })

@[simp] theorem recorded_collected (tx : Transaction) :
    tx.collectEvents.2.recorded = tx.recorded := rfl

end Transaction

end BankingTransactions
