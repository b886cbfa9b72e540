import BankingTransactions.InteractionPrograms
import BankingTransactions.Aggregates
import Mathlib.Data.List.Sort

/-!
# Ports and application services

`AccountService` and `TransferService`, written against the outbound ports. The
ports are records of coroutines, so the same service code runs over any adapters.
Aggregates live in a heap and are passed by reference, as they are in the source:
two holders of a reference see each other's changes.
-/
namespace BankingTransactions
open DecimalArithmetic InteractionPrograms

/-! ## The heap of aggregates -/

abbrev AccountRef := ℕ

abbrev TransactionRef := ℕ

structure Heap where
  accounts : List Account
  transactions : List Transaction
  deriving DecidableEq

/-- The local state of a coroutine: its objects, and the state of its adapters. -/
structure Process (σ : Type) where
  heap : Heap
  adapters : σ

/-- Code of a coroutine whose awaits are performed in `n`. -/
abbrev Coroutine (n : Type → Type) (σ : Type) : Type → Type := Task n Exn (Process σ)

/-- What Python raises on a missing object. -/
def Exn.attributeError : Exn := .failure "AttributeError" "'NoneType' object has no attribute"

namespace Heap

def empty : Heap := ⟨[], []⟩

/-- Run a method of the account behind a reference. -/
def callAccount {α : Type} (h : Heap) (ref : AccountRef) (m : Method Account α) :
    Except Exn α × Heap :=
  match h.accounts[ref]? with
  | none => (.error .attributeError, h)
  | some a => ((m.on a).1, { h with accounts := h.accounts.set ref (m.on a).2 })

/-- Run a method of the transaction behind a reference. -/
def callTransaction {α : Type} (h : Heap) (ref : TransactionRef) (m : Method Transaction α) :
    Except Exn α × Heap :=
  match h.transactions[ref]? with
  | none => (.error .attributeError, h)
  | some tx => ((m.on tx).1, { h with transactions := h.transactions.set ref (m.on tx).2 })

end Heap

section Coroutines

variable {n : Type → Type} [Monad n] {σ α : Type}

def newAccount (a : Account) : Coroutine n σ AccountRef :=
  Task.stepState fun p => (.ok p.heap.accounts.length,
    { p with heap := { p.heap with accounts := p.heap.accounts ++ [a] } })

def newTransaction (tx : Transaction) : Coroutine n σ TransactionRef :=
  Task.stepState fun p => (.ok p.heap.transactions.length,
    { p with heap := { p.heap with transactions := p.heap.transactions ++ [tx] } })

def callAccount (ref : AccountRef) (m : Method Account α) : Coroutine n σ α :=
  Task.stepState fun p =>
    ((p.heap.callAccount ref m).1, { p with heap := (p.heap.callAccount ref m).2 })

def callTransaction (ref : TransactionRef) (m : Method Transaction α) : Coroutine n σ α :=
  Task.stepState fun p =>
    ((p.heap.callTransaction ref m).1, { p with heap := (p.heap.callTransaction ref m).2 })

/-- Read the state of the adapters. -/
def getAdapters : Coroutine n σ σ := do
  let p ← Task.getState
  return p.adapters

def modifyAdapters (f : σ → σ) : Coroutine n σ Unit :=
  Task.modifyState fun p => { p with adapters := f p.adapters }

end Coroutines

/-- `collect_events` of an account: the list is handed out and cleared. -/
def Account.collect : Method Account (List DomainEvent) :=
  ExceptT.mk fun a => (.ok a.collectEvents.1, a.collectEvents.2)

def Transaction.collect : Method Transaction (List DomainEvent) :=
  ExceptT.mk fun tx => (.ok tx.collectEvents.1, tx.collectEvents.2)

@[simp] theorem Account.collect_on (a : Account) :
    Account.collect.on a = (.ok a.domainEvents, a.collectEvents.2) := rfl

@[simp] theorem Transaction.collect_on (tx : Transaction) :
    Transaction.collect.on tx = (.ok tx.domainEvents, tx.collectEvents.2) := rfl

/-! ## Ports -/

structure AccountRepository (m : Type → Type) where
  get : AccountId → m (Option AccountRef)
  getWithLock : AccountId → m (Option AccountRef)
  save : AccountRef → m Unit
  update : AccountRef → m Unit

structure TransactionRepository (m : Type → Type) where
  get : TransactionId → m (Option TransactionRef)
  getByIdempotencyKey : IdempotencyKey → m (Option TransactionRef)
  save : TransactionRef → m Unit
  update : TransactionRef → m Unit

structure UnitOfWork (m : Type → Type) where
  accounts : AccountRepository m
  transactions : TransactionRepository m
  aenter : m Unit
  aexit : Option Exn → m Unit
  commit : m Unit
  rollback : m Unit

/-- `acquire` is a context manager; these are its two ends. -/
structure LockManager (m : Type → Type) where
  enter : List String → m Unit
  exit : m Unit

structure EventBus (m : Type → Type) where
  publishMany : List DomainEvent → m Unit

section ContextManagers

variable {n : Type → Type} [Monad n] {σ α : Type}

/-- `async with uow: body` -/
def withUow (uow : UnitOfWork (Coroutine n σ)) (body : Coroutine n σ α) : Coroutine n σ α := do
  uow.aenter
  Task.withExit body uow.aexit

/-- `async with lock.acquire(*keys): body` -/
def withLock (lock : LockManager (Coroutine n σ)) (keys : List String)
    (body : Coroutine n σ α) : Coroutine n σ α := do
  lock.enter keys
  Task.withExit body fun _ => lock.exit

end ContextManagers

/-! ## Commands and results -/

structure CreateAccountCommand where
  ownerId : UUID
  currency : String
  initialBalance : Decimal
  deriving DecidableEq

structure TransferCommand where
  fromAccountId : UUID
  toAccountId : UUID
  amount : Decimal
  currency : String
  idempotencyKey : String
  deriving DecidableEq

structure AccountDTO where
  id : UUID
  ownerId : UUID
  accountNumber : String
  balance : Decimal
  currency : String
  status : String
  deriving DecidableEq

structure TransactionDTO where
  id : UUID
  fromAccountId : UUID
  toAccountId : UUID
  amount : Decimal
  currency : String
  status : String
  idempotencyKey : String
  failureCode : Option String
  failureReason : Option String
  createdAt : Time
  completedAt : Option Time
  deriving DecidableEq

def AccountDTO.fromAggregate (account : Account) : AccountDTO :=
  { id := account.id, ownerId := account.ownerId, accountNumber := account.accountNumber
    balance := account.balance.amount, currency := account.balance.currency.value
    status := account.status.value }

def TransactionDTO.fromAggregate (tx : Transaction) : TransactionDTO :=
  { id := tx.id, fromAccountId := tx.fromAccountId, toAccountId := tx.toAccountId
    amount := tx.amount.amount, currency := tx.amount.currency.value, status := tx.status.value
    idempotencyKey := tx.idempotencyKey, failureCode := tx.failureCode
    failureReason := tx.failureReason, createdAt := tx.createdAt, completedAt := tx.completedAt }

/-! ## Services -/

/-- One reading of the clock and what an event draws. -/
structure Moment where
  now : Time
  stamp : Stamp
  deriving DecidableEq

/-- What one call of `TransferService.initiate` draws. -/
structure TransferDraws where
  tx : Transaction.Draws
  processing : Moment
  debited : Moment
  credited : Moment
  completed : Moment
  failed : Moment
  deriving DecidableEq

section Services

variable {n : Type → Type} [Monad n] {σ : Type} (uow : UnitOfWork (Coroutine n σ))

namespace AccountService

def create (draws : AccountDraws) (command : CreateAccountCommand) :
    Coroutine n σ AccountDTO := do
  let currency ← Task.ofExcept (Currency.ofValue command.currency)
  let initialBalance ← Task.ofExcept (Money.new command.initialBalance currency)
  let a ← Task.ofExcept (Account.create draws command.ownerId currency (some initialBalance))
  let account ← newAccount a
  withUow uow do
    uow.accounts.save account
    uow.commit
  let a ← callAccount account get
  return AccountDTO.fromAggregate a

def get (accountId : UUID) : Coroutine n σ AccountDTO :=
  withUow uow do
    match ← uow.accounts.get accountId with
    | none => throw (.resourceNotFound "Account" accountId)
    | some account => return AccountDTO.fromAggregate (← callAccount account MonadState.get)

end AccountService

namespace TransferService

variable (lock : LockManager (Coroutine n σ)) (bus : EventBus (Coroutine n σ))

/-- `sorted([str(from_id), str(to_id)])` -/
def lockKeys (fromId toId : AccountId) : List String :=
  [fromId.str, toId.str].insertionSort (· ≤ ·)

theorem lockKeys_cases (fromId toId : AccountId) :
    lockKeys fromId toId = [fromId.str, toId.str] ∨
      lockKeys fromId toId = [toId.str, fromId.str] := by
  unfold lockKeys
  generalize fromId.str = a
  generalize toId.str = b
  by_cases h : a ≤ b <;> simp [List.insertionSort, List.orderedInsert, h]

theorem lockKeys_self (id : AccountId) : lockKeys id id = [id.str, id.str] :=
  (lockKeys_cases id id).elim (fun h => h) (fun h => h)

/-- Different accounts have different keys. -/
theorem lockKeys_of_ne {fromId toId : AccountId} (hne : fromId ≠ toId) :
    ∃ x y, x ≠ y ∧ lockKeys fromId toId = [x, y] := by
  obtain h | h := lockKeys_cases fromId toId
  · exact ⟨_, _, UUID.str_injective.ne hne, h⟩
  · exact ⟨_, _, UUID.str_injective.ne hne.symm, h⟩

/-- Step 7: the domain calls, and what is recorded when one of them raises. -/
def applyTransfer (draws : TransferDraws) (amount : Money) (sender receiver : AccountRef)
    (tx : TransactionRef) : Coroutine n σ Unit := do
  let txId := (← callTransaction tx get).id
  try
    callTransaction tx (Transaction.markProcessing draws.processing.now draws.processing.stamp)
    callAccount sender (Account.debit amount txId draws.debited.now draws.debited.stamp)
    callAccount receiver (Account.credit amount txId draws.credited.now draws.credited.stamp)
    callTransaction tx (Transaction.complete draws.completed.now draws.completed.stamp)
  catch exc =>
    if exc.isException then
      callTransaction tx (Transaction.fail exc.failureCode exc.message draws.failed.now
        draws.failed.stamp)
      uow.transactions.save tx
      uow.commit
    throw exc

/-- Steps 4 to 9, inside the lock. -/
def transferUnit (draws : TransferDraws) (fromId toId : AccountId) (amount : Money)
    (idempotencyKey : IdempotencyKey) :
    Coroutine n σ (AccountRef × AccountRef × TransactionRef) := do
  match ← uow.accounts.getWithLock fromId with
  | none => throw (.resourceNotFound "Account" fromId)
  | some sender =>
    match ← uow.accounts.getWithLock toId with
    | none => throw (.resourceNotFound "Account" toId)
    | some receiver =>
      let t ← Task.ofExcept (Transaction.initiate draws.tx fromId toId amount idempotencyKey)
      let tx ← newTransaction t
      applyTransfer uow draws amount sender receiver tx
      uow.accounts.update sender
      uow.accounts.update receiver
      uow.transactions.save tx
      uow.commit
      return (sender, receiver, tx)

/-- Step 10: publish what the unit of work has left on the aggregates. -/
def publishRemaining (sender receiver : AccountRef) (tx : TransactionRef) :
    Coroutine n σ TransactionDTO := do
  let ofSender ← callAccount sender Account.collect
  let ofReceiver ← callAccount receiver Account.collect
  let ofTx ← callTransaction tx Transaction.collect
  let events := ofSender ++ ofReceiver ++ ofTx
  if events ≠ [] then bus.publishMany events
  return TransactionDTO.fromAggregate (← callTransaction tx MonadState.get)

def initiate (draws : TransferDraws) (command : TransferCommand) :
    Coroutine n σ TransactionDTO := do
  let idempotencyKey := command.idempotencyKey
  match ← withUow uow (uow.transactions.getByIdempotencyKey idempotencyKey) with
  | some existing => return TransactionDTO.fromAggregate (← callTransaction existing MonadState.get)
  | none =>
    let fromId := command.fromAccountId
    let toId := command.toAccountId
    let currency ← Task.ofExcept (Currency.ofValue command.currency)
    let amount ← Task.ofExcept (Money.new command.amount currency)
    let (sender, receiver, tx) ← withLock lock (lockKeys fromId toId)
      (withUow uow (transferUnit uow draws fromId toId amount idempotencyKey))
    publishRemaining bus sender receiver tx

def get (transactionId : UUID) : Coroutine n σ TransactionDTO :=
  withUow uow do
    match ← uow.transactions.get transactionId with
    | none => throw (.resourceNotFound "Transaction" transactionId)
    | some tx => return TransactionDTO.fromAggregate (← callTransaction tx MonadState.get)

end TransferService

end Services

end BankingTransactions
