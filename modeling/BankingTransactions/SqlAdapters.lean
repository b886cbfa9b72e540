import BankingTransactions.Persistence
import BankingTransactions.Services

/-!
# The SQLAlchemy and Redis adapters

The repositories, the unit of work, the lock manager and the event bus that the
container wires, as coroutines over the operations that leave the process. Every
operation answers with a value or with an exception, and what it answers is up
to the server. The local state of the adapters is the session with its pending
objects, the `seen` lists and the keys acquired so far.

A clean object that the session has loaded is weakly referenced and its row is
read again, so only changed objects are kept here; a row that is selected again
does not overwrite a changed object.
-/
namespace BankingTransactions
open DecimalArithmetic InteractionPrograms

/-! ## Operations -/

inductive IoOp where
  | selectAccount (id : AccountId)
  | selectAccountForUpdate (id : AccountId)
  | selectTransaction (id : TransactionId)
  | selectTransactionByKey (key : String)
  | commit (w : Flush)
  | rollback
  | close
  | acquireKey (lockKey : String)
  | deleteKey (lockKey : String)
  | publishMany (events : List DomainEvent)

namespace IoOp

def Val : IoOp → Type
  | selectAccount _ => Option AccountORM
  | selectAccountForUpdate _ => Option AccountORM
  | selectTransaction _ => Option TransactionORM
  | selectTransactionByKey _ => Option TransactionORM
  | _ => Unit

def Res (o : IoOp) : Type := Except Exn o.Val

end IoOp

structure SqlState where
  session : Flush
  seenAccounts : List AccountRef
  seenTransactions : List TransactionRef
  acquired : List String
  deriving DecidableEq

def SqlState.init : SqlState := ⟨.empty, [], [], []⟩

abbrev SqlTask : Type → Type := Coroutine (Program IoOp IoOp.Res) SqlState

def io (o : IoOp) : SqlTask o.Val := Task.perform o id

/-- An operation whose result is not used. -/
def exec (o : IoOp) : SqlTask Unit := do
  let _ ← io o
  return ()

namespace Flush

def addAccount (w : Flush) (orm : AccountORM) : Flush :=
  { w with newAccounts := w.newAccounts ++ [orm] }

def addTransaction (w : Flush) (orm : TransactionORM) : Flush :=
  { w with newTransactions := w.newTransactions ++ [orm] }

def addOutbox (w : Flush) (messages : List OutboxMessage) : Flush :=
  { w with newOutbox := w.newOutbox ++ messages }

/-- The changed object that stands for a selected row, or else the row itself. -/
def trackedAccount (w : Flush) (orm : AccountORM) : AccountORM :=
  (w.dirtyAccounts.find? fun o => o.id = orm.id).getD orm

def markAccount (w : Flush) (orm : AccountORM) : Flush :=
  { w with dirtyAccounts := (w.dirtyAccounts.filter fun o => o.id ≠ orm.id) ++ [orm] }

def trackedTransaction (w : Flush) (orm : TransactionORM) : TransactionORM :=
  (w.dirtyTransactions.find? fun o => o.id = orm.id).getD orm

def markTransaction (w : Flush) (orm : TransactionORM) : Flush :=
  { w with dirtyTransactions := (w.dirtyTransactions.filter fun o => o.id ≠ orm.id) ++ [orm] }

end Flush

namespace SqlState

def mapSession (f : Flush → Flush) (s : SqlState) : SqlState := { s with session := f s.session }

end SqlState

/-! ## Repositories -/

namespace PostgresAccountRepository

/-- Rebuild the aggregate of a selected row and remember it as seen. -/
def register : Option AccountORM → SqlTask (Option AccountRef)
  | none => return none
  | some orm => do
    let a ← Task.ofExcept (AccountMapper.toDomain orm)
    let account ← newAccount a
    modifyAdapters fun s => { s with seenAccounts := s.seenAccounts ++ [account] }
    return some account

def get (accountId : AccountId) : SqlTask (Option AccountRef) := do
  let orm ← io (.selectAccount accountId)
  register orm

def getWithLock (accountId : AccountId) : SqlTask (Option AccountRef) := do
  let orm ← io (.selectAccountForUpdate accountId)
  register orm

def save (account : AccountRef) : SqlTask Unit := do
  let a ← callAccount account MonadState.get
  match ← io (.selectAccount a.id) with
  | none => modifyAdapters (·.mapSession (·.addAccount (AccountMapper.toNewOrm a)))
  | some orm => modifyAdapters (·.mapSession fun w =>
      w.markAccount (AccountMapper.updateOrm (w.trackedAccount orm) a))

def update (account : AccountRef) : SqlTask Unit := do
  let a ← callAccount account MonadState.get
  match ← io (.selectAccountForUpdate a.id) with
  | none => throw .noResultFound
  | some orm => modifyAdapters (·.mapSession fun w =>
      w.markAccount (AccountMapper.updateOrm (w.trackedAccount orm) a))

end PostgresAccountRepository

namespace PostgresTransactionRepository

def get (transactionId : TransactionId) : SqlTask (Option TransactionRef) := do
  match ← io (.selectTransaction transactionId) with
  | none => return none
  | some orm =>
    let t ← Task.ofExcept (TransactionMapper.toDomain orm)
    let tx ← newTransaction t
    modifyAdapters fun s => { s with seenTransactions := s.seenTransactions ++ [tx] }
    return some tx

/-- Unlike `get`, the lookup by key does not remember what it found. -/
def getByIdempotencyKey (key : IdempotencyKey) : SqlTask (Option TransactionRef) := do
  match ← io (.selectTransactionByKey key) with
  | none => return none
  | some orm =>
    let t ← Task.ofExcept (TransactionMapper.toDomain orm)
    return some (← newTransaction t)

def save (transaction : TransactionRef) : SqlTask Unit := do
  let tx ← callTransaction transaction MonadState.get
  match ← io (.selectTransaction tx.id) with
  | none => modifyAdapters (·.mapSession (·.addTransaction (TransactionMapper.toNewOrm tx)))
  | some orm => modifyAdapters (·.mapSession fun w =>
      w.markTransaction (TransactionMapper.updateOrm (w.trackedTransaction orm) tx))

def update (transaction : TransactionRef) : SqlTask Unit := do
  let tx ← callTransaction transaction MonadState.get
  match ← io (.selectTransaction tx.id) with
  | none => throw .attributeError
  | some orm => modifyAdapters (·.mapSession fun w =>
      w.markTransaction (TransactionMapper.updateOrm (w.trackedTransaction orm) tx))

end PostgresTransactionRepository

/-! ## The unit of work -/

def OutboxMessage.ofEvent (e : DomainEvent) : OutboxMessage :=
  { eventType := e.eventType, payload := e, aggregateId := e.eventId.str
    aggregateType := e.eventType, published := false }

namespace SQLAlchemyUnitOfWork

def aenter : SqlTask Unit :=
  modifyAdapters fun s => { s with session := .empty, seenAccounts := [], seenTransactions := [] }

def rollback : SqlTask Unit := do
  exec .rollback
  modifyAdapters (·.mapSession fun _ => .empty)

def aexit : Option Exn → SqlTask Unit
  | none => exec .close
  | some _ => do
    rollback
    exec .close

def storeEvents (events : List DomainEvent) : SqlTask Unit :=
  modifyAdapters (·.mapSession (·.addOutbox (events.map OutboxMessage.ofEvent)))

def storeAccountEvents : List AccountRef → SqlTask Unit
  | [] => return ()
  | account :: rest => do
    let events ← callAccount account Account.collect
    storeEvents events
    storeAccountEvents rest

def storeTransactionEvents : List TransactionRef → SqlTask Unit
  | [] => return ()
  | tx :: rest => do
    let events ← callTransaction tx Transaction.collect
    storeEvents events
    storeTransactionEvents rest

/-- `_collect_and_store_events` -/
def collectAndStoreEvents : SqlTask Unit := do
  let s ← getAdapters
  storeAccountEvents s.seenAccounts
  storeTransactionEvents s.seenTransactions

def commitSession : SqlTask Unit := do
  let s ← getAdapters
  exec (.commit s.session)
  modifyAdapters (·.mapSession fun _ => .empty)

def commit : SqlTask Unit := do
  try
    collectAndStoreEvents
    commitSession
  catch e =>
    if e.isException then rollback
    throw e

end SQLAlchemyUnitOfWork

def sqlUow : UnitOfWork SqlTask where
  accounts :=
    { get := PostgresAccountRepository.get
      getWithLock := PostgresAccountRepository.getWithLock
      save := PostgresAccountRepository.save
      update := PostgresAccountRepository.update }
  transactions :=
    { get := PostgresTransactionRepository.get
      getByIdempotencyKey := PostgresTransactionRepository.getByIdempotencyKey
      save := PostgresTransactionRepository.save
      update := PostgresTransactionRepository.update }
  aenter := SQLAlchemyUnitOfWork.aenter
  aexit := SQLAlchemyUnitOfWork.aexit
  commit := SQLAlchemyUnitOfWork.commit
  rollback := SQLAlchemyUnitOfWork.rollback

/-! ## The lock manager and the event bus -/

namespace RedisLockManager

def lockKey (key : String) : String := "banking:transfer:lock:" ++ key

theorem lockKey_injective : Function.Injective lockKey :=
  fun _ _ h => (String.append_right_inj _).mp h

/-- The polling loop of `_acquire_single` is one operation here: it ends when one of
its attempts is granted or when it gives up on a refusal. -/
def acquireAll : List String → SqlTask Unit
  | [] => return ()
  | key :: keys => do
    exec (.acquireKey (lockKey key))
    modifyAdapters fun s => { s with acquired := s.acquired ++ [lockKey key] }
    acquireAll keys

def safeRelease (lockKey : String) : SqlTask Unit := do
  try exec (.deleteKey lockKey)
  catch e => if e.isException then pure () else throw e

def releaseAll : List String → SqlTask Unit
  | [] => return ()
  | lockKey :: rest => do
    safeRelease lockKey
    releaseAll rest

/-- The `finally` block: the keys in reverse order of acquisition. -/
def release : SqlTask Unit := do
  let s ← getAdapters
  releaseAll s.acquired.reverse

def enter (keys : List String) : SqlTask Unit := do
  modifyAdapters fun s => { s with acquired := [] }
  try acquireAll keys
  catch e =>
    release
    throw e

end RedisLockManager

def redisLock : LockManager SqlTask where
  enter := RedisLockManager.enter
  exit := RedisLockManager.release

def sqlBus : EventBus SqlTask where
  publishMany events := exec (.publishMany events)

/-! ## Requests -/

inductive Request where
  | create (draws : AccountDraws) (command : CreateAccountCommand)
  | transfer (draws : TransferDraws) (command : TransferCommand)
  deriving DecidableEq

inductive Response where
  | account (dto : AccountDTO)
  | transaction (dto : TransactionDTO)
  deriving DecidableEq

/-- How a request ended, and the objects it leaves behind. -/
abbrev Outcome := Except Exn Response × Process SqlState

def Process.init : Process SqlState := ⟨.empty, .init⟩

namespace Request

def task : Request → SqlTask Response
  | create draws command => do
    let dto ← AccountService.create sqlUow draws command
    return .account dto
  | transfer draws command => do
    let dto ← TransferService.initiate sqlUow redisLock sqlBus draws command
    return .transaction dto

def program (r : Request) : Program IoOp IoOp.Res Outcome := r.task.run.run .init

end Request

end BankingTransactions
