import BankingTransactions.SqlAdapters
import Mathlib.Logic.Function.Basic

/-!
# The in-memory adapters

The repositories, the unit of work, the lock manager and the event bus that the unit
tests use. The dictionaries of the repositories hold references, so that a stored
aggregate is the very object that was saved, and what a service does to an object that
it was handed is done to the stored one. Nothing is awaited, so requests run one after
the other.
-/
namespace BankingTransactions
open DecimalArithmetic InteractionPrograms

/-- A dictionary. -/
abbrev Dict (κ α : Type) : Type := κ → Option α

structure MemoryState where
  accounts : Dict AccountId AccountRef
  seen : List AccountRef
  transactions : Dict TransactionId TransactionRef
  byIdempotency : Dict String TransactionId
  committed : Bool
  held : List String
  acquired : List String
  published : List DomainEvent

def MemoryState.init : MemoryState :=
  ⟨fun _ => none, [], fun _ => none, fun _ => none, false, [], [], []⟩

abbrev MemoryTask : Type → Type := Coroutine Id MemoryState

/-! ## Repositories -/

namespace InMemoryAccountRepository

def get (accountId : AccountId) : MemoryTask (Option AccountRef) := do
  let s ← getAdapters
  match s.accounts accountId with
  | none => return none
  | some account =>
    modifyAdapters fun s => { s with seen := s.seen ++ [account] }
    return some account

def getWithLock (accountId : AccountId) : MemoryTask (Option AccountRef) := get accountId

def save (account : AccountRef) : MemoryTask Unit := do
  let a ← callAccount account MonadState.get
  modifyAdapters fun s => { s with accounts := Function.update s.accounts a.id (some account) }

/-- Inherited from the port, where it has no body. -/
def update (_ : AccountRef) : MemoryTask Unit := return ()

/-- The test helper that seeds the store. -/
def add (account : Account) : MemoryTask Unit := do
  let ref ← newAccount account
  modifyAdapters fun s => { s with accounts := Function.update s.accounts account.id (some ref) }

end InMemoryAccountRepository

namespace InMemoryTransactionRepository

def get (transactionId : TransactionId) : MemoryTask (Option TransactionRef) := do
  let s ← getAdapters
  return s.transactions transactionId

def getByIdempotencyKey (key : IdempotencyKey) : MemoryTask (Option TransactionRef) := do
  let s ← getAdapters
  match s.byIdempotency key with
  | none => return none
  | some txId => return s.transactions txId

def save (transaction : TransactionRef) : MemoryTask Unit := do
  let tx ← callTransaction transaction MonadState.get
  modifyAdapters fun s =>
    { s with
      transactions := Function.update s.transactions tx.id (some transaction)
      byIdempotency := Function.update s.byIdempotency tx.idempotencyKey (some tx.id) }

/-- Inherited from the port, where it has no body. -/
def update (_ : TransactionRef) : MemoryTask Unit := return ()

end InMemoryTransactionRepository

/-! ## The unit of work -/

namespace InMemoryUnitOfWork

def aenter : MemoryTask Unit := modifyAdapters fun s => { s with committed := false }

def aexit (_ : Option Exn) : MemoryTask Unit := return ()

def commit : MemoryTask Unit := modifyAdapters fun s => { s with committed := true }

def rollback : MemoryTask Unit := return ()

end InMemoryUnitOfWork

def memoryUow : UnitOfWork MemoryTask where
  accounts :=
    { get := InMemoryAccountRepository.get
      getWithLock := InMemoryAccountRepository.getWithLock
      save := InMemoryAccountRepository.save
      update := InMemoryAccountRepository.update }
  transactions :=
    { get := InMemoryTransactionRepository.get
      getByIdempotencyKey := InMemoryTransactionRepository.getByIdempotencyKey
      save := InMemoryTransactionRepository.save
      update := InMemoryTransactionRepository.update }
  aenter := InMemoryUnitOfWork.aenter
  aexit := InMemoryUnitOfWork.aexit
  commit := InMemoryUnitOfWork.commit
  rollback := InMemoryUnitOfWork.rollback

/-! ## The lock manager and the event bus -/

namespace InMemoryLockManager

/-- Unlike Redis, a key that is held is refused at once. -/
def acquireAll : List String → MemoryTask Unit
  | [] => return ()
  | key :: keys => do
    let s ← getAdapters
    if key ∈ s.held then throw (.concurrencyConflict key)
    modifyAdapters fun s => { s with held := key :: s.held, acquired := s.acquired ++ [key] }
    acquireAll keys

/-- The `finally` block. -/
def release : MemoryTask Unit :=
  modifyAdapters fun s => { s with held := s.held.filter fun key => key ∉ s.acquired }

def enter (keys : List String) : MemoryTask Unit := do
  modifyAdapters fun s => { s with acquired := [] }
  try acquireAll keys
  catch e =>
    release
    throw e

end InMemoryLockManager

def memoryLock : LockManager MemoryTask where
  enter := InMemoryLockManager.enter
  exit := InMemoryLockManager.release

def memoryBus : EventBus MemoryTask where
  publishMany events := modifyAdapters fun s => { s with published := s.published ++ events }

/-! ## Requests -/

/-- The objects of a test and the state of its adapters. -/
abbrev MemoryStore : Type := Process MemoryState

def Request.memoryTask : Request → MemoryTask Response
  | create draws command => do
    let dto ← AccountService.create memoryUow draws command
    return .account dto
  | transfer draws command => do
    let dto ← TransferService.initiate memoryUow memoryLock memoryBus draws command
    return .transaction dto

namespace MemoryStore

/-- Run a request. -/
def perform (r : Request) (s : MemoryStore) : Except Exn Response × MemoryStore :=
  r.memoryTask.eval s

/-- The stored accounts by their identifiers. -/
def findAccount (s : MemoryStore) (id : AccountId) : Option Account :=
  (s.adapters.accounts id).bind fun ref => s.heap.accounts[ref]?

def findTransaction (s : MemoryStore) (id : TransactionId) : Option Transaction :=
  (s.adapters.transactions id).bind fun ref => s.heap.transactions[ref]?

def findByKey (s : MemoryStore) (key : String) : Option Transaction :=
  (s.adapters.byIdempotency key).bind s.findTransaction

/-- A new store, with accounts added one after the other. -/
def seeded (accounts : List Account) : MemoryStore :=
  (accounts.forM InMemoryAccountRepository.add : MemoryTask Unit).eval ⟨.empty, .init⟩ |>.2

end MemoryStore

end BankingTransactions
