import BankingTransactions.DataclassMethods
import BankingTransactions.MoneyArithmetic
import BankingTransactions.AccountLedger
import BankingTransactions.TransactionLifecycle

/-!
# Equality of aggregates

`Entity` defines equality and hash by the id. `AggregateRoot`, `Account` and `Transaction` are
dataclasses of their own, so that each gets a comparison of all its fields instead, pending
events included, and no hash: an aggregate differs from a reloaded copy as soon as an
operation has changed one of the two, and neither can be put in a set.
-/
namespace BankingTransactions
open DecimalArithmetic DataclassMethods

/-! ## Equality of the fields -/

/-- `==` of decimals. No amount of an event is a NaN. -/
def DecimalArithmetic.Decimal.equal : Decimal → Decimal → Bool
  | .finite s c e, .finite s' c' e' =>
    Decimal.aligned (min e e') s c e = Decimal.aligned (min e e') s' c' e'
  | .infinite s, .infinite s' => s = s'
  | _, _ => false

instance (a b : Money) : Decidable (a.Equal b) := decidable_of_iff _ (a.equal_iff b).symm

/-- Two events of one class, their own fields compared. -/
def EventBody.equal : EventBody → EventBody → Bool
  | .accountCreated a o c x, .accountCreated a' o' c' x' => a = a' ∧ o = o' ∧ c = c' ∧ x.equal x'
  | .balanceDebited a t x c y, .balanceDebited a' t' x' c' y' =>
    a = a' ∧ t = t' ∧ x.equal x' ∧ c = c' ∧ y.equal y'
  | .balanceCredited a t x c y, .balanceCredited a' t' x' c' y' =>
    a = a' ∧ t = t' ∧ x.equal x' ∧ c = c' ∧ y.equal y'
  | .transactionInitiated t f g x c k, .transactionInitiated t' f' g' x' c' k' =>
    t = t' ∧ f = f' ∧ g = g' ∧ x.equal x' ∧ c = c' ∧ k = k'
  | .transactionProcessing t f g x c, .transactionProcessing t' f' g' x' c' =>
    t = t' ∧ f = f' ∧ g = g' ∧ x.equal x' ∧ c = c'
  | .transactionCompleted t f g x c, .transactionCompleted t' f' g' x' c' =>
    t = t' ∧ f = f' ∧ g = g' ∧ x.equal x' ∧ c = c'
  | .transactionFailed t f g x c d r b, .transactionFailed t' f' g' x' c' d' r' b' =>
    t = t' ∧ f = f' ∧ g = g' ∧ x.equal x' ∧ c = c' ∧ d = d' ∧ r = r' ∧ b = b'
  | .transactionRolledBack t f x c, .transactionRolledBack t' f' x' c' =>
    t = t' ∧ f = f' ∧ x.equal x' ∧ c = c'
  -- the events without amounts
  | e, e' => e = e'

/-- The generated `__eq__` of events, which leaves `event_id` and `occurred_at` out. -/
def DomainEvent.equal (e e' : DomainEvent) : Bool := e.body.equal e'.body

/-- `==` of lists. -/
def equalEvents (events events' : List DomainEvent) : Bool :=
  events.length = events'.length ∧ (events.zip events').all fun p => p.1.equal p.2

/-- `==` of the fields of `AggregateRoot`. -/
def AggregateRoot.agree (a b : AggregateRoot) : Bool :=
  a.id = b.id ∧ a.createdAt = b.createdAt ∧ a.updatedAt = b.updatedAt ∧
    equalEvents a.domainEvents b.domainEvents

def Account.agree (a b : Account) : Bool :=
  a.toAggregateRoot.agree b.toAggregateRoot ∧ a.ownerId = b.ownerId ∧
    a.accountNumber = b.accountNumber ∧ a.status = b.status ∧ a.balance.Equal b.balance

def Transaction.agree (a b : Transaction) : Bool :=
  a.toAggregateRoot.agree b.toAggregateRoot ∧ a.fromAccountId = b.fromAccountId ∧
    a.toAccountId = b.toAccountId ∧ a.amount.Equal b.amount ∧
    a.transactionType = b.transactionType ∧ a.status = b.status ∧
    a.idempotencyKey = b.idempotencyKey ∧ a.failureCode = b.failureCode ∧
    a.failureReason = b.failureReason ∧ a.completedAt = b.completedAt ∧
    a.rollbackRequired = b.rollbackRequired

/-! ## The classes -/

inductive AggregateClass where
  | account
  | transaction
  deriving DecidableEq

/-- An object of one of the aggregate classes. -/
inductive Aggregate where
  | account (a : Account)
  | transaction (tx : Transaction)

/-- Python's own `is`, and hashes of ids and of addresses. -/
structure Builtins where
  same : Aggregate → Aggregate → Bool
  hashId : UUID → ℤ
  address : Aggregate → ℤ

namespace Aggregate

def cls : Aggregate → AggregateClass
  | account _ => .account
  | transaction _ => .transaction

def root : Aggregate → AggregateRoot
  | account a => a.toAggregateRoot
  | transaction tx => tx.toAggregateRoot

def id (x : Aggregate) : UUID := x.root.id

/-- `==` of the fields of `Entity`. -/
def agreeEntity (x y : Aggregate) : Bool :=
  x.id = y.id ∧ x.root.createdAt = y.root.createdAt ∧ x.root.updatedAt = y.root.updatedAt

def agreeRoot (x y : Aggregate) : Bool := x.root.agree y.root

/-- Entities compare by id, whatever they are. -/
def entityEq (x y : Aggregate) : Option Bool := some (x.id = y.id)

def entityMro (py : Builtins) : Mro Aggregate ℤ :=
  [(ClassDict.ofBody (some entityEq) (some fun x => py.hashId x.id)).dataclass cls agreeEntity,
    .object py.same py.address]

def aggregateRootMro (py : Builtins) : Mro Aggregate ℤ :=
  (ClassDict.ofBody none none).dataclass cls agreeRoot :: entityMro py

/-- A dataclass of its own, with fields that `agree` compares. -/
def subclassMro (py : Builtins) (agree : Aggregate → Aggregate → Bool) : Mro Aggregate ℤ :=
  (ClassDict.ofBody none none).dataclass cls agree :: aggregateRootMro py

def accountMro (py : Builtins) : Mro Aggregate ℤ :=
  subclassMro py fun
    | account a, account b => a.agree b
    | _, _ => false

def transactionMro (py : Builtins) : Mro Aggregate ℤ :=
  subclassMro py fun
    | transaction a, transaction b => a.agree b
    | _, _ => false

variable (py : Builtins)

/-- What `Entity` says of `==` and `hash` would do. -/
theorem entity_comparedBy (x y : Aggregate) : (entityMro py).ComparedBy py.same id x y :=
  Mro.comparedBy_ofBody py.same id py.hashId x y

theorem account_equal (a b : Account) :
    (accountMro py).equal py.same (account a) (account b) = a.agree b :=
  Mro.equal_dataclass (by rfl) py.same

theorem transaction_equal (a b : Transaction) :
    (transactionMro py).equal py.same (transaction a) (transaction b) = a.agree b :=
  Mro.equal_dataclass (by rfl) py.same

end Aggregate

/-! ## Copies drift apart -/

/-- Where every step adds to a size or does nothing, so does a run. -/
theorem eq_or_lt_foldl {σ κ : Type} (f : σ → κ → σ) (size : σ → ℕ)
    (hstep : ∀ s k, f s k = s ∨ size s < size (f s k)) (s : σ) (ks : List κ) :
    ks.foldl f s = s ∨ size s < size (ks.foldl f s) := by
  induction ks generalizing s with
  | nil => exact .inl rfl
  | cons k ks ih =>
    rw [List.foldl_cons]
    have hrest := ih (f s k)
    rcases hstep s k with heq | hlt
    · rwa [heq] at hrest ⊢
    · right
      rcases hrest with heq | hlt'
      · rwa [heq]
      · omega

theorem AggregateRoot.length_of_agree {a b : AggregateRoot} (h : a.agree b = true) :
    a.domainEvents.length = b.domainEvents.length := by
  simp only [agree, equalEvents, decide_eq_true_eq] at h
  exact h.2.2.2.1

namespace Account

variable {a a' : Account}

theorem length_of_agree (h : a.agree a' = true) :
    a.domainEvents.length = a'.domainEvents.length := by
  simp only [agree, decide_eq_true_eq] at h
  exact AggregateRoot.length_of_agree h.1

/-- A call that changes anything records an event. -/
theorem Step.eq_or_length_lt {call : Call} {r : Except Exn Unit} (h : Step a call r a') :
    a' = a ∨ a.domainEvents.length < a'.domainEvents.length := by
  cases h with
  | raised => exact .inl rfl
  | ignored => exact .inl rfl
  | _ => exact .inr (by simp [moved, turned, AggregateRoot.recordEvent])

theorem eq_or_length_lt_after (a : Account) (calls : List Call) :
    a.after calls = a ∨ a.domainEvents.length < (a.after calls).domainEvents.length :=
  eq_or_lt_foldl called (fun a => a.domainEvents.length)
    (fun a call => (step_called a call).eq_or_length_lt) a calls

/-- An account differs from a copy of it on which calls have changed anything. -/
theorem not_agree_after {calls : List Call} (h : a.after calls ≠ a) :
    a.agree (a.after calls) = false := by
  apply eq_false_of_ne_true
  intro hagree
  have hlength := length_of_agree hagree
  have hlt := (a.eq_or_length_lt_after calls).resolve_left h
  omega

end Account

namespace Transaction

variable {tx tx' : Transaction}

theorem length_of_agree (h : tx.agree tx' = true) :
    tx.domainEvents.length = tx'.domainEvents.length := by
  simp only [agree, decide_eq_true_eq] at h
  exact AggregateRoot.length_of_agree h.1

theorem Step.eq_or_length_lt {call : Call} {r : Except Exn Unit} (h : Step tx call r tx') :
    tx' = tx ∨ tx.domainEvents.length < tx'.domainEvents.length := by
  cases h with
  | raised => exact .inl rfl
  | _ => exact .inr (by simp [advanced, AggregateRoot.recordEvent])

theorem eq_or_length_lt_after (tx : Transaction) (calls : List Call) :
    tx.after calls = tx ∨ tx.domainEvents.length < (tx.after calls).domainEvents.length :=
  eq_or_lt_foldl called (fun tx => tx.domainEvents.length)
    (fun tx call => (step_called tx call).eq_or_length_lt) tx calls

theorem not_agree_after {calls : List Call} (h : tx.after calls ≠ tx) :
    tx.agree (tx.after calls) = false := by
  apply eq_false_of_ne_true
  intro hagree
  have hlength := length_of_agree hagree
  have hlt := (tx.eq_or_length_lt_after calls).resolve_left h
  omega

end Transaction

/-! ## The law -/

namespace Aggregate

/-- The methods of `Entity` would compare by id. No two accounts and no two transactions are
compared by their ids: neither object can be hashed, and one on which calls have changed anything
differs from a copy that has the same id. -/
theorem not_comparedBy_id (py : Builtins) :
    (∀ a b : Account, ¬ (accountMro py).ComparedBy py.same id (account a) (account b)) ∧
      (∀ a b : Transaction,
        ¬ (transactionMro py).ComparedBy py.same id (transaction a) (transaction b)) ∧
      (∀ (a : Account) (calls : List Account.Call), (a.after calls).id = a.id ∧
        (a.after calls = a ∨
          (accountMro py).equal py.same (account a) (account (a.after calls)) = false)) ∧
      (∀ (tx : Transaction) (calls : List Transaction.Call), (tx.after calls).id = tx.id ∧
        (tx.after calls = tx ∨
          (transactionMro py).equal py.same (transaction tx) (transaction (tx.after calls)) =
            false)) ∧
      ∀ x y : Aggregate, (entityMro py).ComparedBy py.same id x y := by
  refine ⟨fun a b => ?_, fun a b => ?_, fun a calls => ?_, fun tx calls => ?_,
    entity_comparedBy py⟩
  · exact Mro.not_comparedBy_dataclass py.same id (account a) (account b)
  · exact Mro.not_comparedBy_dataclass py.same id (transaction a) (transaction b)
  · refine ⟨(a.sameAccount_after calls).1, ?_⟩
    by_cases h : a.after calls = a
    · exact .inl h
    · right
      rw [account_equal]
      exact Account.not_agree_after h
  · refine ⟨(tx.sameTransfer_after calls).1, ?_⟩
    by_cases h : tx.after calls = tx
    · exact .inl h
    · right
      rw [transaction_equal]
      exact Transaction.not_agree_after h

namespace Sample

def builtins : Builtins := ⟨fun _ _ => false, fun id => id.toNat, fun _ => 0⟩

/-- The account of 100 EUR as it was loaded, and the same account after a freeze. -/
def loaded : Account := Account.Sample.opened.collectEvents.2

def frozen : Account := loaded.called (.freeze "audit" 1 ⟨1, 1⟩)

end Sample

theorem frozen_copy_differs :
    Sample.frozen.id = Sample.loaded.id ∧
      (accountMro Sample.builtins).equal Sample.builtins.same (account Sample.loaded)
        (account Sample.frozen) = false ∧
      (accountMro Sample.builtins).hash (account Sample.loaded) = none ∧
      ¬ (accountMro Sample.builtins).ComparedBy Sample.builtins.same id (account Sample.loaded)
        (account Sample.frozen) := by
  have hdiffers : (accountMro Sample.builtins).equal Sample.builtins.same (account Sample.loaded)
      (account Sample.frozen) = false := by decide +kernel
  refine ⟨rfl, hdiffers, rfl, fun h => ?_⟩
  rw [h.equal.mpr rfl] at hdiffers
  cases hdiffers

end Aggregate

end BankingTransactions
