import BankingTransactions.InMemoryAdapters
import BankingTransactions.Settlement

/-!
# The steps of the services over the in-memory adapters

Nothing is awaited, so every step is a function of the objects and of the state of the
adapters. The domain calls change the stored objects themselves, and the unit of work has
no rollback.
-/
namespace BankingTransactions
open DecimalArithmetic InteractionPrograms

namespace MemoryState

/-- A transaction is saved. -/
def saved (m : MemoryState) (k : TransactionRef) (tx : Transaction) : MemoryState :=
  { m with
    transactions := Function.update m.transactions tx.id (some k)
    byIdempotency := Function.update m.byIdempotency tx.idempotencyKey (some tx.id) }

end MemoryState

section Calls

variable {α : Type} {accounts : List Account} {transactions : List Transaction} {m : MemoryState}

theorem eval_callAccount {ref : AccountRef} {a : Account} (ha : accounts[ref]? = some a)
    (f : Method Account α) :
    (callAccount ref f : MemoryTask α).eval ⟨⟨accounts, transactions⟩, m⟩ =
      ((f.on a).1, ⟨⟨accounts.set ref (f.on a).2, transactions⟩, m⟩) := by
  simp only [callAccount, Task.eval_stepState, Heap.callAccount, ha]

theorem eval_callTransaction {ref : TransactionRef} {tx : Transaction}
    (htx : transactions[ref]? = some tx) (f : Method Transaction α) :
    (callTransaction ref f : MemoryTask α).eval ⟨⟨accounts, transactions⟩, m⟩ =
      ((f.on tx).1, ⟨⟨accounts, transactions.set ref (f.on tx).2⟩, m⟩) := by
  simp only [callTransaction, Task.eval_stepState, Heap.callTransaction, htx]

theorem eval_readAccount {ref : AccountRef} {a : Account} (ha : accounts[ref]? = some a) :
    (callAccount ref get : MemoryTask Account).eval ⟨⟨accounts, transactions⟩, m⟩ =
      (.ok a, ⟨⟨accounts, transactions⟩, m⟩) := by
  obtain ⟨href, rfl⟩ := List.getElem?_eq_some_iff.mp ha
  rw [eval_callAccount ha]
  simp

theorem eval_readTransaction {ref : TransactionRef} {tx : Transaction}
    (htx : transactions[ref]? = some tx) :
    (callTransaction ref get : MemoryTask Transaction).eval ⟨⟨accounts, transactions⟩, m⟩ =
      (.ok tx, ⟨⟨accounts, transactions⟩, m⟩) := by
  obtain ⟨href, rfl⟩ := List.getElem?_eq_some_iff.mp htx
  rw [eval_callTransaction htx]
  simp

@[simp] theorem eval_getAdapters (s : MemoryStore) :
    (getAdapters : MemoryTask MemoryState).eval s = (.ok s.adapters, s) := rfl

@[simp] theorem eval_modifyAdapters (f : MemoryState → MemoryState) (s : MemoryStore) :
    (modifyAdapters f : MemoryTask Unit).eval s = (.ok (), ⟨s.heap, f s.adapters⟩) := rfl

theorem eval_newTransaction (tx : Transaction) :
    (newTransaction tx : MemoryTask TransactionRef).eval ⟨⟨accounts, transactions⟩, m⟩ =
      (.ok transactions.length, ⟨⟨accounts, transactions ++ [tx]⟩, m⟩) := rfl

theorem eval_saveTransaction {ref : TransactionRef} {tx : Transaction}
    (htx : transactions[ref]? = some tx) :
    (memoryUow.transactions.save ref).eval ⟨⟨accounts, transactions⟩, m⟩ =
      (.ok (), ⟨⟨accounts, transactions⟩, m.saved ref tx⟩) := by
  simp [memoryUow, InMemoryTransactionRepository.save, eval_readTransaction htx, MemoryState.saved]

theorem eval_updateAccount (ref : AccountRef) (s : MemoryStore) :
    (memoryUow.accounts.update ref).eval s = (.ok (), s) := rfl

theorem eval_commit (s : MemoryStore) :
    memoryUow.commit.eval s = (.ok (), ⟨s.heap, { s.adapters with committed := true }⟩) := rfl

end Calls

namespace TransferService

variable {accounts : List Account} {transactions : List Transaction} {m : MemoryState}
  {i j : AccountRef} {k : TransactionRef} {sender receiver : Account} {tx : Transaction}

/-- Step 7: the settlement is in the objects, and saved when it has raised. -/
theorem eval_applyTransfer (draws : TransferDraws) (amount : Money)
    (hi : accounts[i]? = some sender) (hj : accounts[j]? = some receiver)
    (hij : i ≠ j) (hk : transactions[k]? = some tx) (hpending : tx.status = .pending) :
    (applyTransfer memoryUow draws amount i j k).eval ⟨⟨accounts, transactions⟩, m⟩ =
      let S := draws.settle amount sender receiver tx
      let heap : Heap := ⟨(accounts.set i S.sender).set j S.receiver, transactions.set k S.tx⟩
      match S.raised with
      | none => (.ok (), ⟨heap, m⟩)
      | some e => (.error e, ⟨heap, { m.saved k S.tx with committed := true }⟩) := by
  have hk' : ∀ t, (transactions.set k t)[k]? = some t := fun t =>
    List.getElem?_set_self (List.getElem?_eq_some_iff.mp hk).1
  have hj' : ∀ a, (accounts.set i a)[j]? = some receiver := fun a => by
    rw [List.getElem?_set_ne hij, hj]
  have hkept : ∀ a, (accounts.set i a).set j receiver = accounts.set i a := by
    intro a
    obtain ⟨hlt, heq⟩ := List.getElem?_eq_some_iff.mp (hj' a)
    rw [← heq, List.set_getElem_self]
  have hprocess := draws.markProcessing_on_pending hpending
  by_cases hd : sender.CanDebit amount
  · obtain ⟨bs, -, -, hdebit⟩ :=
      Account.debit_of_canDebit hd tx.id draws.debited.now draws.debited.stamp
    by_cases hc : receiver.CanCredit amount
    · obtain ⟨br, -, -, hcredit⟩ :=
        Account.credit_of_canCredit hc tx.id draws.credited.now draws.credited.stamp
      simp only [applyTransfer, Task.eval_bind, Task.eval_tryCatch, eval_readTransaction hk,
        eval_callTransaction hk, hprocess, eval_callAccount hi, hdebit,
        eval_callAccount (hj' _), hcredit, eval_callTransaction (hk' _),
        draws.complete_on_processed hpending, List.set_set, TransferDraws.settle,
        TransferDraws.debit, TransferDraws.credit]
    · obtain ⟨e, he, hcredit⟩ :=
        Account.credit_of_not_canCredit hc tx.id draws.credited.now draws.credited.stamp
      simp only [applyTransfer, Task.eval_bind, Task.eval_tryCatch, eval_readTransaction hk,
        eval_callTransaction hk, hprocess, eval_callAccount hi, hdebit,
        eval_callAccount (hj' _), hcredit, eval_callTransaction (hk' _),
        draws.fail_on_processed hpending, List.set_set, TransferDraws.settle, hkept,
        TransferDraws.debit, TransferDraws.credit, he, if_true, eval_saveTransaction (hk' _),
        eval_commit, Task.eval_throw]
  · obtain ⟨e, he, hdebit⟩ :=
      Account.debit_of_not_canDebit hd tx.id draws.debited.now draws.debited.stamp
    simp only [applyTransfer, Task.eval_bind, Task.eval_tryCatch, eval_readTransaction hk,
      eval_callTransaction hk, hprocess, eval_callAccount hi, hdebit,
      eval_callTransaction (hk' _),
      draws.fail_on_processed hpending, List.set_set, TransferDraws.settle, hkept,
      TransferDraws.debit, he, if_true, eval_saveTransaction (hk' _),
      eval_commit, Task.eval_throw]

theorem eval_getWithLock (id : AccountId) :
    (memoryUow.accounts.getWithLock id).eval ⟨⟨accounts, transactions⟩, m⟩ =
      match m.accounts id with
      | none => (.ok none, ⟨⟨accounts, transactions⟩, m⟩)
      | some ref =>
        (.ok (some ref), ⟨⟨accounts, transactions⟩, { m with seen := m.seen ++ [ref] }⟩) := by
  simp only [memoryUow, InMemoryAccountRepository.getWithLock, InMemoryAccountRepository.get,
    Task.eval_bind, eval_getAdapters]
  cases m.accounts id <;> rfl

/-- Steps 4 to 9, when both accounts are stored: whether it raises or not, the settlement is in
the objects and its transaction is saved. -/
theorem eval_transferUnit (draws : TransferDraws) {command : TransferCommand} {amount : Money}
    (hfrom : m.accounts command.fromAccountId = some i)
    (hto : m.accounts command.toAccountId = some j) (hi : accounts[i]? = some sender)
    (hj : accounts[j]? = some receiver) (hij : i ≠ j)
    (htx : Transaction.initiate draws.tx command.fromAccountId command.toAccountId amount
      command.idempotencyKey = .ok tx) :
    (transferUnit memoryUow draws command.fromAccountId command.toAccountId amount
        command.idempotencyKey).eval ⟨⟨accounts, transactions⟩, m⟩ =
      let S := draws.settle amount sender receiver tx
      let s' : MemoryStore :=
        ⟨⟨(accounts.set i S.sender).set j S.receiver, transactions ++ [S.tx]⟩,
          { m.saved transactions.length S.tx with
            seen := m.seen ++ [i] ++ [j], committed := true }⟩
      match S.raised with
      | none => (.ok (i, j, transactions.length), s')
      | some e => (.error e, s') := by
  have hpending : tx.status = .pending := by
    rw [(Transaction.initiate_ok htx).2.2]
    rfl
  have hk : ∀ t, (transactions ++ [t])[transactions.length]? = some t := by simp
  have hset : ∀ t, (transactions ++ [tx]).set transactions.length t = transactions ++ [t] := by
    simp
  simp only [transferUnit, Task.eval_bind, eval_getWithLock, hfrom, hto, Task.eval_ofExcept, htx,
    eval_newTransaction, eval_applyTransfer draws amount hi hj hij (hk tx) hpending, hset]
  cases (draws.settle amount sender receiver tx).raised with
  | none =>
    simp only [eval_updateAccount, eval_saveTransaction (hk _), eval_commit, Task.eval_pure]
    rfl
  | some e => rfl

end TransferService

/-! ## Context managers -/

section ContextManagers

variable {α : Type} {heap : Heap} {m : MemoryState}

/-- The unit of work does nothing on its way out. -/
theorem eval_withUow (body : MemoryTask α) :
    (withUow memoryUow body).eval ⟨heap, m⟩ = body.eval ⟨heap, { m with committed := false }⟩ := by
  simp only [withUow, memoryUow, InMemoryUnitOfWork.aenter, Task.eval_bind, eval_modifyAdapters,
    Task.eval_withExit, InMemoryUnitOfWork.aexit, Task.eval_pure]
  obtain ⟨r, s'⟩ := body.eval ⟨heap, { m with committed := false }⟩
  cases r <;> rfl

theorem eval_enter {x y : String} (hxy : x ≠ y) (hm : m.held = []) :
    (InMemoryLockManager.enter [x, y]).eval ⟨heap, m⟩ =
      (.ok (), ⟨heap, { m with held := [y, x], acquired := [x, y] }⟩) := by
  simp [InMemoryLockManager.enter, InMemoryLockManager.acquireAll, hm, hxy.symm]

/-- A key is refused when it has been acquired just before. -/
theorem eval_enter_same {x : String} (hm : m.held = []) :
    (InMemoryLockManager.enter [x, x]).eval ⟨heap, m⟩ =
      (.error (.concurrencyConflict x), ⟨heap, { m with acquired := [x] }⟩) := by
  simp [InMemoryLockManager.enter, InMemoryLockManager.acquireAll, InMemoryLockManager.release, hm]

/-- The two keys are held while the body runs, and discarded however it ends. -/
theorem eval_withLock {x y : String} (hxy : x ≠ y) (hm : m.held = []) (body : MemoryTask α) :
    (withLock memoryLock [x, y] body).eval ⟨heap, m⟩ =
      let s := (body.eval ⟨heap, { m with held := [y, x], acquired := [x, y] }⟩)
      (s.1, ⟨s.2.heap, { s.2.adapters with
        held := s.2.adapters.held.filter fun key => key ∉ s.2.adapters.acquired }⟩) := by
  simp only [withLock, memoryLock, Task.eval_bind, eval_enter hxy hm, Task.eval_withExit,
    InMemoryLockManager.release, eval_modifyAdapters]
  obtain ⟨r, s'⟩ := body.eval ⟨heap, { m with held := [y, x], acquired := [x, y] }⟩
  cases r <;> rfl

theorem eval_withLock_same {x : String} (hm : m.held = []) (body : MemoryTask α) :
    (withLock memoryLock [x, x] body).eval ⟨heap, m⟩ =
      (.error (.concurrencyConflict x), ⟨heap, { m with acquired := [x] }⟩) := by
  simp only [withLock, memoryLock, Task.eval_bind, eval_enter_same hm]

/-- The lookup of step 1. -/
theorem eval_lookup (key : IdempotencyKey) :
    (withUow memoryUow (memoryUow.transactions.getByIdempotencyKey key)).eval ⟨heap, m⟩ =
      (.ok ((m.byIdempotency key).bind m.transactions),
        ⟨heap, { m with committed := false }⟩) := by
  rw [eval_withUow]
  simp only [memoryUow, InMemoryTransactionRepository.getByIdempotencyKey, Task.eval_bind,
    eval_getAdapters]
  cases m.byIdempotency key <;> rfl

end ContextManagers

/-- Step 10: the events are taken from the objects and handed to the bus. -/
theorem eval_publishRemaining {accounts : List Account} {transactions : List Transaction}
    {m : MemoryState} {i j : AccountRef} {k : TransactionRef} {sender receiver : Account}
    {tx : Transaction} (hi : accounts[i]? = some sender) (hj : accounts[j]? = some receiver)
    (hij : i ≠ j) (hk : transactions[k]? = some tx) :
    (TransferService.publishRemaining memoryBus i j k).eval ⟨⟨accounts, transactions⟩, m⟩ =
      (.ok (.fromAggregate tx),
        ⟨⟨(accounts.set i sender.collectEvents.2).set j receiver.collectEvents.2,
          transactions.set k tx.collectEvents.2⟩,
          { m with published := m.published ++
            (sender.domainEvents ++ receiver.domainEvents ++ tx.domainEvents) }⟩) := by
  have hj' : (accounts.set i sender.collectEvents.2)[j]? = some receiver := by
    rw [List.getElem?_set_ne hij, hj]
  have hk' : (transactions.set k tx.collectEvents.2)[k]? = some tx.collectEvents.2 :=
    List.getElem?_set_self (List.getElem?_eq_some_iff.mp hk).1
  have hdto : TransactionDTO.fromAggregate tx.collectEvents.2 = .fromAggregate tx := rfl
  simp only [TransferService.publishRemaining, Task.eval_bind, eval_callAccount hi,
    Account.collect_on, eval_callAccount hj', eval_callTransaction hk, Transaction.collect_on]
  by_cases hevents : sender.domainEvents ++ receiver.domainEvents ++ tx.domainEvents = []
  · simp only [hevents, ne_eq, not_true_eq_false, if_false, Task.eval_bind, Task.eval_pure,
      eval_readTransaction hk', hdto, List.append_nil]
  · simp only [hevents, ne_eq, not_false_eq_true, if_true, memoryBus, Task.eval_bind,
      eval_modifyAdapters, eval_readTransaction hk', Task.eval_pure, hdto]

end BankingTransactions
