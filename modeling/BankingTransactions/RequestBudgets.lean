import BankingTransactions.DuplicateContracts
import BankingTransactions.OperationBudgets

/-!
# The budget of a request

What each method costs, counted in operations. The acquisition of a key counts as one, with all
its polling. No request performs more than twenty operations, whatever it is answered.
-/
namespace BankingTransactions
open DecimalArithmetic InteractionPrograms

/-- The same keys have been acquired. -/
def SameKeys (p p' : Process SqlState) : Prop := p'.adapters.acquired = p.adapters.acquired

instance : IsPreorder (Process SqlState) SameKeys where
  refl _ := rfl
  trans _ _ _ h h' := h'.trans h

/-- Code that performs at most `n` operations and leaves the acquired keys alone. -/
abbrev Costs {α : Type} (x : SqlTask α) (n : ℕ) : Prop := Task.Costs SameKeys x n

section Costs

variable {α : Type}

theorem costs_io (o : IoOp) : Costs (io o) 1 := by
  unfold io
  exact Task.costs_perform o _

theorem costs_exec (o : IoOp) : Costs (exec o) 1 :=
  Task.costs_bind (costs_io o) fun _ => Task.costs_pure ()

theorem costs_callAccount (ref : AccountRef) (m : Method Account α) :
    Costs (callAccount ref m) 0 := Task.costs_stepState fun _ => rfl

theorem costs_callTransaction (ref : TransactionRef) (m : Method Transaction α) :
    Costs (callTransaction ref m) 0 := Task.costs_stepState fun _ => rfl

theorem costs_newAccount (a : Account) : Costs (newAccount a) 0 :=
  Task.costs_stepState fun _ => rfl

theorem costs_newTransaction (tx : Transaction) : Costs (newTransaction tx) 0 :=
  Task.costs_stepState fun _ => rfl

theorem costs_getAdapters : Costs getAdapters 0 := by
  intro p k hk
  rw [wp_getAdapters]
  exact ⟨rfl, le_rfl⟩

theorem costs_modifyAdapters {f : SqlState → SqlState} (hf : ∀ s, (f s).acquired = s.acquired) :
    Costs (modifyAdapters f) 0 := Task.costs_modifyState fun p => hf p.adapters

theorem costs_session (f : Flush → Flush) : Costs (modifyAdapters (·.mapSession f)) 0 :=
  costs_modifyAdapters fun _ => rfl

/-! ### The unit of work -/

theorem costs_rollback : Costs SQLAlchemyUnitOfWork.rollback 1 :=
  Task.costs_bind (costs_exec .rollback) fun _ => costs_session _

theorem costs_aexit (e : Option Exn) : Costs (SQLAlchemyUnitOfWork.aexit e) 2 := by
  cases e with
  | none => exact (costs_exec .close).mono (by decide)
  | some e => exact Task.costs_bind costs_rollback fun _ => costs_exec .close

theorem costs_withUow {body : SqlTask α} {n : ℕ} (hbody : Costs body n) :
    Costs (withUow sqlUow body) (n + 2) := by
  have henter : Costs SQLAlchemyUnitOfWork.aenter 0 := costs_modifyAdapters fun _ => rfl
  have hexit := Task.costs_withExit hbody costs_aexit
  exact (Task.costs_bind henter fun _ => hexit).mono (by omega)

theorem costs_storeAccountEvents (refs : List AccountRef) :
    Costs (SQLAlchemyUnitOfWork.storeAccountEvents refs) 0 := by
  induction refs with
  | nil => exact Task.costs_pure ()
  | cons ref rest ih =>
    exact Task.costs_bind (costs_callAccount ref _) fun _ =>
      Task.costs_bind (costs_session _) fun _ => ih

theorem costs_storeTransactionEvents (refs : List TransactionRef) :
    Costs (SQLAlchemyUnitOfWork.storeTransactionEvents refs) 0 := by
  induction refs with
  | nil => exact Task.costs_pure ()
  | cons ref rest ih =>
    exact Task.costs_bind (costs_callTransaction ref _) fun _ =>
      Task.costs_bind (costs_session _) fun _ => ih

theorem costs_commit : Costs sqlUow.commit 2 := by
  have hstore : Costs SQLAlchemyUnitOfWork.collectAndStoreEvents 0 :=
    Task.costs_bind costs_getAdapters fun s =>
      Task.costs_bind (costs_storeAccountEvents _) fun _ => costs_storeTransactionEvents _
  have hsession : Costs SQLAlchemyUnitOfWork.commitSession 1 :=
    Task.costs_bind costs_getAdapters fun s =>
      Task.costs_bind (costs_exec (.commit s.session)) fun _ => costs_session _
  refine Task.costs_tryCatch (Task.costs_bind hstore fun _ => hsession) fun e => ?_
  split
  · exact Task.costs_bind costs_rollback fun _ => Task.costs_throw e
  · exact (Task.costs_throw e).mono (by decide)

/-! ### The repositories -/

theorem costs_getWithLock (id : AccountId) : Costs (sqlUow.accounts.getWithLock id) 1 := by
  refine Task.costs_bind (costs_io _) fun orm => ?_
  cases orm with
  | none => exact Task.costs_pure none
  | some orm =>
    refine Task.costs_bind (Task.costs_ofExcept _) fun a => ?_
    refine Task.costs_bind (costs_newAccount a) fun account => ?_
    refine Task.costs_bind (costs_modifyAdapters ?_) fun _ => Task.costs_pure _
    exact fun _ => rfl

theorem costs_saveAccount (ref : AccountRef) : Costs (sqlUow.accounts.save ref) 1 := by
  refine Task.costs_bind (costs_callAccount ref _) fun a => ?_
  refine Task.costs_bind (costs_io (.selectAccount a.id)) fun orm => ?_
  cases orm <;> exact costs_session _

theorem costs_updateAccount (ref : AccountRef) : Costs (sqlUow.accounts.update ref) 1 := by
  refine Task.costs_bind (costs_callAccount ref _) fun a => ?_
  refine Task.costs_bind (costs_io (.selectAccountForUpdate a.id)) fun orm => ?_
  cases orm with
  | none => exact Task.costs_throw _
  | some orm => exact costs_session _

theorem costs_saveTransaction (ref : TransactionRef) :
    Costs (sqlUow.transactions.save ref) 1 := by
  refine Task.costs_bind (costs_callTransaction ref _) fun tx => ?_
  refine Task.costs_bind (costs_io (.selectTransaction tx.id)) fun orm => ?_
  cases orm <;> exact costs_session _

theorem costs_getByIdempotencyKey (key : IdempotencyKey) :
    Costs (sqlUow.transactions.getByIdempotencyKey key) 1 := by
  refine Task.costs_bind (costs_io _) fun orm => ?_
  cases orm with
  | none => exact Task.costs_pure none
  | some orm =>
    exact Task.costs_bind (Task.costs_ofExcept _) fun tx =>
      Task.costs_bind (costs_newTransaction tx) fun _ => Task.costs_pure _

/-! ### The services -/

theorem costs_applyTransfer (draws : TransferDraws) (amount : Money)
    (sender receiver : AccountRef) (tx : TransactionRef) :
    Costs (TransferService.applyTransfer sqlUow draws amount sender receiver tx) 3 := by
  refine Task.costs_bind (costs_callTransaction tx _) fun _ => ?_
  refine Task.costs_tryCatch (m := 0) ?_ fun e => ?_
  · exact Task.costs_bind (costs_callTransaction tx _) fun _ =>
      Task.costs_bind (costs_callAccount sender _) fun _ =>
      Task.costs_bind (costs_callAccount receiver _) fun _ => costs_callTransaction tx _
  · split
    · exact Task.costs_bind (costs_callTransaction tx _) fun _ =>
        Task.costs_bind (costs_saveTransaction tx) fun _ =>
        Task.costs_bind costs_commit fun _ => Task.costs_throw e
    · exact (Task.costs_throw e).mono (by decide)

theorem costs_transferUnit (draws : TransferDraws) (fromId toId : AccountId) (amount : Money)
    (key : IdempotencyKey) :
    Costs (TransferService.transferUnit sqlUow draws fromId toId amount key) 10 := by
  refine Task.costs_bind (costs_getWithLock fromId) fun sender => ?_
  cases sender with
  | none => exact (Task.costs_throw _).mono (by decide)
  | some sender =>
    refine Task.costs_bind (costs_getWithLock toId) fun receiver => ?_
    cases receiver with
    | none => exact (Task.costs_throw _).mono (by decide)
    | some receiver =>
      exact Task.costs_bind (Task.costs_ofExcept _) fun t =>
        Task.costs_bind (costs_newTransaction t) fun tx =>
        Task.costs_bind (costs_applyTransfer draws amount sender receiver tx) fun _ =>
        Task.costs_bind (costs_updateAccount sender) fun _ =>
        Task.costs_bind (costs_updateAccount receiver) fun _ =>
        Task.costs_bind (costs_saveTransaction tx) fun _ =>
        Task.costs_bind costs_commit fun _ => Task.costs_pure _

theorem costs_publishRemaining (sender receiver : AccountRef) (tx : TransactionRef) :
    Costs (TransferService.publishRemaining sqlBus sender receiver tx) 1 := by
  have hread : Costs (do
      return TransactionDTO.fromAggregate (← callTransaction tx MonadState.get) : SqlTask _) 0 :=
    Task.costs_bind (costs_callTransaction tx _) fun _ => Task.costs_pure _
  refine Task.costs_bind (costs_callAccount sender _) fun ofSender => ?_
  refine Task.costs_bind (costs_callAccount receiver _) fun ofReceiver => ?_
  refine Task.costs_bind (costs_callTransaction tx _) fun ofTx => ?_
  dsimp only
  split
  · exact Task.costs_bind (costs_exec _) fun _ => hread
  · exact hread.mono (by decide)

theorem costs_create (draws : AccountDraws) (command : CreateAccountCommand) :
    Costs (AccountService.create sqlUow draws command) 5 := by
  have hunit (account : AccountRef) : Costs (withUow sqlUow do
      sqlUow.accounts.save account
      sqlUow.commit) 5 :=
    costs_withUow (Task.costs_bind (costs_saveAccount account) fun _ => costs_commit)
  exact Task.costs_bind (Task.costs_ofExcept _) fun currency =>
    Task.costs_bind (Task.costs_ofExcept _) fun balance =>
    Task.costs_bind (Task.costs_ofExcept _) fun a =>
    Task.costs_bind (costs_newAccount a) fun account =>
    Task.costs_bind (hunit account) fun _ =>
    Task.costs_bind (costs_callAccount account _) fun _ => Task.costs_pure _

/-! ### The lock -/

theorem budget_acquireAll (keys : List String) {p : Process SqlState} {n : ℕ}
    (hn : keys.length ≤ n) :
    Task.wp .budget (RedisLockManager.acquireAll keys) (fun _ p' n' =>
      n ≤ n' + keys.length ∧
        p'.adapters.acquired.length ≤ p.adapters.acquired.length + keys.length) p n := by
  induction keys generalizing p n with
  | nil =>
    rw [RedisLockManager.acquireAll, Task.wp_pure]
    simp
  | cons key keys ih =>
    rw [List.length_cons] at hn ⊢
    rw [RedisLockManager.acquireAll, Task.wp_bind, wp_exec]
    refine ⟨by omega, fun r => ?_⟩
    obtain e | _ := (r : Except Exn Unit)
    · exact ⟨by omega, by omega⟩
    · simp only
      rw [Task.wp_bind, wp_modifyAdapters]
      refine Task.wp_mono (fun r p' n' h => ?_) (ih (by omega))
      rw [List.length_append, List.length_singleton] at h
      exact ⟨by omega, by omega⟩

theorem costs_releaseAll (lockKeys : List String) :
    Costs (RedisLockManager.releaseAll lockKeys) lockKeys.length := by
  induction lockKeys with
  | nil => exact Task.costs_pure ()
  | cons lockKey rest ih =>
    have hdelete : Costs (RedisLockManager.safeRelease lockKey) 1 := by
      refine Task.costs_tryCatch (costs_exec _) fun e => ?_
      split
      · exact Task.costs_pure ()
      · exact Task.costs_throw e
    exact (Task.costs_bind hdelete fun _ => ih).mono (by rw [List.length_cons])

theorem budget_release {p : Process SqlState} {n : ℕ} (hn : p.adapters.acquired.length ≤ n) :
    Task.wp .budget RedisLockManager.release (fun _ _ n' =>
      n ≤ n' + p.adapters.acquired.length) p n := by
  rw [RedisLockManager.release, Task.wp_bind, wp_getAdapters]
  simp only
  refine Task.wp_mono (fun _ _ n' h => ?_) (costs_releaseAll p.adapters.acquired.reverse p n ?_)
  · rw [List.length_reverse] at h
    exact h.2
  · rw [List.length_reverse]
    exact hn

/-- Every key is acquired once and deleted once at most. -/
theorem costs_withLock (keys : List String) {body : SqlTask α} {m : ℕ} (hbody : Costs body m) :
    Task.Costs (fun _ _ => True) (withLock redisLock keys body) (2 * keys.length + m) := by
  intro p n hn
  rw [wp_withLock, RedisLockManager.enter, Task.wp_bind, wp_modifyAdapters]
  simp only
  rw [Task.wp_tryCatch]
  refine Task.wp_mono (fun r p' n' h => ?_) (budget_acquireAll keys (by omega))
  simp only [List.length_nil] at h
  obtain ⟨hleft, hacquired⟩ := h
  cases r with
  | error e =>
    simp only
    rw [Task.wp_bind]
    refine Task.wp_mono (fun r p'' n'' h => ?_) (budget_release (by omega))
    cases r with
    | error e' => exact ⟨trivial, by omega⟩
    | ok _ =>
      simp only
      rw [Task.wp_throw]
      exact ⟨trivial, by omega⟩
  | ok _ =>
    refine Task.wp_mono (fun r p'' n'' h => ?_) (hbody p' n' (by omega))
    obtain ⟨hsame, hleft'⟩ := h
    have hlength : p''.adapters.acquired.length = p'.adapters.acquired.length :=
      congrArg List.length hsame
    refine Task.wp_mono (fun r' _ n''' h => ?_) (budget_release (by omega))
    cases r' <;> exact ⟨trivial, by omega⟩

/-! ### Requests -/

theorem costs_initiate (draws : TransferDraws) (command : TransferCommand) :
    Task.Costs (fun _ _ => True)
      (TransferService.initiate sqlUow redisLock sqlBus draws command) 20 := by
  have hlookup := (costs_withUow (costs_getByIdempotencyKey command.idempotencyKey)).anyhow
  refine Task.costs_bind hlookup fun existing => ?_
  cases existing with
  | some existing =>
    have hread : Costs (do
        return TransactionDTO.fromAggregate (← callTransaction existing MonadState.get) :
          SqlTask _) 0 :=
      Task.costs_bind (costs_callTransaction existing _) fun _ => Task.costs_pure _
    exact hread.anyhow.mono (by decide)
  | none =>
    refine Task.costs_bind (Task.costs_ofExcept _) fun currency => ?_
    refine Task.costs_bind (Task.costs_ofExcept _) fun amount => ?_
    refine Task.costs_bind (m := 16) ?_ fun refs => (costs_publishRemaining _ _ _).anyhow
    have hunit := costs_withUow (costs_transferUnit draws command.fromAccountId
      command.toAccountId amount command.idempotencyKey)
    have hlength : (TransferService.lockKeys command.fromAccountId
        command.toAccountId).length = 2 := List.length_insertionSort ..
    exact (costs_withLock _ hunit).mono (by omega)

/-- No request performs more than twenty operations. -/
theorem Request.within (r : Request) : r.program.Within 20 := by
  have h : Task.Costs (fun _ _ => True) r.task 20 := by
    cases r with
    | create draws command =>
      exact (Task.costs_bind (costs_create draws command) fun _ =>
        Task.costs_pure _).anyhow.mono (by decide)
    | transfer draws command =>
      exact Task.costs_bind (costs_initiate draws command) fun _ => Task.costs_pure _
  have hprogram := h .init 20 le_rfl
  rw [Task.wp_def] at hprogram
  exact Program.wp_mono (fun _ _ _ => trivial) hprogram

end Costs

end BankingTransactions
