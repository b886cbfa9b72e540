import BankingTransactions.SqlExecution
import Mathlib.Order.Defs.Unbundled

/-!
# Operations that a piece of code performs

Which operations a coroutine can perform at all, whatever it is answered: a property
that composes, one rule for each construct and one lemma for each method. A contract
that does not mind these operations is then kept without looking at the code again.
-/
namespace BankingTransactions
open DecimalArithmetic InteractionPrograms

namespace IoOp

/-- The operations of the lock manager. -/
def isLockOp : IoOp → Bool
  | acquireKey _ => true
  | deleteKey _ => true
  | _ => false

/-- The operation that locks a row. -/
def isRowLock : IoOp → Bool
  | selectAccountForUpdate _ => true
  | _ => false

end IoOp

/-! ## Code that performs certain operations only -/

section Code

variable {P : IoOp → Prop} {R : Process SqlState → Process SqlState → Prop}
  [IsPreorder (Process SqlState) R] {α β : Type}

/-- Code that performs operations in `P` only and changes the process as `R` allows. -/
def Steady (P : IoOp → Prop) (R : Process SqlState → Process SqlState → Prop)
    (x : SqlTask α) : Prop :=
  ∀ p, Task.wp (.only P) x (fun _ p' _ => R p p') p ()

theorem steady_pure (a : α) : Steady P R (pure a) := by
  intro p
  rw [Task.wp_pure]
  exact refl_of R p

theorem steady_throw (e : Exn) : Steady P R (throw e : SqlTask α) := by
  intro p
  rw [Task.wp_throw]
  exact refl_of R p

theorem steady_ofExcept (x : Except Exn α) : Steady P R (Task.ofExcept x) := by
  intro p
  rw [Task.wp_ofExcept]
  exact refl_of R p

omit [IsPreorder (Process SqlState) R] in
theorem steady_stepState_of {f : Process SqlState → Except Exn α × Process SqlState}
    (hf : ∀ p, R p (f p).2) : Steady P R (Task.stepState f) := by
  intro p
  rw [Task.wp_stepState]
  exact hf p

omit [IsPreorder (Process SqlState) R] in
theorem steady_modifyAdapters_of {f : SqlState → SqlState}
    (hf : ∀ p : Process SqlState, R p { p with adapters := f p.adapters }) :
    Steady P R (modifyAdapters f) := by
  intro p
  rw [wp_modifyAdapters]
  exact hf p

theorem steady_getAdapters : Steady P R getAdapters := by
  intro p
  rw [wp_getAdapters]
  exact refl_of R p

theorem steady_io_of {o : IoOp} (ho : P o) : Steady P R (io o) := by
  intro p
  rw [wp_io]
  exact ⟨ho, fun r => refl_of R p⟩

theorem steady_exec_of {o : IoOp} (ho : P o) : Steady P R (exec o) := by
  intro p
  rw [wp_exec]
  refine ⟨ho, fun r => ?_⟩
  obtain e | _ := (r : Except Exn o.Val) <;> exact refl_of R p

theorem steady_bind {x : SqlTask β} {f : β → SqlTask α} (hx : Steady P R x)
    (hf : ∀ b, Steady P R (f b)) : Steady P R (x >>= f) := by
  intro p
  rw [Task.wp_bind]
  refine Task.wp_mono (fun r p' _ h => ?_) (hx p)
  cases r with
  | error e => exact h
  | ok b => exact Task.wp_mono (fun _ _ _ h' => trans_of R h h') (hf b p')

theorem steady_tryCatch {x : SqlTask α} {f : Exn → SqlTask α} (hx : Steady P R x)
    (hf : ∀ e, Steady P R (f e)) : Steady P R (tryCatch x f) := by
  intro p
  rw [Task.wp_tryCatch]
  refine Task.wp_mono (fun r p' _ h => ?_) (hx p)
  cases r with
  | error e => exact Task.wp_mono (fun _ _ _ h' => trans_of R h h') (hf e p')
  | ok a => exact h

theorem steady_withExit {body : SqlTask α} {exit : Option Exn → SqlTask Unit}
    (hbody : Steady P R body) (hexit : ∀ e, Steady P R (exit e)) :
    Steady P R (Task.withExit body exit) := by
  intro p
  rw [Task.wp_withExit]
  refine Task.wp_mono (fun r p' _ h => ?_) (hbody p)
  cases r
  all_goals
    refine Task.wp_mono (fun r' p'' _ h' => ?_) (hexit _ p')
    cases r' <;> exact trans_of R h h'

/-! ### The lock manager -/

section LockManager

variable (hacquire : ∀ k, P (.acquireKey k)) (hdelete : ∀ k, P (.deleteKey k))
  (hadapters : ∀ (p : Process SqlState) s, R p { p with adapters := s })
include hacquire hdelete hadapters

omit hdelete in
theorem steady_acquireAll (keys : List String) :
    Steady P R (RedisLockManager.acquireAll keys) := by
  induction keys with
  | nil => exact steady_pure ()
  | cons key keys ih =>
    exact steady_bind (steady_exec_of (hacquire _)) fun _ =>
      steady_bind (steady_modifyAdapters_of fun p => hadapters p _) fun _ => ih

omit hacquire hadapters in
theorem steady_releaseAll (lockKeys : List String) :
    Steady P R (RedisLockManager.releaseAll lockKeys) := by
  induction lockKeys with
  | nil => exact steady_pure ()
  | cons lockKey rest ih =>
    refine steady_bind (steady_tryCatch (steady_exec_of (hdelete _)) fun e => ?_) fun _ => ih
    split
    · exact steady_pure ()
    · exact steady_throw e

omit hacquire hadapters in
theorem steady_release : Steady P R RedisLockManager.release :=
  steady_bind steady_getAdapters fun s => steady_releaseAll hdelete s.acquired.reverse

theorem steady_enter (keys : List String) : Steady P R (RedisLockManager.enter keys) :=
  steady_bind (steady_modifyAdapters_of fun p => hadapters p _) fun _ =>
    steady_tryCatch (steady_acquireAll hacquire hadapters keys) fun e =>
    steady_bind (steady_release hdelete) fun _ => steady_throw e

end LockManager

end Code

/-- The objects are the same. -/
def SameHeap (p p' : Process SqlState) : Prop := p'.heap = p.heap

instance : IsPreorder (Process SqlState) SameHeap where
  refl _ := rfl
  trans _ _ _ h h' := h'.trans h

theorem steady_lock (keys : List String) :
    Steady (fun o => o.isLockOp = true) SameHeap (RedisLockManager.enter keys) :=
  steady_enter (fun _ => rfl) (fun _ => rfl) (fun _ _ => rfl) keys

theorem steady_unlock :
    Steady (fun o => o.isLockOp = true) SameHeap RedisLockManager.release :=
  steady_release fun _ => rfl

/-! ## Code that takes no lock -/

/-- `P` has every operation but those that take a lock of some kind, and `R` every change of
the process that leaves the acquired keys alone. -/
class Neutral (P : IoOp → Prop) (R : Process SqlState → Process SqlState → Prop) : Prop
    extends IsPreorder (Process SqlState) R where
  operation : ∀ {o : IoOp}, o.isLockOp = false → o.isRowLock = false → P o
  change : ∀ {p p' : Process SqlState}, p'.adapters.acquired = p.adapters.acquired → R p p'

section Steady

variable {P : IoOp → Prop} {R : Process SqlState → Process SqlState → Prop} [Neutral P R]
  {α : Type}

theorem steady_stepState {f : Process SqlState → Except Exn α × Process SqlState}
    (hf : ∀ p, (f p).2.adapters.acquired = p.adapters.acquired) :
    Steady P R (Task.stepState f) :=
  steady_stepState_of fun p => Neutral.change (P := P) (hf p)

theorem steady_modifyAdapters {f : SqlState → SqlState} (hf : ∀ s, (f s).acquired = s.acquired) :
    Steady P R (modifyAdapters f) :=
  steady_modifyAdapters_of fun p => Neutral.change (P := P) (hf p.adapters)

theorem steady_io {o : IoOp} (ho : o.isLockOp = false) (ho' : o.isRowLock = false) :
    Steady P R (io o) := steady_io_of (Neutral.operation (R := R) ho ho')

theorem steady_exec {o : IoOp} (ho : o.isLockOp = false) (ho' : o.isRowLock = false) :
    Steady P R (exec o) := steady_exec_of (Neutral.operation (R := R) ho ho')

theorem steady_callAccount (ref : AccountRef) (m : Method Account α) :
    Steady P R (callAccount ref m ) := steady_stepState fun _ => rfl

theorem steady_callTransaction (ref : TransactionRef) (m : Method Transaction α) :
    Steady P R (callTransaction ref m ) := steady_stepState fun _ => rfl

theorem steady_newAccount (a : Account) : Steady P R (newAccount a ) :=
  steady_stepState fun _ => rfl

theorem steady_newTransaction (tx : Transaction) :
    Steady P R (newTransaction tx ) := steady_stepState fun _ => rfl

/-! ### The unit of work and the services -/

theorem steady_session (f : Flush → Flush) : Steady P R (modifyAdapters (·.mapSession f)) :=
  steady_modifyAdapters fun _ => rfl

theorem steady_rollback : Steady P R SQLAlchemyUnitOfWork.rollback :=
  steady_bind (steady_exec rfl rfl) fun _ => steady_session _

theorem steady_aexit (e : Option Exn) : Steady P R (SQLAlchemyUnitOfWork.aexit e) := by
  cases e with
  | none => exact steady_exec rfl rfl
  | some e => exact steady_bind steady_rollback fun _ => steady_exec rfl rfl

theorem steady_aenter : Steady P R SQLAlchemyUnitOfWork.aenter := steady_modifyAdapters fun _ => rfl

theorem steady_withUow {body : SqlTask α} (hbody : Steady P R body) :
    Steady P R (withUow sqlUow body) :=
  steady_bind steady_aenter fun _ => steady_withExit hbody steady_aexit

theorem steady_storeAccountEvents (refs : List AccountRef) :
    Steady P R (SQLAlchemyUnitOfWork.storeAccountEvents refs) := by
  induction refs with
  | nil => exact steady_pure ()
  | cons ref rest ih =>
    exact steady_bind (steady_callAccount _ _) fun _ => steady_bind (steady_session _) fun _ => ih

theorem steady_storeTransactionEvents (refs : List TransactionRef) :
    Steady P R (SQLAlchemyUnitOfWork.storeTransactionEvents refs) := by
  induction refs with
  | nil => exact steady_pure ()
  | cons ref rest ih =>
    exact steady_bind (steady_callTransaction _ _) fun _ => steady_bind (steady_session _) fun _ => ih

theorem steady_commit : Steady P R sqlUow.commit := by
  refine steady_tryCatch (steady_bind ?_ fun _ => ?_) fun e => ?_
  · exact steady_bind steady_getAdapters fun s => steady_bind (steady_storeAccountEvents _) fun _ =>
      steady_storeTransactionEvents _
  · exact steady_bind steady_getAdapters fun s => steady_bind (steady_exec rfl rfl) fun _ =>
      steady_session _
  · split
    · exact steady_bind steady_rollback fun _ => steady_throw e
    · exact steady_throw e

theorem steady_register (orm : Option AccountORM) :
    Steady P R (PostgresAccountRepository.register orm) := by
  cases orm with
  | none => exact steady_pure none
  | some orm =>
    exact steady_bind (steady_ofExcept _) fun a => steady_bind (steady_newAccount a) fun _ =>
      steady_bind (steady_modifyAdapters fun _ => rfl) fun _ => steady_pure _

theorem steady_getWithLock (h : ∀ id, P (.selectAccountForUpdate id)) (id : AccountId) :
    Steady P R (sqlUow.accounts.getWithLock id) :=
  steady_bind (steady_io_of (h id)) steady_register

theorem steady_saveAccount (ref : AccountRef) : Steady P R (sqlUow.accounts.save ref) := by
  refine steady_bind (steady_callAccount _ _) fun a => steady_bind (steady_io rfl rfl) fun orm => ?_
  cases orm <;> exact steady_session _

theorem steady_updateAccount (h : ∀ id, P (.selectAccountForUpdate id)) (ref : AccountRef) :
    Steady P R (sqlUow.accounts.update ref) := by
  refine steady_bind (steady_callAccount _ _) fun a =>
    steady_bind (steady_io_of (h a.id)) fun orm => ?_
  cases orm with
  | none => exact steady_throw _
  | some orm => exact steady_session _

theorem steady_saveTransaction (ref : TransactionRef) :
    Steady P R (sqlUow.transactions.save ref) := by
  refine steady_bind (steady_callTransaction _ _) fun a =>
    steady_bind (steady_io rfl rfl) fun orm => ?_
  cases orm <;> exact steady_session _

theorem steady_getByIdempotencyKey (key : IdempotencyKey) :
    Steady P R (sqlUow.transactions.getByIdempotencyKey key) := by
  refine steady_bind (steady_io rfl rfl) fun orm => ?_
  cases orm with
  | none => exact steady_pure none
  | some orm =>
    exact steady_bind (steady_ofExcept _) fun tx => steady_bind (steady_newTransaction tx) fun _ =>
      steady_pure _

theorem steady_applyTransfer (draws : TransferDraws) (amount : Money)
    (sender receiver : AccountRef) (tx : TransactionRef) :
    Steady P R (TransferService.applyTransfer sqlUow draws amount sender receiver tx) := by
  refine steady_bind (steady_callTransaction _ _) fun _ => steady_tryCatch ?_ fun e => ?_
  · exact steady_bind (steady_callTransaction _ _) fun _ => steady_bind (steady_callAccount _ _)
      fun _ => steady_bind (steady_callAccount _ _) fun _ => steady_callTransaction _ _
  · split
    · exact steady_bind (steady_callTransaction _ _) fun _ =>
        steady_bind (steady_saveTransaction tx) fun _ => steady_bind steady_commit fun _ =>
        steady_throw e
    · exact steady_throw e

theorem steady_transferUnit (h : ∀ id, P (.selectAccountForUpdate id)) (draws : TransferDraws)
    (fromId toId : AccountId) (amount : Money) (key : IdempotencyKey) :
    Steady P R (TransferService.transferUnit sqlUow draws fromId toId amount key) := by
  refine steady_bind (steady_getWithLock h fromId) fun sender => ?_
  cases sender with
  | none => exact steady_throw _
  | some sender =>
    refine steady_bind (steady_getWithLock h toId) fun receiver => ?_
    cases receiver with
    | none => exact steady_throw _
    | some receiver =>
      exact steady_bind (steady_ofExcept _) fun t => steady_bind (steady_newTransaction t) fun tx =>
        steady_bind (steady_applyTransfer draws amount sender receiver tx) fun _ =>
        steady_bind (steady_updateAccount h sender) fun _ =>
        steady_bind (steady_updateAccount h receiver) fun _ =>
        steady_bind (steady_saveTransaction tx) fun _ => steady_bind steady_commit fun _ =>
        steady_pure _

theorem steady_publishRemaining (sender receiver : AccountRef) (tx : TransactionRef) :
    Steady P R (TransferService.publishRemaining sqlBus sender receiver tx) := by
  refine steady_bind (steady_callAccount _ _) fun ofSender =>
    steady_bind (steady_callAccount _ _) fun ofReceiver =>
    steady_bind (steady_callTransaction _ _) fun ofTx => ?_
  dsimp only
  split
  · exact steady_bind (steady_exec rfl rfl) fun _ => steady_bind (steady_callTransaction _ _) fun _ =>
      steady_pure _
  · exact steady_bind (steady_callTransaction _ _) fun _ => steady_pure _

theorem steady_create (draws : AccountDraws) (command : CreateAccountCommand) :
    Steady P R (AccountService.create sqlUow draws command) := by
  refine steady_bind (steady_ofExcept _) fun currency => steady_bind (steady_ofExcept _) fun balance =>
    steady_bind (steady_ofExcept _) fun a => steady_bind (steady_newAccount a) fun account =>
    steady_bind (steady_withUow ?_) fun _ => steady_bind (steady_callAccount _ _) fun _ =>
    steady_pure _
  exact steady_bind (steady_saveAccount account) fun _ => steady_commit

end Steady

end BankingTransactions
