import BankingTransactions.SqlAdapters

/-!
# Symbolic execution of the SQL adapters

One equation for each method of an adapter: what it demands of its surroundings,
in which order, and what it leaves in the process. They hold against every
contract, so a service is executed once, whatever is assumed of the server.
-/
namespace BankingTransactions
open DecimalArithmetic InteractionPrograms

variable {V : Type} (C : Contract IoOp IoOp.Res V)

section Steps

variable {α : Type} (Q : Except Exn α → Process SqlState → V → Prop) (p : Process SqlState) (v : V)

theorem wp_io (o : IoOp) (Q : Except Exn o.Val → Process SqlState → V → Prop) :
    Task.wp C (io o) Q p v = C.demand v o fun r v' => Q r p v' :=
  Task.wp_perform C Q p v o id

theorem wp_exec (o : IoOp) (Q : Except Exn Unit → Process SqlState → V → Prop) :
    Task.wp C (exec o) Q p v = C.demand v o fun r v' =>
      match (r : Except Exn o.Val) with
      | .ok _ => Q (.ok ()) p v'
      | .error e => Q (.error e) p v' := by
  simp only [exec, Task.wp_bind, wp_io, Task.wp_pure]
  congr 1
  funext r v'
  obtain e | a := (r : Except Exn o.Val) <;> rfl

theorem wp_newAccount (a : Account) (Q : Except Exn AccountRef → Process SqlState → V → Prop) :
    Task.wp C (newAccount a) Q p v = Q (.ok p.heap.accounts.length)
      { p with heap := { p.heap with accounts := p.heap.accounts ++ [a] } } v :=
  Task.wp_stepState C Q p v _

theorem wp_newTransaction (tx : Transaction)
    (Q : Except Exn TransactionRef → Process SqlState → V → Prop) :
    Task.wp C (newTransaction tx) Q p v = Q (.ok p.heap.transactions.length)
      { p with heap := { p.heap with transactions := p.heap.transactions ++ [tx] } } v :=
  Task.wp_stepState C Q p v _

theorem wp_modifyAdapters (f : SqlState → SqlState)
    (Q : Except Exn Unit → Process SqlState → V → Prop) :
    Task.wp C (modifyAdapters f) Q p v = Q (.ok ()) { p with adapters := f p.adapters } v :=
  Task.wp_modifyState C p v _ Q

theorem wp_getAdapters (Q : Except Exn SqlState → Process SqlState → V → Prop) :
    Task.wp C getAdapters Q p v = Q (.ok p.adapters) p v := by
  simp only [getAdapters, Task.wp_bind, Task.wp_getState, Task.wp_pure]

variable {p}

theorem wp_callAccount {ref : AccountRef} {a : Account} (ha : p.heap.accounts[ref]? = some a)
    (m : Method Account α) :
    Task.wp C (callAccount ref m) Q p v = Q (m.on a).1
      { p with heap := { p.heap with accounts := p.heap.accounts.set ref (m.on a).2 } } v := by
  simp only [callAccount, Task.wp_stepState, Heap.callAccount, ha]

theorem wp_callTransaction {ref : TransactionRef} {t : Transaction}
    (htx : p.heap.transactions[ref]? = some t) (m : Method Transaction α) :
    Task.wp C (callTransaction ref m) Q p v = Q (m.on t).1
      { p with heap := { p.heap with transactions := p.heap.transactions.set ref (m.on t).2 } }
      v := by
  simp only [callTransaction, Task.wp_stepState, Heap.callTransaction, htx]

theorem wp_readAccount {ref : AccountRef} {a : Account} (ha : p.heap.accounts[ref]? = some a)
    (Q : Except Exn Account → Process SqlState → V → Prop) :
    Task.wp C (callAccount ref get) Q p v = Q (.ok a) p v := by
  obtain ⟨href, rfl⟩ := List.getElem?_eq_some_iff.mp ha
  rw [wp_callAccount C Q v ha]
  simp

theorem wp_readTransaction {ref : TransactionRef} {t : Transaction}
    (htx : p.heap.transactions[ref]? = some t)
    (Q : Except Exn Transaction → Process SqlState → V → Prop) :
    Task.wp C (callTransaction ref get) Q p v = Q (.ok t) p v := by
  obtain ⟨href, rfl⟩ := List.getElem?_eq_some_iff.mp htx
  rw [wp_callTransaction C Q v htx]
  simp

end Steps

/-! ## Repositories -/

/-- A process inside a unit of work that has seen all the accounts on its heap. -/
def Process.within (accounts : List Account) (transactions : List Transaction) (w : Flush)
    (acquired : List String) : Process SqlState :=
  ⟨⟨accounts, transactions⟩, ⟨w, List.range accounts.length, [], acquired⟩⟩

namespace Process

def mapSession (f : Flush → Flush) (p : Process SqlState) : Process SqlState :=
  { p with adapters := p.adapters.mapSession f }

/-- The session has nothing pending any more. -/
def flushed (p : Process SqlState) : Process SqlState := p.mapSession fun _ => .empty

end Process

section Repositories

variable (accounts : List Account) (transactions : List Transaction) (w : Flush)
  (acquired : List String) (v : V)

theorem wp_getWithLock (id : AccountId)
    (Q : Except Exn (Option AccountRef) → Process SqlState → V → Prop) :
    Task.wp C (sqlUow.accounts.getWithLock id) Q
        (.within accounts transactions w acquired) v =
      C.demand v (.selectAccountForUpdate id) fun r v' =>
        match (r : Except Exn (Option AccountORM)) with
        | .error e => Q (.error e) (.within accounts transactions w acquired) v'
        | .ok none => Q (.ok none) (.within accounts transactions w acquired) v'
        | .ok (some orm) =>
          match AccountMapper.toDomain orm with
          | .error e => Q (.error e) (.within accounts transactions w acquired) v'
          | .ok a => Q (.ok (some accounts.length))
              (.within (accounts ++ [a]) transactions w acquired) v' := by
  simp only [sqlUow, PostgresAccountRepository.getWithLock, Task.wp_bind, wp_io]
  congr 1
  funext r v'
  obtain e | _ | orm := (r : Except Exn (Option AccountORM))
  · rfl
  · simp only [PostgresAccountRepository.register, Task.wp_pure]
  · simp only [PostgresAccountRepository.register, Task.wp_bind, Task.wp_ofExcept]
    cases AccountMapper.toDomain orm with
    | error e => rfl
    | ok a =>
      simp only [wp_newAccount, wp_modifyAdapters, Task.wp_pure, Process.within,
        List.length_append, List.length_singleton, List.range_succ]

theorem wp_updateAccount {ref : AccountRef} {a : Account} (ha : accounts[ref]? = some a)
    (Q : Except Exn Unit → Process SqlState → V → Prop) :
    Task.wp C (sqlUow.accounts.update ref) Q
        (.within accounts transactions w acquired) v =
      C.demand v (.selectAccountForUpdate a.id) fun r v' =>
        match (r : Except Exn (Option AccountORM)) with
        | .error e => Q (.error e) (.within accounts transactions w acquired) v'
        | .ok none => Q (.error .noResultFound) (.within accounts transactions w acquired) v'
        | .ok (some orm) => Q (.ok ()) (.within accounts transactions
            (w.markAccount (AccountMapper.updateOrm (w.trackedAccount orm) a)) acquired) v' := by
  have hread : (Process.within accounts transactions w acquired).heap.accounts[ref]? = some a := ha
  simp only [sqlUow, PostgresAccountRepository.update, Task.wp_bind, wp_readAccount C v hread, wp_io]
  congr 1
  funext r v'
  obtain e | _ | orm := (r : Except Exn (Option AccountORM)) <;>
    simp only [Task.wp_throw, wp_modifyAdapters, SqlState.mapSession, Process.within]

theorem wp_saveAccount {p : Process SqlState} {ref : AccountRef} {a : Account}
    (ha : p.heap.accounts[ref]? = some a) (Q : Except Exn Unit → Process SqlState → V → Prop) :
    Task.wp C (sqlUow.accounts.save ref) Q p v =
      C.demand v (.selectAccount a.id) fun r v' =>
        match (r : Except Exn (Option AccountORM)) with
        | .error e => Q (.error e) p v'
        | .ok none => Q (.ok ()) (p.mapSession (·.addAccount (AccountMapper.toNewOrm a))) v'
        | .ok (some orm) => Q (.ok ()) (p.mapSession fun w =>
            w.markAccount (AccountMapper.updateOrm (w.trackedAccount orm) a)) v' := by
  simp only [sqlUow, PostgresAccountRepository.save, Task.wp_bind, wp_readAccount C v ha, wp_io]
  congr 1
  funext r v'
  obtain e | _ | orm := (r : Except Exn (Option AccountORM)) <;>
    simp only [wp_modifyAdapters, Process.mapSession]

theorem wp_saveTransaction {ref : TransactionRef} {t : Transaction}
    (htx : transactions[ref]? = some t) (Q : Except Exn Unit → Process SqlState → V → Prop) :
    Task.wp C (sqlUow.transactions.save ref) Q
        (.within accounts transactions w acquired) v =
      C.demand v (.selectTransaction t.id) fun r v' =>
        match (r : Except Exn (Option TransactionORM)) with
        | .error e => Q (.error e) (.within accounts transactions w acquired) v'
        | .ok none => Q (.ok ()) (.within accounts transactions
            (w.addTransaction (TransactionMapper.toNewOrm t)) acquired) v'
        | .ok (some orm) => Q (.ok ()) (.within accounts transactions
            (w.markTransaction (TransactionMapper.updateOrm (w.trackedTransaction orm) t))
            acquired) v' := by
  have hread : (Process.within accounts transactions w acquired).heap.transactions[ref]? =
      some t := htx
  simp only [sqlUow, PostgresTransactionRepository.save, Task.wp_bind,
    wp_readTransaction C v hread, wp_io]
  congr 1
  funext r v'
  obtain e | _ | orm := (r : Except Exn (Option TransactionORM)) <;>
    simp only [wp_modifyAdapters, SqlState.mapSession, Process.within]

theorem wp_getByIdempotencyKey (key : IdempotencyKey)
    (Q : Except Exn (Option TransactionRef) → Process SqlState → V → Prop) :
    Task.wp C (sqlUow.transactions.getByIdempotencyKey key) Q
        (.within accounts transactions w acquired) v =
      C.demand v (.selectTransactionByKey key) fun r v' =>
        match (r : Except Exn (Option TransactionORM)) with
        | .error e => Q (.error e) (.within accounts transactions w acquired) v'
        | .ok none => Q (.ok none) (.within accounts transactions w acquired) v'
        | .ok (some orm) =>
          match TransactionMapper.toDomain orm with
          | .error e => Q (.error e) (.within accounts transactions w acquired) v'
          | .ok tx => Q (.ok (some transactions.length))
              (.within accounts (transactions ++ [tx]) w acquired) v' := by
  simp only [sqlUow, PostgresTransactionRepository.getByIdempotencyKey, Task.wp_bind, wp_io]
  congr 1
  funext r v'
  obtain e | _ | orm := (r : Except Exn (Option TransactionORM))
  · rfl
  · simp only [Task.wp_pure]
  · simp only [Task.wp_bind, Task.wp_ofExcept]
    cases TransactionMapper.toDomain orm with
    | error e => rfl
    | ok tx => simp only [wp_newTransaction, Task.wp_pure, Process.within]

end Repositories

/-! ## The unit of work -/

section UnitOfWork

variable {α : Type} (Q : Except Exn α → Process SqlState → V → Prop) (p : Process SqlState) (v : V)

theorem wp_rollback (Q : Except Exn Unit → Process SqlState → V → Prop) :
    Task.wp C SQLAlchemyUnitOfWork.rollback Q p v = C.demand v .rollback fun r v' =>
      match (r : Except Exn Unit) with
      | .error e => Q (.error e) p v'
      | .ok _ => Q (.ok ()) p.flushed v' := by
  simp only [SQLAlchemyUnitOfWork.rollback, Task.wp_bind, wp_exec]
  congr 1
  funext r v'
  obtain e | _ := (r : Except Exn Unit)
  · rfl
  · rw [wp_modifyAdapters]
    rfl

/-- Leaving the unit of work: a result is kept unless closing fails; an exception is
followed by a rollback and is replaced by a failure on the way out. -/
theorem wp_withUow (body : SqlTask α) :
    Task.wp C (withUow sqlUow body) Q p v = Task.wp C body (fun r p v =>
      match r with
      | .ok a => C.demand v .close fun r v =>
        match (r : Except Exn Unit) with
        | .ok _ => Q (.ok a) p v
        | .error e => Q (.error e) p v
      | .error e => C.demand v .rollback fun r v =>
        match (r : Except Exn Unit) with
        | .error e' => Q (.error e') p v
        | .ok _ => C.demand v .close fun r v =>
          match (r : Except Exn Unit) with
          | .ok _ => Q (.error e) p.flushed v
          | .error e' =>
            Q (.error e') p.flushed v)
      { p with adapters := { p.adapters with
        session := .empty, seenAccounts := [], seenTransactions := [] } } v := by
  simp only [withUow, sqlUow, SQLAlchemyUnitOfWork.aenter, Task.wp_bind, wp_modifyAdapters,
    Task.wp_withExit]
  congr 1
  funext r p v
  cases r with
  | ok a =>
    simp only [SQLAlchemyUnitOfWork.aexit, wp_exec]
    congr 1
    funext r v
    obtain e | _ := (r : Except Exn Unit) <;> rfl
  | error e =>
    simp only [SQLAlchemyUnitOfWork.aexit, Task.wp_bind, wp_rollback, wp_exec]
    congr 1
    funext r v
    obtain e' | _ := (r : Except Exn Unit)
    · rfl
    · simp only
      congr 1
      funext r v
      obtain e' | _ := (r : Except Exn Unit) <;> rfl

/-- The lookup of step 1, in views that its operations keep in `I`. -/
theorem wp_lookup {I : V → Prop} {P : IoOp → Prop} (hC : C.Preserves I P)
    (hselect : ∀ key, P (.selectTransactionByKey key)) (hrollback : P .rollback)
    (hclose : P .close) (hv : I v) (key : IdempotencyKey)
    {Q : Except Exn (Option TransactionRef) → Process SqlState → V → Prop}
    (hQ : ∀ res p v, I v → (res = .ok none → p.heap = .empty) → Q res p v) :
    Task.wp C (withUow sqlUow (sqlUow.transactions.getByIdempotencyKey key)) Q .init v := by
  have hfails : ∀ (e : Exn) (p : Process SqlState) (v : V), I v → C.demand v .rollback fun r v =>
      match (r : Except Exn Unit) with
      | .error e' => Q (.error e') p v
      | .ok _ => C.demand v .close fun r v =>
        match (r : Except Exn Unit) with
        | .ok _ => Q (.error e) p.flushed v
        | .error e' => Q (.error e') p.flushed v := by
    intro e p v hv
    refine hC _ _ _ hv hrollback fun r v hv => ?_
    obtain e' | _ := (r : Except Exn Unit)
    · exact hQ _ _ _ hv nofun
    · refine hC _ _ _ hv hclose fun r v hv => ?_
      obtain e' | _ := (r : Except Exn Unit) <;> exact hQ _ _ _ hv nofun
  rw [wp_withUow]
  change Task.wp _ _ _ (Process.within [] [] .empty []) _
  rw [wp_getByIdempotencyKey]
  refine hC _ _ _ hv (hselect key) fun r v hv => ?_
  obtain e | _ | orm := (r : Except Exn (Option TransactionORM))
  · exact hfails e _ _ hv
  · refine hC _ _ _ hv hclose fun r v hv => ?_
    obtain e | _ := (r : Except Exn Unit)
    · exact hQ _ _ _ hv nofun
    · exact hQ _ _ _ hv fun _ => rfl
  · simp only
    cases TransactionMapper.toDomain orm with
    | error e => exact hfails e _ _ hv
    | ok tx =>
      refine hC _ _ _ hv hclose fun r v hv => ?_
      obtain e | _ := (r : Except Exn Unit) <;> exact hQ _ _ _ hv nofun

/-- The outbox messages of an account's pending events. -/
def Account.outbox (a : Account) : List OutboxMessage := a.domainEvents.map OutboxMessage.ofEvent

variable (accounts : List Account) (transactions : List Transaction) (w : Flush)
  (acquired : List String)

theorem wp_storeAccountEvents (s : SqlState) (Q : Except Exn Unit → Process SqlState → V → Prop)
    (collected pending : List Account) :
    Task.wp C (SQLAlchemyUnitOfWork.storeAccountEvents
        (List.range' collected.length pending.length)) Q
        ⟨⟨collected ++ pending, transactions⟩, s⟩ v =
      Q (.ok ()) ⟨⟨collected ++ pending.map fun a => a.collectEvents.2, transactions⟩,
        s.mapSession (·.addOutbox (pending.flatMap Account.outbox))⟩ v := by
  induction pending generalizing collected s with
  | nil =>
    simp [SQLAlchemyUnitOfWork.storeAccountEvents, Task.wp_pure, SqlState.mapSession,
      Flush.addOutbox]
  | cons a pending ih =>
    have hread : (collected ++ a :: pending)[collected.length]? = some a := by simp
    have hset : (collected ++ a :: pending).set collected.length a.collectEvents.2 =
        (collected ++ [a.collectEvents.2]) ++ pending := by simp
    have hnext := ih (s.mapSession (·.addOutbox a.outbox)) (collected ++ [a.collectEvents.2])
    simp only [List.length_append, List.length_singleton] at hnext
    simp only [List.length_cons, List.range'_succ, SQLAlchemyUnitOfWork.storeAccountEvents,
      Task.wp_bind, wp_callAccount (p := ⟨⟨collected ++ a :: pending, transactions⟩, s⟩) C _ v hread,
      SQLAlchemyUnitOfWork.storeEvents, wp_modifyAdapters]
    refine Eq.trans ?_ (hnext.trans ?_)
    · rw [← hset]
      rfl
    · simp [SqlState.mapSession, Flush.addOutbox]

theorem wp_collectAndStoreEvents (Q : Except Exn Unit → Process SqlState → V → Prop) :
    Task.wp C SQLAlchemyUnitOfWork.collectAndStoreEvents Q
        (.within accounts transactions w acquired) v =
      Q (.ok ()) (.within (accounts.map fun a => a.collectEvents.2) transactions
        (w.addOutbox (accounts.flatMap Account.outbox)) acquired) v := by
  have hstore := fun Q => wp_storeAccountEvents C v transactions
    ⟨w, List.range accounts.length, [], acquired⟩ Q [] accounts
  simp only [List.length_nil, List.nil_append, ← List.range_eq_range'] at hstore
  simp only [SQLAlchemyUnitOfWork.collectAndStoreEvents, Task.wp_bind, wp_getAdapters,
    SQLAlchemyUnitOfWork.storeTransactionEvents, Task.wp_pure, Process.within]
  refine (hstore _).trans ?_
  simp [SqlState.mapSession]

theorem wp_collectAndStoreEvents_unseen {p : Process SqlState} (hp : p.adapters.seenAccounts = [])
    (hp' : p.adapters.seenTransactions = []) (Q : Except Exn Unit → Process SqlState → V → Prop) :
    Task.wp C SQLAlchemyUnitOfWork.collectAndStoreEvents Q p v = Q (.ok ()) p v := by
  simp only [SQLAlchemyUnitOfWork.collectAndStoreEvents, Task.wp_bind, wp_getAdapters, hp, hp',
    SQLAlchemyUnitOfWork.storeAccountEvents, SQLAlchemyUnitOfWork.storeTransactionEvents,
    Task.wp_pure]

/-- COMMIT writes the pending events with everything else; the events are gone from the
aggregates even when it is refused. `p'` is the process when they were collected. -/
theorem wp_commit {p p' : Process SqlState}
    (h : ∀ Q, Task.wp C SQLAlchemyUnitOfWork.collectAndStoreEvents Q p v = Q (.ok ()) p' v)
    (Q : Except Exn Unit → Process SqlState → V → Prop) :
    Task.wp C sqlUow.commit Q p v = C.demand v (.commit p'.adapters.session) fun r v =>
      match (r : Except Exn Unit) with
      | .ok _ => Q (.ok ()) p'.flushed v
      | .error e =>
        if e.isException then C.demand v .rollback fun r v =>
          match (r : Except Exn Unit) with
          | .ok _ => Q (.error e) p'.flushed v
          | .error e' => Q (.error e') p' v
        else Q (.error e) p' v := by
  simp only [sqlUow, SQLAlchemyUnitOfWork.commit, Task.wp_tryCatch, Task.wp_bind, h,
    SQLAlchemyUnitOfWork.commitSession, wp_getAdapters, wp_exec]
  congr 1
  funext r v
  obtain e | _ := (r : Except Exn Unit)
  · cases he : e.isException
    · simp [Task.wp_throw, he]
    · simp only [he, if_true, Task.wp_bind, wp_rollback, Task.wp_throw]
      congr 1
      funext r v
      obtain e' | _ := (r : Except Exn Unit) <;> rfl
  · simp only [wp_modifyAdapters]
    rfl

end UnitOfWork

/-! ## The lock manager -/

section LockManager

variable {α : Type} (Q : Except Exn α → Process SqlState → V → Prop) (p : Process SqlState) (v : V)

theorem wp_safeRelease (lockKey : String) (Q : Except Exn Unit → Process SqlState → V → Prop) :
    Task.wp C (RedisLockManager.safeRelease lockKey) Q p v =
      C.demand v (.deleteKey lockKey) fun r v =>
        match (r : Except Exn Unit) with
        | .ok _ => Q (.ok ()) p v
        | .error e => if e.isException then Q (.ok ()) p v else Q (.error e) p v := by
  simp only [RedisLockManager.safeRelease, Task.wp_tryCatch, wp_exec]
  congr 1
  funext r v
  obtain e | _ := (r : Except Exn Unit)
  · cases he : e.isException <;> simp [he, Task.wp_pure, Task.wp_throw]
  · rfl

/-- What holding the lock adds to a piece of code: it has to be acquired, and however
the code ends it is released. -/
theorem wp_withLock (keys : List String) (body : SqlTask α) :
    Task.wp C (withLock redisLock keys body) Q p v =
      Task.wp C (RedisLockManager.enter keys) (fun r p v =>
        match r with
        | .ok _ => Task.wp C body (fun r p v =>
            Task.wp C RedisLockManager.release (fun r' p v =>
              match r' with
              | .ok _ => Q r p v
              | .error e => Q (.error e) p v) p v) p v
        | .error e => Q (.error e) p v) p v := by
  simp only [withLock, redisLock, Task.wp_bind, Task.wp_withExit]
  congr 1
  funext r p v
  cases r with
  | error e => rfl
  | ok _ =>
    simp only
    congr 1
    funext r p v
    cases r
    all_goals
      simp only
      congr 1
      funext r p v
      cases r <;> rfl

end LockManager

end BankingTransactions
