import BankingTransactions.SteadyCode
import BankingTransactions.Settlement

/-!
# The order of the row locks

A transfer locks the row of its sender first and that of its receiver second, whatever
the order of the two accounts. `rowOrderContract` follows the rows that a request may
have locked: it locks two rows, one directly after the other, and from then on only
rows that it has locked already. Every request keeps to this, whatever fails.
-/
namespace BankingTransactions
open DecimalArithmetic InteractionPrograms

/-- The operations that end a database transaction. -/
def IoOp.isEnd : IoOp → Bool
  | commit _ => true
  | rollback => true
  | close => true
  | _ => false

/-! ## The rows of a request -/

/-- How far a request is with its row locks. -/
inductive RowPhase where
  | before
  /-- The first row has just been locked. -/
  | between (first : AccountId)
  /-- Rows that may be held are locked again, but no others. -/
  | after (held : List AccountId)

namespace RowPhase

/-- The rows that may be locked. -/
def rows : RowPhase → List AccountId
  | before => []
  | between first => [first]
  | after held => held

/-- A row has been locked. -/
def lock (id : AccountId) : RowPhase → RowPhase
  | before => between id
  | between first => after [id, first]
  | after held => after held

/-- Something else was done. -/
def onward : RowPhase → RowPhase
  | before => before
  | phase => after phase.rows

/-- The database transaction has ended. -/
def ended : RowPhase → RowPhase
  | before => before
  | _ => after []

@[simp] theorem rows_onward (phase : RowPhase) : phase.onward.rows = phase.rows := by
  cases phase <;> rfl

@[simp] theorem rows_ended (phase : RowPhase) : phase.ended.rows = [] := by
  cases phase <;> rfl

theorem onward_ne_between (phase : RowPhase) (first : AccountId) : phase.onward ≠ between first := by
  cases phase <;> exact nofun

theorem ended_ne_between (phase : RowPhase) (first : AccountId) : phase.ended ≠ between first := by
  cases phase <;> exact nofun

end RowPhase

/-- The row that a request may lock next. -/
def Request.MayLock (phase : RowPhase) (id : AccountId) : Request → Prop
  | .create _ _ => False
  | .transfer _ command =>
    match phase with
    | .before => id = command.fromAccountId
    | .between first => first = command.fromAccountId ∧ id = command.toAccountId
    | .after held => id ∈ held

/-- What a request may do with row locks. An operation that fails may have had its effect. -/
def rowOrderContract (r : Request) : Contract IoOp IoOp.Res RowPhase where
  demand v
    | .selectAccountForUpdate id, Q => r.MayLock v id ∧ Q (.ok none) (.after v.rows) ∧
        (∀ orm : AccountORM, orm.id = id → Q (.ok (some orm)) (v.lock id)) ∧
        ∀ e, Q (.error e) (.after v.rows) ∧ Q (.error e) (.after (id :: v.rows))
    | .commit _, Q => ∀ res, Q res v.onward ∧ Q res v.ended
    | .rollback, Q => ∀ res, Q res v.onward ∧ Q res v.ended
    | .close, Q => ∀ res, Q res v.onward ∧ Q res v.ended
    | _, Q => ∀ res, Q res v.onward
  mono {v o Q Q'} h hQ := by
    cases o with
    | selectAccountForUpdate id =>
      exact ⟨hQ.1, h _ _ hQ.2.1, fun orm horm => h _ _ (hQ.2.2.1 orm horm),
        fun e => ⟨h _ _ (hQ.2.2.2 e).1, h _ _ (hQ.2.2.2 e).2⟩⟩
    | commit w => exact fun res => ⟨h _ _ (hQ res).1, h _ _ (hQ res).2⟩
    | rollback => exact fun res => ⟨h _ _ (hQ res).1, h _ _ (hQ res).2⟩
    | close => exact fun res => ⟨h _ _ (hQ res).1, h _ _ (hQ res).2⟩
    | _ => exact fun res => h _ _ (hQ res)

section Programs

variable {r : Request} {α : Type}

instance : Neutral (fun o => o.isRowLock = false) (fun _ _ : Process SqlState => True) where
  refl _ := trivial
  trans _ _ _ _ _ := trivial
  operation _ h := h
  change _ := trivial

/-- Code that locks no row. -/
abbrev LocksNoRow (x : SqlTask α) : Prop :=
  Steady (fun o => o.isRowLock = false) (fun _ _ => True) x

theorem rowOrder_ignores :
    (rowOrderContract r).Ignores .before fun o => o.isRowLock = false := by
  intro o Q ho hQ
  cases o with
  | selectAccountForUpdate id => cases ho
  | commit w => exact fun res => ⟨hQ res, hQ res⟩
  | rollback => exact fun res => ⟨hQ res, hQ res⟩
  | close => exact fun res => ⟨hQ res, hQ res⟩
  | _ => exact hQ

theorem rowOrder_allows : (rowOrderContract r).Allows fun o => o.isRowLock = false := by
  intro v o Q ho hQ
  cases o with
  | selectAccountForUpdate id => cases ho
  | commit w => exact fun res => ⟨hQ res _, hQ res _⟩
  | rollback => exact fun res => ⟨hQ res _, hQ res _⟩
  | close => exact fun res => ⟨hQ res _, hQ res _⟩
  | _ => exact fun res => hQ res _

/-- Code that keeps to the contract, however it ends. -/
abbrev InOrder (r : Request) (x : SqlTask α) (p : Process SqlState) (phase : RowPhase) : Prop :=
  Task.wp (rowOrderContract r) x (fun _ _ _ => True) p phase

theorem inOrder_of_locksNoRow {x : SqlTask α} (hx : LocksNoRow x) (p : Process SqlState)
    (phase : RowPhase) : InOrder r x p phase :=
  Task.wp_of_allows rowOrder_allows (hx p) phase

theorem inOrder_bind {β : Type} {x : SqlTask β} {f : β → SqlTask α} {p : Process SqlState}
    {phase : RowPhase} (hx : InOrder r x p phase) (hf : ∀ b, LocksNoRow (f b)) :
    InOrder r (x >>= f) p phase := by
  unfold InOrder
  rw [Task.wp_bind]
  refine Task.wp_mono (fun res p' phase' _ => ?_) hx
  cases res with
  | error e => trivial
  | ok b => exact inOrder_of_locksNoRow (hf b) p' phase'

/-- The `except` block always raises. -/
theorem wp_recordFailure {Q : Except Exn Unit → Process SqlState → RowPhase → Prop}
    (hQ : ∀ e p phase, Q (.error e) p phase) (e : Exn) (p : Process SqlState) (phase : RowPhase) :
    Task.wp (rowOrderContract r) (TransferService.recordFailure e) Q p phase := by
  have hsave := inOrder_of_locksNoRow (r := r) (steady_saveTransaction 0) p phase
  rw [TransferService.recordFailure, Task.wp_bind]
  refine Task.wp_mono (fun res p phase _ => ?_) hsave
  cases res with
  | error e => exact hQ e p phase
  | ok _ =>
    have hcommit := inOrder_of_locksNoRow (r := r) steady_commit p phase
    simp only
    rw [Task.wp_bind]
    refine Task.wp_mono (fun res p phase _ => ?_) hcommit
    cases res with
    | error e => exact hQ e p phase
    | ok _ =>
      simp only
      rw [Task.wp_throw]
      exact hQ e p phase

/-- The two updates lock rows that are held already. -/
theorem inOrder_update {draws : TransferDraws} {command : TransferCommand}
    {accounts : List Account} {transactions : List Transaction} {acquired : List String}
    {ref : AccountRef} {a : Account} {held : List AccountId} (ha : accounts[ref]? = some a)
    (hid : a.id ∈ held) {next : Unit → SqlTask α} {w : Flush}
    (hnext : ∀ w, InOrder (.transfer draws command) (next ())
      (.within accounts transactions w acquired) (.after held)) :
    InOrder (.transfer draws command) (sqlUow.accounts.update ref >>= next)
      (.within accounts transactions w acquired) (.after held) := by
  unfold InOrder
  rw [Task.wp_bind, wp_updateAccount _ accounts transactions w acquired _ ha]
  refine ⟨hid, trivial, fun orm _ => ?_, fun e => ⟨trivial, trivial⟩⟩
  exact hnext _

theorem inOrder_transferUnit (draws : TransferDraws) (command : TransferCommand) (amount : Money)
    (acquired : List String) :
    InOrder (.transfer draws command) (TransferService.transferUnit sqlUow draws
      command.fromAccountId command.toAccountId amount command.idempotencyKey)
      (.within [] [] .empty acquired) .before := by
  unfold InOrder
  rw [TransferService.transferUnit, Task.wp_bind, wp_getWithLock]
  refine ⟨rfl, ?_, fun senderOrm hsenderOrm => ?_, fun e => ⟨trivial, trivial⟩⟩
  · simp only
    rw [Task.wp_throw]
    trivial
  simp only
  cases hsender : AccountMapper.toDomain senderOrm with
  | error e => trivial
  | ok sender =>
    simp only
    rw [Task.wp_bind, wp_getWithLock]
    refine ⟨⟨rfl, rfl⟩, ?_, fun receiverOrm hreceiverOrm => ?_, fun e => ⟨trivial, trivial⟩⟩
    · simp only
      rw [Task.wp_throw]
      trivial
    simp only
    cases hreceiver : AccountMapper.toDomain receiverOrm with
    | error e => trivial
    | ok receiver =>
      have hsenderId : sender.id = command.fromAccountId :=
        (AccountMapper.toDomain_id hsender).trans hsenderOrm
      have hreceiverId : receiver.id = command.toAccountId :=
        (AccountMapper.toDomain_id hreceiver).trans hreceiverOrm
      simp only
      rw [Task.wp_bind, Task.wp_ofExcept]
      cases htx : Transaction.initiate draws.tx command.fromAccountId command.toAccountId amount
          command.idempotencyKey with
      | error e => trivial
      | ok tx =>
        have hpending : tx.status = .pending := by
          rw [(Transaction.initiate_ok htx).2.2]
          rfl
        simp only
        rw [Task.wp_bind, wp_newTransaction]
        simp only
        rw [Task.wp_bind]
        change Task.wp _ (TransferService.applyTransfer sqlUow draws amount 0 1 0) _
          (.within [sender, receiver] [tx] .empty acquired) _
        rw [TransferService.wp_applyTransfer _ hpending]
        obtain ⟨hid, hid'⟩ := draws.settle_id amount sender receiver tx
        generalize draws.settle amount sender receiver tx = S at *
        obtain ⟨raised, s, r, t⟩ := S
        cases raised with
        | some e => exact wp_recordFailure (fun _ _ _ => trivial) e _ _
        | none =>
          have hheld : s.id ∈ [command.toAccountId, command.fromAccountId] := by
            rw [show s.id = command.fromAccountId from hid.trans hsenderId]
            simp
          have hheld' : r.id ∈ [command.toAccountId, command.fromAccountId] := by
            rw [show r.id = command.toAccountId from hid'.trans hreceiverId]
            simp
          refine inOrder_update rfl hheld fun w => ?_
          refine inOrder_update rfl hheld' fun w => ?_
          refine inOrder_of_locksNoRow ?_ _ _
          exact steady_bind (steady_saveTransaction 0) fun _ => steady_bind steady_commit fun _ =>
            steady_pure _

theorem inOrder_withUow {body : SqlTask α} {p : Process SqlState} {phase : RowPhase}
    (h : InOrder r body { p with adapters := { p.adapters with
      session := .empty, seenAccounts := [], seenTransactions := [] } } phase) :
    InOrder r (withUow sqlUow body) p phase := by
  unfold InOrder
  rw [wp_withUow]
  refine Task.wp_mono (fun res p' phase' _ => ?_) h
  cases res with
  | ok a => exact fun res => by cases res <;> exact ⟨trivial, trivial⟩
  | error e =>
    refine fun res => ?_
    obtain e' | _ := (res : Except Exn Unit)
    · exact ⟨trivial, trivial⟩
    · constructor <;> exact fun res => by cases res <;> exact ⟨trivial, trivial⟩

theorem inOrder_lock {draws : TransferDraws} {command : TransferCommand} {amount : Money}
    (keys : List String) {p : Process SqlState} (hp : p.heap = .empty) :
    InOrder (.transfer draws command) (withLock redisLock keys (withUow sqlUow
      (TransferService.transferUnit sqlUow draws command.fromAccountId command.toAccountId amount
        command.idempotencyKey))) p .before := by
  have hlock : ∀ o : IoOp, o.isLockOp = true → o.isRowLock = false := by
    intro o ho
    cases o <;> first | rfl | cases ho
  unfold InOrder
  rw [wp_withLock]
  refine Task.wp_mono (fun res p' phase h => ?_)
    (Task.wp_of_ignores (rowOrder_ignores.mono hlock) (steady_lock keys p))
  obtain ⟨hheap, rfl⟩ := h
  cases res with
  | error e => trivial
  | ok _ =>
    have hunit : InOrder (.transfer draws command) (withUow sqlUow (TransferService.transferUnit
        sqlUow draws command.fromAccountId command.toAccountId amount command.idempotencyKey))
        p' .before := by
      obtain ⟨heap, adapters⟩ := p'
      obtain rfl : heap = .empty := hheap.trans hp
      exact inOrder_withUow (inOrder_transferUnit draws command amount adapters.acquired)
    refine Task.wp_mono (fun res p'' phase _ => ?_) hunit
    have hrelease : LocksNoRow RedisLockManager.release := steady_release fun _ => rfl
    refine Task.wp_mono (fun res' _ _ _ => ?_) (inOrder_of_locksNoRow hrelease p'' phase)
    cases res' <;> trivial

theorem inOrder_initiate (draws : TransferDraws) (command : TransferCommand) :
    InOrder (.transfer draws command)
      (TransferService.initiate sqlUow redisLock sqlBus draws command) .init .before := by
  unfold InOrder
  rw [TransferService.initiate, Task.wp_bind]
  refine wp_lookup _ _ rowOrder_ignores.preserves (fun _ => rfl) rfl rfl rfl _
    fun res p phase hphase hheap => ?_
  subst hphase
  obtain e | _ | ref := res
  · trivial
  · simp only
    rw [Task.wp_bind, Task.wp_ofExcept]
    cases Currency.ofValue command.currency with
    | error e => trivial
    | ok currency =>
      simp only
      rw [Task.wp_bind, Task.wp_ofExcept]
      cases Money.new command.amount currency with
      | error e => trivial
      | ok amount =>
        exact inOrder_bind (inOrder_lock _ (hheap rfl)) fun _ => steady_publishRemaining _ _ _
  · exact inOrder_of_locksNoRow
      (steady_bind (steady_callTransaction _ _) fun _ => steady_pure _) _ _

/-- Every request keeps to its order of row locks. -/
theorem inOrder_program (r : Request) :
    r.program.wp (rowOrderContract r) (fun _ _ => True) .before := by
  have h : InOrder r r.task .init .before := by
    cases r with
    | create draws command =>
      exact inOrder_bind (inOrder_of_locksNoRow (steady_create draws command) _ _) fun _ =>
        steady_pure _
    | transfer draws command =>
      exact inOrder_bind (inOrder_initiate draws command) fun _ => steady_pure _
  rw [InOrder, Task.wp_def] at h
  exact h

end Programs

end BankingTransactions
