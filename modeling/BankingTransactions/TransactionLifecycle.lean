import BankingTransactions.Aggregates

/-!
# The life of a transaction

Sequences of calls of the four methods that change a `Transaction`, in any order and
with any arguments; a call that raises leaves the sequence running. `Step` says once
what a call can do. The invariant ties the status to the dependent fields and to the
whole list of events, and what happened earlier is recovered from the present status.

`mark_rolled_back` looks only at the status. It accepts a transaction that failed from
PENDING, accepts a second call, and leaves `rollback_required` set, so what its
documentation promises holds exactly while it is never called on a FAILED transaction.
-/
namespace BankingTransactions

namespace TransactionStatus

/-- The moves of the documented lifecycle. -/
inductive Moves : TransactionStatus → TransactionStatus → Prop
  | stay (s : TransactionStatus) : Moves s s
  | process : Moves pending processing
  | complete : Moves processing completed
  | fail : Moves pending failed
  | abort : Moves processing failed

end TransactionStatus

namespace EventBody

/-- The event says that a debit has been reversed. -/
def isRolledBack : EventBody → Bool
  | transactionRolledBack .. => true
  | _ => false

/-- The event says that a debit has to be reversed. -/
def requiresRollback : EventBody → Bool
  | transactionFailed _ _ _ _ _ _ _ rollbackRequired => rollbackRequired
  | _ => false

end EventBody

namespace Transaction

/-! ## Calls -/

/-- A call of a method, with its arguments and what it draws. -/
inductive Call where
  | markProcessing (now : Time) (stamp : Stamp)
  | complete (now : Time) (stamp : Stamp)
  | fail (failureCode failureReason : String) (now : Time) (stamp : Stamp)
  | markRolledBack (now : Time) (stamp : Stamp)
  deriving DecidableEq

def Call.method : Call → Method Transaction Unit
  | markProcessing now stamp => Transaction.markProcessing now stamp
  | complete now stamp => Transaction.complete now stamp
  | fail failureCode failureReason now stamp =>
    Transaction.fail failureCode failureReason now stamp
  | markRolledBack now stamp => Transaction.markRolledBack now stamp

/-- The transaction after a call, whether or not the call raises. -/
def called (tx : Transaction) (call : Call) : Transaction := (call.method.on tx).2

def after (tx : Transaction) (calls : List Call) : Transaction := calls.foldl called tx

@[simp] theorem after_nil (tx : Transaction) : tx.after [] = tx := rfl

@[simp] theorem after_concat (tx : Transaction) (calls : List Call) (call : Call) :
    tx.after (calls ++ [call]) = (tx.after calls).called call := by
  simp [after, List.foldl_append]

/-! ## What the events of a transaction say -/

def initiatedBody (tx : Transaction) : EventBody :=
  .transactionInitiated tx.id tx.fromAccountId tx.toAccountId tx.amount.amount
    tx.amount.currency.value tx.idempotencyKey

def processingBody (tx : Transaction) : EventBody :=
  .transactionProcessing tx.id tx.fromAccountId tx.toAccountId tx.amount.amount
    tx.amount.currency.value

def completedBody (tx : Transaction) : EventBody :=
  .transactionCompleted tx.id tx.fromAccountId tx.toAccountId tx.amount.amount
    tx.amount.currency.value

def failedBody (tx : Transaction) (failureCode failureReason : String) (rollbackRequired : Bool) :
    EventBody :=
  .transactionFailed tx.id tx.fromAccountId tx.toAccountId tx.amount.amount
    tx.amount.currency.value failureCode failureReason rollbackRequired

def rolledBackBody (tx : Transaction) : EventBody :=
  .transactionRolledBack tx.id tx.fromAccountId tx.amount.amount tx.amount.currency.value

def eventBodies (tx : Transaction) : List EventBody := tx.domainEvents.map (·.body)

@[simp] theorem eventBodies_advanced (tx : Transaction) (status : TransactionStatus) (now : Time)
    (e : DomainEvent) : (tx.advanced status now e).eventBodies = tx.eventBodies ++ [e.body] := by
  simp [eventBodies, advanced, AggregateRoot.recordEvent]

/-! ## One call -/

theorem markRolledBack_on (now : Time) (stamp : Stamp) (tx : Transaction) :
    (markRolledBack now stamp).on tx =
      if tx.status = .failed then
        (.ok (), tx.advanced .failed now (stamp.event tx.rolledBackBody))
      else (.error (.transactionRollback tx.id tx.status.value), tx) := by
  split_ifs with h <;> simp [markRolledBack, record, advanced, rolledBackBody, h]

/-- What a call can do: it raises and changes nothing, or it is one of four changes. -/
inductive Step (tx : Transaction) : Call → Except Exn Unit → Transaction → Prop
  | raised (call : Call) (e : Exn) : Step tx call (.error e) tx
  | processing (h : tx.status = .pending) (now : Time) (stamp : Stamp) :
      Step tx (.markProcessing now stamp) (.ok ())
        (tx.advanced .processing now (stamp.event tx.processingBody))
  | completed (h : tx.status = .processing) (now : Time) (stamp : Stamp) :
      Step tx (.complete now stamp) (.ok ())
        { tx.advanced .completed now (stamp.event tx.completedBody) with completedAt := some now }
  | failed (h : tx.status = .pending ∨ tx.status = .processing) (failureCode failureReason : String)
      (now : Time) (stamp : Stamp) :
      Step tx (.fail failureCode failureReason now stamp) (.ok ())
        { tx.advanced .failed now (stamp.event
            (tx.failedBody failureCode failureReason (tx.status = .processing))) with
          failureCode := some failureCode
          failureReason := some failureReason
          rollbackRequired := tx.status = .processing }
  | rolledBack (h : tx.status = .failed) (now : Time) (stamp : Stamp) :
      Step tx (.markRolledBack now stamp) (.ok ())
        (tx.advanced .failed now (stamp.event tx.rolledBackBody))

theorem step_called (tx : Transaction) (call : Call) :
    Step tx call (call.method.on tx).1 (tx.called call) := by
  unfold called
  cases call with
  | markProcessing now stamp =>
    simp only [Call.method, markProcessing_on]
    split_ifs with h
    · exact .processing h now stamp
    · exact .raised _ _
  | complete now stamp =>
    simp only [Call.method, complete_on]
    split_ifs with h
    · exact .completed h now stamp
    · exact .raised _ _
  | fail failureCode failureReason now stamp =>
    simp only [Call.method, fail_on]
    split_ifs with h
    · exact .failed h failureCode failureReason now stamp
    · exact .raised _ _
  | markRolledBack now stamp =>
    simp only [Call.method, markRolledBack_on]
    split_ifs with h
    · exact .rolledBack h now stamp
    · exact .raised _ _

/-! ## The invariant -/

/-- The fields that identify a transfer. -/
def SameTransfer (tx tx' : Transaction) : Prop :=
  tx.id = tx'.id ∧ tx.fromAccountId = tx'.fromAccountId ∧ tx.toAccountId = tx'.toAccountId ∧
    tx.amount = tx'.amount ∧ tx.idempotencyKey = tx'.idempotencyKey ∧
    tx.transactionType = tx'.transactionType

/-- The events of a transaction are determined by its status, up to the text of a
failure and the number of rollbacks. -/
def Tells (tx : Transaction) : Prop :=
  match tx.status with
  | .pending => tx.eventBodies = [tx.initiatedBody]
  | .processing => tx.eventBodies = [tx.initiatedBody, tx.processingBody]
  | .completed => tx.eventBodies = [tx.initiatedBody, tx.processingBody, tx.completedBody]
  | .failed => ∃ failureCode failureReason n,
      tx.failureCode = some failureCode ∧ tx.failureReason = some failureReason ∧
      tx.eventBodies = tx.initiatedBody :: (if tx.rollbackRequired then [tx.processingBody] else []) ++
        tx.failedBody failureCode failureReason tx.rollbackRequired ::
          List.replicate n tx.rolledBackBody

structure Sound (tx : Transaction) : Prop where
  completedAt : tx.completedAt.isSome ↔ tx.status = .completed
  failureCode : tx.failureCode.isSome ↔ tx.status = .failed
  failureReason : tx.failureReason.isSome ↔ tx.status = .failed
  rollback : tx.rollbackRequired → tx.status = .failed
  tells : tx.Tells

namespace Step

variable {tx tx' : Transaction} {call : Call} {r : Except Exn Unit}

/-- A call that raises leaves the whole object as it was. -/
theorem eq_of_error {e : Exn} (h : Step tx call (.error e) tx') : tx' = tx := by
  cases h
  rfl

theorem sameTransfer (h : Step tx call r tx') : tx'.SameTransfer tx := by
  cases h <;> exact ⟨rfl, rfl, rfl, rfl, rfl, rfl⟩

theorem moves (h : Step tx call r tx') : tx.status.Moves tx'.status := by
  cases h with
  | raised => exact .stay _
  | processing h => rw [h]; exact .process
  | completed h => rw [h]; exact .complete
  | failed h =>
    rcases h with h | h <;> rw [h]
    · exact .fail
    · exact .abort
  | rolledBack h => rw [h]; exact .stay _

/-- Every call keeps the invariant. -/
theorem sound (h : Step tx call r tx') (hs : tx.Sound) : tx'.Sound := by
  obtain ⟨hcompletedAt, hcode, hreason, hrollback, htells⟩ := hs
  cases h with
  | raised => exact ⟨hcompletedAt, hcode, hreason, hrollback, htells⟩
  | processing h now stamp =>
    have hbodies : tx.eventBodies = [tx.initiatedBody] := by simpa only [Tells, h] using htells
    rw [h] at hcompletedAt hcode hreason hrollback
    refine ⟨hcompletedAt.trans (by simp [advanced]), hcode.trans (by simp [advanced]),
      hreason.trans (by simp [advanced]), fun hr => absurd (hrollback hr) (by simp), ?_⟩
    show (tx.advanced .processing now (stamp.event _)).eventBodies = _
    rw [eventBodies_advanced, hbodies]
    rfl
  | completed h now stamp =>
    have hbodies : tx.eventBodies = [tx.initiatedBody, tx.processingBody] := by
      simpa only [Tells, h] using htells
    rw [h] at hcode hreason hrollback
    refine ⟨by simp [advanced], hcode.trans (by simp [advanced]),
      hreason.trans (by simp [advanced]), fun hr => absurd (hrollback hr) (by simp), ?_⟩
    show (tx.advanced .completed now (stamp.event _)).eventBodies = _
    rw [eventBodies_advanced, hbodies]
    rfl
  | failed h failureCode failureReason now stamp =>
    have hbodies : tx.eventBodies =
        tx.initiatedBody :: (if tx.status = .processing then [tx.processingBody] else []) := by
      rcases h with h | h <;> simpa [Tells, h] using htells
    have hnot : tx.status ≠ .completed := by rcases h with h | h <;> simp [h]
    refine ⟨?_, by simp [advanced], by simp [advanced], fun _ => rfl, ?_⟩
    · exact iff_of_false (fun hsome => hnot (hcompletedAt.mp hsome)) (by simp [advanced])
    · refine ⟨failureCode, failureReason, 0, rfl, rfl, ?_⟩
      show (tx.advanced .failed now (stamp.event _)).eventBodies = _
      rw [eventBodies_advanced, hbodies]
      simp [initiatedBody, processingBody, failedBody, advanced, AggregateRoot.recordEvent]
  | rolledBack h now stamp =>
    simp only [Tells, h] at htells
    obtain ⟨failureCode, failureReason, n, hfailureCode, hfailureReason, hbodies⟩ := htells
    rw [h] at hcompletedAt hcode hreason
    refine ⟨hcompletedAt.trans (by simp [advanced]), hcode.trans (by simp [advanced]),
      hreason.trans (by simp [advanced]), fun _ => rfl, ?_⟩
    refine ⟨failureCode, failureReason, n + 1, hfailureCode, hfailureReason, ?_⟩
    rw [eventBodies_advanced, hbodies, List.replicate_succ', List.append_assoc,
      List.cons_append]
    rfl

/-- The transaction has been in PROCESSING, as its fields show. -/
def Processed (tx : Transaction) : Prop :=
  tx.status = .processing ∨ tx.status = .completed ∨ tx.status = .failed ∧ tx.rollbackRequired

theorem processed (h : Step tx call r tx') (hs : tx.Sound) :
    Processed tx' ↔ Processed tx ∨ tx'.status = .processing := by
  have hrollback := hs.rollback
  cases h with
  | raised => simp only [Processed]; tauto
  | processing h => simp [Processed, advanced]
  | completed h => simp [Processed, advanced, h]
  | failed h => rcases h with h | h <;> simp [Processed, advanced, h]
  | rolledBack h => simp [Processed, advanced, h]

theorem rollbackRequired (h : Step tx call r tx') (hs : tx.Sound) :
    tx'.rollbackRequired ↔
      tx.rollbackRequired ∨ tx.status = .processing ∧ tx'.status = .failed := by
  have hrollback := hs.rollback
  cases h with
  | raised =>
    refine ⟨.inl, fun h => h.elim id fun ⟨h, h'⟩ => ?_⟩
    rw [h] at h'
    cases h'
  | processing h => simp [advanced]
  | completed h => simp [advanced]
  | failed h =>
    rcases h with h | h
    all_goals
      rw [h] at hrollback
      simp at hrollback
      simp [advanced, h, hrollback]
  | rolledBack h => simp [advanced, h]

end Step

theorem sound_initiated {draws : Draws} {fromAccountId toAccountId : AccountId} {amount : Money}
    {idempotencyKey : IdempotencyKey} {transactionType : TransactionType} {tx : Transaction}
    (h : initiate draws fromAccountId toAccountId amount idempotencyKey transactionType = .ok tx) :
    tx.status = .pending ∧ tx.Sound := by
  obtain ⟨-, -, rfl⟩ := initiate_ok h
  refine ⟨rfl, by simp [blank], by simp [blank], by simp [blank], by simp [blank], ?_⟩
  show eventBodies _ = [_]
  rfl

/-! ## Sequences of calls -/

section Sequences

variable {tx₀ : Transaction}

theorem sound_after (h : tx₀.Sound) (calls : List Call) : (tx₀.after calls).Sound := by
  induction calls using List.reverseRecOn with
  | nil => exact h
  | append_singleton calls call ih =>
    rw [after_concat]
    exact (step_called _ _).sound ih

theorem sameTransfer_after (tx₀ : Transaction) (calls : List Call) :
    (tx₀.after calls).SameTransfer tx₀ := by
  induction calls using List.reverseRecOn with
  | nil => exact ⟨rfl, rfl, rfl, rfl, rfl, rfl⟩
  | append_singleton calls call ih =>
    rw [after_concat]
    obtain ⟨hid, hfrom, hto, hamount, hkey, htype⟩ :=
      (step_called (tx₀.after calls) call).sameTransfer
    obtain ⟨hid', hfrom', hto', hamount', hkey', htype'⟩ := ih
    exact ⟨hid.trans hid', hfrom.trans hfrom', hto.trans hto', hamount.trans hamount',
      hkey.trans hkey', htype.trans htype'⟩

/-- At some point of the sequence the status was `s`. -/
def Reached (tx₀ : Transaction) (calls : List Call) (s : TransactionStatus) : Prop :=
  ∃ before, before <+: calls ∧ (tx₀.after before).status = s

/-- Some call of the sequence took the transaction from status `s` to FAILED. -/
def FailedFrom (tx₀ : Transaction) (calls : List Call) (s : TransactionStatus) : Prop :=
  ∃ before call, before ++ [call] <+: calls ∧ (tx₀.after before).status = s ∧
    (tx₀.after (before ++ [call])).status = .failed

theorem reached_concat {calls : List Call} {call : Call} {s : TransactionStatus} :
    tx₀.Reached (calls ++ [call]) s ↔
      tx₀.Reached calls s ∨ (tx₀.after (calls ++ [call])).status = s := by
  constructor
  · intro h
    obtain ⟨before, hearlier, hs⟩ := h
    rcases List.prefix_concat_iff.mp hearlier with rfl | hearlier
    · exact .inr hs
    · exact .inl ⟨before, hearlier, hs⟩
  · intro h
    rcases h with ⟨before, hearlier, hs⟩ | hs
    · exact ⟨before, hearlier.trans (List.prefix_append _ _), hs⟩
    · exact ⟨_, List.prefix_rfl, hs⟩

theorem failedFrom_concat {calls : List Call} {call : Call} {s : TransactionStatus} :
    tx₀.FailedFrom (calls ++ [call]) s ↔ tx₀.FailedFrom calls s ∨
      ((tx₀.after calls).status = s ∧ (tx₀.after (calls ++ [call])).status = .failed) := by
  constructor
  · intro h
    obtain ⟨before, last, hearlier, hs, hfailed⟩ := h
    rcases List.prefix_concat_iff.mp hearlier with heq | hearlier
    · obtain ⟨rfl, hlast⟩ := List.append_inj' heq rfl
      obtain rfl := List.singleton_inj.mp hlast
      exact .inr ⟨hs, hfailed⟩
    · exact .inl ⟨before, last, hearlier, hs, hfailed⟩
  · intro h
    rcases h with ⟨before, last, hearlier, hs, hfailed⟩ | ⟨hs, hfailed⟩
    · exact ⟨before, last, hearlier.trans (List.prefix_append _ _), hs, hfailed⟩
    · exact ⟨calls, call, List.prefix_rfl, hs, hfailed⟩

theorem reached_processing (h : tx₀.Sound) (hstatus : tx₀.status = .pending) (calls : List Call) :
    tx₀.Reached calls .processing ↔ Step.Processed (tx₀.after calls) := by
  induction calls using List.reverseRecOn with
  | nil => simp [Reached, Step.Processed, hstatus]
  | append_singleton calls call ih =>
    have hstep := (step_called (tx₀.after calls) call).processed (sound_after h calls)
    rw [reached_concat, ih, after_concat, ← hstep]

theorem rollbackRequired_after (h : tx₀.Sound) (hstatus : tx₀.status = .pending)
    (calls : List Call) :
    (tx₀.after calls).rollbackRequired ↔ tx₀.FailedFrom calls .processing := by
  induction calls using List.reverseRecOn with
  | nil =>
    refine iff_of_false (fun hr => ?_) (by simp [FailedFrom])
    have := h.rollback hr
    simp [hstatus] at this
  | append_singleton calls call ih =>
    have hstep := (step_called (tx₀.after calls) call).rollbackRequired (sound_after h calls)
    rw [failedFrom_concat, ← ih, after_concat, ← hstep]

end Sequences

/-! ## The lifecycle -/

/-- What holds of a transaction `tx₀` after a sequence of calls, and of one call more. -/
structure Lifecycle (tx₀ : Transaction) (calls : List Call) : Prop where
  starts : tx₀.status = .pending
  moves : ∀ call, (tx₀.after calls).status.Moves (tx₀.after (calls ++ [call])).status
  raises : ∀ call e, (call.method.on (tx₀.after calls)).1 = .error e →
    tx₀.after (calls ++ [call]) = tx₀.after calls
  sameTransfer : (tx₀.after calls).SameTransfer tx₀
  completedAt : (tx₀.after calls).completedAt.isSome ↔ (tx₀.after calls).status = .completed
  failureCode : (tx₀.after calls).failureCode.isSome ↔ (tx₀.after calls).status = .failed
  failureReason : (tx₀.after calls).failureReason.isSome ↔ (tx₀.after calls).status = .failed
  rollbackRequired : (tx₀.after calls).rollbackRequired ↔ tx₀.FailedFrom calls .processing
  /-- Rollbacks can follow a failure; nothing follows a completion. -/
  events : ∃ middle last, (tx₀.after calls).eventBodies = tx₀.initiatedBody :: middle ++ last ∧
    (tx₀.Reached calls .processing → middle = [tx₀.processingBody]) ∧
    (¬ tx₀.Reached calls .processing → middle = []) ∧
    (last = [] ∨ last = [tx₀.completedBody] ∨ ∃ failureCode failureReason n,
      last = tx₀.failedBody failureCode failureReason (tx₀.after calls).rollbackRequired ::
        List.replicate n tx₀.rolledBackBody)

theorem bodies_of_sameTransfer {tx tx₀ : Transaction} (h : tx.SameTransfer tx₀) :
    tx.initiatedBody = tx₀.initiatedBody ∧ tx.processingBody = tx₀.processingBody ∧
      tx.completedBody = tx₀.completedBody ∧ tx.failedBody = tx₀.failedBody ∧
      tx.rolledBackBody = tx₀.rolledBackBody := by
  obtain ⟨hid, hfrom, hto, hamount, hkey, -⟩ := h
  simp only [initiatedBody, processingBody, completedBody, rolledBackBody, funext_iff, failedBody,
    hid, hfrom, hto, hamount, hkey, and_self, implies_true]

/-- The events, with the part before the outcome read off the past of the status. -/
theorem events_after {tx₀ : Transaction} (h : tx₀.Sound) (hstatus : tx₀.status = .pending)
    (calls : List Call) :
    ∃ middle last, (tx₀.after calls).eventBodies = tx₀.initiatedBody :: middle ++ last ∧
      (tx₀.Reached calls .processing → middle = [tx₀.processingBody]) ∧
      (¬ tx₀.Reached calls .processing → middle = []) ∧
      (last = [] ∨ last = [tx₀.completedBody] ∨ ∃ failureCode failureReason n,
        last = tx₀.failedBody failureCode failureReason (tx₀.after calls).rollbackRequired ::
          List.replicate n tx₀.rolledBackBody) := by
  have htells := (sound_after h calls).tells
  have hprocessed := reached_processing h hstatus calls
  obtain ⟨hinitiated, hprocessing, hcompleted, hfailed, hrolledBack⟩ :=
    bodies_of_sameTransfer (sameTransfer_after tx₀ calls)
  unfold Tells at htells
  simp only [hinitiated, hprocessing, hcompleted, hfailed, hrolledBack] at htells
  cases hs : (tx₀.after calls).status with
  | pending =>
    have hnot : ¬ tx₀.Reached calls .processing := by
      rw [hprocessed, Step.Processed, hs]
      simp
    rw [hs] at htells
    exact ⟨[], [], htells, fun hr => absurd hr hnot, fun _ => rfl, .inl rfl⟩
  | processing =>
    have hreached : tx₀.Reached calls .processing := hprocessed.mpr (.inl hs)
    rw [hs] at htells
    exact ⟨[_], [], htells, fun _ => rfl, fun hr => absurd hreached hr, .inl rfl⟩
  | completed =>
    have hreached : tx₀.Reached calls .processing := hprocessed.mpr (.inr (.inl hs))
    rw [hs] at htells
    exact ⟨[_], [_], htells, fun _ => rfl, fun hr => absurd hreached hr, .inr (.inl rfl)⟩
  | failed =>
    have hiff : tx₀.Reached calls .processing ↔ (tx₀.after calls).rollbackRequired := by
      rw [hprocessed, Step.Processed, hs]
      simp
    rw [hs] at htells
    obtain ⟨failureCode, failureReason, n, -, -, hbodies⟩ := htells
    exact ⟨_, _, hbodies, fun hr => if_pos (hiff.mp hr), fun hr => if_neg (mt hiff.mpr hr),
      .inr (.inr ⟨failureCode, failureReason, n, rfl⟩)⟩

namespace Sample

def amount : Money := ⟨.finite false 3000 (-2), .EUR, by decide⟩

/-- A new transfer of 30 EUR from account 1 to account 2. -/
def initiated : Transaction :=
  { blank ⟨3, 0, 0, ⟨0, 0⟩⟩ 1 2 amount "key" .transfer with
    domainEvents := [⟨0, 0, .transactionInitiated 3 1 2 amount.amount "EUR" "key"⟩]
    recorded := [⟨0, 0, .transactionInitiated 3 1 2 amount.amount "EUR" "key"⟩] }

theorem initiate_eq : initiate ⟨3, 0, 0, ⟨0, 0⟩⟩ 1 2 amount "key" = .ok initiated := rfl

end Sample

/-- Every sequence of calls on a new transaction keeps to the documented lifecycle. -/
theorem transaction_lifecycle {draws : Draws} {fromAccountId toAccountId : AccountId}
    {amount : Money} {idempotencyKey : IdempotencyKey} {transactionType : TransactionType}
    {tx₀ : Transaction}
    (h : initiate draws fromAccountId toAccountId amount idempotencyKey transactionType = .ok tx₀)
    (calls : List Call) : tx₀.Lifecycle calls := by
  obtain ⟨hstatus, hsound⟩ := sound_initiated h
  obtain ⟨hcompletedAt, hcode, hreason, -, -⟩ := sound_after hsound calls
  exact {
    starts := hstatus
    moves := fun call => by
      rw [after_concat]
      exact (step_called _ call).moves
    raises := fun call e he => by
      have hstep := step_called (tx₀.after calls) call
      rw [he] at hstep
      rw [after_concat]
      exact hstep.eq_of_error
    sameTransfer := sameTransfer_after tx₀ calls
    completedAt := hcompletedAt
    failureCode := hcode
    failureReason := hreason
    rollbackRequired := rollbackRequired_after hsound hstatus calls
    events := events_after hsound hstatus calls }

theorem transaction_lifecycle_sample : Sample.initiated.Lifecycle
    [.markProcessing 1 ⟨1, 1⟩, .fail "CODE" "reason" 2 ⟨2, 2⟩, .complete 3 ⟨3, 3⟩] :=
  transaction_lifecycle Sample.initiate_eq _

/-! ## Rollbacks -/

/-- What the documentation promises of rollbacks, in a sequence of calls on `tx₀`. -/
structure RollbackSound (tx₀ : Transaction) (calls : List Call) : Prop where
  atMostOnce : (tx₀.after calls).eventBodies.countP (·.isRolledBack) ≤ 1
  announced : ∀ earlier body later, (tx₀.after calls).eventBodies = earlier ++ body :: later →
    body.isRolledBack → ∃ body' ∈ earlier, body'.requiresRollback
  refused : ∀ before now stamp, before ++ [.markRolledBack now stamp] <+: calls →
    tx₀.FailedFrom before .pending → ∃ id status,
      ((markRolledBack now stamp).on (tx₀.after before)).1 = .error (.transactionRollback id status)
  settled : ∀ before now stamp, before ++ [.markRolledBack now stamp] <+: calls →
    ((markRolledBack now stamp).on (tx₀.after before)).1 = .ok () →
      (tx₀.after (before ++ [.markRolledBack now stamp])).needsRollback = false

/-- No call of `mark_rolled_back` finds the transaction FAILED. -/
def NoRollbackOfFailed (tx₀ : Transaction) (calls : List Call) : Prop :=
  ∀ before now stamp, before ++ [.markRolledBack now stamp] <+: calls →
    (tx₀.after before).status ≠ .failed

theorem failedFrom_of_failed {tx₀ : Transaction} (hstatus : tx₀.status = .pending)
    {calls : List Call} (h : (tx₀.after calls).status = .failed) :
    tx₀.FailedFrom calls .pending ∨ tx₀.FailedFrom calls .processing := by
  induction calls using List.reverseRecOn with
  | nil =>
    rw [after_nil, hstatus] at h
    cases h
  | append_singleton calls call ih =>
    have hmoves := (step_called (tx₀.after calls) call).moves
    rw [← after_concat, h] at hmoves
    simp only [failedFrom_concat, h, and_true]
    generalize (tx₀.after calls).status = s at *
    cases hmoves with
    | stay => exact (ih rfl).imp .inl .inl
    | fail => exact .inl (.inr rfl)
    | abort => exact .inr (.inr rfl)

theorem failed_of_failedFrom {tx₀ : Transaction} {calls : List Call} {s : TransactionStatus}
    (h : tx₀.FailedFrom calls s) : (tx₀.after calls).status = .failed := by
  induction calls using List.reverseRecOn with
  | nil =>
    obtain ⟨before, call, hearlier, -⟩ := h
    simp at hearlier
  | append_singleton calls call ih =>
    rcases failedFrom_concat.mp h with h | ⟨-, h⟩
    · have hmoves := (step_called (tx₀.after calls) call).moves
      rw [ih h, ← after_concat] at hmoves
      generalize (tx₀.after (calls ++ [call])).status = s at *
      cases hmoves
      rfl
    · exact h

/-- While the condition holds, no rollback is ever recorded. -/
theorem no_rolledBack {tx₀ : Transaction} (h₀ : ∀ body ∈ tx₀.eventBodies, ¬ body.isRolledBack)
    {calls : List Call} (h : tx₀.NoRollbackOfFailed calls) :
    ∀ body ∈ (tx₀.after calls).eventBodies, ¬ body.isRolledBack := by
  induction calls using List.reverseRecOn with
  | nil => exact h₀
  | append_singleton calls call ih =>
    have hbefore := ih fun before now stamp hearlier =>
      h before now stamp (hearlier.trans (List.prefix_append _ _))
    have hcall : ∀ now stamp, call = .markRolledBack now stamp →
        (tx₀.after calls).status ≠ .failed := by
      intro now stamp hcall
      exact h calls now stamp (hcall ▸ List.prefix_rfl)
    rw [after_concat]
    have hstep := step_called (tx₀.after calls) call
    generalize (call.method.on (tx₀.after calls)).1 = r, (tx₀.after calls).called call = tx' at *
    cases hstep with
    | raised => exact hbefore
    | processing =>
      rw [eventBodies_advanced]
      simpa [or_imp, forall_and, processingBody, EventBody.isRolledBack] using hbefore
    | completed =>
      show ∀ body ∈ ((tx₀.after calls).advanced .completed _ _).eventBodies, _
      rw [eventBodies_advanced]
      simpa [or_imp, forall_and, completedBody, EventBody.isRolledBack] using hbefore
    | failed =>
      show ∀ body ∈ ((tx₀.after calls).advanced .failed _ _).eventBodies, _
      rw [eventBodies_advanced]
      simpa [or_imp, forall_and, failedBody, EventBody.isRolledBack] using hbefore
    | rolledBack hfailed now stamp => exact absurd hfailed (hcall now stamp rfl)

/-- The promise is kept exactly by the sequences that never use the operation. -/
theorem rollbackSound_iff {draws : Draws} {fromAccountId toAccountId : AccountId}
    {amount : Money} {idempotencyKey : IdempotencyKey} {transactionType : TransactionType}
    {tx₀ : Transaction}
    (h : initiate draws fromAccountId toAccountId amount idempotencyKey transactionType = .ok tx₀)
    (calls : List Call) : tx₀.RollbackSound calls ↔ tx₀.NoRollbackOfFailed calls := by
  obtain ⟨hstatus, hsound⟩ := sound_initiated h
  constructor
  · intro hpromise before now stamp hearlier hfailed
    have hok : ((markRolledBack now stamp).on (tx₀.after before)).1 = .ok () := by
      rw [markRolledBack_on, if_pos hfailed]
    rcases failedFrom_of_failed hstatus hfailed with hfrom | hfrom
    · obtain ⟨id, status, herror⟩ := hpromise.refused before now stamp hearlier hfrom
      rw [hok] at herror
      cases herror
    · have hrollback := (rollbackRequired_after hsound hstatus before).mpr hfrom
      have hsettled := hpromise.settled before now stamp hearlier hok
      rw [after_concat, called, Call.method, markRolledBack_on, if_pos hfailed] at hsettled
      simp [needsRollback, advanced, hrollback] at hsettled
  · intro hnever
    have hnone : ∀ body ∈ (tx₀.after calls).eventBodies, ¬ body.isRolledBack := by
      apply no_rolledBack _ hnever
      obtain ⟨-, -, rfl⟩ := initiate_ok h
      simp [eventBodies, blank, AggregateRoot.recordEvent, EventBody.isRolledBack]
    refine ⟨?_, ?_, ?_, ?_⟩
    · rw [List.countP_eq_zero.mpr hnone]
      omega
    · intro earlier body later hbodies hbody
      exact absurd hbody (hnone body (by simp [hbodies]))
    · intro before now stamp hearlier hfrom
      exact absurd (failed_of_failedFrom hfrom) (hnever before now stamp hearlier)
    · intro before now stamp hearlier hok
      rw [markRolledBack_on, if_neg (hnever before now stamp hearlier)] at hok
      cases hok

theorem rollbackSound_iff_sample : Sample.initiated.RollbackSound [.markRolledBack 1 ⟨1, 1⟩] ↔
    Sample.initiated.NoRollbackOfFailed [.markRolledBack 1 ⟨1, 1⟩] :=
  rollbackSound_iff Sample.initiate_eq _

/-- The rollback of a transaction that failed from PENDING is recorded, and so is a second
rollback of one that failed from PROCESSING. -/
theorem undue_rollbacks :
    initiate ⟨3, 0, 0, ⟨0, 0⟩⟩ 1 2 Sample.amount "key" = .ok Sample.initiated ∧
    ¬ Sample.initiated.RollbackSound [.fail "CODE" "reason" 1 ⟨1, 1⟩, .markRolledBack 2 ⟨2, 2⟩] ∧
    ¬ Sample.initiated.RollbackSound [.markProcessing 1 ⟨1, 1⟩,
      .fail "CODE" "reason" 2 ⟨2, 2⟩, .markRolledBack 3 ⟨3, 3⟩, .markRolledBack 4 ⟨4, 4⟩] := by
  refine ⟨Sample.initiate_eq, fun h => ?_, fun h => ?_⟩
  · have hrefused := h.refused [.fail "CODE" "reason" 1 ⟨1, 1⟩] 2 ⟨2, 2⟩ List.prefix_rfl
      ⟨[], _, List.prefix_rfl, rfl, rfl⟩
    obtain ⟨id, status, herror⟩ := hrefused
    cases herror
  · have honce := h.atMostOnce
    revert honce
    decide

end Transaction

end BankingTransactions
