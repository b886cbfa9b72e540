import BankingTransactions.RequestTraffic
import BankingTransactions.FailureAtomicity
import BankingTransactions.CommittedTransfers

/-!
# Where recorded events go

An event that was recorded on an object has two ways out: the unit of work writes the
pending events of the accounts that it has loaded to the outbox, and the service hands what
is left to the bus. A commit is compared here with what its request has handed over when it
has ended: of a completed transfer every event takes exactly one of the two ways; of an
account that was opened, and of a transfer that has failed, some events take none.
-/
namespace BankingTransactions
open DecimalArithmetic InteractionPrograms ThreadPools

/-! ## The notes of a run -/

/-- What the requests have noted at the end of a run from the empty database. -/
def Traffic.ofRun (ls : List (Label RequestId Request Choice Disturbance)) :
    RequestId → Traffic :=
  Server.host.notes Traffic.note (Pool.empty (Server.quiet .empty)) (fun _ => .start) ls

namespace Server

variable {s s' : Server} {t : RequestId} {r : Request} {o : IoOp} {res : o.Res}

theorem serve_noted (h : serve t r o s = some (res, s')) {c : Commit} (hc : c ∈ s'.history) :
    c ∈ s.history ∨ c.requestId = t ∧ o = .commit c.written := by
  by_cases ho : ∃ w, o = .commit w
  · obtain ⟨w, rfl⟩ := ho
    obtain rfl | ⟨db, -, hhistory⟩ := serve_commit h
    · exact .inl hc
    · rw [hhistory, List.mem_append, List.mem_singleton] at hc
      exact hc.imp id fun hc => by rw [hc]; exact ⟨rfl, rfl⟩
  · rw [(serve_keeps h fun w hw => ho ⟨w, hw⟩).2] at hc
    exact .inl hc

/-- A new commit is noted, unless the request was told that an operation has failed. -/
theorem answer_noted {choice : Choice} (h : answer t r choice o s = some (res, s'))
    (n : Traffic) {c : Commit} (hc : c ∈ s'.history) :
    c ∈ s.history ∨ c.requestId = t ∧
      ((n.note o res).failed = true ∨ c.written ∈ (n.note o res).committed) := by
  cases choice with
  | proceed =>
    refine (serve_noted h hc).imp id fun ⟨ht, ho⟩ => ⟨ht, ?_⟩
    subst ho
    obtain e | _ := (res : Except Exn Unit)
    · exact .inl rfl
    · exact .inr (List.mem_append_right _ (List.mem_singleton.mpr rfl))
  | timeout =>
    cases o with
    | acquireKey lockKey =>
      simp only [answer] at h
      split_ifs at h
      cases h
      exact .inl hc
    | _ => cases h
  | fault e =>
    cases h
    exact .inl hc
  | faultAfter e =>
    simp only [answer, Option.map_eq_some_iff] at h
    obtain ⟨⟨res', s''⟩, hserve, hres⟩ := h
    cases hres
    exact (serve_noted hserve hc).imp id fun h => ⟨h.1, .inl rfl⟩

end Server

/-- Every commit is in the notes of its request, unless one of its operations has failed. -/
def CommitsNoted (p : System) (ns : RequestId → Traffic) : Prop :=
  ∀ c ∈ p.shared.history,
    (ns c.requestId).failed = true ∨ c.written ∈ (ns c.requestId).committed

theorem Traffic.note_committed {n : Traffic} {w : Flush} (h : w ∈ n.committed) (o : IoOp)
    (res : o.Res) : w ∈ (n.note o res).committed := by
  obtain e | a := (res : Except Exn o.Val)
  · exact h
  · cases o with
    | commit w' => exact List.mem_append_left _ h
    | _ => exact h

theorem CommitsNoted.step {p p' : System} {l : Label RequestId Request Choice Disturbance}
    {ns : RequestId → Traffic} (h : CommitsNoted p ns) (hstep : Server.host.step p l = some p') :
    CommitsNoted p' (Server.host.noteStep Traffic.note p ns l) := by
  cases l with
  | spawn t r =>
    obtain ⟨-, hhistory⟩ | ⟨_, _, _, hl, -⟩ := Server.step_grows hstep
    · intro c hc
      exact h c (hhistory ▸ hc)
    · cases hl
  | resume t choice =>
    simp only [Host.step] at hstep
    split at hstep
    · rename_i r o k hthread
      simp only [Option.map_eq_some_iff] at hstep
      obtain ⟨⟨res, s⟩, hanswer, rfl⟩ := hstep
      intro c hc
      simp only [Host.noteStep, hthread, hanswer]
      by_cases ht : c.requestId = t
      · subst ht
        rw [Function.update_self]
        obtain hold | ⟨-, hnew⟩ := Server.answer_noted hanswer (ns c.requestId) hc
        · exact (h c hold).imp (fun h => Traffic.note_failed h o res)
            fun h => Traffic.note_committed h o res
        · exact hnew
      · rw [Function.update_of_ne ht]
        obtain hold | ⟨hnew, -⟩ := Server.answer_noted hanswer (ns t) hc
        · exact h c hold
        · exact absurd hnew ht
    · cases hstep
  | disturb e =>
    obtain ⟨-, hhistory⟩ | ⟨_, _, _, hl, -⟩ := Server.step_grows hstep
    · intro c hc
      exact h c (hhistory ▸ hc)
    · cases hl

variable {ls : List (Label RequestId Request Choice Disturbance)} {p : System}

theorem commits_noted (hrun : SystemRun ls p) : CommitsNoted p (Traffic.ofRun ls) := by
  have hstart : CommitsNoted (Pool.empty (Server.quiet .empty)) fun _ => .start := by
    intro c hc
    cases hc
  exact hrun.notes_invariant (I := CommitsNoted) (fun _ _ _ _ h _ hstep => h.step hstep) hstart

/-- When a request has ended and none of its operations has failed, its objects and its notes
are those of what it has committed. -/
theorem ended_notes (hrun : SystemRun ls p) {t : RequestId} {r : Request} {out : Outcome}
    (hend : p.threads t = some (r, .ret out)) (hok : (Traffic.ofRun ls t).failed = false) :
    r.Notes out.2.heap (Traffic.ofRun ls t) := by
  obtain ⟨v, hpost⟩ := ended_noted noted_program hrun hend
  refine hpost.resolve_left ?_
  change (Traffic.ofRun ls t).failed ≠ true
  rw [hok]
  decide

/-! ## Deliveries -/

namespace Commit

/-- The events recorded on the objects of a request whose state its commit writes. -/
def recorded (c : Commit) (heap : Heap) : List DomainEvent :=
  (heap.accounts.filter fun a =>
      a.id ∈ (c.written.newAccounts ++ c.written.dirtyAccounts).map (·.id)).flatMap (·.recorded) ++
    (heap.transactions.filter fun tx =>
      tx.id ∈ (c.written.newTransactions ++ c.written.dirtyTransactions).map (·.id)).flatMap
        (·.recorded)

/-- How often an event is delivered: as a row that the commit writes to the outbox, and as
an element of what was handed to the bus. -/
def deliveries (c : Commit) (handed : List DomainEvent) (event : DomainEvent) : ℕ :=
  (c.written.newOutbox.map (·.payload)).count event + handed.count event

/-- Every event recorded on an object that the commit persists is delivered exactly once. -/
def DeliversOnce (c : Commit) (heap : Heap) (handed : List DomainEvent) : Prop :=
  ∀ event ∈ c.recorded heap, c.deliveries handed event = 1

instance (c : Commit) (heap : Heap) (handed : List DomainEvent) :
    Decidable (c.DeliversOnce heap handed) :=
  inferInstanceAs (Decidable (∀ event ∈ c.recorded heap, c.deliveries handed event = 1))

end Commit

/-- A transfer between two accounts of which the one accepts the debit, the other the credit. -/
def Request.Accepted (db : Database) : Request → Prop
  | .create _ _ => False
  | .transfer _ command => ∃ amount sender receiver, command.money = .ok amount ∧
      db.findAccount command.fromAccountId = some sender ∧
      db.findAccount command.toAccountId = some receiver ∧
      sender.AcceptsDebit amount ∧ receiver.AcceptsCredit amount

/-! ### Account openings -/

/-- The event of an opened account is not delivered. -/
theorem Commit.not_deliversOnce_opened {c : Commit} {draws : AccountDraws}
    {command : CreateAccountCommand} {a : Account} (hopened : command.opened draws = .ok a)
    (hw : c.written = { Flush.empty with newAccounts := [AccountMapper.toNewOrm a] }) :
    ¬ c.DeliversOnce ⟨[a], []⟩ [] := by
  obtain ⟨currency, balance, -, -, ha⟩ := CreateAccountCommand.opened_ok hopened
  obtain ⟨-, ha⟩ := Account.create_ok ha
  have hrecorded : c.recorded ⟨[a], []⟩ = a.recorded := by
    simp [recorded, hw, Flush.empty, AccountMapper.toNewOrm]
  intro h
  have hevent := h (draws.created.event (.accountCreated draws.id command.ownerId
    balance.currency.value balance.amount)) (by rw [hrecorded, ha]; simp)
  simp [deliveries, hw, Flush.empty] at hevent

/-! ### Transfers -/

section Settlements

/-- The transaction of a settlement is persisted. -/
theorem Commit.recorded_tx {c : Commit} {S : Settlement} {senderRow receiverRow : AccountRow}
    (hw : c.written = S.flush senderRow receiverRow) {event : DomainEvent}
    (hevent : event ∈ S.tx.recorded) : event ∈ c.recorded S.heap := by
  have htx : ∃ tx, S.heap.transactions = [tx] ∧ tx.id = S.tx.id ∧ tx.recorded = S.tx.recorded := by
    simp only [Settlement.heap]
    split
    · exact ⟨_, rfl, rfl, rfl⟩
    · exact ⟨_, rfl, rfl, rfl⟩
  obtain ⟨tx, hheap, hid, hrecorded⟩ := htx
  refine List.mem_append_right _ (List.mem_flatMap.mpr ⟨tx, ?_, hrecorded ▸ hevent⟩)
  simp [hheap, hw, Settlement.flush, TransactionMapper.toNewOrm, hid]

/-- Of a completed transfer, all its objects are persisted. -/
theorem Commit.recorded_completed {c : Commit} {S : Settlement} {senderRow receiverRow : AccountRow}
    (hw : c.written = S.flush senderRow receiverRow) (hraised : S.raised = none)
    (hs : S.sender.id = senderRow.id) (hr : S.receiver.id = receiverRow.id) :
    c.recorded S.heap = S.sender.recorded ++ S.receiver.recorded ++ S.tx.recorded := by
  have hsid : S.sender.collectEvents.2.id = senderRow.id := hs
  have hrid : S.receiver.collectEvents.2.id = receiverRow.id := hr
  have hids : c.written.dirtyAccounts.map (·.id) = [senderRow.id, receiverRow.id] := by
    rw [hw]
    simp only [Settlement.flush, hraised]
    rfl
  have hnew : c.written.newAccounts = [] := by rw [hw]; rfl
  have htx : (c.written.newTransactions ++ c.written.dirtyTransactions).map (·.id) = [S.tx.id] := by
    rw [hw]; rfl
  have hheap : S.heap =
      ⟨[S.sender.collectEvents.2, S.receiver.collectEvents.2], [S.tx.collectEvents.2]⟩ := by
    simp only [Settlement.heap, hraised, if_true]
  have htxid : S.tx.collectEvents.2.id = S.tx.id := rfl
  simp [recorded, hheap, hnew, hids, htx, hsid, hrid, htxid]

variable {draws : TransferDraws} {command : TransferCommand} {amount : Money} {tx : Transaction}
  (htx : Transaction.initiate draws.tx command.fromAccountId command.toAccountId amount
    command.idempotencyKey = .ok tx)
include htx

theorem completedTx_events :
    (draws.completedTx tx).recorded = (draws.completedTx tx).domainEvents ∧
      (draws.completedTx tx).domainEvents.map DomainEvent.eventType =
        ["TransactionInitiated", "TransactionProcessing", "TransactionCompleted"] := by
  obtain ⟨-, -, rfl⟩ := Transaction.initiate_ok htx
  rw [TransferDraws.completedTx_eq rfl, TransferDraws.processed_eq rfl]
  exact ⟨rfl, rfl⟩

theorem failedTx_events (e : Exn) :
    ∃ event ∈ (draws.failedTx e tx).recorded, event.eventType = "TransactionInitiated" := by
  obtain ⟨-, -, rfl⟩ := Transaction.initiate_ok htx
  rw [TransferDraws.failedTx_eq rfl, TransferDraws.processed_eq rfl]
  exact ⟨_, List.mem_cons_self, rfl⟩

variable {c : Commit} {senderRow receiverRow : AccountRow} {sender receiver : Account}
  {S : Settlement} (hS : S = draws.settle amount sender receiver tx)
  (hw : c.written = S.flush senderRow receiverRow)
include hS hw

theorem Commit.deliversOnce_completed (hs : AccountMapper.toDomain senderRow.load = .ok sender)
    (hr : AccountMapper.toDomain receiverRow.load = .ok receiver) (hraised : S.raised = none) :
    c.DeliversOnce S.heap S.published := by
  have haccepted : sender.CanDebit amount ∧ receiver.CanCredit amount := by
    by_contra hrefused
    obtain ⟨e, he⟩ := draws.settle_raised tx hrefused
    rw [← hS, hraised] at he
    cases he
  obtain ⟨bs, br, -, -, -, -, hsettle⟩ := draws.settle_of_accepted tx haccepted.1 haccepted.2
  rw [hsettle] at hS
  subst hS
  obtain ⟨hsevents, hsrecorded⟩ := AccountMapper.toDomain_events hs
  obtain ⟨hrevents, hrrecorded⟩ := AccountMapper.toDomain_events hr
  obtain ⟨htxrecorded, htxevents⟩ := completedTx_events htx
  have hsid : sender.id = senderRow.id := AccountMapper.toDomain_id hs
  have hrid : receiver.id = receiverRow.id := AccountMapper.toDomain_id hr
  set debited := draws.debited.stamp.event (.balanceDebited sender.id tx.id amount.amount
    amount.currency.value bs.amount) with hdebited
  set credited := draws.credited.stamp.event (.balanceCredited receiver.id tx.id amount.amount
    amount.currency.value br.amount) with hcredited
  have hpayloads : c.written.newOutbox.map (·.payload) = [debited, credited] := by
    rw [hw]
    simp [Settlement.flush, Account.outbox, Account.moved, AggregateRoot.recordEvent, hsevents,
      hrevents, OutboxMessage.ofEvent]
  have hrecorded : c.recorded (Settlement.heap ⟨none, sender.moved bs draws.debited.now debited,
      receiver.moved br draws.credited.now credited, draws.completedTx tx⟩) =
        [debited, credited] ++ (draws.completedTx tx).domainEvents := by
    rw [recorded_completed hw rfl hsid hrid, htxrecorded]
    change (sender.recorded ++ [debited]) ++ (receiver.recorded ++ [credited]) ++ _ = _
    rw [hsrecorded, hrrecorded]
    rfl
  have hnodup : ([debited, credited] ++ (draws.completedTx tx).domainEvents).Nodup := by
    refine List.Nodup.of_map DomainEvent.eventType ?_
    rw [List.map_append, htxevents]
    change ["BalanceDebited", "BalanceCredited", "TransactionInitiated", "TransactionProcessing",
      "TransactionCompleted"].Nodup
    decide
  intro event hevent
  rw [hrecorded] at hevent
  have hcount := List.count_eq_one_of_mem hnodup hevent
  rw [List.count_append] at hcount
  rw [deliveries, hpayloads]
  exact hcount

omit hw in
theorem Settlement.events_failed {e : Exn} (hraised : S.raised = some e) :
    S.published = [] ∧ ∃ event ∈ S.tx.recorded, event.eventType = "TransactionInitiated" := by
  refine ⟨by simp only [Settlement.published, hraised], ?_⟩
  obtain ⟨hnone, -⟩ | ⟨e', -, hfailed⟩ := draws.settle_tx_cases amount sender receiver tx
  · rw [← hS, hraised] at hnone
    cases hnone
  · rw [hS, hfailed]
    exact failedTx_events htx e'

/-- The first event of a transfer that has failed is not delivered. -/
theorem Commit.not_deliversOnce_failed {e : Exn} (hraised : S.raised = some e)
    (houtbox : ∀ m ∈ c.written.newOutbox, m.payload.eventType ≠ "TransactionInitiated") :
    ¬ c.DeliversOnce S.heap S.published := by
  obtain ⟨hpublished, event, hevent, htype⟩ := S.events_failed htx hS hraised
  intro h
  have hcount := h event (recorded_tx hw hevent)
  have habsent : event ∉ c.written.newOutbox.map (·.payload) := by
    intro hmem
    obtain ⟨m, hm, rfl⟩ := List.mem_map.mp hmem
    exact houtbox m hm htype
  rw [deliveries, hpublished, List.count_nil, List.count_eq_zero_of_not_mem habsent] at hcount
  omega

end Settlements

/-- The row that a transfer adds tells whether its settlement was raised. -/
theorem Commit.Legal.raised {c : Commit} (h : c.Legal) {draws : TransferDraws}
    {command : TransferCommand} {amount : Money} {sender receiver : Account} {tx : Transaction}
    (htx : Transaction.initiate draws.tx command.fromAccountId command.toAccountId amount
      command.idempotencyKey = .ok tx)
    {S : Settlement} (hS : S = draws.settle amount sender receiver tx)
    {senderRow receiverRow : AccountRow} (hw : c.written = S.flush senderRow receiverRow)
    {row : TransactionRow}
    (hrow : c.after.transactions = c.before.transactions ++ [row]) :
    S.raised = none ∧ row.status = .completed ∨ ∃ e, S.raised = some e ∧ row.status = .failed := by
  have hflushed := h.flushed
  rw [hw] at hflushed
  obtain ⟨moved, hmoved, stored, -, -, -, -, -, htransactions, -⟩ :=
    Database.flush_transfer.mp hflushed
  rw [(Database.updates_keep hmoved).1, hrow, List.append_cancel_left_eq, List.cons.injEq]
    at htransactions
  have hstatus : row.status = S.tx.status := by rw [htransactions.1]; rfl
  have hpending : tx.status = .pending := by rw [(Transaction.initiate_ok htx).2.2]; rfl
  obtain ⟨hraised, hcompleted⟩ | ⟨e, hraised, hfailed⟩ :=
    draws.settle_tx_cases amount sender receiver tx
  · refine .inl ⟨hS ▸ hraised, ?_⟩
    rw [hstatus, hS, hcompleted, TransferDraws.completedTx_eq hpending]
    rfl
  · refine .inr ⟨e, hS ▸ hraised, ?_⟩
    rw [hstatus, hS, hfailed, TransferDraws.failedTx_eq hpending]
    rfl

/-- The unit of work of a failed transfer writes at most the event of a debit. -/
theorem Commit.Fails.outbox {c : Commit} {draws : TransferDraws} {command : TransferCommand}
    {amount : Money} {sender receiver : AccountRow} {stored : Numeric} {e : Exn}
    (h : c.Fails draws command amount sender receiver stored e) :
    ∀ m ∈ c.written.newOutbox, m.payload.eventType ≠ "TransactionInitiated" := by
  intro m hm
  by_cases hd : sender.AcceptsDebit amount
  · obtain ⟨debited, -, hevents⟩ := h.phantom hd
    rw [hevents, List.mem_singleton] at hm
    rw [hm]
    change "BalanceDebited" ≠ "TransactionInitiated"
    decide
  · rw [h.noEvents hd] at hm
    cases hm

/-- When a request has committed and ended, and none of its operations has failed, every event
recorded on an object that it has persisted is delivered exactly once, if and only if the
request is a transfer that both accounts accept. -/
theorem events_delivered_iff (hrun : SystemRun ls p) {c : Commit} (hc : c ∈ p.shared.history)
    {out : Outcome} (hend : p.result c.requestId = some out)
    (hok : (Traffic.ofRun ls c.requestId).failed = false) :
    c.DeliversOnce out.2.heap (Traffic.ofRun ls c.requestId).handed ↔
      c.request.Accepted c.before := by
  have hreach : SystemReachable p := ⟨ls, hrun⟩
  obtain ⟨hlegal, hwhole⟩ := hreach.legal hc
  have hthread : p.threads c.requestId = some (c.request, .ret out) := by
    obtain ⟨prog, hprog⟩ := hreach.commitsNamed c hc
    cases prog with
    | ret out' =>
      simp only [Pool.result, hprog, Option.some.injEq] at hend
      rw [hprog, hend]
    | call o k => simp only [Pool.result, hprog, reduceCtorEq] at hend
  have hnotes := ended_notes hrun hthread hok
  have hwritten : c.written ∈ (Traffic.ofRun ls c.requestId).committed := by
    refine (commits_noted hrun c hc).resolve_left ?_
    rw [hok]
    decide
  obtain hstart | hnotes := hnotes
  · rw [hstart] at hwritten
    cases hwritten
  cases hrequest : c.request with
  | create draws command =>
    rw [hrequest] at hnotes
    obtain ⟨a, hopened, hheap, hn⟩ := hnotes
    rw [hn, hheap]
    rw [hn] at hwritten
    exact iff_of_false (Commit.not_deliversOnce_opened hopened (List.mem_singleton.mp hwritten)) id
  | transfer draws command =>
    rw [hrequest] at hnotes
    obtain ⟨amount, find, senderRow, receiverRow, S, hmoney, hresolve, hheap, hn⟩ := hnotes
    rw [hn, hheap]
    rw [hn] at hwritten
    have hw : c.written = S.flush senderRow receiverRow := List.mem_singleton.mp hwritten
    obtain ⟨-, -, sender, receiver, tx, hs, hr, htx, hS⟩ := TransferCommand.resolve_ok.mp hresolve
    obtain ⟨_, _, _, _, _, _, _, _, hcompletes⟩ | ⟨_, _, _, _, _, hfails⟩ :=
      Commit.legal_transfer hlegal hwhole hrequest
    · refine iff_of_true ?_ ⟨_, _, _, hcompletes.money, hcompletes.findsSender,
        hcompletes.findsReceiver, hcompletes.acceptsDebit, hcompletes.acceptsCredit⟩
      obtain ⟨hraised, -⟩ | ⟨e, -, hstatus⟩ := hlegal.raised htx hS hw hcompletes.transactions
      · exact Commit.deliversOnce_completed htx hS hw hs hr hraised
      · cases hstatus
    · refine iff_of_false ?_ ?_
      · obtain ⟨-, hstatus⟩ | ⟨e, hraised, -⟩ := hlegal.raised htx hS hw hfails.transactions
        · cases hstatus
        · exact Commit.not_deliversOnce_failed htx hS hw hraised hfails.outbox
      · rintro ⟨amount', sender', receiver', hmoney', hsender', hreceiver', haccepted⟩
        obtain rfl := Except.ok.inj (hmoney'.symm.trans hfails.money)
        obtain rfl := Option.some.inj (hsender'.symm.trans hfails.findsSender)
        obtain rfl := Option.some.inj (hreceiver'.symm.trans hfails.findsReceiver)
        exact hfails.refused haccepted

namespace Sample

/-- The run of the completed sample transfer. -/
def completing : List (Label RequestId Request Choice Disturbance) :=
  openings "EUR" ++ served 2 (.transfer (draws 3) command) 14

/-- The run of the failed sample transfer. -/
def failing : List (Label RequestId Request Choice Disturbance) :=
  openings "USD" ++ served 2 (.transfer (draws 3) command) 12

/-- The objects that a request has left. -/
def objects (p : System) (t : RequestId) (h : (p.result t).isSome) : Heap :=
  ((p.result t).get h).2.heap

end Sample

theorem events_delivered_sample :
    ∃ out, Sample.transferred.result 2 = some out ∧
      (Sample.completion.DeliversOnce out.2.heap (Traffic.ofRun Sample.completing 2).handed ↔
        Sample.completion.request.Accepted Sample.completion.before) := by
  have hid : Sample.completion.requestId = 2 := by decide +kernel
  have hok : (Traffic.ofRun Sample.completing 2).failed = false := by decide +kernel
  have hrun : SystemRun Sample.completing Sample.transferred := run_of_replay _
  have hmem : Sample.completion ∈ Sample.transferred.shared.history :=
    Sample.last_mem Sample.transferred _
  have hended : (Sample.transferred.result 2).isSome := by decide +kernel
  obtain ⟨out, hout⟩ := Option.isSome_iff_exists.mp hended
  refine ⟨out, hout, ?_⟩
  rw [← hid] at hout hok ⊢
  exact events_delivered_iff hrun hmem hout hok

/-- An account is opened, and a transfer fails: events of theirs are not delivered. -/
theorem undelivered_events :
    (SystemRun (Sample.openings "EUR") Sample.opened ∧
      ∃ c ∈ Sample.opened.shared.history, c.requestId = 0 ∧
        (Traffic.ofRun (Sample.openings "EUR") 0).failed = false ∧
        ¬ c.DeliversOnce (Sample.objects Sample.opened 0 (by decide +kernel))
          (Traffic.ofRun (Sample.openings "EUR") 0).handed) ∧
    (SystemRun Sample.failing Sample.failed ∧
      ∃ c ∈ Sample.failed.shared.history, c.requestId = 2 ∧
        (Traffic.ofRun Sample.failing 2).failed = false ∧
        ¬ c.DeliversOnce (Sample.objects Sample.failed 2 (by decide +kernel))
          (Traffic.ofRun Sample.failing 2).handed) :=
  ⟨⟨run_of_replay _, by decide +kernel⟩, run_of_replay _, by decide +kernel⟩

end BankingTransactions
