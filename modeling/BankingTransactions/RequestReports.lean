import BankingTransactions.RequestTraffic

/-!
# What a request has grounds to say

A request speaks twice: to the event bus, and to its caller. `Report` is what it has been told
by then: the rows that its lookups have found, the keys for which they have found none, and the
commits that were confirmed. Its contract asks for grounds: nothing is committed once a row was
found, and events are handed to the bus once, and only those of a settlement whose commit was
confirmed. Every request keeps to it, whatever fails, and what it tells its caller is a row that
it has found, or what it has committed when it had found none.
-/
namespace BankingTransactions
open DecimalArithmetic InteractionPrograms

structure Report where
  found : List (String × TransactionORM)
  missed : List String
  committed : List Flush
  announced : Bool

/-- The settlement of a command in which nothing was raised, as it is committed. -/
def TransferCommand.Settles (command : TransferCommand) (draws : TransferDraws) (w : Flush)
    (S : Settlement) : Prop :=
  ∃ amount find senderRow receiverRow, command.money = .ok amount ∧
    command.resolve draws amount find = .ok (senderRow, receiverRow, S) ∧ S.raised = none ∧
    w = S.flush senderRow receiverRow

namespace Report

def start : Report := ⟨[], [], [], false⟩

/-- An operation was answered. The bus may have got events whatever it answers. -/
def note (n : Report) : (o : IoOp) → o.Res → Report
  | .selectTransactionByKey key, res =>
    match (res : Except Exn (Option TransactionORM)) with
    | .ok (some orm) => { n with found := n.found ++ [(key, orm)] }
    | .ok none => { n with missed := n.missed ++ [key] }
    | .error _ => n
  | .commit w, res =>
    match (res : Except Exn Unit) with
    | .ok _ => { n with committed := n.committed ++ [w] }
    | .error _ => n
  | .publishMany _, _ => { n with announced := true }
  | _, _ => n

theorem note_found (n : Report) (o : IoOp) (res : o.Res) : n.found <+: (n.note o res).found := by
  cases o with
  | selectTransactionByKey key =>
    obtain e | _ | orm := (res : Except Exn (Option TransactionORM))
    · exact List.prefix_rfl
    · exact List.prefix_rfl
    · exact List.prefix_append _ _
  | commit w =>
    obtain e | _ := (res : Except Exn Unit) <;> exact List.prefix_rfl
  | _ => exact List.prefix_rfl

/-- Only a lookup of its key finds a row. -/
theorem note_new {n : Report} {o : IoOp} {res : o.Res} {x : String × TransactionORM}
    (hx : x ∈ (n.note o res).found) (hnew : x ∉ n.found) : o = .selectTransactionByKey x.1 := by
  cases o with
  | selectTransactionByKey key =>
    obtain e | _ | orm := (res : Except Exn (Option TransactionORM))
    · exact absurd hx hnew
    · exact absurd hx hnew
    · obtain hx | hx := List.mem_append.mp hx
      · exact absurd hx hnew
      · rw [List.mem_singleton.mp hx]
  | commit w =>
    obtain e | _ := (res : Except Exn Unit) <;> exact absurd hx hnew
  | _ => exact absurd hx hnew

theorem note_announced {n : Report} (h : n.announced = true) (o : IoOp) (res : o.Res) :
    (n.note o res).announced = true := by
  cases o with
  | selectTransactionByKey key =>
    obtain e | _ | orm := (res : Except Exn (Option TransactionORM)) <;> exact h
  | commit w =>
    obtain e | _ := (res : Except Exn Unit) <;> exact h
  | publishMany events => rfl
  | _ => exact h

/-- What a request may do, given its report. It looks for its own key only, and commits nothing
once it has found a row. -/
def Grounds (r : Request) (n : Report) : IoOp → Prop
  | .selectTransactionByKey key => ∃ draws command, r = .transfer draws command ∧
      key = command.idempotencyKey
  | .commit _ => n.found = []
  | .publishMany events => n.announced = false ∧ ∃ draws command S, r = .transfer draws command ∧
      (∃ w ∈ n.committed, command.Settles draws w S) ∧ events = S.tx.domainEvents ∧ events ≠ []
  | _ => True

/-- What a request may tell its caller, given its report. -/
def Supports (r : Request) (n : Report) : Response → Prop
  | .account dto => ∃ draws command a, r = .create draws command ∧ command.opened draws = .ok a ∧
      { Flush.empty with newAccounts := [AccountMapper.toNewOrm a] } ∈ n.committed ∧
      dto = AccountDTO.fromAggregate a
  | .transaction dto => ∃ draws command, r = .transfer draws command ∧
      ((∃ orm tx, (command.idempotencyKey, orm) ∈ n.found ∧
          TransactionMapper.toDomain orm = .ok tx ∧ dto = TransactionDTO.fromAggregate tx) ∨
        command.idempotencyKey ∈ n.missed ∧ ∃ w ∈ n.committed, ∃ S, command.Settles draws w S ∧
          dto = TransactionDTO.fromAggregate S.tx)

end Report

/-- The contract of a request that has to have grounds for what it hands to the bus. -/
abbrev reportContract (r : Request) : Contract IoOp IoOp.Res (RowView × Report) :=
  ((rowContract r).noting Report.note).requiring fun v o => v.2.Grounds r o

section Programs

variable {r : Request} {α : Type}

/-- Code that keeps to the contract, and of whose result `Q` holds when it has one. -/
abbrev Reports (r : Request) (x : SqlTask α) (Q : α → Heap → RowView × Report → Prop)
    (p : Process SqlState) (v : RowView × Report) : Prop :=
  Task.wp (reportContract r) x (fun res p v => ∀ a, res = .ok a → Q a p.heap v) p v

theorem reports_uow {body : SqlTask α} {Q : α → Heap → RowView × Report → Prop}
    {p : Process SqlState} {v : RowView × Report}
    (hended : ∀ a heap v n, Q a heap (v, n) → Q a heap (v.ended, n))
    (h : Reports r body Q { p with adapters := { p.adapters with
      session := .empty, seenAccounts := [], seenTransactions := [] } } v) :
    Reports r (withUow sqlUow body) Q p v := by
  unfold Reports
  rw [wp_withUow]
  refine Task.wp_mono ?_ h
  rintro (e | a) p ⟨v, n⟩ hQ
  · refine ⟨trivial, ?_⟩
    rintro (e' | _)
    · exact fun _ h => by cases h
    · refine ⟨trivial, ?_⟩
      rintro (e' | _) <;> exact fun _ h => by cases h
  · refine ⟨trivial, ?_⟩
    rintro (e' | _)
    · exact fun _ h => by cases h
    · intro b hb
      exact hended b p.heap v n (hQ b hb)

/-! ### The unit of work of a transfer -/

theorem reports_finishes {w : Flush} {v : RowView} {n : Report} (hfound : n.found = [])
    (hv : v.attempted = false) (hw : r.flush v.rows = .ok w) {K : RowView × Report → Prop}
    (hK : ∀ v', K (v', { n with committed := n.committed ++ [w] })) :
    TransferService.finishes (reportContract r) (fun _ _ => True) w K (v, n) := by
  refine ⟨hfound, hv, hw, ?_⟩
  rintro (e | _)
  · simp only
    split
    · refine ⟨trivial, ?_⟩
      rintro (e' | _) <;> trivial
    · trivial
  · exact hK _

theorem reports_commits {w : Flush} {v : RowView} {n : Report} (hfound : n.found = [])
    (hv : v.attempted = false) (hw : r.flush v.rows = .ok w) {K : RowView × Report → Prop}
    (hK : ∀ v', K (v', { n with committed := n.committed ++ [w] })) :
    TransferService.commits (reportContract r) (fun _ _ => True) r.newId w K (v, n) :=
  ⟨trivial, fun _ => trivial, reports_finishes hfound hv hw hK,
    fun hid => absurd (hid rfl) (by simp [hv])⟩

theorem reports_opens {w : Flush} {v : RowView} {n : Report} (hfound : n.found = [])
    (hv : v.attempted = false) (hw : r.flush v.rows = .ok w) {K : RowView × Report → Prop}
    (hK : ∀ v', K (v', { n with committed := n.committed ++ [w] })) :
    TransferService.opens (reportContract r) (fun _ _ => True) r.newId w K (v, n) :=
  ⟨trivial, fun _ => trivial, reports_finishes hfound hv hw hK,
    fun hid => absurd (hid rfl) (by simp [hv])⟩

theorem reports_rereads {row : AccountRow} {v : RowView} {n : Report}
    (h : v.rows row.id = some row) {K : RowView × Report → Prop} (hK : K (v, n)) :
    TransferService.rereads (reportContract r) (fun _ _ => True) row K (v, n) := by
  refine ⟨trivial, fun _ => trivial, trivial, fun row' _ hseen => ?_⟩
  obtain rfl := hseen row h
  rw [RowView.see_of_seen h]
  exact ⟨rfl, hK⟩

/-- The unit of work returns when the commit of a settlement was confirmed. -/
def UnitReports (draws : TransferDraws) (command : TransferCommand)
    (refs : AccountRef × AccountRef × TransactionRef) (heap : Heap) (n : Report) : Prop :=
  refs = (0, 1, 0) ∧ n.announced = false ∧ command.idempotencyKey ∈ n.missed ∧
    ∃ S, (∃ w ∈ n.committed, command.Settles draws w S) ∧
      heap = ⟨[S.sender.collectEvents.2, S.receiver.collectEvents.2], [S.tx]⟩

theorem reports_transferUnit (draws : TransferDraws) {command : TransferCommand} {amount : Money}
    (hmoney : command.money = .ok amount) (acquired : List String) {n : Report}
    (hfound : n.found = []) (hmissed : command.idempotencyKey ∈ n.missed)
    (hn : n.announced = false) :
    Reports (.transfer draws command) (TransferService.transferUnit sqlUow draws
      command.fromAccountId command.toAccountId amount command.idempotencyKey)
      (fun refs heap v => UnitReports draws command refs heap v.2) (.within [] [] .empty acquired)
      (.fresh, n) := by
  refine TransferService.wp_transferUnit_of (E := fun _ _ => True)
    (fun _ _ _ _ _ => fun _ h => by cases h) ?_
  refine ⟨trivial, fun _ => trivial, trivial, fun senderRow hsender _ =>
    ⟨senderRow, rfl, hsender, ?_⟩⟩
  cases hs : AccountMapper.toDomain senderRow.load with
  | error e => trivial
  | ok sender =>
    refine ⟨trivial, fun _ => trivial, trivial, fun receiverRow hreceiver _ =>
      ⟨receiverRow, rfl, hreceiver, ?_⟩⟩
    cases hr : AccountMapper.toDomain receiverRow.load with
    | error e => trivial
    | ok receiver =>
      cases ht : Transaction.initiate draws.tx command.fromAccountId command.toAccountId amount
          command.idempotencyKey with
      | error e => trivial
      | ok tx =>
        obtain ⟨-, hne, -⟩ := Transaction.initiate_ok ht
        have hsee : ((RowView.fresh.see senderRow).see receiverRow).rows command.fromAccountId =
            some senderRow := by simp [hsender, hreceiver, hne]
        have hsee' : ((RowView.fresh.see senderRow).see receiverRow).rows command.toAccountId =
            some receiverRow := by simp [hreceiver]
        have hresolve : command.resolve draws amount
            ((RowView.fresh.see senderRow).see receiverRow).rows =
              .ok (senderRow, receiverRow, draws.settle amount sender receiver tx) := by
          simp only [TransferCommand.resolve, hsee, hsee', hs, hr, ht]
        have hflush := Request.flush_transfer_ok.mpr ⟨amount, senderRow, receiverRow, _, hmoney,
          hresolve, rfl⟩
        have hcommits := reports_commits (r := .transfer draws command) (n := n)
          (K := fun v => ∀ refs, TransferService.ending (draws.settle amount sender receiver tx) =
            .ok refs → UnitReports draws command refs (TransferService.leaves
              (draws.settle amount sender receiver tx) acquired).heap v.2) hfound rfl hflush ?_
        · simp only [TransferService.persists, draws.settle_tx_id sender receiver ht]
          split
          · exact reports_rereads (hsender ▸ hsee) (reports_rereads (hreceiver ▸ hsee') hcommits)
          · exact hcommits
        · intro v' refs hrefs
          unfold TransferService.ending at hrefs
          split at hrefs
          · rename_i hraised
            obtain rfl := Except.ok.inj hrefs
            exact ⟨rfl, hn, hmissed, _, ⟨_, List.mem_append_right _ (List.mem_singleton.mpr rfl),
              amount, _, senderRow, receiverRow, hmoney, hresolve, hraised, rfl⟩, rfl⟩
          · cases hrefs

/-! ### The lock manager and the lookup -/

/-- Code of the lock manager changes neither the objects nor what was reported. -/
theorem reports_of_steady {x : SqlTask α} (hx : Steady (fun o => o.isLockOp = true) SameHeap x)
    {Q : Except Exn α → Process SqlState → RowView × Report → Prop} {p : Process SqlState}
    {v : RowView × Report} (hQ : ∀ res p', p'.heap = p.heap → Q res p' v) :
    Task.wp (reportContract r) x Q p v := by
  have hlock : (reportContract r).Ignores v fun o => o.isLockOp = true := by
    intro o Q ho hQ
    cases o with
    | acquireKey k => exact ⟨trivial, hQ⟩
    | deleteKey k => exact ⟨trivial, hQ⟩
    | _ => cases ho
  refine Task.wp_mono (fun res p' v' h => ?_) (Task.wp_of_ignores hlock (hx p))
  obtain ⟨hheap, rfl⟩ := h
  exact hQ res p' hheap

/-- The lookup reports the row that it returns, and nothing else. -/
theorem reports_lookup (draws : TransferDraws) (command : TransferCommand) :
    Reports (.transfer draws command)
      (withUow sqlUow (sqlUow.transactions.getByIdempotencyKey command.idempotencyKey))
      (fun found heap v => v.1 = .fresh ∧ v.2.announced = false ∧ match found with
        | none => heap = .empty ∧ v.2.found = [] ∧ command.idempotencyKey ∈ v.2.missed
        | some ref => ref = 0 ∧ ∃ orm tx, (command.idempotencyKey, orm) ∈ v.2.found ∧
            TransactionMapper.toDomain orm = .ok tx ∧ heap = ⟨[], [tx]⟩) .init (.fresh, .start) := by
  refine reports_uow (fun _ _ v n h => ?_) ?_
  · obtain ⟨rfl, h⟩ := h
    exact ⟨RowView.ended_fresh, h⟩
  · change Task.wp _ _ _ (Process.within [] [] .empty []) _
    rw [wp_getByIdempotencyKey]
    refine ⟨⟨draws, command, rfl, rfl⟩, ?_⟩
    rintro (e | _ | orm)
    · exact fun _ h => by cases h
    · intro found hfound
      obtain rfl := Except.ok.inj hfound
      exact ⟨rfl, rfl, rfl, rfl, List.mem_singleton.mpr rfl⟩
    · dsimp only
      cases htx : TransactionMapper.toDomain orm with
      | error e => exact fun _ h => by cases h
      | ok tx =>
        intro found hfound
        obtain rfl := Except.ok.inj hfound
        exact ⟨rfl, rfl, rfl, orm, tx, List.mem_singleton.mpr rfl, htx, rfl⟩

theorem reports_lock {draws : TransferDraws} {command : TransferCommand} {amount : Money}
    (hmoney : command.money = .ok amount) (keys : List String) {p : Process SqlState}
    (hp : p.heap = .empty) {n : Report} (hfound : n.found = [])
    (hmissed : command.idempotencyKey ∈ n.missed) (hn : n.announced = false) :
    Reports (.transfer draws command) (withLock redisLock keys (withUow sqlUow
      (TransferService.transferUnit sqlUow draws command.fromAccountId command.toAccountId amount
        command.idempotencyKey))) (fun refs heap v => UnitReports draws command refs heap v.2) p
      (.fresh, n) := by
  unfold Reports
  rw [wp_withLock]
  refine reports_of_steady (steady_lock keys) fun res p' hp' => ?_
  cases res with
  | error e => exact fun _ h => by cases h
  | ok _ =>
    have hunit : Reports (.transfer draws command) (withUow sqlUow (TransferService.transferUnit
        sqlUow draws command.fromAccountId command.toAccountId amount command.idempotencyKey))
        (fun refs heap v => UnitReports draws command refs heap v.2) p' (.fresh, n) := by
      obtain ⟨heap, adapters⟩ := p'
      obtain rfl : heap = .empty := hp'.trans hp
      exact reports_uow (fun _ _ _ _ h => h)
        (reports_transferUnit draws hmoney adapters.acquired hfound hmissed hn)
    refine Task.wp_mono (fun res p v h => ?_) hunit
    refine reports_of_steady steady_unlock fun res' p' hp' => ?_
    cases res' with
    | error e => exact fun _ h => by cases h
    | ok _ =>
      intro refs hrefs
      rw [hp']
      exact h refs hrefs

/-! ### The services -/

/-- Step 10: the accounts have been drained, so that only events of the transaction are left,
and its commit was confirmed. -/
theorem reports_publishRemaining {draws : TransferDraws} {command : TransferCommand}
    {S : Settlement} {p : Process SqlState}
    (hheap : p.heap = ⟨[S.sender.collectEvents.2, S.receiver.collectEvents.2], [S.tx]⟩)
    {v : RowView} {n : Report} (hn : n.announced = false)
    (hS : ∃ w ∈ n.committed, command.Settles draws w S) :
    Reports (.transfer draws command) (TransferService.publishRemaining sqlBus 0 1 0)
      (fun dto _ v => dto = TransactionDTO.fromAggregate S.tx ∧ v.2.committed = n.committed ∧
        v.2.missed = n.missed) p
      (v, n) := by
  obtain ⟨heap, adapters⟩ := p
  obtain rfl : heap = _ := hheap
  have hread (n' : Report) (hn' : n'.committed = n.committed ∧ n'.missed = n.missed) :
      Reports (.transfer draws command) (do
        return TransactionDTO.fromAggregate (← callTransaction 0 MonadState.get))
        (fun dto _ v => dto = TransactionDTO.fromAggregate S.tx ∧ v.2.committed = n.committed ∧
          v.2.missed = n.missed)
        ⟨⟨[S.sender.collectEvents.2, S.receiver.collectEvents.2], [S.tx.collectEvents.2]⟩,
          adapters⟩ (v, n') := by
    unfold Reports
    rw [Task.wp_bind, wp_readTransaction (t := S.tx.collectEvents.2) _ _ rfl]
    simp only
    rw [Task.wp_pure]
    intro dto hdto
    obtain rfl := Except.ok.inj hdto
    exact ⟨rfl, hn'⟩
  unfold Reports
  rw [TransferService.publishRemaining, Task.wp_bind,
    wp_callAccount (a := S.sender.collectEvents.2) _ _ _ rfl]
  simp only [Account.collect_on]
  rw [Task.wp_bind, wp_callAccount (a := S.receiver.collectEvents.2) _ _ _ rfl]
  simp only [Account.collect_on]
  rw [Task.wp_bind, wp_callTransaction (t := S.tx) _ _ _ rfl]
  by_cases hevents : S.tx.domainEvents = []
  · simp only [Transaction.collect_on, Account.domainEvents_collected, List.nil_append, hevents,
      ne_eq, not_true_eq_false, if_false]
    exact hread n ⟨rfl, rfl⟩
  · simp only [Transaction.collect_on, Account.domainEvents_collected, List.nil_append, hevents,
      ne_eq, not_false_eq_true, if_true]
    rw [Task.wp_bind, sqlBus, wp_exec]
    refine ⟨⟨hn, draws, command, S, rfl, hS, rfl, hevents⟩, ?_⟩
    rintro (e | _)
    · exact fun _ h => by cases h
    · exact hread _ ⟨rfl, rfl⟩

theorem reports_initiate (draws : TransferDraws) (command : TransferCommand) :
    Reports (.transfer draws command)
      (TransferService.initiate sqlUow redisLock sqlBus draws command)
      (fun dto _ v => v.2.Supports (.transfer draws command) (.transaction dto)) .init
      (.fresh, .start) := by
  unfold Reports
  rw [TransferService.initiate, Task.wp_bind]
  refine Task.wp_mono ?_ (reports_lookup draws command)
  rintro (e | _ | ref) p v h
  · exact fun _ h => by cases h
  · obtain ⟨hv, hn, hheap, hfound, hmissed⟩ := h none rfl
    obtain ⟨view, n⟩ := v
    obtain rfl : view = .fresh := hv
    simp only
    rw [Task.wp_bind, Task.wp_ofExcept]
    cases hcurrency : Currency.ofValue command.currency with
    | error e => exact fun _ h => by cases h
    | ok currency =>
      simp only
      rw [Task.wp_bind, Task.wp_ofExcept]
      cases hamount : Money.new command.amount currency with
      | error e => exact fun _ h => by cases h
      | ok amount =>
        have hmoney : command.money = .ok amount := bind_eq_ok.mpr ⟨currency, hcurrency, hamount⟩
        simp only
        rw [Task.wp_bind]
        refine Task.wp_mono (fun res p v h => ?_) (reports_lock hmoney _ hheap hfound hmissed hn)
        cases res with
        | error e => exact fun _ h => by cases h
        | ok refs =>
          obtain ⟨view', n'⟩ := v
          obtain ⟨rfl, hn', hmissed', S, hS, hheap'⟩ := h refs rfl
          refine Task.wp_mono (fun res p v h dto hdto => ?_)
            (reports_publishRemaining hheap' hn' hS)
          obtain ⟨rfl, hcommitted, hsame⟩ := h dto hdto
          obtain ⟨w, hw, hsettles⟩ := hS
          exact ⟨draws, command, rfl, .inr ⟨hsame ▸ hmissed', w, hcommitted ▸ hw, S, hsettles,
            rfl⟩⟩
  · obtain ⟨-, -, rfl, orm, tx, hfound, htx, hheap⟩ := h (some ref) rfl
    obtain ⟨heap, adapters⟩ := p
    obtain rfl : heap = _ := hheap
    simp only
    rw [Task.wp_bind, wp_readTransaction (t := tx) _ _ rfl]
    simp only
    rw [Task.wp_pure]
    intro dto hdto
    obtain rfl := Except.ok.inj hdto
    exact ⟨draws, command, rfl, .inl ⟨orm, tx, hfound, htx, rfl⟩⟩

theorem reports_create (draws : AccountDraws) (command : CreateAccountCommand) :
    Reports (.create draws command) (AccountService.create sqlUow draws command)
      (fun dto _ v => v.2.Supports (.create draws command) (.account dto)) .init
      (.fresh, .start) := by
  unfold Reports
  rw [AccountService.create, Task.wp_bind, Task.wp_ofExcept]
  cases hcurrency : Currency.ofValue command.currency with
  | error e => exact fun _ h => by cases h
  | ok currency =>
    simp only
    rw [Task.wp_bind, Task.wp_ofExcept]
    cases hamount : Money.new command.initialBalance currency with
    | error e => exact fun _ h => by cases h
    | ok initialBalance =>
      simp only
      rw [Task.wp_bind, Task.wp_ofExcept]
      cases ha : Account.create draws command.ownerId currency (some initialBalance) with
      | error e => exact fun _ h => by cases h
      | ok a =>
        have hopened : command.opened draws = .ok a :=
          bind_eq_ok.mpr ⟨currency, hcurrency, bind_eq_ok.mpr ⟨initialBalance, hamount, ha⟩⟩
        have hid : a.id = draws.id := CreateAccountCommand.opened_id hopened
        simp only
        rw [Task.wp_bind, wp_newAccount]
        simp only
        rw [Task.wp_bind]
        have hunit : Reports (.create draws command) (withUow sqlUow (do
            sqlUow.accounts.save 0
            sqlUow.commit)) (fun _ heap v => heap = ⟨[a], []⟩ ∧
              { Flush.empty with newAccounts := [AccountMapper.toNewOrm a] } ∈ v.2.committed)
            ⟨⟨[a], []⟩, .init⟩ (.fresh, .start) := by
          refine reports_uow (fun _ _ _ _ h => h) ?_
          have hopens := reports_opens (r := .create draws command) (n := .start)
            (K := fun v => { Flush.empty with newAccounts := [AccountMapper.toNewOrm a] } ∈
              v.2.committed) (v := .fresh) rfl rfl (Request.flush_create_ok.mpr ⟨a, hopened, rfl⟩)
            fun _ => List.mem_singleton.mpr rfl
          rw [show (Request.create draws command).newId = a.id from hid.symm] at hopens
          exact TransferService.wp_open_of hopens (fun _ _ _ _ _ _ h => by cases h)
            fun v h _ _ => ⟨rfl, h⟩
        refine Task.wp_mono (fun res p v h => ?_) hunit
        cases res with
        | error e => exact fun _ h => by cases h
        | ok _ =>
          obtain ⟨hheap, hcommitted⟩ := h () rfl
          obtain ⟨heap, adapters⟩ := p
          obtain rfl : heap = _ := hheap
          simp only
          rw [Task.wp_bind, wp_readAccount (a := a) _ _ rfl]
          simp only
          rw [Task.wp_pure]
          intro dto hdto
          obtain rfl := Except.ok.inj hdto
          exact ⟨draws, command, a, rfl, hopened, hcommitted, rfl⟩

/-- Every request has grounds for what it hands to the bus and for what it returns. -/
theorem reports_program (r : Request) :
    r.program.wp (reportContract r) (fun out v => ∀ response, out.1 = .ok response →
      v.2.Supports r response) (.fresh, .start) := by
  have h : Reports r r.task (fun response _ v => v.2.Supports r response) .init
      (.fresh, .start) := by
    unfold Reports
    cases r with
    | create draws command =>
      rw [Request.task, Task.wp_bind]
      refine Task.wp_mono (fun res p v h => ?_) (reports_create draws command)
      cases res with
      | error e => exact fun _ h => by cases h
      | ok dto =>
        simp only
        rw [Task.wp_pure]
        intro response hresponse
        obtain rfl := Except.ok.inj hresponse
        exact h dto rfl
    | transfer draws command =>
      rw [Request.task, Task.wp_bind]
      refine Task.wp_mono (fun res p v h => ?_) (reports_initiate draws command)
      cases res with
      | error e => exact fun _ h => by cases h
      | ok dto =>
        simp only
        rw [Task.wp_pure]
        intro response hresponse
        obtain rfl := Except.ok.inj hresponse
        exact h dto rfl
  rw [Reports, Task.wp_def] at h
  exact h

end Programs

end BankingTransactions
