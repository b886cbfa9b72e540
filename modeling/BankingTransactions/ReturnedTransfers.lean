import BankingTransactions.Acknowledgements
import BankingTransactions.EventDelivery

/-!
# What a returned transaction says of the command

A transfer looks its key up before anything else. What it returns, if it returns, is the stored
transaction when the lookup has found one, whatever the command says besides the key, and the
requested transfer when it has found none. So it is with a call that runs alone, and with every
call of a run in which requests interleave and operations fail: there the lookup is one of the
steps, and the database is the one that this step finds.
-/
namespace BankingTransactions
open DecimalArithmetic InteractionPrograms ThreadPools

/-- The transaction carries the key of the command. It is the requested transfer when nothing is
stored under the key, with the amount rounded half up to hundredths, and otherwise the stored
transaction. -/
def TransactionDTO.Answers (dto : TransactionDTO) (command : TransferCommand)
    (stored : Option TransactionRow) : Prop :=
  dto.idempotencyKey = command.idempotencyKey ∧
    match stored with
    | none => dto.fromAccountId = command.fromAccountId ∧ dto.toAccountId = command.toAccountId ∧
        dto.currency = command.currency ∧
        dto.amount.value = (⌊100 * command.amount.value + 1 / 2⌋₊ : ℚ) / 100
    | some row => ∃ tx, TransactionMapper.toDomain row.load = .ok tx ∧
        dto = TransactionDTO.fromAggregate tx

/-- A transaction that was read under the key of the command. -/
theorem answers_stored {command : TransferCommand} {row : TransactionRow} {tx : Transaction}
    (hkey : row.idempotencyKey = command.idempotencyKey)
    (htx : TransactionMapper.toDomain row.load = .ok tx) :
    (TransactionDTO.fromAggregate tx).Answers command (some row) := by
  refine ⟨?_, tx, htx, rfl⟩
  obtain ⟨amount, -, hreconstituted⟩ := bind_eq_ok.mp htx
  obtain rfl := Except.ok.inj hreconstituted
  exact hkey

/-- A transaction that was completed for the command. -/
theorem answers_completed {draws : TransferDraws} {command : TransferCommand} {amount : Money}
    {tx : Transaction} (hmoney : command.money = .ok amount)
    (htx : Transaction.initiate draws.tx command.fromAccountId command.toAccountId amount
      command.idempotencyKey = .ok tx) :
    (TransactionDTO.fromAggregate (draws.completedTx tx)).Answers command none := by
  obtain ⟨hpositive, -, rfl⟩ := Transaction.initiate_ok htx
  obtain ⟨currency, hcurrency, hamount⟩ := bind_eq_ok.mp hmoney
  have hvalue := Money.value_new hamount hpositive
  have hname : amount.currency.value = command.currency := by
    rw [Money.new_currency hamount, Currency.value_of_ofValue hcurrency]
  rw [TransferDraws.completedTx_eq rfl, TransferDraws.processed_eq rfl]
  exact ⟨rfl, rfl, rfl, hname, hvalue⟩

/-! ## A call that runs alone -/

theorem returned_alone {p : System} (h : SystemReachable p) {draws : TransferDraws}
    (hid : draws.tx.id ∉ p.shared.issued) {command : TransferCommand} {dto : TransactionDTO}
    (hreturned : p.shared.atRest.outcome (.transfer draws command) = .ok (.transaction dto)) :
    dto.Answers command (p.shared.db.findByKey command.idempotencyKey) := by
  have hnew := (h.unused hid).2
  obtain ⟨-, -, houtcome⟩ := Server.transfer_left p.shared.atRest_idle hnew command
  rw [houtcome] at hreturned
  change (command.serial draws p.shared.db).outcome = _ at hreturned
  have hwhole := h.whole
  generalize p.shared.db = db at *
  cases hkey : db.findByKey command.idempotencyKey with
  | some row =>
    rw [TransferCommand.serial_found hkey] at hreturned
    cases ht : TransactionMapper.toDomain row.load with
    | error e =>
      rw [ht] at hreturned
      cases hreturned
    | ok tx =>
      rw [ht] at hreturned
      have hdto : TransactionDTO.fromAggregate tx = dto := by
        simpa [SerialRun.unchanged, Except.map] using hreturned
      rw [← hdto]
      exact answers_stored (Database.findByKey_eq_some.mp hkey).2 ht
  | none =>
    by_cases hsucceeds : command.Succeeds db
    · obtain ⟨amount, sender, receiver, hreaches, hfits, hd, hc⟩ := hsucceeds
      obtain ⟨tx, S, db', hcommits⟩ := hreaches.commits hwhole hfits hnew
      obtain ⟨hraised, hS⟩ := hcommits.accepted hd hc
      rw [hcommits.serial, SerialRun.committed, hraised] at hreturned
      have hdto : TransactionDTO.fromAggregate S.tx = dto := by simpa using hreturned
      rw [← hdto, hS]
      exact answers_completed hreaches.money hcommits.initiated
    · by_cases hfails : command.RecordsFailure db
      · obtain ⟨amount, sender, receiver, hreaches, hfits, hr⟩ := hfails
        obtain ⟨tx, S, db', hcommits⟩ := hreaches.commits hwhole hfits hnew
        obtain ⟨e, hraised⟩ := hcommits.refused hr
        rw [hcommits.serial, SerialRun.committed, hraised] at hreturned
        cases hreturned
      · obtain ⟨e, hrefused⟩ := TransferCommand.serial_refused hwhole hkey hsucceeds hfails
        rw [hrefused draws hnew] at hreturned
        cases hreturned

/-! ## A call of a run -/

/-- What the requests can report at the end of a run from the empty database. -/
def Report.ofRun (ls : List (Label RequestId Request Choice Disturbance)) : RequestId → Report :=
  Server.host.notes Report.note (Pool.empty (Server.quiet .empty)) (fun _ => .start) ls

/-- In state `q` of the run the request looks up the key. -/
def LooksKeyUp (ls : List (Label RequestId Request Choice Disturbance)) (t : RequestId)
    (r : Request) (key : String) (q : System) : Prop :=
  ∃ before choice after next, ls = before ++ .resume t choice :: after ∧ SystemRun before q ∧
    q.threads t = some (r, .call (.selectTransactionByKey key) next)

/-- A lookup that has found nothing was made where nothing is stored. -/
theorem Server.answer_missed {s s' : Server} {t : RequestId} {r : Request} {choice : Choice}
    {o : IoOp} {res : o.Res} (h : answer t r choice o s = some (res, s')) {n : Report}
    {key : String} (hkey : key ∈ (n.note o res).missed) (hnew : key ∉ n.missed) :
    o = .selectTransactionByKey key ∧ s.db.findByKey key = none := by
  cases o with
  | selectTransactionByKey key' =>
    obtain e | _ | orm := (res : Except Exn (Option TransactionORM))
    · exact absurd hkey hnew
    · obtain hkey | hkey := List.mem_append.mp hkey
      · exact absurd hkey hnew
      obtain rfl := List.mem_singleton.mp hkey
      refine ⟨rfl, ?_⟩
      cases choice with
      | proceed =>
        simp only [answer, serve] at h
        split_ifs at h
        · cases h
        · obtain ⟨hres, -⟩ := Prod.mk.inj (Option.some.inj h)
          exact Option.map_eq_none_iff.mp (Except.ok.inj hres)
      | timeout => cases h
      | fault e => cases h
      | faultAfter e =>
        simp only [answer, Option.map_eq_some_iff] at h
        obtain ⟨_, -, hres⟩ := h
        cases hres
    · exact absurd hkey hnew
  | commit w =>
    obtain e | _ := (res : Except Exn Unit) <;> exact absurd hkey hnew
  | _ => exact absurd hkey hnew

section Runs

variable {ls : List (Label RequestId Request Choice Disturbance)} {p : System}
  (hrun : SystemRun ls p) {t : RequestId} {r : Request} {out : Outcome}
  (hend : p.threads t = some (r, .ret out))
include hrun hend

theorem ended_report {response : Response} (hok : out.1 = .ok response) :
    (Report.ofRun ls t).Supports r response := by
  have hprogram (r : Request) : r.program.wp ((rowContract r).noting Report.note)
      (fun out v => ∀ response, out.1 = .ok response → v.2.Supports r response)
      (.fresh, .start) := Contract.wp_of_requiring (reports_program r)
  obtain ⟨v, hpost⟩ := ended_noted hprogram hrun hend
  exact hpost response hok

/-- What a request can report at its end, and could not at its start, it was told in a state of
the run, when it looked up the key. -/
theorem told_in_run {F : Report → Prop} (hstart : ¬F .start) (hF : F (Report.ofRun ls t))
    {key : String} {P : Database → Prop}
    (hanswer : ∀ {choice o s res s' n}, Server.answer t r choice o s = some (res, s') → ¬F n →
      F (n.note o res) → o = .selectTransactionByKey key ∧ P s.db) :
    ∃ q, LooksKeyUp ls t r key q ∧ P q.shared.db := by
  obtain ⟨before, choice, after, q, r', o, next, res, s, n, hls, hbefore, hafter, hthread, hres,
    hnot, hnoted⟩ := hrun.notes_split hstart hF
  obtain rfl : r = r' := by
    obtain ⟨program, hsame⟩ := hafter.keeps_request hthread
    rw [hend] at hsame
    cases hsame
    rfl
  obtain ⟨rfl, hP⟩ := hanswer hres hnot hnoted
  exact ⟨q, ⟨before, choice, after, next, hls, hbefore, hthread⟩, hP⟩

/-- What a call of a run returns answers its command by what the lookup of the call has found. -/
theorem returned_in_run {draws : TransferDraws} {command : TransferCommand}
    (hr : r = .transfer draws command) {dto : TransactionDTO}
    (hok : out.1 = .ok (.transaction dto)) :
    ∃ q, LooksKeyUp ls t r command.idempotencyKey q ∧
      dto.Answers command (q.shared.db.findByKey command.idempotencyKey) := by
  obtain ⟨draws', command', hr', hcases⟩ := ended_report hrun hend hok
  obtain ⟨rfl, rfl⟩ : draws = draws' ∧ command = command' := by
    rw [hr] at hr'
    cases hr'
    exact ⟨rfl, rfl⟩
  rcases hcases with ⟨orm, tx, hfound, htx, rfl⟩ | ⟨hmissed, w, -, S, hS, rfl⟩
  · obtain ⟨q, hlooks, row, hrow, rfl⟩ := told_in_run hrun hend
      (F := fun n => (command.idempotencyKey, orm) ∈ n.found) (by simp [Report.start]) hfound
      (P := fun db => ∃ row, db.findByKey command.idempotencyKey = some row ∧ orm = row.load)
      fun hanswer hnot hnoted => by
        obtain hold | hstored := Server.answer_found hanswer hnoted
        · exact absurd hold hnot
        · exact ⟨Report.note_new hnoted hnot, hstored⟩
    refine ⟨q, hlooks, ?_⟩
    rw [hrow]
    exact answers_stored (Database.findByKey_eq_some.mp hrow).2 htx
  · obtain ⟨q, hlooks, hnone⟩ := told_in_run hrun hend
      (F := fun n => command.idempotencyKey ∈ n.missed) (by simp [Report.start]) hmissed
      (P := fun db => db.findByKey command.idempotencyKey = none)
      fun hanswer hnot hnoted => Server.answer_missed hanswer hnoted hnot
    refine ⟨q, hlooks, ?_⟩
    obtain ⟨amount, find, senderRow, receiverRow, hmoney, hresolve, hraised, -⟩ := hS
    obtain ⟨-, -, sender, receiver, tx, -, -, htx, rfl⟩ := TransferCommand.resolve_ok.mp hresolve
    rw [hnone, Commit.settle_tx_completed hraised]
    exact answers_completed hmoney htx

end Runs

/-- A transaction that a call returns answers its command by what its lookup has found: in the
database of any reachable state when the call runs alone from there, and in the state of its
lookup when it is a call of a run, however the requests interleave and whatever fails. -/
theorem returned_transfer {ls : List (Label RequestId Request Choice Disturbance)} {p : System}
    (hrun : SystemRun ls p) {draws : TransferDraws} {command : TransferCommand}
    {dto : TransactionDTO} :
    (draws.tx.id ∉ p.shared.issued →
      p.shared.atRest.outcome (.transfer draws command) = .ok (.transaction dto) →
      dto.Answers command (p.shared.db.findByKey command.idempotencyKey)) ∧
    ∀ t out, p.threads t = some (.transfer draws command, .ret out) →
      out.1 = .ok (.transaction dto) →
      ∃ q, LooksKeyUp ls t (.transfer draws command) command.idempotencyKey q ∧
        dto.Answers command (q.shared.db.findByKey command.idempotencyKey) :=
  ⟨fun hid hreturned => returned_alone ⟨ls, hrun⟩ hid hreturned,
    fun _ _ hend hok => returned_in_run hrun hend rfl hok⟩

namespace Sample

/-- Another transfer that reuses the key of the completed one. -/
def reuse : TransferCommand := ⟨2, 1, .finite false 5 0, "EUR", "key"⟩

/-- The result of a sample call, if it returned one. -/
def returned (p : System) (command : TransferCommand) : Option TransactionDTO :=
  match p.shared.atRest.outcome (.transfer (draws 4) command) with
  | .ok (.transaction dto) => some dto
  | _ => none

theorem outcome_of_returned {p : System} {command : TransferCommand} {dto : TransactionDTO}
    (h : returned p command = some dto) :
    p.shared.atRest.outcome (.transfer (draws 4) command) = .ok (.transaction dto) := by
  unfold returned at h
  split at h
  · rename_i dto' hdto
    obtain rfl := Option.some.inj h
    exact hdto
  · cases h

/-- What the sender is told of a completed transfer. -/
def answer : TransactionDTO := (returned opened command).get (by decide +kernel)

theorem transferred_request :
    (transferred.threads 2).map (·.1) = some (.transfer (draws 3) command) := by decide +kernel

end Sample

theorem returned_transfer_sample :
    (∃ dto, Sample.returned Sample.opened Sample.command = some dto ∧
      dto.Answers Sample.command
        (Sample.opened.shared.db.findByKey Sample.command.idempotencyKey)) ∧
    ∃ dto q, LooksKeyUp Sample.completing 2 (.transfer (Sample.draws 3) Sample.command)
        Sample.command.idempotencyKey q ∧
      TransactionDTO.Answers dto Sample.command
        (q.shared.db.findByKey Sample.command.idempotencyKey) := by
  have hopenings : SystemRun (Sample.openings "EUR") Sample.opened := run_of_replay _
  have hid : (Sample.draws 4).tx.id ∉ Sample.opened.shared.issued := by
    rw [Sample.opened_issued]
    decide
  have hdto : Sample.returned Sample.opened Sample.command = some Sample.answer :=
    (Option.some_get _).symm
  refine ⟨⟨Sample.answer, hdto,
    (returned_transfer hopenings).1 hid (Sample.outcome_of_returned hdto)⟩, ?_⟩
  have hcompleting : SystemRun Sample.completing Sample.transferred := run_of_replay _
  obtain ⟨r, out, response, hend, hok, hP⟩ := returned Sample.transferred_returns
  have hrequest := Sample.transferred_request
  rw [hend] at hrequest
  cases hrequest
  cases response with
  | account dto => cases hP
  | transaction dto => exact ⟨dto, (returned_transfer hcompleting).2 2 out hend hok⟩

/-- A caller that reuses a key is told that another transfer is completed. -/
theorem other_transfer_returned :
    SystemReachable Sample.transferred ∧ (Sample.draws 4).tx.id ∉ Sample.transferred.shared.issued ∧
      (Sample.returned Sample.transferred Sample.reuse).map
        (fun dto => (dto.fromAccountId, dto.toAccountId, dto.amount.value, dto.status)) =
          some (1, 2, 30, "completed") ∧
      (Sample.reuse.fromAccountId, Sample.reuse.toAccountId, Sample.reuse.amount.value) =
        (2, 1, 5) := by
  have hid : (Sample.draws 4).tx.id ∉ Sample.transferred.shared.issued := by
    rw [Sample.transferred_issued]
    decide
  exact ⟨Sample.transferred_reachable, hid, by decide +kernel, by decide +kernel⟩

end BankingTransactions
