import BankingTransactions.SerialOutcomes
import BankingTransactions.Serializability

/-!
# Idempotency keys and repeated transfers

A second call with the same command, alone and without failures, finds what the first
has stored and changes nothing. It ends as the first did unless the first has recorded a
failure, which it answers with the FAILED transaction instead of the exception.
-/
namespace BankingTransactions
open DecimalArithmetic InteractionPrograms ThreadPools

namespace TransferCommand

variable {command : TransferCommand} {draws : TransferDraws} {db db' : Database} {amount : Money}
  {sender receiver : AccountRow} {tx : Transaction} {S : Settlement} {stored : Numeric}

/-- The result of a completed transfer is what its row is read as. -/
theorem completed_dto (htx : Transaction.initiate draws.tx command.fromAccountId
      command.toAccountId amount command.idempotencyKey = .ok tx)
    (hstored : stored.IsCents amount.cents) :
    TransactionMapper.toDomain (command.completedRow draws amount stored).load =
        .ok ((command.completedRow draws amount stored).transaction amount.cents hstored) ∧
      TransactionDTO.fromAggregate
          ((command.completedRow draws amount stored).transaction amount.cents hstored) =
        TransactionDTO.fromAggregate (draws.completedTx tx) := by
  refine ⟨TransactionMapper.toDomain_load (r := command.completedRow draws amount stored) hstored, ?_⟩
  obtain ⟨hpositive, -, rfl⟩ := Transaction.initiate_ok htx
  have hread : ((command.completedRow draws amount stored).transaction amount.cents hstored).amount =
      amount := Money.eq_of_cents rfl rfl hpositive
  rw [TransferDraws.completedTx_eq rfl, TransferDraws.processed_eq rfl]
  simp only [TransactionDTO.fromAggregate, hread]
  rfl

/-- A row that was inserted is found by its key. -/
theorem found_inserted (row : TransactionRow) (hunused : db.findByKey row.idempotencyKey = none)
    (h : db'.transactions = db.transactions ++ [row]) :
    db'.findByKey row.idempotencyKey = some row := by
  have hfind := find_insert (fun r : TransactionRow => r.idempotencyKey)
    (Database.findByKey_eq_none.mp hunused) row.idempotencyKey
  rw [if_pos rfl] at hfind
  rw [Database.findByKey, h]
  exact hfind

end TransferCommand

/-- The same result, or an exception of the same type. -/
def SameOutcome : Except Exn Response → Except Exn Response → Prop
  | .ok a, .ok b => a = b
  | .error e, .error e' => e.name = e'.name
  | _, _ => False

instance (a b : Except Exn Response) : Decidable (SameOutcome a b) := by
  unfold SameOutcome
  split <;> infer_instance

theorem sameOutcome_refl (outcome : Except Exn Response) : SameOutcome outcome outcome := by
  cases outcome <;> rfl

/-- The server after a call. -/
abbrev Server.after (s : Server) (r : Request) : Server := (Server.runAlone r s).2

/-- The outcome of a call. -/
abbrev Server.outcome (s : Server) (r : Request) : Except Exn Response := (Server.runAlone r s).1.1

/-- A second call with the same command changes nothing and ends as the first did. -/
def RetryIdempotent (s : Server) (first second : TransferDraws) (command : TransferCommand) : Prop :=
  ((s.after (.transfer first command)).after (.transfer second command)).db =
      (s.after (.transfer first command)).db ∧
    SameOutcome (s.outcome (.transfer first command))
      ((s.after (.transfer first command)).outcome (.transfer second command))

theorem Server.atRest_idle (s : Server) : s.atRest.Idle := ⟨rfl, rfl, rfl⟩

/-- What one call of a transfer leaves, when the server is idle. -/
theorem Server.transfer_left {s : Server} (hs : s.Idle) {draws : TransferDraws}
    (hnew : s.db.findTransaction draws.tx.id = none) (command : TransferCommand) :
    (s.after (.transfer draws command)).Idle ∧
      (s.after (.transfer draws command)).db = (command.serial draws s.db).db ∧
      s.outcome (.transfer draws command) = (command.serial draws s.db).outcome := by
  have hleft := Server.runAlone_serial hs (r := .transfer draws command) hnew
  exact ⟨hleft.ended.idle, hleft.ended.db, hleft.outcome⟩

/-- Two calls on an idle server are two serial runs. -/
theorem retryIdempotent_serial {s : Server} (hs : s.Idle) {first second : TransferDraws}
    {command : TransferCommand} (hfirst : s.db.findTransaction first.tx.id = none)
    (hsecond : (command.serial first s.db).db.findTransaction second.tx.id = none) :
    RetryIdempotent s first second command ↔
      (command.serial second (command.serial first s.db).db).db = (command.serial first s.db).db ∧
        SameOutcome (command.serial first s.db).outcome
          (command.serial second (command.serial first s.db).db).outcome := by
  obtain ⟨hidle, hdb, houtcome⟩ := Server.transfer_left hs hfirst command
  obtain ⟨-, hdb', houtcome'⟩ := Server.transfer_left hidle (hdb ▸ hsecond) command
  rw [RetryIdempotent, hdb', houtcome', houtcome, hdb]

namespace TransferCommand

variable {command : TransferCommand} {db : Database} {first second : TransferDraws}

/-- A call that has changed nothing is repeated on the same database. -/
theorem repeat_unchanged {outcome : Except Exn Response}
    (hfirst : command.serial first db = .unchanged outcome db)
    (hsecond : command.serial second db = .unchanged outcome db) :
    (command.serial second (command.serial first db).db).db = (command.serial first db).db ∧
      SameOutcome (command.serial first db).outcome
        (command.serial second (command.serial first db).db).outcome := by
  have hdb : (command.serial first db).db = db := by rw [hfirst]; rfl
  rw [hdb, hfirst, hsecond]
  exact ⟨rfl, sameOutcome_refl outcome⟩

variable {amount : Money} {sender receiver : AccountRow} {tx : Transaction} {S : Settlement}
  {db' : Database}

/-- A completed call is answered from its row. -/
theorem repeat_completed (hwhole : db.Whole)
    (h : command.Commits first db amount sender receiver tx S db')
    (hd : sender.AcceptsDebit amount) (hc : receiver.AcceptsCredit amount)
    (second : TransferDraws) :
    (command.serial second db').db = db' ∧
      (command.serial first db).outcome = (command.serial second db').outcome := by
  obtain ⟨stored, _, _, _, _, hcompletes⟩ := h.completes hwhole hd hc
  have hfound := found_inserted (command.completedRow first amount stored)
    h.reaches.unused hcompletes.transactions
  obtain ⟨hread, hdto⟩ := completed_dto h.initiated hcompletes.cents
  obtain ⟨hraised, htx⟩ := h.accepted hd hc
  have hsecond := serial_found hfound second
  refine ⟨by rw [hsecond]; rfl, ?_⟩
  rw [hsecond, hread, h.serial, SerialRun.committed, hraised]
  simp only [SerialRun.unchanged, Except.map, hdto, htx]

/-- A recorded failure is answered with the FAILED transaction. -/
theorem repeat_failed (hwhole : db.Whole)
    (h : command.Commits first db amount sender receiver tx S db')
    (hr : ¬ (sender.AcceptsDebit amount ∧ receiver.AcceptsCredit amount))
    (second : TransferDraws) :
    ¬ SameOutcome (command.serial first db).outcome (command.serial second db').outcome := by
  obtain ⟨stored, e, hfails⟩ := h.fails hwhole hr
  have hfound := found_inserted (command.failedRow first amount stored e)
    h.reaches.unused hfails.transactions
  obtain ⟨e', hraised⟩ := h.refused hr
  have hsecond := serial_found hfound second
  have hread := TransactionMapper.toDomain_load (r := command.failedRow first amount stored e)
    hfails.cents
  rw [hsecond, hread, h.serial, SerialRun.committed, hraised]
  exact id

end TransferCommand

theorem retryIdempotent_iff {s : Server} (hs : s.Idle) (hwhole : s.db.Whole)
    {first second : TransferDraws} (hfirst : s.db.findTransaction first.tx.id = none)
    (hsecond : s.db.findTransaction second.tx.id = none) (hne : second.tx.id ≠ first.tx.id)
    (command : TransferCommand) :
    RetryIdempotent s first second command ↔ ¬ command.RecordsFailure s.db := by
  have hunchanged {outcome : Except Exn Response}
      (hone : command.serial first s.db = .unchanged outcome s.db)
      (htwo : command.serial second s.db = .unchanged outcome s.db) :
      RetryIdempotent s first second command := by
    refine (retryIdempotent_serial hs hfirst ?_).mpr (TransferCommand.repeat_unchanged hone htwo)
    rw [hone]
    exact hsecond
  have hcommitted {amount sender receiver tx S db'}
      (h : command.Commits first s.db amount sender receiver tx S db') :
      RetryIdempotent s first second command ↔ (command.serial second db').db = db' ∧
        SameOutcome (command.serial first s.db).outcome (command.serial second db').outcome := by
    have hdb : (command.serial first s.db).db = db' := by rw [h.serial, SerialRun.committed_db]
    rw [retryIdempotent_serial hs hfirst ?_, hdb]
    rw [hdb]
    exact (h.legal.ids hwhole second.tx.id hne).2 hsecond
  cases hkey : s.db.findByKey command.idempotencyKey with
  | some row =>
    refine iff_of_true (hunchanged (TransferCommand.serial_found hkey first)
      (TransferCommand.serial_found hkey second)) ?_
    rintro ⟨_, _, _, hreaches, -⟩
    rw [hreaches.unused] at hkey
    cases hkey
  | none =>
    by_cases hsucceeds : command.Succeeds s.db
    · obtain ⟨amount, sender, receiver, hreaches, hfits, hd, hc⟩ := hsucceeds
      obtain ⟨tx, S, db', hcommits⟩ := hreaches.commits hwhole hfits hfirst
      obtain ⟨hdb, houtcome⟩ := TransferCommand.repeat_completed hwhole hcommits hd hc second
      refine iff_of_true ((hcommitted hcommits).mpr ⟨hdb, houtcome ▸ sameOutcome_refl _⟩) ?_
      rintro ⟨_, _, _, hreaches', -, hr⟩
      obtain ⟨rfl, rfl, rfl⟩ := hreaches.unique hreaches'
      exact hr ⟨hd, hc⟩
    · by_cases hfails : command.RecordsFailure s.db
      · refine iff_of_false ?_ (not_not.mpr hfails)
        obtain ⟨amount, sender, receiver, hreaches, hfits, hr⟩ := hfails
        obtain ⟨tx, S, db', hcommits⟩ := hreaches.commits hwhole hfits hfirst
        rw [hcommitted hcommits]
        exact fun h => TransferCommand.repeat_failed hwhole hcommits hr second h.2
      · obtain ⟨e, hrefused⟩ := TransferCommand.serial_refused hwhole hkey hsucceeds hfails
        exact iff_of_true (hunchanged (hrefused first hfirst) (hrefused second hsecond)) hfails

/-- Without failures and alone, a second call with the same command changes nothing and
has the outcome of the first exactly when the first does not record a failure. -/
theorem retry_idempotent_iff {p : System} (h : SystemReachable p) {first second : TransferDraws}
    (hfirst : first.tx.id ∉ p.shared.issued) (hsecond : second.tx.id ∉ p.shared.issued)
    (hne : second.tx.id ≠ first.tx.id) (command : TransferCommand) :
    RetryIdempotent p.shared.atRest first second command ↔
      ¬ command.RecordsFailure p.shared.db :=
  retryIdempotent_iff p.shared.atRest_idle h.whole (h.unused hfirst).2 (h.unused hsecond).2 hne
    command

theorem retry_idempotent_sample :
    RetryIdempotent Sample.opened.shared.atRest (Sample.draws 3) (Sample.draws 4) Sample.command ↔
      ¬ Sample.command.RecordsFailure Sample.opened.shared.db := by
  have hfirst : (Sample.draws 3).tx.id ∉ Sample.opened.shared.issued := by
    rw [Sample.opened_issued]
    decide
  have hsecond : (Sample.draws 4).tx.id ∉ Sample.opened.shared.issued := by
    rw [Sample.opened_issued]
    decide
  have hne : (Sample.draws 4).tx.id ≠ (Sample.draws 3).tx.id := by decide
  exact retry_idempotent_iff Sample.opened_reachable hfirst hsecond hne Sample.command

/-- The first call raises and records a failure; the second returns the FAILED transaction. -/
theorem retry_of_failure :
    SystemReachable Sample.openedAbroad ∧
      (match Sample.openedAbroad.shared.atRest.outcome (.transfer (Sample.draws 3) Sample.command)
        with
        | .error e => e.name
        | .ok _ => "") = "CurrencyMismatchError" ∧
      ¬ SameOutcome
        (Sample.openedAbroad.shared.atRest.outcome (.transfer (Sample.draws 3) Sample.command))
        ((Sample.openedAbroad.shared.atRest.after (.transfer (Sample.draws 3)
          Sample.command)).outcome (.transfer (Sample.draws 4) Sample.command)) :=
  ⟨Sample.openedAbroad_reachable, by decide +kernel, by decide +kernel⟩

end BankingTransactions
