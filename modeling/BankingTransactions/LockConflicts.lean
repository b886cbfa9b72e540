import BankingTransactions.InMemoryStores
import BankingTransactions.RaisedExceptions
import BankingTransactions.Retries

/-!
# Transfers that find the lock free

With no other request in flight and no key set, only a transfer to the sender itself is
told that another transfer holds the lock: the service asks for the key of the account
twice, and the second time both lock managers find the key that the transfer has set
itself. The check of the aggregate for this case is never reached.
-/
namespace BankingTransactions
open DecimalArithmetic InteractionPrograms

/-- Does not end with a `ConcurrencyConflictError`. -/
def NoConflict {α : Type} (x : Except Exn α) : Prop :=
  ∀ resource, x ≠ .error (.concurrencyConflict resource)

theorem Plain.noConflict {α : Type} {x : Except Exn α} (h : Plain x) : NoConflict x := by
  intro resource heq
  simpa using h _ heq

theorem TransferCommand.plain_settlement (command : TransferCommand) (draws : TransferDraws)
    (amount : Money) (find : AccountId → Option Account) :
    Plain (command.settlement draws amount find) := by
  have htx := Transaction.plain_initiate draws.tx command.fromAccountId command.toAccountId
    amount command.idempotencyKey
  unfold TransferCommand.settlement
  split
  · simp
  · split
    · simp
    · split
      · exact plain_of_eq htx ‹_›
      · simp

theorem TransferCommand.plain_inMemory {command : TransferCommand} (draws : TransferDraws)
    {s : MemoryStore} (hkey : s.findByKey command.idempotencyKey = none)
    (hlocks : ¬ command.LocksTwice) :
    Plain (command.inMemory draws s).1 := by
  cases hm : command.money with
  | error e =>
    simp only [inMemory, hkey, hm]
    exact plain_of_eq command.plain_money hm
  | ok amount =>
    have hne : command.fromAccountId ≠ command.toAccountId := fun heq => hlocks ⟨heq, amount, hm⟩
    have hsettlement := command.plain_settlement draws amount s.findAccount
    simp only [inMemory, hkey, hm, if_neg hne]
    split
    · exact plain_of_eq hsettlement ‹_›
    · rename_i S hS
      obtain ⟨sender, receiver, tx, -, -, -, rfl⟩ := TransferCommand.settlement_eq_ok hS
      cases hraised : (draws.settle amount sender receiver tx).raised with
      | none => simp
      | some e => exact plain_error.mpr (draws.plain_settle hraised)

/-- How a transfer is classified when no other request is in flight: it meets no held lock, and
a transfer to the account itself is refused as such. -/
structure TransferCommand.Classified (command : TransferCommand) (accountExists : Prop)
    (outcome : Except Exn Response) : Prop where
  uncontended : NoConflict outcome
  sameAccount : command.fromAccountId = command.toAccountId → accountExists →
    (∃ amount, command.money = .ok amount ∧ amount.cents ≠ 0) →
    outcome = .error (.sameAccountTransfer command.fromAccountId)

theorem TransferCommand.classified_iff_of {command : TransferCommand} {accountExists : Prop}
    {outcome : Except Exn Response}
    (hconflict : command.LocksTwice → ∃ resource, outcome = .error (.concurrencyConflict resource))
    (hfree : ¬ command.LocksTwice → NoConflict outcome) :
    command.Classified accountExists outcome ↔ ¬ command.LocksTwice := by
  constructor
  · intro h hlocks
    obtain ⟨resource, houtcome⟩ := hconflict hlocks
    exact h.uncontended resource houtcome
  · intro hlocks
    refine ⟨hfree hlocks, fun hsame _ hmoney => ?_⟩
    obtain ⟨amount, hm, -⟩ := hmoney
    exact absurd ⟨hsame, amount, hm⟩ hlocks

/-- Over both lock managers, a transfer with a new key that finds no other request and no key set
is classified correctly exactly when it does not ask for the key of one account twice. -/
theorem transfer_classified_iff {p : System} (h : SystemReachable p) {s : MemoryStore}
    (hs : MemoryReachable s) {draws : TransferDraws} (hid : draws.tx.id ∉ p.shared.issued)
    {command : TransferCommand} (hnew : s.New (.transfer draws command)) :
    (p.shared.db.findByKey command.idempotencyKey = none →
      (command.Classified (p.shared.db.findAccount command.fromAccountId).isSome
          (p.shared.atRest.outcome (.transfer draws command)) ↔ ¬ command.LocksTwice)) ∧
      (s.findByKey command.idempotencyKey = none →
        (command.Classified (s.findAccount command.fromAccountId).isSome
          (s.perform (.transfer draws command)).1 ↔ ¬ command.LocksTwice)) := by
  constructor
  · intro hkey
    obtain ⟨-, -, houtcome⟩ := Server.transfer_left p.shared.atRest_idle (h.unused hid).2 command
    rw [houtcome]
    refine TransferCommand.classified_iff_of ?_ fun h =>
      (TransferCommand.plain_serial draws h).noConflict
    rintro ⟨hsame, amount, hmoney⟩
    have hkey' : p.shared.atRest.db.findByKey command.idempotencyKey = none := hkey
    simp only [TransferCommand.serial, hkey', hmoney, if_pos hsame]
    exact ⟨_, rfl⟩
  · intro hkey
    rw [(MemoryStore.perform_transfer hs.consistent hnew command).outcome]
    refine TransferCommand.classified_iff_of ?_ fun h =>
      (TransferCommand.plain_inMemory draws hkey h).noConflict
    rintro ⟨hsame, amount, hmoney⟩
    simp only [TransferCommand.inMemory, hkey, hmoney, if_pos hsame]
    exact ⟨_, rfl⟩

/-- Transfer 30 EUR from account 1 to itself. -/
def Sample.circular : TransferCommand := { command with toAccountId := 1 }

theorem transfer_classified_sample :
    (Sample.command.Classified
        (Sample.opened.shared.db.findAccount Sample.command.fromAccountId).isSome
        (Sample.opened.shared.atRest.outcome (.transfer (Sample.draws 3) Sample.command)) ↔
      ¬ Sample.command.LocksTwice) ∧
      (Sample.command.Classified
        ((Sample.stored "EUR").findAccount Sample.command.fromAccountId).isSome
        ((Sample.stored "EUR").perform (.transfer (Sample.draws 3) Sample.command)).1 ↔
      ¬ Sample.command.LocksTwice) := by
  have hid : (Sample.draws 3).tx.id ∉ Sample.opened.shared.issued := by
    rw [Sample.opened_issued]
    decide
  have hunused : Sample.opened.shared.db.findByKey Sample.command.idempotencyKey = none := by
    decide +kernel
  have hnew : (Sample.stored "EUR").New (.transfer (Sample.draws 3) Sample.command) := by
    show (Sample.stored "EUR").adapters.transactions (Sample.draws 3).tx.id = none
    decide +kernel
  have hstored : MemoryReachable (Sample.stored "EUR") := Sample.stored_reachable "EUR" rfl
  have h := transfer_classified_iff Sample.opened_reachable hstored hid hnew
  exact ⟨h.1 hunused, h.2 (by decide +kernel)⟩

/-- A transfer to the account itself is told that another transfer holds the lock. -/
theorem circular_transfer_conflicts :
    SystemReachable Sample.opened ∧ MemoryReachable (Sample.stored "EUR") ∧
      Sample.circular.fromAccountId = Sample.circular.toAccountId ∧
      Sample.opened.shared.db.findByKey Sample.circular.idempotencyKey = none ∧
      (Sample.opened.shared.db.findAccount Sample.circular.fromAccountId).isSome ∧
      (match Sample.opened.shared.atRest.outcome (.transfer (Sample.draws 3) Sample.circular) with
        | .error e => e.name
        | .ok _ => "") = "ConcurrencyConflictError" ∧
      ((Sample.stored "EUR").findByKey Sample.circular.idempotencyKey) = none ∧
      ((Sample.stored "EUR").findAccount Sample.circular.fromAccountId).isSome ∧
      (match ((Sample.stored "EUR").perform (.transfer (Sample.draws 3) Sample.circular)).1 with
        | .error e => e.name
        | .ok _ => "") = "ConcurrencyConflictError" :=
  ⟨Sample.opened_reachable, Sample.stored_reachable "EUR" rfl, by decide +kernel,
    by decide +kernel, by decide +kernel, by decide +kernel, by decide +kernel, by decide +kernel,
    by decide +kernel⟩

end BankingTransactions
