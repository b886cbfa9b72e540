import BankingTransactions.TransactionLifecycle
import BankingTransactions.CommittedTransfers
import BankingTransactions.InMemoryStores
import BankingTransactions.Retries

/-!
# The rollback flag of a FAILED transaction

`Transaction.fail` sets the flag whenever the transaction was PROCESSING, and the service
has marked it so before the first domain call. Whether there is a debit to reverse depends
on the unit of work: SQLAlchemy never writes the debited balance of a failed transfer, and
the in-memory store keeps it when it was the credit that failed.
-/
namespace BankingTransactions
open DecimalArithmetic InteractionPrograms

namespace Transaction

/-- The transaction says that its debit must be reversed, and so does its event. -/
def AsksRollback (tx : Transaction) : Prop :=
  tx.rollbackRequired = true ∧ ∃ e ∈ tx.domainEvents, e.body.requiresRollback = true

instance (tx : Transaction) : Decidable tx.AsksRollback := by
  unfold AsksRollback
  infer_instance

/-- The balance of the sender is lower by the amount of the transaction. -/
def HasDebited (tx : Transaction) (before after : Option ℚ) : Prop :=
  before ≠ none ∧ after = before.map fun v => v - tx.amount.amount.value

/-- The flag says whether there is a debit to reverse. -/
def FlagTruthful (tx : Transaction) (before after : Option ℚ) : Prop :=
  tx.AsksRollback ↔ tx.HasDebited before after

instance (tx : Transaction) (before after : Option ℚ) :
    Decidable (tx.FlagTruthful before after) := by
  unfold FlagTruthful HasDebited
  infer_instance

theorem not_hasDebited {tx : Transaction} (h : tx.amount.cents ≠ 0) (balance : Option ℚ) :
    ¬ tx.HasDebited balance balance := by
  rintro ⟨hsome, hafter⟩
  obtain ⟨v, rfl⟩ := Option.ne_none_iff_exists'.mp hsome
  have hv : v = v - tx.amount.amount.value := Option.some.inj hafter
  rw [Money.value_amount] at hv
  have hpositive : (0 : ℚ) < tx.amount.cents := by exact_mod_cast Nat.pos_of_ne_zero h
  linarith

end Transaction

/-- The committed balance of an account in memory. -/
def MemoryStore.value (s : MemoryStore) (id : AccountId) : Option ℚ :=
  (s.findAccount id).map fun a => a.balance.amount.value

/-- A transaction that a call has saved is recorded as FAILED. -/
def Server.RecordsFailed (s : Server) (r : Request) (tx : Transaction) : Prop :=
  tx ∈ (Server.runAlone r s).1.2.heap.transactions ∧ s.db.findTransaction tx.id = none ∧
    ((s.after r).db.findTransaction tx.id).map (·.status) = some .failed

def MemoryStore.RecordsFailed (s : MemoryStore) (r : Request) (tx : Transaction) : Prop :=
  s.findTransaction tx.id = none ∧ (s.perform r).2.findTransaction tx.id = some tx ∧
    tx.status = .failed

/-- The transaction of a failed settlement asks for a rollback, whatever has failed. -/
theorem TransferDraws.failedTx_asksRollback (draws : TransferDraws) {tx : Transaction}
    (h : tx.status = .pending) (e : Exn) : (draws.failedTx e tx).AsksRollback := by
  rw [failedTx_eq h]
  refine ⟨rfl, _, List.mem_append_right _ (List.mem_singleton_self _), rfl⟩

/-! ## SQLAlchemy -/

/-- A row that was inserted is the only one that is new. -/
theorem Database.inserted_of_new {db db' : Database} {row inserted : TransactionRow}
    (h : db'.transactions = db.transactions ++ [inserted]) {id : TransactionId}
    (hbefore : db.findTransaction id = none) (hafter : db'.findTransaction id = some row) :
    row = inserted := by
  obtain ⟨hmem, rfl⟩ := findTransaction_eq_some.mp hafter
  rw [h, List.mem_append, List.mem_singleton] at hmem
  obtain hold | rfl := hmem
  · exact absurd (List.mem_map_of_mem hold) (findTransaction_eq_none.mp hbefore)
  · rfl

/-- When a call records a FAILED transaction, it has committed a failure. -/
theorem Server.RecordsFailed.commits {s : Server} (hs : s.Idle) (hwhole : s.db.Whole)
    {draws : TransferDraws} (hnew : s.db.findTransaction draws.tx.id = none)
    {command : TransferCommand} {tx : Transaction}
    (h : s.RecordsFailed (.transfer draws command) tx) :
    ∃ amount sender receiver tx₀ S db', command.Commits draws s.db amount sender receiver tx₀ S db' ∧
      ¬ (sender.AcceptsDebit amount ∧ receiver.AcceptsCredit amount) ∧ tx = S.tx ∧
      (s.after (.transfer draws command)).db = db' := by
  obtain ⟨htx, hbefore, hafter⟩ := h
  obtain ⟨row, hafter, hfailed⟩ := Option.map_eq_some_iff.mp hafter
  have hleft := Server.runAlone_serial hs (r := .transfer draws command) hnew
  rw [show (s.after (.transfer draws command)).db = _ from hleft.ended.db] at hafter ⊢
  change (command.serial draws s.db).db.findTransaction tx.id = some row at hafter
  have hunchanged {outcome : Except Exn Response}
      (h : command.serial draws s.db = .unchanged outcome s.db) : False := by
    rw [h, SerialRun.unchanged, hbefore] at hafter
    cases hafter
  cases hkey : s.db.findByKey command.idempotencyKey with
  | some row => exact (hunchanged (TransferCommand.serial_found hkey draws)).elim
  | none =>
    by_cases hsucceeds : command.Succeeds s.db
    · obtain ⟨amount, sender, receiver, hreaches, hfits, hd, hc⟩ := hsucceeds
      obtain ⟨tx₀, S, db', hcommits⟩ := hreaches.commits hwhole hfits hnew
      obtain ⟨stored, _, _, _, _, hcompletes⟩ := hcommits.completes hwhole hd hc
      rw [hcommits.serial, SerialRun.committed_db] at hafter
      have hrow := Database.inserted_of_new hcompletes.transactions hbefore hafter
      rw [hrow] at hfailed
      cases hfailed
    · by_cases hfails : command.RecordsFailure s.db
      · obtain ⟨amount, sender, receiver, hreaches, hfits, hr⟩ := hfails
        obtain ⟨tx₀, S, db', hcommits⟩ := hreaches.commits hwhole hfits hnew
        obtain ⟨e, hraised⟩ := hcommits.refused hr
        have hobjects := hleft.objects (by
          change (command.serial draws s.db).written ≠ []
          rw [hcommits.serial, SerialRun.committed_written]
          exact List.cons_ne_nil _ _)
        change _ = (command.serial draws s.db).objects at hobjects
        rw [hobjects, hcommits.serial, SerialRun.committed, hraised] at htx
        simp only [Settlement.heap, hraised, reduceCtorEq, if_false, List.mem_singleton] at htx
        refine ⟨amount, sender, receiver, tx₀, S, db', hcommits, hr, htx, ?_⟩
        change (command.serial draws s.db).db = db'
        rw [hcommits.serial, SerialRun.committed_db]
      · obtain ⟨e, hrefused⟩ := TransferCommand.serial_refused hwhole hkey hsucceeds hfails
        exact (hunchanged (hrefused draws hnew)).elim

/-- The transaction of a refused settlement. -/
theorem TransferCommand.Commits.failed_tx {command : TransferCommand} {draws : TransferDraws}
    {db db' : Database} {amount : Money} {sender receiver : AccountRow} {tx : Transaction}
    {S : Settlement} (h : command.Commits draws db amount sender receiver tx S db')
    (hr : ¬ (sender.AcceptsDebit amount ∧ receiver.AcceptsCredit amount)) :
    ∃ e, S.tx = draws.failedTx e tx := by
  obtain ⟨e, hraised⟩ := h.refused hr
  obtain ⟨cs, cr, hcs, hcr, rfl⟩ := h.settled
  obtain ⟨hnone, -⟩ | ⟨e', -, htx⟩ := draws.settle_tx_cases amount (sender.account cs hcs)
    (receiver.account cr hcr) tx
  · rw [hnone] at hraised
    cases hraised
  · exact ⟨e', htx⟩

/-- The flag of a FAILED transaction is never truthful: the sender keeps its balance. -/
theorem Server.flag_not_truthful {s : Server} (hs : s.Idle) (hwhole : s.db.Whole)
    {draws : TransferDraws} (hnew : s.db.findTransaction draws.tx.id = none)
    {command : TransferCommand} {tx : Transaction}
    (h : s.RecordsFailed (.transfer draws command) tx) :
    ¬ tx.FlagTruthful (s.db.value command.fromAccountId)
      ((s.after (.transfer draws command)).db.value command.fromAccountId) := by
  obtain ⟨amount, sender, receiver, tx₀, S, db', hcommits, hr, rfl, hdb⟩ :=
    h.commits hs hwhole hnew
  obtain ⟨e, htx⟩ := hcommits.failed_tx hr
  obtain ⟨stored, e', hfails⟩ := hcommits.fails hwhole hr
  have haccounts : db'.accounts = s.db.accounts := hfails.accounts
  have hvalue : db'.value command.fromAccountId = s.db.value command.fromAccountId := by
    simp only [Database.value, Database.findAccount, haccounts]
  obtain ⟨hpositive, -, htx₀⟩ := Transaction.initiate_ok hcommits.initiated
  have hamount : S.tx.amount.cents ≠ 0 := by
    rw [htx, TransferDraws.failedTx_eq hcommits.status, TransferDraws.processed_eq hcommits.status,
      htx₀]
    exact hpositive
  rw [hdb, hvalue]
  intro htruthful
  have hasks : S.tx.AsksRollback := by
    rw [htx]
    exact draws.failedTx_asksRollback hcommits.status e
  exact Transaction.not_hasDebited hamount _ (htruthful.mp hasks)

/-! ## In memory -/

/-- The settlement that a transfer stores is that of its command. -/
theorem TransferCommand.inMemory_settles {command : TransferCommand} {draws : TransferDraws}
    {s : MemoryStore} {S : Settlement} (h : (command.inMemory draws s).2 = some S) :
    ∃ amount, command.money = .ok amount ∧ command.fromAccountId ≠ command.toAccountId ∧
      command.settlement draws amount s.findAccount = .ok S := by
  unfold inMemory at h
  split at h
  · cases h
  · split at h
    · cases h
    · rename_i amount hmoney
      split_ifs at h with hsame
      split at h
      · cases h
      · rename_i S' hS
        split at h
        · obtain rfl := Option.some.inj h
          exact ⟨amount, hmoney, hsame, hS⟩
        · obtain rfl := Option.some.inj h
          exact ⟨amount, hmoney, hsame, hS⟩

/-- The stored sender accepts the debit of the command. -/
def TransferCommand.DebitAccepted (command : TransferCommand) (s : MemoryStore) : Prop :=
  ∃ sender amount, s.findAccount command.fromAccountId = some sender ∧
    command.money = .ok amount ∧ sender.CanDebit amount

/-- When a call records a FAILED transaction, a settlement that has raised is stored. -/
theorem MemoryStore.RecordsFailed.settles {s : MemoryStore} (hs : s.Consistent)
    {draws : TransferDraws} {command : TransferCommand} (hnew : s.New (.transfer draws command))
    {tx : Transaction} (h : s.RecordsFailed (.transfer draws command) tx) :
    ∃ amount sender receiver tx₀ e, command.money = .ok amount ∧ amount.cents ≠ 0 ∧
      s.findAccount command.fromAccountId = some sender ∧
      tx₀.status = .pending ∧ tx₀.amount = amount ∧
      (draws.settle amount sender receiver tx₀).raised = some e ∧ tx = draws.failedTx e tx₀ ∧
      (s.perform (.transfer draws command)).2.findAccount command.fromAccountId =
        some (draws.settle amount sender receiver tx₀).sender := by
  obtain ⟨hbefore, hafter, hfailed⟩ := h
  have hstore := (MemoryStore.perform_transfer hs hnew command).store
  cases hS : (command.inMemory draws s).2 with
  | none =>
    simp only [hS] at hstore
    rw [hstore.transactions, hbefore] at hafter
    cases hafter
  | some S =>
    simp only [hS] at hstore
    obtain ⟨amount, hmoney, -, hsettlement⟩ := TransferCommand.inMemory_settles hS
    obtain ⟨sender, receiver, tx₀, hfrom, -, htx₀, rfl⟩ :=
      TransferCommand.settlement_eq_ok hsettlement
    obtain ⟨hpositive, -, htx⟩ := Transaction.initiate_ok htx₀
    have hpending : tx₀.status = .pending := by
      rw [htx]
      rfl
    have hamount : tx₀.amount = amount := by
      rw [htx]
      rfl
    rw [hstore.transactions] at hafter
    split_ifs at hafter with hid
    · obtain rfl := Option.some.inj hafter
      have haccount := hstore.accounts command.fromAccountId
      rw [if_pos rfl] at haccount
      obtain ⟨hraised, hS⟩ | ⟨e, hraised, hS⟩ := draws.settle_tx_cases amount sender receiver tx₀
      · rw [Settlement.storedTx, if_pos hraised, hS, TransferDraws.completedTx_eq hpending] at hfailed
        cases hfailed
      · have hne : (draws.settle amount sender receiver tx₀).raised ≠ none := by simp [hraised]
        rw [Settlement.storedSender, if_neg hne] at haccount
        rw [Settlement.storedTx, if_neg hne]
        exact ⟨amount, sender, receiver, tx₀, e, hmoney, hpositive, hfrom, hpending, hamount,
          hraised, hS, haccount⟩
    · rw [hbefore] at hafter
      cases hafter

/-- In memory the flag is truthful exactly when the debit was accepted. -/
theorem MemoryStore.flagTruthful_iff {s : MemoryStore} (hs : s.Consistent)
    {draws : TransferDraws} {command : TransferCommand} (hnew : s.New (.transfer draws command))
    {tx : Transaction} (h : s.RecordsFailed (.transfer draws command) tx) :
    tx.FlagTruthful (s.value command.fromAccountId)
        ((s.perform (.transfer draws command)).2.value command.fromAccountId) ↔
      command.DebitAccepted s := by
  obtain ⟨amount, sender, receiver, tx₀, e, hmoney, hpositive, hfrom, hpending, hamount, hraised,
    rfl, hafter⟩ := h.settles hs hnew
  have hasks := draws.failedTx_asksRollback hpending e
  have htx : (draws.failedTx e tx₀).amount = amount := by
    rw [TransferDraws.failedTx_eq hpending, TransferDraws.processed_eq hpending]
    exact hamount
  have hbefore : s.value command.fromAccountId = some sender.balance.amount.value := by
    rw [MemoryStore.value, hfrom]
    rfl
  rw [Transaction.FlagTruthful, iff_true_left hasks, hbefore, MemoryStore.value, hafter]
  by_cases hd : sender.CanDebit amount
  · refine iff_of_true ?_ ⟨sender, amount, hfrom, hmoney, hd⟩
    have hc : ¬ receiver.CanCredit amount := by
      intro hc
      obtain ⟨_, _, -, -, -, -, hS⟩ := draws.settle_of_accepted tx₀ hd hc
      rw [hS] at hraised
      cases hraised
    obtain ⟨_, bs, -, -, hbs, hS⟩ := draws.settle_of_not_canCredit tx₀ hd hc
    have hdebited : bs.amount.value = sender.balance.amount.value - amount.amount.value := by
      rw [Money.value_amount, Money.value_amount, Money.value_amount, ← hbs]
      push_cast
      ring
    refine ⟨nofun, ?_⟩
    rw [hS, htx]
    exact congrArg some hdebited
  · refine iff_of_false ?_ ?_
    · obtain ⟨_, -, hS⟩ := draws.settle_of_not_canDebit receiver tx₀ hd
      rw [hS]
      refine Transaction.not_hasDebited ?_ _
      rw [htx]
      exact hpositive
    · rintro ⟨sender', amount', hfrom', hmoney', hd'⟩
      obtain rfl := Option.some.inj (hfrom.symm.trans hfrom')
      obtain rfl := Except.ok.inj (hmoney.symm.trans hmoney')
      exact hd hd'

/-- When a call records a FAILED transaction, its flag is never truthful over SQLAlchemy, and in
memory exactly when the sender has accepted the debit. -/
theorem rollback_flag_truthful_iff {p : System} (h : SystemReachable p) {s : MemoryStore}
    (hs : MemoryReachable s) {draws : TransferDraws} (hid : draws.tx.id ∉ p.shared.issued)
    {command : TransferCommand} (hnew : s.New (.transfer draws command)) :
    (∀ tx, p.shared.atRest.RecordsFailed (.transfer draws command) tx →
      ¬ tx.FlagTruthful (p.shared.db.value command.fromAccountId)
        ((p.shared.atRest.after (.transfer draws command)).db.value command.fromAccountId)) ∧
    (∀ tx, s.RecordsFailed (.transfer draws command) tx →
      (tx.FlagTruthful (s.value command.fromAccountId)
          ((s.perform (.transfer draws command)).2.value command.fromAccountId) ↔
        command.DebitAccepted s)) :=
  ⟨fun _ hfailed => Server.flag_not_truthful p.shared.atRest_idle h.whole (h.unused hid).2 hfailed,
    fun _ hfailed => MemoryStore.flagTruthful_iff hs.consistent hnew hfailed⟩

theorem rollback_flag_truthful_sample :
    (∃ tx ∈ (Server.runAlone (.transfer (Sample.draws 3) Sample.command)
        Sample.openedAbroad.shared.atRest).1.2.heap.transactions,
      ¬ tx.FlagTruthful (Sample.openedAbroad.shared.db.value 1) ((Sample.openedAbroad.shared.atRest.after
        (.transfer (Sample.draws 3) Sample.command)).db.value 1)) ∧
      ∃ tx ∈ ((Sample.stored "USD").perform
          (.transfer (Sample.draws 3) Sample.command)).2.heap.transactions,
        (tx.FlagTruthful ((Sample.stored "USD").value 1) (((Sample.stored "USD").perform
            (.transfer (Sample.draws 3) Sample.command)).2.value 1) ↔
          Sample.command.DebitAccepted (Sample.stored "USD")) := by
  have hid : (Sample.draws 3).tx.id ∉ Sample.openedAbroad.shared.issued := by
    rw [Sample.openedAbroad_issued]
    decide
  have hstored : MemoryReachable (Sample.stored "USD") := Sample.stored_reachable "USD" rfl
  have hnew : (Sample.stored "USD").New (.transfer (Sample.draws 3) Sample.command) := by
    show (Sample.stored "USD").adapters.transactions (Sample.draws 3).tx.id = none
    decide +kernel
  have h := rollback_flag_truthful_iff Sample.openedAbroad_reachable hstored hid hnew
  have hsql : ∃ tx ∈ (Server.runAlone (.transfer (Sample.draws 3) Sample.command)
        Sample.openedAbroad.shared.atRest).1.2.heap.transactions,
      Sample.openedAbroad.shared.atRest.db.findTransaction tx.id = none ∧
        ((Sample.openedAbroad.shared.atRest.after (.transfer (Sample.draws 3)
          Sample.command)).db.findTransaction tx.id).map (·.status) = some .failed := by
    decide +kernel
  have hmemory : ∃ tx ∈ ((Sample.stored "USD").perform
        (.transfer (Sample.draws 3) Sample.command)).2.heap.transactions,
      (Sample.stored "USD").findTransaction tx.id = none ∧
        ((Sample.stored "USD").perform
          (.transfer (Sample.draws 3) Sample.command)).2.findTransaction tx.id = some tx ∧
        tx.status = .failed := by
    decide +kernel
  obtain ⟨tx, htx, hfailed⟩ := hsql
  obtain ⟨tx', htx', hfailed'⟩ := hmemory
  exact ⟨⟨tx, htx, h.1 tx ⟨htx, hfailed⟩⟩, tx', htx', h.2 tx' hfailed'⟩

/-- A transfer of more than the account 1 holds. -/
def Sample.excessive : TransferCommand := { command with amount := .finite false 500 0 }

/-- The flag is set although the sender has kept its balance. -/
theorem undue_rollback_flags :
    SystemReachable Sample.openedAbroad ∧
      (∃ tx ∈ (Server.runAlone (.transfer (Sample.draws 3) Sample.command)
          Sample.openedAbroad.shared.atRest).1.2.heap.transactions,
        Sample.openedAbroad.shared.atRest.RecordsFailed
            (.transfer (Sample.draws 3) Sample.command) tx ∧
          tx.AsksRollback ∧
          Sample.openedAbroad.shared.db.value 1 = some 100 ∧
          (Sample.openedAbroad.shared.atRest.after
            (.transfer (Sample.draws 3) Sample.command)).db.value 1 = some 100) ∧
      MemoryReachable (Sample.stored "EUR") ∧
      ∃ tx ∈ ((Sample.stored "EUR").perform
          (.transfer (Sample.draws 3) Sample.excessive)).2.heap.transactions,
        (Sample.stored "EUR").RecordsFailed (.transfer (Sample.draws 3) Sample.excessive) tx ∧
          tx.AsksRollback ∧
          (Sample.stored "EUR").value 1 = some 100 ∧
          ((Sample.stored "EUR").perform
            (.transfer (Sample.draws 3) Sample.excessive)).2.value 1 = some 100 := by
  refine ⟨Sample.openedAbroad_reachable, ?_, Sample.stored_reachable "EUR" rfl, ?_⟩
  · unfold Server.RecordsFailed
    decide +kernel
  · unfold MemoryStore.RecordsFailed
    decide +kernel

end BankingTransactions
