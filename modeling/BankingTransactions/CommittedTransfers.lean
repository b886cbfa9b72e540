import BankingTransactions.Serializability
import BankingTransactions.SerialExecution

/-!
# What is committed

Two properties of every single commit, in any interleaving. Its decision is the one
that its request takes when it runs alone on the database that was committed just
before. And the balance events that it writes describe changes that it makes,
unless the sender was debited and the receiver refused.
-/
namespace BankingTransactions
open DecimalArithmetic InteractionPrograms ThreadPools

/-! ## Decisions -/

namespace Commit.Legal

theorem new {c : Commit} (h : c.Legal) : c.request.New c.before := by
  cases hrequest : c.request with
  | create draws command =>
    obtain ⟨a, balance, ho⟩ := legal_create h hrequest
    exact ho.new
  | transfer draws command =>
    obtain ⟨_, _, _, _, _, _, _, _, hfinds, -⟩ := finds_of_legal h hrequest
    exact hfinds.new

/-- A legal commit is what its request commits when it runs alone. -/
theorem serial {c : Commit} (h : c.Legal) :
    (c.request.serial c.before).db = c.after ∧
      (c.request.serial c.before).written = [c.written] := by
  have hwritten := h.written
  have hflushed := h.flushed
  cases hrequest : c.request with
  | create draws command =>
    rw [hrequest] at hwritten
    obtain ⟨a, hopened, hw⟩ := Request.flush_create_ok.mp hwritten
    rw [hw] at hflushed
    simp only [Request.serial, CreateAccountCommand.serial, hopened, hflushed, hw, and_self]
  | transfer draws command =>
    obtain ⟨_, _, _, _, _, _, _, _, hfinds, -⟩ := finds_of_legal h hrequest
    rw [hrequest] at hwritten
    obtain ⟨amount, sender, receiver, S, hmoney, hresolve, hw⟩ :=
      Request.flush_transfer_ok.mp hwritten
    rw [hw] at hflushed
    simp only [Request.serial,
      TransferCommand.serial_settles draws hfinds.unused hmoney hfinds.distinct, hresolve,
      hflushed, hw, SerialRun.committed_db, SerialRun.committed_written, and_self]

end Commit.Legal

/-- In any interleaving, a commit makes of the database committed just before it what its
request makes of that database when it runs alone: the same balances and the same
COMPLETED or FAILED transaction. -/
theorem decisions_serializable {p : System} (h : SystemReachable p) {before after : List Commit}
    {c : Commit} (hc : p.shared.history = before ++ c :: after) :
    c.before = SerialHistory.databaseAfter .empty before ∧
      (Server.runAlone c.request (Server.quiet c.before)).2.db = c.after := by
  have hlegal := (h.legal (c := c) (by simp [hc])).1
  refine ⟨((hc ▸ h.serial).split.databaseAfter_eq).symm, ?_⟩
  have hleft := Server.runAlone_serial (Server.idle_quiet c.before) hlegal.new
  rw [hleft.ended.db]
  exact hlegal.serial.1

theorem decisions_serializable_sample :
    ∃ c₀ c₁ c, Sample.transferred.shared.history = [c₀, c₁] ++ c :: [] ∧
      c.before = SerialHistory.databaseAfter .empty [c₀, c₁] ∧
      (Server.runAlone c.request (Server.quiet c.before)).2.db = c.after := by
  have hlength : Sample.transferred.shared.history.length = 3 := by decide +kernel
  obtain ⟨c₀, c₁, c, hhistory⟩ := List.length_eq_three.mp hlength
  have hsplit : Sample.transferred.shared.history = [c₀, c₁] ++ c :: [] := hhistory
  exact ⟨c₀, c₁, c, hsplit, decisions_serializable Sample.transferred_reachable hsplit⟩

/-! ## Balance events -/

/-- The account, the change and the new balance that a balance event reports. -/
def EventBody.balanceChange : EventBody → Option (AccountId × ℚ × ℚ)
  | .balanceDebited id _ amount _ after => some (id, -amount.value, after.value)
  | .balanceCredited id _ amount _ after => some (id, amount.value, after.value)
  | _ => none

/-- The changes and new balances that the written events report of an account. -/
def Flush.balanceChanges (w : Flush) (id : AccountId) : List (ℚ × ℚ) :=
  ((w.newOutbox.filterMap (·.payload.body.balanceChange)).filter (·.1 = id)).map (·.2)

/-- The committed balance of an account. -/
def Database.value (db : Database) (id : AccountId) : Option ℚ :=
  (db.findAccount id).map fun row => row.balance.units / 10 ^ 4

/-- The events that a commit writes of an account describe what the commit does to it. -/
def Commit.DescribesChange (c : Commit) (id : AccountId) : Prop :=
  match (c.written.balanceChanges id).getLast? with
  | none => True
  | some last =>
    c.after.value id = some last.2 ∧
      c.after.value id = (c.before.value id).map fun v =>
        v + ((c.written.balanceChanges id).map (·.1)).sum

instance (c : Commit) (id : AccountId) : Decidable (c.DescribesChange id) := by
  unfold Commit.DescribesChange
  split <;> infer_instance

/-- The balance events of a commit are sound. -/
def Commit.EventsSound (c : Commit) : Prop := ∀ id, c.DescribesChange id

theorem Commit.not_eventsSound {c : Commit} {id : AccountId} (h : ¬ c.DescribesChange id) :
    ¬ c.EventsSound := fun hsound => h (hsound id)

/-- Among these rows it does not happen that the debit of a command is accepted and its
credit is refused. -/
def TransferCommand.NotHalfAccepted (command : TransferCommand) (db : Database) : Prop :=
  ∀ amount sender receiver, command.money = .ok amount →
    db.findAccount command.fromAccountId = some sender →
    db.findAccount command.toAccountId = some receiver →
    sender.AcceptsDebit amount → receiver.AcceptsCredit amount

section BalanceChanges

variable (draws : TransferDraws) (command : TransferCommand) (amount after : Money)

theorem debitMessage_change :
    (draws.debitMessage command amount after).payload.body.balanceChange =
      some (command.fromAccountId, -(amount.cents / 100 : ℚ), (after.cents / 100 : ℚ)) := by
  rw [← Money.value_amount, ← Money.value_amount]
  rfl

theorem creditMessage_change :
    (draws.creditMessage command amount after).payload.body.balanceChange =
      some (command.toAccountId, (amount.cents / 100 : ℚ), (after.cents / 100 : ℚ)) := by
  rw [← Money.value_amount, ← Money.value_amount]
  rfl

end BalanceChanges

theorem Numeric.IsCents.value {n : Numeric} {c : ℕ} (h : n.IsCents c) :
    (n.units : ℚ) / 10 ^ 4 = c / 100 := by
  rw [h]
  push_cast
  ring

/-- A completed transfer writes sound events. -/
theorem Commit.Completes.eventsSound {c : Commit} {draws : TransferDraws}
    {command : TransferCommand} {amount : Money} {sender receiver : AccountRow} {stored : Numeric}
    {debited credited : Money} {balance balance' : Numeric}
    (h : c.Completes draws command amount sender receiver stored debited credited balance
      balance') : c.EventsSound := by
  intro id
  have hne := h.distinct
  have hchanges : c.written.balanceChanges id =
      if id = command.fromAccountId then [(-(amount.cents / 100 : ℚ), (debited.cents / 100 : ℚ))]
      else if id = command.toAccountId then
        [((amount.cents / 100 : ℚ), (credited.cents / 100 : ℚ))]
      else [] := by
    simp only [Flush.balanceChanges, h.events, List.filterMap_cons, List.filterMap_nil,
      debitMessage_change, creditMessage_change, List.filter_cons, List.filter_nil]
    split_ifs <;> simp_all
  have hmoved : (sender.balance.units : ℚ) / 10 ^ 4 = debited.cents / 100 + amount.cents / 100 := by
    rw [← h.moved, h.debitedCents]
    push_cast
    ring
  have hmoved' : (credited.cents / 100 : ℚ) =
      receiver.balance.units / 10 ^ 4 + amount.cents / 100 := by
    rw [← h.creditedCents.value, h.moved']
    push_cast
    ring
  simp only [DescribesChange, hchanges, Database.value, h.accounts]
  split_ifs with hfrom hto
  · rw [hfrom, h.findsSender]
    simp [AccountRecord.changed, h.debitedCents.value, hmoved]
  · rw [hto, h.findsReceiver]
    simp [AccountRecord.changed, h.creditedCents.value, hmoved']
  · trivial

/-- A recorded failure writes sound events only when it writes none. -/
theorem Commit.Fails.eventsSound_iff {c : Commit} {draws : TransferDraws}
    {command : TransferCommand} {amount : Money} {sender receiver : AccountRow} {stored : Numeric}
    {e : Exn} (h : c.Fails draws command amount sender receiver stored e) :
    c.EventsSound ↔ ¬ sender.AcceptsDebit amount := by
  constructor
  · intro hsound hd
    obtain ⟨debited, -, hevents⟩ := h.phantom hd
    have hsender := hsound command.fromAccountId
    have hchanges : c.written.balanceChanges command.fromAccountId =
        [(-(amount.cents / 100 : ℚ), (debited.cents / 100 : ℚ))] := by
      simp [Flush.balanceChanges, hevents, debitMessage_change]
    simp only [DescribesChange, hchanges, Database.value, h.findAccount, h.findsSender] at hsender
    have hzero : (amount.cents : ℚ) = 0 := by simpa using hsender.2
    exact h.positive (by exact_mod_cast hzero)
  · intro hd id
    simp [DescribesChange, Flush.balanceChanges, h.noEvents hd]

/-- A commit of a transfer writes balance events of changes that it makes exactly when it
is not the case that the sender accepts the debit while the receiver refuses the credit. -/
theorem balance_events_sound_iff {p : System} (h : SystemReachable p) {c : Commit}
    (hc : c ∈ p.shared.history) {draws : TransferDraws} {command : TransferCommand}
    (hrequest : c.request = .transfer draws command) :
    c.EventsSound ↔ command.NotHalfAccepted c.before := by
  obtain ⟨hlegal, hwhole⟩ := h.legal hc
  obtain ⟨amount, sender, receiver, _, _, _, _, _, hcompletes⟩ |
    ⟨amount, sender, receiver, _, _, hfails⟩ := Commit.legal_transfer hlegal hwhole hrequest
  · refine iff_of_true hcompletes.eventsSound fun amount' sender' receiver' hmoney _ hreceiver _ => ?_
    obtain rfl := Except.ok.inj (hmoney.symm.trans hcompletes.money)
    obtain rfl := Option.some.inj (hreceiver.symm.trans hcompletes.findsReceiver)
    exact hcompletes.acceptsCredit
  · rw [hfails.eventsSound_iff]
    constructor
    · intro hd amount' sender' receiver' hmoney hsender _ hd'
      obtain rfl := Except.ok.inj (hmoney.symm.trans hfails.money)
      obtain rfl := Option.some.inj (hsender.symm.trans hfails.findsSender)
      exact absurd hd' hd
    · intro hhalf hd
      exact hfails.refused ⟨hd, hhalf _ _ _ hfails.money hfails.findsSender hfails.findsReceiver hd⟩

/-- The last commit of a sample state. -/
def Sample.last (p : System) (h : p.shared.history.length = 3) : Commit :=
  p.shared.history[2]

theorem Sample.last_mem (p : System) (h : p.shared.history.length = 3) :
    last p h ∈ p.shared.history := List.getElem_mem _

/-- The commit of the completed sample transfer. -/
def Sample.completion : Commit := last transferred (by decide +kernel)

/-- The commit of the failed sample transfer. -/
def Sample.failure : Commit := last failed (by decide +kernel)

theorem balance_events_sound_sample :
    Sample.completion.EventsSound ↔ Sample.command.NotHalfAccepted Sample.completion.before := by
  have hrequest : Sample.completion.request = .transfer (Sample.draws 3) Sample.command := by
    decide +kernel
  exact balance_events_sound_iff Sample.transferred_reachable (Sample.last_mem Sample.transferred _)
    hrequest

/-- The receiver has another currency: the commit records a failure, changes no balance
and announces a debit. -/
theorem phantom_debit :
    SystemReachable Sample.failed ∧ Sample.failure ∈ Sample.failed.shared.history ∧
      Sample.failure.request = .transfer (Sample.draws 3) Sample.command ∧
      Sample.failure.after.accounts = Sample.failure.before.accounts ∧
      ¬ Sample.failure.EventsSound := by
  have hphantom : ¬ Sample.failure.DescribesChange 1 := by decide +kernel
  exact ⟨Sample.failed_reachable, Sample.last_mem Sample.failed _, by decide +kernel, by decide +kernel,
    Commit.not_eventsSound hphantom⟩

end BankingTransactions
