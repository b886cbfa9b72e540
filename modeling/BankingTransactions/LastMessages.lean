import BankingTransactions.OutboxLedger

/-!
# The balances that the outbox reports

A balance event carries the balance after it, so that a reader may keep only the last message of
each account. Such a reader knows the balance of an account unless the last transaction that
the outbox tells of it is one that the receiver has refused. Then it falls short by the amount.
-/
namespace BankingTransactions
open DecimalArithmetic ThreadPools DoubleEntry

/-! ## Last messages -/

/-- The new balance of the account that the message reports. -/
def OutboxMessage.balanceAfter (m : OutboxMessage) (id : AccountId) : Option ℚ :=
  match m.payload.body.balanceChange with
  | none => none
  | some (accountId, _, after) => if accountId = id then some after else none

/-- The outbox tells of the account what the row has left there. -/
def TransactionRecord.Concerns (row : TransactionRow) (db : Database) (id : AccountId) : Prop :=
  row.status = .completed ∧ (row.fromAccountId = id ∨ row.toAccountId = id) ∨
    row.Refused db ∧ row.fromAccountId = id

instance (row : TransactionRow) (db : Database) (id : AccountId) :
    Decidable (row.Concerns db id) := by
  unfold TransactionRecord.Concerns
  infer_instance

/-- The amount that the receiver has refused. -/
def TransactionRecord.withheld (row : TransactionRow) (db : Database) : ℤ :=
  if row.Refused db then row.amount.units else 0

namespace Database

variable {db db' : Database} {id : AccountId}

/-- The last balance of the account that the outbox reports. -/
def lastReported (db : Database) (id : AccountId) : Option ℚ :=
  db.outbox.reverse.findSome? (·.balanceAfter id)

/-- The last transaction that the outbox tells of the account. -/
def lastTold (db : Database) (id : AccountId) : Option TransactionRow :=
  db.transactions.reverse.find? fun row => row.Concerns db id

theorem lastReported_append (id : AccountId) {part : List OutboxMessage}
    (h : db'.outbox = db.outbox ++ part) : db'.lastReported id =
      (part.reverse.findSome? (·.balanceAfter id)).or (db.lastReported id) := by
  simp [lastReported, h]

theorem lastTold_append (id : AccountId) {rows : List TransactionRow}
    (h : db'.transactions = db.transactions ++ rows)
    (hkept : ∀ row ∈ db.transactions, (row.Refused db' ↔ row.Refused db)) :
    db'.lastTold id =
      (rows.reverse.find? fun row => row.Concerns db' id).or (db.lastTold id) := by
  have hsame : (db.transactions.reverse.find? fun row => row.Concerns db' id) = db.lastTold id := by
    apply List.find?_congr
    intro row hrow
    rw [decide_eq_decide]
    simp only [TransactionRecord.Concerns, hkept row (List.mem_reverse.mp hrow)]
  rw [lastTold, h, List.reverse_append, List.find?_append, hsame]

theorem mem_of_lastTold {tx : TransactionRow} (h : db.lastTold id = some tx) :
    tx ∈ db.transactions := List.mem_reverse.mp (List.mem_of_find?_eq_some h)

/-- The last message reports the balance of the account, less what was refused. Before the first
one, the account has its opening balance. -/
def ShowsLast (db : Database) (history : List Commit) (id : AccountId) : Prop :=
  match db.lastTold id with
  | none => db.lastReported id = none ∧ db.balance id = openingBalance history id
  | some tx => ∃ units : ℤ, db.balance id = some units ∧
      db.lastReported id = some ((units - tx.withheld db : ℤ) / 10 ^ 4 : ℚ)

/-- Nothing is told of an account that does not exist. -/
theorem ShowsLast.unheard {history : List Commit} (h : db.ShowsLast history id)
    (hnone : db.findAccount id = none) : db.lastTold id = none ∧ db.lastReported id = none := by
  have hbalance : db.balance id = none := by simp [balance, hnone]
  unfold ShowsLast at h
  cases htold : db.lastTold id with
  | none =>
    rw [htold] at h
    exact ⟨rfl, h.1⟩
  | some tx =>
    rw [htold] at h
    obtain ⟨units, hunits, -⟩ := h
    rw [hbalance] at hunits
    cases hunits

theorem ShowsLast.keep {history history' : List Commit} (h : db.ShowsLast history id)
    (htold : db'.lastTold id = db.lastTold id)
    (hreported : db'.lastReported id = db.lastReported id)
    (hkept : ∀ row ∈ db.transactions, (row.Refused db' ↔ row.Refused db))
    (hbalance : db'.balance id = db.balance id)
    (hopening : openingBalance history' id = openingBalance history id) :
    db'.ShowsLast history' id := by
  unfold ShowsLast at h ⊢
  rw [htold, hreported, hbalance, hopening]
  cases hlast : db.lastTold id with
  | none =>
    rw [hlast] at h
    exact h
  | some tx =>
    rw [hlast] at h
    simpa only [TransactionRecord.withheld, hkept tx (mem_of_lastTold hlast)] using h

end Database

/-! ## One commit -/

section

variable (draws : TransferDraws) (command : TransferCommand) (amount after : Money)
  (id : AccountId)

theorem debitMessage_balanceAfter :
    (draws.debitMessage command amount after).balanceAfter id =
      if command.fromAccountId = id then some (after.cents / 100 : ℚ) else none := by
  simp only [OutboxMessage.balanceAfter, debitMessage_change]

theorem creditMessage_balanceAfter :
    (draws.creditMessage command amount after).balanceAfter id =
      if command.toAccountId = id then some (after.cents / 100 : ℚ) else none := by
  simp only [OutboxMessage.balanceAfter, creditMessage_change]

end

namespace Commit

variable {c : Commit} {history : List Commit} {id : AccountId}

/-- A new account has its opening balance. -/
theorem Opens.showsLast {draws : AccountDraws} {command : CreateAccountCommand} {a : Account}
    {balance : Numeric} (h : c.Opens draws command a balance)
    (hbook : (book history c.before).Reconciled) (hkept : ∀ row ∈ c.before.transactions,
      (row.Refused c.after ↔ row.Refused c.before))
    (houtbox : c.after.outbox = c.before.outbox ++ c.written.newOutbox)
    (hshows : c.before.ShowsLast history id) : c.after.ShowsLast (history ++ [c]) id := by
  have htold : c.after.lastTold id = c.before.lastTold id := by
    have hrows : c.after.transactions = c.before.transactions ++ [] := by simp [h.transactions]
    rw [Database.lastTold_append id hrows hkept, List.reverse_nil, List.find?_nil, Option.none_or]
  have hreported : c.after.lastReported id = c.before.lastReported id := by
    rw [Database.lastReported_append id houtbox, h.events, List.reverse_nil, List.findSome?_nil,
      Option.none_or]
  have hopening : c.opening id =
      if id = draws.id then some (100 * (a.balance.cents : ℤ)) else none := by
    simp [Commit.opening, h.request, h.opened]
  by_cases hid : id = draws.id
  · have hnew : c.before.findAccount id = none := hid ▸ h.new
    have hnone : openingBalance history id = none := (opening_eq_none hbook id).mpr hnew
    obtain ⟨hunheard, hsilent⟩ := hshows.unheard hnew
    have hcents : balance.units = 100 * a.balance.cents := h.cents
    rw [Database.ShowsLast, htold, hunheard]
    refine ⟨hreported.trans hsilent, ?_⟩
    rw [openingBalance_snoc, hnone, hopening, Database.balance, h.accounts]
    simp [hid, AccountRecord.withBalance, hcents]
  · apply hshows.keep htold hreported hkept
    · simp [Database.balance, h.accounts, hid]
    · simp [openingBalance_snoc, hopening, hid]

/-- The messages of a completed transfer report the new balances. -/
theorem Completes.showsLast {draws : TransferDraws} {command : TransferCommand} {amount : Money}
    {sender receiver : AccountRow} {stored : Numeric} {debited credited : Money}
    {balance balance' : Numeric}
    (h : c.Completes draws command amount sender receiver stored debited credited balance balance')
    (hkept : ∀ row ∈ c.before.transactions, (row.Refused c.after ↔ row.Refused c.before))
    (houtbox : c.after.outbox = c.before.outbox ++ c.written.newOutbox)
    (hshows : c.before.ShowsLast history id) : c.after.ShowsLast (history ++ [c]) id := by
  have hstatus : (command.completedRow draws amount stored).status = .completed := rfl
  have hnot : ¬ (command.completedRow draws amount stored).Refused c.after := by
    intro hrefused
    have hfailed := hrefused.1
    rw [hstatus] at hfailed
    cases hfailed
  have hconcerns : (command.completedRow draws amount stored).Concerns c.after id ↔
      command.fromAccountId = id ∨ command.toAccountId = id := by
    simp only [TransactionRecord.Concerns, hstatus, hnot, true_and, false_and, or_false]
    exact Iff.rfl
  have htold := Database.lastTold_append id h.transactions hkept
  have hreported := Database.lastReported_append id houtbox
  simp only [h.events, List.reverse_cons, List.reverse_nil, List.nil_append, List.cons_append,
    List.findSome?_cons, List.findSome?_nil, debitMessage_balanceAfter, creditMessage_balanceAfter]
    at hreported
  simp only [List.reverse_cons, List.reverse_nil, List.nil_append, List.find?_cons, List.find?_nil,
    hconcerns] at htold
  by_cases hparty : command.fromAccountId = id ∨ command.toAccountId = id
  · simp only [hparty, decide_true, Option.some_or] at htold
    rw [Database.ShowsLast, htold]
    simp only [TransactionRecord.withheld, if_neg hnot, sub_zero]
    obtain rfl | rfl := hparty
    · refine ⟨balance.units, by simp [Database.balance, h.accounts, AccountRecord.changed], ?_⟩
      rw [hreported, h.debitedCents.value]
      simp [h.distinct.symm]
    · refine ⟨balance'.units, ?_, ?_⟩
      · simp [Database.balance, h.accounts, h.distinct.symm, AccountRecord.changed]
      · rw [hreported, h.creditedCents.value]
        simp
  · have hfrom : command.fromAccountId ≠ id := fun hfrom => hparty (.inl hfrom)
    have hto : command.toAccountId ≠ id := fun hto => hparty (.inr hto)
    simp only [hparty, decide_false, Option.none_or] at htold
    simp only [hfrom, hto, if_false, Option.none_or] at hreported
    apply hshows.keep htold hreported hkept
    · simp [Database.balance, h.accounts, hfrom.symm, hto.symm]
    · rw [h.opening history]

/-- The message of a refused transfer reports what the sender would have kept. -/
theorem Fails.showsLast {draws : TransferDraws} {command : TransferCommand} {amount : Money}
    {sender receiver : AccountRow} {stored : Numeric} {e : Exn}
    (h : c.Fails draws command amount sender receiver stored e) (hlegal : c.Legal)
    (hwhole : c.before.Whole)
    (hbefore : ∀ id row, c.before.findAccount id = some row → row.WellFormed)
    (hkept : ∀ row ∈ c.before.transactions, (row.Refused c.after ↔ row.Refused c.before))
    (hshows : c.before.ShowsLast history id) : c.after.ShowsLast (history ++ [c]) id := by
  have hrefused := h.refused_iff hlegal hwhole hbefore
  have hstatus : (command.failedRow draws amount stored e).status ≠ .completed := by
    change TransactionStatus.failed ≠ .completed
    decide
  have hconcerns : (command.failedRow draws amount stored e).Concerns c.after id ↔
      sender.AcceptsDebit amount ∧ command.fromAccountId = id := by
    simp only [TransactionRecord.Concerns, hstatus, hrefused, false_and, false_or]
    exact Iff.rfl
  have hbalance : c.after.balance id = c.before.balance id := by
    simp [Database.balance, h.findAccount]
  have hopening : openingBalance (history ++ [c]) id = openingBalance history id := by
    rw [h.opening history]
  have htold := Database.lastTold_append id h.transactions hkept
  simp only [List.reverse_cons, List.reverse_nil, List.nil_append, List.find?_cons, List.find?_nil,
    hconcerns] at htold
  have hreported := Database.lastReported_append id (Database.flush_outbox hlegal.flushed)
  by_cases hdebit : sender.AcceptsDebit amount
  · obtain ⟨debited, hmoved, hevents⟩ := h.phantom hdebit
    simp only [hevents, List.reverse_cons, List.reverse_nil, List.nil_append,
      List.findSome?_cons, List.findSome?_nil, debitMessage_balanceAfter] at hreported
    by_cases hfrom : command.fromAccountId = id
    · subst hfrom
      simp only [hdebit, true_and, decide_true, Option.some_or] at htold
      rw [Database.ShowsLast, htold]
      refine ⟨sender.balance.units, ?_, ?_⟩
      · rw [hbalance, Database.balance, h.findsSender]
        rfl
      · have hcents : stored.units = 100 * amount.cents := h.cents
        have hunits : (command.failedRow draws amount stored e).amount.units =
            100 * amount.cents := hcents
        rw [hreported, TransactionRecord.withheld, if_pos (hrefused.mpr hdebit), hunits, ← hmoved]
        simp only [if_true, Option.some_or, Option.some.injEq]
        push_cast
        ring
    · simp only [hfrom, and_false, decide_false, Option.none_or] at htold
      simp only [hfrom, if_false, Option.none_or] at hreported
      exact hshows.keep htold hreported hkept hbalance hopening
  · simp only [hdebit, false_and, decide_false, Option.none_or] at htold
    simp only [h.noEvents hdebit, List.reverse_nil, List.findSome?_nil, Option.none_or] at hreported
    exact hshows.keep htold hreported hkept hbalance hopening

end Commit

/-! ## Any history -/

theorem SerialHistory.showsLast {db : Database} {history : List Commit}
    (h : SerialHistory .empty history db) (id : AccountId) : db.ShowsLast history id := by
  induction h with
  | nil => exact ⟨rfl, rfl⟩
  | @snoc history c hbefore hc ih =>
    have hwhole := hbefore.whole Database.whole_empty
    have houtbox := Database.flush_outbox hc.flushed
    have hkept : ∀ row ∈ c.before.transactions, (row.Refused c.after ↔ row.Refused c.before) := by
      intro row hrow
      obtain ⟨sender, -, hsender, -⟩ := (hbefore.wellFormed row hrow).accounts
      exact TransactionRecord.refused_of_keepsAccounts (hc.keepsAccounts hwhole) hsender
    cases hc.cases hwhole with
    | opened ho => exact ho.showsLast hbefore.reconciled hkept houtbox ih
    | completed hcompletes => exact hcompletes.showsLast hkept houtbox ih
    | failed hf => exact hf.showsLast hc hwhole hbefore.accounts_wellFormed hkept ih

/-- In every reachable state, an account of which the outbox tells nothing has its opening balance.
Of any other account the last message reports the balance, or falls short by the amount of the
transaction if the receiver has refused it. -/
theorem outbox_last_balance {p : System} (h : SystemReachable p) :
    ∀ row ∈ p.shared.db.accounts,
      (p.shared.db.lastReported row.id = none →
        openingBalance p.shared.history row.id = some row.balance.units) ∧
      ∀ reported, p.shared.db.lastReported row.id = some reported →
        ∃ tx, p.shared.db.lastTold row.id = some tx ∧
          (row.balance.units / 10 ^ 4 : ℚ) = reported + tx.withheld p.shared.db / 10 ^ 4 ∧
          ((row.balance.units / 10 ^ 4 : ℚ) = reported ↔ ¬ tx.Refused p.shared.db) := by
  intro row hrow
  have hbalance : p.shared.db.balance row.id = some row.balance.units := by
    rw [Database.balance, Database.findAccount_eq_some.mpr ⟨hrow, rfl⟩, Option.map_some]
  have hshows := h.serial.showsLast row.id
  unfold Database.ShowsLast at hshows
  cases htold : p.shared.db.lastTold row.id with
  | none =>
    rw [htold, hbalance] at hshows
    obtain ⟨hnone, hopening⟩ := hshows
    refine ⟨fun _ => hopening.symm, fun reported hreported => ?_⟩
    rw [hnone] at hreported
    cases hreported
  | some tx =>
    rw [htold] at hshows
    obtain ⟨units, hunits, hlast⟩ := hshows
    obtain rfl := Option.some.inj (hunits.symm.trans hbalance)
    refine ⟨fun hnone => ?_, fun reported hreported => ⟨tx, rfl, ?_⟩⟩
    · rw [hlast] at hnone
      cases hnone
    · obtain rfl := Option.some.inj (hlast.symm.trans hreported)
      have hpos := (h.serial.wellFormed tx (Database.mem_of_lastTold htold)).amount_pos
      have hwithheld : tx.withheld p.shared.db = 0 ↔ ¬ tx.Refused p.shared.db := by
        unfold TransactionRecord.withheld
        split_ifs with hrefused
        · simp [hrefused, hpos.ne']
        · simp [hrefused]
      rw [← hwithheld]
      push_cast
      constructor
      · ring
      · constructor
        · intro heq
          have hzero : (tx.withheld p.shared.db : ℚ) = 0 := by linarith
          exact_mod_cast hzero
        · intro hzero
          simp [hzero]

/-- The last message about the sender of a refused transfer reports what it would have kept. -/
theorem outbox_last_balance_sample :
    Sample.failed.shared.db.lastReported 1 = some 70 ∧
    ∀ row ∈ Sample.failed.shared.db.accounts,
      (Sample.failed.shared.db.lastReported row.id = none →
        openingBalance Sample.failed.shared.history row.id = some row.balance.units) ∧
      ∀ reported, Sample.failed.shared.db.lastReported row.id = some reported →
        ∃ tx, Sample.failed.shared.db.lastTold row.id = some tx ∧
          (row.balance.units / 10 ^ 4 : ℚ) =
            reported + tx.withheld Sample.failed.shared.db / 10 ^ 4 ∧
          ((row.balance.units / 10 ^ 4 : ℚ) = reported ↔ ¬ tx.Refused Sample.failed.shared.db) :=
  ⟨by decide +kernel, outbox_last_balance Sample.failed_reachable⟩

end BankingTransactions
