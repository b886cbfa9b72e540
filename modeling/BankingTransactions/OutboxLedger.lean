import BankingTransactions.AccountTable
import BankingTransactions.CommittedTransfers
import BankingTransactions.Reconciliation

/-!
# The outbox as a ledger

The outbox tells the transactions table, row after row: the debit and the credit of a completed
transfer, the debit alone when the sender was debited and the receiver has refused the amount, and
nothing of any other failure. So a ledger that is replayed from the outbox falls short of the
committed balances by what receivers have refused.
-/
namespace BankingTransactions
open DecimalArithmetic InteractionPrograms ThreadPools DoubleEntry

/-! ## Logs of a table -/

section Told

variable {ρ μ : Type} {tells tells' : ρ → List μ → Prop} {rows : List ρ} {log : List μ}

/-- Every row of a table has its part in a log, in the order of the rows. -/
inductive Told (tells : ρ → List μ → Prop) : List ρ → List μ → Prop
  | nil : Told tells [] []
  | snoc {rows : List ρ} {log : List μ} {row : ρ} {part : List μ} :
      Told tells rows log → tells row part → Told tells (rows ++ [row]) (log ++ part)

theorem Told.mono (h : Told tells rows log)
    (hmono : ∀ row ∈ rows, ∀ part, tells row part → tells' row part) : Told tells' rows log := by
  induction h with
  | nil => exact .nil
  | snoc _ hpart ih =>
    apply Told.snoc
    · exact ih fun row hrow => hmono row (List.mem_append_left _ hrow)
    · exact hmono _ (by simp) _ hpart

/-- What is summed up over the log is the sum of what the rows tell. -/
theorem Told.sum {M : Type} [AddMonoid M] (h : Told tells rows log) {f : μ → M} {g : ρ → M}
    (hg : ∀ row part, tells row part → (part.map f).sum = g row) :
    (log.map f).sum = (rows.map g).sum := by
  induction h with
  | nil => rfl
  | snoc _ hpart ih => simp [ih, hg _ _ hpart]

end Told

/-! ## What a row has left in the outbox -/

namespace TransactionRecord

variable (row : TransactionRow)

/-- The message is the debit of the transfer. -/
def AnnouncesDebit (m : OutboxMessage) : Prop :=
  ∃ (stamp : Stamp) (amount after : Money), row.amount.IsCents amount.cents ∧
    row.currency = amount.currency ∧
    m = .ofEvent (stamp.event (.balanceDebited row.fromAccountId row.id amount.amount
      amount.currency.value after.amount))

/-- The message is the credit of the transfer. -/
def AnnouncesCredit (m : OutboxMessage) : Prop :=
  ∃ (stamp : Stamp) (amount after : Money), row.amount.IsCents amount.cents ∧
    row.currency = amount.currency ∧
    m = .ofEvent (stamp.event (.balanceCredited row.toAccountId row.id amount.amount
      amount.currency.value after.amount))

/-- The receiver has refused what the sender was already debited with: the transfer has failed
for a difference of currencies, and the currency of the sender is that of the transfer. -/
def Refused (db : Database) : Prop :=
  row.status = .failed ∧ row.failureCode = some "CURRENCYMISMATCH" ∧
    (db.findAccount row.fromAccountId).map (·.currency) = some row.currency

instance (db : Database) : Decidable (row.Refused db) := by
  unfold Refused
  infer_instance

/-- What the outbox tells of the row. -/
def Announces (db : Database) (part : List OutboxMessage) : Prop :=
  if row.status = .completed then
    ∃ m m', part = [m, m'] ∧ row.AnnouncesDebit m ∧ row.AnnouncesCredit m'
  else if row.Refused db then ∃ m, part = [m] ∧ row.AnnouncesDebit m
  else part = []

/-- A refusal stays one as long as the account of the sender is kept. -/
theorem refused_of_keepsAccounts {row : TransactionRow} {db db' : Database}
    (h : db.KeepsAccounts db') {sender : AccountRow}
    (hsender : db.findAccount row.fromAccountId = some sender) :
    row.Refused db' ↔ row.Refused db := by
  obtain ⟨sender', hsender', hsame⟩ := h _ _ hsender
  simp only [Refused, hsender, hsender', Option.map_some, hsame.currency]

end TransactionRecord

/-! ## One commit -/

namespace Database

theorem foldlM_outbox {α : Type} {f : Database → α → Except Exn Database}
    (hf : ∀ db x db', f db x = .ok db' → db'.outbox = db.outbox) {xs : List α} {db db' : Database}
    (h : xs.foldlM f db = .ok db') : db'.outbox = db.outbox := by
  induction xs generalizing db with
  | nil =>
    obtain rfl := Except.ok.inj h
    rfl
  | cons x xs ih =>
    rw [List.foldlM_cons, bind_eq_ok] at h
    obtain ⟨mid, hmid, h⟩ := h
    rw [ih h, hf _ _ _ hmid]

/-- A unit of work adds its messages to the outbox. -/
theorem flush_outbox {db db' : Database} {w : Flush} (h : db.flush w = .ok db') :
    db'.outbox = db.outbox ++ w.newOutbox := by
  simp only [flush, bind_eq_ok] at h
  obtain ⟨db₁, h₁, db₂, h₂, db₃, h₃, db₄, h₄, h⟩ := h
  have hinserted : db₁.outbox = db.outbox := by
    apply foldlM_outbox (fun db orm db' h => ?_) h₁
    obtain ⟨_, _, _, _, _, _, houtbox⟩ := insertAccount_ok.mp h
    exact houtbox
  have hupdated : db₂.outbox = db₁.outbox := by
    apply foldlM_outbox (fun db orm db' h => ?_) h₂
    obtain ⟨_, _, _, _, _, houtbox⟩ := updateAccount_ok.mp h
    exact houtbox
  have hrecorded : db₃.outbox = db₂.outbox := by
    apply foldlM_outbox (fun db orm db' h => ?_) h₃
    obtain ⟨_, _, _, _, _, _, _, houtbox⟩ := insertTransaction_ok.mp h
    exact houtbox
  have hchanged : db₄.outbox = db₃.outbox := by
    apply foldlM_outbox (fun db orm db' h => ?_) h₄
    unfold updateTransaction at h
    split_ifs at h
    obtain rfl := Except.ok.inj h
    rfl
  obtain rfl := Except.ok.inj h
  simp only [hchanged, hrecorded, hupdated, hinserted]

end Database

/-- When a transfer is refused, the debit was accepted exactly when it was refused for a
difference of currencies that is not the sender's. -/
theorem Account.canDebit_iff_of_refusal {sender receiver : Account} {amount : Money} {e : Exn}
    (hactive : sender.status = .active) (h : sender.refusal receiver amount = some e) :
    sender.CanDebit amount ↔
      e.failureCode = "CURRENCYMISMATCH" ∧ sender.balance.currency = amount.currency := by
  unfold Account.refusal at h
  split_ifs at h with hcurrency hless hcurrency' <;> obtain rfl := Option.some.inj h
  · simp [Account.CanDebit, hcurrency]
  · have hcode :
        (Exn.insufficientFunds sender.balance amount).failureCode ≠ "CURRENCYMISMATCH" := by
      rw [Exn.failureCode_insufficientFunds]
      decide
    have hfunds : ¬ amount.cents ≤ sender.balance.cents := by omega
    simp [Account.CanDebit, hcode, hfunds]
  · rw [Exn.failureCode_currencyMismatch]
    simp only [ne_eq, not_not] at hcurrency
    simpa [Account.CanDebit, hactive, hcurrency] using hless

namespace Commit

variable {c : Commit}

/-- A completed transfer leaves its debit and its credit. -/
theorem Completes.announces {draws : TransferDraws} {command : TransferCommand} {amount : Money}
    {sender receiver : AccountRow} {stored : Numeric} {debited credited : Money}
    {balance balance' : Numeric}
    (h : c.Completes draws command amount sender receiver stored debited credited balance balance')
    (db : Database) :
    (command.completedRow draws amount stored).Announces db c.written.newOutbox := by
  have hcompleted : (command.completedRow draws amount stored).status = .completed := rfl
  rw [TransactionRecord.Announces, if_pos hcompleted, h.events]
  exact ⟨_, _, rfl, ⟨draws.debited.stamp, amount, debited, h.cents, rfl, rfl⟩,
    ⟨draws.credited.stamp, amount, credited, h.cents, rfl, rfl⟩⟩

/-- The sender was debited exactly when the row says that the receiver has refused. -/
theorem Fails.refused_iff {draws : TransferDraws} {command : TransferCommand} {amount : Money}
    {sender receiver : AccountRow} {stored : Numeric} {e : Exn}
    (h : c.Fails draws command amount sender receiver stored e) (hlegal : c.Legal)
    (hwhole : c.before.Whole)
    (hbefore : ∀ id row, c.before.findAccount id = some row → row.WellFormed) :
    (command.failedRow draws amount stored e).Refused c.after ↔ sender.AcceptsDebit amount := by
  obtain ⟨row, hrow, sender', receiver', a, b, amount', hsender', -, ha, -, hcents, hcurrency,
    hrecords⟩ := hlegal.explained hwhole hbefore h.request
  obtain ⟨-, hrow⟩ := List.append_inj' (h.transactions.symm.trans hrow) rfl
  obtain rfl := List.singleton_inj.mp hrow
  obtain rfl := Option.some.inj (h.findsSender.symm.trans hsender')
  have hsame : amount'.cents = amount.cents := by
    have hunits : stored.units = 100 * amount'.cents := hcents
    have hunits' : stored.units = 100 * amount.cents := h.cents
    omega
  obtain rfl := Money.eq_of_cents hcurrency.symm hsame (hsame ▸ h.positive)
  obtain ⟨cs, hcs⟩ := hwhole.of_find h.findsSender
  obtain rfl := Except.ok.inj (ha.symm.trans (AccountMapper.toDomain_load hcs))
  have hactive : (sender.account cs hcs).status = .active := (hbefore _ _ h.findsSender).status
  have hfind : c.after.findAccount (command.failedRow draws amount' stored e).fromAccountId =
      some sender := (h.findAccount _).trans h.findsSender
  rw [← AccountRecord.canDebit_account hcs]
  cases hrefusal : (sender.account cs hcs).refusal b amount' with
  | none =>
    rw [hrefusal] at hrecords
    cases hrecords.1
  | some e' =>
    rw [hrefusal] at hrecords
    have hcode : e.failureCode = e'.failureCode := Option.some.inj hrecords.2.1
    rw [Account.canDebit_iff_of_refusal hactive hrefusal, ← hcode]
    simp only [TransactionRecord.Refused, hfind, Option.map_some]
    change TransactionStatus.failed = .failed ∧ some e.failureCode = some "CURRENCYMISMATCH" ∧
      some sender.currency = some amount'.currency ↔
        e.failureCode = "CURRENCYMISMATCH" ∧ sender.currency = amount'.currency
    simp

/-- A failed transfer leaves the debit exactly when the receiver has refused the amount. -/
theorem Fails.announces {draws : TransferDraws} {command : TransferCommand} {amount : Money}
    {sender receiver : AccountRow} {stored : Numeric} {e : Exn}
    (h : c.Fails draws command amount sender receiver stored e) (hlegal : c.Legal)
    (hwhole : c.before.Whole)
    (hbefore : ∀ id row, c.before.findAccount id = some row → row.WellFormed) :
    (command.failedRow draws amount stored e).Announces c.after c.written.newOutbox := by
  have hfailed : (command.failedRow draws amount stored e).status ≠ .completed := by
    change TransactionStatus.failed ≠ .completed
    decide
  have hrefused := h.refused_iff hlegal hwhole hbefore
  rw [TransactionRecord.Announces, if_neg hfailed]
  split_ifs with hcase
  · obtain ⟨debited, -, hevents⟩ := h.phantom (hrefused.mp hcase)
    exact ⟨_, hevents, draws.debited.stamp, amount, debited, h.cents, rfl, rfl⟩
  · exact h.noEvents (mt hrefused.mpr hcase)

/-- A commit adds nothing to the table and the outbox, or a row and what the outbox tells of it. -/
theorem Legal.announces (h : c.Legal) (hwhole : c.before.Whole)
    (hbefore : ∀ id row, c.before.findAccount id = some row → row.WellFormed) :
    c.after.transactions = c.before.transactions ∧ c.after.outbox = c.before.outbox ∨
      ∃ row part, c.after.transactions = c.before.transactions ++ [row] ∧
        c.after.outbox = c.before.outbox ++ part ∧ row.Announces c.after part := by
  have houtbox := Database.flush_outbox h.flushed
  cases h.cases hwhole with
  | opened ho =>
    left
    rw [ho.events, List.append_nil] at houtbox
    exact ⟨ho.transactions, houtbox⟩
  | completed hc => exact .inr ⟨_, _, hc.transactions, houtbox, hc.announces _⟩
  | failed hf =>
    exact .inr ⟨_, _, hf.transactions, houtbox, hf.announces h hwhole hbefore⟩

end Commit

/-! ## Any history -/

/-- The outbox tells the transactions table, row after row. -/
def Database.OutboxTold (db : Database) : Prop :=
  Told (fun row => row.Announces db) db.transactions db.outbox

theorem Database.OutboxTold.kept {db db' : Database} (h : db.OutboxTold)
    (hrows : ∀ row ∈ db.transactions, row.WellFormed db) (hkeeps : db.KeepsAccounts db') :
    Told (fun row => row.Announces db') db.transactions db.outbox := by
  refine h.mono fun row hrow part hpart => ?_
  obtain ⟨sender, -, hsender, -⟩ := (hrows row hrow).accounts
  have hrefused := TransactionRecord.refused_of_keepsAccounts hkeeps hsender
  simp only [TransactionRecord.Announces, hrefused] at hpart ⊢
  exact hpart

theorem SerialHistory.outboxTold {db : Database} {history : List Commit}
    (h : SerialHistory .empty history db) : db.OutboxTold := by
  induction h with
  | nil => exact .nil
  | @snoc history c hbefore hc ih =>
    have hwhole := hbefore.whole Database.whole_empty
    have hkept := ih.kept hbefore.wellFormed (hc.keepsAccounts hwhole)
    rcases hc.announces hwhole hbefore.accounts_wellFormed with
      ⟨htransactions, houtbox⟩ | ⟨row, part, htransactions, houtbox, hpart⟩
    · rw [Database.OutboxTold, htransactions, houtbox]
      exact hkept
    · rw [Database.OutboxTold, htransactions, houtbox]
      exact .snoc hkept hpart

/-- In every reachable state, whatever failed and however the requests interleaved, the outbox
consists of what its transactions have left there, in the order of the table: the debit and the
credit of a completed one, the debit alone of one that the receiver has refused, and nothing of
the others. -/
theorem outbox_told {p : System} (h : SystemReachable p) : p.shared.db.OutboxTold :=
  h.serial.outboxTold

theorem outbox_told_sample :
    Sample.failed.shared.db.outbox.length = 1 ∧ Sample.failed.shared.db.OutboxTold :=
  ⟨by decide +kernel, outbox_told Sample.failed_reachable⟩

/-! ## Replaying the outbox -/

/-- What the message reports to have changed on an account. -/
def OutboxMessage.change (m : OutboxMessage) (id : AccountId) : ℚ :=
  match m.payload.body.balanceChange with
  | none => 0
  | some (accountId, change, _) => if accountId = id then change else 0

namespace TransactionRecord

variable {row : TransactionRow} {m : OutboxMessage}

theorem AnnouncesDebit.change (h : row.AnnouncesDebit m) (id : AccountId) :
    m.change id = if row.fromAccountId = id then -(row.amount.units / 10 ^ 4 : ℚ) else 0 := by
  obtain ⟨stamp, amount, after, hcents, -, rfl⟩ := h
  rw [hcents.value, ← Money.value_amount]
  rfl

theorem AnnouncesCredit.change (h : row.AnnouncesCredit m) (id : AccountId) :
    m.change id = if row.toAccountId = id then (row.amount.units / 10 ^ 4 : ℚ) else 0 := by
  obtain ⟨stamp, amount, after, hcents, -, rfl⟩ := h
  rw [hcents.value, ← Money.value_amount]
  rfl

/-- What the messages of a row report: its effect, and a debit that was refused. -/
def announced (row : TransactionRow) (db : Database) (id : AccountId) : ℤ :=
  row.effect id - if row.Refused db ∧ row.fromAccountId = id then row.amount.units else 0

theorem Announces.change {db : Database} {part : List OutboxMessage} (h : row.Announces db part)
    (id : AccountId) : (part.map (·.change id)).sum = (row.announced db id / 10 ^ 4 : ℚ) := by
  unfold Announces at h
  split_ifs at h with hcompleted hrefused
  · obtain ⟨m, m', rfl, hm, hm'⟩ := h
    have hnot : ¬ row.Refused db := by
      intro hrefused
      have hfailed := hrefused.1
      rw [hcompleted] at hfailed
      cases hfailed
    simp only [List.map_cons, List.map_nil, List.sum_cons, List.sum_nil, hm.change, hm'.change,
      announced, effect, if_pos hcompleted, Posting.effect, posting, hnot, false_and, if_false]
    by_cases hto : row.toAccountId = id <;> by_cases hfrom : row.fromAccountId = id <;>
      simp only [hto, hfrom, if_true, if_false] <;> push_cast <;> ring
  · obtain ⟨m, rfl, hm⟩ := h
    simp only [List.map_cons, List.map_nil, List.sum_cons, List.sum_nil, hm.change, announced,
      effect, if_neg hcompleted, hrefused, true_and]
    by_cases hfrom : row.fromAccountId = id <;> simp only [hfrom, if_true, if_false] <;>
      push_cast <;> ring
  · subst h
    simp [announced, effect, hcompleted, hrefused]

end TransactionRecord

theorem TransactionRecord.WellFormed.amount_pos {row : TransactionRow} {db : Database}
    (h : row.WellFormed db) : 0 < row.amount.units := by
  obtain ⟨c, hc, hcents⟩ := h.amount
  have hunits : row.amount.units = 100 * c := hcents
  omega

namespace Database

variable (db : Database) (id : AccountId)

/-- The sum of the changes of an account that the outbox reports. -/
def reported : ℚ := (db.outbox.map (·.change id)).sum

/-- The sum of the amounts that the account was to send and that receivers have refused. -/
def refused : ℤ :=
  ((db.transactions.filter fun row => row.Refused db ∧ row.fromAccountId = id).map
    (·.amount.units)).sum

theorem sum_announced :
    (db.transactions.map fun row => row.announced db id).sum =
      db.received id - db.sent id - db.refused id := by
  unfold received sent completed refused
  induction db.transactions with
  | nil => rfl
  | cons row rows ih =>
    rw [List.map_cons, List.sum_cons, ih]
    simp only [TransactionRecord.announced, TransactionRecord.effect, TransactionRecord.posting,
      Posting.effect]
    by_cases hstatus : row.status = .completed <;>
      by_cases hrefused : row.Refused db <;>
      by_cases hto : row.toAccountId = id <;> by_cases hfrom : row.fromAccountId = id <;>
      simp only [hstatus, hrefused, hto, hfrom, List.filter_cons, List.map_cons, List.sum_cons,
        decide_true, decide_false, if_true, if_false, Bool.false_eq_true, and_true, and_false] <;>
      omega

variable {db}

/-- The outbox reports the completed transfers and what was refused. -/
theorem OutboxTold.reported (h : db.OutboxTold) :
    db.reported id = ((db.received id - db.sent id - db.refused id : ℤ) : ℚ) / 10 ^ 4 := by
  have htold : Told (fun row => row.Announces db) db.transactions db.outbox := h
  have hsum := htold.sum fun row part hpart => hpart.change id
  rw [← sum_announced]
  unfold Database.reported
  rw [hsum]
  induction db.transactions with
  | nil => simp
  | cons row rows ih =>
    rw [List.map_cons, List.sum_cons, ih, List.map_cons, List.sum_cons]
    push_cast
    ring

/-- Amounts are positive, so nothing was refused exactly when they sum up to nothing. -/
theorem refused_eq_zero (hrows : ∀ row ∈ db.transactions, row.WellFormed db) :
    db.refused id = 0 ↔ ∀ row ∈ db.transactions, row.Refused db → row.fromAccountId ≠ id := by
  unfold Database.refused
  have hpos : ∀ row ∈ db.transactions, 0 < row.amount.units :=
    fun row hrow => (hrows row hrow).amount_pos
  constructor
  · intro hzero row hrow hrefused hfrom
    have hmem : row.amount.units ∈ (db.transactions.filter fun row =>
        row.Refused db ∧ row.fromAccountId = id).map (·.amount.units) :=
      List.mem_map_of_mem (by simp [hrow, hrefused, hfrom])
    have hle := List.single_le_sum (fun x hx => ?_) _ hmem
    · have := hpos row hrow
      omega
    · obtain ⟨tx, htx, rfl⟩ := List.mem_map.mp hx
      have := hpos tx (List.mem_of_mem_filter htx)
      omega
  · intro hnone
    rw [List.filter_eq_nil_iff.mpr]
    · rfl
    · intro row hrow
      simpa using hnone row hrow

end Database

/-- In every reachable state the balance of an account is the balance it was opened with plus the
changes that the outbox reports of it plus the amounts that receivers have refused from it. So a
ledger that is replayed from the outbox is right for exactly those accounts from which nothing was
refused. -/
theorem outbox_replayed {p : System} (h : SystemReachable p) :
    ∀ row ∈ p.shared.db.accounts, ∃ opening,
      openingBalance p.shared.history row.id = some opening ∧
      (row.balance.units / 10 ^ 4 : ℚ) = opening / 10 ^ 4 + p.shared.db.reported row.id +
        p.shared.db.refused row.id / 10 ^ 4 ∧
      ((row.balance.units / 10 ^ 4 : ℚ) = opening / 10 ^ 4 + p.shared.db.reported row.id ↔
        ∀ tx ∈ p.shared.db.transactions, tx.Refused p.shared.db → tx.fromAccountId ≠ row.id) := by
  intro row hrow
  have hfind := Database.findAccount_eq_some.mpr ⟨hrow, rfl⟩
  have hbalance := h.serial.reconciled.balance row.id
  simp only [book, Database.balance, hfind, Option.map_some, Database.credited_postings,
    Database.debited_postings] at hbalance
  obtain ⟨opening, hopening, heq⟩ := Option.map_eq_some_iff.mp hbalance.symm
  have hreported := h.serial.outboxTold.reported row.id
  have hunits : (row.balance.units / 10 ^ 4 : ℚ) = opening / 10 ^ 4 +
      p.shared.db.reported row.id + p.shared.db.refused row.id / 10 ^ 4 := by
    rw [hreported, ← heq]
    push_cast
    ring
  refine ⟨opening, hopening, hunits, ?_⟩
  rw [← Database.refused_eq_zero row.id h.serial.wellFormed, hunits]
  constructor
  · intro hright
    have hzero : (p.shared.db.refused row.id : ℚ) = 0 := by linarith
    exact_mod_cast hzero
  · intro hzero
    rw [hzero]
    simp

theorem outbox_replayed_sample :
    (Sample.failed.shared.db.accounts.map fun row => Sample.failed.shared.db.refused row.id) =
      [300000, 0] ∧
    ∀ row ∈ Sample.failed.shared.db.accounts, ∃ opening,
      openingBalance Sample.failed.shared.history row.id = some opening ∧
      (row.balance.units / 10 ^ 4 : ℚ) =
        opening / 10 ^ 4 + Sample.failed.shared.db.reported row.id +
          Sample.failed.shared.db.refused row.id / 10 ^ 4 ∧
      ((row.balance.units / 10 ^ 4 : ℚ) =
          opening / 10 ^ 4 + Sample.failed.shared.db.reported row.id ↔
        ∀ tx ∈ Sample.failed.shared.db.transactions, tx.Refused Sample.failed.shared.db →
          tx.fromAccountId ≠ row.id) :=
  ⟨by decide +kernel, outbox_replayed Sample.failed_reachable⟩

end BankingTransactions
