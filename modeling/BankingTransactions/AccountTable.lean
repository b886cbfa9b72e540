import BankingTransactions.FailureAtomicity
import BankingTransactions.TransferEffects

/-!
# The accounts table

What is written once, when an account is opened, and what a transfer may change: the
balance and the time of the last update. No service freezes or closes an account, so every
account is active in every reachable state, and a transfer that was recorded as failed
failed for want of funds or for a difference of currencies.
-/
namespace BankingTransactions
open DecimalArithmetic InteractionPrograms ThreadPools

/-- The columns of an account that no transfer writes, and its status. -/
structure AccountRecord.SameAccount (row row' : AccountRow) : Prop where
  id : row'.id = row.id
  ownerId : row'.ownerId = row.ownerId
  accountNumber : row'.accountNumber = row.accountNumber
  currency : row'.currency = row.currency
  status : row'.status = row.status
  createdAt : row'.createdAt = row.createdAt

/-- An active account with a generated number and a non-negative whole number of cents. -/
structure AccountRecord.WellFormed (row : AccountRow) : Prop where
  status : row.status = .active
  accountNumber : ∃ digits, row.accountNumber = generateAccountNumber digits
  balance : ∃ c, row.balance.IsCents c

namespace AccountRecord

theorem sameAccount_refl (row : AccountRow) : row.SameAccount row := ⟨rfl, rfl, rfl, rfl, rfl, rfl⟩

theorem SameAccount.trans {row row' row'' : AccountRow} (h : row.SameAccount row')
    (h' : row'.SameAccount row'') : row.SameAccount row'' where
  id := h'.id.trans h.id
  ownerId := h'.ownerId.trans h.ownerId
  accountNumber := h'.accountNumber.trans h.accountNumber
  currency := h'.currency.trans h.currency
  status := h'.status.trans h.status
  createdAt := h'.createdAt.trans h.createdAt

theorem sameAccount_changed (row : AccountRow) (balance : Numeric) (now : Time) :
    row.SameAccount (row.changed balance now) := ⟨rfl, rfl, rfl, rfl, rfl, rfl⟩

end AccountRecord

namespace Database

/-- Every account of the one database is in the other. -/
def KeepsAccounts (db db' : Database) : Prop :=
  ∀ id row, db.findAccount id = some row →
    ∃ row', db'.findAccount id = some row' ∧ row.SameAccount row'

theorem keepsAccounts_refl (db : Database) : db.KeepsAccounts db := by
  intro id row hrow
  exact ⟨row, hrow, row.sameAccount_refl⟩

theorem KeepsAccounts.trans {db db' db'' : Database} (h : db.KeepsAccounts db')
    (h' : db'.KeepsAccounts db'') : db.KeepsAccounts db'' := by
  intro id row hrow
  obtain ⟨row', hrow', hsame⟩ := h id row hrow
  obtain ⟨row'', hrow'', hsame'⟩ := h' id row' hrow'
  exact ⟨row'', hrow'', hsame.trans hsame'⟩

end Database

/-! ## One commit -/

namespace Commit

variable {c : Commit}

theorem Legal.keepsAccounts (h : c.Legal) (hwhole : c.before.Whole) :
    c.before.KeepsAccounts c.after := by
  intro id row hrow
  cases h.cases hwhole with
  | opened ho =>
    rw [ho.accounts]
    split_ifs with hid
    · subst hid
      rw [ho.new] at hrow
      cases hrow
    · exact ⟨row, hrow, row.sameAccount_refl⟩
  | completed hc =>
    rw [hc.accounts]
    split_ifs with hfrom hto
    · subst hfrom
      obtain rfl := Option.some.inj (hc.findsSender.symm.trans hrow)
      exact ⟨_, rfl, AccountRecord.sameAccount_changed ..⟩
    · subst hto
      obtain rfl := Option.some.inj (hc.findsReceiver.symm.trans hrow)
      exact ⟨_, rfl, AccountRecord.sameAccount_changed ..⟩
    · exact ⟨row, hrow, row.sameAccount_refl⟩
  | failed hf => exact ⟨row, (hf.findAccount id).trans hrow, row.sameAccount_refl⟩

/-- The row of an account that was opened. -/
theorem Opens.row {draws : AccountDraws} {command : CreateAccountCommand} {a : Account}
    {balance : Numeric} (h : c.Opens draws command a balance) :
    ((AccountMapper.toNewOrm a).withBalance balance : AccountRow).WellFormed := by
  obtain ⟨currency, initial, -, -, ha⟩ := CreateAccountCommand.opened_ok h.opened
  obtain ⟨-, ha⟩ := Account.create_ok ha
  have hcents := h.cents
  subst ha
  exact ⟨rfl, ⟨draws.digits, rfl⟩, ⟨_, hcents⟩⟩

theorem Legal.wellFormed (h : c.Legal) (hwhole : c.before.Whole)
    (hbefore : ∀ id row, c.before.findAccount id = some row → row.WellFormed) {id : AccountId}
    {row : AccountRow} (hrow : c.after.findAccount id = some row) : row.WellFormed := by
  have hkept (old : AccountRow) (hold : c.before.findAccount id = some old) : row.WellFormed := by
    obtain ⟨row', hrow', hsame⟩ := h.keepsAccounts hwhole id old hold
    obtain rfl := Option.some.inj (hrow'.symm.trans hrow)
    obtain ⟨hstatus, hnumber, -⟩ := hbefore id old hold
    exact ⟨hsame.status.trans hstatus, hsame.accountNumber ▸ hnumber, (h.whole hwhole).of_find hrow⟩
  cases hold : c.before.findAccount id with
  | some old => exact hkept old hold
  | none =>
    cases h.cases hwhole with
    | opened ho =>
      rw [ho.accounts] at hrow
      split_ifs at hrow
      · exact Option.some.inj hrow ▸ ho.row
      · rw [hold] at hrow
        cases hrow
    | completed hc =>
      rw [hc.accounts] at hrow
      split_ifs at hrow with hfrom hto
      · rw [hfrom, hc.findsSender] at hold
        cases hold
      · rw [hto, hc.findsReceiver] at hold
        cases hold
      · rw [hold] at hrow
        cases hrow
    | failed hf =>
      rw [hf.findAccount, hold] at hrow
      cases hrow

end Commit

theorem SerialHistory.accounts_wellFormed {db : Database} {history : List Commit}
    (h : SerialHistory .empty history db) :
    ∀ id row, db.findAccount id = some row → row.WellFormed := by
  induction h with
  | nil => exact fun _ _ hrow => by cases hrow
  | snoc hbefore hc ih => exact fun _ _ => hc.wellFormed (hbefore.whole Database.whole_empty) ih

/-! ## Any run -/

/-- What every legal commit keeps holds from a commit of a serial history to its end. -/
theorem SerialHistory.related {start db : Database} {history : List Commit}
    (h : SerialHistory start history db) (hstart : start.Whole) {R : Database → Database → Prop}
    (hrefl : ∀ db, R db db) (htrans : ∀ {db db' db''}, R db db' → R db' db'' → R db db'')
    (hcommit : ∀ {c : Commit}, c.Legal → c.before.Whole → R c.before c.after) {c : Commit}
    (hc : c ∈ history) : R c.after db := by
  induction h with
  | nil => cases hc
  | @snoc history last hbefore hlast ih =>
    rcases List.mem_append.mp hc with hc | hc
    · exact htrans (ih hc) (hcommit hlast (hbefore.whole hstart))
    · rw [List.mem_singleton.mp hc]
      exact hrefl _

/-- What every legal commit keeps holds between two states of a run. -/
theorem SystemReachable.related {p : System} (h : SystemReachable p)
    {R : Database → Database → Prop} (hrefl : ∀ db, R db db)
    (htrans : ∀ {db db' db''}, R db db' → R db' db'' → R db db'')
    (hcommit : ∀ {c : Commit}, c.Legal → c.before.Whole → R c.before c.after) {p' : System}
    (hreach : Reachable Server.host.step p p') :
    SystemReachable p' ∧ R p.shared.db p'.shared.db := by
  obtain ⟨ls, hrun⟩ := hreach
  refine hrun.invariant (I := fun q => SystemReachable q ∧ R p.shared.db q.shared.db)
    (fun q l q' hq _ hstep => ?_) ⟨h, hrefl _⟩
  have hq' := hq.1.step hstep
  refine ⟨hq', htrans hq.2 ?_⟩
  rcases Server.step_grows hstep with ⟨hdb, -⟩ | ⟨c, -, -, -, -, hbefore, hafter, hhistory⟩
  · rw [hdb]
    exact hrefl _
  · obtain ⟨hlegal, hwhole⟩ := hq'.legal (c := c) (by simp [hhistory])
    rw [← hbefore, hafter]
    exact hcommit hlegal hwhole

theorem SystemReachable.accounts_wellFormed {p : System} (h : SystemReachable p) {id : AccountId}
    {row : AccountRow} (hrow : p.shared.db.findAccount id = some row) : row.WellFormed :=
  h.serial.accounts_wellFormed id row hrow

theorem SystemReachable.keepsAccounts {p p' : System} (h : SystemReachable p)
    (hreach : Reachable Server.host.step p p') : p.shared.db.KeepsAccounts p'.shared.db :=
  (h.related Database.keepsAccounts_refl Database.KeepsAccounts.trans Commit.Legal.keepsAccounts
    hreach).2

/-- Every account is active, with a generated number and a balance of whole cents, and no run
from here removes it or changes whose it is, its number, its currency or its status. -/
theorem accounts_permanent {p : System} (h : SystemReachable p) :
    (∀ row ∈ p.shared.db.accounts, row.WellFormed) ∧
      ∀ p', Reachable Server.host.step p p' → ∀ row ∈ p.shared.db.accounts,
        ∃ row' ∈ p'.shared.db.accounts, row.SameAccount row' := by
  constructor
  · intro row hrow
    exact h.accounts_wellFormed (Database.findAccount_eq_some.mpr ⟨hrow, rfl⟩)
  · intro p' hreach row hrow
    obtain ⟨row', hrow', hsame⟩ :=
      h.keepsAccounts hreach row.id row (Database.findAccount_eq_some.mpr ⟨hrow, rfl⟩)
    exact ⟨row', (Database.findAccount_eq_some.mp hrow').1, hsame⟩

theorem accounts_permanent_sample :
    (∀ row ∈ Sample.transferred.shared.db.accounts, row.WellFormed) ∧
      ∀ p', Reachable Server.host.step Sample.transferred p' →
        ∀ row ∈ Sample.transferred.shared.db.accounts,
          ∃ row' ∈ p'.shared.db.accounts, row.SameAccount row' :=
  accounts_permanent Sample.transferred_reachable

/-! ## Why a transfer has failed -/

/-- Why a transfer of `amount` between two active accounts is refused. -/
def Account.refusal (sender receiver : Account) (amount : Money) : Option Exn :=
  if sender.balance.currency ≠ amount.currency then
    some (.currencyMismatch sender.balance.currency amount.currency)
  else if sender.balance.cents < amount.cents then some (.insufficientFunds sender.balance amount)
  else if receiver.balance.currency ≠ amount.currency then
    some (.currencyMismatch receiver.balance.currency amount.currency)
  else none

/-- The transaction that is stored when the domain has raised `e`, or nothing. -/
def TransferDraws.endedTx (draws : TransferDraws) (tx : Transaction) : Option Exn → Transaction
  | none => draws.completedTx tx
  | some e => draws.failedTx e tx

/-- A settlement between active accounts ends as their balances say. -/
theorem TransferDraws.settle_tx_refusal (draws : TransferDraws) {amount : Money}
    {sender receiver : Account} (tx : Transaction) (hs : sender.status = .active)
    (hr : receiver.status = .active)
    (hfits : receiver.balance.cents + amount.cents < 10 ^ precision) :
    (draws.settle amount sender receiver tx).tx =
      draws.endedTx tx (sender.refusal receiver amount) := by
  have hsub := Money.sub_spec sender.balance amount
  have hadd := Money.add_spec receiver.balance amount
  simp only [if_pos hfits] at hadd
  simp only [settle, debit, credit, Account.debit_on_result, Account.credit_on_result,
    Account.debitResult, Account.creditResult, hs, hr, Account.refusal]
  by_cases hcurrency : sender.balance.currency ≠ amount.currency
  · rw [if_pos hcurrency] at hsub ⊢
    simp only [hsub, endedTx]
  rw [if_neg hcurrency] at hsub ⊢
  by_cases hless : sender.balance.cents < amount.cents
  · rw [if_pos hless] at hsub ⊢
    simp only [hsub, endedTx]
  rw [if_neg hless] at hsub ⊢
  obtain ⟨c, hc, -, -⟩ := hsub
  simp only [hc]
  by_cases hcurrency' : receiver.balance.currency ≠ amount.currency
  · rw [if_pos hcurrency'] at hadd ⊢
    simp only [hadd, endedTx]
  · rw [if_neg hcurrency'] at hadd ⊢
    obtain ⟨c', hc', -, -⟩ := hadd
    simp only [hc', endedTx]

/-- What a row says of the decision that a transfer has ended with. -/
def TransactionRecord.Records (row : TransactionRow) : Option Exn → Prop
  | none => row.status = .completed ∧ row.failureCode = none ∧ row.failureReason = none
  | some e => row.status = .failed ∧ row.failureCode = some e.failureCode ∧
      row.failureReason = some e.message

/-- A row records what the two accounts, as the commit found them, say of its amount. -/
def TransactionRecord.Explained (row : TransactionRow) (db : Database) : Prop :=
  ∃ (sender receiver : AccountRow) (a b : Account) (amount : Money),
    db.findAccount row.fromAccountId = some sender ∧
    db.findAccount row.toAccountId = some receiver ∧
    AccountMapper.toDomain sender.load = .ok a ∧ AccountMapper.toDomain receiver.load = .ok b ∧
    row.amount.IsCents amount.cents ∧ row.currency = amount.currency ∧
    row.Records (a.refusal b amount)

theorem Commit.Legal.explained {c : Commit} (h : c.Legal) (hwhole : c.before.Whole)
    (hbefore : ∀ id row, c.before.findAccount id = some row → row.WellFormed)
    {draws : TransferDraws} {command : TransferCommand}
    (hrequest : c.request = .transfer draws command) :
    ∃ row : TransactionRow, c.after.transactions = c.before.transactions ++ [row] ∧
      row.Explained c.before := by
  obtain ⟨amount, sender, receiver, stored, a, b, tx, moved, hfinds, ha, hb, htx, -, -, -,
    htransactions⟩ := finds_of_legal h hrequest
  obtain ⟨cs, hcs⟩ := hwhole.of_find hfinds.findsSender
  obtain ⟨cr, hcr⟩ := hwhole.of_find hfinds.findsReceiver
  obtain rfl : a = sender.account cs hcs :=
    Except.ok.inj (ha.symm.trans (AccountMapper.toDomain_load hcs))
  obtain rfl : b = receiver.account cr hcr :=
    Except.ok.inj (hb.symm.trans (AccountMapper.toDomain_load hcr))
  have hfits : (receiver.account cr hcr).balance.cents + amount.cents < 10 ^ precision := by
    change cr + amount.cents < 10 ^ precision
    have := hcr.lt
    have := hfinds.cents.lt
    simp only [precision]
    omega
  have hsender : (sender.account cs hcs).status = .active :=
    (hbefore _ _ hfinds.findsSender).status
  have hreceiver : (receiver.account cr hcr).status = .active :=
    (hbefore _ _ hfinds.findsReceiver).status
  have hended := draws.settle_tx_refusal tx hsender hreceiver hfits
  rw [hended] at htransactions
  refine ⟨_, htransactions, ?_⟩
  cases hrefusal : (sender.account cs hcs).refusal (receiver.account cr hcr) amount with
  | none =>
    rw [TransferDraws.endedTx, completed_row stored htx]
    exact ⟨sender, receiver, _, _, amount, hfinds.findsSender, hfinds.findsReceiver, ha, hb,
      hfinds.cents, rfl, hrefusal ▸ ⟨rfl, rfl, rfl⟩⟩
  | some e =>
    rw [TransferDraws.endedTx, failed_row stored e htx]
    exact ⟨sender, receiver, _, _, amount, hfinds.findsSender, hfinds.findsReceiver, ha, hb,
      hfinds.cents, rfl, hrefusal ▸ ⟨rfl, rfl, rfl⟩⟩

/-- The commit adds the row at the end of the table. -/
def Commit.Adds (c : Commit) (row : TransactionRow) : Prop :=
  c.after.transactions = c.before.transactions ++ [row]

theorem Commit.Adds.mem {c : Commit} {row : TransactionRow} (h : c.Adds row) :
    row ∈ c.after.transactions := by
  rw [h]
  simp

theorem Commit.Adds.new {c : Commit} {row : TransactionRow} (h : c.Adds row) :
    row ∉ c.before.transactions := by
  intro hmem
  have hids := c.after.transactionIds
  rw [h, List.map_append, List.nodup_append] at hids
  exact hids.2.2 row.id (List.mem_map_of_mem hmem) row.id (by simp) rfl

/-- Every row was added by a commit, and is explained by the database before it. -/
theorem SerialHistory.explained {db : Database} {history : List Commit}
    (h : SerialHistory .empty history db) :
    ∀ row ∈ db.transactions, ∃ c ∈ history, c.Adds row ∧ row.Explained c.before := by
  induction h with
  | nil =>
    intro row hrow
    cases hrow
  | @snoc history c hbefore hc ih =>
    have hwhole := hbefore.whole Database.whole_empty
    have hold (row : TransactionRow) (hrow : row ∈ c.before.transactions) :
        ∃ c' ∈ history ++ [c], c'.Adds row ∧ row.Explained c'.before := by
      obtain ⟨c', hc', hadded⟩ := ih row hrow
      exact ⟨c', List.mem_append_left _ hc', hadded⟩
    intro row hrow
    cases hrequest : c.request with
    | create draws command =>
      obtain ⟨a, balance, hopens⟩ := Commit.legal_create hc hrequest
      exact hold row (hopens.transactions ▸ hrow)
    | transfer draws command =>
      obtain ⟨new, hnew, hexplained⟩ := hc.explained hwhole hbefore.accounts_wellFormed hrequest
      rw [hnew, List.mem_append, List.mem_singleton] at hrow
      rcases hrow with hrow | rfl
      · exact hold row hrow
      · exact ⟨c, by simp, hnew, hexplained⟩

/-- The row is in the table from that commit on, and no other commit of the history adds it. -/
theorem SerialHistory.adds_once {start db : Database} {before after : List Commit} {c : Commit}
    (h : SerialHistory start (before ++ c :: after) db) (hstart : start.Whole)
    {row : TransactionRow} (hadds : c.Adds row) : ∀ c' ∈ before ++ after, ¬c'.Adds row := by
  intro c' hmem hadds'
  rcases List.mem_append.mp hmem with hearlier | hlater
  · have hinit := h.split.transactions_prefix hstart hearlier
    exact hadds.new (hinit.subset hadds'.mem)
  · obtain ⟨between, rest, rfl⟩ := List.append_of_mem hlater
    have hsplit : before ++ c :: (between ++ c' :: rest) =
        (before ++ c :: between) ++ c' :: rest := by simp
    rw [hsplit] at h
    have hinit := h.split.transactions_prefix hstart (c := c) (by simp)
    exact hadds'.new (hinit.subset hadds.mem)

theorem Exn.failureCode_insufficientFunds (available requested : Money) :
    (Exn.insufficientFunds available requested).failureCode = "INSUFFICIENTFUNDS" := by
  have hname : String.ofList (erase "ERROR".toList 0
      ("InsufficientFundsError".toList.map Char.toUpper)) = "INSUFFICIENTFUNDS" := by decide +kernel
  exact hname

theorem Exn.failureCode_currencyMismatch (left right : Currency) :
    (Exn.currencyMismatch left right).failureCode = "CURRENCYMISMATCH" := by
  have hname : String.ofList (erase "ERROR".toList 0
      ("CurrencyMismatchError".toList.map Char.toUpper)) = "CURRENCYMISMATCH" := by decide +kernel
  exact hname

theorem Account.refusal_code {sender receiver : Account} {amount : Money} {e : Exn}
    (h : sender.refusal receiver amount = some e) :
    e.failureCode = "INSUFFICIENTFUNDS" ∨ e.failureCode = "CURRENCYMISMATCH" := by
  unfold refusal at h
  split_ifs at h <;> obtain rfl := Option.some.inj h
  · exact .inr (Exn.failureCode_currencyMismatch ..)
  · exact .inl (Exn.failureCode_insufficientFunds ..)
  · exact .inr (Exn.failureCode_currencyMismatch ..)

/-- Every row of the transactions table was added by exactly one commit of the history, and its
status, failure code and failure reason are what the balances and currencies of its two accounts
just before that commit call for. There are two failure codes. -/
theorem outcomes_explained {p : System} (h : SystemReachable p) :
    ∀ row ∈ p.shared.db.transactions,
      (∃ before c after, p.shared.history = before ++ c :: after ∧ c.Adds row ∧
        (∀ c' ∈ before ++ after, ¬c'.Adds row) ∧ row.Explained c.before) ∧
      (row.status = .failed → row.failureCode = some "INSUFFICIENTFUNDS" ∨
        row.failureCode = some "CURRENCYMISMATCH") := by
  intro row hrow
  obtain ⟨c, hc, hadds, hexplained⟩ := h.serial.explained row hrow
  obtain ⟨before, after, hhistory⟩ := List.append_of_mem hc
  have hserial := h.serial
  rw [hhistory] at hserial
  have honce := hserial.adds_once Database.whole_empty hadds
  refine ⟨⟨before, c, after, hhistory, hadds, honce, hexplained⟩, fun hfailed => ?_⟩
  obtain ⟨-, -, a, b, amount, -, -, -, -, -, -, hrecords⟩ := hexplained
  cases hrefusal : a.refusal b amount with
  | none =>
    rw [hrefusal] at hrecords
    rw [hrecords.1] at hfailed
    cases hfailed
  | some e =>
    rw [hrefusal] at hrecords
    rw [hrecords.2.1]
    exact (Account.refusal_code hrefusal).imp (congrArg some) (congrArg some)

theorem outcomes_explained_sample :
    Sample.failed.shared.db.transactions.length = 1 ∧
    ∀ row ∈ Sample.failed.shared.db.transactions,
      (∃ before c after, Sample.failed.shared.history = before ++ c :: after ∧ c.Adds row ∧
        (∀ c' ∈ before ++ after, ¬c'.Adds row) ∧ row.Explained c.before) ∧
      (row.status = .failed → row.failureCode = some "INSUFFICIENTFUNDS" ∨
        row.failureCode = some "CURRENCYMISMATCH") :=
  ⟨by decide +kernel, outcomes_explained Sample.failed_reachable⟩

end BankingTransactions
