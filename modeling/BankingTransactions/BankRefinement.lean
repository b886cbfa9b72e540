import BankingTransactions.AccountTable
import BankingTransactions.AtomicBanks

/-!
# The tables as an atomic bank

The accounts table is the accounts of a bank, and the transactions table its register: the
idempotency key of a row is the key of its receipt. Every commit of a request is one
operation of the bank, with the result that the row tells, so the history of a server is a run
of the bank, and its money is what was deposited when accounts were opened.
-/
namespace BankingTransactions
open DecimalArithmetic InteractionPrograms ThreadPools
open AtomicBanks (Bank Order Receipt Verdict Operation Result judge judge_executed)

/-- What a row of the transactions table says besides its order and its verdict. -/
structure TransferStamp where
  id : TransactionId
  failureReason : Option String
  createdAt : Time
  completedAt : Option Time

/-- The bank that the tables stand for. An account is held by its owner under its number, and
amounts are in ten-thousandths. -/
abbrev TableBank := Bank AccountId (UUID × String) Currency ℤ String TransferStamp

abbrev BankEntry := AtomicBanks.Account (UUID × String) Currency ℤ

abbrev BankReceipt := Receipt AccountId Currency ℤ TransferStamp

abbrev BankOperation := Operation AccountId (UUID × String) Currency ℤ String TransferStamp

abbrev BankResult := Result AccountId (UUID × String) Currency ℤ String TransferStamp

def Account.entry (a : Account) : BankEntry :=
  ⟨(a.ownerId, a.accountNumber), a.balance.currency, 100 * a.balance.cents⟩

def AccountRecord.entry (row : AccountRow) : BankEntry :=
  ⟨(row.ownerId, row.accountNumber), row.currency, row.balance.units⟩

namespace TransactionRecord

variable (row : TransactionRow)

def order : Order AccountId Currency ℤ :=
  ⟨row.fromAccountId, row.toAccountId, row.currency, row.amount.units⟩

def stamp : TransferStamp := ⟨row.id, row.failureReason, row.createdAt, row.completedAt⟩

def verdict : Verdict :=
  if row.status = .failed then
    .refused (if row.failureCode = some "INSUFFICIENTFUNDS" then .funds else .currency)
  else .executed

def receipt : BankReceipt := ⟨row.order, row.stamp, row.verdict⟩

end TransactionRecord

def Database.bank (db : Database) : TableBank where
  accounts id := (db.findAccount id).map AccountRecord.entry
  register key := (db.findByKey key).map TransactionRecord.receipt
  finite := by
    apply (db.accounts.map (·.id)).finite_toSet.subset
    intro id hid
    by_contra hnew
    exact hid (by rw [Database.findAccount_eq_none.mpr hnew]; rfl)

/-- The order of a command for this amount. -/
def TransferCommand.order (command : TransferCommand) (amount : Money) :
    Order AccountId Currency ℤ :=
  ⟨command.fromAccountId, command.toAccountId, amount.currency, 100 * amount.cents⟩

/-- The operations that a request stands for. A transfer is submitted, or asked for when its
key is in use. -/
def Request.Asks : Request → BankOperation → Prop
  | .create draws command, op => ∃ a, command.opened draws = .ok a ∧ op = .enroll draws.id a.entry
  | .transfer draws command, op => op = .inquire command.idempotencyKey ∨
      ∃ amount stamp, command.money = .ok amount ∧ stamp.id = draws.tx.id ∧
        op = .submit command.idempotencyKey (command.order amount) stamp

/-! ## Verdicts -/

theorem Account.entry_of_load {row : AccountRow} {c : ℕ} (h : row.balance.IsCents c) {a : Account}
    (ha : AccountMapper.toDomain row.load = .ok a) : a.entry = row.entry := by
  obtain rfl := Except.ok.inj (ha.symm.trans (AccountMapper.toDomain_load h))
  rw [AccountRecord.entry, h]
  rfl

/-- The verdict that a refusal stands for. -/
def Account.refusalVerdict : Option Exn → Verdict
  | none => .executed
  | some (.insufficientFunds _ _) => .refused .funds
  | some _ => .refused .currency

/-- The domain decides on a transfer as the bank does. -/
theorem Account.judge_entry (sender receiver : Account) (amount : Money)
    (o : Order AccountId Currency ℤ) (hcurrency : o.currency = amount.currency)
    (hamount : o.amount = 100 * amount.cents) :
    judge sender.entry receiver.entry o = refusalVerdict (sender.refusal receiver amount) := by
  have hless : (100 * (sender.balance.cents : ℤ) < 100 * amount.cents) ↔
      sender.balance.cents < amount.cents := by omega
  simp only [judge, entry, hcurrency, hamount, refusal, hless]
  split_ifs <;> rfl

/-- The status and the failure code of a row with this verdict. -/
def verdictColumns : Verdict → TransactionStatus × Option String
  | .executed => (.completed, none)
  | .refused .funds => (.failed, some "INSUFFICIENTFUNDS")
  | .refused .currency => (.failed, some "CURRENCYMISMATCH")

theorem verdict_of_columns {row : TransactionRow} {v : Verdict}
    (h : (row.status, row.failureCode) = verdictColumns v) : row.verdict = v := by
  unfold TransactionRecord.verdict
  obtain _ | _ | _ := v <;> obtain ⟨hstatus, hcode⟩ := Prod.mk.inj h <;> simp [hstatus, hcode]

/-- A row has the verdict that its refusal stands for. -/
theorem TransactionRecord.Records.columns {row : TransactionRow} {sender receiver : Account}
    {amount : Money} (h : row.Records (sender.refusal receiver amount)) :
    (row.status, row.failureCode) =
      verdictColumns (Account.refusalVerdict (sender.refusal receiver amount)) := by
  unfold Account.refusal at h ⊢
  split_ifs at h ⊢ <;> obtain ⟨hstatus, hcode, -⟩ := h
  · rw [hstatus, hcode, Exn.failureCode_currencyMismatch]
    rfl
  · rw [hstatus, hcode, Exn.failureCode_insufficientFunds]
    rfl
  · rw [hstatus, hcode, Exn.failureCode_currencyMismatch]
    rfl
  · rw [hstatus, hcode]
    rfl

/-- A row that a database explains has the verdict of its bank. -/
theorem TransactionRecord.Explained.judged {row : TransactionRow} {db : Database}
    (h : row.Explained db) (hwhole : db.Whole) :
    ∃ s r, db.bank.accounts row.fromAccountId = some s ∧ db.bank.accounts row.toAccountId = some r ∧
      row.verdict = judge s r row.order := by
  obtain ⟨sender, receiver, a, b, amount, hsender, hreceiver, ha, hb, hcents, hcurrency,
    hrecords⟩ := h
  obtain ⟨cs, hcs⟩ := hwhole.of_find hsender
  obtain ⟨cr, hcr⟩ := hwhole.of_find hreceiver
  refine ⟨a.entry, b.entry, ?_, ?_, ?_⟩
  · change (db.findAccount row.fromAccountId).map _ = _
    rw [hsender, Account.entry_of_load hcs ha]
    rfl
  · change (db.findAccount row.toAccountId).map _ = _
    rw [hreceiver, Account.entry_of_load hcr hb]
    rfl
  · rw [verdict_of_columns hrecords.columns, Account.judge_entry a b amount row.order hcurrency hcents]

/-! ## Commits -/

namespace Commit

variable {c : Commit}

/-- A row that is added is the receipt of its key. -/
theorem register_added {row : TransactionRow} (hunused : c.before.findByKey row.idempotencyKey = none)
    (hadded : c.after.transactions = c.before.transactions ++ [row]) (key : String) :
    c.after.bank.register key =
      if key = row.idempotencyKey then some row.receipt else c.before.bank.register key := by
  change (c.after.findByKey key).map _ = _
  rw [Database.findByKey, hadded, find_insert (fun row : TransactionRow => row.idempotencyKey)
    (Database.findByKey_eq_none.mp hunused) key]
  split_ifs
  · rfl
  · rfl

/-- The rows of a completed transfer are the accounts after the order. -/
theorem Completes.bank {draws : TransferDraws} {command : TransferCommand} {amount : Money}
    {sender receiver : AccountRow} {stored : Numeric} {debited credited : Money}
    {balance balance' : Numeric}
    (h : c.Completes draws command amount sender receiver stored debited credited balance balance')
    (id : AccountId) :
    c.after.bank.accounts id = (c.before.bank.accounts id).map fun x =>
      { x with amount := x.amount + (command.order amount).shift id } := by
  have hne := h.distinct
  change (c.after.findAccount id).map _ = ((c.before.findAccount id).map _).map _
  rw [h.accounts]
  split_ifs with hfrom hto
  · subst hfrom
    rw [h.findsSender]
    have hshift : (command.order amount).shift command.fromAccountId = -(100 * amount.cents) := by
      simp [Order.shift, TransferCommand.order, hne]
    simp only [Option.map_some, hshift, AccountRecord.entry, AccountRecord.changed, ← h.moved]
    simp
  · subst hto
    rw [h.findsReceiver]
    have hshift : (command.order amount).shift command.toAccountId = 100 * amount.cents := by
      simp [Order.shift, TransferCommand.order, hne.symm]
    simp only [Option.map_some, hshift, AccountRecord.entry, AccountRecord.changed, h.moved']
  · have hshift : (command.order amount).shift id = 0 := by
      simp [Order.shift, TransferCommand.order, hfrom, hto]
    cases c.before.findAccount id <;> simp [hshift]

/-- What a transfer asks of the bank with the rows that it finds. -/
theorem Finds.submission {draws : TransferDraws} {command : TransferCommand} {amount : Money}
    {sender receiver : AccountRow} {stored : Numeric}
    (h : c.Finds draws command amount sender receiver stored) :
    (∀ stamp : TransferStamp, stamp.id = draws.tx.id →
      c.request.Asks (.submit command.idempotencyKey (command.order amount) stamp)) ∧
    c.before.bank.register command.idempotencyKey = none ∧ 0 < (command.order amount).amount := by
  refine ⟨fun stamp hid => ?_, ?_, ?_⟩
  · rw [h.request]
    exact .inr ⟨amount, stamp, h.money, hid, rfl⟩
  · change (c.before.findByKey _).map _ = _
    rw [h.unused]
    rfl
  · have := h.positive
    change (0 : ℤ) < 100 * amount.cents
    omega

/-- A completed transfer is an order that is executed. -/
theorem Completes.bank_step {draws : TransferDraws} {command : TransferCommand} {amount : Money}
    {sender receiver : AccountRow} {stored : Numeric} {debited credited : Money}
    {balance balance' : Numeric}
    (h : c.Completes draws command amount sender receiver stored debited credited balance balance')
    (hjudged : ∃ s r, c.before.bank.accounts command.fromAccountId = some s ∧
      c.before.bank.accounts command.toAccountId = some r ∧
      (command.completedRow draws amount stored).verdict =
        judge s r (command.completedRow draws amount stored).order) :
    ∃ op res, c.request.Asks op ∧ Bank.Step c.before.bank op res c.after.bank := by
  obtain ⟨s, r, hs, hr, hverdict⟩ := hjudged
  obtain ⟨hasks, hunused, hpositive⟩ := h.submission
  have horder : (command.completedRow draws amount stored).order = command.order amount := by
    rw [TransactionRecord.order, TransferCommand.order, ← h.cents]
    rfl
  rw [horder] at hverdict
  refine ⟨_, _, hasks (command.completedRow draws amount stored).stamp rfl,
    .execute hunused h.distinct hpositive hs hr hverdict.symm h.bank ?_⟩
  intro key
  rw [register_added h.unused h.transactions, TransactionRecord.receipt, horder]
  rfl

/-- A failed transfer is an order that is refused. -/
theorem Fails.bank_step {draws : TransferDraws} {command : TransferCommand} {amount : Money}
    {sender receiver : AccountRow} {stored : Numeric} {e : Exn}
    (h : c.Fails draws command amount sender receiver stored e)
    (hjudged : ∃ s r, c.before.bank.accounts command.fromAccountId = some s ∧
      c.before.bank.accounts command.toAccountId = some r ∧
      (command.failedRow draws amount stored e).verdict =
        judge s r (command.failedRow draws amount stored e).order) :
    ∃ op res, c.request.Asks op ∧ Bank.Step c.before.bank op res c.after.bank := by
  obtain ⟨s, r, hs, hr, hverdict⟩ := hjudged
  obtain ⟨hasks, hunused, hpositive⟩ := h.submission
  have horder : (command.failedRow draws amount stored e).order = command.order amount := by
    rw [TransactionRecord.order, TransferCommand.order, ← h.cents]
    rfl
  rw [horder] at hverdict
  refine ⟨_, _, hasks (command.failedRow draws amount stored e).stamp rfl,
    .refuse hunused h.distinct hpositive hs hr hverdict.symm ?_ ?_⟩
  · funext id
    exact congrArg (Option.map _) (h.findAccount id)
  · intro key
    rw [register_added h.unused h.transactions, TransactionRecord.receipt, horder]
    rfl

/-- An opened account is enrolled. -/
theorem Opens.bank_step {draws : AccountDraws} {command : CreateAccountCommand} {a : Account}
    {balance : Numeric} (h : c.Opens draws command a balance) :
    ∃ op res, c.request.Asks op ∧ Bank.Step c.before.bank op res c.after.bank := by
  refine ⟨.enroll draws.id a.entry, _, ?_, .enroll ?_ ?_ ?_ ?_⟩
  · rw [h.request]
    exact ⟨a, h.opened, rfl⟩
  · change (c.before.findAccount _).map _ = _
    rw [h.new]
    rfl
  · change (0 : ℤ) ≤ 100 * a.balance.cents
    positivity
  · intro id
    change (c.after.findAccount id).map _ = _
    rw [h.accounts]
    split_ifs
    · rw [Option.map_some, AccountRecord.entry, Account.entry, ← h.cents]
      rfl
    · rfl
  · funext key
    change (c.after.findByKey key).map _ = _
    rw [Database.findByKey, h.transactions]
    rfl

/-- Every legal commit is one operation of the bank, which its request asks for. -/
theorem Legal.bank_step (h : c.Legal) (hwhole : c.before.Whole)
    (hbefore : ∀ id row, c.before.findAccount id = some row → row.WellFormed) :
    ∃ op res, c.request.Asks op ∧ Bank.Step c.before.bank op res c.after.bank := by
  cases h.cases hwhole with
  | opened ho => exact ho.bank_step
  | @completed draws command amount sender receiver stored _ _ _ _ hc =>
    obtain ⟨row, hadded, hexplained⟩ := h.explained hwhole hbefore hc.request
    obtain rfl : row = command.completedRow draws amount stored := by
      simpa using hadded.symm.trans hc.transactions
    exact hc.bank_step (hexplained.judged hwhole)
  | @failed draws command amount sender receiver stored e hf =>
    obtain ⟨row, hadded, hexplained⟩ := h.explained hwhole hbefore hf.request
    obtain rfl : row = command.failedRow draws amount stored e := by
      simpa using hadded.symm.trans hf.transactions
    exact hf.bank_step (hexplained.judged hwhole)

end Commit

/-! ## Histories -/

/-- The money that a request deposits when it opens its account. -/
def Request.deposit (currency : Currency) : Request → ℤ
  | .create draws command =>
    match command.opened draws with
    | .ok a => if a.balance.currency = currency then 100 * a.balance.cents else 0
    | .error _ => 0
  | .transfer _ _ => 0

theorem Request.Asks.deposit {r : Request} {op : BankOperation} (h : r.Asks op)
    (currency : Currency) : op.deposit currency = r.deposit currency := by
  cases r with
  | create draws command =>
    obtain ⟨a, ha, rfl⟩ := h
    simp only [Request.deposit, ha]
    rfl
  | transfer draws command =>
    obtain rfl | ⟨amount, stamp, -, -, rfl⟩ := h <;> rfl

/-- A history is a run of the bank, with one operation for every commit. -/
theorem SerialHistory.bank_runs {db : Database} {history : List Commit}
    (h : SerialHistory .empty history db) :
    ∃ es : List (BankOperation × BankResult), Bank.Runs Bank.empty es db.bank ∧
      List.Forall₂ (fun c e => c.request.Asks e.1) history es := by
  induction h with
  | nil => exact ⟨[], .nil, .nil⟩
  | snoc hbefore hc ih =>
    obtain ⟨es, hruns, hasks⟩ := ih
    obtain ⟨op, res, hop, hstep⟩ :=
      hc.bank_step (hbefore.whole Database.whole_empty) hbefore.accounts_wellFormed
    exact ⟨es ++ [(op, res)], .snoc hruns hstep, List.rel_append hasks (.cons hop .nil)⟩

/-! ## Money -/

/-- The money of the accounts in a currency, in ten-thousandths. -/
def Database.money (db : Database) (currency : Currency) : ℤ :=
  ((db.accounts.filter fun row => row.currency = currency).map (·.balance.units)).sum

/-- The holding of an account, from its row. -/
theorem Database.holding_bank {db : Database} (currency : Currency) {row : AccountRow}
    (hrow : row ∈ db.accounts) :
    db.bank.holding currency row.id = if row.currency = currency then row.balance.units else 0 := by
  have hfind : db.bank.accounts row.id = some row.entry :=
    congrArg (Option.map _) (Database.findAccount_eq_some.mpr ⟨hrow, rfl⟩)
  simp only [Bank.holding, hfind]
  rfl

theorem Database.total_bank (db : Database) (currency : Currency) :
    db.bank.total currency = db.money currency := by
  have hsupport : Function.support (db.bank.holding currency) ⊆
      (db.accounts.map (·.id)).toFinset := by
    intro id hid
    by_contra hnew
    rw [List.coe_toFinset] at hnew
    have hnone : db.bank.accounts id = none :=
      congrArg (Option.map _) (Database.findAccount_eq_none.mpr hnew)
    exact hid (by simp only [Bank.holding, hnone])
  have hholding : db.accounts.map (fun row => db.bank.holding currency row.id) =
      db.accounts.map fun row => if row.currency = currency then row.balance.units else 0 :=
    List.map_congr_left fun row hrow => Database.holding_bank currency hrow
  rw [Bank.total, finsum_eq_sum_of_support_subset _ hsupport, List.sum_toFinset _ db.accountIds,
    List.map_map]
  change (db.accounts.map fun row => db.bank.holding currency row.id).sum = _
  rw [hholding, List.sum_map_ite, Database.money]
  simp

theorem deposits_of_asks {history : List Commit} {es : List (BankOperation × BankResult)}
    (h : List.Forall₂ (fun c e => c.request.Asks e.1) history es) (currency : Currency) :
    es.map (fun e => e.1.deposit currency) =
      history.map fun c => c.request.deposit currency := by
  induction h with
  | nil => rfl
  | cons hop _ ih => rw [List.map_cons, List.map_cons, hop.deposit, ih]

/-- The money in a currency is what the committed requests deposited in it. -/
theorem SerialHistory.money {db : Database} {history : List Commit}
    (h : SerialHistory .empty history db) (currency : Currency) :
    db.money currency = (history.map fun c => c.request.deposit currency).sum := by
  obtain ⟨es, hruns, hasks⟩ := h.bank_runs
  have hempty : (Bank.empty : TableBank).total currency = 0 := finsum_zero
  rw [← Database.total_bank, hruns.total, deposits_of_asks hasks, hempty, zero_add]

/-- No balance is negative, and none is more than the money in its currency. -/
theorem SerialHistory.balance_bounds {db : Database} {history : List Commit}
    (h : SerialHistory .empty history db) {row : AccountRow} (hrow : row ∈ db.accounts) :
    0 ≤ row.balance.units ∧ row.balance.units ≤ db.money row.currency := by
  obtain ⟨es, hruns, -⟩ := h.bank_runs
  have hsolvent : db.bank.Solvent := by
    apply hruns.solvent
    intro a x hx
    cases hx
  have hnonneg := hsolvent.holding_nonneg row.currency row.id
  have hle := hsolvent.holding_le_total row.currency row.id
  rw [Database.holding_bank _ hrow, if_pos rfl] at hnonneg hle
  rw [Database.total_bank] at hle
  exact ⟨hnonneg, hle⟩

/-- Transfers move money and make none. Whatever failed and however the requests interleaved,
the balances in a currency add up to what was deposited in it when accounts were opened, and none
of them is negative or more than that; and from there on to any later state they grow by what the
requests that were committed since then have deposited, and by nothing else. -/
theorem money_conserved {p p' : System} (h : SystemReachable p)
    (hreach : Reachable Server.host.step p p') (currency : Currency) :
    p.shared.db.money currency = (p.shared.history.map fun c => c.request.deposit currency).sum ∧
    (∀ row ∈ p.shared.db.accounts, row.currency = currency →
      0 ≤ row.balance.units ∧ row.balance.units ≤ p.shared.db.money currency) ∧
    ∃ commits, p'.shared.history = p.shared.history ++ commits ∧
      p'.shared.db.money currency = p.shared.db.money currency +
        (commits.map fun c => c.request.deposit currency).sum := by
  obtain ⟨ls, hrun⟩ := h
  obtain ⟨ls', hrun'⟩ := hreach
  have h : SystemReachable p := ⟨ls, hrun⟩
  have h' : SystemReachable p' := ⟨ls ++ ls', hrun.trans hrun'⟩
  obtain ⟨commits, hhistory, -⟩ := history_of_run hrun'
  refine ⟨h.serial.money currency, fun row hrow hcurrency => ?_, commits, hhistory, ?_⟩
  · rw [← hcurrency]
    exact h.serial.balance_bounds hrow
  rw [h'.serial.money, h.serial.money, hhistory, List.map_append, List.sum_append]

namespace Sample

/-- After a transfer one more account is opened. -/
def enlarged : System :=
  replay Server.host.step transferred (served 3 (opening 4 (Fin.last 9) "EUR") 3) (by decide +kernel)

theorem enlarged_reachable : Reachable Server.host.step transferred enlarged := reachable_replay _

theorem enlarged_money : enlarged.shared.db.money .EUR = 3000000 := by decide +kernel

end Sample

theorem money_conserved_sample :
    Sample.enlarged.shared.db.money .EUR = 3000000 ∧
    Sample.transferred.shared.db.money .EUR =
      (Sample.transferred.shared.history.map fun c => c.request.deposit .EUR).sum ∧
    (∀ row ∈ Sample.transferred.shared.db.accounts, row.currency = .EUR →
      0 ≤ row.balance.units ∧ row.balance.units ≤ Sample.transferred.shared.db.money .EUR) ∧
    ∃ commits, Sample.enlarged.shared.history = Sample.transferred.shared.history ++ commits ∧
      Sample.enlarged.shared.db.money .EUR = Sample.transferred.shared.db.money .EUR +
        (commits.map fun c => c.request.deposit .EUR).sum :=
  ⟨Sample.enlarged_money,
    money_conserved Sample.transferred_reachable Sample.enlarged_reachable .EUR⟩

end BankingTransactions
