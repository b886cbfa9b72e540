import BankingTransactions.Serializability
import BankingTransactions.DoubleEntry

/-!
# The committed database as a double-entry book

The accounts are the balances of a book, the completed transfers its postings, and
the opening balances are those with which the committed requests opened the
accounts. Every legal commit is a step of the book, so the database reconciles in
every reachable state, and the commits that carry one idempotency key change the
balances by the effect of the one row with that key.
-/
namespace BankingTransactions
open DecimalArithmetic InteractionPrograms ThreadPools DoubleEntry

/-- The posting that a transaction row stands for. -/
def TransactionRecord.posting (row : TransactionRow) : Posting AccountId ℤ :=
  ⟨row.fromAccountId, row.toAccountId, row.amount.units⟩

namespace Database

def balance (db : Database) (id : AccountId) : Option ℤ :=
  (db.findAccount id).map (·.balance.units)

def completed (db : Database) : List TransactionRow :=
  db.transactions.filter fun row => row.status = .completed

/-- The sum of the completed transfers to an account. -/
def received (db : Database) (id : AccountId) : ℤ :=
  ((db.completed.filter fun row => row.toAccountId = id).map (·.amount.units)).sum

/-- The sum of the completed transfers from an account. -/
def sent (db : Database) (id : AccountId) : ℤ :=
  ((db.completed.filter fun row => row.fromAccountId = id).map (·.amount.units)).sum

def postings (db : Database) : List (Posting AccountId ℤ) := db.completed.map (·.posting)

theorem credited_postings (db : Database) (id : AccountId) :
    credited db.postings id = db.received id := by
  simp only [credited, postings, received, List.filter_map, List.map_map]
  rfl

theorem debited_postings (db : Database) (id : AccountId) :
    debited db.postings id = db.sent id := by
  simp only [debited, postings, sent, List.filter_map, List.map_map]
  rfl

end Database

/-- The balance with which the commit opened an account. -/
def Commit.opening (c : Commit) (id : AccountId) : Option ℤ :=
  match c.request with
  | .create draws command =>
    match command.opened draws with
    | .ok a => if id = draws.id then some (100 * a.balance.cents) else none
    | .error _ => none
  | .transfer .. => none

/-- The balance with which an account was opened. -/
def openingBalance (history : List Commit) (id : AccountId) : Option ℤ :=
  history.findSome? fun c => c.opening id

theorem openingBalance_snoc (history : List Commit) (c : Commit) (id : AccountId) :
    openingBalance (history ++ [c]) id = (openingBalance history id).or (c.opening id) := by
  simp [openingBalance, List.findSome?_append]

/-- The database as a book. -/
def book (history : List Commit) (db : Database) : Book AccountId ℤ :=
  ⟨openingBalance history, db.balance, db.postings⟩

theorem opening_eq_none {history : List Commit} {db : Database}
    (h : (book history db).Reconciled) (id : AccountId) :
    openingBalance history id = none ↔ db.findAccount id = none := by
  have hbalance : (db.findAccount id).map (·.balance.units) =
      (openingBalance history id).map _ := h.balance id
  cases ho : openingBalance history id <;> cases hf : db.findAccount id <;>
    simp [ho, hf] at hbalance ⊢

/-- A commit of a transfer opens no account. -/
theorem Commit.Finds.opening {c : Commit} {draws : TransferDraws} {command : TransferCommand}
    {amount : Money} {sender receiver : AccountRow} {stored : Numeric}
    (h : c.Finds draws command amount sender receiver stored) (history : List Commit) :
    openingBalance (history ++ [c]) = openingBalance history := by
  funext id
  simp [openingBalance_snoc, Commit.opening, h.request]

/-- What a completed transfer changes on any account. -/
theorem Commit.Completes.balance {c : Commit} {draws : TransferDraws} {command : TransferCommand}
    {amount : Money} {sender receiver : AccountRow} {stored : Numeric} {debited credited : Money}
    {balance balance' : Numeric}
    (h : c.Completes draws command amount sender receiver stored debited credited balance balance')
    (id : AccountId) :
    c.after.balance id = (c.before.balance id).map fun m =>
      m + (command.completedRow draws amount stored).posting.effect id := by
  have hcents : stored.units = 100 * amount.cents := h.cents
  have hne := h.distinct
  simp only [Database.balance, h.accounts]
  split_ifs with hfrom hto
  · subst hfrom
    rw [h.findsSender]
    simp only [Option.map_some, Posting.effect, TransactionRecord.posting,
      TransferCommand.completedRow, AccountRecord.changed, if_neg hne.symm, if_true, hcents,
      ← h.moved, Option.some.injEq]
    ring
  · subst hto
    rw [h.findsReceiver]
    simp only [Option.map_some, Posting.effect, TransactionRecord.posting,
      TransferCommand.completedRow, AccountRecord.changed, if_neg hne, if_true, hcents, h.moved',
      Option.some.injEq]
    ring
  · have hnone : (command.completedRow draws amount stored).posting.effect id = 0 := by
      simp [Posting.effect, TransactionRecord.posting, TransferCommand.completedRow,
        Ne.symm hfrom, Ne.symm hto]
    cases c.before.findAccount id <;> simp [hnone]

/-- Every legal commit is a step of the book. -/
theorem Commit.Legal.step {c : Commit} (h : c.Legal) (hwhole : c.before.Whole)
    {history : List Commit} (hbook : (book history c.before).Reconciled) :
    Book.Step (book history c.before) (book (history ++ [c]) c.after) := by
  cases h.cases hwhole with
  | @opened draws command a balance ho =>
    have hnew := (opening_eq_none hbook draws.id).mpr ho.new
    have hopening (id : AccountId) : c.opening id =
        if id = draws.id then some (100 * (a.balance.cents : ℤ)) else none := by
      simp [Commit.opening, ho.request, ho.opened]
    refine .enter draws.id (100 * a.balance.cents) hnew (fun id => ?_) (fun id => ?_) ?_
    · simp only [book, openingBalance_snoc, hopening]
      split_ifs with hid
      · rw [hid, hnew]
        rfl
      · simp
    · simp only [book, Database.balance, ho.accounts]
      split_ifs with hid
      · simp only [Option.map_some, AccountRecord.withBalance, Option.some.injEq]
        exact ho.cents
      · rfl
    · simp only [book, Database.postings, Database.completed, ho.transactions]
  | @completed draws command amount sender receiver stored _ _ _ _ hc =>
    refine .post (command.completedRow draws amount stored).posting ?_ ?_ (hc.opening history)
      hc.balance ?_
    · exact mt (opening_eq_none hbook _).mp (by simp [TransactionRecord.posting,
        TransferCommand.completedRow, hc.findsSender])
    · exact mt (opening_eq_none hbook _).mp (by simp [TransactionRecord.posting,
        TransferCommand.completedRow, hc.findsReceiver])
    · simp [book, Database.postings, Database.completed, hc.transactions,
        TransferCommand.completedRow]
  | failed hf =>
    refine .keep (hf.opening history) (funext fun id => ?_) ?_
    · simp only [book, Database.balance, hf.findAccount]
    · simp [book, Database.postings, Database.completed, hf.transactions,
        TransferCommand.failedRow]

theorem SerialHistory.reconciled {db : Database} {history : List Commit}
    (h : SerialHistory .empty history db) : (book history db).Reconciled := by
  induction h with
  | nil => exact ⟨fun _ => rfl, fun _ h => (nomatch h), fun _ h => (nomatch h)⟩
  | snoc hbefore hc ih =>
    exact (hc.step (hbefore.whole Database.whole_empty) ih).reconciled ih

/-- In every reachable state, whatever failed and however the requests interleaved, the
balance of an account is the balance it was opened with plus the completed transfers
to it minus those from it, and it is not negative. -/
theorem ledger_reconciles {p : System} (h : SystemReachable p) :
    ∀ row ∈ p.shared.db.accounts, ∃ opening,
      openingBalance p.shared.history row.id = some opening ∧
      row.balance.units = opening + p.shared.db.received row.id - p.shared.db.sent row.id ∧
      0 ≤ row.balance.units := by
  intro row hrow
  have hfind := Database.findAccount_eq_some.mpr ⟨hrow, rfl⟩
  have hbook := h.serial.reconciled
  obtain ⟨cents, hcents⟩ := h.whole row hrow
  have hbalance := hbook.balance row.id
  simp only [book, Database.balance, hfind, Option.map_some, Database.credited_postings,
    Database.debited_postings] at hbalance
  obtain ⟨opening, hopening, heq⟩ := Option.map_eq_some_iff.mp hbalance.symm
  exact ⟨opening, hopening, heq.symm, by rw [hcents]; positivity⟩

theorem ledger_reconciles_sample :
    Sample.transferred.shared.db.accounts.map (·.balance.units) = [700000, 1300000] ∧
      ∀ row ∈ Sample.transferred.shared.db.accounts, ∃ opening,
        openingBalance Sample.transferred.shared.history row.id = some opening ∧
        row.balance.units = opening + Sample.transferred.shared.db.received row.id -
          Sample.transferred.shared.db.sent row.id ∧
        0 ≤ row.balance.units :=
  ⟨Sample.transferred_balances, ledger_reconciles Sample.transferred_reachable⟩

/-! ## One idempotency key -/

/-- The idempotency key that a request carries. -/
def Request.key : Request → Option String
  | .create .. => none
  | .transfer _ command => some command.idempotencyKey

/-- The change of a balance by a commit; an account that is not open counts as zero. -/
def Commit.change (c : Commit) (id : AccountId) : ℤ :=
  (c.after.balance id).getD 0 - (c.before.balance id).getD 0

/-- What a transaction row says has happened to the balance of an account. -/
def TransactionRecord.effect (row : TransactionRow) (id : AccountId) : ℤ :=
  if row.status = .completed then row.posting.effect id else 0

/-- The sum of the changes of a balance by the commits of requests with a key. -/
def changeByKey (history : List Commit) (key : String) (id : AccountId) : ℤ :=
  ((history.filter fun c => c.request.key = some key).map (·.change id)).sum

/-- The effect of the row with a key, if there is one. -/
def Database.effectOfKey (db : Database) (key : String) (id : AccountId) : ℤ :=
  match db.findByKey key with
  | none => 0
  | some row => row.effect id

/-- Inserting a row changes what its key stands for, and no other key. -/
theorem effectOfKey_insert {db db' : Database} {row : TransactionRow}
    (hunused : db.findByKey row.idempotencyKey = none)
    (h : db'.transactions = db.transactions ++ [row]) (key : String) (id : AccountId) :
    db'.effectOfKey key id =
      if key = row.idempotencyKey then row.effect id else db.effectOfKey key id := by
  have hfind : db'.findByKey key =
      if key = row.idempotencyKey then some row else db.findByKey key := by
    simp only [Database.findByKey, h]
    exact find_insert (fun r : TransactionRow => r.idempotencyKey)
      (Database.findByKey_eq_none.mp hunused) key
  simp only [Database.effectOfKey, hfind]
  split_ifs <;> rfl

theorem Commit.Completes.change {c : Commit} {draws : TransferDraws} {command : TransferCommand}
    {amount : Money} {sender receiver : AccountRow} {stored : Numeric} {debited credited : Money}
    {balance balance' : Numeric}
    (h : c.Completes draws command amount sender receiver stored debited credited balance balance')
    (id : AccountId) : c.change id = (command.completedRow draws amount stored).effect id := by
  have heffect : (command.completedRow draws amount stored).effect id =
      (command.completedRow draws amount stored).posting.effect id := by
    simp [TransactionRecord.effect, TransferCommand.completedRow]
  rw [Commit.change, h.balance, heffect]
  cases hb : c.before.balance id with
  | some m => simp
  | none =>
    have hmissing : c.before.findAccount id = none := by simpa [Database.balance] using hb
    have hfrom : command.fromAccountId ≠ id := by
      rintro rfl
      rw [h.findsSender] at hmissing
      cases hmissing
    have hto : command.toAccountId ≠ id := by
      rintro rfl
      rw [h.findsReceiver] at hmissing
      cases hmissing
    simp [Posting.effect, TransactionRecord.posting, TransferCommand.completedRow, hfrom, hto]

/-- A commit changes the balances by the effect of the row it adds, if it adds one. -/
theorem Commit.Legal.effectOfKey {c : Commit} (h : c.Legal) (hwhole : c.before.Whole)
    (key : String) (id : AccountId) :
    c.after.effectOfKey key id =
      c.before.effectOfKey key id + if c.request.key = some key then c.change id else 0 := by
  cases h.cases hwhole with
  | opened ho =>
    have hkey : c.request.key ≠ some key := by simp [ho.request, Request.key]
    simp [hkey, Database.effectOfKey, Database.findByKey, ho.transactions]
  | @completed draws command amount _ _ stored _ _ _ _ hc =>
    have hunused : c.before.effectOfKey command.idempotencyKey id = 0 := by
      rw [Database.effectOfKey, hc.unused]
    rw [effectOfKey_insert hc.unused hc.transactions, hc.request, hc.change]
    by_cases hkey : key = command.idempotencyKey
    · subst hkey
      simp [Request.key, hunused, TransferCommand.completedRow]
    · simp [Request.key, Ne.symm hkey, hkey, TransferCommand.completedRow]
  | @failed draws command amount _ _ stored e hf =>
    have hunused : c.before.effectOfKey command.idempotencyKey id = 0 := by
      rw [Database.effectOfKey, hf.unused]
    have hchange : c.change id = 0 := by
      simp [Commit.change, Database.balance, hf.findAccount]
    rw [effectOfKey_insert hf.unused hf.transactions, hf.request, hchange]
    by_cases hkey : key = command.idempotencyKey
    · subst hkey
      simp [Request.key, hunused, TransferCommand.failedRow, TransactionRecord.effect]
    · simp [Request.key, hkey, TransferCommand.failedRow]

theorem SerialHistory.changeByKey {db : Database} {history : List Commit}
    (h : SerialHistory .empty history db) (key : String) (id : AccountId) :
    changeByKey history key id = db.effectOfKey key id := by
  induction h with
  | nil => rfl
  | @snoc history c hbefore hc ih =>
    rw [hc.effectOfKey (hbefore.whole Database.whole_empty), ← ih]
    by_cases hkey : c.request.key = some key <;>
      simp [BankingTransactions.changeByKey, List.filter_append, hkey]

/-- However many requests carry an idempotency key and whatever fails, at most one row has
the key, and together they have changed every balance by the effect of that row. -/
theorem executed_at_most_once {p : System} (h : SystemReachable p) (key : String) :
    (p.shared.db.transactions.filter fun row => row.idempotencyKey = key).length ≤ 1 ∧
      ∀ id, changeByKey p.shared.history key id =
        match p.shared.db.findByKey key with
        | none => 0
        | some row =>
          if row.status = .completed then
            (if row.toAccountId = id then row.amount.units else 0) -
              (if row.fromAccountId = id then row.amount.units else 0)
          else 0 := by
  refine ⟨?_, fun id => h.serial.changeByKey key id⟩
  have hcount := List.nodup_iff_count_le_one.mp p.shared.db.idempotencyKeys key
  rw [List.count, List.countP_map, List.countP_eq_length_filter] at hcount
  convert hcount using 3
  funext row
  exact (beq_eq_decide _ _).symm

theorem executed_at_most_once_sample :
    (Sample.transferred.shared.db.findByKey "key").isSome ∧
      (Sample.transferred.shared.db.transactions.filter fun row =>
        row.idempotencyKey = "key").length ≤ 1 ∧
      ∀ id, changeByKey Sample.transferred.shared.history "key" id =
        match Sample.transferred.shared.db.findByKey "key" with
        | none => 0
        | some row =>
          if row.status = .completed then
            (if row.toAccountId = id then row.amount.units else 0) -
              (if row.fromAccountId = id then row.amount.units else 0)
          else 0 :=
  ⟨Sample.transferred_key, executed_at_most_once Sample.transferred_reachable "key"⟩

end BankingTransactions
