import BankingTransactions.InMemoryStores
import BankingTransactions.MoneyArithmetic
import BankingTransactions.Retries

/-!
# The in-memory adapters as a double

The same calls, one after the other, over the in-memory adapters and over a database and
Redis. The two sides draw the same identifiers and read the same clock. An aggregate in the
store is mirrored by the row that the mapper makes of it, and every call keeps it so, as long
as no transfer debits its sender before the receiver refuses: the store hands out its own
objects and never takes anything back, so it keeps such a debit, which the database drops.
-/
namespace BankingTransactions
open DecimalArithmetic InteractionPrograms

/-! ## Amounts without a negative zero -/

namespace Money

/-- Not a negative zero. -/
def Unsigned (m : Money) : Prop := m.amount = .finite false m.cents (-2)

instance (m : Money) : Decidable m.Unsigned := by
  unfold Unsigned
  infer_instance

theorem unsigned_ofCents (c : ℕ) (h : c < 10 ^ precision) (currency : Currency) :
    (ofCents c h currency).Unsigned := rfl

theorem Unsigned.eq_ofCents {m : Money} (h : m.Unsigned) :
    m = ofCents m.cents m.cents_lt m.currency := by
  obtain ⟨amount, currency, hm⟩ := m
  match amount, hm, h with
  | .finite s c e, hm, h =>
    have hcents : (⟨.finite s c e, currency, hm⟩ : Money).cents = c := rfl
    obtain ⟨rfl, rfl⟩ : s = false ∧ e = -2 := by simpa [Unsigned, hcents] using h
    rfl

/-- An amount is stored as its cents. -/
theorem store_of_isCents {m : Money} {n : Numeric} (h : n.IsCents m.cents) :
    Numeric.store m.amount = some n := by
  rw [store_amount, dif_pos h.lt, ← h.eq_ofCents]

theorem amount_eq (m : Money) : ∃ s, m.amount = .finite s m.cents (-2) := by
  obtain ⟨amount, currency, hm⟩ := m
  match amount, hm with
  | .finite s c e, hm =>
    obtain rfl := hm.1
    exact ⟨s, rfl⟩

theorem add_unsigned {a b m : Money} (ha : a.Unsigned) (h : a.add b = .ok m) : m.Unsigned := by
  obtain ⟨hcur, -, -, hfits⟩ := add_ok h
  obtain ⟨s', hb⟩ := b.amount_eq
  have hsum := Decimal.add_unsigned (hb ▸ b.hundredths) hfits
  rw [← ha, ← hb] at hsum
  have hnew := new_of_isHundredths (d := .finite false (a.cents + b.cents) (-2))
    ⟨rfl, hfits, by simp⟩ a.currency
  simp only [add, assertSameCurrency, if_neg (not_not.mpr hcur), hsum] at h
  obtain rfl := Except.ok.inj (hnew.symm.trans h)
  rfl

theorem sub_unsigned {a b m : Money} (ha : a.Unsigned) (h : a.sub b = .ok m) : m.Unsigned := by
  have hspec := sub_spec a b
  split_ifs at hspec with hcur hless
  · rw [hspec] at h
    cases h
  · rw [hspec] at h
    cases h
  · obtain ⟨s', hb⟩ := b.amount_eq
    have hle : b.cents ≤ a.cents := not_lt.mp hless
    have hdiff := Decimal.sub_unsigned (hb ▸ b.hundredths) a.cents_lt hle
    rw [← ha, ← hb] at hdiff
    have hcents : (Decimal.finite false (a.cents - b.cents) (-2)).IsHundredths := by
      have := a.cents_lt
      exact ⟨rfl, by omega, by simp⟩
    simp only [sub, assertSameCurrency, if_neg hcur, hdiff,
      Decimal.quantize_of_isHundredths hcents, hcents.not_lt_zero] at h
    obtain rfl := Except.ok.inj ((new_of_isHundredths hcents a.currency).symm.trans h)
    rfl

end Money

/-! ## Aggregates without their events -/

namespace Account

def bare (a : Account) : Account := { a with domainEvents := [], recorded := [] }

variable (a : Account)

@[simp] theorem bare_id : a.bare.id = a.id := rfl

@[simp] theorem bare_status : a.bare.status = a.status := rfl

@[simp] theorem bare_balance : a.bare.balance = a.balance := rfl

end Account

namespace TransferDraws

variable (draws : TransferDraws) (amount : Money)

theorem debit_bare (txId : TransactionId) (a : Account) :
    ((draws.debit amount txId).on a.bare).1 = ((draws.debit amount txId).on a).1 := by
  simp only [debit, Account.debit_on, Account.bare_status, Account.bare_balance, Account.bare_id]
  cases a.status with
  | active => cases a.balance.sub amount <;> rfl
  | _ => rfl

theorem credit_bare (txId : TransactionId) (a : Account) :
    ((draws.credit amount txId).on a.bare).1 = ((draws.credit amount txId).on a).1 := by
  simp only [credit, Account.credit_on, Account.bare_status, Account.bare_balance, Account.bare_id]
  cases a.status with
  | active => cases a.balance.add amount <;> rfl
  | _ => rfl

/-- The pending events of the accounts have no say in how a settlement ends. -/
theorem settle_bare (a b : Account) (tx : Transaction) :
    (draws.settle amount a.bare b.bare tx).raised = (draws.settle amount a b tx).raised ∧
      (draws.settle amount a.bare b.bare tx).tx = (draws.settle amount a b tx).tx := by
  have hdebit := draws.debit_bare amount tx.id a
  have hcredit := draws.credit_bare amount tx.id b
  unfold settle
  generalize (draws.debit amount tx.id).on a.bare = x at *
  generalize (draws.debit amount tx.id).on a = y at *
  generalize (draws.credit amount tx.id).on b.bare = z at *
  generalize (draws.credit amount tx.id).on b = w at *
  obtain ⟨x, a₁⟩ := x
  obtain ⟨y, a₂⟩ := y
  obtain ⟨z, b₁⟩ := z
  obtain ⟨w, b₂⟩ := w
  obtain rfl : x = y := hdebit
  obtain rfl : z = w := hcredit
  cases x with
  | error e => exact ⟨rfl, rfl⟩
  | ok u => cases z <;> exact ⟨rfl, rfl⟩

theorem settle_unsigned {a b : Account} (ha : a.balance.Unsigned) (hb : b.balance.Unsigned)
    (tx : Transaction) :
    (draws.settle amount a b tx).sender.balance.Unsigned ∧
      (draws.settle amount a b tx).receiver.balance.Unsigned := by
  have hdebit : ((draws.debit amount tx.id).on a).2.balance.Unsigned := by
    simp only [debit, Account.debit_on]
    cases a.status with
    | active =>
      cases hsub : a.balance.sub amount with
      | error e => exact ha
      | ok m => exact Money.sub_unsigned ha hsub
    | _ => exact ha
  have hcredit : ((draws.credit amount tx.id).on b).2.balance.Unsigned := by
    simp only [credit, Account.credit_on]
    cases b.status with
    | active =>
      cases hadd : b.balance.add amount with
      | error e => exact hb
      | ok m => exact Money.add_unsigned hb hadd
    | _ => exact hb
  unfold settle
  generalize (draws.debit amount tx.id).on a = x at *
  generalize (draws.credit amount tx.id).on b = y at *
  obtain ⟨x, a'⟩ := x
  obtain ⟨y, b'⟩ := y
  cases x with
  | error e => exact ⟨hdebit, hb⟩
  | ok u => cases y <;> exact ⟨hdebit, hcredit⟩

end TransferDraws

/-! ## Mirrored aggregates -/

/-- The row that the mapper makes of an account of the store. -/
structure Account.MirroredBy (a : Account) (row : AccountRow) : Prop where
  unsigned : a.balance.Unsigned
  stored : Numeric.store a.balance.amount = some row.balance
  row_eq : row = (AccountMapper.toNewOrm a).withBalance row.balance

/-- The row that the mapper makes of a transaction of the store. -/
structure Transaction.MirroredBy (tx : Transaction) (row : TransactionRow) : Prop where
  positive : tx.amount.cents ≠ 0
  stored : Numeric.store tx.amount.amount = some row.amount
  row_eq : row = (TransactionMapper.toNewOrm tx).withAmount row.amount

namespace Account.MirroredBy

variable {a : Account} {row : AccountRow}

theorem cents (h : a.MirroredBy row) : row.balance.IsCents a.balance.cents :=
  Money.isCents_of_store h.stored

/-- The row is read back as the account, without its events. -/
theorem account_eq (h : a.MirroredBy row) {c : ℕ} (hc : row.balance.IsCents c) :
    row.account c hc = a.bare := by
  obtain rfl : c = a.balance.cents := by
    have := h.cents
    unfold Numeric.IsCents at this hc
    omega
  obtain ⟨id, ownerId, accountNumber, balance, currency, status, createdAt, updatedAt⟩ := row
  have hrow := h.row_eq
  simp only [AccountRecord.withBalance, AccountMapper.toNewOrm, AccountRecord.mk.injEq] at hrow
  obtain ⟨rfl, rfl, rfl, -, rfl, rfl, rfl, rfl⟩ := hrow
  simp only [AccountRecord.account, Account.reconstitute, Account.bare]
  rw [← h.unsigned.eq_ofCents]

theorem loads (h : a.MirroredBy row) : AccountMapper.toDomain row.load = .ok a.bare := by
  rw [AccountMapper.toDomain_load h.cents, h.account_eq h.cents]

theorem collected (h : a.MirroredBy row) : a.collectEvents.2.MirroredBy row :=
  ⟨h.unsigned, h.stored, h.row_eq⟩

/-- The balance is moved on both sides. -/
theorem moved (h : a.MirroredBy row) {b : Money} {balance : Numeric}
    (hcur : b.currency = a.balance.currency) (hb : b.Unsigned) (hcents : balance.IsCents b.cents)
    (now : Time) (e : DomainEvent) : (a.moved b now e).MirroredBy (row.changed balance now) := by
  refine ⟨hb, Money.store_of_isCents hcents, ?_⟩
  have hrow := h.row_eq
  obtain ⟨id, ownerId, accountNumber, _, currency, status, createdAt, updatedAt⟩ := row
  simp only [AccountRecord.withBalance, AccountMapper.toNewOrm, AccountRecord.mk.injEq] at hrow
  obtain ⟨rfl, rfl, rfl, -, rfl, rfl, rfl, -⟩ := hrow
  simp only [AccountRecord.changed, AccountRecord.withBalance, AccountMapper.toNewOrm,
    Account.moved, hcur]
  rfl

theorem canDebit_iff (h : a.MirroredBy row) (amount : Money) :
    a.CanDebit amount ↔ row.AcceptsDebit amount := by
  have hiff := AccountRecord.canDebit_account h.cents amount
  rw [h.account_eq h.cents] at hiff
  exact hiff

theorem canCredit_iff (h : a.MirroredBy row) {amount : Money} (hamount : amount.cents < 10 ^ 17) :
    a.CanCredit amount ↔ row.AcceptsCredit amount := by
  have hiff := AccountRecord.canCredit_account h.cents hamount
  rw [h.account_eq h.cents] at hiff
  exact hiff

end Account.MirroredBy

namespace Transaction.MirroredBy

variable {tx : Transaction} {row : TransactionRow}

/-- The row is read back as a transaction with the same DTO. -/
theorem dto (h : tx.MirroredBy row) : ∃ tx', TransactionMapper.toDomain row.load = .ok tx' ∧
    TransactionDTO.fromAggregate tx' = TransactionDTO.fromAggregate tx := by
  have hc : row.amount.IsCents tx.amount.cents := Money.isCents_of_store h.stored
  refine ⟨row.transaction tx.amount.cents hc, TransactionMapper.toDomain_load hc, ?_⟩
  have hamount : (row.transaction tx.amount.cents hc).amount = tx.amount := by
    refine Money.eq_of_cents ?_ rfl h.positive
    change row.currency = _
    rw [h.row_eq]
    rfl
  obtain ⟨id, fromId, toId, amount, currency, type, status, key, code, reason, createdAt, updatedAt,
    completedAt⟩ := row
  have hrow := h.row_eq
  simp only [TransactionRecord.withAmount, TransactionMapper.toNewOrm,
    TransactionRecord.mk.injEq] at hrow
  obtain ⟨rfl, rfl, rfl, -, rfl, rfl, rfl, rfl, rfl, rfl, rfl, rfl, rfl⟩ := hrow
  simp only [TransactionDTO.fromAggregate, hamount]
  rfl

theorem id_eq (h : tx.MirroredBy row) : row.id = tx.id := by
  rw [h.row_eq]
  rfl

theorem key_eq (h : tx.MirroredBy row) : row.idempotencyKey = tx.idempotencyKey := by
  rw [h.row_eq]
  rfl

/-- The events of a transaction are not mirrored. -/
theorem collected (h : tx.MirroredBy row) : tx.collectEvents.2.MirroredBy row :=
  ⟨h.positive, h.stored, h.row_eq⟩

end Transaction.MirroredBy

theorem Settlement.storedTx_mirrored {S : Settlement} {row : TransactionRow}
    (h : S.tx.MirroredBy row) : S.storedTx.MirroredBy row := by
  unfold storedTx
  split_ifs
  · exact h.collected
  · exact h

/-! ## Mirrored stores -/

theorem none_of_rel {α β : Type} {R : α → β → Prop} {o : Option β}
    (h : Option.Rel R none o) : o = none := by
  cases h
  rfl

theorem some_of_rel {α β : Type} {R : α → β → Prop} {a : α} {o : Option β}
    (h : Option.Rel R (some a) o) : ∃ b, o = some b ∧ R a b := by
  cases h with
  | some hab => exact ⟨_, rfl, hab⟩

/-- The same accounts with the same balances and statuses, and the same transactions. -/
structure SameStored (s : MemoryStore) (db : Database) : Prop where
  accounts : ∀ id, Option.Rel Account.MirroredBy (s.findAccount id) (db.findAccount id)
  transactions : ∀ id,
    Option.Rel Transaction.MirroredBy (s.findTransaction id) (db.findTransaction id)
  keys : ∀ key, Option.Rel Transaction.MirroredBy (s.findByKey key) (db.findByKey key)

structure Mirrors (s : MemoryStore) (db : Database) : Prop extends SameStored s db where
  consistent : s.Consistent

namespace Mirrors

variable {s s' : MemoryStore} {db db' : Database}

theorem whole (h : Mirrors s db) : db.Whole := by
  intro row hrow
  have hfind : db.findAccount row.id = some row := Database.findAccount_eq_some.mpr ⟨hrow, rfl⟩
  have hrel := h.accounts row.id
  rw [hfind] at hrel
  generalize s.findAccount row.id = found at hrel
  cases hrel with
  | some hmirrored => exact ⟨_, hmirrored.cents⟩

/-- What the store says is not there, is not there. -/
theorem new (h : Mirrors s db) {id : TransactionId} (hnew : db.findTransaction id = none) :
    s.adapters.transactions id = none := by
  have hrel := h.transactions id
  rw [hnew] at hrel
  cases href : s.adapters.transactions id with
  | none => rfl
  | some ref =>
    obtain ⟨tx, htx, -⟩ := h.consistent.transactions href
    rw [MemoryStore.findTransaction, href, Option.bind_some, htx] at hrel
    cases hrel

theorem same (h : Mirrors s db) (hs : s.Same s') : Mirrors s' db where
  accounts id := by
    rw [hs.accounts]
    exact h.accounts id
  transactions id := by
    rw [hs.transactions]
    exact h.transactions id
  keys key := by
    rw [hs.keys]
    exact h.keys key
  consistent := hs.consistent

/-- An account is opened on both sides. -/
theorem opens (h : Mirrors s db) {a : Account} (hs : s.Opens a s') {balance : Numeric}
    (hunsigned : a.balance.Unsigned) (hstored : Numeric.store a.balance.amount = some balance)
    (hnew : db.findAccount a.id = none)
    (haccounts : db'.accounts = db.accounts ++ [(AccountMapper.toNewOrm a).withBalance balance])
    (htransactions : db'.transactions = db.transactions) : Mirrors s' db' where
  accounts id := by
    have hfind : db'.findAccount id =
        if id = a.id then some ((AccountMapper.toNewOrm a).withBalance balance)
        else db.findAccount id := by
      simp only [Database.findAccount, haccounts]
      exact find_insert (fun r : AccountRow => r.id) (Database.findAccount_eq_none.mp hnew) id
    rw [hs.accounts, hfind]
    split_ifs with hid
    · exact .some ⟨hunsigned, hstored, rfl⟩
    · exact h.accounts id
  transactions id := by
    rw [hs.transactions, Database.findTransaction, htransactions]
    exact h.transactions id
  keys key := by
    rw [hs.keys, Database.findByKey, htransactions]
    exact h.keys key
  consistent := hs.consistent

/-- A settlement is stored on both sides: the accounts are mirrored afterwards, and the new
transaction is. -/
theorem settles (h : Mirrors s db) {command : TransferCommand} {S : Settlement}
    (hs : s.Settles command S s') {row : TransactionRow} (htx : S.tx.MirroredBy row)
    (hkey : S.tx.idempotencyKey = command.idempotencyKey)
    (hnew : db.findTransaction S.tx.id = none)
    (hunused : db.findByKey command.idempotencyKey = none)
    (haccounts : ∀ id, Option.Rel Account.MirroredBy
      (if id = command.fromAccountId then some S.storedSender
        else if id = command.toAccountId then some S.storedReceiver
        else s.findAccount id) (db'.findAccount id))
    (htransactions : db'.transactions = db.transactions ++ [row]) : Mirrors s' db' where
  accounts id := by
    rw [hs.accounts]
    exact haccounts id
  transactions id := by
    rw [← htx.id_eq] at hnew
    have hfind : db'.findTransaction id =
        if id = row.id then some row else db.findTransaction id := by
      simp only [Database.findTransaction, htransactions]
      exact find_insert (fun r : TransactionRow => r.id)
        (Database.findTransaction_eq_none.mp hnew) id
    rw [hs.transactions, hfind, htx.id_eq]
    split_ifs
    · exact .some (Settlement.storedTx_mirrored htx)
    · exact h.transactions id
  keys key := by
    rw [← hkey, ← htx.key_eq] at hunused
    have hfind : db'.findByKey key =
        if key = row.idempotencyKey then some row else db.findByKey key := by
      simp only [Database.findByKey, htransactions]
      exact find_insert (fun r : TransactionRow => r.idempotencyKey)
        (Database.findByKey_eq_none.mp hunused) key
    rw [hs.keys, hfind, htx.key_eq, hkey]
    split_ifs
    · exact .some (Settlement.storedTx_mirrored htx)
    · exact h.keys key
  consistent := hs.consistent

end Mirrors

/-! ## Transfers -/

/-- What a transfer writes fits the columns, and its receiver does not refuse it when its sender
has accepted. -/
def TransferCommand.Regular (command : TransferCommand) (db : Database) : Prop :=
  ∀ amount sender receiver, command.Reaches db amount sender receiver →
    command.Fits amount sender receiver ∧
      (sender.AcceptsDebit amount → receiver.AcceptsCredit amount)

namespace Mirrors

variable {s : MemoryStore} {db : Database} {command : TransferCommand} {draws : TransferDraws}
  {amount : Money} {sender receiver : AccountRow} {a b : Account} {tx : Transaction}

/-- A transfer that reaches its domain calls on both sides. -/
theorem settled (h : Mirrors s db) (hnew : db.findTransaction draws.tx.id = none)
    (hreaches : command.Reaches db amount sender receiver)
    (hfits : command.Fits amount sender receiver)
    (hregular : sender.AcceptsDebit amount → receiver.AcceptsCredit amount)
    (ha : a.MirroredBy sender) (hb : b.MirroredBy receiver)
    (htx : Transaction.initiate draws.tx command.fromAccountId command.toAccountId amount
      command.idempotencyKey = .ok tx) :
    let S := draws.settle amount a b tx
    SameOutcome (match S.raised with
      | none => .ok (.transaction (.fromAggregate S.tx))
      | some e => .error e) (command.serial draws db).outcome ∧
    ∀ s', s.Settles command S s' → Mirrors s' (command.serial draws db).db := by
  intro S
  obtain ⟨tx', S', db', hcommits⟩ := hreaches.commits h.whole hfits hnew
  obtain rfl : tx = tx' := Except.ok.inj (htx.symm.trans hcommits.initiated)
  obtain ⟨cs, cr, hcs, hcr, hS'⟩ := hcommits.settled
  rw [ha.account_eq hcs, hb.account_eq hcr] at hS'
  obtain ⟨hraised, hsame⟩ := draws.settle_bare amount a b tx
  rw [← hS'] at hraised hsame
  change S'.raised = S.raised at hraised
  change S'.tx = S.tx at hsame
  constructor
  · rw [hcommits.serial, SerialRun.committed, hraised]
    cases S.raised with
    | none =>
      simp only [hsame]
      exact sameOutcome_refl _
    | some e => exact sameOutcome_refl _
  · intro s' hs
    rw [hcommits.serial, SerialRun.committed_db]
    obtain ⟨amount', sender', receiver', stored, a', b', tx', moved, hfinds, ha', hb', htx', -, -,
      -, htransactions⟩ := Commit.finds_of_legal hcommits.legal rfl
    obtain rfl := Except.ok.inj (hreaches.money.symm.trans hfinds.money)
    obtain rfl := Option.some.inj (hreaches.findsSender.symm.trans hfinds.findsSender)
    obtain rfl := Option.some.inj (hreaches.findsReceiver.symm.trans hfinds.findsReceiver)
    obtain rfl := Except.ok.inj (ha.loads.symm.trans ha')
    obtain rfl := Except.ok.inj (hb.loads.symm.trans hb')
    obtain rfl := Except.ok.inj (htx.symm.trans htx')
    rw [← hS', hsame] at htransactions
    obtain ⟨-, -, hinit⟩ := Transaction.initiate_ok htx
    obtain ⟨hid, hamount, hkey⟩ :=
      draws.settle_tx_same amount a b (show tx.status = .pending by rw [hinit]; rfl)
    have hamount' : S.tx.amount = amount := by rw [hamount, hinit]; rfl
    have hrow : S.tx.MirroredBy ((TransactionMapper.toNewOrm S.tx).withAmount stored) := by
      refine ⟨?_, ?_, rfl⟩
      · rw [hamount']
        exact hreaches.positive
      · rw [hamount']
        exact Money.store_of_isCents hfinds.cents
    refine h.settles hs hrow (by rw [hkey, hinit]; rfl) (by rw [hid, hinit]; exact hnew)
      hreaches.unused (fun id => ?_) htransactions
    by_cases hd : sender.AcceptsDebit amount
    · have hc := hregular hd
      obtain ⟨_, debited, credited, balance, balance', hcompletes⟩ :=
        hcommits.completes h.whole hd hc
      obtain ⟨bs, br, hbscur, hbs, hbrcur, hbr, hS⟩ := draws.settle_of_accepted tx
        ((ha.canDebit_iff amount).mpr hd) ((hb.canCredit_iff hfits.storable).mpr hc)
      obtain ⟨hbsun, hbrun⟩ := draws.settle_unsigned amount ha.unsigned hb.unsigned tx
      rw [hS] at hbsun hbrun
      have hcents : balance.IsCents bs.cents := by
        have hmoved := hcompletes.moved
        have hfound := ha.cents
        unfold Numeric.IsCents at hfound ⊢
        omega
      have hcents' : balance'.IsCents br.cents := by
        have hmoved := hcompletes.moved'
        have hfound := hb.cents
        unfold Numeric.IsCents at hfound ⊢
        omega
      have hstored : S.storedSender.MirroredBy (sender.changed balance draws.debited.now) := by
        simp only [S, Settlement.storedSender, hS, if_true]
        exact (ha.moved hbscur hbsun hcents _ _).collected
      have hstored' :
          S.storedReceiver.MirroredBy (receiver.changed balance' draws.credited.now) := by
        simp only [S, Settlement.storedReceiver, hS, if_true]
        exact (hb.moved hbrcur hbrun hcents' _ _).collected
      rw [hcompletes.accounts]
      split_ifs
      · exact .some hstored
      · exact .some hstored'
      · exact h.accounts id
    · obtain ⟨e, -, hS⟩ := draws.settle_of_not_canDebit b tx (mt (ha.canDebit_iff amount).mp hd)
      obtain ⟨_, _, hfails⟩ := hcommits.fails h.whole fun haccepted => hd haccepted.1
      have hsender : S.storedSender = a := by
        simp only [S, Settlement.storedSender, hS, reduceCtorEq, if_false]
      have hreceiver : S.storedReceiver = b := by
        simp only [S, Settlement.storedReceiver, hS, reduceCtorEq, if_false]
      have haccounts : db'.accounts = db.accounts := hfails.accounts
      have hfind : db'.findAccount id = db.findAccount id := by
        simp only [Database.findAccount, haccounts]
      rw [hfind, hsender, hreceiver]
      split_ifs with hfrom hto
      · rw [hfrom, hreaches.findsSender]
        exact .some ha
      · rw [hto, hreaches.findsReceiver]
        exact .some hb
      · exact h.accounts id

/-- Both sides end in the same way, and what the store then keeps is mirrored. -/
structure Agree (s : MemoryStore) (command : TransferCommand)
    (run : Except Exn Response × Option Settlement) (run' : SerialRun) : Prop where
  outcome : SameOutcome run.1 run'.outcome
  mirrors : ∀ s', (match run.2 with
    | none => s.Same s'
    | some S => s.Settles command S s') → Mirrors s' run'.db

theorem agree_unchanged (h : Mirrors s db) {outcome outcome' : Except Exn Response}
    (hsame : SameOutcome outcome outcome') :
    Agree s command (outcome, none) (.unchanged outcome' db) :=
  ⟨hsame, fun _ hs => h.same hs⟩

/-- A transfer between two stored accounts. -/
theorem agree_settles (h : Mirrors s db) (hnew : db.findTransaction draws.tx.id = none)
    (hregular : command.Regular db) (hunused : db.findByKey command.idempotencyKey = none)
    (hmoney : command.money = .ok amount) (hne : command.fromAccountId ≠ command.toAccountId) :
    Agree s command (match command.settlement draws amount s.findAccount with
      | .error e => (.error e, none)
      | .ok S =>
        match S.raised with
        | none => (.ok (.transaction (.fromAggregate S.tx)), some S)
        | some e => (.error e, some S)) (command.serial draws db) := by
  have hserial := TransferCommand.serial_settles draws hunused hmoney hne
  have hsender := h.accounts command.fromAccountId
  have hreceiver := h.accounts command.toAccountId
  unfold TransferCommand.settlement
  cases hfrom : s.findAccount command.fromAccountId with
  | none =>
    rw [hfrom] at hsender
    rw [hserial]
    simp only [TransferCommand.resolve, none_of_rel hsender]
    exact h.agree_unchanged (sameOutcome_refl _)
  | some a =>
    rw [hfrom] at hsender
    obtain ⟨sender, hsender, ha⟩ := some_of_rel hsender
    cases hto : s.findAccount command.toAccountId with
    | none =>
      rw [hto] at hreceiver
      rw [hserial]
      simp only [TransferCommand.resolve, hsender, ha.loads, none_of_rel hreceiver]
      exact h.agree_unchanged (sameOutcome_refl _)
    | some b =>
      rw [hto] at hreceiver
      obtain ⟨receiver, hreceiver, hb⟩ := some_of_rel hreceiver
      cases htx : Transaction.initiate draws.tx command.fromAccountId command.toAccountId amount
          command.idempotencyKey with
      | error e =>
        rw [hserial]
        simp only [TransferCommand.resolve, hsender, ha.loads, hreceiver, hb.loads, htx]
        exact h.agree_unchanged (sameOutcome_refl _)
      | ok tx =>
        have hreaches : command.Reaches db amount sender receiver :=
          ⟨hunused, hmoney, (Transaction.initiate_ok htx).1, hne, hsender, hreceiver⟩
        obtain ⟨hfits, haccepts⟩ := hregular amount sender receiver hreaches
        obtain ⟨hsame, hmirrors⟩ := h.settled hnew hreaches hfits haccepts ha hb htx
        simp only
        generalize draws.settle amount a b tx = S at hsame hmirrors
        cases hraised : S.raised with
        | none =>
          rw [hraised] at hsame
          exact ⟨hsame, hmirrors⟩
        | some e =>
          rw [hraised] at hsame
          exact ⟨hsame, hmirrors⟩

/-- A transfer on both sides. -/
theorem agree_transfer (h : Mirrors s db) (hnew : db.findTransaction draws.tx.id = none)
    (hregular : command.Regular db) :
    Agree s command (command.inMemory draws s) (command.serial draws db) := by
  have hkey := h.keys command.idempotencyKey
  unfold TransferCommand.inMemory
  cases hfound : s.findByKey command.idempotencyKey with
  | some tx =>
    rw [hfound] at hkey
    obtain ⟨row, hrow, htx⟩ := some_of_rel hkey
    obtain ⟨tx', hloads, hdto⟩ := htx.dto
    rw [TransferCommand.serial_found hrow, hloads]
    apply h.agree_unchanged
    simp only [Except.map, hdto]
    exact sameOutcome_refl _
  | none =>
    rw [hfound] at hkey
    have hunused := none_of_rel hkey
    cases hmoney : command.money with
    | error e =>
      simp only [TransferCommand.serial, hunused, hmoney]
      exact h.agree_unchanged (sameOutcome_refl _)
    | ok amount =>
      by_cases hne : command.fromAccountId = command.toAccountId
      · simp only [TransferCommand.serial, hunused, hmoney, if_pos hne]
        -- both lock managers refuse the second key, in different words
        exact h.agree_unchanged rfl
      · simp only [if_neg hne]
        exact h.agree_settles hnew hregular hunused hmoney hne

end Mirrors

/-! ## Sequences of calls -/

/-- The account that is opened has a new number and a balance that the column holds, and that
is no negative zero. -/
def CreateAccountCommand.Regular (command : CreateAccountCommand) (draws : AccountDraws)
    (db : Database) : Prop :=
  ∀ a, command.opened draws = .ok a → a.balance.Unsigned ∧ a.balance.cents < 10 ^ 17 ∧
    a.accountNumber ∉ db.accounts.map (·.accountNumber)

def Request.Regular (db : Database) (r : Request) : Prop :=
  r.New db ∧ match r with
    | .create draws command => command.Regular draws db
    | .transfer _ command => command.Regular db

/-- An account opening on both sides. -/
theorem Mirrors.agree_create {s : MemoryStore} {db : Database} (h : Mirrors s db)
    {draws : AccountDraws} {command : CreateAccountCommand}
    (hnew : db.findAccount draws.id = none) (hregular : command.Regular draws db) :
    SameOutcome (s.perform (.create draws command)).1 (command.serial draws db).outcome ∧
      Mirrors (s.perform (.create draws command)).2 (command.serial draws db).db := by
  have hperform := MemoryStore.perform_create h.consistent draws command
  unfold CreateAccountCommand.serial
  cases hopened : command.opened draws with
  | error e =>
    rw [hopened] at hperform
    rw [hperform]
    exact ⟨sameOutcome_refl _, h⟩
  | ok a =>
    rw [hopened] at hperform
    obtain ⟨houtcome, hs⟩ := hperform
    obtain ⟨hunsigned, hfits, hnumber⟩ := hregular a hopened
    have hid : a.id = draws.id := CreateAccountCommand.opened_id hopened
    have hstored : Numeric.store a.balance.amount = some (Numeric.ofCents a.balance.cents hfits) :=
      Money.store_of_isCents (Numeric.isCents_ofCents _ hfits)
    rw [← hid] at hnew
    obtain ⟨db', hdb'⟩ : ∃ db', db.insertAccount (AccountMapper.toNewOrm a) = .ok db' := by
      have hstored' : Numeric.store (AccountMapper.toNewOrm a).balance = _ := hstored
      have hkeys : (AccountMapper.toNewOrm a).id ∉ db.accounts.map (·.id) ∧
          (AccountMapper.toNewOrm a).accountNumber ∉ db.accounts.map (·.accountNumber) :=
        ⟨Database.findAccount_eq_none.mp hnew, hnumber⟩
      simp only [Database.insertAccount, hstored', dif_pos hkeys]
      exact ⟨_, rfl⟩
    have hinserted := Database.insertAccount_ok.mp hdb'
    have hflush := Database.flush_opened.mpr hinserted
    obtain ⟨balance, hbalance, -, -, haccounts, htransactions, -⟩ := hinserted
    simp only [hflush]
    exact ⟨houtcome ▸ sameOutcome_refl _,
      h.opens hs hunsigned hbalance hnew haccounts htransactions⟩

/-- One call on both sides. -/
theorem Mirrors.step {s : MemoryStore} {server : Server} (h : Mirrors s server.db)
    (hidle : server.Idle) {r : Request} (hr : r.Regular server.db) :
    SameOutcome (s.perform r).1 (server.outcome r) ∧ Mirrors (s.perform r).2 (server.after r).db ∧
      (server.after r).Idle := by
  obtain ⟨hnew, hregular⟩ := hr
  have hleft := Server.runAlone_serial hidle hnew
  have hafter : (server.after r).db = (r.serial server.db).db := hleft.ended.db
  have houtcome : server.outcome r = (r.serial server.db).outcome := hleft.outcome
  rw [hafter, houtcome]
  cases r with
  | create draws command =>
    obtain ⟨hsame, hmirrors⟩ := h.agree_create hnew hregular
    exact ⟨hsame, hmirrors, hleft.ended.idle⟩
  | transfer draws command =>
    have hends := MemoryStore.perform_transfer h.consistent (h.new hnew) command
    have hagree := h.agree_transfer hnew hregular
    refine ⟨?_, hagree.mirrors _ hends.store, hleft.ended.idle⟩
    rw [hends.outcome]
    exact hagree.outcome

/-- The outcomes of calls that are made one after the other, and the store after them. -/
def MemoryStore.performAll : MemoryStore → List Request → List (Except Exn Response) × MemoryStore
  | s, [] => ([], s)
  | s, r :: rest =>
    let (outcome, s') := s.perform r
    let (outcomes, s'') := s'.performAll rest
    (outcome :: outcomes, s'')

/-- The same, on an idle server. -/
def Server.performAll : Server → List Request → List (Except Exn Response) × Server
  | s, [] => ([], s)
  | s, r :: rest =>
    let (outcomes, s') := (s.after r).performAll rest
    (s.outcome r :: outcomes, s')

/-- Every call is regular when it is made. -/
def Server.Regular : Server → List Request → Prop
  | _, [] => True
  | s, r :: rest => r.Regular s.db ∧ (s.after r).Regular rest

/-- The same outcomes, call by call, and the same things stored afterwards. -/
def Faithful (s : MemoryStore) (server : Server) (calls : List Request) : Prop :=
  List.Forall₂ SameOutcome (s.performAll calls).1 (server.performAll calls).1 ∧
    SameStored (s.performAll calls).2 (server.performAll calls).2.db

theorem Mirrors.faithful {s : MemoryStore} {server : Server} (h : Mirrors s server.db)
    (hidle : server.Idle) {calls : List Request} (hregular : server.Regular calls) :
    Faithful s server calls := by
  induction calls generalizing s server with
  | nil => exact ⟨.nil, h.toSameStored⟩
  | cons r rest ih =>
    obtain ⟨hr, hrest⟩ := hregular
    obtain ⟨hsame, hmirrors, hidle'⟩ := h.step hidle hr
    obtain ⟨houtcomes, hstored⟩ := ih hmirrors hidle' hrest
    exact ⟨.cons hsame houtcomes, hstored⟩

/-! ## Existing accounts -/

theorem Mirrors.forM_add {accounts : List Account} {s : MemoryStore} {db db' : Database}
    (h : Mirrors s db) (hunsigned : ∀ a ∈ accounts, a.balance.Unsigned)
    (hinsert : (accounts.map AccountMapper.toNewOrm).foldlM Database.insertAccount db = .ok db') :
    Mirrors ((accounts.forM InMemoryAccountRepository.add : MemoryTask Unit).eval s).2 db' := by
  induction accounts generalizing s db with
  | nil =>
    obtain rfl := Except.ok.inj hinsert
    exact h
  | cons a rest ih =>
    rw [List.map_cons, List.foldlM_cons, bind_eq_ok] at hinsert
    obtain ⟨mid, hmid, hrest⟩ := hinsert
    obtain ⟨balance, hbalance, hnew, -, haccounts, htransactions, -⟩ :=
      Database.insertAccount_ok.mp hmid
    have hadded : s.Opens a ((InMemoryAccountRepository.add a).eval s).2 :=
      h.consistent.opens rfl rfl rfl rfl h.consistent.held rfl
    change Mirrors ((InMemoryAccountRepository.add a >>= fun _ =>
      rest.forM InMemoryAccountRepository.add : MemoryTask Unit).eval s).2 db'
    rw [Task.eval_bind]
    exact ih (h.opens hadded (hunsigned a List.mem_cons_self) hbalance
      (Database.findAccount_eq_none.mpr hnew) haccounts htransactions)
      (fun b hb => hunsigned b (List.mem_cons_of_mem a hb)) hrest

/-- The database in which the accounts, and nothing else, are stored. -/
def Database.Holds (db : Database) (accounts : List Account) : Prop :=
  (accounts.map AccountMapper.toNewOrm).foldlM Database.insertAccount .empty = .ok db

theorem Mirrors.seeded {accounts : List Account} {db : Database} (h : db.Holds accounts)
    (hunsigned : ∀ a ∈ accounts, a.balance.Unsigned) : Mirrors (.seeded accounts) db := by
  have hempty : Mirrors ⟨.empty, .init⟩ .empty :=
    ⟨⟨fun _ => .none, fun _ => .none, fun _ => .none⟩, nofun, nofun, nofun, rfl⟩
  exact hempty.forM_add hunsigned h

/-- From the same accounts, regular calls give the same outcomes and leave the same things
stored over the in-memory adapters and over the database. -/
theorem double_faithful {accounts : List Account} {db : Database} {calls : List Request}
    (hdb : db.Holds accounts) (hunsigned : ∀ a ∈ accounts, a.balance.Unsigned)
    (hregular : (Server.quiet db).Regular calls) :
    Faithful (.seeded accounts) (.quiet db) calls :=
  (Mirrors.seeded hdb hunsigned).faithful (Server.idle_quiet db) hregular

/-! ## Samples -/

namespace Sample

theorem cents_lt_precision : 10000 < 10 ^ precision := by decide +kernel

theorem isHundredths_negativeZero : (Decimal.finite true 0 (-2)).IsHundredths := by decide +kernel

/-- `Request.Regular`, evaluated. -/
def isRegular (db : Database) : Request → Bool
  | .create draws command =>
    db.findAccount draws.id = none && match command.opened draws with
      | .error _ => true
      | .ok a => decide a.balance.Unsigned && decide (a.balance.cents < 10 ^ 17) &&
        decide (a.accountNumber ∉ db.accounts.map (·.accountNumber))
  | .transfer draws command =>
    db.findTransaction draws.tx.id = none && match command.money with
      | .error _ => true
      | .ok amount =>
        match db.findAccount command.fromAccountId, db.findAccount command.toAccountId with
        | some sender, some receiver =>
          decide (command.idempotencyKey.length ≤ Database.keyLength) &&
            decide (amount.cents < 10 ^ 17) && decide (sender.AcceptsDebit amount →
              receiver.AcceptsCredit amount ∧
                receiver.balance.units + 100 * amount.cents < 10 ^ 19)
        | _, _ => true

theorem isRegular_sound {db : Database} {r : Request} (h : isRegular db r = true) :
    r.Regular db := by
  cases r with
  | create draws command =>
    simp only [isRegular, Bool.and_eq_true, decide_eq_true_eq] at h
    refine ⟨h.1, fun a ha => ?_⟩
    rw [ha] at h
    simp only [Bool.and_eq_true, decide_eq_true_eq] at h
    exact ⟨h.2.1.1, h.2.1.2, h.2.2⟩
  | transfer draws command =>
    simp only [isRegular, Bool.and_eq_true, decide_eq_true_eq] at h
    refine ⟨h.1, fun amount sender receiver hreaches => ?_⟩
    rw [hreaches.money, hreaches.findsSender, hreaches.findsReceiver] at h
    simp only [Bool.and_eq_true, decide_eq_true_eq] at h
    obtain ⟨-, ⟨hlength, hamount⟩, haccepts⟩ := h
    exact ⟨⟨hlength, hamount, fun hd _ => (haccepts hd).2⟩, fun hd => (haccepts hd).1⟩

def areRegular : Server → List Request → Bool
  | _, [] => true
  | s, r :: rest => isRegular s.db r && areRegular (s.after r) rest

theorem areRegular_sound {s : Server} {calls : List Request} (h : areRegular s calls = true) :
    s.Regular calls := by
  induction calls generalizing s with
  | nil => trivial
  | cons r rest ih =>
    simp only [areRegular, Bool.and_eq_true] at h
    exact ⟨isRegular_sound h.1, ih h.2⟩

/-- An account with 100.00. -/
def account (id : UUID) (accountNumber : String) (currency : Currency) : Account :=
  .reconstitute id 9 accountNumber (.ofCents 10000 cents_lt_precision currency) .active 0 0

/-- An account whose balance is a negative zero. -/
def emptyAccount (id : UUID) (accountNumber : String) : Account :=
  .reconstitute id 9 accountNumber ⟨.finite true 0 (-2), .EUR, isHundredths_negativeZero⟩
    .active 0 0

def accounts : List Account := [account 1 "DE1" .EUR, account 2 "DE2" .EUR, account 3 "DE3" .USD]

/-- The database that holds the accounts, if there is one. -/
def holding (accounts : List Account) : Database :=
  match (accounts.map AccountMapper.toNewOrm).foldlM Database.insertAccount .empty with
  | .ok db => db
  | .error _ => .empty

theorem holds_holding {accounts : List Account}
    (h : ((accounts.map AccountMapper.toNewOrm).foldlM Database.insertAccount .empty).toBool =
      true) : (holding accounts).Holds accounts := by
  unfold holding Database.Holds
  split
  · assumption
  · rename_i heq
    rw [heq] at h
    cases h

def longKey : String := String.ofList (List.replicate 256 'k')

theorem keyLength_lt_longKey : Database.keyLength < longKey.length := by
  have hlength : longKey.length = 256 := String.length_ofList.trans List.length_replicate
  unfold Database.keyLength
  omega

def longKeyCommand : TransferCommand := { command with idempotencyKey := longKey }

end Sample

theorem double_faithful_sample :
    Faithful (.seeded Sample.accounts) (.quiet (Sample.holding Sample.accounts))
      [.transfer (Sample.draws 4) Sample.command, Sample.opening 5 5 "EUR",
        .transfer (Sample.draws 6) Sample.command] :=
  double_faithful (Sample.holds_holding (by decide +kernel)) (by decide +kernel)
    (Sample.areRegular_sound (by decide +kernel))

/-- What the two sides agree on when they are faithful. -/
theorem Faithful.agree {s : MemoryStore} {server : Server} {calls : List Request}
    (h : Faithful s server calls) :
    (s.performAll calls).1.map Except.toBool = (server.performAll calls).1.map Except.toBool ∧
      (∀ id, ((server.performAll calls).2.db.findAccount id).map (·.balance.units) =
        ((s.performAll calls).2.findAccount id).map fun a => 100 * (a.balance.cents : ℤ)) ∧
      ∀ id, ((server.performAll calls).2.db.findTransaction id).map (·.failureReason) =
        ((s.performAll calls).2.findTransaction id).map (·.failureReason) := by
  obtain ⟨houtcomes, hstored⟩ := h
  refine ⟨?_, fun id => ?_, fun id => ?_⟩
  · generalize (s.performAll calls).1 = outcomes at houtcomes ⊢
    generalize (server.performAll calls).1 = outcomes' at houtcomes ⊢
    induction houtcomes with
    | nil => rfl
    | @cons a b _ _ hsame _ ih =>
      rw [List.map_cons, List.map_cons, ih]
      congr 1
      cases a <;> cases b <;> first | rfl | cases hsame
  · have hrel := hstored.accounts id
    generalize (s.performAll calls).2.findAccount id = found at hrel ⊢
    generalize (server.performAll calls).2.db.findAccount id = row at hrel ⊢
    cases hrel with
    | none => rfl
    | some h => exact congrArg some h.cents
  · have hrel := hstored.transactions id
    generalize (s.performAll calls).2.findTransaction id = found at hrel ⊢
    generalize (server.performAll calls).2.db.findTransaction id = stored at hrel ⊢
    cases hrel with
    | none => rfl
    | @some tx row h =>
      have hreason : row.failureReason = tx.failureReason := by
        rw [h.row_eq]
        rfl
      exact congrArg some hreason

/-- The database refuses what does not fit its columns. -/
theorem Server.long_key {db : Database} (hwhole : db.Whole) {draws : TransferDraws}
    (hnew : db.findTransaction draws.tx.id = none) {command : TransferCommand} {amount : Money}
    {sender receiver : AccountRow} (hreaches : command.Reaches db amount sender receiver)
    (hlong : Database.keyLength < command.idempotencyKey.length) :
    (Server.quiet db).outcome (.transfer draws command) = .error .dbapiError := by
  obtain ⟨-, -, houtcome⟩ := Server.transfer_left (Server.idle_quiet db) hnew command
  obtain ⟨_, _, _, _, _, -, -, hrefused⟩ := hreaches.serial hwhole hnew
  rw [houtcome]
  change (command.serial draws db).outcome = _
  rw [hrefused fun hfits => absurd hfits.key (not_le.mpr hlong)]
  rfl

/-- The store keeps a debit whose credit was refused, a key that is too long for its column, and
the sign of a negative zero in the reason of a failure. -/
theorem double_unfaithful :
    ¬ Faithful (.seeded Sample.accounts) (.quiet (Sample.holding Sample.accounts))
        [.transfer (Sample.draws 4) { Sample.command with toAccountId := 3 }] ∧
      ¬ Faithful (.seeded Sample.accounts) (.quiet (Sample.holding Sample.accounts))
        [.transfer (Sample.draws 4) Sample.longKeyCommand] ∧
      ¬ Faithful (.seeded [Sample.emptyAccount 1 "DE1", Sample.account 2 "DE2" .EUR])
        (.quiet (Sample.holding [Sample.emptyAccount 1 "DE1", Sample.account 2 "DE2" .EUR]))
        [.transfer (Sample.draws 4) Sample.command] := by
  refine ⟨fun h => ?_, fun h => ?_, fun h => ?_⟩
  · exact absurd (h.agree.2.1 1) (by decide +kernel)
  · have hmemory : ((MemoryStore.seeded Sample.accounts).performAll
        [.transfer (Sample.draws 4) Sample.longKeyCommand]).1.map Except.toBool = [true] := by
      decide +kernel
    have hwhole : (Sample.holding Sample.accounts).Whole :=
      (Mirrors.seeded (Sample.holds_holding (by decide +kernel)) (by decide +kernel)).whole
    obtain ⟨sender, hsender⟩ : ∃ row, (Sample.holding Sample.accounts).findAccount 1 = some row :=
      Option.isSome_iff_exists.mp (by decide +kernel)
    obtain ⟨receiver, hreceiver⟩ :
        ∃ row, (Sample.holding Sample.accounts).findAccount 2 = some row :=
      Option.isSome_iff_exists.mp (by decide +kernel)
    have hreaches : Sample.longKeyCommand.Reaches (Sample.holding Sample.accounts)
        (.ofCents 3000 (by decide +kernel) .EUR) sender receiver :=
      ⟨Database.findByKey_eq_none.mpr (by decide +kernel), by decide +kernel, by decide, by decide,
        hsender, hreceiver⟩
    have hserver : (Server.quiet (Sample.holding Sample.accounts)).outcome
        (.transfer (Sample.draws 4) Sample.longKeyCommand) = .error .dbapiError :=
      Server.long_key hwhole (by decide +kernel) hreaches Sample.keyLength_lt_longKey
    have hagree := h.agree.1
    rw [hmemory] at hagree
    change [true] = [((Server.quiet (Sample.holding Sample.accounts)).outcome
      (.transfer (Sample.draws 4) Sample.longKeyCommand)).toBool] at hagree
    rw [hserver] at hagree
    cases hagree
  · exact absurd (h.agree.2.2 4) (by decide +kernel)

end BankingTransactions
