import BankingTransactions.SerialExecution
import BankingTransactions.Histories

/-!
# The outcomes of a transfer that runs alone

There are three, and the database decides between them: the amount moves, a failure
is recorded, or nothing is committed. `Succeeds` and `RecordsFailure` are the
conditions on the database for the first two. None of the conditions depends on what
the transfer draws, so the same command ends in the same way when it is repeated.
-/
namespace BankingTransactions
open DecimalArithmetic InteractionPrograms

namespace Database

/-- Updates of existing rows are refused only because a balance does not fit. -/
theorem updates_cases {db : Database} {orms : List AccountORM}
    (hrows : ∀ orm ∈ orms, orm.id ∈ db.accounts.map (·.id)) :
    if ∀ orm ∈ orms, (Numeric.store orm.balance).isSome
    then ∃ db', orms.foldlM updateAccount db = .ok db'
    else orms.foldlM updateAccount db = .error .dbapiError := by
  induction orms generalizing db with
  | nil => exact ⟨db, rfl⟩
  | cons orm orms ih =>
    rw [List.foldlM_cons]
    cases hstore : Numeric.store orm.balance with
    | none =>
      have hrefused : db.updateAccount orm = .error .dbapiError := by simp [updateAccount, hstore]
      rw [if_neg (by simp [hstore]), hrefused]
      rfl
    | some balance =>
      have hrow : orm.id ∈ db.accounts.map (·.id) := hrows orm List.mem_cons_self
      obtain ⟨db', hupdate⟩ : ∃ db', db.updateAccount orm = .ok db' := by
        simp [updateAccount, hstore, hrow]
      have hids : db'.accounts.map (·.id) = db.accounts.map (·.id) := by
        obtain ⟨balance', -, -, haccounts, -, -⟩ := updateAccount_ok.mp hupdate
        simp only [haccounts, List.map_map, Function.comp_def, setAccount_id]
      have hrest := @ih db' fun o ho => hids ▸ hrows o (List.mem_cons_of_mem _ ho)
      have hfits : (∀ o ∈ orm :: orms, (Numeric.store o.balance).isSome) ↔
          ∀ o ∈ orms, (Numeric.store o.balance).isSome := by
        simp [hstore]
      rw [hupdate]
      simp only [hfits]
      exact hrest

/-- The flush of a new transaction is refused only because something does not fit. -/
theorem flush_transfer_cases {db : Database} {dirty : List AccountORM} (orm : TransactionORM)
    (messages : List OutboxMessage) (hdirty : ∀ o ∈ dirty, o.id ∈ db.accounts.map (·.id))
    (hid : db.findTransaction orm.id = none) (hkey : db.findByKey orm.idempotencyKey = none) :
    if (∀ o ∈ dirty, (Numeric.store o.balance).isSome) ∧ (Numeric.store orm.amount).isSome ∧
      orm.idempotencyKey.length ≤ keyLength
    then ∃ db', db.flush ⟨[], dirty, [orm], [], messages⟩ = .ok db'
    else db.flush ⟨[], dirty, [orm], [], messages⟩ = .error .dbapiError := by
  have hupdates := updates_cases hdirty
  by_cases hfits : ∀ o ∈ dirty, (Numeric.store o.balance).isSome
  · rw [if_pos hfits] at hupdates
    obtain ⟨moved, hmoved⟩ := hupdates
    have hkept := (updates_keep hmoved).1
    have hinsert : db.flush ⟨[], dirty, [orm], [], messages⟩ = do
        let db ← moved.insertTransaction orm
        return { db with outbox := db.outbox ++ messages } := by
      simp only [flush, hmoved, List.foldlM_cons, List.foldlM_nil, bind_pure, pure_bind]
      rfl
    have hid' : orm.id ∉ moved.transactions.map (·.id) := by
      rwa [hkept, ← findTransaction_eq_none]
    have hkey' : orm.idempotencyKey ∉ moved.transactions.map (·.idempotencyKey) := by
      rwa [hkept, ← findByKey_eq_none]
    rw [hinsert]
    cases hstore : Numeric.store orm.amount with
    | none =>
      rw [if_neg (by simp)]
      simp only [insertTransaction, hstore]
      rfl
    | some amount =>
      by_cases hlength : orm.idempotencyKey.length ≤ keyLength
      · rw [if_pos ⟨hfits, rfl, hlength⟩]
        simp only [insertTransaction, hstore, if_neg (not_lt.mpr hlength),
          dif_pos (And.intro hid' hkey')]
        exact ⟨_, rfl⟩
      · rw [if_neg fun h => hlength h.2.2]
        simp only [insertTransaction, hstore, if_pos (not_le.mp hlength)]
        rfl
  · rw [if_neg hfits] at hupdates
    rw [if_neg fun h => hfits h.1]
    simp only [flush, List.foldlM_nil, pure_bind, hupdates]
    rfl

end Database

/-! ## The conditions on the database -/

namespace TransferCommand

variable (command : TransferCommand) (db : Database)

/-- The key is new and steps 2 to 6 find nothing wrong. -/
structure Reaches (amount : Money) (sender receiver : AccountRow) : Prop where
  unused : db.findByKey command.idempotencyKey = none
  money : command.money = .ok amount
  positive : amount.cents ≠ 0
  distinct : command.fromAccountId ≠ command.toAccountId
  findsSender : db.findAccount command.fromAccountId = some sender
  findsReceiver : db.findAccount command.toAccountId = some receiver

/-- The columns hold what the transfer writes. -/
structure Fits (amount : Money) (sender receiver : AccountRow) : Prop where
  key : command.idempotencyKey.length ≤ Database.keyLength
  storable : amount.cents < 10 ^ 17
  credited : sender.AcceptsDebit amount → receiver.AcceptsCredit amount →
    receiver.balance.units + 100 * amount.cents < 10 ^ 19

/-- The amount moves. -/
def Succeeds : Prop := ∃ amount sender receiver, command.Reaches db amount sender receiver ∧
  command.Fits amount sender receiver ∧ sender.AcceptsDebit amount ∧ receiver.AcceptsCredit amount

/-- A FAILED transaction is committed. -/
def RecordsFailure : Prop := ∃ amount sender receiver,
  command.Reaches db amount sender receiver ∧ command.Fits amount sender receiver ∧
    ¬ (sender.AcceptsDebit amount ∧ receiver.AcceptsCredit amount)

end TransferCommand

namespace TransferCommand

variable {command : TransferCommand} {db : Database} {amount : Money} {sender receiver : AccountRow}

theorem Reaches.resolve (h : command.Reaches db amount sender receiver) {a b : Account}
    (ha : AccountMapper.toDomain sender.load = .ok a)
    (hb : AccountMapper.toDomain receiver.load = .ok b) (draws : TransferDraws) :
    ∃ tx, Transaction.initiate draws.tx command.fromAccountId command.toAccountId amount
        command.idempotencyKey = .ok tx ∧
      command.resolve draws amount db.findAccount =
        .ok (sender, receiver, draws.settle amount a b tx) := by
  have hzero : amount.isZero = false := by simp [Money.isZero, h.positive]
  refine ⟨_, by rw [Transaction.initiate, hzero, if_neg (by simp), if_neg h.distinct], ?_⟩
  simp only [TransferCommand.resolve, h.findsSender, h.findsReceiver, ha, hb, Transaction.initiate,
    hzero, Bool.false_eq_true, if_false, if_neg h.distinct]

/-- The amount and the rows are determined. -/
theorem Reaches.unique {amount' : Money} {sender' receiver' : AccountRow}
    (h : command.Reaches db amount sender receiver)
    (h' : command.Reaches db amount' sender' receiver') :
    amount = amount' ∧ sender = sender' ∧ receiver = receiver' := by
  have hamount := h.money.symm.trans h'.money
  have hsender := h.findsSender.symm.trans h'.findsSender
  have hreceiver := h.findsReceiver.symm.trans h'.findsReceiver
  exact ⟨Except.ok.inj hamount, Option.some.inj hsender, Option.some.inj hreceiver⟩

/-- A transfer whose key is stored ends as the stored transaction says. -/
theorem serial_found {row : TransactionRow} (hkey : db.findByKey command.idempotencyKey = some row)
    (draws : TransferDraws) :
    command.serial draws db = .unchanged ((TransactionMapper.toDomain row.load).map fun tx =>
      .transaction (TransactionDTO.fromAggregate tx)) db := by
  simp only [serial, hkey]

/-- A new transfer that reaches no settlement is refused in the same way whatever it draws. -/
theorem reaches_or_refused (hwhole : db.Whole)
    (hkey : db.findByKey command.idempotencyKey = none) :
    (∃ amount sender receiver, command.Reaches db amount sender receiver) ∨
      ∃ e, ∀ draws, command.serial draws db = .unchanged (.error e) db := by
  cases hmoney : command.money with
  | error e => exact .inr ⟨e, fun draws => by simp only [serial, hkey, hmoney]⟩
  | ok amount =>
    by_cases hne : command.fromAccountId = command.toAccountId
    · exact .inr ⟨Server.lockTimeout (RedisLockManager.lockKey command.fromAccountId.str),
        fun draws => by simp only [serial, hkey, hmoney, if_pos hne]⟩
    have hsettles := fun draws => serial_settles draws hkey hmoney hne
    cases hsender : db.findAccount command.fromAccountId with
    | none =>
      exact .inr ⟨.resourceNotFound "Account" command.fromAccountId, fun draws => by
        simp only [hsettles, TransferCommand.resolve, hsender]⟩
    | some sender =>
      obtain ⟨cs, hcs⟩ := hwhole.of_find hsender
      cases hreceiver : db.findAccount command.toAccountId with
      | none =>
        exact .inr ⟨.resourceNotFound "Account" command.toAccountId, fun draws => by
          simp only [hsettles, TransferCommand.resolve, hsender, AccountMapper.toDomain_load hcs,
            hreceiver]⟩
      | some receiver =>
        obtain ⟨cr, hcr⟩ := hwhole.of_find hreceiver
        by_cases hpositive : amount.cents = 0
        · have hzero : amount.isZero = true := by simp [Money.isZero, hpositive]
          exact .inr ⟨.invalidTransferAmount amount, fun draws => by
            simp only [hsettles, TransferCommand.resolve, hsender, AccountMapper.toDomain_load hcs,
              hreceiver, AccountMapper.toDomain_load hcr, Transaction.initiate, hzero, if_true]⟩
        · exact .inl ⟨amount, sender, receiver, hkey, hmoney, hpositive, hne, hsender, hreceiver⟩

/-- What a settlement writes is in the range of the columns. -/
def Storable (S : Settlement) (sender receiver : AccountRow) : Prop :=
  (∀ o ∈ (S.flush sender receiver).dirtyAccounts, (Numeric.store o.balance).isSome) ∧
    (Numeric.store S.tx.amount.amount).isSome ∧ S.tx.idempotencyKey.length ≤ Database.keyLength

theorem store_isSome (m : Money) : (Numeric.store m.amount).isSome ↔ m.cents < 10 ^ 17 := by
  rw [Money.store_amount]
  split_ifs with h
  · exact iff_of_true rfl h
  · exact iff_of_false (by simp) h

instance (S : Settlement) (sender receiver : AccountRow) :
    Decidable (Storable S sender receiver) := by
  unfold Storable
  infer_instance

/-- The columns hold the amounts that a settlement writes, and the new balances, exactly
when they hold the amount and the credited balance. -/
theorem amounts_storable_iff {cs cr : ℕ} (hcs : sender.balance.IsCents cs)
    (hcr : receiver.balance.IsCents cr) {draws : TransferDraws} {tx : Transaction}
    (htx : Transaction.initiate draws.tx command.fromAccountId command.toAccountId amount
      command.idempotencyKey = .ok tx) {S : Settlement}
    (hS : S = draws.settle amount (sender.account cs hcs) (receiver.account cr hcr) tx) :
    ((∀ o ∈ (S.flush sender receiver).dirtyAccounts, (Numeric.store o.balance).isSome) ∧
      (Numeric.store S.tx.amount.amount).isSome) ↔
    amount.cents < 10 ^ 17 ∧ (sender.AcceptsDebit amount → receiver.AcceptsCredit amount →
      receiver.balance.units + 100 * amount.cents < 10 ^ 19) := by
  obtain ⟨-, -, htx'⟩ := Transaction.initiate_ok htx
  obtain ⟨-, hamount, -⟩ := draws.settle_tx_same amount (sender.account cs hcs)
    (receiver.account cr hcr) (show tx.status = .pending by rw [htx']; rfl)
  have hamount' : S.tx.amount = amount := by rw [hS, hamount, htx']; rfl
  rw [hamount', store_isSome]
  have hdebit := AccountRecord.canDebit_account hcs amount
  by_cases haccepted : (sender.account cs hcs).CanDebit amount ∧
      (receiver.account cr hcr).CanCredit amount
  · obtain ⟨hd, hc⟩ := haccepted
    obtain ⟨bs, br, -, hbs, -, hbr, haccept⟩ := draws.settle_of_accepted tx hd hc
    have hbs' : bs.cents + amount.cents = cs := hbs
    have hbr' : br.cents = cr + amount.cents := hbr
    have hcs17 := hcs.lt
    have hcr17 := hcr.lt
    have hdirty : (∀ o ∈ (S.flush sender receiver).dirtyAccounts,
        (Numeric.store o.balance).isSome) ↔ bs.cents < 10 ^ 17 ∧ br.cents < 10 ^ 17 := by
      rw [hS, haccept, ← store_isSome, ← store_isSome]
      simp only [Settlement.flush, List.forall_mem_cons, List.not_mem_nil, false_imp_iff,
        implies_true, and_true]
      rfl
    rw [hdirty]
    constructor
    · rintro ⟨⟨-, hbr17⟩, hamount17⟩
      refine ⟨hamount17, fun _ _ => ?_⟩
      rw [hcr]
      omega
    · rintro ⟨hamount17, hfits⟩
      have hfits' := hfits (hdebit.mp hd) ((AccountRecord.canCredit_account hcr hamount17).mp hc)
      rw [hcr] at hfits'
      exact ⟨⟨by omega, by omega⟩, hamount17⟩
  · have hdirty : (S.flush sender receiver).dirtyAccounts = [] := by
      obtain ⟨e, hraised⟩ := draws.settle_raised tx haccepted
      rw [hS]
      simp only [Settlement.flush, hraised]
    rw [hdirty]
    constructor
    · rintro ⟨-, hamount17⟩
      refine ⟨hamount17, fun hd hc => absurd ⟨hdebit.mpr hd, ?_⟩ haccepted⟩
      exact (AccountRecord.canCredit_account hcr hamount17).mpr hc
    · rintro ⟨hamount17, -⟩
      exact ⟨by simp, hamount17⟩

/-- A settlement is storable exactly when the command fits. -/
theorem storable_iff {cs cr : ℕ} (hcs : sender.balance.IsCents cs)
    (hcr : receiver.balance.IsCents cr) {draws : TransferDraws} {tx : Transaction}
    (htx : Transaction.initiate draws.tx command.fromAccountId command.toAccountId amount
      command.idempotencyKey = .ok tx) :
    Storable (draws.settle amount (sender.account cs hcs) (receiver.account cr hcr) tx) sender
      receiver ↔ command.Fits amount sender receiver := by
  obtain ⟨-, -, htx'⟩ := Transaction.initiate_ok htx
  obtain ⟨-, -, hkey⟩ := draws.settle_tx_same amount (sender.account cs hcs)
    (receiver.account cr hcr) (show tx.status = .pending by rw [htx']; rfl)
  have hkey' : tx.idempotencyKey = command.idempotencyKey := by rw [htx']; rfl
  rw [Storable, ← and_assoc, amounts_storable_iff hcs hcr htx rfl, hkey, hkey']
  constructor
  · rintro ⟨⟨hamount, hcredited⟩, hlength⟩
    exact ⟨hlength, hamount, hcredited⟩
  · rintro ⟨hlength, hamount, hcredited⟩
    exact ⟨⟨hamount, hcredited⟩, hlength⟩

/-- What was resolved is committed by a new transfer, unless something does not fit. -/
theorem flush_settlement {draws : TransferDraws} {S : Settlement}
    (hresolve : command.resolve draws amount db.findAccount = .ok (sender, receiver, S))
    (hkey : db.findByKey command.idempotencyKey = none)
    (hnew : db.findTransaction draws.tx.id = none) :
    if Storable S sender receiver then ∃ db', db.flush (S.flush sender receiver) = .ok db'
    else db.flush (S.flush sender receiver) = .error .dbapiError := by
  obtain ⟨hsender, hreceiver, a, b, tx, -, -, htx, rfl⟩ := resolve_ok.mp hresolve
  obtain ⟨-, -, htx'⟩ := Transaction.initiate_ok htx
  obtain ⟨hid, -, hkey'⟩ := draws.settle_tx_same amount a b
    (show tx.status = .pending by rw [htx']; rfl)
  have hid' : (draws.settle amount a b tx).tx.id = draws.tx.id := by rw [hid, htx']; rfl
  have hkeyed : (draws.settle amount a b tx).tx.idempotencyKey = command.idempotencyKey := by
    rw [hkey', htx']; rfl
  generalize draws.settle amount a b tx = S at *
  have hdirty : ∀ o ∈ (S.flush sender receiver).dirtyAccounts, o.id ∈ db.accounts.map (·.id) := by
    intro o ho
    have hmem {row : AccountRow} {id : AccountId} (hrow : db.findAccount id = some row) :
        row.id ∈ db.accounts.map (·.id) :=
      List.mem_map_of_mem (Database.findAccount_eq_some.mp hrow).1
    cases hraised : S.raised with
    | some e => simp [Settlement.flush, hraised] at ho
    | none =>
      simp only [Settlement.flush, hraised, List.mem_cons, List.not_mem_nil, or_false] at ho
      rcases ho with rfl | rfl
      · exact hmem hsender
      · exact hmem hreceiver
  exact Database.flush_transfer_cases (TransactionMapper.toNewOrm S.tx)
    (S.flush sender receiver).newOutbox hdirty (by rw [← hnew, ← hid']; rfl)
    (by rw [← hkey, ← hkeyed]; rfl)

/-- A transfer that reaches a settlement commits it, unless something does not fit. -/
theorem Reaches.serial (hwhole : db.Whole) (h : command.Reaches db amount sender receiver)
    {draws : TransferDraws} (hnew : db.findTransaction draws.tx.id = none) :
    ∃ (cs cr : ℕ) (hcs : sender.balance.IsCents cs) (hcr : receiver.balance.IsCents cr)
      (tx : Transaction), Transaction.initiate draws.tx command.fromAccountId command.toAccountId
        amount command.idempotencyKey = .ok tx ∧
      let S := draws.settle amount (sender.account cs hcs) (receiver.account cr hcr) tx
      (command.Fits amount sender receiver → ∃ db',
        command.serial draws db = .committed S (S.flush sender receiver) db' ∧
        Commit.Legal ⟨0, .transfer draws command, db, S.flush sender receiver, db'⟩) ∧
      (¬ command.Fits amount sender receiver →
        command.serial draws db = .unchanged (.error .dbapiError) db) := by
  obtain ⟨cs, hcs⟩ := hwhole.of_find h.findsSender
  obtain ⟨cr, hcr⟩ := hwhole.of_find h.findsReceiver
  obtain ⟨tx, htx, hresolve⟩ :=
    h.resolve (AccountMapper.toDomain_load hcs) (AccountMapper.toDomain_load hcr) draws
  refine ⟨cs, cr, hcs, hcr, tx, htx, ?_⟩
  have hfits := storable_iff hcs hcr htx
  have hsettles := serial_settles draws h.unused h.money h.distinct
  simp only [hresolve] at hsettles
  have hflush := flush_settlement hresolve h.unused hnew
  generalize draws.settle amount (sender.account cs hcs) (receiver.account cr hcr) tx = S at *
  refine ⟨fun hfit => ?_, fun hfit => ?_⟩
  · rw [if_pos (hfits.mpr hfit)] at hflush
    obtain ⟨db', hdb'⟩ := hflush
    refine ⟨db', by simp only [hsettles, hdb'], ⟨?_, hdb'⟩⟩
    exact Request.flush_transfer_ok.mpr ⟨amount, sender, receiver, S, h.money, hresolve, rfl⟩
  · rw [if_neg (mt hfits.mp hfit)] at hflush
    simp only [hsettles, hflush]

/-- A transfer that runs alone commits the settlement `S`. -/
structure Commits (command : TransferCommand) (draws : TransferDraws) (db : Database)
    (amount : Money) (sender receiver : AccountRow) (tx : Transaction) (S : Settlement)
    (db' : Database) : Prop where
  reaches : command.Reaches db amount sender receiver
  fits : command.Fits amount sender receiver
  initiated : Transaction.initiate draws.tx command.fromAccountId command.toAccountId amount
    command.idempotencyKey = .ok tx
  settled : ∃ (cs cr : ℕ) (hcs : sender.balance.IsCents cs) (hcr : receiver.balance.IsCents cr),
    S = draws.settle amount (sender.account cs hcs) (receiver.account cr hcr) tx
  serial : command.serial draws db = .committed S (S.flush sender receiver) db'
  legal : Commit.Legal ⟨0, .transfer draws command, db, S.flush sender receiver, db'⟩

theorem Reaches.commits (hwhole : db.Whole) (h : command.Reaches db amount sender receiver)
    (hfits : command.Fits amount sender receiver) {draws : TransferDraws}
    (hnew : db.findTransaction draws.tx.id = none) :
    ∃ tx S db', command.Commits draws db amount sender receiver tx S db' := by
  obtain ⟨cs, cr, hcs, hcr, tx, htx, hcommits, -⟩ := h.serial hwhole hnew
  obtain ⟨db', hserial, hlegal⟩ := hcommits hfits
  exact ⟨tx, _, db', h, hfits, htx, ⟨cs, cr, hcs, hcr, rfl⟩, hserial, hlegal⟩

/-- A new transfer ends in one of three ways, and draws have no say in which. -/
theorem serial_refused (hwhole : db.Whole) (hkey : db.findByKey command.idempotencyKey = none)
    (hsucceeds : ¬ command.Succeeds db) (hfails : ¬ command.RecordsFailure db) :
    ∃ e, ∀ draws : TransferDraws, db.findTransaction draws.tx.id = none →
      command.serial draws db = .unchanged (.error e) db := by
  obtain ⟨amount, sender, receiver, hreaches⟩ | ⟨e, he⟩ := reaches_or_refused hwhole hkey
  · refine ⟨.dbapiError, fun draws hnew => ?_⟩
    obtain ⟨cs, cr, hcs, hcr, tx, -, -, hrefused⟩ := hreaches.serial hwhole hnew
    refine hrefused fun hfits => ?_
    by_cases haccepted : sender.AcceptsDebit amount ∧ receiver.AcceptsCredit amount
    · exact hsucceeds ⟨amount, sender, receiver, hreaches, hfits, haccepted⟩
    · exact hfails ⟨amount, sender, receiver, hreaches, hfits, haccepted⟩
  · exact ⟨e, fun draws _ => he draws⟩

namespace Commits

variable {draws : TransferDraws} {tx : Transaction} {S : Settlement} {db' : Database}

theorem status (h : command.Commits draws db amount sender receiver tx S db') :
    tx.status = .pending := by
  obtain ⟨-, -, htx⟩ := Transaction.initiate_ok h.initiated
  rw [htx]
  rfl

/-- The settlement when both accounts accept. -/
theorem accepted (h : command.Commits draws db amount sender receiver tx S db')
    (hd : sender.AcceptsDebit amount) (hc : receiver.AcceptsCredit amount) :
    S.raised = none ∧ S.tx = draws.completedTx tx := by
  obtain ⟨cs, cr, hcs, hcr, rfl⟩ := h.settled
  have hd' := (AccountRecord.canDebit_account hcs amount).mpr hd
  have hc' := (AccountRecord.canCredit_account hcr h.fits.storable).mpr hc
  obtain ⟨bs, br, -, -, -, -, hS⟩ := draws.settle_of_accepted tx hd' hc'
  rw [hS]
  exact ⟨rfl, rfl⟩

/-- The settlement when one of the accounts refuses. -/
theorem refused (h : command.Commits draws db amount sender receiver tx S db')
    (hr : ¬ (sender.AcceptsDebit amount ∧ receiver.AcceptsCredit amount)) :
    ∃ e, S.raised = some e := by
  obtain ⟨cs, cr, hcs, hcr, rfl⟩ := h.settled
  refine draws.settle_raised tx fun haccepted => hr ⟨?_, ?_⟩
  · exact (AccountRecord.canDebit_account hcs amount).mp haccepted.1
  · exact (AccountRecord.canCredit_account hcr h.fits.storable).mp haccepted.2

theorem completes (hwhole : db.Whole) (h : command.Commits draws db amount sender receiver tx S db')
    (hd : sender.AcceptsDebit amount) (hc : receiver.AcceptsCredit amount) :
    ∃ stored debited credited balance balance',
      Commit.Completes ⟨0, .transfer draws command, db, S.flush sender receiver, db'⟩ draws command
        amount sender receiver stored debited credited balance balance' := by
  obtain ⟨_, _, _, stored, debited, credited, balance, balance', hcompletes⟩ |
    ⟨_, _, _, _, _, hfails⟩ := Commit.legal_transfer h.legal hwhole rfl
  · obtain rfl := Except.ok.inj (h.reaches.money.symm.trans hcompletes.money)
    obtain rfl := Option.some.inj (h.reaches.findsSender.symm.trans hcompletes.findsSender)
    obtain rfl := Option.some.inj (h.reaches.findsReceiver.symm.trans hcompletes.findsReceiver)
    exact ⟨stored, debited, credited, balance, balance', hcompletes⟩
  · obtain rfl := Except.ok.inj (h.reaches.money.symm.trans hfails.money)
    obtain rfl := Option.some.inj (h.reaches.findsSender.symm.trans hfails.findsSender)
    obtain rfl := Option.some.inj (h.reaches.findsReceiver.symm.trans hfails.findsReceiver)
    exact absurd ⟨hd, hc⟩ hfails.refused

theorem fails (hwhole : db.Whole) (h : command.Commits draws db amount sender receiver tx S db')
    (hr : ¬ (sender.AcceptsDebit amount ∧ receiver.AcceptsCredit amount)) :
    ∃ stored e, Commit.Fails ⟨0, .transfer draws command, db, S.flush sender receiver, db'⟩ draws
      command amount sender receiver stored e := by
  obtain ⟨_, _, _, _, _, _, _, _, hcompletes⟩ | ⟨_, _, _, stored, e, hfails⟩ :=
    Commit.legal_transfer h.legal hwhole rfl
  · obtain rfl := Except.ok.inj (h.reaches.money.symm.trans hcompletes.money)
    obtain rfl := Option.some.inj (h.reaches.findsSender.symm.trans hcompletes.findsSender)
    obtain rfl := Option.some.inj (h.reaches.findsReceiver.symm.trans hcompletes.findsReceiver)
    exact absurd ⟨hcompletes.acceptsDebit, hcompletes.acceptsCredit⟩ hr
  · obtain rfl := Except.ok.inj (h.reaches.money.symm.trans hfails.money)
    obtain rfl := Option.some.inj (h.reaches.findsSender.symm.trans hfails.findsSender)
    obtain rfl := Option.some.inj (h.reaches.findsReceiver.symm.trans hfails.findsReceiver)
    exact ⟨stored, e, hfails⟩

end Commits

end TransferCommand

end BankingTransactions
