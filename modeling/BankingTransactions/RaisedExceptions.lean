import BankingTransactions.SerialExecution

/-!
# The exceptions of a transfer that runs alone

What the value objects, the aggregates, the mappers and the database raise of their own
accord is plain: it is no conflict over a lock, no cancellation, and not what Python
raises for a call with the wrong arguments.
-/
namespace BankingTransactions
open DecimalArithmetic InteractionPrograms

/-- Neither a conflict over a lock nor a `TypeError` nor a cancellation. -/
@[simp] def Exn.isPlain : Exn → Bool
  | concurrencyConflict _ => false
  | failure className _ => className ≠ "TypeError"
  | cancelled => false
  | _ => true

/-- Ends with a result or a plain exception. -/
def Plain {α : Type} (x : Except Exn α) : Prop := ∀ e, x = .error e → e.isPlain = true

@[simp] theorem plain_ok {α : Type} (a : α) : Plain (.ok a : Except Exn α) := by
  simp [Plain]

@[simp] theorem plain_error {α : Type} {e : Exn} :
    Plain (.error e : Except Exn α) ↔ e.isPlain = true := by
  simp [Plain]

/-- Each step of a computation is plain. -/
theorem plain_bind {α β : Type} {x : Except Exn α} {f : α → Except Exn β}
    (hx : Plain x) (hf : ∀ a, Plain (f a)) : Plain (x >>= f) := by
  cases x with
  | ok a => exact hf a
  | error e => exact plain_error.mpr (plain_error.mp hx)

theorem plain_foldlM {α β : Type} {f : β → α → Except Exn β}
    (hf : ∀ b a, Plain (f b a)) (as : List α) (b : β) : Plain (as.foldlM f b) := by
  induction as generalizing b with
  | nil => exact plain_ok b
  | cons a as ih =>
    rw [List.foldlM_cons]
    exact plain_bind (hf b a) ih

/-! ## The steps of a transfer -/

theorem Currency.plain_ofValue (value : String) : Plain (ofValue value) := by
  unfold ofValue
  split <;> simp

theorem Money.plain_new (amount : Decimal) (currency : Currency) :
    Plain (new amount currency) := by
  have hsignal (e : Signal) : Plain (.error (Signal.toExn e) : Except Exn Money) := by
    cases e <;> simp [Signal.toExn]
  unfold new
  split
  · exact hsignal _
  · split
    · exact hsignal _
    · simp
    · simp

theorem TransferCommand.plain_money (command : TransferCommand) : Plain command.money :=
  plain_bind (Currency.plain_ofValue _) fun currency => Money.plain_new _ currency

theorem AccountMapper.plain_toDomain (orm : AccountORM) : Plain (toDomain orm) :=
  plain_bind (Money.plain_new _ _) fun _ => plain_ok _

theorem TransactionMapper.plain_toDomain (orm : TransactionORM) : Plain (toDomain orm) :=
  plain_bind (Money.plain_new _ _) fun _ => plain_ok _

theorem Transaction.plain_initiate (draws : Draws) (fromAccountId toAccountId : AccountId)
    (amount : Money) (idempotencyKey : IdempotencyKey) :
    Plain (initiate draws fromAccountId toAccountId amount idempotencyKey) := by
  unfold initiate
  split_ifs <;> simp

theorem Money.plain_add (a b : Money) : Plain (a.add b) := by
  have hsum := Money.add_spec a b
  split_ifs at hsum
  · simp [hsum]
  · obtain ⟨c, hc, -⟩ := hsum
    simp [hc]
  · simp [hsum]

theorem Money.plain_sub (a b : Money) : Plain (a.sub b) := by
  have hdiff := Money.sub_spec a b
  split_ifs at hdiff
  · simp [hdiff]
  · simp [hdiff]
  · obtain ⟨c, hc, -⟩ := hdiff
    simp [hc]

theorem TransferDraws.plain_debit (draws : TransferDraws) (amount : Money)
    (txId : TransactionId) (a : Account) : Plain ((draws.debit amount txId).on a).1 := by
  have hsub := Money.plain_sub a.balance amount
  rw [TransferDraws.debit, Account.debit_on]
  cases a.status with
  | closed => simp
  | frozen => simp
  | active =>
    cases h : a.balance.sub amount with
    | ok b => simp
    | error e =>
      rw [h] at hsub
      exact plain_error.mpr (plain_error.mp hsub)

theorem TransferDraws.plain_credit (draws : TransferDraws) (amount : Money)
    (txId : TransactionId) (a : Account) : Plain ((draws.credit amount txId).on a).1 := by
  have hadd := Money.plain_add a.balance amount
  rw [TransferDraws.credit, Account.credit_on]
  cases a.status with
  | closed => simp
  | frozen => simp
  | active =>
    cases h : a.balance.add amount with
    | ok b => simp
    | error e =>
      rw [h] at hadd
      exact plain_error.mpr (plain_error.mp hadd)

/-- What a settlement raises is what the debit or the credit raises. -/
theorem TransferDraws.plain_settle (draws : TransferDraws) {amount : Money}
    {sender receiver : Account} {tx : Transaction} {e : Exn}
    (h : (draws.settle amount sender receiver tx).raised = some e) : e.isPlain = true := by
  have hdebit := draws.plain_debit amount tx.id sender
  have hcredit := draws.plain_credit amount tx.id receiver
  unfold TransferDraws.settle at h
  split at h
  · rename_i e' a heq
    rw [heq] at hdebit
    obtain rfl := Option.some.inj h
    exact plain_error.mp hdebit
  · split at h
    · rename_i e' a heq
      rw [heq] at hcredit
      obtain rfl := Option.some.inj h
      exact plain_error.mp hcredit
    · cases h

/-- One of several steps fails: the others have not been reached. -/
theorem plain_of_eq {α β : Type} {x : Except Exn α} (hx : Plain x) {e : Exn}
    (h : x = .error e) : Plain (.error e : Except Exn β) := by
  rw [h] at hx
  exact plain_error.mpr (plain_error.mp hx)

theorem TransferCommand.plain_resolve (command : TransferCommand) (draws : TransferDraws)
    (amount : Money) (find : AccountId → Option AccountRow) :
    Plain (command.resolve draws amount find) := by
  have hmapper := AccountMapper.plain_toDomain
  have htx := Transaction.plain_initiate draws.tx command.fromAccountId command.toAccountId
    amount command.idempotencyKey
  unfold TransferCommand.resolve
  split
  · simp
  · split
    · exact plain_of_eq (hmapper _) ‹_›
    · split
      · simp
      · split
        · exact plain_of_eq (hmapper _) ‹_›
        · split
          · exact plain_of_eq htx ‹_›
          · simp

theorem Database.plain_flush (db : Database) (w : Flush) : Plain (db.flush w) := by
  have hinsert (db : Database) (orm : AccountORM) : Plain (db.insertAccount orm) := by
    unfold insertAccount
    split
    · simp
    · split <;> simp
  have hupdate (db : Database) (orm : AccountORM) : Plain (db.updateAccount orm) := by
    unfold updateAccount
    split
    · simp
    · split <;> simp
  have hinsertTx (db : Database) (orm : TransactionORM) : Plain (db.insertTransaction orm) := by
    unfold insertTransaction
    split
    · simp
    · split_ifs <;> simp
  have hupdateTx (db : Database) (orm : TransactionORM) : Plain (db.updateTransaction orm) := by
    unfold updateTransaction
    split <;> simp
  refine plain_bind (plain_foldlM hinsert _ _) fun db => ?_
  refine plain_bind (plain_foldlM hupdate _ _) fun db => ?_
  refine plain_bind (plain_foldlM hinsertTx _ _) fun db => ?_
  exact plain_bind (plain_foldlM hupdateTx _ _) fun db => plain_ok _

/-! ## Whole transfers -/

namespace TransferCommand

/-- A transfer to the account itself that is not refused before it asks for the lock. -/
def LocksTwice (command : TransferCommand) : Prop :=
  command.fromAccountId = command.toAccountId ∧ ∃ amount, command.money = .ok amount

theorem plain_serial_found {command : TransferCommand} (draws : TransferDraws) {db : Database}
    {row : TransactionRow} (hkey : db.findByKey command.idempotencyKey = some row) :
    Plain (command.serial draws db).outcome := by
  simp only [serial, hkey, SerialRun.unchanged]
  cases hrow : TransactionMapper.toDomain row.load with
  | error e => exact plain_of_eq (TransactionMapper.plain_toDomain row.load) hrow
  | ok tx => exact plain_ok _

theorem plain_serial {command : TransferCommand} (draws : TransferDraws) {db : Database}
    (hlocks : ¬ command.LocksTwice) : Plain (command.serial draws db).outcome := by
  cases hkey : db.findByKey command.idempotencyKey with
  | some row => exact plain_serial_found draws hkey
  | none =>
    cases hm : command.money with
    | error e =>
      simp only [serial, hkey, hm]
      exact plain_of_eq command.plain_money hm
    | ok amount =>
      have hne : command.fromAccountId ≠ command.toAccountId := fun heq => hlocks ⟨heq, amount, hm⟩
      have hresolve := command.plain_resolve draws amount db.findAccount
      rw [serial_settles draws hkey hm hne]
      split
      · exact plain_of_eq hresolve ‹_›
      · rename_i senderRow receiverRow S hS
        split
        · exact plain_of_eq (db.plain_flush _) ‹_›
        · obtain ⟨-, -, sender, receiver, tx, -, -, -, rfl⟩ := resolve_ok.mp hS
          cases hraised : (draws.settle amount sender receiver tx).raised with
          | none =>
            simp only [SerialRun.committed, hraised]
            exact plain_ok _
          | some e =>
            simp only [SerialRun.committed, hraised]
            exact plain_error.mpr (draws.plain_settle hraised)

/-- Nothing that a transfer does by itself is a call with the wrong arguments. -/
theorem serial_ne_typeError {command : TransferCommand} {draws : TransferDraws} {db : Database}
    {e : Exn} (h : (command.serial draws db).outcome = .error e) (text : String) :
    e ≠ .failure "TypeError" text := by
  have hplain : e.isPlain = true → e ≠ .failure "TypeError" text := by
    intro hplain heq
    simp [heq] at hplain
  by_cases hlocks : command.LocksTwice
  · obtain ⟨hsame, amount, hm⟩ := hlocks
    cases hkey : db.findByKey command.idempotencyKey with
    | some row => exact hplain (plain_serial_found draws hkey e h)
    | none =>
      simp only [serial, hkey, hm, if_pos hsame, SerialRun.unchanged, Except.error.injEq] at h
      simp [← h, Server.lockTimeout]
  · exact hplain (plain_serial draws hlocks e h)

end TransferCommand

end BankingTransactions
