import BankingTransactions.RequestContracts
import BankingTransactions.SerialExecution

/-!
# What a duplicate may do and hear

A request that shares its command with others, in its own terms: what it has found, the
lock keys that it has, and whether it has committed. Whoever has the lock is told what
`db` holds, and the others only whether the key is stored. A duplicate then ends with what
it has found, without the lock, after its own commit, or because the transfer commits
nothing on `db`.
-/
namespace BankingTransactions
open DecimalArithmetic InteractionPrograms

/-- The last of the two lock keys of a transfer. -/
def TransferCommand.lastKey (command : TransferCommand) : Option String :=
  (TransferService.lockKeys command.fromAccountId command.toAccountId).getLast?.map
    RedisLockManager.lockKey

/-- What a duplicate has found, the lock keys that it has, and whether it has committed. -/
structure Duplicate where
  found : Option TransactionRow
  keys : List String
  committed : Bool

namespace Duplicate

def start : Duplicate := ⟨none, [], false⟩

/-- The duplicate has the lock and has not committed. -/
structure Holds (command : TransferCommand) (v : Duplicate) : Prop where
  uncommitted : v.committed = false
  last : ∃ k, command.lastKey = some k ∧ k ∈ v.keys

end Duplicate

section Contract

variable (command : TransferCommand) (r : Request) (db : Database)

/-- Who has the lock reads `db`; who has not, performs no other operation on accounts. -/
def duplicateContract : Contract IoOp IoOp.Res Duplicate where
  demand v
    | .selectTransactionByKey key, Q => key = command.idempotencyKey ∧ Q (.ok none) v ∧
        ∀ row : TransactionRow, Q (.ok (some row.load)) { v with found := some row }
    | .acquireKey k, Q => Q (.error (Server.lockTimeout k)) v ∧
        (k ∉ v.keys → Q (.ok ()) { v with keys := k :: v.keys })
    | .deleteKey k, Q => k ∈ v.keys ∧ Q (.ok ()) { v with keys := v.keys.filter (· ≠ k) }
    | .selectAccountForUpdate id, Q =>
        v.Holds command ∧ Q (.ok ((db.findAccount id).map (·.load))) v
    | .selectTransaction id, Q => v.Holds command ∧ id = r.newId ∧ Q (.ok none) v
    | .commit w, Q => v.Holds command ∧
        r.flush db.findAccount = .ok w ∧
        (∀ e, db.flush w = .error e → Q (.error e) v) ∧
        ((∃ db', db.flush w = .ok db') → Q (.ok ()) { v with committed := true })
    | .rollback, Q => Q (.ok ()) v
    | .close, Q => Q (.ok ()) v
    | .publishMany _, Q => Q (.ok ()) v
    | .selectAccount _, _ => False
  mono {v o Q Q'} h hQ := by
    cases o with
    | selectTransactionByKey key => exact ⟨hQ.1, h _ _ hQ.2.1, fun row => h _ _ (hQ.2.2 row)⟩
    | acquireKey k => exact ⟨h _ _ hQ.1, fun hk => h _ _ (hQ.2 hk)⟩
    | deleteKey k => exact ⟨hQ.1, h _ _ hQ.2⟩
    | selectAccountForUpdate id => exact ⟨hQ.1, h _ _ hQ.2⟩
    | selectTransaction id => exact ⟨hQ.1, hQ.2.1, h _ _ hQ.2.2⟩
    | commit w =>
      exact ⟨hQ.1, hQ.2.1, fun e he => h _ _ (hQ.2.2.1 e he), fun hw => h _ _ (hQ.2.2.2 hw)⟩
    | rollback => exact h _ _ hQ
    | close => exact h _ _ hQ
    | publishMany _ => exact h _ _ hQ
    | selectAccount _ => exact hQ

/-- How a duplicate ends: with the row that it has found, without the lock, after its own
commit, or because the transfer commits nothing on `db`. -/
def Duplicate.Ends (outcome : Except Exn Response) (v : Duplicate) : Prop :=
  (∃ row, v.found = some row ∧ outcome = (TransactionMapper.toDomain row.load).map fun tx =>
      .transaction (TransactionDTO.fromAggregate tx)) ∨
    (∃ k, outcome = .error (Server.lockTimeout k)) ∨ v.committed = true ∨
    (r.serial db).written = []

/-- The contract of a transfer that shares its command. -/
abbrev transferContract (draws : TransferDraws) : Contract IoOp IoOp.Res Duplicate :=
  duplicateContract command (.transfer draws command) db

end Contract

section Programs

variable {command : TransferCommand} {draws : TransferDraws} {db : Database} {α : Type}

/-- A transfer that commits has its amount, its rows and a database after it. -/
theorem TransferCommand.serial_committed (h : (command.serial draws db).written ≠ []) :
    ∃ amount senderRow receiverRow S db', command.money = .ok amount ∧
      command.resolve draws amount db.findAccount = .ok (senderRow, receiverRow, S) ∧
      db.flush (S.flush senderRow receiverRow) = .ok db' := by
  unfold serial at h
  split at h
  · exact absurd rfl h
  · split at h
    · exact absurd rfl h
    · rename_i amount hmoney
      split_ifs at h
      · exact absurd rfl h
      · split at h
        · exact absurd rfl h
        · rename_i senderRow receiverRow S hresolve
          split at h
          · exact absurd rfl h
          · rename_i db' hflush
            exact ⟨amount, senderRow, receiverRow, S, db', hmoney, hresolve, hflush⟩

/-! ### The unit of work -/

variable {v : Duplicate} (hv : v.Holds command)
include hv

theorem duplicate_loads {id : AccountId} {E : Exn → Duplicate → Prop}
    {K : AccountRow → Account → Duplicate → Prop}
    (hnone : db.findAccount id = none → E (.resourceNotFound "Account" id) v)
    (hsome : ∀ row, db.findAccount id = some row →
      match AccountMapper.toDomain row.load with
      | .error e => E e v
      | .ok a => K row a v) :
    TransferService.loads (transferContract command db draws) E id K v := by
  refine ⟨hv, ?_⟩
  cases hfind : db.findAccount id with
  | none => exact hnone hfind
  | some row => exact ⟨row, rfl, (Database.findAccount_eq_some.mp hfind).2, hsome row hfind⟩

theorem duplicate_rereads {row : AccountRow} (hrow : db.findAccount row.id = some row)
    {E : Exn → Duplicate → Prop} {K : Duplicate → Prop} (hK : K v) :
    TransferService.rereads (transferContract command db draws) E row K v := by
  refine ⟨hv, ?_⟩
  rw [hrow]
  exact ⟨rfl, hK⟩

theorem duplicate_commits {w : Flush} {E : Exn → Duplicate → Prop} {K : Duplicate → Prop}
    (hw : (Request.transfer draws command).flush db.findAccount = .ok w)
    (hrefused : ∀ e, db.flush w = .error e → E e v)
    (hdone : K { v with committed := true }) :
    TransferService.commits (transferContract command db draws) E draws.tx.id w K v := by
  refine ⟨hv, rfl, hv, hw, fun e he => ?_, fun _ => hdone⟩
  simp only
  split
  · exact hrefused e he
  · exact hrefused e he

/-- Steps 4 to 9 commit the transfer, or it commits nothing on `db`. -/
theorem duplicate_transferUnit {amount : Money} (hmoney : command.money = .ok amount)
    (acquired : List String) :
    Task.wp (transferContract command db draws) (TransferService.transferUnit sqlUow draws
      command.fromAccountId command.toAccountId amount command.idempotencyKey)
      (fun res p v' => p.adapters.acquired = acquired ∧ v'.keys = v.keys ∧ (v'.committed = true ∨
        (∃ e, res = .error e) ∧ (command.serial draws db).written = []))
      (.within [] [] .empty acquired) v := by
  refine TransferService.wp_transferUnit_of
    (E := fun _ v' => v' = v ∧ (command.serial draws db).written = [])
    (fun e p v' hp h => ⟨hp, by rw [h.1], .inr ⟨⟨e, rfl⟩, h.2⟩⟩) ?_
  have hid {id : AccountId} {row : AccountRow} (hfind : db.findAccount id = some row) :
      row.id = id := (Database.findAccount_eq_some.mp hfind).2
  refine TransferService.transfers_of_find (I := (· = v)) hid ?_ ?_ ?_ ?_ rfl
  · rintro id K _ rfl hnone hsome
    exact duplicate_loads hv (fun hfind => hnone hfind _ rfl) fun row hrow => hsome row hrow _ rfl
  · rintro row K _ rfl hrow hK
    exact duplicate_rereads hv hrow (hK _ rfl)
  · rintro e he _ rfl
    refine ⟨rfl, ?_⟩
    by_contra hwritten
    obtain ⟨amount', _, _, S, _, hmoney', hresolve, -⟩ :=
      TransferCommand.serial_committed hwritten
    obtain rfl := Except.ok.inj (hmoney.symm.trans hmoney')
    rw [he] at hresolve
    cases hresolve
  · rintro senderRow receiverRow S hresolve _ rfl
    refine duplicate_commits hv (Request.flush_transfer_ok.mpr ⟨amount, senderRow, receiverRow, S,
      hmoney, hresolve, rfl⟩) (fun e he => ⟨rfl, ?_⟩) ⟨rfl, rfl, .inl rfl⟩
    by_contra hwritten
    obtain ⟨amount', _, _, S', _, hmoney', hresolve', hflush⟩ :=
      TransferCommand.serial_committed hwritten
    obtain rfl := Except.ok.inj (hmoney.symm.trans hmoney')
    rw [hresolve] at hresolve'
    cases hresolve'
    rw [he] at hflush
    cases hflush

omit hv

/-! ### Context managers -/

theorem duplicate_uow {body : SqlTask α} {Q : Except Exn α → Process SqlState → Duplicate → Prop}
    {p : Process SqlState}
    (h : Task.wp (transferContract command db draws) body (fun res p' v =>
        ∀ p'' : Process SqlState, p''.heap = p'.heap →
          p''.adapters.acquired = p'.adapters.acquired → Q res p'' v)
      { p with adapters := { p.adapters with
        session := .empty, seenAccounts := [], seenTransactions := [] } } v) :
    Task.wp (transferContract command db draws) (withUow sqlUow body) Q p v := by
  rw [wp_withUow]
  refine Task.wp_mono (fun res p' v hQ => ?_) h
  cases res with
  | error e => exact hQ _ rfl rfl
  | ok a => exact hQ _ rfl rfl

/-- The lookup finds a row, and reads it, or it leaves no trace. -/
theorem duplicate_lookup
    {Q : Except Exn (Option TransactionRef) → Process SqlState → Duplicate → Prop}
    (hnone : ∀ p, p.heap = .empty → Q (.ok none) p .start)
    (hsome : ∀ (row : TransactionRow) p v, v.found = some row →
      match TransactionMapper.toDomain row.load with
      | .error e => Q (.error e) p v
      | .ok tx => p.heap = ⟨[], [tx]⟩ → Q (.ok (some 0)) p v) :
    Task.wp (transferContract command db draws)
      (withUow sqlUow (sqlUow.transactions.getByIdempotencyKey command.idempotencyKey)) Q
      .init .start := by
  refine duplicate_uow ?_
  change Task.wp _ _ _ (Process.within [] [] .empty []) _
  rw [wp_getByIdempotencyKey]
  refine ⟨rfl, fun p hheap _ => hnone p hheap, fun row => ?_⟩
  simp only
  cases htx : TransactionMapper.toDomain row.load with
  | error e =>
    intro p _ _
    have h := hsome row p ⟨some row, [], false⟩ rfl
    rw [htx] at h
    exact h
  | ok tx =>
    intro p hheap _
    have h := hsome row p ⟨some row, [], false⟩ rfl
    rw [htx] at h
    exact h hheap

/-- The keys of a duplicate, in the order in which the lock manager deletes them. -/
structure Acquired (p : Process SqlState) (v : Duplicate) : Prop where
  acquired : p.adapters.acquired = v.keys.reverse
  nodup : v.keys.Nodup

theorem duplicate_acquireAll (keys : List String) {p : Process SqlState} (hp : Acquired p v) :
    Task.wp (transferContract command db draws) (RedisLockManager.acquireAll keys)
      (fun res p' v' => p'.heap = p.heap ∧ Acquired p' v' ∧ v'.committed = v.committed ∧
        match res with
        | .ok _ => v'.keys = (keys.map RedisLockManager.lockKey).reverse ++ v.keys
        | .error e => ∃ k, e = Server.lockTimeout k) p v := by
  induction keys generalizing p v with
  | nil =>
    rw [RedisLockManager.acquireAll, Task.wp_pure]
    exact ⟨rfl, hp, rfl, rfl⟩
  | cons key keys ih =>
    rw [RedisLockManager.acquireAll, Task.wp_bind, wp_exec]
    refine ⟨⟨rfl, hp, rfl, _, rfl⟩, fun hkey => ?_⟩
    simp only
    rw [Task.wp_bind, wp_modifyAdapters]
    have hnext : Acquired
        { p with adapters := { p.adapters with
          acquired := p.adapters.acquired ++ [RedisLockManager.lockKey key] } }
        { v with keys := RedisLockManager.lockKey key :: v.keys } :=
      ⟨by simp [hp.acquired], List.nodup_cons.mpr ⟨hkey, hp.nodup⟩⟩
    refine Task.wp_mono (fun res p' v' h => ?_) (ih hnext)
    obtain ⟨hheap, hacquired, hcommitted, hres⟩ := h
    refine ⟨hheap, hacquired, hcommitted, ?_⟩
    cases res with
    | error e => exact hres
    | ok _ => simpa using hres

theorem duplicate_releaseAll {Q : Except Exn Unit → Process SqlState → Duplicate → Prop}
    {p : Process SqlState} (hnodup : v.keys.Nodup)
    (hQ : ∀ v', v'.committed = v.committed → Q (.ok ()) p v') :
    Task.wp (transferContract command db draws) (RedisLockManager.releaseAll v.keys) Q p v := by
  obtain ⟨found, keys, committed⟩ := v
  simp only at hnodup ⊢
  induction keys with
  | nil =>
    rw [RedisLockManager.releaseAll, Task.wp_pure]
    exact hQ _ rfl
  | cons key keys ih =>
    obtain ⟨hkey, hnodup⟩ := List.nodup_cons.mp hnodup
    have hrest : (key :: keys).filter (· ≠ key) = keys := by
      rw [List.filter_cons_of_neg (by simp)]
      exact List.filter_eq_self.mpr fun k hk => by
        simpa using ne_of_mem_of_not_mem hk hkey
    rw [RedisLockManager.releaseAll, Task.wp_bind, wp_safeRelease]
    refine ⟨List.mem_cons_self, ?_⟩
    simp only [hrest]
    exact ih hnodup hQ

theorem duplicate_release {Q : Except Exn Unit → Process SqlState → Duplicate → Prop}
    {p : Process SqlState} (hp : Acquired p v)
    (hQ : ∀ v', v'.committed = v.committed → Q (.ok ()) p v') :
    Task.wp (transferContract command db draws) RedisLockManager.release Q p v := by
  rw [RedisLockManager.release, Task.wp_bind, wp_getAdapters]
  simp only [hp.acquired, List.reverse_reverse]
  exact duplicate_releaseAll hp.nodup hQ

theorem duplicate_enter {keys : List String}
    {Q : Except Exn Unit → Process SqlState → Duplicate → Prop} {p : Process SqlState}
    (hok : ∀ p' v', p'.heap = p.heap → Acquired p' v' → v'.committed = false →
      v'.keys = (keys.map RedisLockManager.lockKey).reverse → Q (.ok ()) p' v')
    (htimeout : ∀ k p' v', Q (.error (Server.lockTimeout k)) p' v') :
    Task.wp (transferContract command db draws) (RedisLockManager.enter keys) Q p .start := by
  have hstart : Acquired { p with adapters := { p.adapters with acquired := [] } } .start :=
    ⟨rfl, List.nodup_nil⟩
  rw [RedisLockManager.enter, Task.wp_bind, wp_modifyAdapters]
  simp only
  rw [Task.wp_tryCatch]
  refine Task.wp_mono (fun res p' v' h => ?_) (duplicate_acquireAll keys hstart)
  obtain ⟨hheap, hacquired, hcommitted, hres⟩ := h
  cases res with
  | ok _ => exact hok p' v' hheap hacquired hcommitted (by simpa [Duplicate.start] using hres)
  | error e =>
    obtain ⟨k, rfl⟩ := hres
    simp only
    rw [Task.wp_bind]
    refine duplicate_release hacquired fun v'' _ => ?_
    simp only
    rw [Task.wp_throw]
    exact htimeout k p' v''

/-- A duplicate that has all its lock keys has the last one. -/
theorem TransferCommand.holds_of_keys (hcommitted : v.committed = false)
    (hkeys : v.keys = ((TransferService.lockKeys command.fromAccountId
      command.toAccountId).map RedisLockManager.lockKey).reverse) : v.Holds command := by
  refine ⟨hcommitted, ?_⟩
  rw [hkeys, lastKey]
  obtain hlock | hlock := TransferService.lockKeys_cases command.fromAccountId command.toAccountId
  all_goals
    rw [hlock]
    simp

/-- Steps 3 to 9. -/
theorem duplicate_locked {amount : Money} (hmoney : command.money = .ok amount)
    {p : Process SqlState} (hp : p.heap = .empty) :
    Task.wp (transferContract command db draws)
      (withLock redisLock (TransferService.lockKeys command.fromAccountId command.toAccountId)
        (withUow sqlUow (TransferService.transferUnit sqlUow draws command.fromAccountId
          command.toAccountId amount command.idempotencyKey)))
      (fun res _ v => (∃ k, res = .error (Server.lockTimeout k)) ∨ v.committed = true ∨
        (∃ e, res = .error e) ∧ (command.serial draws db).written = []) p .start := by
  rw [wp_withLock]
  refine duplicate_enter (fun p' v' hheap hacquired hcommitted hkeys => ?_)
    fun k _ _ => .inl ⟨k, rfl⟩
  have hholds : v'.Holds command := TransferCommand.holds_of_keys hcommitted hkeys
  obtain ⟨heap, adapters⟩ := p'
  obtain rfl : heap = .empty := hheap.trans hp
  refine duplicate_uow (Task.wp_mono (fun res p v h p' _ hsame => ?_)
    (duplicate_transferUnit hholds hmoney adapters.acquired))
  obtain ⟨hkept, hsameKeys, hends⟩ := h
  have hown : Acquired p' v :=
    ⟨by rw [hsame, hkept, hsameKeys]; exact hacquired.acquired, hsameKeys ▸ hacquired.nodup⟩
  refine duplicate_release hown fun v'' hv'' => ?_
  simp only
  rw [hv'']
  exact .inr hends

/-! ### The whole request -/

instance : IsPreorder (Process SqlState) (fun _ _ => True) where
  refl _ := trivial
  trans _ _ _ _ _ := trivial

/-- Step 10 performs no operation but to publish. -/
theorem steady_publishes (sender receiver : AccountRef) (tx : TransactionRef) :
    Steady (fun o => o matches .publishMany _) (fun _ _ => True)
      (TransferService.publishRemaining sqlBus sender receiver tx) := by
  have hread : Steady (fun o => o matches .publishMany _) (fun _ _ => True) (do
      return TransactionDTO.fromAggregate (← callTransaction tx MonadState.get) : SqlTask _) :=
    steady_bind (steady_stepState_of fun _ => trivial) fun _ => steady_pure _
  refine steady_bind (steady_stepState_of fun _ => trivial) fun ofSender => ?_
  refine steady_bind (steady_stepState_of fun _ => trivial) fun ofReceiver => ?_
  refine steady_bind (steady_stepState_of fun _ => trivial) fun ofTx => ?_
  dsimp only
  split
  · exact steady_bind (steady_exec_of rfl) fun _ => hread
  · exact hread

theorem duplicate_publishRemaining (sender receiver : AccountRef) (tx : TransactionRef)
    {p : Process SqlState} :
    Task.wp (transferContract command db draws)
      (TransferService.publishRemaining sqlBus sender receiver tx) (fun _ _ v' => v' = v) p v := by
  have hignores : (transferContract command db draws).Ignores v fun o =>
      o matches .publishMany _ := by
    intro o Q ho hQ
    cases o with
    | publishMany events => exact hQ _
    | _ => cases ho
  exact Task.wp_mono (fun _ _ _ h => h.2)
    (Task.wp_of_ignores hignores (steady_publishes sender receiver tx p))

/-- A command without an amount commits nothing. -/
theorem TransferCommand.serial_of_money_error {e : Exn} (h : command.money = .error e) :
    (command.serial draws db).written = [] := by
  unfold serial
  split
  · rfl
  · rw [h]
    rfl

theorem duplicate_initiate :
    Task.wp (transferContract command db draws)
      (TransferService.initiate sqlUow redisLock sqlBus draws command)
      (fun res _ v => Duplicate.Ends (.transfer draws command) db (res.map .transaction) v)
      .init .start := by
  rw [TransferService.initiate, Task.wp_bind]
  refine duplicate_lookup (fun p hheap => ?_) fun row p v hfound => ?_
  · simp only
    rw [Task.wp_bind, Task.wp_ofExcept]
    cases hcurrency : Currency.ofValue command.currency with
    | error e =>
      have hmoney : command.money = .error e := by
        rw [TransferCommand.money, hcurrency]
        rfl
      exact .inr (.inr (.inr (TransferCommand.serial_of_money_error hmoney)))
    | ok currency =>
      simp only
      rw [Task.wp_bind, Task.wp_ofExcept]
      cases hamount : Money.new command.amount currency with
      | error e =>
        have hmoney : command.money = .error e := by
          rw [TransferCommand.money, hcurrency]
          exact hamount
        exact .inr (.inr (.inr (TransferCommand.serial_of_money_error hmoney)))
      | ok amount =>
        have hmoney : command.money = .ok amount := bind_eq_ok.mpr ⟨currency, hcurrency, hamount⟩
        simp only
        rw [Task.wp_bind]
        refine Task.wp_mono (fun res p v h => ?_) (duplicate_locked hmoney hheap)
        obtain ⟨k, rfl⟩ | hcommitted | ⟨⟨e, rfl⟩, hwritten⟩ := h
        · exact .inr (.inl ⟨k, rfl⟩)
        · cases res with
          | error e => exact .inr (.inr (.inl hcommitted))
          | ok refs =>
            refine Task.wp_mono (fun res p v' h => ?_)
              (duplicate_publishRemaining refs.1 refs.2.1 refs.2.2)
            exact .inr (.inr (.inl (h ▸ hcommitted)))
        · exact .inr (.inr (.inr hwritten))
  · cases htx : TransactionMapper.toDomain row.load with
    | error e => exact .inl ⟨row, hfound, by rw [htx]; rfl⟩
    | ok tx =>
      intro hheap
      simp only
      rw [Task.wp_bind, wp_readTransaction (t := tx) _ _ (by rw [hheap]; rfl)]
      simp only
      rw [Task.wp_pure]
      exact .inl ⟨row, hfound, by rw [htx]; rfl⟩

/-- Every duplicate keeps to the contract. -/
theorem duplicate_program :
    (Request.transfer draws command).program.wp (transferContract command db draws)
      (fun outcome v => Duplicate.Ends (.transfer draws command) db outcome.1 v) .start := by
  have h : Task.wp (transferContract command db draws) (Request.transfer draws command).task
      (fun res _ v => Duplicate.Ends (.transfer draws command) db res v) .init .start := by
    rw [Request.task, Task.wp_bind]
    refine Task.wp_mono (fun res p v h => ?_) duplicate_initiate
    cases res with
    | error e => exact h
    | ok dto =>
      simp only
      rw [Task.wp_pure]
      exact h
  rw [Task.wp_def] at h
  exact h

end Programs

end BankingTransactions
