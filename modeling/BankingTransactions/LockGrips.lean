import BankingTransactions.LockAccounting
import BankingTransactions.RowOrder

/-!
# What a request holds when nothing fails

The keys that it has set in Redis and, between them, its row locks. A row is locked only while
the keys of both accounts are set, the database transaction ends before a key is deleted, and in
the end nothing is left. Every request keeps to this by itself, as long as what it asks for is
performed or refused.
-/
namespace BankingTransactions
open DecimalArithmetic InteractionPrograms KeyedLocks

/-- The lock keys that a request has set, and whether it may have locked rows. -/
structure Grip where
  keys : Finset String
  inside : Bool

namespace Grip

def empty : Grip := ⟨∅, false⟩

def enter (v : Grip) : Grip := { v with inside := true }

def leave (v : Grip) : Grip := { v with inside := false }

theorem leave_of_outside {v : Grip} (h : v.inside = false) : v.leave = v := by
  rw [leave, ← h]

end Grip

namespace Request

/-- The lock keys that a request asks for. -/
def keys : Request → List String
  | create _ _ => []
  | transfer _ command =>
    (TransferService.lockKeys command.fromAccountId command.toAccountId).map
      RedisLockManager.lockKey

/-- The request is a transfer from or to the account. -/
def Names (r : Request) (id : AccountId) : Prop :=
  ∃ draws command, r = .transfer draws command ∧
    (id = command.fromAccountId ∨ id = command.toAccountId)

/-- A request has a key for every account that it names. -/
theorem Names.mem_keys {r : Request} {id : AccountId} (h : r.Names id) :
    RedisLockManager.lockKey id.str ∈ r.keys := by
  obtain ⟨draws, command, rfl, hid⟩ := h
  apply List.mem_map_of_mem
  obtain hlock | hlock := TransferService.lockKeys_cases command.fromAccountId command.toAccountId
  all_goals
    rw [hlock]
    rcases hid with rfl | rfl <;> simp

theorem names_of_mayLock {r : Request} {phase : RowPhase} {id : AccountId}
    (h : r.MayLock phase id) (hrows : ∀ id' ∈ phase.rows, r.Names id') : r.Names id := by
  cases r with
  | create draws command => cases h
  | transfer draws command =>
    cases phase with
    | before => exact ⟨draws, command, rfl, .inl h⟩
    | between first => exact ⟨draws, command, rfl, .inr h.2⟩
    | after held => exact hrows id h

end Request

/-- What a request may do and hear when nothing fails. -/
def gripContract (r : Request) : Contract IoOp IoOp.Res Grip where
  demand v
    | .acquireKey k, Q => Q (.error (Server.lockTimeout k)) v ∧
        (k ∉ v.keys → Q (.ok ()) { v with keys := insert k v.keys })
    | .deleteKey k, Q => k ∈ v.keys ∧ v.inside = false ∧
        Q (.ok ()) { v with keys := v.keys.erase k }
    | .selectAccountForUpdate id, Q => (∀ k ∈ r.keys, k ∈ v.keys) ∧ Q (.ok none) v ∧
        ∀ row : AccountRow, row.id = id → Q (.ok (some row.load)) v.enter
    | .commit _, Q => (∀ e, Q (.error e) v) ∧ Q (.ok ()) v.leave
    | .rollback, Q => Q (.ok ()) v.leave
    | .close, Q => Q (.ok ()) v.leave
    | .publishMany _, Q => Q (.ok ()) v
    | _, Q => ∀ res, Q res v
  mono {v o Q Q'} h hQ := by
    cases o with
    | acquireKey k => exact ⟨h _ _ hQ.1, fun hk => h _ _ (hQ.2 hk)⟩
    | deleteKey k => exact ⟨hQ.1, hQ.2.1, h _ _ hQ.2.2⟩
    | selectAccountForUpdate id =>
      exact ⟨hQ.1, h _ _ hQ.2.1, fun row hid => h _ _ (hQ.2.2 row hid)⟩
    | commit w => exact ⟨fun e => h _ _ (hQ.1 e), h _ _ hQ.2⟩
    | rollback => exact h _ _ hQ
    | close => exact h _ _ hQ
    | publishMany events => exact h _ _ hQ
    | _ => exact fun res => h _ _ (hQ res)

/-! ## Code that takes no lock -/

/-- Code that performs no operation of the lock manager and locks no row. -/
abbrev TakesNoLock {α : Type} (x : SqlTask α) : Prop :=
  Steady (fun o => o.isLockOp = false ∧ o.isRowLock = false)
    (fun p p' => p'.adapters.acquired = p.adapters.acquired) x

instance : Neutral (fun o => o.isLockOp = false ∧ o.isRowLock = false)
    (fun p p' : Process SqlState => p'.adapters.acquired = p.adapters.acquired) where
  refl _ := rfl
  trans _ _ _ h h' := h'.trans h
  operation h h' := ⟨h, h'⟩
  change := id

section Programs

variable {r : Request} {α : Type} {p : Process SqlState} {v : Grip}

/-- Outside a database transaction such code changes nothing. -/
theorem gripContract_ignores (hv : v.inside = false) :
    (gripContract r).Ignores v fun o => o.isLockOp = false ∧ o.isRowLock = false := by
  have hleave := Grip.leave_of_outside hv
  intro o Q ho hQ
  cases o with
  | acquireKey k => cases ho.1
  | deleteKey k => cases ho.1
  | selectAccountForUpdate id => cases ho.2
  | commit w =>
    refine ⟨fun e => hQ _, ?_⟩
    rw [hleave]
    exact hQ _
  | rollback =>
    change Q _ _
    rw [hleave]
    exact hQ _
  | close =>
    change Q _ _
    rw [hleave]
    exact hQ _
  | publishMany events => exact hQ _
  | _ => exact hQ

/-- Once the keys are set, rows can be locked and the keys stay. -/
theorem gripContract_preserves {held : Finset String} (hheld : ∀ k ∈ r.keys, k ∈ held) :
    (gripContract r).Preserves (fun v => v.keys = held) fun o => o.isLockOp = false := by
  rintro v o Q rfl ho hQ
  cases o with
  | acquireKey k => cases ho
  | deleteKey k => cases ho
  | selectAccountForUpdate id =>
    exact ⟨hheld, hQ _ _ rfl, fun row _ => hQ _ v.enter rfl⟩
  | commit w => exact ⟨fun e => hQ _ _ rfl, hQ _ v.leave rfl⟩
  | rollback => exact hQ _ v.leave rfl
  | close => exact hQ _ v.leave rfl
  | publishMany events => exact hQ _ _ rfl
  | _ => exact fun res => hQ _ _ rfl

theorem grip_steady {x : SqlTask α} (hx : TakesNoLock x) (hv : v.inside = false)
    {Q : Except Exn α → Process SqlState → Grip → Prop} (hQ : ∀ res p', Q res p' v) :
    Task.wp (gripContract r) x Q p v := by
  refine Task.wp_mono (fun res p' v' h => ?_)
    (Task.wp_of_ignores (gripContract_ignores hv) (hx p))
  obtain ⟨-, rfl⟩ := h
  exact hQ res p'

/-- A unit of work ends its database transaction, and the keys stay. -/
theorem grip_withUow {body : SqlTask α} (hbody : KeepsKeys body)
    (hheld : ∀ k ∈ r.keys, k ∈ v.keys) :
    Task.wp (gripContract r) (withUow sqlUow body) (fun _ p' v' =>
      p'.adapters.acquired = p.adapters.acquired ∧ v'.keys = v.keys ∧ v'.inside = false) p v := by
  rw [wp_withUow]
  refine Task.wp_mono (fun res p' v' h => ?_)
    (Task.wp_of_preserves (gripContract_preserves hheld) (hbody _) rfl)
  obtain ⟨hacquired, hkeys⟩ := h
  cases res with
  | ok a => exact ⟨hacquired, hkeys, rfl⟩
  | error e => exact ⟨hacquired, hkeys, rfl⟩

/-! ## The lock -/

theorem grip_acquireAll (keys : List String) (hown : Lists p.adapters.acquired v.keys)
    (hv : v.inside = false) :
    Task.wp (gripContract r) (RedisLockManager.acquireAll keys) (fun res p' v' =>
      Lists p'.adapters.acquired v'.keys ∧ v'.inside = false ∧
        (res = .ok () → (∀ k ∈ v.keys, k ∈ v'.keys) ∧
          ∀ key ∈ keys, RedisLockManager.lockKey key ∈ v'.keys)) p v := by
  induction keys generalizing p v with
  | nil =>
    rw [RedisLockManager.acquireAll, Task.wp_pure]
    exact ⟨hown, hv, fun _ => ⟨fun _ hk => hk, by simp⟩⟩
  | cons key keys ih =>
    rw [RedisLockManager.acquireAll, Task.wp_bind, wp_exec]
    refine ⟨⟨hown, hv, fun h => by cases h⟩, fun hkey => ?_⟩
    simp only
    rw [Task.wp_bind, wp_modifyAdapters]
    refine Task.wp_mono (fun res p' v' h => ?_) (ih (hown.append hkey) hv)
    obtain ⟨hown', hv', hset⟩ := h
    refine ⟨hown', hv', fun hres => ?_⟩
    obtain ⟨hkept, hall⟩ := hset hres
    refine ⟨fun k hk => hkept k (Finset.mem_insert_of_mem hk), fun k hk => ?_⟩
    rcases List.mem_cons.mp hk with rfl | hk
    · exact hkept _ (Finset.mem_insert_self _ _)
    · exact hall k hk

theorem grip_releaseAll {lockKeys : List String} (hown : Lists lockKeys v.keys)
    (hv : v.inside = false) :
    Task.wp (gripContract r) (RedisLockManager.releaseAll lockKeys)
      (fun _ _ v' => v' = .empty) p v := by
  induction lockKeys generalizing v with
  | nil =>
    rw [RedisLockManager.releaseAll, Task.wp_pure, Grip.empty, ← hown.eq_empty, ← hv]
  | cons key rest ih =>
    rw [RedisLockManager.releaseAll, Task.wp_bind, wp_safeRelease]
    exact ⟨hown.mem_head, hv, ih hown.tail hv⟩

theorem grip_release (hown : Lists p.adapters.acquired v.keys) (hv : v.inside = false) :
    Task.wp (gripContract r) RedisLockManager.release (fun _ _ v' => v' = .empty) p v := by
  rw [RedisLockManager.release, Task.wp_bind, wp_getAdapters]
  exact grip_releaseAll hown.reverse hv

/-- The rows are locked between the locks of Redis. -/
theorem grip_withLock {keys : List String} (hkeys : r.keys = keys.map RedisLockManager.lockKey)
    {body : SqlTask α} (hbody : KeepsKeys body) :
    Task.wp (gripContract r) (withLock redisLock keys (withUow sqlUow body))
      (fun _ _ v' => v' = .empty) p .empty := by
  rw [wp_withLock, RedisLockManager.enter, Task.wp_bind, wp_modifyAdapters]
  simp only
  rw [Task.wp_tryCatch]
  refine Task.wp_mono (fun res p' v' h => ?_) (grip_acquireAll keys Lists.nil rfl)
  obtain ⟨hown, hv, hset⟩ := h
  cases res with
  | error e =>
    simp only
    rw [Task.wp_bind]
    refine Task.wp_mono (fun res p'' v'' h => ?_) (grip_release hown hv)
    cases res with
    | error e' => exact h
    | ok _ =>
      simp only
      rw [Task.wp_throw]
      exact h
  | ok _ =>
    have hheld : ∀ k ∈ r.keys, k ∈ v'.keys := by
      intro k hk
      rw [hkeys] at hk
      obtain ⟨key, hkey, rfl⟩ := List.mem_map.mp hk
      exact (hset rfl).2 key hkey
    refine Task.wp_mono (fun res p'' v'' h => ?_) (grip_withUow hbody hheld)
    obtain ⟨hacquired, hsame, hv''⟩ := h
    have hown' : Lists p''.adapters.acquired v''.keys := by
      rw [hacquired, hsame]
      exact hown
    refine Task.wp_mono (fun res' _ _ h => ?_) (grip_release hown' hv'')
    cases res' <;> exact h

/-! ## Requests -/

theorem grip_initiate (draws : TransferDraws) (command : TransferCommand) :
    Task.wp (gripContract (.transfer draws command))
      (TransferService.initiate sqlUow redisLock sqlBus draws command)
      (fun _ _ v => v = .empty) .init .empty := by
  rw [TransferService.initiate, Task.wp_bind]
  refine grip_steady (steady_withUow (steady_getByIdempotencyKey _)) rfl fun res p => ?_
  obtain e | _ | ref := res
  · exact rfl
  · simp only
    rw [Task.wp_bind, Task.wp_ofExcept]
    cases Currency.ofValue command.currency with
    | error e => exact rfl
    | ok currency =>
      simp only
      rw [Task.wp_bind, Task.wp_ofExcept]
      cases Money.new command.amount currency with
      | error e => exact rfl
      | ok amount =>
        simp only
        rw [Task.wp_bind]
        refine Task.wp_mono (fun res p v h => ?_)
          (grip_withLock rfl (steady_transferUnit (fun _ => rfl) _ _ _ _ _))
        subst h
        cases res with
        | error e => exact rfl
        | ok refs => exact grip_steady (steady_publishRemaining _ _ _) rfl fun _ _ => rfl
  · exact grip_steady (steady_bind (steady_callTransaction _ _) fun _ => steady_pure _) rfl
      fun _ _ => rfl

/-- Every request keeps to the contract, and in the end it holds nothing. -/
theorem grip_program (r : Request) :
    r.program.wp (gripContract r) (fun _ v => v = .empty) .empty := by
  have h : Task.wp (gripContract r) r.task (fun _ _ v => v = .empty) .init .empty := by
    cases r with
    | create draws command =>
      exact grip_steady (steady_bind (steady_create draws command) fun _ => steady_pure _) rfl
        fun _ _ => rfl
    | transfer draws command =>
      rw [Request.task, Task.wp_bind]
      refine Task.wp_mono (fun res p v h => ?_) (grip_initiate draws command)
      cases res with
      | error e => exact h
      | ok dto =>
        simp only
        rw [Task.wp_pure]
        exact h
  rw [Task.wp_def] at h
  exact h

/-- A row is locked only by a transfer from or to its account. -/
def NamesRows (r : Request) (_ : Grip) (o : IoOp) : Prop :=
  ∀ id, o = .selectAccountForUpdate id → r.Names id

/-- What a request may lock is known from the order of its row locks. -/
theorem namesRows_of_rowOrder {phase : RowPhase} {o : IoOp} {Q : o.Res → Grip → Prop}
    {Q' : o.Res → RowPhase → Prop} (hrows : ∀ id ∈ phase.rows, r.Names id)
    (hd : (gripContract r).demand v o Q) (hd' : (rowOrderContract r).demand phase o Q') :
    NamesRows r v o ∧ (gripContract r).demand v o fun res w =>
      Q res w ∧ ∃ phase', (∀ id ∈ phase'.rows, r.Names id) ∧ Q' res phase' := by
  have honward : ∀ id ∈ phase.onward.rows, r.Names id := by simpa using hrows
  cases o with
  | selectAccountForUpdate id =>
    obtain ⟨hmay, hnone, hsome, -⟩ := hd'
    have hid := Request.names_of_mayLock hmay hrows
    have hlocked : ∀ id' ∈ (phase.lock id).rows, r.Names id' := by
      intro id' hmem
      cases phase <;> simp only [RowPhase.lock, RowPhase.rows, List.mem_cons] at hmem hrows <;> grind
    refine ⟨?_, hd.1, ⟨hd.2.1, .after phase.rows, hrows, hnone⟩, fun row hrow => ?_⟩
    · intro id' h
      cases h
      exact hid
    · exact ⟨hd.2.2 row hrow, _, hlocked, hsome _ hrow⟩
  | commit w =>
    exact ⟨fun _ h => (by cases h), fun e => ⟨hd.1 e, _, honward, (hd' _).1⟩, hd.2, _, honward,
      (hd' _).1⟩
  | rollback => exact ⟨fun _ h => (by cases h), hd, _, honward, (hd' _).1⟩
  | close => exact ⟨fun _ h => (by cases h), hd, _, honward, (hd' _).1⟩
  | acquireKey k =>
    exact ⟨fun _ h => (by cases h), ⟨hd.1, _, honward, hd' _⟩,
      fun hk => ⟨hd.2 hk, _, honward, hd' _⟩⟩
  | deleteKey k => exact ⟨fun _ h => (by cases h), hd.1, hd.2.1, hd.2.2, _, honward, hd' _⟩
  | publishMany events => exact ⟨fun _ h => (by cases h), hd, _, honward, hd' _⟩
  | _ => exact ⟨fun _ h => (by cases h), fun res => ⟨hd res, _, honward, hd' res⟩⟩

theorem grip_names (r : Request) :
    r.program.wp ((gripContract r).requiring (NamesRows r)) (fun _ v => v = .empty) .empty :=
  Contract.wp_requiring (I := fun phase : RowPhase => ∀ id ∈ phase.rows, r.Names id)
    (fun hrows hd hd' => namesRows_of_rowOrder hrows hd hd') (grip_program r) (inOrder_program r)
    (by simp [RowPhase.rows])

end Programs

end BankingTransactions
