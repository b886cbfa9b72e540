import BankingTransactions.Histories

/-!
# One request that runs alone

When no other request is in flight and nothing fails, the server answers every
operation at once, and a request is a function of the committed database. The
symbolic execution of the service against this server gives that function:
`TransferCommand.serial`.
-/
namespace BankingTransactions
open DecimalArithmetic InteractionPrograms ThreadPools

/-- A request that ran alone: its outcome, the database after it, what it has committed and
published, and the objects that are left when it has committed. -/
structure SerialRun where
  outcome : Except Exn Response
  db : Database
  written : List Flush
  published : List DomainEvent
  objects : Heap

/-- A run that has changed nothing. -/
def SerialRun.unchanged (outcome : Except Exn Response) (db : Database) : SerialRun :=
  ⟨outcome, db, [], [], .empty⟩

/-- The objects that are left when a settlement was committed: the unit of work has
drained the accounts, and the service the transaction of a completed transfer. -/
def Settlement.heap (S : Settlement) : Heap :=
  ⟨[S.sender.collectEvents.2, S.receiver.collectEvents.2],
    [if S.raised = none then S.tx.collectEvents.2 else S.tx]⟩

/-- A run that has committed a settlement. -/
def SerialRun.committed (S : Settlement) (w : Flush) (db : Database) : SerialRun :=
  match S.raised with
  | none =>
    ⟨.ok (.transaction (TransactionDTO.fromAggregate S.tx)), db, [w], S.tx.domainEvents, S.heap⟩
  | some e => ⟨.error e, db, [w], [], S.heap⟩

@[simp] theorem SerialRun.committed_db (S : Settlement) (w : Flush) (db : Database) :
    (committed S w db).db = db := by
  unfold committed
  split <;> rfl

@[simp] theorem SerialRun.committed_written (S : Settlement) (w : Flush) (db : Database) :
    (committed S w db).written = [w] := by
  unfold committed
  split <;> rfl

/-- What a transfer is when it runs alone, as a function of the database. -/
def TransferCommand.serial (command : TransferCommand) (draws : TransferDraws) (db : Database) :
    SerialRun :=
  match db.findByKey command.idempotencyKey with
  | some row => .unchanged ((TransactionMapper.toDomain row.load).map fun tx =>
      .transaction (TransactionDTO.fromAggregate tx)) db
  | none =>
    match command.money with
    | .error e => .unchanged (.error e) db
    | .ok amount =>
      -- the second key of a transfer to itself is the one it has already set
      if command.fromAccountId = command.toAccountId then
        .unchanged (.error (Server.lockTimeout
          (RedisLockManager.lockKey command.fromAccountId.str))) db
      else
        match command.resolve draws amount db.findAccount with
        | .error e => .unchanged (.error e) db
        | .ok (senderRow, receiverRow, S) =>
          match db.flush (S.flush senderRow receiverRow) with
          | .error e => .unchanged (.error e) db
          | .ok db' => .committed S (S.flush senderRow receiverRow) db'

/-- What an account opening is when it runs alone. -/
def CreateAccountCommand.serial (command : CreateAccountCommand) (draws : AccountDraws)
    (db : Database) : SerialRun :=
  match command.opened draws with
  | .error e => .unchanged (.error e) db
  | .ok a =>
    match db.flush { Flush.empty with newAccounts := [AccountMapper.toNewOrm a] } with
    | .error e => .unchanged (.error e) db
    | .ok db' => ⟨.ok (.account (AccountDTO.fromAggregate a)), db',
        [{ Flush.empty with newAccounts := [AccountMapper.toNewOrm a] }], [], ⟨[a], []⟩⟩

def Request.serial (db : Database) : Request → SerialRun
  | .create draws command => command.serial draws db
  | .transfer draws command => command.serial draws db

/-- A new transfer between two accounts ends as its settlement and the flush decide. -/
theorem TransferCommand.serial_settles {command : TransferCommand} (draws : TransferDraws)
    {db : Database} (hkey : db.findByKey command.idempotencyKey = none) {amount : Money}
    (hmoney : command.money = .ok amount) (hne : command.fromAccountId ≠ command.toAccountId) :
    command.serial draws db =
      match command.resolve draws amount db.findAccount with
      | .error e => .unchanged (.error e) db
      | .ok (senderRow, receiverRow, S) =>
        match db.flush (S.flush senderRow receiverRow) with
        | .error e => .unchanged (.error e) db
        | .ok db' => .committed S (S.flush senderRow receiverRow) db' := by
  simp only [serial, hkey, hmoney, if_neg hne]

namespace Server

/-- The server when a request that runs alone has committed `written` and left the database
at `db`. -/
structure Alone (base : Server) (db : Database) (written : List Flush) (s : Server) : Prop where
  db : s.db = db
  written : s.history.map (·.written) = base.history.map (·.written) ++ written
  aborted : s.aborted = []
  rowLocks : ∀ l ∈ s.rowLocks, l.2 = 0
  lockKeys : s.lockKeys = base.lockKeys
  published : s.published = base.published
  issued : s.issued = base.issued

/-- No request in flight and no lock key set. -/
structure Idle (s : Server) : Prop where
  rowLocks : s.rowLocks = []
  aborted : s.aborted = []
  lockKeys : s.lockKeys = []

theorem idle_quiet (db : Database) : (quiet db).Idle := ⟨rfl, rfl, rfl⟩

theorem Idle.alone {s : Server} (h : s.Idle) : Alone s s.db [] s :=
  ⟨rfl, by simp, h.aborted, by simp [h.rowLocks], rfl, rfl, rfl⟩

variable {r : Request} {base s : Server} {db : Database} {ws : List Flush}

namespace Alone

theorem not_aborted (h : Alone base db ws s) : 0 ∉ s.aborted := by simp [h.aborted]

theorem not_locked (h : Alone base db ws s) (id : AccountId) : s.lockedByOther 0 id = false := by
  simp only [lockedByOther, List.any_eq_false]
  intro l hl
  simp [h.rowLocks l hl]

theorem release (h : Alone base db ws s) : Alone base db ws (s.release 0) where
  db := h.db
  written := h.written
  aborted := by simp [Server.release, h.aborted]
  rowLocks l hl := h.rowLocks l (List.mem_filter.mp hl).1
  lockKeys := h.lockKeys
  published := h.published
  issued := h.issued

theorem lock (h : Alone base db ws s) (id : AccountId) :
    Alone base db ws { s with rowLocks := (id, 0) :: s.rowLocks } where
  db := h.db
  written := h.written
  aborted := h.aborted
  rowLocks l hl := by
    rcases List.mem_cons.mp hl with rfl | hl
    · rfl
    · exact h.rowLocks l hl
  lockKeys := h.lockKeys
  published := h.published
  issued := h.issued

theorem commit (h : Alone base db ws s) (r : Request) (w : Flush) (db' : Database) :
    Alone base db' (ws ++ [w]) { s.release 0 with
      db := db', history := s.history ++ [⟨0, r, s.db, w, db'⟩] } where
  db := rfl
  written := by simp [h.written]
  aborted := h.release.aborted
  rowLocks := h.release.rowLocks
  lockKeys := h.lockKeys
  published := h.published
  issued := h.issued

end Alone

end Server

/-- The contract of a server that serves one request alone. -/
abbrev aloneContract (r : Request) : Contract IoOp IoOp.Res Server :=
  .ofService (Server.answerAlone r)

section Operations

variable {r : Request} {base s : Server} {db : Database} {ws : List Flush}

/-- An operation that does not have to wait is answered as it is performed. -/
theorem alone_demand {o : IoOp} {x : o.Res × Server} (h : Server.serve 0 r o s = some x)
    (Q : o.Res → Server → Prop) : (aloneContract r).demand s o Q = Q x.1 x.2 := by
  simp only [aloneContract, Contract.ofService, Server.answerAlone, Server.answer, h]

theorem alone_acquire_held {lockKey : String} (h : s.keyHeld lockKey = true)
    (Q : IoOp.Res (.acquireKey lockKey) → Server → Prop) :
    (aloneContract r).demand s (.acquireKey lockKey) Q =
      Q (.error (Server.lockTimeout lockKey)) s := by
  simp only [aloneContract, Contract.ofService, Server.answerAlone, Server.answer, Server.serve, h,
    if_true]

theorem alone_loads (h : Server.Alone base db ws s) (id : AccountId) {E : Exn → Server → Prop}
    {K : AccountRow → Account → Server → Prop}
    (hnone : db.findAccount id = none → E (.resourceNotFound "Account" id) s)
    (hsome : ∀ row, db.findAccount id = some row → ∀ s', Server.Alone base db ws s' →
      match AccountMapper.toDomain row.load with
      | .error e => E e s'
      | .ok a => K row a s') :
    TransferService.loads (aloneContract r) E id K s := by
  unfold TransferService.loads
  cases hfind : db.findAccount id with
  | none =>
    have hserve : Server.serve 0 r (.selectAccountForUpdate id) s = some (.ok none, s) := by
      simp [Server.serve, h.not_aborted, h.db, hfind]
    rw [alone_demand hserve]
    exact hnone hfind
  | some row =>
    have hserve : Server.serve 0 r (.selectAccountForUpdate id) s =
        some (.ok (some row.load), { s with rowLocks := (id, 0) :: s.rowLocks }) := by
      simp [Server.serve, h.not_aborted, h.db, hfind, h.not_locked]
    rw [alone_demand hserve]
    exact ⟨row, rfl, (Database.findAccount_eq_some.mp hfind).2, hsome row hfind _ (h.lock id)⟩

theorem alone_rereads (h : Server.Alone base db ws s) {row : AccountRow}
    (hrow : db.findAccount row.id = some row) {E : Exn → Server → Prop} {K : Server → Prop}
    (hK : ∀ s', Server.Alone base db ws s' → K s') :
    TransferService.rereads (aloneContract r) E row K s := by
  unfold TransferService.rereads
  have hserve : Server.serve 0 r (.selectAccountForUpdate row.id) s =
      some (.ok (some row.load), { s with rowLocks := (row.id, 0) :: s.rowLocks }) := by
    simp [Server.serve, h.not_aborted, h.db, hrow, h.not_locked]
  rw [alone_demand hserve]
  exact ⟨rfl, hK _ (h.lock row.id)⟩

theorem alone_finishes (h : Server.Alone base db ws s) (w : Flush) {E : Exn → Server → Prop}
    {K : Server → Prop}
    (hrefused : ∀ e, db.flush w = .error e → ∀ s', Server.Alone base db ws s' → E e s')
    (hdone : ∀ db', db.flush w = .ok db' → ∀ s', Server.Alone base db' (ws ++ [w]) s' → K s') :
    TransferService.finishes (aloneContract r) E w K s := by
  unfold TransferService.finishes
  cases hflush : db.flush w with
  | error e =>
    have hserve : Server.serve 0 r (.commit w) s = some (.error e, s) := by
      simp [Server.serve, h.not_aborted, h.db, hflush]
    have hrollback : Server.serve 0 r .rollback s = some (.ok (), s.release 0) := rfl
    rw [alone_demand hserve]
    simp only
    split
    · rw [alone_demand hrollback]
      exact hrefused e hflush _ h.release
    · exact hrefused e hflush _ h
  | ok db' =>
    have hserve : Server.serve 0 r (.commit w) s = some (.ok (), { s.release 0 with
        db := db', history := s.history ++ [⟨0, r, s.db, w, db'⟩] }) := by
      simp [Server.serve, h.not_aborted, h.db, hflush]
    rw [alone_demand hserve]
    exact hdone db' hflush _ (h.commit r w db')

theorem alone_commits (h : Server.Alone base db ws s) {id : TransactionId}
    (hid : db.findTransaction id = none) (w : Flush) {E : Exn → Server → Prop} {K : Server → Prop}
    (hrefused : ∀ e, db.flush w = .error e → ∀ s', Server.Alone base db ws s' → E e s')
    (hdone : ∀ db', db.flush w = .ok db' → ∀ s', Server.Alone base db' (ws ++ [w]) s' → K s') :
    TransferService.commits (aloneContract r) E id w K s := by
  have hserve : Server.serve 0 r (.selectTransaction id) s = some (.ok none, s) := by
    simp [Server.serve, h.not_aborted, h.db, hid]
  unfold TransferService.commits
  rw [alone_demand hserve]
  exact alone_finishes h w hrefused hdone

theorem alone_opens (h : Server.Alone base db ws s) {id : AccountId}
    (hid : db.findAccount id = none) (w : Flush) {E : Exn → Server → Prop} {K : Server → Prop}
    (hrefused : ∀ e, db.flush w = .error e → ∀ s', Server.Alone base db ws s' → E e s')
    (hdone : ∀ db', db.flush w = .ok db' → ∀ s', Server.Alone base db' (ws ++ [w]) s' → K s') :
    TransferService.opens (aloneContract r) E id w K s := by
  have hserve : Server.serve 0 r (.selectAccount id) s = some (.ok none, s) := by
    simp [Server.serve, h.not_aborted, h.db, hid]
  unfold TransferService.opens
  rw [alone_demand hserve]
  exact alone_finishes h w hrefused hdone

/-- Steps 4 to 9 of a transfer that runs alone. -/
theorem alone_transfers (h : Server.Alone base db ws s) {draws : TransferDraws}
    (hnew : db.findTransaction draws.tx.id = none) {command : TransferCommand} {amount : Money}
    {E : Exn → Server → Prop} {K : Settlement → Server → Prop}
    (hends : ∀ e, command.resolve draws amount db.findAccount = .error e →
      ∀ s', Server.Alone base db ws s' → E e s')
    (hrefused : ∀ senderRow receiverRow S e,
      command.resolve draws amount db.findAccount = .ok (senderRow, receiverRow, S) →
      db.flush (S.flush senderRow receiverRow) = .error e →
      ∀ s', Server.Alone base db ws s' → E e s')
    (hdone : ∀ senderRow receiverRow S db',
      command.resolve draws amount db.findAccount = .ok (senderRow, receiverRow, S) →
      db.flush (S.flush senderRow receiverRow) = .ok db' →
      ∀ s', Server.Alone base db' (ws ++ [S.flush senderRow receiverRow]) s' → K S s') :
    TransferService.transfers (aloneContract r) E draws command amount K s := by
  refine TransferService.transfers_of_find (I := Server.Alone base db ws)
    (fun hfind => (Database.findAccount_eq_some.mp hfind).2)
    (fun h hnone hsome => alone_loads h _ (fun hfind => hnone hfind _ h) hsome)
    (fun h hrow hK => alone_rereads h hrow hK) hends
    (fun senderRow receiverRow S hresolve s h => ?_) h
  exact alone_commits h hnew _ (fun e he => hrefused _ _ _ e hresolve he)
    fun db' hdb => hdone _ _ _ db' hresolve hdb

/-! ### Context managers -/

/-- The database transaction has ended: no row is locked. -/
def Server.Closed (base : Server) (db : Database) (ws : List Flush) (s : Server) : Prop :=
  Server.Alone base db ws s ∧ s.rowLocks = []

theorem Server.Alone.closed (h : Server.Alone base db ws s) :
    Server.Closed base db ws (s.release 0) :=
  ⟨h.release, List.filter_eq_nil_iff.mpr fun l hl => by simp [h.rowLocks l hl]⟩

variable (base) in
/-- A unit of work leaves the server closed. -/
theorem alone_uow {α : Type} {Q : Except Exn α → Process SqlState → Server → Prop}
    {body : SqlTask α} {p : Process SqlState}
    (h : Task.wp (aloneContract r) body (fun res p s => ∃ db ws, Server.Alone base db ws s ∧
      ∀ p' s', p'.heap = p.heap → p'.adapters.acquired = p.adapters.acquired →
        Server.Closed base db ws s' → Q res p' s')
      { p with adapters := { p.adapters with
        session := .empty, seenAccounts := [], seenTransactions := [] } } s) :
    Task.wp (aloneContract r) (withUow sqlUow body) Q p s := by
  rw [wp_withUow]
  refine Task.wp_mono ?_ h
  rintro (e | a) p s ⟨db, ws, hs, hQ⟩
  · have hrollback : Server.serve 0 r .rollback s = some (.ok (), s.release 0) := rfl
    have hclose : Server.serve 0 r .close (s.release 0) =
      some (.ok (), (s.release 0).release 0) := rfl
    simp only
    rw [alone_demand hrollback]
    simp only
    rw [alone_demand hclose]
    exact hQ _ _ rfl rfl hs.release.closed
  · have hclose : Server.serve 0 r .close s = some (.ok (), s.release 0) := rfl
    simp only
    rw [alone_demand hclose]
    exact hQ _ _ rfl rfl hs.closed

/-- Two different keys are acquired. -/
theorem alone_enter {x y : String} (hxy : x ≠ y) (hs : s.lockKeys = [])
    (Q : Except Exn Unit → Process SqlState → Server → Prop) (p : Process SqlState) :
    Task.wp (aloneContract r) (RedisLockManager.enter [x, y]) Q p s =
      Q (.ok ()) { p with adapters := { p.adapters with
          acquired := [RedisLockManager.lockKey x, RedisLockManager.lockKey y] } }
        { s with lockKeys := [(RedisLockManager.lockKey y, 0), (RedisLockManager.lockKey x, 0)] } := by
  have hx : Server.serve 0 r (.acquireKey (RedisLockManager.lockKey x)) s =
      some (.ok (), { s with lockKeys := [(RedisLockManager.lockKey x, 0)] }) := by
    simp [Server.serve, Server.keyHeld, hs]
  have hy : Server.serve 0 r (.acquireKey (RedisLockManager.lockKey y))
      { s with lockKeys := [(RedisLockManager.lockKey x, 0)] } =
      some (.ok (), { s with
        lockKeys := [(RedisLockManager.lockKey y, 0), (RedisLockManager.lockKey x, 0)] }) := by
    simp [Server.serve, Server.keyHeld, RedisLockManager.lockKey_injective.ne hxy]
  simp only [RedisLockManager.enter, RedisLockManager.acquireAll, Task.wp_bind, Task.wp_tryCatch,
    wp_modifyAdapters, wp_exec, alone_demand hx, alone_demand hy, Task.wp_pure, List.nil_append,
    List.cons_append]

/-- The second of two equal keys is refused, and the first is given back. -/
theorem alone_enter_same {x : String} (hs : s.lockKeys = [])
    {Q : Except Exn Unit → Process SqlState → Server → Prop} {p : Process SqlState}
    (hQ : ∀ p', p'.heap = p.heap →
      Q (.error (Server.lockTimeout (RedisLockManager.lockKey x))) p' s) :
    Task.wp (aloneContract r) (RedisLockManager.enter [x, x]) Q p s := by
  have hx : Server.serve 0 r (.acquireKey (RedisLockManager.lockKey x)) s =
      some (.ok (), { s with lockKeys := [(RedisLockManager.lockKey x, 0)] }) := by
    simp [Server.serve, Server.keyHeld, hs]
  have hheld : Server.keyHeld { s with lockKeys := [(RedisLockManager.lockKey x, 0)] }
      (RedisLockManager.lockKey x) = true := by simp [Server.keyHeld]
  have hdelete : Server.serve 0 r (.deleteKey (RedisLockManager.lockKey x))
      { s with lockKeys := [(RedisLockManager.lockKey x, 0)] } =
      some (.ok (), { s with lockKeys := [] }) := by
    simp [Server.serve]
  simp only [RedisLockManager.enter, RedisLockManager.acquireAll, Task.wp_bind, Task.wp_tryCatch,
    wp_modifyAdapters, wp_exec, alone_demand hx, alone_acquire_held hheld, List.nil_append,
    RedisLockManager.release, wp_getAdapters, List.reverse_singleton, RedisLockManager.releaseAll,
    wp_safeRelease, alone_demand hdelete, Task.wp_pure, Task.wp_throw]
  rw [← hs]
  exact hQ _ rfl

theorem alone_release {x y : String} {p : Process SqlState}
    (hp : p.adapters.acquired = [RedisLockManager.lockKey x, RedisLockManager.lockKey y])
    (hs : s.lockKeys = [(RedisLockManager.lockKey y, 0), (RedisLockManager.lockKey x, 0)])
    (Q : Except Exn Unit → Process SqlState → Server → Prop) :
    Task.wp (aloneContract r) RedisLockManager.release Q p s =
      Q (.ok ()) p { s with lockKeys := [] } := by
  have hy : Server.serve 0 r (.deleteKey (RedisLockManager.lockKey y)) s = some (.ok (),
      { s with lockKeys := s.lockKeys.filter fun l => l.1 ≠ RedisLockManager.lockKey y }) := rfl
  have hx : Server.serve 0 r (.deleteKey (RedisLockManager.lockKey x))
      { s with lockKeys := s.lockKeys.filter fun l => l.1 ≠ RedisLockManager.lockKey y } =
      some (.ok (), { s with lockKeys := [] }) := by
    simp [Server.serve, hs]
  simp only [RedisLockManager.release, Task.wp_bind, wp_getAdapters, hp, List.reverse_cons,
    List.reverse_nil, List.nil_append, List.cons_append, RedisLockManager.releaseAll,
    wp_safeRelease, alone_demand hy, alone_demand hx, Task.wp_pure]

theorem alone_lookup (hs : s.Idle) (key : IdempotencyKey)
    {Q : Except Exn (Option TransactionRef) → Process SqlState → Server → Prop}
    (hnone : s.db.findByKey key = none → ∀ p s', p.heap = .empty → Server.Closed s s.db [] s' →
      Q (.ok none) p s')
    (hsome : ∀ row, s.db.findByKey key = some row → ∀ p s', Server.Closed s s.db [] s' →
      match TransactionMapper.toDomain row.load with
      | .error e => Q (.error e) p s'
      | .ok tx => p.heap = ⟨[], [tx]⟩ → Q (.ok (some 0)) p s') :
    Task.wp (aloneContract r) (withUow sqlUow (sqlUow.transactions.getByIdempotencyKey key)) Q
      .init s := by
  have hserve : Server.serve 0 r (.selectTransactionByKey key) s =
      some (.ok ((s.db.findByKey key).map (·.load)), s) := by
    simp [Server.serve, hs.alone.not_aborted]
  refine alone_uow s ?_
  change Task.wp _ _ _ (Process.within [] [] .empty []) _
  rw [wp_getByIdempotencyKey, alone_demand hserve]
  cases hfind : s.db.findByKey key with
  | none => exact ⟨s.db, [], hs.alone, fun p s' hp _ hclosed => hnone hfind p s' hp hclosed⟩
  | some row =>
    have h := hsome row hfind
    simp only [Option.map_some]
    cases ht : TransactionMapper.toDomain row.load with
    | error e =>
      simp only [ht] at h ⊢
      exact ⟨s.db, [], hs.alone, fun p s' hp _ hclosed => h p s' hclosed⟩
    | ok tx =>
      simp only [ht] at h ⊢
      exact ⟨s.db, [], hs.alone, fun p s' hp _ hclosed => h p s' hclosed hp⟩

/-- The server when a request that ran alone is over. -/
structure Server.Ended (base : Server) (db : Database) (ws : List Flush)
    (published : List DomainEvent) (s : Server) : Prop where
  idle : s.Idle
  db : s.db = db
  written : s.history.map (·.written) = base.history.map (·.written) ++ ws
  published : s.published = base.published ++ published
  issued : s.issued = base.issued

theorem Server.Closed.ended (hs : base.Idle) (h : Server.Closed base db ws s) :
    Server.Ended base db ws [] s :=
  ⟨⟨h.2, h.1.aborted, h.1.lockKeys.trans hs.lockKeys⟩, h.1.db, h.1.written,
    by simp [h.1.published], h.1.issued⟩

/-- What a request that ran alone leaves. -/
structure Server.Left (base : Server) (run : SerialRun) (outcome : Except Exn Response)
    (p : Process SqlState) (s : Server) : Prop where
  outcome : outcome = run.outcome
  ended : Server.Ended base run.db run.written run.published s
  objects : run.written ≠ [] → p.heap = run.objects

theorem Server.left_unchanged (hs : base.Idle) {outcome : Except Exn Response}
    (h : Server.Closed base db [] s) (p : Process SqlState) :
    Server.Left base (.unchanged outcome db) outcome p s :=
  ⟨rfl, h.ended hs, fun hne => absurd rfl hne⟩

/-- How steps 3 to 9 end: nothing was committed, or a settlement. `At` says where the
server is then. -/
def UnitEnds (run : SerialRun) (db : Database) (At : Database → List Flush → Server → Prop)
    (res : Except Exn (AccountRef × AccountRef × TransactionRef)) (p : Process SqlState)
    (s : Server) : Prop :=
  (∃ e, res = .error e ∧ run = .unchanged (.error e) db ∧ At db [] s) ∨
    ∃ S w db', run = .committed S w db' ∧ res = TransferService.ending S ∧
      p.heap = ⟨[S.sender.collectEvents.2, S.receiver.collectEvents.2], [S.tx]⟩ ∧ At db' [w] s

/-- Only where the server is changes after the unit of work. -/
theorem UnitEnds.at {run : SerialRun} {At : Database → List Flush → Server → Prop}
    {res : Except Exn (AccountRef × AccountRef × TransactionRef)} {p : Process SqlState}
    (h : UnitEnds run db At res p s) :
    ∃ db' ws, At db' ws s ∧ ∀ (At' : Database → List Flush → Server → Prop)
      (p' : Process SqlState) (s' : Server),
      p'.heap = p.heap → At' db' ws s' → UnitEnds run db At' res p' s' := by
  obtain ⟨e, hres, hrun, hat⟩ | ⟨S, w, db', hrun, hres, hheap, hat⟩ := h
  · exact ⟨db, [], hat, fun At' p' s' hp hat' => .inl ⟨e, hres, hrun, hat'⟩⟩
  · exact ⟨db', [w], hat, fun At' p' s' hp hat' =>
      .inr ⟨S, w, db', hrun, hres, hp.trans hheap, hat'⟩⟩

theorem alone_transferUnit (h : Server.Alone base db [] s) {draws : TransferDraws}
    (hnew : db.findTransaction draws.tx.id = none) {command : TransferCommand}
    (hkey : db.findByKey command.idempotencyKey = none) {amount : Money}
    (hmoney : command.money = .ok amount) (hne : command.fromAccountId ≠ command.toAccountId)
    (acquired : List String) :
    Task.wp (aloneContract r) (TransferService.transferUnit sqlUow draws command.fromAccountId
      command.toAccountId amount command.idempotencyKey)
      (fun res p s => p.adapters.acquired = acquired ∧
        UnitEnds (command.serial draws db) db (Server.Alone base) res p s)
      (.within [] [] .empty acquired) s := by
  have hserial := TransferCommand.serial_settles draws hkey hmoney hne
  refine TransferService.wp_transferUnit_of
    (E := fun e s => command.serial draws db = .unchanged (.error e) db ∧ Server.Alone base db [] s)
    (fun e p s hp h => ⟨hp, .inl ⟨e, rfl, h.1, h.2⟩⟩) ?_
  refine alone_transfers h hnew (fun e he s' hs' => ⟨?_, hs'⟩)
    (fun senderRow receiverRow S e hS he s' hs' => ⟨?_, hs'⟩)
    (fun senderRow receiverRow S db' hS hdb s' hs' =>
      ⟨rfl, .inr ⟨S, _, db', ?_, rfl, rfl, hs'⟩⟩)
  · simp only [hserial, he]
  · simp only [hserial, hS, he]
  · simp only [hserial, hS, hdb]

/-- Two different keys are held around the body, and nothing of it is left. -/
theorem alone_withLock {α : Type} {Q : Except Exn α → Process SqlState → Server → Prop}
    {x y : String} (hxy : x ≠ y) {body : SqlTask α} {p : Process SqlState}
    (hbase : base.lockKeys = []) (hs : Server.Closed base db [] s)
    (h : ∀ base' p' s', Server.Closed base' db [] s' → p'.heap = p.heap →
      Task.wp (aloneContract r) body (fun res p s => p.adapters.acquired = p'.adapters.acquired ∧
        ∃ db' ws, Server.Closed base' db' ws s ∧ ∀ s', Server.Closed base db' ws s' → Q res p s')
        p' s') :
    Task.wp (aloneContract r) (withLock redisLock [x, y] body) Q p s := by
  have hfree : s.lockKeys = [] := hs.1.lockKeys.trans hbase
  have hheld : Server.Closed { base with
      lockKeys := [(RedisLockManager.lockKey y, 0), (RedisLockManager.lockKey x, 0)] } db [] { s with
      lockKeys := [(RedisLockManager.lockKey y, 0), (RedisLockManager.lockKey x, 0)] } :=
    ⟨{ hs.1 with lockKeys := rfl }, hs.2⟩
  rw [wp_withLock, alone_enter hxy hfree]
  simp only
  refine Task.wp_mono ?_ (h _ _ _ hheld rfl)
  rintro res p s ⟨hp, db', ws, hclosed, hQ⟩
  rw [alone_release hp hclosed.1.lockKeys]
  exact hQ _ ⟨{ hclosed.1 with lockKeys := hbase.symm }, hclosed.2⟩

/-- After a recorded failure nothing is published. -/
theorem alone_raised (hs : base.Idle) {S : Settlement} {e : Exn} (hraised : S.raised = some e)
    {p : Process SqlState}
    (hheap : p.heap = ⟨[S.sender.collectEvents.2, S.receiver.collectEvents.2], [S.tx]⟩)
    {w : Flush} (h : Server.Closed base db [w] s) :
    Server.Left base (.committed S w db) (.error e) p s := by
  have hcommitted : SerialRun.committed S w db = ⟨.error e, db, [w], [], S.heap⟩ := by
    simp only [SerialRun.committed, hraised]
  rw [hcommitted]
  exact ⟨rfl, h.ended hs, fun _ => by simp [hheap, Settlement.heap, hraised]⟩

/-- Step 10 after a completed transfer: the events of the transaction go to the bus. -/
theorem alone_publishRemaining (hs : base.Idle) {S : Settlement} (hraised : S.raised = none)
    {p : Process SqlState}
    (hheap : p.heap = ⟨[S.sender.collectEvents.2, S.receiver.collectEvents.2], [S.tx]⟩)
    {w : Flush} (h : Server.Closed base db [w] s) :
    Task.wp (aloneContract r) (TransferService.publishRemaining sqlBus 0 1 0)
      (fun res => Server.Left base (.committed S w db) (res.map .transaction)) p s := by
  obtain ⟨heap, adapters⟩ := p
  obtain rfl : heap = _ := hheap
  have hcommitted : SerialRun.committed S w db =
      ⟨.ok (.transaction (TransactionDTO.fromAggregate S.tx)), db, [w], S.tx.domainEvents,
        S.heap⟩ := by
    simp only [SerialRun.committed, hraised]
  have hended := h.ended hs
  have hread (s' : Server) (hended : Server.Ended base db [w] S.tx.domainEvents s') :
      Task.wp (aloneContract r) (do
        return TransactionDTO.fromAggregate (← callTransaction 0 MonadState.get))
        (fun res => Server.Left base (.committed S w db) (res.map .transaction))
        ⟨⟨[S.sender.collectEvents.2, S.receiver.collectEvents.2], [S.tx.collectEvents.2]⟩,
          adapters⟩ s' := by
    rw [Task.wp_bind, wp_readTransaction (t := S.tx.collectEvents.2) _ _ rfl]
    simp only
    rw [Task.wp_pure, hcommitted]
    exact ⟨rfl, hended, fun _ => by simp only [Settlement.heap, hraised, if_true]⟩
  rw [TransferService.publishRemaining, Task.wp_bind,
    wp_callAccount (a := S.sender.collectEvents.2) _ _ _ rfl]
  simp only [Account.collect_on]
  rw [Task.wp_bind, wp_callAccount (a := S.receiver.collectEvents.2) _ _ _ rfl]
  simp only [Account.collect_on]
  rw [Task.wp_bind, wp_callTransaction (t := S.tx) _ _ _ rfl]
  by_cases hevents : S.tx.domainEvents = []
  · simp only [Transaction.collect_on, Account.domainEvents_collected, List.nil_append, hevents,
      ne_eq, not_true_eq_false, if_false]
    exact hread _ { hended with published := by rw [hended.published, hevents] }
  · have hserve : Server.serve 0 r (.publishMany S.tx.domainEvents) s =
        some (.ok (), { s with published := s.published ++ S.tx.domainEvents }) := rfl
    simp only [Transaction.collect_on, Account.domainEvents_collected, List.nil_append, hevents,
      ne_eq, not_false_eq_true, if_true]
    rw [Task.wp_bind, sqlBus, wp_exec, alone_demand hserve]
    exact hread _ ⟨⟨hended.idle.rowLocks, hended.idle.aborted, hended.idle.lockKeys⟩, hended.db,
      hended.written, by rw [h.1.published], hended.issued⟩

theorem alone_ending (hs : base.Idle) {run : SerialRun}
    {res : Except Exn (AccountRef × AccountRef × TransactionRef)} {p : Process SqlState} :
    UnitEnds run base.db (Server.Closed base) res p s →
      match res with
      | .ok refs => Task.wp (aloneContract r)
          (TransferService.publishRemaining sqlBus refs.1 refs.2.1 refs.2.2)
          (fun res => Server.Left base run (res.map .transaction)) p s
      | .error e => Server.Left base run (.error e) p s := by
  rintro (⟨e, rfl, rfl, hat⟩ | ⟨S, w, db', rfl, rfl, hp, hat⟩)
  · exact Server.left_unchanged hs hat p
  · cases hraised : S.raised with
    | none =>
      simp only [TransferService.ending, hraised]
      exact alone_publishRemaining hs hraised hp hat
    | some e =>
      simp only [TransferService.ending, hraised]
      exact alone_raised hs hraised hp hat

/-- A transfer that runs alone on an idle server ends as its serial run. -/
theorem alone_initiate (hs : s.Idle) {draws : TransferDraws} (command : TransferCommand)
    (hnew : s.db.findTransaction draws.tx.id = none) :
    Task.wp (aloneContract r) (TransferService.initiate sqlUow redisLock sqlBus draws command)
      (fun res => Server.Left s (command.serial draws s.db) (res.map .transaction)) .init s := by
  rw [TransferService.initiate, Task.wp_bind]
  refine alone_lookup hs _ (fun hkey p s' hheap hclosed => ?_) fun row hrow p s' hclosed => ?_
  · simp only
    rw [Task.wp_bind, Task.wp_ofExcept]
    cases hcurrency : Currency.ofValue command.currency with
    | error e =>
      have hmoney : command.money = .error e := by
        simp only [TransferCommand.money, hcurrency]
        rfl
      have hserial : command.serial draws s.db = .unchanged (.error e) s.db := by
        simp only [TransferCommand.serial, hkey, hmoney]
      simp only
      rw [hserial]
      exact Server.left_unchanged hs hclosed p
    | ok currency =>
      simp only
      rw [Task.wp_bind, Task.wp_ofExcept]
      cases hamount : Money.new command.amount currency with
      | error e =>
        have hmoney : command.money = .error e := by
          simp only [TransferCommand.money, hcurrency]
          exact hamount
        have hserial : command.serial draws s.db = .unchanged (.error e) s.db := by
          simp only [TransferCommand.serial, hkey, hmoney]
        simp only
        rw [hserial]
        exact Server.left_unchanged hs hclosed p
      | ok amount =>
        have hmoney : command.money = .ok amount := bind_eq_ok.mpr ⟨currency, hcurrency, hamount⟩
        simp only
        rw [Task.wp_bind]
        by_cases hsame : command.fromAccountId = command.toAccountId
        · have hserial : command.serial draws s.db = .unchanged (.error (Server.lockTimeout
              (RedisLockManager.lockKey command.fromAccountId.str))) s.db := by
            simp only [TransferCommand.serial, hkey, hmoney, if_pos hsame]
          rw [← hsame, TransferService.lockKeys_self, wp_withLock]
          refine alone_enter_same (hclosed.1.lockKeys.trans hs.lockKeys) fun p' _ => ?_
          simp only
          rw [hserial]
          exact Server.left_unchanged hs hclosed p'
        · have hunit (base' : Server) (p' : Process SqlState) (s'' : Server)
              (hheld : Server.Closed base' s.db [] s'') (hp' : p'.heap = p.heap) :
              Task.wp (aloneContract r) (withUow sqlUow (TransferService.transferUnit sqlUow draws
                command.fromAccountId command.toAccountId amount command.idempotencyKey))
                (fun res p s₁ => p.adapters.acquired = p'.adapters.acquired ∧
                  UnitEnds (command.serial draws s.db) s.db (Server.Closed base') res p s₁)
                p' s'' := by
            obtain ⟨heap, adapters⟩ := p'
            obtain rfl : heap = .empty := hp'.trans hheap
            refine alone_uow base' ?_
            refine Task.wp_mono ?_ (alone_transferUnit hheld.1 hnew hkey hmoney hsame
              adapters.acquired)
            rintro res p s₁ ⟨hacquired, hends⟩
            obtain ⟨db', ws, hat, hmono⟩ := hends.at
            exact ⟨db', ws, hat, fun p' s' hp' hacquired' hclosed =>
              ⟨hacquired'.trans hacquired, hmono _ p' s' hp' hclosed⟩⟩
          have hlocked {x y : String} (hxy : x ≠ y) := alone_withLock (r := r)
            (Q := fun res p s' => match res with
              | .ok refs => Task.wp (aloneContract r)
                  (TransferService.publishRemaining sqlBus refs.1 refs.2.1 refs.2.2)
                  (fun res => Server.Left s (command.serial draws s.db) (res.map .transaction)) p s'
              | .error e => Server.Left s (command.serial draws s.db) (.error e) p s')
            hxy hs.lockKeys hclosed fun base' p' s'' hheld hp' => Task.wp_mono ?_
              (hunit base' p' s'' hheld hp')
          · obtain ⟨x, y, hxy, hkeys⟩ := TransferService.lockKeys_of_ne hsame
            rw [hkeys]
            refine Task.wp_mono (fun res p s' h => ?_) (hlocked hxy)
            cases res <;> exact h
          rintro res p s₁ ⟨hacquired, hends⟩
          obtain ⟨db', ws, hat, hmono⟩ := hends.at
          exact ⟨hacquired, db', ws, hat, fun s' hclosed =>
            alone_ending hs (hmono _ p s' rfl hclosed)⟩
  · cases ht : TransactionMapper.toDomain row.load with
    | error e =>
      have hserial : command.serial draws s.db = .unchanged (.error e) s.db := by
        simp only [TransferCommand.serial, hrow, ht]
        rfl
      simp only
      rw [hserial]
      exact Server.left_unchanged hs hclosed p
    | ok tx =>
      have hserial : command.serial draws s.db =
          .unchanged (.ok (.transaction (TransactionDTO.fromAggregate tx))) s.db := by
        simp only [TransferCommand.serial, hrow, ht]
        rfl
      simp only
      intro hheap
      rw [Task.wp_bind, wp_readTransaction (t := tx) _ _ (by rw [hheap]; rfl)]
      simp only
      rw [Task.wp_pure, hserial]
      exact Server.left_unchanged hs hclosed p

/-- An account opening that runs alone on an idle server ends as its serial run. -/
theorem alone_create (hs : s.Idle) {draws : AccountDraws} (command : CreateAccountCommand)
    (hnew : s.db.findAccount draws.id = none) :
    Task.wp (aloneContract r) (AccountService.create sqlUow draws command)
      (fun res => Server.Left s (command.serial draws s.db) (res.map .account)) .init s := by
  have hrefused {e : Exn} (hopened : command.opened draws = .error e) (p : Process SqlState) :
      Server.Left s (command.serial draws s.db) (.error e) p s := by
    simp only [CreateAccountCommand.serial, hopened]
    exact Server.left_unchanged hs ⟨hs.alone, hs.rowLocks⟩ p
  rw [AccountService.create, Task.wp_bind, Task.wp_ofExcept]
  cases hcurrency : Currency.ofValue command.currency with
  | error e => exact hrefused (by simp only [CreateAccountCommand.opened, hcurrency]; rfl) _
  | ok currency =>
    simp only
    rw [Task.wp_bind, Task.wp_ofExcept]
    cases hamount : Money.new command.initialBalance currency with
    | error e =>
      refine hrefused ?_ _
      rw [CreateAccountCommand.opened, hcurrency]
      change (Money.new command.initialBalance currency >>= _) = _
      rw [hamount]
      rfl
    | ok initialBalance =>
      simp only
      rw [Task.wp_bind, Task.wp_ofExcept]
      cases ha : Account.create draws command.ownerId currency (some initialBalance) with
      | error e =>
        refine hrefused ?_ _
        rw [CreateAccountCommand.opened, hcurrency]
        change (Money.new command.initialBalance currency >>= _) = _
        rw [hamount]
        exact ha
      | ok a =>
        have hopened : command.opened draws = .ok a :=
          bind_eq_ok.mpr ⟨currency, hcurrency, bind_eq_ok.mpr ⟨initialBalance, hamount, ha⟩⟩
        have hid : a.id = draws.id := CreateAccountCommand.opened_id hopened
        simp only
        rw [Task.wp_bind, wp_newAccount]
        simp only
        rw [Task.wp_bind]
        refine alone_uow s ?_
        refine TransferService.wp_open_of
          (E := fun e s' => s.db.flush { Flush.empty with
            newAccounts := [AccountMapper.toNewOrm a] } = .error e ∧ Server.Alone s s.db [] s')
          (K := fun s' => ∃ db', s.db.flush { Flush.empty with
            newAccounts := [AccountMapper.toNewOrm a] } = .ok db' ∧ Server.Alone s db' [_] s')
          (alone_opens hs.alone (hid ▸ hnew) _ (fun e he s' h => ⟨he, h⟩)
            fun db' hdb s' h => ⟨db', hdb, h⟩)
          (fun e p s' _ h => ⟨s.db, [], h.2, fun p' s' _ _ hclosed => ?_⟩)
          fun s' ⟨db', hdb, h⟩ => ⟨db', _, h, fun p' s' hp' _ hclosed => ?_⟩
        · simp only [CreateAccountCommand.serial, hopened, h.1]
          exact Server.left_unchanged hs hclosed p'
        · simp only
          rw [Task.wp_bind, wp_readAccount (a := a) _ _ (by rw [hp']; rfl)]
          simp only
          rw [Task.wp_pure]
          simp only [CreateAccountCommand.serial, hopened, hdb]
          exact ⟨rfl, hclosed.ended hs, fun _ => hp'⟩

end Operations

/-- The identifier of a request is not in use among the rows of its kind. -/
def Request.New (db : Database) : Request → Prop
  | .create draws _ => db.findAccount draws.id = none
  | .transfer draws _ => db.findTransaction draws.tx.id = none

/-- A request that runs alone on an idle server is its serial run on the database. -/
theorem Server.runAlone_serial {s : Server} (hs : s.Idle) {r : Request} (hnew : r.New s.db) :
    Server.Left s (r.serial s.db) (Server.runAlone r s).1.1 (Server.runAlone r s).1.2
      (Server.runAlone r s).2 := by
  have h : Task.wp (aloneContract r) r.task (Server.Left s (r.serial s.db)) .init s := by
    cases r with
    | create draws command =>
      rw [Request.task, Task.wp_bind]
      refine Task.wp_mono (fun res p s' h => ?_) (alone_create hs command hnew)
      cases res
      · exact h
      · simp only
        rw [Task.wp_pure]
        exact h
    | transfer draws command =>
      rw [Request.task, Task.wp_bind]
      refine Task.wp_mono (fun res p s' h => ?_) (alone_initiate hs command hnew)
      cases res
      · exact h
      · simp only
        rw [Task.wp_pure]
        exact h
  rw [Task.wp_def] at h
  exact (Contract.wp_ofService _ _ _ _).mp h

end BankingTransactions
