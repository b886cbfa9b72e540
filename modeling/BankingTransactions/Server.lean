import BankingTransactions.SqlAdapters
import BankingTransactions.ThreadPools

/-!
# The server side: PostgreSQL, Redis and the event bus

The state that all requests share and the effect of each operation on it. Of the
database only this is assumed: a SELECT FOR UPDATE waits for the row lock, reads
the latest committed row and keeps the lock until the transaction of the request
ends; a COMMIT applies all pending objects at once or none; the server may abort
the transaction of a request at any time, which releases its row locks and makes
its statements fail until it rolls back.

Every operation may also fail, without effect or after its effect. Keys of the
Redis lock may expire at any time, so that without further restriction the lock
excludes nobody. `history` and the owners of lock keys are history variables.
-/
namespace BankingTransactions
open DecimalArithmetic InteractionPrograms ThreadPools

/-- A request, by the order in which it arrived. -/
abbrev RequestId := ℕ

/-- One successful COMMIT. -/
structure Commit where
  requestId : RequestId
  request : Request
  before : Database
  written : Flush
  after : Database

structure Server where
  db : Database
  rowLocks : List (AccountId × RequestId)
  aborted : List RequestId
  lockKeys : List (String × RequestId)
  published : List DomainEvent
  issued : List UUID
  history : List Commit

/-- What the environment decides about one operation. -/
inductive Choice where
  | proceed
  /-- `_acquire_single` gives up after a refused attempt. -/
  | timeout
  | fault (e : Exn)
  | faultAfter (e : Exn)

inductive Disturbance where
  | expireKey (lockKey : String)
  | abort (t : RequestId)

namespace Request

/-- The identifier that the request generates. -/
def newId : Request → UUID
  | create draws _ => draws.id
  | transfer draws _ => draws.tx.id

end Request

namespace Server

/-- No request in flight, no key set. -/
def quiet (db : Database) : Server := ⟨db, [], [], [], [], [], []⟩

/-- End the database transaction of a request. -/
def release (s : Server) (t : RequestId) : Server :=
  { s with
    rowLocks := s.rowLocks.filter fun l => l.2 ≠ t
    aborted := s.aborted.filter fun t' => t' ≠ t }

/-- Whether another request holds the lock of a row. -/
def lockedByOther (s : Server) (t : RequestId) (id : AccountId) : Bool :=
  s.rowLocks.any fun l => l.1 = id ∧ l.2 ≠ t

def keyHeld (s : Server) (lockKey : String) : Bool := s.lockKeys.any fun l => l.1 = lockKey

/-- The operation as it is performed when nothing fails; `none` while it has to wait. An INSERT
that has to wait for an open transaction with an equal key, and a request that has to wait for a
free connection, are performed later. -/
def serve (t : RequestId) (r : Request) (o : IoOp) (s : Server) : Option (o.Res × Server) :=
  match o with
  | .selectAccount id =>
    if t ∈ s.aborted then some (.error .dbapiError, s)
    else some (.ok ((s.db.findAccount id).map (·.load)), s)
  | .selectTransaction id =>
    if t ∈ s.aborted then some (.error .dbapiError, s)
    else some (.ok ((s.db.findTransaction id).map (·.load)), s)
  | .selectTransactionByKey key =>
    if t ∈ s.aborted then some (.error .dbapiError, s)
    else some (.ok ((s.db.findByKey key).map (·.load)), s)
  | .selectAccountForUpdate id =>
    if t ∈ s.aborted then some (.error .dbapiError, s)
    else
      match s.db.findAccount id with
      | none => some (.ok none, s)
      | some row =>
        if s.lockedByOther t id then none
        else some (.ok (some row.load), { s with rowLocks := (id, t) :: s.rowLocks })
  | .commit w =>
    if t ∈ s.aborted then some (.error .dbapiError, s)
    else
      match s.db.flush w with
      | .error e => some (.error e, s)
      | .ok db => some (.ok (),
          { s.release t with
            db := db
            history := s.history ++ [⟨t, r, s.db, w, db⟩] })
  | .rollback => some (.ok (), s.release t)
  | .close => some (.ok (), s.release t)
  | .acquireKey lockKey =>
    if s.keyHeld lockKey then none
    else some (.ok (), { s with lockKeys := (lockKey, t) :: s.lockKeys })
  | .deleteKey lockKey =>
    some (.ok (), { s with lockKeys := s.lockKeys.filter fun l => l.1 ≠ lockKey })
  | .publishMany events => some (.ok (), { s with published := s.published ++ events })

def lockTimeout (lockKey : String) : Exn :=
  .concurrencyConflict ("Could not acquire lock '" ++ lockKey ++ "' within 5.0s — " ++
    "another transfer is processing the same account.")

def answer (t : RequestId) (r : Request) (c : Choice) (o : IoOp) (s : Server) :
    Option (o.Res × Server) :=
  match c with
  | .proceed => serve t r o s
  | .timeout =>
    match o with
    | .acquireKey lockKey => if s.keyHeld lockKey then some (.error (lockTimeout lockKey), s) else none
    | _ => none
  | .fault e => some (.error e, s)
  | .faultAfter e => (serve t r o s).map fun (_, s') => (.error e, s')

/-- Identifiers are generated fresh. -/
def accept (_ : RequestId) (r : Request) (s : Server) : Option Server :=
  if r.newId ∈ s.issued then none else some { s with issued := r.newId :: s.issued }

def disturb (d : Disturbance) (s : Server) : Option Server :=
  match d with
  | .expireKey lockKey =>
    some { s with lockKeys := s.lockKeys.filter fun l => l.1 ≠ lockKey }
  | .abort t =>
    some { s with rowLocks := s.rowLocks.filter fun l => l.2 ≠ t, aborted := t :: s.aborted }

/-- The system: any number of requests over one server. -/
def host : Host RequestId Server Request Choice Disturbance IoOp IoOp.Res Outcome :=
  { program := Request.program, accept, answer, disturb }

/-- A request that runs alone, with no failure, is answered at once; it gives up on a
key only when the key is still set. -/
def answerAlone (r : Request) (o : IoOp) (s : Server) : o.Res × Server :=
  match answer 0 r .proceed o s with
  | some x => x
  | none =>
    match answer 0 r .timeout o s with
    | some x => x
    | none => (.error .dbapiError, s)

def runAlone (r : Request) (s : Server) : Outcome × Server := r.program.run (answerAlone r) s

end Server

abbrev System := Pool RequestId Server Request IoOp IoOp.Res Outcome

/-- A run from the empty database. -/
abbrev SystemRun (ls : List (Label RequestId Request Choice Disturbance)) (p : System) : Prop :=
  Run Server.host.step (fun _ _ => True) (Pool.empty (Server.quiet .empty)) ls p

/-- The states of the system that runs can reach from the empty database. -/
def SystemReachable (p : System) : Prop :=
  Reachable Server.host.step (Pool.empty (Server.quiet .empty)) p

/-- The server of a state with no request in flight and no lock key set. -/
def Server.atRest (s : Server) : Server := { quiet s.db with issued := s.issued }

/-! ## Sample requests -/

namespace Sample

def moment (n : ℕ) : Moment := ⟨n, ⟨BitVec.ofNat 128 n, n⟩⟩

/-- Open an account with 100 units of a currency. -/
def opening (id : UUID) (digit : Fin 10) (currency : String) : Request :=
  .create ⟨id, 0, 0, fun _ => digit, (moment 0).stamp⟩ ⟨9, currency, .finite false 100 0⟩

def draws (id : UUID) : TransferDraws :=
  ⟨⟨id, 0, 0, (moment 0).stamp⟩, moment 1, moment 2, moment 3, moment 4, moment 5⟩

/-- Transfer 30 EUR from account 1 to account 2. -/
def command : TransferCommand := ⟨1, 2, .finite false 30 0, "EUR", "key"⟩

/-- Transfer 30 EUR from account 2 to account 1. -/
def reply : TransferCommand := ⟨2, 1, .finite false 30 0, "EUR", "reply"⟩

/-- A request that arrives and performs `n` operations. -/
def served (t : RequestId) (r : Request) (n : ℕ) :
    List (Label RequestId Request Choice Disturbance) :=
  .spawn t r :: List.replicate n (.resume t .proceed)

/-- The account 1 in EUR and the account 2 in `currency` are opened. -/
def openings (currency : String) : List (Label RequestId Request Choice Disturbance) :=
  served 0 (opening 1 1 "EUR") 3 ++ served 1 (opening 2 2 currency) 3

/-- The two accounts, and nothing else. -/
def opened : System :=
  replay Server.host.step (Pool.empty (Server.quiet .empty)) (openings "EUR") (by decide +kernel)

theorem opened_reachable : SystemReachable opened := reachable_replay _

theorem opened_issued : opened.shared.issued = [2, 1] := by decide +kernel

theorem opened_returns : ((opened.result 0).bind (·.1.toOption)).any
    (fun response => response matches .account _) = true := by decide +kernel

theorem opened_owner :
    (opened.shared.db.findAccount 1).any (fun row => row.ownerId = 9) = true := by decide +kernel

theorem opened_new : opened.shared.db.findTransaction (draws 3).tx.id = none := by decide +kernel

/-- Four accounts in EUR, and nothing else. -/
def openedWide : System :=
  replay Server.host.step (Pool.empty (Server.quiet .empty))
    (openings "EUR" ++ served 2 (opening 3 3 "EUR") 3 ++ served 3 (opening 4 4 "EUR") 3)
    (by decide +kernel)

theorem openedWide_reachable : SystemReachable openedWide := reachable_replay _

theorem openedWide_issued : openedWide.shared.issued = [4, 3, 2, 1] := by decide +kernel

/-- The two accounts, in different currencies. -/
def openedAbroad : System :=
  replay Server.host.step (Pool.empty (Server.quiet .empty)) (openings "USD") (by decide +kernel)

theorem openedAbroad_reachable : SystemReachable openedAbroad := reachable_replay _

theorem openedAbroad_issued : openedAbroad.shared.issued = [2, 1] := by decide +kernel

/-- A transfer between the two accounts was completed. -/
def transferred : System :=
  replay Server.host.step (Pool.empty (Server.quiet .empty))
    (openings "EUR" ++ served 2 (.transfer (draws 3) command) 14) (by decide +kernel)

theorem transferred_reachable : SystemReachable transferred := reachable_replay _

theorem transferred_issued : transferred.shared.issued = [3, 2, 1] := by decide +kernel

theorem transferred_balances :
    transferred.shared.db.accounts.map (·.balance.units) = [700000, 1300000] := by decide +kernel

theorem transferred_good :
    (transferred.shared.db.findTransaction 3).any
      (fun row => (TransactionMapper.toDomain row.load).toBool) = true := by decide +kernel

theorem transferred_returns : ((transferred.result 2).bind (·.1.toOption)).any
    (fun response => response matches .transaction _) = true := by decide +kernel

theorem transferred_key : (transferred.shared.db.findByKey "key").isSome := by decide +kernel

/-- The receiver has another currency: a transfer has failed. -/
def failed : System :=
  replay Server.host.step (Pool.empty (Server.quiet .empty))
    (openings "USD" ++ served 2 (.transfer (draws 3) command) 12) (by decide +kernel)

theorem failed_reachable : SystemReachable failed := reachable_replay _

end Sample

end BankingTransactions
