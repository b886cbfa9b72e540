import BankingTransactions.HttpApi
import BankingTransactions.RaisedExceptions
import BankingTransactions.Retries

/-!
# Who may see and move what over HTTP

How a lookup of one row ends is a function of the row and of what the environment does to
its operations. The ownership check of the transfer endpoint lets a caller pass whenever
that lookup ends in an `Exception`; the endpoint itself never gets that far, because it
calls the check with an argument too many. A single account is only shown to its owner, a
single transaction to everybody.
-/
namespace BankingTransactions
open DecimalArithmetic InteractionPrograms

/-! ## Lookups -/

/-- The exception of an operation that the environment lets fail. -/
def Choice.raises : Choice → Option Exn
  | fault e => some e
  | faultAfter e => some e
  | _ => none

/-- How a unit of work ends whose body has ended after `n` operations. -/
def leaving {α : Type} (choices : ℕ → Choice) (n : ℕ) : Except Exn α → Except Exn α
  | .ok a =>
    match (choices n).raises with
    | none => .ok a
    | some e => .error e
  | .error e =>
    match (choices n).raises, (choices (n + 1)).raises with
    | some e', _ => .error e'
    | none, some e' => .error e'
    | none, none => .error e

/-- How a service ends that reads one row, which is then `found`. -/
def lookup {α : Type} (choices : ℕ → Choice) (missing : Exn) (found : Option (Except Exn α)) :
    Except Exn α :=
  leaving choices 1 <|
    match (choices 0).raises, found with
    | some e, _ => .error e
    | none, none => .error missing
    | none, some result => result

/-- What `AccountService.get` makes of the database. -/
def Database.readAccount (db : Database) (choices : ℕ → Choice) (id : UUID) :
    Except Exn AccountDTO :=
  lookup choices (.resourceNotFound "Account" id) <| (db.findAccount id).map fun row =>
    (AccountMapper.toDomain row.load).map AccountDTO.fromAggregate

/-- What `TransferService.get` makes of the database. -/
def Database.readTransaction (db : Database) (choices : ℕ → Choice) (id : UUID) :
    Except Exn TransactionDTO :=
  lookup choices (.resourceNotFound "Transaction" id) <| (db.findTransaction id).map fun row =>
    (TransactionMapper.toDomain row.load).map TransactionDTO.fromAggregate

section Lookups

variable {choices : ℕ → Choice} {r : Request} {s : Server} {n : ℕ}

/-- The server has not aborted the transaction of the request. -/
def Server.Live (s : Server) : Prop := 0 ∉ s.aborted

theorem answerBy_selectAccount (hs : s.Live) (id : UUID) :
    Server.answerBy choices r (.selectAccount id) (s, n) =
      (match (choices n).raises with
        | some e => .error e
        | none => .ok ((s.db.findAccount id).map (·.load)), (s, n + 1)) := by
  have hlive : 0 ∉ s.aborted := hs
  cases hc : choices n <;>
    simp [Server.answerBy, Server.answer, Server.answerAlone, Server.serve, hc, hlive,
      Choice.raises]

theorem answerBy_selectTransaction (hs : s.Live) (id : UUID) :
    Server.answerBy choices r (.selectTransaction id) (s, n) =
      (match (choices n).raises with
        | some e => .error e
        | none => .ok ((s.db.findTransaction id).map (·.load)), (s, n + 1)) := by
  have hlive : 0 ∉ s.aborted := hs
  cases hc : choices n <;>
    simp [Server.answerBy, Server.answer, Server.answerAlone, Server.serve, hc, hlive,
      Choice.raises]

theorem Server.live_release (s : Server) : (s.release 0).Live := by
  simp [Server.Live, Server.release]

theorem answerBy_rollback (hs : s.Live) :
    ∃ s', Server.answerBy choices r .rollback (s, n) =
        (match (choices n).raises with
          | some e => .error e
          | none => .ok (), (s', n + 1)) ∧ s'.db = s.db ∧ s'.Live := by
  cases hc : choices n with
  | fault e => exact ⟨s, by simp [Server.answerBy, Server.answer, hc, Choice.raises], rfl, hs⟩
  | _ =>
    refine ⟨s.release 0, ?_, rfl, s.live_release⟩
    simp [Server.answerBy, Server.answer, Server.answerAlone, Server.serve, hc, Choice.raises]

theorem answerBy_close (hs : s.Live) :
    ∃ s', Server.answerBy choices r .close (s, n) =
        (match (choices n).raises with
          | some e => .error e
          | none => .ok (), (s', n + 1)) ∧ s'.db = s.db ∧ s'.Live := by
  cases hc : choices n with
  | fault e => exact ⟨s, by simp [Server.answerBy, Server.answer, hc, Choice.raises], rfl, hs⟩
  | _ =>
    refine ⟨s.release 0, ?_, rfl, s.live_release⟩
    simp [Server.answerBy, Server.answer, Server.answerAlone, Server.serve, hc, Choice.raises]

/-- A server on which a lookup has changed nothing that can be read. -/
def Server.Unread (s s' : Server) : Prop := s'.db = s.db ∧ s'.Live

/-- The contract of a server that does what the environment has chosen. -/
abbrev chosenContract (choices : ℕ → Choice) (r : Request) : Contract IoOp IoOp.Res (Server × ℕ) :=
  .ofService (Server.answerBy choices r)

theorem chosen_demand {o : IoOp} {res : o.Res} {v v' : Server × ℕ}
    (h : Server.answerBy choices r o v = (res, v')) (Q : o.Res → Server × ℕ → Prop) :
    (chosenContract choices r).demand v o Q = Q res v' := by
  simp only [chosenContract, Contract.ofService, h]

/-- Leaving a unit of work. -/
theorem wp_leaving {α : Type} {body : SqlTask α} {result : Except Exn α}
    {Q : Except Exn α → Process SqlState → Server × ℕ → Prop} {p : Process SqlState}
    (hs : s.Live)
    (hbody : Task.wp (chosenContract choices r) body (fun res _ v => res = result ∧ v = (s, 1))
      { p with adapters := { p.adapters with
        session := .empty, seenAccounts := [], seenTransactions := [] } } (s, 0))
    (hQ : ∀ p s' n, s.Unread s' → Q (leaving choices 1 result) p (s', n)) :
    Task.wp (chosenContract choices r) (withUow sqlUow body) Q p (s, 0) := by
  rw [wp_withUow]
  refine Task.wp_mono (fun res p' v h => ?_) hbody
  obtain ⟨rfl, rfl⟩ := h
  cases res with
  | ok a =>
    obtain ⟨s', hclose, hdb, hlive⟩ := @answerBy_close choices r s 1 hs
    simp only
    rw [chosen_demand hclose]
    cases hraises : (choices 1).raises with
    | none => simpa [leaving, hraises] using hQ p' s' 2 ⟨hdb, hlive⟩
    | some e => simpa [leaving, hraises] using hQ p' s' 2 ⟨hdb, hlive⟩
  | error e =>
    obtain ⟨s', hrollback, hdb, hlive⟩ :=
      @answerBy_rollback choices r s 1 hs
    simp only
    rw [chosen_demand hrollback]
    cases hraises : (choices 1).raises with
    | some e' => simpa [leaving, hraises] using hQ p' s' 2 ⟨hdb, hlive⟩
    | none =>
      obtain ⟨s'', hclose, hdb', hlive'⟩ :=
        @answerBy_close choices r s' 2 hlive
      simp only
      rw [chosen_demand hclose]
      cases hraises' : (choices 2).raises with
      | none => simpa [leaving, hraises, hraises'] using hQ _ s'' 3 ⟨hdb'.trans hdb, hlive'⟩
      | some e' => simpa [leaving, hraises, hraises'] using hQ _ s'' 3 ⟨hdb'.trans hdb, hlive'⟩

theorem wp_getAccount (hs : s.Live) (id : UUID)
    {Q : Except Exn AccountDTO → Process SqlState → Server × ℕ → Prop} {p : Process SqlState}
    (hQ : ∀ p s' n, s.Unread s' → Q (s.db.readAccount choices id) p (s', n)) :
    Task.wp (chosenContract choices r) (AccountService.get sqlUow id) Q p (s, 0) := by
  refine wp_leaving hs ?_ hQ
  rw [Task.wp_bind]
  simp only [sqlUow, PostgresAccountRepository.get, Task.wp_bind, wp_io]
  rw [chosen_demand (answerBy_selectAccount hs id)]
  cases hraises : (choices 0).raises with
  | some e => exact ⟨rfl, rfl⟩
  | none =>
    simp only
    cases hfind : s.db.findAccount id with
    | none =>
      simp only [Option.map_none, PostgresAccountRepository.register, Task.wp_pure, Task.wp_throw,
        and_self]
    | some row =>
      simp only [Option.map_some, PostgresAccountRepository.register, Task.wp_bind,
        Task.wp_ofExcept]
      cases ha : AccountMapper.toDomain row.load with
      | error e => simp [Except.map]
      | ok a =>
        simp only [wp_newAccount, wp_modifyAdapters, Task.wp_pure]
        rw [Task.wp_bind, wp_readAccount (a := a) _ _ (by simp)]
        simp [Task.wp_pure, Except.map]

theorem wp_getTransaction (hs : s.Live) (id : UUID)
    {Q : Except Exn TransactionDTO → Process SqlState → Server × ℕ → Prop} {p : Process SqlState}
    (hQ : ∀ p s' n, s.Unread s' → Q (s.db.readTransaction choices id) p (s', n)) :
    Task.wp (chosenContract choices r) (TransferService.get sqlUow id) Q p (s, 0) := by
  refine wp_leaving hs ?_ hQ
  rw [Task.wp_bind]
  simp only [sqlUow, PostgresTransactionRepository.get, Task.wp_bind, wp_io]
  rw [chosen_demand (answerBy_selectTransaction hs id)]
  cases hraises : (choices 0).raises with
  | some e => exact ⟨rfl, rfl⟩
  | none =>
    simp only
    cases hfind : s.db.findTransaction id with
    | none =>
      simp only [Option.map_none, Task.wp_pure, Task.wp_throw, and_self]
    | some row =>
      simp only [Option.map_some, Task.wp_bind, Task.wp_ofExcept]
      cases htx : TransactionMapper.toDomain row.load with
      | error e => simp [Except.map]
      | ok tx =>
        simp only [wp_newTransaction, wp_modifyAdapters, Task.wp_pure]
        rw [Task.wp_bind, wp_readTransaction (t := tx) _ _ (by simp)]
        simp [Task.wp_pure, Except.map]

theorem leaving_eq_ok {α : Type} {result : Except Exn α} {a : α} :
    leaving choices n result = .ok a ↔ (choices n).raises = none ∧ result = .ok a := by
  cases result with
  | ok b => cases h : (choices n).raises <;> simp [leaving, h]
  | error e =>
    cases h : (choices n).raises <;> cases h' : (choices (n + 1)).raises <;> simp [leaving, h, h']

/-- A lookup succeeds exactly when no operation of it fails and the row is a good one. -/
theorem lookup_eq_ok {α : Type} {missing : Exn} {found : Option (Except Exn α)} {a : α} :
    lookup choices missing found = .ok a ↔
      (choices 0).raises = none ∧ (choices 1).raises = none ∧ found = some (.ok a) := by
  unfold lookup
  rw [leaving_eq_ok]
  cases (choices 0).raises <;> cases found <;> simp

theorem readAccount_ok {db : Database} {id : UUID} {dto : AccountDTO}
    (h : db.readAccount choices id = .ok dto) :
    ∃ row, db.findAccount id = some row ∧ dto.ownerId = row.ownerId := by
  obtain ⟨row, hrow, hdto⟩ := Option.map_eq_some_iff.mp (lookup_eq_ok.mp h).2.2
  cases ha : AccountMapper.toDomain row.load with
  | error e =>
    rw [ha] at hdto
    cases hdto
  | ok a =>
    rw [ha] at hdto
    obtain rfl := Except.ok.inj hdto
    exact ⟨row, hrow, AccountMapper.toDomain_ownerId ha⟩

theorem readTransaction_eq_ok {db : Database} {id : UUID} {dto : TransactionDTO} :
    db.readTransaction choices id = .ok dto ↔
      (choices 0).raises = none ∧ (choices 1).raises = none ∧
      ∃ row tx, db.findTransaction id = some row ∧ TransactionMapper.toDomain row.load = .ok tx ∧
        TransactionDTO.fromAggregate tx = dto := by
  rw [Database.readTransaction, lookup_eq_ok, Option.map_eq_some_iff]
  refine and_congr_right fun _ => and_congr_right fun _ => exists_congr fun row => ?_
  cases TransactionMapper.toDomain row.load <;> simp [Except.map]

end Lookups

/-! ## The ownership check -/

theorem AuthenticatedUser.canAccessAccount_iff (user : AuthenticatedUser) (accountOwnerId : UUID) :
    user.canAccessAccount accountOwnerId = true ↔
      user.hasRole "admin" = true ∨ user.userId = accountOwnerId := by
  simp [canAccessAccount]

/-- How the check ends, by how the lookup ends. -/
def ownershipCheck (currentUser : AuthenticatedUser) : Except Exn AccountDTO → Except HttpExn Unit
  | .ok dto =>
    if currentUser.canAccessAccount dto.ownerId then .ok ()
    else .error (.http 403 "You do not own this account.")
  | .error e => if e.isException then .ok () else .error (.raised e)

theorem getAccountOr403_runWith {s : Server} (hs : s.Live) (choices : ℕ → Choice) (r : Request)
    (accountId : UUID) (currentUser : AuthenticatedUser) :
    ((getAccountOr403 accountId currentUser).runWith (Server.answerBy choices r) .init
      (s, 0)).1.1 = ownershipCheck currentUser (s.db.readAccount choices accountId) := by
  have h : Task.wp (chosenContract choices r) (getAccountOr403 accountId currentUser)
      (fun res _ _ => res = ownershipCheck currentUser (s.db.readAccount choices accountId))
      .init (s, 0) := by
    rw [getAccountOr403, Task.wp_bind, Task.wp_tryCatch, Task.wp_bind, service, Task.wp_mapError]
    refine wp_getAccount hs accountId fun p s' n _ => ?_
    cases s.db.readAccount choices accountId with
    | ok dto =>
      simp only [Except.mapError, Task.wp_pure, ownershipCheck]
      by_cases haccess : currentUser.canAccessAccount dto.ownerId = true
      · simp [haccess, Task.wp_pure]
      · simp [haccess, Task.wp_throw]
    | error e =>
      simp only [Except.mapError, HttpExn.isException, ownershipCheck]
      by_cases he : e.isException = true
      · simp [he, Task.wp_pure]
      · simp [he, Task.wp_throw]
  exact Task.runWith_of_wp _ h

/-- The account does not exist, or the user may access it. -/
def Database.Admits (db : Database) (accountId : UUID) (currentUser : AuthenticatedUser) : Prop :=
  db.findAccount accountId = none ∨ ∃ row, db.findAccount accountId = some row ∧
    (currentUser.hasRole "admin" = true ∨ currentUser.userId = row.ownerId)

/-- In every database, whatever the environment does to the lookup, the check lets only those
pass whom it should exactly when the lookup does not end in an `Exception` for anyone else. -/
theorem guard_fails_closed_iff (db : Database) (choices : ℕ → Choice) (r : Request)
    (accountId : UUID) (currentUser : AuthenticatedUser) :
    (((getAccountOr403 accountId currentUser).runWith (Server.answerBy choices r) .init
        (.quiet db, 0)).1.1 = .ok () → db.Admits accountId currentUser) ↔
      db.Admits accountId currentUser ∨
        ∀ e, db.readAccount choices accountId = .error e → e.isException = false := by
  have hlive : (Server.quiet db).Live := by simp [Server.Live, Server.quiet]
  rw [getAccountOr403_runWith hlive]
  change (ownershipCheck currentUser (db.readAccount choices accountId) = .ok () → _) ↔ _
  cases hread : db.readAccount choices accountId with
  | error e =>
    by_cases he : e.isException = true
    · simp [ownershipCheck, he]
    · simp [ownershipCheck, he]
  | ok dto =>
    obtain ⟨row, hrow, howner⟩ := readAccount_ok hread
    simp only [ownershipCheck, reduceCtorEq, false_implies, implies_true, or_true, iff_true]
    intro hpass
    split_ifs at hpass with haccess
    rw [AuthenticatedUser.canAccessAccount_iff, howner] at haccess
    exact .inr ⟨row, hrow, haccess⟩

namespace Sample

/-- A user who owns none of the accounts. -/
def stranger : AuthenticatedUser := ⟨7, ["user"]⟩

end Sample

/-- The database cannot be reached for a moment, and the stranger passes the check. -/
theorem stranger_passes :
    SystemReachable Sample.opened ∧
      ((getAccountOr403 1 Sample.stranger).runWith
        (Server.answerBy (fun _ => .fault .dbapiError) (Sample.opening 4 4 "EUR")) .init
        (.quiet Sample.opened.shared.db, 0)).1.1 = .ok () ∧
      ¬ Sample.opened.shared.db.Admits 1 Sample.stranger := by
  refine ⟨Sample.opened_reachable, ?_, ?_⟩
  · rw [getAccountOr403_runWith (by simp [Server.Live, Server.quiet])]
    rfl
  · have howner : (Sample.opened.shared.db.findAccount 1).any (fun row => row.ownerId = 9) =
        true := by decide +kernel
    rw [Option.any_eq_true] at howner
    obtain ⟨row, hrow, howner⟩ := howner
    rintro (hnone | ⟨row', hrow', hrole | hsame⟩)
    · rw [hrow] at hnone
      cases hnone
    · exact absurd hrole (by decide)
    · obtain rfl := Option.some.inj (hrow.symm.trans hrow')
      rw [← hsame] at howner
      exact absurd howner (by decide)

/-! ## The transfer endpoint -/

/-- The result of an endpoint that is called alone on an idle server, and what it leaves. -/
def HttpTask.alone {α : Type} (x : HttpTask α) (r : Request) (db : Database) :
    Except HttpExn α × Server :=
  let run := x.runWith (Server.answerAlone r) .init (.quiet db)
  (run.1.1, run.2)

/-- The endpoint is the service for those who may debit the account, and refuses the others. -/
def ServesBehindCheck (db : Database) (draws : TransferDraws) (body : TransferRequest)
    (currentUser : AuthenticatedUser) : Prop :=
  ∀ row, db.findAccount body.fromAccountId = some row →
    (currentUser.hasRole "admin" = true ∨ currentUser.userId = row.ownerId →
      (initiateTransfer draws body currentUser).alone (.transfer draws body.command) db =
        (serveTransfer draws body.command).alone (.transfer draws body.command) db) ∧
    (¬ (currentUser.hasRole "admin" = true ∨ currentUser.userId = row.ownerId) →
      ∃ detail, (initiateTransfer draws body currentUser).alone (.transfer draws body.command) db =
        (.error (.http 403 detail), .quiet db))

/-- The endpoint ends where it calls the check. -/
theorem initiateTransfer_alone (draws : TransferDraws) (body : TransferRequest)
    (currentUser : AuthenticatedUser) (r : Request) (db : Database) :
    (initiateTransfer draws body currentUser).alone r db =
      (.error (.raised (.arguments "_get_account_or_403" 2 3)), .quiet db) := rfl

theorem serveTransfer_alone {db : Database} {draws : TransferDraws}
    (hnew : db.findTransaction draws.tx.id = none) (command : TransferCommand) (name : String)
    (parameters arguments : ℕ) :
    ((serveTransfer draws command).alone (.transfer draws command) db).1 ≠
      .error (.raised (.arguments name parameters arguments)) := by
  obtain ⟨-, -, houtcome⟩ := Server.transfer_left (Server.idle_quiet db) hnew command
  change (Task.runWith (Server.answerAlone (.transfer draws command))
    (Request.task (.transfer draws command)) .init (.quiet db)).1.1 = _ at houtcome
  rw [Request.task, Task.runWith_bind] at houtcome
  unfold HttpTask.alone serveTransfer
  rw [Task.runWith_bind, service, Task.runWith_mapError]
  revert houtcome
  generalize Task.runWith (Server.answerAlone (.transfer draws command))
    (TransferService.initiate sqlUow redisLock sqlBus draws command) .init (.quiet db) = x
  obtain ⟨⟨result, p⟩, s⟩ := x
  intro houtcome
  cases result with
  | error e =>
    intro heq
    obtain rfl : e = .arguments name parameters arguments := by simpa [Except.mapError] using heq
    exact TransferCommand.serial_ne_typeError houtcome.symm _ rfl
  | ok dto =>
    have hplain : Plain (TransactionResponse.fromDto dto) :=
      plain_bind (Currency.plain_ofValue _) fun _ => plain_ok _
    simp only [Except.mapError, respondWith, Task.runWith_ofExcept]
    cases hresponse : TransactionResponse.fromDto dto with
    | ok response => simp
    | error e =>
      intro heq
      obtain rfl : e = .arguments name parameters arguments := by simpa using heq
      exact absurd (hplain _ hresponse) (by simp [Exn.arguments])

/-- The endpoint serves transfers behind an ownership check exactly where there is nothing to
check: it serves none at all. -/
theorem transfer_endpoint_iff {db : Database} {draws : TransferDraws}
    (hnew : db.findTransaction draws.tx.id = none) (body : TransferRequest)
    (currentUser : AuthenticatedUser) :
    ServesBehindCheck db draws body currentUser ↔ db.findAccount body.fromAccountId = none := by
  constructor
  · intro h
    cases hrow : db.findAccount body.fromAccountId with
    | none => rfl
    | some row =>
      obtain ⟨hserves, hrefuses⟩ := h row hrow
      by_cases haccess : currentUser.hasRole "admin" = true ∨ currentUser.userId = row.ownerId
      · have hsame := congrArg Prod.fst (hserves haccess)
        rw [initiateTransfer_alone] at hsame
        exact absurd hsame.symm (serveTransfer_alone hnew _ _ _ _)
      · obtain ⟨detail, hrefused⟩ := hrefuses haccess
        rw [initiateTransfer_alone] at hrefused
        cases hrefused
  · intro hnone row hrow
    rw [hnone] at hrow
    cases hrow

namespace Sample

/-- 30 EUR from account 1 to account 2. -/
def transferBody : TransferRequest :=
  { fromAccountId := 1, toAccountId := 2, amount := .finite false 30 0, currency := .EUR
    idempotencyKey := "key", finite := trivial, gt := by decide, minLength := by decide
    maxLength := by decide }

/-- The owner of both accounts. -/
def owner : AuthenticatedUser := ⟨9, ["user"]⟩

end Sample

theorem transfer_endpoint_sample :
    ServesBehindCheck Sample.opened.shared.db (Sample.draws 3) Sample.transferBody Sample.owner ↔
      Sample.opened.shared.db.findAccount Sample.transferBody.fromAccountId = none :=
  transfer_endpoint_iff Sample.opened_new Sample.transferBody Sample.owner

/-- The owner of the account gets a `TypeError`, where the service would complete the transfer. -/
theorem owner_cannot_transfer :
    SystemReachable Sample.opened ∧
      ¬ ServesBehindCheck Sample.opened.shared.db (Sample.draws 3) Sample.transferBody
        Sample.owner := by
  refine ⟨Sample.opened_reachable, fun h => ?_⟩
  have howner := Sample.opened_owner
  rw [Option.any_eq_true] at howner
  obtain ⟨row, hrow, howner⟩ := howner
  have hsame := congrArg Prod.fst ((h row hrow).1 (.inr (of_decide_eq_true howner).symm))
  rw [initiateTransfer_alone] at hsame
  exact serveTransfer_alone Sample.opened_new _ _ _ _ hsame.symm

/-! ## Responses and their callers -/

namespace Server

variable {s s' : Server} {r : Request} {o : IoOp} {res : o.Res}

/-- Serving a request aborts no transaction. -/
theorem Live.serve (hs : s.Live) (h : serve 0 r o s = some (res, s')) : s'.Live := by
  cases o with
  | selectAccountForUpdate id =>
    cases hfind : s.db.findAccount id <;>
      simp only [Server.serve, hfind] at h <;> split_ifs at h <;> cases h <;> exact hs
  | commit w =>
    simp only [Server.serve] at h
    split_ifs at h
    · cases h
      exact hs
    · split at h
      · cases h
        exact hs
      · cases h
        exact s.live_release
  | rollback =>
    cases h
    exact s.live_release
  | close =>
    cases h
    exact s.live_release
  | deleteKey lockKey =>
    cases h
    exact hs
  | publishMany events =>
    cases h
    exact hs
  | _ =>
    simp only [Server.serve] at h
    split_ifs at h <;> cases h <;> exact hs

theorem Live.answer {c : Choice} (hs : s.Live) (h : answer 0 r c o s = some (res, s')) :
    s'.Live := by
  cases c with
  | proceed => exact hs.serve h
  | timeout =>
    cases o with
    | acquireKey lockKey =>
      simp only [Server.answer] at h
      split_ifs at h
      cases h
      exact hs
    | _ => cases h
  | fault e =>
    cases h
    exact hs
  | faultAfter e =>
    simp only [Server.answer, Option.map_eq_some_iff] at h
    obtain ⟨⟨res', s''⟩, hserve, hres⟩ := h
    cases hres
    exact hs.serve hserve

theorem Live.answerBy {choices : ℕ → Choice} {v : Server × ℕ} (hs : v.1.Live) :
    (answerBy choices r o v).2.1.Live := by
  unfold Server.answerBy
  split
  · exact hs.answer ‹_›
  · unfold Server.answerAlone
    split
    · exact hs.answer ‹_›
    · split
      · exact hs.answer ‹_›
      · exact hs

end Server

theorem Arrival.serve_live (settings : Settings) (arrival : Arrival) {s : Server} (hs : s.Live) :
    (arrival.serve settings s).after.Live := by
  have hkeeps : ∀ (o : IoOp) (v : Server × ℕ), v.1.Live →
      (Server.answerBy arrival.choices arrival.label o v).2.1.Live := fun _ _ h => h.answerBy
  exact Program.run_invariant (I := fun v : Server × ℕ => v.1.Live) hkeeps _ hs

/-- A result that is not touched on the way out of a unit of work. -/
theorem wp_uow_keeps {α : Type} {body : SqlTask α} {I : Process SqlState → Prop}
    (hflushed : ∀ p : Process SqlState, I p → I p.flushed) {p : Process SqlState}
    (hbody : Task.wp (.only fun _ => True) body (fun _ p _ => I p)
      { p with adapters := { p.adapters with
        session := .empty, seenAccounts := [], seenTransactions := [] } } ()) :
    Task.wp (.only fun _ => True) (withUow sqlUow body) (fun _ p _ => I p) p () := by
  rw [wp_withUow]
  refine Task.wp_mono (fun res p _ hI => ?_) hbody
  cases res with
  | ok a =>
    refine ⟨trivial, fun r => ?_⟩
    obtain e | _ := (r : Except Exn Unit) <;> exact hI
  | error e =>
    refine ⟨trivial, fun r => ?_⟩
    obtain e | _ := (r : Except Exn Unit)
    · exact hI
    · refine ⟨trivial, fun r => ?_⟩
      obtain e | _ := (r : Except Exn Unit) <;> exact hflushed p hI

/-- Whatever the environment does, an account that is opened is the caller's. -/
theorem wp_create_owner (draws : AccountDraws) (command : CreateAccountCommand) :
    Task.wp (.only fun _ => True) (AccountService.create sqlUow draws command)
      (fun res _ _ => ∀ dto, res = .ok dto → dto.ownerId = command.ownerId) .init () := by
  rw [AccountService.create, Task.wp_bind, Task.wp_ofExcept]
  cases Currency.ofValue command.currency with
  | error e => simp
  | ok currency =>
    simp only
    rw [Task.wp_bind, Task.wp_ofExcept]
    cases Money.new command.initialBalance currency with
    | error e => simp
    | ok initialBalance =>
      simp only
      rw [Task.wp_bind, Task.wp_ofExcept]
      cases ha : Account.create draws command.ownerId currency (some initialBalance) with
      | error e => simp
      | ok a =>
        have howner : a.ownerId = command.ownerId := by rw [(Account.create_ok ha).2]
        simp only
        rw [Task.wp_bind, wp_newAccount]
        simp only
        rw [Task.wp_bind]
        have hunit : Task.wp (.only fun _ => True)
            (withUow sqlUow do
              sqlUow.accounts.save 0
              sqlUow.commit) (fun _ p _ => p.heap.accounts[0]? = some a)
            ⟨⟨[a], []⟩, .init⟩ () := by
          refine wp_uow_keeps (fun p h => h) ?_
          have hcommit : ∀ p : Process SqlState, p.heap.accounts[0]? = some a →
              p.adapters.seenAccounts = [] → p.adapters.seenTransactions = [] →
              Task.wp (.only fun _ => True) sqlUow.commit
                (fun _ p _ => p.heap.accounts[0]? = some a) p () := by
            intro p hp hseen hseen'
            rw [wp_commit _ _ (wp_collectAndStoreEvents_unseen _ _ hseen hseen')]
            refine ⟨trivial, fun r => ?_⟩
            obtain e | _ := (r : Except Exn Unit)
            · simp only
              split
              · refine ⟨trivial, fun r => ?_⟩
                obtain e | _ := (r : Except Exn Unit) <;> exact hp
              · exact hp
            · exact hp
          rw [Task.wp_bind, wp_saveAccount (a := a) _ _ rfl]
          refine ⟨trivial, fun r => ?_⟩
          obtain e | _ | orm := (r : Except Exn (Option AccountORM))
          · rfl
          · exact hcommit _ rfl rfl rfl
          · exact hcommit _ rfl rfl rfl
        refine Task.wp_mono (fun res p _ hread => ?_) hunit
        cases res with
        | error e => simp
        | ok u =>
          simp only
          show Task.wp _ (callAccount 0 get >>= _) _ _ _
          rw [Task.wp_bind, wp_readAccount _ _ hread]
          simp only
          rw [Task.wp_pure]
          rintro dto ⟨⟩
          exact howner

/-- The user owns the stored account. -/
def Database.Owns (db : Database) (userId : UUID) (accountId : AccountId) : Prop :=
  ∃ row, db.findAccount accountId = some row ∧ row.ownerId = userId

/-- The caller may see the data that the body of a response carries. -/
def HttpBody.Entitled (caller : Except HttpExn AuthenticatedUser) (db : Database) :
    HttpBody → Prop
  | .account response => ∃ user, caller = .ok user ∧
      (user.hasRole "admin" = true ∨ user.userId = response.ownerId)
  | .transaction response => ∃ user, caller = .ok user ∧ (user.hasRole "admin" = true ∨
      db.Owns user.userId response.fromAccountId ∨ db.Owns user.userId response.toAccountId)
  | .error _ _ => True
  | .detail _ => True

namespace Exchange

def caller (settings : Settings) (x : Exchange) : Except HttpExn AuthenticatedUser :=
  settings.getCurrentUser x.arrival.call.headers

/-- What the response carries is the caller's to see. -/
def Confidential (settings : Settings) (x : Exchange) : Prop :=
  ∀ response, x.response = some response →
    response.body.Entitled (x.caller settings) x.after.db

/-- A stored transaction that can be read is asked for by an admin or by the owner of one of its
two accounts only. -/
def Permitted (settings : Settings) (x : Exchange) : Prop :=
  ∀ id row tx, x.arrival.call.endpoint = .getTransaction id →
    (x.arrival.choices 0).raises = none → (x.arrival.choices 1).raises = none →
    x.before.db.findTransaction id = some row → TransactionMapper.toDomain row.load = .ok tx →
    ∃ user, x.caller settings = .ok user ∧ (user.hasRole "admin" = true ∨
      x.before.db.Owns user.userId row.fromAccountId ∨
      x.before.db.Owns user.userId row.toAccountId)

end Exchange

/-- A result that carries nothing that the caller may not see. -/
def Discreet (caller : Except HttpExn AuthenticatedUser) (res : Except HttpExn HttpResponse)
    (db : Database) : Prop :=
  ∀ response, HttpResponse.ofResult res = some response → response.body.Entitled caller db

theorem discreet_error (caller : Except HttpExn AuthenticatedUser) (e : HttpExn) (db : Database) :
    Discreet caller (.error e) db := by
  intro response h
  cases e with
  | http status detail =>
    obtain rfl := Option.some.inj h
    trivial
  | raised e =>
    simp only [HttpResponse.ofResult, HttpExn.response] at h
    split_ifs at h
    obtain rfl := Option.some.inj h
    trivial

theorem discreet_account {user : AuthenticatedUser} {response : AccountResponse}
    (h : user.hasRole "admin" = true ∨ user.userId = response.ownerId) (status : ℕ)
    (db : Database) : Discreet (.ok user) (.ok ⟨status, .account response⟩) db := by
  intro response' heq
  obtain rfl := Option.some.inj heq
  exact ⟨user, rfl, h⟩

theorem AccountResponse.fromDto_ownerId {dto : AccountDTO} {response : AccountResponse}
    (h : fromDto dto = .ok response) : response.ownerId = dto.ownerId := by
  obtain ⟨currency, -, hresponse⟩ := bind_eq_ok.mp h
  obtain rfl := Except.ok.inj hresponse
  rfl

section Endpoints

variable {choices : ℕ → Choice} {r : Request}

theorem chosen_allows : (chosenContract choices r).Allows fun _ => True :=
  fun _ _ _ _ hQ => hQ _ _

/-- An endpoint that shows an account, when the service has returned one that the caller may
see. -/
theorem wp_showAccount {user : AuthenticatedUser} {dto : AccountDTO}
    (h : user.hasRole "admin" = true ∨ user.userId = dto.ownerId) (status : ℕ)
    (p : Process SqlState) (v : Server × ℕ) :
    Task.wp (chosenContract choices r) (do
      let response ← respondWith (AccountResponse.fromDto dto)
      return ⟨status, .account response⟩) (fun res _ v => Discreet (.ok user) res v.1.db) p v := by
  rw [Task.wp_bind, respondWith, Task.wp_ofExcept]
  cases hresponse : AccountResponse.fromDto dto with
  | error e => exact discreet_error _ _ _
  | ok response =>
    simp only [Except.mapError, Task.wp_pure]
    apply discreet_account
    rw [AccountResponse.fromDto_ownerId hresponse]
    exact h

theorem wp_createAccount_discreet (draws : AccountDraws) (body : CreateAccountRequest)
    (user : AuthenticatedUser) (s : Server) :
    Task.wp (chosenContract choices r) (do
      let response ← createAccount draws body user
      return ⟨201, .account response⟩) (fun res _ v => Discreet (.ok user) res v.1.db)
      .init (s, 0) := by
  rw [createAccount, Task.wp_bind, Task.wp_bind, service, Task.wp_mapError]
  refine Task.wp_mono (fun res p v howner => ?_)
    (Task.wp_of_allows chosen_allows (wp_create_owner _ _) (s, 0))
  cases res with
  | error e => exact discreet_error _ _ _
  | ok dto =>
    have hshow := @wp_showAccount choices r user dto
      (.inr (howner dto rfl).symm) 201 p v
    rw [Task.wp_bind] at hshow
    exact hshow

theorem wp_getAccount_discreet {s : Server} (hs : s.Live) (accountId : UUID)
    (user : AuthenticatedUser) :
    Task.wp (chosenContract choices r) (do
      let response ← getAccount accountId user
      return ⟨200, .account response⟩) (fun res _ v => Discreet (.ok user) res v.1.db)
      .init (s, 0) := by
  rw [getAccount, Task.wp_bind, Task.wp_bind, service, Task.wp_mapError]
  refine wp_getAccount hs accountId fun p s' n _ => ?_
  cases s.db.readAccount choices accountId with
  | error e => exact discreet_error _ _ _
  | ok dto =>
    simp only [Except.mapError]
    by_cases haccess : user.canAccessAccount dto.ownerId = true
    · have hshow := @wp_showAccount choices r user dto
        ((user.canAccessAccount_iff _).mp haccess) 200 p (s', n)
      rw [Task.wp_bind] at hshow
      simpa [haccess] using hshow
    · simpa [haccess, Task.wp_bind, Task.wp_throw] using discreet_error _ _ _

theorem initiateTransfer_eq (draws : TransferDraws) (body : TransferRequest)
    (user : AuthenticatedUser) :
    initiateTransfer draws body user =
      throw (.raised (.arguments "_get_account_or_403" 2 3)) := rfl

theorem TransactionResponse.fromDto_fromAggregate (tx : Transaction) :
    ∃ response, fromDto (.fromAggregate tx) = .ok response ∧
      response.fromAccountId = tx.fromAccountId ∧ response.toAccountId = tx.toAccountId := by
  have hcurrency : Currency.ofValue tx.amount.currency.value = .ok tx.amount.currency := by
    cases tx.amount.currency <;> decide
  simp [fromDto, TransactionDTO.fromAggregate, hcurrency]

/-- What the endpoint for a transaction answers, and the database, which it does not change. -/
theorem wp_getTransaction_answer {s : Server} (hs : s.Live) (id : UUID) :
    Task.wp (chosenContract choices r) (do
      let response ← getTransaction id
      return (⟨200, .transaction response⟩ : HttpResponse))
      (fun res _ v => v.1.db = s.db ∧
        res = (((s.db.readTransaction choices id).bind TransactionResponse.fromDto).mapError
          HttpExn.raised).map fun response => ⟨200, .transaction response⟩) .init (s, 0) := by
  rw [getTransaction, Task.wp_bind, Task.wp_bind, service, Task.wp_mapError]
  refine wp_getTransaction hs id fun p s' n hs' => ?_
  cases s.db.readTransaction choices id with
  | error e => exact ⟨hs'.1, rfl⟩
  | ok dto =>
    simp only [Except.mapError, respondWith, Task.wp_ofExcept]
    cases hresponse : TransactionResponse.fromDto dto with
    | error e => exact ⟨hs'.1, by simp [Except.bind, Except.map, hresponse]⟩
    | ok response =>
      simp only [Task.wp_pure]
      exact ⟨hs'.1, by simp [Except.bind, Except.map, hresponse]⟩

/-- An endpoint behind the authentication. -/
theorem wp_authenticated {settings : Settings} {headers : Headers} {s : Server}
    {x : AuthenticatedUser → HttpTask HttpResponse}
    (h : ∀ user, Task.wp (chosenContract choices r) (x user)
      (fun res _ v => Discreet (.ok user) res v.1.db) .init (s, 0)) :
    Task.wp (chosenContract choices r) (Task.ofExcept (settings.getCurrentUser headers) >>= x)
      (fun res _ v => Discreet (settings.getCurrentUser headers) res v.1.db) .init (s, 0) := by
  rw [Task.wp_bind, Task.wp_ofExcept]
  cases settings.getCurrentUser headers with
  | error e => exact discreet_error _ _ _
  | ok user => exact h user

end Endpoints

namespace Arrival

variable {settings : Settings} {arrival : Arrival} {s : Server}

/-- Every endpoint but the one for a single transaction asks who calls. -/
theorem serve_confidential (hs : s.Live)
    (h : ∀ id, arrival.call.endpoint ≠ .getTransaction id) :
    (arrival.serve settings s).Confidential settings := by
  have hwp : Task.wp (chosenContract arrival.choices arrival.label) (arrival.call.task settings)
      (fun res _ v => Discreet (settings.getCurrentUser arrival.call.headers) res v.1.db)
      .init (s, 0) := by
    unfold HttpCall.task
    cases hendpoint : arrival.call.endpoint with
    | createAccount draws body =>
      exact wp_authenticated fun user => wp_createAccount_discreet draws body user s
    | getAccount accountId =>
      exact wp_authenticated fun user => wp_getAccount_discreet hs accountId user
    | initiateTransfer draws body =>
      refine wp_authenticated fun user => ?_
      rw [initiateTransfer_eq, Task.wp_bind, Task.wp_throw]
      exact discreet_error _ _ _
    | getTransaction id => exact absurd hendpoint (h id)
  exact Task.runWith_of_wp _ hwp

/-- A single transaction is shown to whoever asks for it. -/
theorem serve_getTransaction (hs : s.Live) {id : UUID}
    (h : arrival.call.endpoint = .getTransaction id) :
    (arrival.serve settings s).Confidential settings ↔
      ∀ tx, s.db.readTransaction arrival.choices id = .ok (.fromAggregate tx) →
        ∃ user, settings.getCurrentUser arrival.call.headers = .ok user ∧
          (user.hasRole "admin" = true ∨ s.db.Owns user.userId tx.fromAccountId ∨
            s.db.Owns user.userId tx.toAccountId) := by
  have hwp : Task.wp (chosenContract arrival.choices arrival.label) (arrival.call.task settings)
      (fun res _ v => v.1.db = s.db ∧
        res = (((s.db.readTransaction arrival.choices id).bind TransactionResponse.fromDto).mapError
          HttpExn.raised).map fun response => ⟨200, .transaction response⟩) .init (s, 0) := by
    rw [HttpCall.task, h]
    exact wp_getTransaction_answer hs id
  obtain ⟨hdb, hres⟩ := Task.runWith_of_wp _ hwp
  simp only [Exchange.Confidential, serve, hdb, hres]
  constructor
  · intro hall tx hread
    obtain ⟨response, hresponse, hfrom, hto⟩ := TransactionResponse.fromDto_fromAggregate tx
    rw [hread] at hall
    have hbody := hall ⟨200, .transaction response⟩ (by
      simp [Except.bind, hresponse, Except.mapError, Except.map, HttpResponse.ofResult])
    obtain ⟨user, hcaller, hmay⟩ := hbody
    rw [hfrom, hto] at hmay
    exact ⟨user, hcaller, hmay⟩
  · intro hall response
    cases hread : s.db.readTransaction arrival.choices id with
    | error e => exact discreet_error _ (.raised e) _ response
    | ok dto =>
      obtain ⟨-, -, row, tx, -, -, rfl⟩ := readTransaction_eq_ok.mp hread
      obtain ⟨shown, hshown, hfrom, hto⟩ := TransactionResponse.fromDto_fromAggregate tx
      intro heq
      obtain rfl : ⟨200, .transaction shown⟩ = response := by
        simpa [Except.bind, hshown, Except.mapError, Except.map, HttpResponse.ofResult] using heq
      obtain ⟨user, hcaller, hmay⟩ := hall tx hread
      refine ⟨user, hcaller, ?_⟩
      rw [hfrom, hto]
      exact hmay

/-- One call answers confidentially exactly when it asks for what the caller may see. -/
theorem confidential_iff_permitted (hs : s.Live) :
    (arrival.serve settings s).Confidential settings ↔
      (arrival.serve settings s).Permitted settings := by
  by_cases h : ∃ id, arrival.call.endpoint = .getTransaction id
  · obtain ⟨id, hid⟩ := h
    rw [serve_getTransaction hs hid]
    constructor
    · intro hall id' row tx hid' hselect hclose hrow htx
      cases hid.symm.trans hid'
      obtain ⟨hfrom, hto⟩ := TransactionMapper.toDomain_parties htx
      have hread : s.db.readTransaction arrival.choices id = .ok (.fromAggregate tx) :=
        readTransaction_eq_ok.mpr ⟨hselect, hclose, row, tx, hrow, htx, rfl⟩
      obtain ⟨user, hcaller, hmay⟩ := hall tx hread
      rw [hfrom, hto] at hmay
      exact ⟨user, hcaller, hmay⟩
    · intro hall tx hread
      obtain ⟨hselect, hclose, row, tx', hrow, htx, hsame⟩ := readTransaction_eq_ok.mp hread
      obtain ⟨hfrom, hto⟩ := TransactionMapper.toDomain_parties htx
      obtain ⟨user, hcaller, hmay⟩ := hall id row tx' hid hselect hclose hrow htx
      have hfrom' : tx'.fromAccountId = tx.fromAccountId :=
        congrArg TransactionDTO.fromAccountId hsame
      have hto' : tx'.toAccountId = tx.toAccountId := congrArg TransactionDTO.toAccountId hsame
      rw [← hfrom', ← hto', hfrom, hto]
      exact ⟨user, hcaller, hmay⟩
  · have hother : ∀ id, arrival.call.endpoint ≠ .getTransaction id := fun id hid => h ⟨id, hid⟩
    constructor
    · intro _ id row tx hid
      exact absurd hid (hother id)
    · intro _
      exact serve_confidential hs hother

end Arrival

theorem serveAll_confidential_iff (settings : Settings) (arrivals : List Arrival) {s : Server}
    (hs : s.Live) :
    (∀ x ∈ Arrival.serveAll settings s arrivals, x.Confidential settings) ↔
      ∀ x ∈ Arrival.serveAll settings s arrivals, x.Permitted settings := by
  induction arrivals generalizing s with
  | nil => simp [Arrival.serveAll]
  | cons arrival rest ih =>
    simp only [Arrival.serveAll, List.forall_mem_cons]
    rw [arrival.confidential_iff_permitted hs, ih (arrival.serve_live settings hs)]

/-- From every database, whatever the environment does, every response of a sequence of calls
is confidential exactly when every stored transaction is asked for by one who may see it. -/
theorem confidential_iff (settings : Settings) (db : Database) (arrivals : List Arrival) :
    (∀ x ∈ Arrival.serveAll settings (.quiet db) arrivals, x.Confidential settings) ↔
      ∀ x ∈ Arrival.serveAll settings (.quiet db) arrivals, x.Permitted settings :=
  serveAll_confidential_iff settings arrivals (by simp [Server.Live, Server.quiet])

namespace Sample

def production : Settings := ⟨false, fun _ => none⟩

/-- Nobody in particular asks for transaction 3. -/
def glance : Arrival :=
  ⟨⟨⟨none, none⟩, .getTransaction 3⟩, fun _ => .proceed, .transfer (draws 4) command⟩

end Sample

/-- A completed transfer is shown to a caller who is not authenticated. -/
theorem anyone_reads_transactions :
    SystemReachable Sample.transferred ∧
      ¬ ∀ x ∈ Arrival.serveAll Sample.production (.quiet Sample.transferred.shared.db)
        [Sample.glance], x.Confidential Sample.production := by
  refine ⟨Sample.transferred_reachable, fun h => ?_⟩
  have hrow := Sample.transferred_good
  generalize Sample.transferred.shared.db = db at h hrow
  have hlive : (Server.quiet db).Live := by simp [Server.Live, Server.quiet]
  have hshown := (Arrival.serve_getTransaction hlive
    (show Sample.glance.call.endpoint = .getTransaction 3 from rfl)).mp (h _ (.head _))
  rw [Option.any_eq_true] at hrow
  obtain ⟨row, hrow, hgood⟩ := hrow
  cases htx : TransactionMapper.toDomain row.load with
  | error e =>
    rw [htx] at hgood
    cases hgood
  | ok tx =>
    obtain ⟨user, hcaller, -⟩ :=
      hshown tx (readTransaction_eq_ok.mpr ⟨rfl, rfl, row, tx, hrow, htx, rfl⟩)
    cases hcaller

end BankingTransactions
