import BankingTransactions.AccessControl
import BankingTransactions.RequestContracts

/-!
# What a call of the HTTP API does, and what it may be answered

A call of an authenticated user that opens an account keeps to the contract of that request. All
others only look rows up, or are refused before they do. So each call can be judged by itself,
whatever the others do, and its response shows only what its caller may see.
-/
namespace BankingTransactions
open DecimalArithmetic InteractionPrograms ThreadPools

/-! ## Calls -/

namespace HttpCall

/-- The account opening that a call asks the service for. -/
def request (settings : Settings) (call : HttpCall) : Option Request :=
  match call.endpoint, settings.getCurrentUser call.headers with
  | .createAccount draws body, .ok currentUser => some (.create draws
      { ownerId := currentUser.userId, currency := body.currency.value
        initialBalance := body.initialBalance })
  | _, _ => none

def program (settings : Settings) (call : HttpCall) : Program IoOp IoOp.Res (Option HttpResponse) :=
  (call.task settings).run.run .init >>= fun x => .ret (HttpResponse.ofResult x.1)

end HttpCall

/-! ## What calls are answered -/

/-- The response shows the account of the row. -/
def AccountRecord.Shown (row : AccountRow) (response : AccountResponse) : Prop :=
  ∃ a, AccountMapper.toDomain row.load = .ok a ∧
    AccountResponse.fromDto (.fromAggregate a) = .ok response

/-- The response shows the transaction of the row. -/
def TransactionRecord.Shown (row : TransactionRow) (response : TransactionResponse) : Prop :=
  ∃ tx, TransactionMapper.toDomain row.load = .ok tx ∧
    TransactionResponse.fromDto (.fromAggregate tx) = .ok response

/-- What a call may be answered: the caller's own account, which is stored when the call asks for
it, the stored transaction that it asks for, or an error. Outside development whoever needs to be
known is refused. -/
structure HttpCall.Answered (settings : Settings) (accounts : AccountId → Option AccountRow)
    (transactions : TransactionId → Option TransactionRow) (call : HttpCall)
    (response : HttpResponse) : Prop where
  account : ∀ shown, response.body = .account shown →
    ∃ user, settings.getCurrentUser call.headers = .ok user ∧ shown.ownerId = user.userId ∧
      ∀ id, call.endpoint = .getAccount id → ∃ row, accounts id = some row ∧ row.Shown shown
  transaction : ∀ shown, response.body = .transaction shown →
    ∃ id row, call.endpoint = .getTransaction id ∧ transactions id = some row ∧ row.Shown shown
  error : (∀ shown, response.body ≠ .account shown) →
    (∀ shown, response.body ≠ .transaction shown) → 400 ≤ response.status
  refused : settings.isDevelopment = false → (∀ id, call.endpoint ≠ .getTransaction id) →
    response.status = 401

/-! ## Contracts -/

/-- The contract of a call that only looks rows up. What transactions it finds is known; what
accounts it has found is kept in its view. -/
def lookupContract (transactions : TransactionId → Option TransactionRow) :
    Contract IoOp IoOp.Res RowView where
  demand v
    | .selectAccount id, Q => (∀ e, Q (.error e) v) ∧ Q (.ok none) v ∧
        ∀ row : AccountRow, row.id = id → Q (.ok (some row.load)) (v.see row)
    | .selectTransaction id, Q => (∀ e, Q (.error e) v) ∧
        Q (.ok ((transactions id).map (·.load))) v
    | .rollback, Q => ∀ res, Q res v
    | .close, Q => ∀ res, Q res v
    | _, _ => False
  mono {v o Q Q'} h hQ := by
    cases o with
    | selectAccount id =>
      exact ⟨fun e => h _ _ (hQ.1 e), h _ _ hQ.2.1, fun row hid => h _ _ (hQ.2.2 row hid)⟩
    | selectTransaction id => exact ⟨fun e => h _ _ (hQ.1 e), h _ _ hQ.2⟩
    | rollback => exact fun res => h _ _ (hQ res)
    | close => exact fun res => h _ _ (hQ res)
    | _ => exact hQ

def httpContract (settings : Settings) (transactions : TransactionId → Option TransactionRow)
    (call : HttpCall) : Contract IoOp IoOp.Res RowView :=
  match call.request settings with
  | some r => rowContract r
  | none => lookupContract transactions

namespace Settings

variable {settings : Settings} {headers : Headers} {user : AuthenticatedUser}

/-- No token is valid outside development. -/
theorem productionUser_error (settings : Settings) (headers : Headers) :
    ∃ detail, settings.productionUser headers = .error (.http 401 detail) := by
  unfold productionUser
  cases headers.bearer with
  | none => exact ⟨_, rfl⟩
  | some token => exact ⟨_, rfl⟩

theorem getCurrentUser_production (h : settings.isDevelopment = false) (headers : Headers) :
    ∃ detail, settings.getCurrentUser headers = .error (.http 401 detail) := by
  unfold getCurrentUser
  rw [h]
  exact settings.productionUser_error headers

/-- Nobody is an admin. -/
theorem getCurrentUser_roles (h : settings.getCurrentUser headers = .ok user) :
    user.roles = ["user"] := by
  obtain ⟨detail, hproduction⟩ := settings.productionUser_error headers
  unfold getCurrentUser at h
  rw [hproduction] at h
  split_ifs at h
  split at h
  · split at h
    · obtain rfl := Except.ok.inj h
      rfl
    · cases h
  · split at h
    · obtain rfl := Except.ok.inj h
      rfl
    · cases h

theorem getCurrentUser_canAccess (h : settings.getCurrentUser headers = .ok user)
    {accountOwnerId : UUID} (haccess : user.canAccessAccount accountOwnerId = true) :
    accountOwnerId = user.userId := by
  have hroles := getCurrentUser_roles h
  rcases (user.canAccessAccount_iff _).mp haccess with hadmin | hsame
  · simp [AuthenticatedUser.hasRole, hroles] at hadmin
  · exact hsame.symm

/-- An authentication that fails is answered with an error. -/
theorem getCurrentUser_error {e : HttpExn} (h : settings.getCurrentUser headers = .error e) :
    ∃ status detail, e = .http status detail ∧ 400 ≤ status := by
  obtain ⟨detail, hproduction⟩ := settings.productionUser_error headers
  unfold getCurrentUser at h
  rw [hproduction] at h
  split_ifs at h
  · split at h
    · split at h
      · cases h
      · obtain rfl := Except.error.inj h
        exact ⟨_, _, rfl, by decide⟩
    · split at h
      · cases h
      · obtain rfl := Except.error.inj h
        exact ⟨_, _, rfl, by decide⟩
  · obtain rfl := Except.error.inj h
    exact ⟨_, _, rfl, by decide⟩

end Settings

/-! ## Programs -/

theorem Exn.le_statusCode (e : Exn) : 400 ≤ e.statusCode := by
  unfold statusCode
  split <;> omega

/-- What an endpoint makes of an exception. -/
theorem HttpCall.answered_of_error {settings : Settings} {accounts : AccountId → Option AccountRow}
    {transactions : TransactionId → Option TransactionRow} {call : HttpCall} {e : HttpExn}
    (hstatus : ∀ status detail, e = .http status detail → 400 ≤ status)
    (hproduction : settings.isDevelopment = false → (∀ id, call.endpoint ≠ .getTransaction id) →
      ∃ detail, e = .http 401 detail) {response : HttpResponse}
    (h : HttpResponse.ofResult (.error e) = some response) :
    call.Answered settings accounts transactions response := by
  have hbody : (∀ shown, response.body ≠ .account shown) ∧
      (∀ shown, response.body ≠ .transaction shown) ∧ 400 ≤ response.status := by
    cases e with
    | http status detail =>
      obtain rfl := Option.some.inj h
      exact ⟨fun _ h => (by cases h), fun _ h => (by cases h), hstatus _ _ rfl⟩
    | raised e =>
      simp only [HttpResponse.ofResult, HttpExn.response] at h
      split_ifs at h
      obtain rfl := Option.some.inj h
      exact ⟨fun _ h => (by cases h), fun _ h => (by cases h), e.le_statusCode⟩
  obtain ⟨haccount, htransaction, hle⟩ := hbody
  refine ⟨fun shown hshown => absurd hshown (haccount shown),
    fun shown hshown => absurd hshown (htransaction shown), fun _ _ => hle, fun hdev hguarded => ?_⟩
  obtain ⟨detail, rfl⟩ := hproduction hdev hguarded
  obtain rfl := Option.some.inj h
  rfl

section Programs

variable {settings : Settings} {transactions : TransactionId → Option TransactionRow}
  {call : HttpCall}

/-- The postcondition of a call. -/
abbrev HttpCall.Answers (settings : Settings) (transactions : TransactionId → Option TransactionRow)
    (call : HttpCall) (out : Option HttpResponse) (v : RowView) : Prop :=
  ∀ response, out = some response → call.Answered settings v.rows transactions response

theorem answers_error_of_user {user : AuthenticatedUser}
    (huser : settings.getCurrentUser call.headers = .ok user) {e : HttpExn}
    (hstatus : ∀ status detail, e = .http status detail → 400 ≤ status) (v : RowView) :
    call.Answers settings transactions (HttpResponse.ofResult (.error e)) v := by
  intro response h
  refine HttpCall.answered_of_error hstatus (fun hdev _ => ?_) h
  obtain ⟨detail, herror⟩ := Settings.getCurrentUser_production hdev call.headers
  rw [huser] at herror
  cases herror

theorem answers_unauthenticated {e : HttpExn}
    (he : settings.getCurrentUser call.headers = .error e) (v : RowView) :
    call.Answers settings transactions (HttpResponse.ofResult (.error e)) v := by
  obtain ⟨status, detail, rfl, hle⟩ := Settings.getCurrentUser_error he
  intro response h
  refine HttpCall.answered_of_error (fun status' detail' heq => ?_) (fun hdev _ => ?_) h
  · cases heq
    exact hle
  · obtain ⟨detail', herror⟩ := Settings.getCurrentUser_production hdev call.headers
    rw [he] at herror
    exact ⟨detail', Except.error.inj herror⟩

/-- A lookup that has ended leaves its unit of work. -/
theorem wp_lookupUow {α : Type} {body : SqlTask α} {K : α → RowView → Prop} {p : Process SqlState}
    {v : RowView}
    (h : Task.wp (lookupContract transactions) body (fun res _ v => ∀ a, res = .ok a → K a v)
      { p with adapters := { p.adapters with
        session := .empty, seenAccounts := [], seenTransactions := [] } } v) :
    Task.wp (lookupContract transactions) (withUow sqlUow body)
      (fun res _ v => ∀ a, res = .ok a → K a v) p v := by
  rw [wp_withUow]
  refine Task.wp_mono (fun res p v hres => ?_) h
  cases res with
  | ok a =>
    intro closed
    obtain e | _ := (closed : Except Exn Unit)
    · exact fun _ h => by cases h
    · exact hres
  | error e =>
    intro rolledBack
    obtain e | _ := (rolledBack : Except Exn Unit)
    · exact fun _ h => by cases h
    · intro closed
      obtain e | _ := (closed : Except Exn Unit) <;> exact fun _ h => by cases h

theorem wp_lookupAccount (id : UUID) (p : Process SqlState) (v : RowView) :
    Task.wp (lookupContract transactions) (AccountService.get sqlUow id)
      (fun res _ v => ∀ dto, res = .ok dto → ∃ row a, v.rows id = some row ∧
        AccountMapper.toDomain row.load = .ok a ∧ dto = .fromAggregate a) p v := by
  refine wp_lookupUow ?_
  rw [Task.wp_bind]
  simp only [sqlUow, PostgresAccountRepository.get, Task.wp_bind, wp_io]
  refine ⟨fun e _ h => (by cases h), ?_, fun row hid => ?_⟩
  · simp only [PostgresAccountRepository.register, Task.wp_pure, Task.wp_throw]
    exact fun _ h => by cases h
  simp only [PostgresAccountRepository.register, Task.wp_bind, Task.wp_ofExcept]
  cases ha : AccountMapper.toDomain row.load with
  | error e => exact fun _ h => by cases h
  | ok a =>
    simp only [wp_newAccount, wp_modifyAdapters, Task.wp_pure]
    rw [Task.wp_bind, wp_readAccount (a := a) _ _ (by simp)]
    simp only [Task.wp_pure]
    rintro dto ⟨⟩
    exact ⟨row, a, by simp [hid], ha, rfl⟩

theorem wp_lookupTransaction (id : UUID) (p : Process SqlState) (v : RowView) :
    Task.wp (lookupContract transactions) (TransferService.get sqlUow id)
      (fun res _ _ => ∀ dto, res = .ok dto → ∃ row tx, transactions id = some row ∧
        TransactionMapper.toDomain row.load = .ok tx ∧ dto = .fromAggregate tx) p v := by
  refine wp_lookupUow ?_
  rw [Task.wp_bind]
  simp only [sqlUow, PostgresTransactionRepository.get, Task.wp_bind, wp_io]
  refine ⟨fun e _ h => (by cases h), ?_⟩
  cases hrow : transactions id with
  | none =>
    simp only [Option.map_none, Task.wp_pure, Task.wp_throw]
    exact fun _ h => by cases h
  | some row =>
    simp only [Option.map_some, Task.wp_bind, Task.wp_ofExcept]
    cases htx : TransactionMapper.toDomain row.load with
    | error e => exact fun _ h => by cases h
    | ok tx =>
      simp only [wp_newTransaction, wp_modifyAdapters, Task.wp_pure]
      rw [Task.wp_bind, wp_readTransaction (t := tx) _ _ (by simp)]
      simp only [Task.wp_pure]
      rintro dto ⟨⟩
      exact ⟨row, tx, rfl, htx, rfl⟩

/-! ### Endpoints -/

/-- An account of the caller is shown. -/
theorem HttpCall.answered_account {user : AuthenticatedUser}
    {accounts : AccountId → Option AccountRow}
    (huser : settings.getCurrentUser call.headers = .ok user) {status : ℕ} {shown : AccountResponse}
    (howner : shown.ownerId = user.userId)
    (hrow : ∀ id, call.endpoint = .getAccount id →
      ∃ row, accounts id = some row ∧ row.Shown shown) :
    call.Answered settings accounts transactions ⟨status, .account shown⟩ where
  account shown' hshown := by
    obtain rfl := HttpBody.account.inj hshown
    exact ⟨user, huser, howner, hrow⟩
  transaction shown' hshown := by cases hshown
  error h _ := absurd rfl (h shown)
  refused hdev _ := by
    obtain ⟨detail, herror⟩ := Settings.getCurrentUser_production hdev call.headers
    rw [huser] at herror
    cases herror

theorem answers_createAccount {draws : AccountDraws} {body : CreateAccountRequest}
    {user : AuthenticatedUser} (hcall : call.endpoint = .createAccount draws body)
    (huser : settings.getCurrentUser call.headers = .ok user) :
    Task.wp (rowContract (.create draws ⟨user.userId, body.currency.value, body.initialBalance⟩))
      (call.task settings)
      (fun res _ v => call.Answers settings transactions (HttpResponse.ofResult res) v)
      .init .fresh := by
  rw [HttpCall.task, hcall]
  simp only [Task.wp_bind, Task.wp_ofExcept, huser]
  rw [createAccount, Task.wp_bind, service, Task.wp_mapError]
  refine Task.wp_mono (fun res p v hres => ?_)
    (Task.wp_and_only (keeps_create draws _) (wp_create_owner draws _))
  obtain ⟨-, howner⟩ := hres
  cases res with
  | error e => exact answers_error_of_user huser (by simp) v
  | ok dto =>
    simp only [Except.mapError, respondWith, Task.wp_ofExcept]
    cases hresponse : AccountResponse.fromDto dto with
    | error e => exact answers_error_of_user huser (by simp) v
    | ok shown =>
      simp only [Task.wp_pure]
      intro response h
      obtain rfl := Option.some.inj h
      refine HttpCall.answered_account huser ?_ fun id hget => ?_
      · rw [AccountResponse.fromDto_ownerId hresponse]
        exact howner dto rfl
      · rw [hcall] at hget
        cases hget

theorem answers_getAccount {id : UUID} {user : AuthenticatedUser}
    (hcall : call.endpoint = .getAccount id)
    (huser : settings.getCurrentUser call.headers = .ok user) :
    Task.wp (lookupContract transactions) (call.task settings)
      (fun res _ v => call.Answers settings transactions (HttpResponse.ofResult res) v)
      .init .fresh := by
  rw [HttpCall.task, hcall]
  simp only [Task.wp_bind, Task.wp_ofExcept, huser]
  rw [getAccount, Task.wp_bind, service, Task.wp_mapError]
  refine Task.wp_mono (fun res p v hres => ?_) (wp_lookupAccount id .init .fresh)
  cases res with
  | error e => exact answers_error_of_user huser (by simp) v
  | ok dto =>
    simp only [Except.mapError]
    by_cases haccess : user.canAccessAccount dto.ownerId = true
    · obtain ⟨row, a, hrow, ha, rfl⟩ := hres dto rfl
      simp only [haccess, not_true_eq_false, if_false, Task.wp_pure, respondWith,
        Task.wp_ofExcept]
      cases hresponse : AccountResponse.fromDto (.fromAggregate a) with
      | error e => exact answers_error_of_user huser (by simp) v
      | ok shown =>
        intro response h
        obtain rfl := Option.some.inj h
        refine HttpCall.answered_account huser ?_ fun id' hget => ?_
        · rw [AccountResponse.fromDto_ownerId hresponse]
          exact Settings.getCurrentUser_canAccess huser haccess
        · rw [hcall] at hget
          cases hget
          exact ⟨row, hrow, a, ha, hresponse⟩
    · simp only [haccess, Bool.false_eq_true, not_false_eq_true, if_true, Task.wp_bind,
        Task.wp_throw]
      refine answers_error_of_user huser (fun status detail heq => ?_) v
      cases heq
      decide

theorem answers_getTransaction {id : UUID} (hcall : call.endpoint = .getTransaction id) :
    Task.wp (lookupContract transactions) (call.task settings)
      (fun res _ v => call.Answers settings transactions (HttpResponse.ofResult res) v)
      .init .fresh := by
  have herror (e : Exn) (v : RowView) :
      call.Answers settings transactions (HttpResponse.ofResult (.error (.raised e))) v := by
    intro response h
    exact HttpCall.answered_of_error (by simp) (fun _ hguarded => absurd hcall (hguarded id)) h
  rw [HttpCall.task, hcall]
  simp only [Task.wp_bind]
  rw [getTransaction, Task.wp_bind, service, Task.wp_mapError]
  refine Task.wp_mono (fun res p v hres => ?_) (wp_lookupTransaction id .init .fresh)
  cases res with
  | error e => exact herror e v
  | ok dto =>
    obtain ⟨row, tx, hrow, htx, rfl⟩ := hres dto rfl
    simp only [Except.mapError, respondWith, Task.wp_ofExcept]
    cases hresponse : TransactionResponse.fromDto (.fromAggregate tx) with
    | error e => exact herror e v
    | ok shown =>
      simp only [Task.wp_pure]
      intro response h
      obtain rfl := Option.some.inj h
      exact {
        account := fun _ h => by cases h
        transaction := fun shown' hshown => by
          obtain rfl := HttpBody.transaction.inj hshown
          exact ⟨id, row, hcall, hrow, tx, htx, hresponse⟩
        error := fun _ hnone => absurd rfl (hnone shown)
        refused := fun _ hguarded => absurd hcall (hguarded id) }

theorem HttpCall.wp_unauthenticated {x : AuthenticatedUser → HttpTask HttpResponse} {e : HttpExn}
    (he : settings.getCurrentUser call.headers = .error e) (C : Contract IoOp IoOp.Res RowView) :
    Task.wp C (Task.ofExcept (settings.getCurrentUser call.headers) >>= x)
      (fun res _ v => call.Answers settings transactions (HttpResponse.ofResult res) v)
      .init .fresh := by
  rw [Task.wp_bind, Task.wp_ofExcept, he]
  exact answers_unauthenticated he _

theorem answers_task (settings : Settings) (transactions : TransactionId → Option TransactionRow)
    (call : HttpCall) :
    Task.wp (httpContract settings transactions call) (call.task settings)
      (fun res _ v => call.Answers settings transactions (HttpResponse.ofResult res) v)
      .init .fresh := by
  unfold httpContract
  cases hcall : call.endpoint with
  | getTransaction id =>
    rw [HttpCall.request, hcall]
    exact answers_getTransaction hcall
  | createAccount draws body =>
    cases huser : settings.getCurrentUser call.headers with
    | error e =>
      rw [HttpCall.task, hcall]
      exact HttpCall.wp_unauthenticated huser _
    | ok user =>
      rw [HttpCall.request, hcall, huser]
      exact answers_createAccount hcall huser
  | getAccount id =>
    cases huser : settings.getCurrentUser call.headers with
    | error e =>
      rw [HttpCall.task, hcall]
      exact HttpCall.wp_unauthenticated huser _
    | ok user =>
      rw [HttpCall.request, hcall]
      exact answers_getAccount hcall huser
  | initiateTransfer draws body =>
    cases huser : settings.getCurrentUser call.headers with
    | error e =>
      rw [HttpCall.task, hcall]
      exact HttpCall.wp_unauthenticated huser _
    | ok user =>
      rw [HttpCall.task, hcall]
      simp only [Task.wp_bind, Task.wp_ofExcept, huser]
      rw [initiateTransfer_eq, Task.wp_throw]
      exact answers_error_of_user huser (by simp) _

/-- Every call keeps to its contract. -/
theorem keeps_call (settings : Settings) (transactions : TransactionId → Option TransactionRow)
    (call : HttpCall) :
    (call.program settings).wp (httpContract settings transactions call)
      (call.Answers settings transactions) .fresh := by
  have h := answers_task settings transactions call
  rw [Task.wp_def] at h
  rw [HttpCall.program, Program.wp_bind]
  exact h

end Programs

end BankingTransactions
