import BankingTransactions.MoneyArithmetic
import BankingTransactions.Server

/-!
# The HTTP API

The endpoints for accounts and transfers, the authentication that they depend on, and the
exception handlers. FastAPI is assumed to validate the bodies, to resolve the dependencies
of an endpoint before it is called, and to send what the handlers make of an exception.
Every service that an endpoint asks for has a unit of work of its own.
-/
namespace BankingTransactions
open DecimalArithmetic InteractionPrograms

/-! ## Exceptions of endpoints -/

/-- An `HTTPException`, or an exception of the code that an endpoint calls. -/
inductive HttpExn where
  | http (status : ℕ) (detail : String)
  | raised (e : Exn)
  deriving DecidableEq

def HttpExn.isException : HttpExn → Bool
  | http _ _ => true
  | raised e => e.isException

abbrev HttpTask : Type → Type := Task (Program IoOp IoOp.Res) HttpExn (Process SqlState)

/-- Call a service from an endpoint. -/
def service {α : Type} (x : SqlTask α) : HttpTask α := Task.mapError .raised x

/-- What Python raises for a call with too many or too few positional arguments. -/
def Exn.arguments (name : String) (parameters arguments : ℕ) : Exn :=
  .failure "TypeError" (name ++ "() takes " ++ toString parameters ++
    " positional arguments but " ++ toString arguments ++ " were given")

/-- Call a function that has so many parameters with so many positional arguments. -/
def callFunction {α : Type} (name : String) (parameters arguments : ℕ) (body : HttpTask α) :
    HttpTask α :=
  if arguments = parameters then body
  else throw (.raised (.arguments name parameters arguments))

/-! ## Authentication -/

structure AuthenticatedUser where
  userId : UUID
  roles : List String
  deriving DecidableEq

namespace AuthenticatedUser

def hasRole (user : AuthenticatedUser) (role : String) : Bool := user.roles.contains role

def canAccessAccount (user : AuthenticatedUser) (accountOwnerId : UUID) : Bool :=
  user.hasRole "admin" || user.userId == accountOwnerId

end AuthenticatedUser

/-- The headers that identify a caller: `X-Dev-User-Id`, and the token of `Authorization`. -/
structure Headers where
  devUserId : Option String
  bearer : Option String

/-- `uuid` is `UUID(text)`, which has no value where Python raises a `ValueError`. -/
structure Settings where
  isDevelopment : Bool
  uuid : String → Option UUID

structure JwtPayload where
  sub : String
  roles : Option (List String)

namespace Settings

/-- `_parse_dev_token` -/
def parseDevToken (settings : Settings) (token : String) : Option UUID :=
  if token.startsWith "dev:" then settings.uuid (token.drop 4).toString else none

/-- `_validate_jwt`, a placeholder. -/
def validateJwt (_ : String) : Except HttpExn JwtPayload :=
  .error (.http 401 "JWT validation not implemented. Use dev token in development.")

/-- The part of `get_current_user` that is not for development. -/
def productionUser (settings : Settings) (headers : Headers) : Except HttpExn AuthenticatedUser :=
  match headers.bearer with
  | none => .error (.http 401 "Authentication required.")
  | some token => do
    let payload ← validateJwt token
    match settings.uuid payload.sub with
    | none => throw (.raised (.valueError "badly formed hexadecimal UUID string"))
    | some userId => return ⟨userId, payload.roles.getD ["user"]⟩

def getCurrentUser (settings : Settings) (headers : Headers) : Except HttpExn AuthenticatedUser :=
  if settings.isDevelopment then
    match headers.devUserId.filter (· ≠ "") with
    | some text =>
      match settings.uuid text with
      | some userId => .ok ⟨userId, ["user"]⟩
      | none => .error (.http 400 "X-Dev-User-Id must be a valid UUID.")
    | none =>
      match headers.bearer.bind settings.parseDevToken with
      | some userId => .ok ⟨userId, ["user"]⟩
      | none => settings.productionUser headers
  else settings.productionUser headers

end Settings

/-! ## Schemas -/

/-- The validators of the fields are part of the type. -/
structure CreateAccountRequest where
  currency : Currency
  initialBalance : Decimal
  finite : initialBalance.IsFinite
  ge : initialBalance.lt .zero = .ok false

structure TransferRequest where
  fromAccountId : UUID
  toAccountId : UUID
  amount : Decimal
  currency : Currency
  idempotencyKey : String
  finite : amount.IsFinite
  gt : Decimal.zero.lt amount = .ok true
  minLength : 1 ≤ idempotencyKey.length
  maxLength : idempotencyKey.length ≤ 255

def TransferRequest.command (body : TransferRequest) : TransferCommand :=
  { fromAccountId := body.fromAccountId, toAccountId := body.toAccountId, amount := body.amount
    currency := body.currency.value, idempotencyKey := body.idempotencyKey }

structure AccountResponse where
  id : UUID
  ownerId : UUID
  accountNumber : String
  balance : Decimal
  currency : String
  status : String
  deriving DecidableEq

def AccountResponse.fromDto (dto : AccountDTO) : Except Exn AccountResponse := do
  let currency ← Currency.ofValue dto.currency
  return { id := dto.id, ownerId := dto.ownerId, accountNumber := dto.accountNumber
           balance := dto.balance, currency := currency.value, status := dto.status }

structure TransactionResponse where
  id : UUID
  fromAccountId : UUID
  toAccountId : UUID
  amount : Decimal
  currency : String
  status : String
  idempotencyKey : String
  failureCode : Option String
  failureReason : Option String
  createdAt : Time
  completedAt : Option Time
  deriving DecidableEq

def TransactionResponse.fromDto (dto : TransactionDTO) : Except Exn TransactionResponse := do
  let currency ← Currency.ofValue dto.currency
  return { id := dto.id, fromAccountId := dto.fromAccountId, toAccountId := dto.toAccountId
           amount := dto.amount, currency := currency.value, status := dto.status
           idempotencyKey := dto.idempotencyKey, failureCode := dto.failureCode
           failureReason := dto.failureReason, createdAt := dto.createdAt
           completedAt := dto.completedAt }

/-- `from_dto` of a schema, in an endpoint. -/
def respondWith {α : Type} (response : Except Exn α) : HttpTask α :=
  Task.ofExcept (response.mapError .raised)

/-! ## Endpoints -/

/-- `_get_account_or_403` -/
def getAccountOr403 (accountId : UUID) (currentUser : AuthenticatedUser) : HttpTask Unit := do
  let found ← tryCatch
    (do
      let dto ← service (AccountService.get sqlUow accountId)
      return some dto)
    fun e => if e.isException then return none else throw e
  match found with
  | none => return ()
  | some dto =>
    if ¬ currentUser.canAccessAccount dto.ownerId then
      throw (.http 403 "You do not own this account.")

def createAccount (draws : AccountDraws) (body : CreateAccountRequest)
    (currentUser : AuthenticatedUser) : HttpTask AccountResponse := do
  let dto ← service (AccountService.create sqlUow draws
    { ownerId := currentUser.userId, currency := body.currency.value
      initialBalance := body.initialBalance })
  respondWith (AccountResponse.fromDto dto)

def getAccount (accountId : UUID) (currentUser : AuthenticatedUser) :
    HttpTask AccountResponse := do
  let dto ← service (AccountService.get sqlUow accountId)
  if ¬ currentUser.canAccessAccount dto.ownerId then
    throw (.http 403 "You do not have access to this account.")
  respondWith (AccountResponse.fromDto dto)

/-- What `initiate_transfer` does after the ownership check. -/
def serveTransfer (draws : TransferDraws) (command : TransferCommand) :
    HttpTask TransactionResponse := do
  let dto ← service (TransferService.initiate sqlUow redisLock sqlBus draws command)
  respondWith (TransactionResponse.fromDto dto)

/-- The helper has two parameters, and is called with the service as a third argument. -/
def initiateTransfer (draws : TransferDraws) (body : TransferRequest)
    (currentUser : AuthenticatedUser) : HttpTask TransactionResponse := do
  callFunction "_get_account_or_403" 2 3 (getAccountOr403 body.fromAccountId currentUser)
  serveTransfer draws body.command

def getTransaction (transactionId : UUID) : HttpTask TransactionResponse := do
  let dto ← service (TransferService.get sqlUow transactionId)
  respondWith (TransactionResponse.fromDto dto)

/-! ## Responses -/

inductive HttpBody where
  | account (response : AccountResponse)
  | transaction (response : TransactionResponse)
  | error (error detail : String)
  | detail (detail : String)
  deriving DecidableEq

structure HttpResponse where
  status : ℕ
  body : HttpBody
  deriving DecidableEq

/-- `_STATUS_MAP` -/
def Exn.statusCode : Exn → ℕ
  | invalidTransferAmount _ => 400
  | sameAccountTransfer _ => 400
  | currencyMismatch _ _ => 400
  | resourceNotFound _ _ => 404
  | concurrencyConflict _ => 409
  | transactionAlreadyProcessing _ _ => 409
  | insufficientFunds _ _ => 422
  | accountFrozen _ => 422
  | accountClosed _ => 422
  | accountNotEmpty _ _ => 422
  | transactionAlreadyCompleted _ _ => 422
  | transactionNotFailable _ _ => 422
  | _ => 500

/-- What the handlers make of an exception. A request that is cancelled is not answered. -/
def HttpExn.response : HttpExn → Option HttpResponse
  | http status detail => some ⟨status, .detail detail⟩
  | raised e => if e.isException then some ⟨e.statusCode, .error e.name e.message⟩ else none

def HttpResponse.ofResult : Except HttpExn HttpResponse → Option HttpResponse
  | .ok response => some response
  | .error e => e.response

inductive Endpoint where
  | createAccount (draws : AccountDraws) (body : CreateAccountRequest)
  | getAccount (accountId : UUID)
  | initiateTransfer (draws : TransferDraws) (body : TransferRequest)
  | getTransaction (transactionId : UUID)

structure HttpCall where
  headers : Headers
  endpoint : Endpoint

/-- An endpoint with its dependencies. That of a single transaction does not ask who calls. -/
def HttpCall.task (settings : Settings) (call : HttpCall) : HttpTask HttpResponse :=
  match call.endpoint with
  | .createAccount draws body => do
    let currentUser ← Task.ofExcept (settings.getCurrentUser call.headers)
    let response ← createAccount draws body currentUser
    return ⟨201, .account response⟩
  | .getAccount accountId => do
    let currentUser ← Task.ofExcept (settings.getCurrentUser call.headers)
    let response ← getAccount accountId currentUser
    return ⟨200, .account response⟩
  | .initiateTransfer draws body => do
    let currentUser ← Task.ofExcept (settings.getCurrentUser call.headers)
    let response ← initiateTransfer draws body currentUser
    return ⟨202, .transaction response⟩
  | .getTransaction transactionId => do
    let response ← getTransaction transactionId
    return ⟨200, .transaction response⟩

/-! ## Sequences of calls -/

/-- A server that serves one request, and does with its `n`-th operation what the environment
has chosen, where that is possible. -/
def Server.answerBy (choices : ℕ → Choice) (r : Request) (o : IoOp) (s : Server × ℕ) :
    o.Res × (Server × ℕ) :=
  match answer 0 r (choices s.2) o s.1 with
  | some (res, s') => (res, s', s.2 + 1)
  | none => ((answerAlone r o s.1).1, (answerAlone r o s.1).2, s.2 + 1)

/-- A call, what the environment does to its operations, and the name that the history gives
to what it commits. -/
structure Arrival where
  call : HttpCall
  choices : ℕ → Choice
  label : Request

/-- A call that was served: the server before and after it, and the response. -/
structure Exchange where
  arrival : Arrival
  before : Server
  response : Option HttpResponse
  after : Server

namespace Arrival

def serve (settings : Settings) (arrival : Arrival) (s : Server) : Exchange :=
  let run := (arrival.call.task settings).runWith
    (Server.answerBy arrival.choices arrival.label) .init (s, 0)
  ⟨arrival, s, HttpResponse.ofResult run.1.1, run.2.1⟩

/-- Calls that are served one after the other. -/
def serveAll (settings : Settings) : Server → List Arrival → List Exchange
  | _, [] => []
  | s, arrival :: rest =>
    arrival.serve settings s :: serveAll settings (arrival.serve settings s).after rest

end Arrival

end BankingTransactions
