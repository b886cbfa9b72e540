import BankingTransactions.DecimalArithmetic

/-!
# Value objects and exceptions

The enumerations and identifiers, the `Money` value object with its arithmetic,
and the exceptions of the domain together with those the infrastructure raises.
A `Money` carries the proof that its amount is a whole number of hundredths that
the decimal context holds; `__post_init__` is the only way to make one.
-/
namespace BankingTransactions
open DecimalArithmetic

/-- A point in time, in microseconds. -/
abbrev Time := ℤ

abbrev UUID := BitVec 128

abbrev AccountId := UUID

abbrev TransactionId := UUID

abbrev OwnerId := UUID

abbrev IdempotencyKey := String

inductive Currency where
  | EUR | USD | GBP | IRR
  deriving DecidableEq, Repr

inductive AccountStatus where
  | active | frozen | closed
  deriving DecidableEq, Repr

inductive TransactionStatus where
  | pending | processing | completed | failed
  deriving DecidableEq, Repr

inductive TransactionType where
  | transfer | deposit | withdrawal
  deriving DecidableEq, Repr

namespace Currency

def value : Currency → String
  | EUR => "EUR"
  | USD => "USD"
  | GBP => "GBP"
  | IRR => "IRR"

end Currency

namespace AccountStatus

def value : AccountStatus → String
  | active => "active"
  | frozen => "frozen"
  | closed => "closed"

end AccountStatus

namespace TransactionStatus

def value : TransactionStatus → String
  | pending => "pending"
  | processing => "processing"
  | completed => "completed"
  | failed => "failed"

def isTerminal (s : TransactionStatus) : Bool := s = completed ∨ s = failed

def canProcess (s : TransactionStatus) : Bool := s = pending

def canComplete (s : TransactionStatus) : Bool := s = processing

def canFail (s : TransactionStatus) : Bool := s = pending ∨ s = processing

end TransactionStatus

/-! ## The text of an identifier -/

namespace UUID

instance : LawfulBEq UUID := inferInstance

def hexDigit (n : ℕ) : Char :=
  if n < 10 then Char.ofNat (48 + n) else Char.ofNat (87 + n)

/-- The 32 hexadecimal digits, most significant first. -/
def hex (u : UUID) : List Char :=
  (List.range 32).map fun i => hexDigit (u.toNat / 16 ^ (31 - i) % 16)

/-- `str(uuid)`: the digits in groups of 8, 4, 4, 4 and 12. -/
def str (u : UUID) : String :=
  let h := hex u
  String.ofList (h.take 8 ++ '-' :: ((h.drop 8).take 4 ++ '-' :: ((h.drop 12).take 4 ++
    '-' :: ((h.drop 16).take 4 ++ '-' :: h.drop 20))))

theorem hexDigit_injective {m n : ℕ} (hm : m < 16) (hn : n < 16)
    (h : hexDigit m = hexDigit n) : m = n := by
  have hall : ∀ m < 16, ∀ n < 16, hexDigit m = hexDigit n → m = n := by decide
  exact hall m hm n hn h

theorem digits_injective (b k : ℕ) {m n : ℕ} (hm : m < b ^ k) (hn : n < b ^ k)
    (h : ∀ i < k, m / b ^ i % b = n / b ^ i % b) : m = n := by
  induction k generalizing m n with
  | zero => simp at hm hn; omega
  | succ k ih =>
    have hb : 0 < b := by
      rcases Nat.eq_zero_or_pos b with rfl | hb
      · simp at hm
      · exact hb
    have hlow : m % b = n % b := by simpa using h 0 (by omega)
    have hhigh : m / b = n / b := by
      apply ih
      · exact Nat.div_lt_of_lt_mul (by rwa [pow_succ, mul_comm] at hm)
      · exact Nat.div_lt_of_lt_mul (by rwa [pow_succ, mul_comm] at hn)
      · intro i hi
        have := h (i + 1) (by omega)
        rwa [pow_succ', ← Nat.div_div_eq_div_mul, ← Nat.div_div_eq_div_mul] at this
    rw [← Nat.div_add_mod m b, ← Nat.div_add_mod n b, hlow, hhigh]

theorem hex_injective : Function.Injective hex := by
  intro u v h
  apply BitVec.eq_of_toNat_eq
  apply digits_injective 16 32 (by simpa using u.isLt) (by simpa using v.isLt)
  intro i hi
  have hmap := List.map_inj_left.mp h (31 - i) (List.mem_range.mpr (by omega))
  rw [show 31 - (31 - i) = i by omega] at hmap
  exact hexDigit_injective (Nat.mod_lt _ (by norm_num)) (Nat.mod_lt _ (by norm_num)) hmap

theorem str_injective : Function.Injective str := by
  intro u v h
  apply hex_injective
  have hlen (w : UUID) : (hex w).length = 32 := by simp [hex]
  simp only [str, String.ofList_inj] at h
  obtain ⟨h1, h⟩ := List.append_inj h (by simp [hlen])
  obtain ⟨h2, h⟩ := List.append_inj (List.cons.inj h).2 (by simp [hlen])
  obtain ⟨h3, h⟩ := List.append_inj (List.cons.inj h).2 (by simp [hlen])
  obtain ⟨h4, h⟩ := List.append_inj (List.cons.inj h).2 (by simp [hlen])
  have h5 := (List.cons.inj h).2
  have split (w : UUID) : hex w = (hex w).take 8 ++ (((hex w).drop 8).take 4 ++
      (((hex w).drop 12).take 4 ++ (((hex w).drop 16).take 4 ++ (hex w).drop 20))) := by
    have step (k : ℕ) : (hex w).drop k = ((hex w).drop k).take 4 ++ (hex w).drop (k + 4) := by
      rw [← List.drop_drop, List.take_append_drop]
    rw [← step 16, ← step 12, ← step 8, List.take_append_drop]
  rw [split u, split v, h1, h2, h3, h4, h5]

end UUID

/-! ## Money -/

structure Money where
  amount : Decimal
  currency : Currency
  hundredths : amount.IsHundredths
  deriving DecidableEq

namespace Money

/-- The amount in hundredths of the currency unit. -/
def cents (m : Money) : ℕ := m.amount.hundredths

theorem cents_lt (m : Money) : m.cents < 10 ^ precision := by
  obtain ⟨amount, currency, h⟩ := m
  match amount, h with
  | .finite s c e, h => exact h.2.1

/-- A decimal with exponent `-2`, printed with two decimals. -/
def amountText : Decimal → String
  | .finite s c _ =>
    let sign := if s then "-" else ""
    let fraction := c % 100
    sign ++ toString (c / 100) ++ "." ++ (if fraction < 10 then "0" else "") ++ toString fraction
  | .infinite s => if s then "-Infinity" else "Infinity"
  | .nan signaling => if signaling then "sNaN" else "NaN"

def str (m : Money) : String := m.currency.value ++ " " ++ amountText m.amount

end Money

/-! ## Exceptions -/

/-- The exceptions that code under `src` raises or lets through. The classes of
SQLAlchemy stand for what the database refuses; `failure` is any other exception
of the infrastructure, and `cancelled` is not a subclass of `Exception`. -/
inductive Exn where
  | insufficientFunds (available requested : Money)
  | accountFrozen (accountId : AccountId)
  | accountClosed (accountId : AccountId)
  | accountNotEmpty (accountId : AccountId) (balance : Money)
  | resourceNotFound (resource : String) (id : UUID)
  | currencyMismatch (left right : Currency)
  | concurrencyConflict (resource : String)
  | invalidTransferAmount (amount : Money)
  | sameAccountTransfer (accountId : AccountId)
  | transactionAlreadyProcessing (transactionId : TransactionId) (currentStatus : String)
  | transactionAlreadyCompleted (transactionId : TransactionId) (currentStatus : String)
  | transactionNotFailable (transactionId : TransactionId) (currentStatus : String)
  | transactionRollback (transactionId : TransactionId) (currentStatus : String)
  | valueError (text : String)
  | decimalInvalidOperation
  | decimalOverflow
  | integrityError
  | dbapiError
  | noResultFound
  | failure (className text : String)
  | cancelled
  deriving DecidableEq

namespace Exn

/-- `type(exc).__name__` -/
def name : Exn → String
  | insufficientFunds _ _ => "InsufficientFundsError"
  | accountFrozen _ => "AccountFrozenError"
  | accountClosed _ => "AccountClosedError"
  | accountNotEmpty _ _ => "AccountNotEmptyError"
  | resourceNotFound _ _ => "ResourceNotFoundError"
  | currencyMismatch _ _ => "CurrencyMismatchError"
  | concurrencyConflict _ => "ConcurrencyConflictError"
  | invalidTransferAmount _ => "InvalidTransferAmountError"
  | sameAccountTransfer _ => "SameAccountTransferError"
  | transactionAlreadyProcessing _ _ => "TransactionAlreadyProcessingError"
  | transactionAlreadyCompleted _ _ => "TransactionAlreadyCompletedError"
  | transactionNotFailable _ _ => "TransactionNotFailableError"
  | transactionRollback _ _ => "TransactionRollbackError"
  | valueError _ => "ValueError"
  | decimalInvalidOperation => "InvalidOperation"
  | decimalOverflow => "Overflow"
  | integrityError => "IntegrityError"
  | dbapiError => "DBAPIError"
  | noResultFound => "NoResultFound"
  | failure className _ => className
  | cancelled => "CancelledError"

/-- `str(exc)`. The texts of the database driver are not modelled. -/
def message : Exn → String
  | insufficientFunds available requested =>
    "Insufficient funds: requested " ++ requested.str ++ ", but only " ++ available.str ++
      " available."
  | accountFrozen accountId =>
    "Account '" ++ accountId.str ++ "' is frozen. No transactions permitted until unfrozen."
  | accountClosed accountId => "Account '" ++ accountId.str ++ "' is permanently closed."
  | accountNotEmpty accountId balance =>
    "Cannot close account '" ++ accountId.str ++ "': balance must be zero, current balance is " ++
      balance.str ++ "."
  | resourceNotFound resource id => resource ++ " with id '" ++ id.str ++ "' not found."
  | currencyMismatch left right =>
    "Cannot operate on different currencies: " ++ left.value ++ " vs " ++ right.value ++ "."
  | concurrencyConflict resource =>
    "Concurrent operation in progress on '" ++ resource ++ "'. Please retry."
  | invalidTransferAmount amount =>
    "Transfer amount must be greater than zero. Got: " ++ amount.str ++ "."
  | sameAccountTransfer accountId =>
    "Cannot transfer to the same account: '" ++ accountId.str ++ "'."
  | transactionAlreadyProcessing transactionId currentStatus =>
    "Transaction '" ++ transactionId.str ++ "' cannot move to PROCESSING: current status is '" ++
      currentStatus ++ "'. Only PENDING transactions can begin processing."
  | transactionAlreadyCompleted transactionId currentStatus =>
    "Transaction '" ++ transactionId.str ++ "' cannot be completed: current status is '" ++
      currentStatus ++ "'. Only PROCESSING transactions can complete."
  | transactionNotFailable transactionId currentStatus =>
    "Transaction '" ++ transactionId.str ++ "' cannot be failed: current status is '" ++
      currentStatus ++ "'. To reverse a COMPLETED transfer, create a REVERSAL transaction."
  | transactionRollback transactionId currentStatus =>
    "Transaction '" ++ transactionId.str ++ "' cannot be rolled back: current status is '" ++
      currentStatus ++ "'. Rollback is only valid for FAILED transactions that reached PROCESSING."
  | valueError text => text
  | decimalInvalidOperation => "[<class 'decimal.InvalidOperation'>]"
  | decimalOverflow => "[<class 'decimal.Overflow'>]"
  | failure _ text => text
  | e => e.name

/-- Whether `except Exception` catches it. -/
def isException : Exn → Bool
  | cancelled => false
  | _ => true

/-- `str.replace(word, "")` on a text whose first `skip` characters belong to an
occurrence of `word` that is being removed. -/
def erase (word : List Char) : ℕ → List Char → List Char
  | _, [] => []
  | 0, c :: cs =>
    if word.isPrefixOf (c :: cs) then erase word (word.length - 1) cs else c :: erase word 0 cs
  | skip + 1, _ :: cs => erase word skip cs

/-- `type(exc).__name__.upper().replace("ERROR", "")` -/
def failureCode (e : Exn) : String :=
  String.ofList (erase "ERROR".toList 0 (e.name.toList.map Char.toUpper))

end Exn

/-- A sequence of two computations returns when both do. -/
theorem bind_eq_ok {ε α β : Type} {x : Except ε α} {f : α → Except ε β} {b : β} :
    (x >>= f) = .ok b ↔ ∃ a, x = .ok a ∧ f a = .ok b := by
  cases x with
  | error e => exact ⟨nofun, fun ⟨_, h, _⟩ => nomatch h⟩
  | ok a =>
    constructor
    · intro h
      exact ⟨a, rfl, h⟩
    · rintro ⟨_, ⟨⟩, h⟩
      exact h

/-- `decimal` signals as the exceptions they raise. -/
def Signal.toExn : Signal → Exn
  | .invalidOperation => .decimalInvalidOperation
  | .overflow => .decimalOverflow

/-- `Currency(value)` -/
def Currency.ofValue (value : String) : Except Exn Currency :=
  match [Currency.EUR, .USD, .GBP, .IRR].find? (fun c => c.value = value) with
  | some c => .ok c
  | none => .error (.valueError ("'" ++ value ++ "' is not a valid Currency"))

theorem Currency.value_of_ofValue {value : String} {c : Currency} (h : ofValue value = .ok c) :
    c.value = value := by
  unfold ofValue at h
  split at h
  · rename_i c' hfind
    obtain rfl := Except.ok.inj h
    simpa using List.find?_some hfind
  · cases h

/-! ## Money arithmetic -/

namespace Money

/-- `Money(amount, currency)`: `__post_init__` rounds half up to two decimals and
refuses what is then negative. -/
def new (amount : Decimal) (currency : Currency) : Except Exn Money :=
  match hq : amount.quantize (-2) with
  | .error e => .error (Signal.toExn e)
  | .ok rounded =>
    match hlt : rounded.lt Decimal.zero with
    | .error e => .error (Signal.toExn e)
    | .ok true =>
      .error (.valueError ("Money amount cannot be negative: " ++ amountText rounded ++
        ". Use a positive amount and call debit() on the account."))
    | .ok false => .ok ⟨rounded, currency, Decimal.isHundredths_of_quantize hq hlt⟩

def assertSameCurrency (a b : Money) : Except Exn Unit :=
  if a.currency ≠ b.currency then .error (.currencyMismatch a.currency b.currency) else .ok ()

/-- `__add__` -/
def add (a b : Money) : Except Exn Money := do
  assertSameCurrency a b
  match a.amount.add b.amount with
  | .error e => .error (Signal.toExn e)
  | .ok sum => new sum a.currency

/-- `__sub__` -/
def sub (a b : Money) : Except Exn Money := do
  assertSameCurrency a b
  match a.amount.sub b.amount with
  | .error e => .error (Signal.toExn e)
  | .ok difference =>
    match difference.quantize (-2) with
    | .error e => .error (Signal.toExn e)
    | .ok resultAmount =>
      match resultAmount.lt Decimal.zero with
      | .error e => .error (Signal.toExn e)
      | .ok true => .error (.insufficientFunds a b)
      | .ok false => new resultAmount a.currency

/-- `is_zero`: `amount == Decimal("0")` -/
def isZero (m : Money) : Bool := m.cents = 0

theorem new_of_quantize_error {d : Decimal} {e : Signal} (h : d.quantize (-2) = .error e)
    (currency : Currency) : new d currency = .error (Signal.toExn e) := by
  unfold new
  split
  · rename_i e' he
    rw [h] at he
    obtain rfl := Except.error.inj he
    rfl
  · rename_i y hy
    rw [h] at hy
    cases hy

theorem new_of_negative {d y : Decimal} (hq : d.quantize (-2) = .ok y)
    (hlt : y.lt Decimal.zero = .ok true) (currency : Currency) :
    ∃ text, new d currency = .error (.valueError text) := by
  unfold new
  split
  · rename_i e he
    rw [hq] at he
    cases he
  · rename_i y' hy
    rw [hq] at hy
    obtain rfl := Except.ok.inj hy
    split
    · rename_i h
      rw [hlt] at h
      cases h
    · exact ⟨_, rfl⟩
    · rename_i h
      rw [hlt] at h
      cases h

theorem new_of_quantize {d y : Decimal} (hq : d.quantize (-2) = .ok y) (hy : y.IsHundredths)
    (currency : Currency) : new d currency = .ok ⟨y, currency, hy⟩ := by
  unfold new
  split
  · rename_i e he
    rw [hq] at he
    cases he
  · rename_i y' hy'
    rw [hq] at hy'
    obtain rfl := Except.ok.inj hy'
    split
    · rename_i h
      rw [hy.not_lt_zero] at h
      cases h
    · rename_i h
      rw [hy.not_lt_zero] at h
      cases h
    · rfl

theorem new_of_isHundredths {d : Decimal} (h : d.IsHundredths) (currency : Currency) :
    new d currency = .ok ⟨d, currency, h⟩ :=
  new_of_quantize (Decimal.quantize_of_isHundredths h) h currency

theorem new_currency {d : Decimal} {currency : Currency} {m : Money}
    (h : new d currency = .ok m) : m.currency = currency := by
  unfold new at h
  split at h
  · cases h
  · split at h
    · cases h
    · cases h
    · obtain rfl := Except.ok.inj h
      rfl

theorem new_amount {d : Decimal} {currency : Currency} {m : Money}
    (h : new d currency = .ok m) : d.quantize (-2) = .ok m.amount := by
  unfold new at h
  split at h
  · cases h
  · split at h
    · cases h
    · cases h
    · obtain rfl := Except.ok.inj h
      assumption

theorem value_amount (m : Money) : m.amount.value = m.cents / 100 := by
  obtain ⟨amount, currency, h⟩ := m
  match amount, h with
  | .finite s c e, ⟨he, hc, hs⟩ =>
    subst he
    have hcents : cents ⟨.finite s c (-2), currency, rfl, hc, hs⟩ = c := rfl
    rw [hcents]
    cases s with
    | false => norm_num [Decimal.value]; ring
    | true => simp [Decimal.value, hs rfl]

/-- An amount that is not negative zero is determined by its currency and its cents. -/
theorem eq_of_cents {m m' : Money} (hcur : m.currency = m'.currency)
    (hcents : m.cents = m'.cents) (hpos : m.cents ≠ 0) : m = m' := by
  obtain ⟨amount, currency, h⟩ := m
  obtain ⟨amount', currency', h'⟩ := m'
  match amount, h, amount', h' with
  | .finite s c e, ⟨he, hc, hs⟩, .finite s' c' e', ⟨he', hc', hs'⟩ =>
    obtain rfl : c = c' := hcents
    obtain rfl : currency = currency' := hcur
    have hsign : s = false := by
      cases s
      · rfl
      · exact absurd (hs rfl) hpos
    have hsign' : s' = false := by
      cases s'
      · rfl
      · exact absurd (hs' rfl) hpos
    subst he he' hsign hsign'
    rfl

/-- A positive amount is what was asked for, rounded half up to whole hundredths. -/
theorem value_new {d : Decimal} {currency : Currency} {m : Money} (h : new d currency = .ok m)
    (hpos : m.cents ≠ 0) : m.amount.value = (⌊100 * d.value + 1 / 2⌋₊ : ℚ) / 100 := by
  have hq := new_amount h
  rw [value_amount]
  obtain ⟨amount, cur, hm⟩ := m
  match d, amount, hm, hq with
  | .finite s c e, .finite s' c' e', ⟨he', hc', hs'⟩, hq =>
    simp only [Decimal.quantize] at hq
    split_ifs at hq with hfits
    obtain ⟨rfl, rfl, rfl⟩ : s = s' ∧ Decimal.rescale (-2) c e = c' ∧ -2 = e' := by
      simpa using hq
    have hsign : s = false := by
      cases s
      · rfl
      · exact absurd (hs' rfl) hpos
    have hvalue : (100 * (Decimal.finite s c e).value : ℚ) = c * 10 ^ e / 10 ^ (-2 : ℤ) := by
      rw [hsign, Decimal.value]
      norm_num
      ring
    rw [hvalue, ← Decimal.rescale_eq_floor]
    rfl

/-- Addition raises on different currencies and when the sum needs too many digits,
and is exact otherwise. -/
theorem add_spec (a b : Money) :
    if a.currency ≠ b.currency then a.add b = .error (.currencyMismatch a.currency b.currency)
    else if a.cents + b.cents < 10 ^ precision then
      ∃ c, a.add b = .ok c ∧ c.currency = a.currency ∧ c.cents = a.cents + b.cents
    else a.add b = .error .decimalInvalidOperation := by
  have hsum := Decimal.quantize_add a.hundredths b.hundredths
  change if a.cents + b.cents < 10 ^ precision then _ else _ at hsum
  simp only [add, assertSameCurrency]
  split_ifs with hcur hfit
  · rfl
  · rw [if_pos hfit] at hsum
    obtain ⟨z, hz, hq, hz', hcents⟩ := hsum
    simp only [hz, new_of_isHundredths hz']
    exact ⟨_, rfl, rfl, hcents⟩
  · rw [if_neg hfit] at hsum
    obtain ⟨z, hz, hq⟩ := hsum
    simp only [hz]
    exact new_of_quantize_error hq a.currency

/-- Subtraction raises on different currencies and when more is taken than there is,
and is exact otherwise. -/
theorem sub_spec (a b : Money) :
    if a.currency ≠ b.currency then a.sub b = .error (.currencyMismatch a.currency b.currency)
    else if a.cents < b.cents then a.sub b = .error (.insufficientFunds a b)
    else ∃ c, a.sub b = .ok c ∧ c.currency = a.currency ∧ c.cents + b.cents = a.cents := by
  obtain ⟨z, hz, hq, hlt, hle⟩ := Decimal.quantize_sub a.hundredths b.hundredths
  have hlt' : z.lt Decimal.zero = .ok (decide (a.cents < b.cents)) := hlt
  simp only [sub, assertSameCurrency]
  split_ifs with hcur hless
  · rfl
  · simp only [hz, hq, hlt', hless, decide_true]
    rfl
  · obtain ⟨hz', hcents⟩ := hle (not_lt.mp hless)
    simp only [hz, hq, hlt', hless, decide_false, new_of_isHundredths hz']
    refine ⟨_, rfl, rfl, ?_⟩
    have : z.hundredths + b.cents = a.cents := by
      rw [hcents]
      exact Nat.sub_add_cancel (not_lt.mp hless)
    exact this

end Money

end BankingTransactions
