import BankingTransactions.Aggregates
import BankingTransactions.DecimalText
import BankingTransactions.GregorianCalendar
import BankingTransactions.JsonText

/-!
# The payload of an event

`to_dict` and `to_json` of a domain event, whose text goes into the outbox. Identifiers, times
and decimals are written as strings. Whoever reads the text as JSON gets the dictionary back, and
no two events share a text.
-/
namespace BankingTransactions
open DecimalArithmetic GregorianCalendar JsonText

/-! ## Texts of a fixed width -/

/-- `"%0kd"` -/
def padded (k n : ℕ) : List Char := List.replicate (k - (digits n).length) '0' ++ digits n

theorem length_padded {k n : ℕ} (hk : 0 < k) (h : n < 10 ^ k) : (padded k n).length = k := by
  have hlength : (digits n).length ≤ k := (Nat.length_toDigits_le_iff (by decide) hk).mpr h
  rw [padded, List.length_append, List.length_replicate]
  omega

/-- A number of this width and what follows it can be read from the text. -/
theorem padded_append_inj {k m n : ℕ} {x y : List Char} (hk : 0 < k) (hm : m < 10 ^ k)
    (hn : n < 10 ^ k) (h : padded k m ++ x = padded k n ++ y) : m = n ∧ x = y := by
  have hlength : (padded k m).length = (padded k n).length := by
    rw [length_padded hk hm, length_padded hk hn]
  obtain ⟨hpadded, hrest⟩ := List.append_inj h hlength
  refine ⟨?_, hrest⟩
  have hvalue := ofDigitChars_zeros (k - (digits m).length) m
  change Nat.ofDigitChars 10 (padded k m) 0 = m at hvalue
  rw [hpadded] at hvalue
  exact hvalue.symm.trans (ofDigitChars_zeros _ n)

/-! ## Times -/

namespace Time

variable (t : Time)

/-- The number of the day, counted from 1 January of the year 1. Times are counted from 1970. -/
def ordinal : ℤ := t / 86400000000 + 719163

/-- The microseconds since midnight. -/
def ofDay : ℕ := (t % 86400000000).toNat

/-- A `datetime` can be this time. -/
def Representable : Prop := 1 ≤ t.ordinal ∧ t.ordinal ≤ 3652059

instance : Decidable t.Representable := by
  unfold Representable
  infer_instance

def date : Date := ord2ymd t.ordinal.toNat

/-- The fraction of a second is left out when there is none. -/
def fractionText : List Char :=
  (if t.ofDay % 1000000 = 0 then [] else '.' :: padded 6 (t.ofDay % 1000000)) ++ "+00:00".toList

/-- `t.isoformat()`, for a time in UTC -/
def isoformat : String := String.ofList
  (padded 4 t.date.year ++ '-' :: (padded 2 t.date.month ++ '-' :: (padded 2 t.date.day ++
    'T' :: (padded 2 (t.ofDay / 3600000000) ++ ':' :: (padded 2 (t.ofDay / 60000000 % 60) ++
      ':' :: (padded 2 (t.ofDay / 1000000 % 60) ++ t.fractionText))))))

variable {t} {t' : Time}

theorem ofDay_lt (t : Time) : t.ofDay < 86400000000 := by
  unfold ofDay
  omega

theorem fractionText_injective (h : t.fractionText = t'.fractionText) :
    t.ofDay % 1000000 = t'.ofDay % 1000000 := by
  unfold fractionText at h
  split_ifs at h with hz hz' hz'
  · omega
  · cases (List.cons.inj h).1
  · cases (List.cons.inj h).1
  · exact (padded_append_inj (by decide) (Nat.mod_lt _ (by decide)) (Nat.mod_lt _ (by decide))
      (List.cons.inj h).2).1

theorem eq_of_date (h : t.Representable) (h' : t'.Representable) (hdate : t.date = t'.date)
    (hday : t.ofDay = t'.ofDay) : t = t' := by
  obtain ⟨hlow, -⟩ := h
  obtain ⟨hlow', -⟩ := h'
  have hord : ymd2ord t.date = t.ordinal.toNat := ymd2ord_ord2ymd (by omega)
  have hord' : ymd2ord t'.date = t'.ordinal.toNat := ymd2ord_ord2ymd (by omega)
  rw [hdate, hord'] at hord
  simp only [ordinal] at hord hlow hlow'
  simp only [ofDay] at hday
  change @Eq ℤ t t'
  omega

theorem Representable.bounds (h : t.Representable) :
    t.date.year < 10000 ∧ t.date.month < 100 ∧ t.date.day < 100 := by
  obtain ⟨hlow, hhigh⟩ := h
  exact ord2ymd_bounds (by omega) (by omega)

/-- Different times have different texts. -/
theorem isoformat_injective (h : t.Representable) (h' : t'.Representable)
    (htext : t.isoformat = t'.isoformat) : t = t' := by
  have hlt := ofDay_lt t
  have hlt' := ofDay_lt t'
  obtain ⟨hy, hm, hd⟩ := h.bounds
  obtain ⟨hy', hm', hd'⟩ := h'.bounds
  have htext := String.ofList_inj.mp htext
  obtain ⟨hyear, htext⟩ := padded_append_inj (by decide) hy hy' htext
  obtain ⟨hmonth, htext⟩ := padded_append_inj (by decide) hm hm' (List.cons.inj htext).2
  obtain ⟨hday, htext⟩ := padded_append_inj (by decide) hd hd' (List.cons.inj htext).2
  obtain ⟨hhour, htext⟩ := padded_append_inj (by decide) (by omega) (by omega)
    (List.cons.inj htext).2
  obtain ⟨hminute, htext⟩ := padded_append_inj (by decide) (by omega) (by omega)
    (List.cons.inj htext).2
  obtain ⟨hsecond, htext⟩ := padded_append_inj (by decide) (by omega) (by omega)
    (List.cons.inj htext).2
  have hmicrosecond := fractionText_injective htext
  apply eq_of_date h h'
  · cases hcase : t.date
    cases hcase' : t'.date
    simp_all [date]
  · omega

end Time

/-! ## Dictionaries -/

/-- A value of the dictionary that `to_dict` makes: decimals are left to `json.dumps`. -/
inductive PayloadValue where
  | str (s : String)
  | decimal (d : Decimal)
  | bool (b : Bool)
  | dict

/-- What `json.dumps` writes for it, with `default=str`. The dictionary is the empty one. -/
def PayloadValue.json : PayloadValue → Json
  | str s => .str s
  | decimal d => .str d.str
  | bool b => .bool b
  | dict => .obj []

def PayloadValue.uuid (u : UUID) : PayloadValue := .str u.str

/-- The fields of the class of the event, after those of its base class. -/
def EventBody.fields : EventBody → List (String × PayloadValue)
  | accountCreated accountId ownerId currency initialBalance =>
    [("account_id", .uuid accountId), ("owner_id", .uuid ownerId), ("currency", .str currency),
      ("initial_balance", .decimal initialBalance)]
  | balanceDebited accountId transactionId amount currency balanceAfter =>
    [("account_id", .uuid accountId), ("transaction_id", .uuid transactionId),
      ("amount", .decimal amount), ("currency", .str currency),
      ("balance_after", .decimal balanceAfter)]
  | balanceCredited accountId transactionId amount currency balanceAfter =>
    [("account_id", .uuid accountId), ("transaction_id", .uuid transactionId),
      ("amount", .decimal amount), ("currency", .str currency),
      ("balance_after", .decimal balanceAfter)]
  | accountFrozen accountId ownerId reason =>
    [("account_id", .uuid accountId), ("owner_id", .uuid ownerId), ("reason", .str reason)]
  | accountUnfrozen accountId ownerId =>
    [("account_id", .uuid accountId), ("owner_id", .uuid ownerId)]
  | accountClosed accountId ownerId =>
    [("account_id", .uuid accountId), ("owner_id", .uuid ownerId)]
  | transactionInitiated transactionId fromAccountId toAccountId amount currency idempotencyKey =>
    [("transaction_id", .uuid transactionId), ("from_account_id", .uuid fromAccountId),
      ("to_account_id", .uuid toAccountId), ("amount", .decimal amount),
      ("currency", .str currency), ("idempotency_key", .str idempotencyKey)]
  | transactionProcessing transactionId fromAccountId toAccountId amount currency =>
    [("transaction_id", .uuid transactionId), ("from_account_id", .uuid fromAccountId),
      ("to_account_id", .uuid toAccountId), ("amount", .decimal amount),
      ("currency", .str currency)]
  | transactionCompleted transactionId fromAccountId toAccountId amount currency =>
    [("transaction_id", .uuid transactionId), ("from_account_id", .uuid fromAccountId),
      ("to_account_id", .uuid toAccountId), ("amount", .decimal amount),
      ("currency", .str currency)]
  | transactionFailed transactionId fromAccountId toAccountId amount currency failureCode
      failureReason rollbackRequired =>
    [("transaction_id", .uuid transactionId), ("from_account_id", .uuid fromAccountId),
      ("to_account_id", .uuid toAccountId), ("amount", .decimal amount),
      ("currency", .str currency), ("failure_code", .str failureCode),
      ("failure_reason", .str failureReason), ("rollback_required", .bool rollbackRequired)]
  | transactionRolledBack transactionId fromAccountId amount currency =>
    [("transaction_id", .uuid transactionId), ("from_account_id", .uuid fromAccountId),
      ("amount", .decimal amount), ("currency", .str currency)]

namespace DomainEvent

variable (e : DomainEvent)

/-- The dictionary `metadata` is empty in every event that an aggregate records. -/
def toDict : List (String × PayloadValue) :=
  [("event_id", .uuid e.eventId), ("occurred_at", .str e.occurredAt.isoformat),
    ("metadata", .dict)] ++ e.body.fields ++ [("event_type", .str e.eventType)]

/-- The dictionary as JSON. -/
def json : Json := .obj (e.toDict.map fun (key, value) => (key, value.json))

def toJson : String := dumps e.json

end DomainEvent

/-! ## Reading a payload -/

/-- The keys of the dictionary are distinct. -/
theorem DomainEvent.nodup_keys (e : DomainEvent) : (e.toDict.map (·.1)).Nodup := by
  obtain ⟨eventId, occurredAt, body⟩ := e
  cases body <;> simp [DomainEvent.toDict, EventBody.fields]

/-- The class and the fields determine what has happened. -/
theorem EventBody.eq_of_fields {e e' : DomainEvent} (htype : e.eventType = e'.eventType)
    (hfields : e.body.fields.map (fun x => (x.1, x.2.json)) =
      e'.body.fields.map fun x => (x.1, x.2.json)) : e.body = e'.body := by
  obtain ⟨eventId, occurredAt, body⟩ := e
  obtain ⟨eventId', occurredAt', body'⟩ := e'
  simp only at hfields ⊢
  -- two classes have different names, and the fields of one class have injective texts
  cases body <;> cases body' <;> first
    | (simp [DomainEvent.eventType] at htype; done)
    | simpa [EventBody.fields, PayloadValue.json, PayloadValue.uuid, UUID.str_injective.eq_iff,
        Decimal.str_injective.eq_iff] using hfields

theorem DomainEvent.eq_of_json {e e' : DomainEvent} (h : e.occurredAt.Representable)
    (h' : e'.occurredAt.Representable) (hjson : e.json = e'.json) : e = e' := by
  have hmembers := Json.obj.inj hjson
  simp only [DomainEvent.toDict, List.map_append, List.append_assoc] at hmembers
  obtain ⟨hbase, hrest⟩ := List.append_inj hmembers rfl
  obtain ⟨hfields, htype⟩ := List.append_inj' hrest rfl
  simp only [List.map_cons, List.map_nil, List.cons.injEq, Prod.mk.injEq, PayloadValue.uuid,
    PayloadValue.json, Json.str.injEq, and_true, true_and] at hbase htype
  obtain ⟨hid, htime⟩ := hbase
  have hbody := EventBody.eq_of_fields htype hfields
  obtain ⟨eventId, occurredAt, body⟩ := e
  obtain ⟨eventId', occurredAt', body'⟩ := e'
  obtain rfl := UUID.str_injective hid
  obtain rfl := Time.isoformat_injective h h' htime
  cases hbody
  rfl

/-- Whoever reads a payload as JSON gets the dictionary of the event, whose keys are distinct, and
two events with one payload are the same event, id, time, class and all fields included: the
outbox loses nothing of an event. -/
theorem payload_faithful {e e' : DomainEvent} (h : e.occurredAt.Representable)
    (h' : e'.occurredAt.Representable) :
    loads e.toJson = some (.obj (e.toDict.map fun x => (x.1, x.2.json))) ∧
      (e.toDict.map (·.1)).Nodup ∧ (e.toJson = e'.toJson ↔ e = e') := by
  refine ⟨loads_dumps e.json, e.nodup_keys, fun htext => ?_, fun hsame => hsame ▸ rfl⟩
  exact DomainEvent.eq_of_json h h' (dumps_injective htext)

theorem payload_faithful_sample :
    loads (⟨1, 86400000001, .accountUnfrozen 2 3⟩ : DomainEvent).toJson =
      some (.obj ((⟨1, 86400000001, .accountUnfrozen 2 3⟩ : DomainEvent).toDict.map
        fun x => (x.1, x.2.json))) ∧
    ((⟨1, 86400000001, .accountUnfrozen 2 3⟩ : DomainEvent).toDict.map (·.1)).Nodup ∧
    ((⟨1, 86400000001, .accountUnfrozen 2 3⟩ : DomainEvent).toJson =
      (⟨1, 86400000002, .accountUnfrozen 2 3⟩ : DomainEvent).toJson ↔
        (⟨1, 86400000001, .accountUnfrozen 2 3⟩ : DomainEvent) =
          ⟨1, 86400000002, .accountUnfrozen 2 3⟩) :=
  payload_faithful (by decide) (by decide)

end BankingTransactions
