import BankingTransactions.MoneyArithmetic
import BankingTransactions.SerialOutcomes
import BankingTransactions.Serializability

/-!
# Whether the columns hold what the services write

The amounts of a request become pending objects of its session and are written by
its COMMIT. `Money` accepts every amount below `10 ^ 26` and the request schemas set no
upper bound, while a `Numeric(19, 4)` column stops at `10 ^ 15`. So what is written fits
exactly when the request, and the balance that it credits, stay below that.
-/
namespace BankingTransactions
open DecimalArithmetic InteractionPrograms ThreadPools

/-- Representable with 19 digits of which four are decimals. -/
def DecimalArithmetic.Decimal.FitsColumn (d : Decimal) : Prop :=
  d.IsFinite ∧ |d.value| < 10 ^ 15 ∧ ∃ n : ℤ, d.value = n / 10 ^ 4

namespace Money

theorem fitsColumn_iff (m : Money) : m.amount.FitsColumn ↔ m.cents < 10 ^ 17 := by
  have hvalue := m.value_amount
  have hfinite : m.amount.IsFinite := by
    obtain ⟨amount, currency, h⟩ := m
    cases amount with
    | finite s c e => trivial
    | infinite s => exact h.elim
    | nan signaling => exact h.elim
  have hfour : ∃ n : ℤ, m.amount.value = n / 10 ^ 4 := by
    refine ⟨100 * m.cents, ?_⟩
    rw [hvalue]
    push_cast
    ring
  have hbound : |m.amount.value| < 10 ^ 15 ↔ m.cents < 10 ^ 17 := by
    rw [hvalue, abs_of_nonneg (by positivity), ← Nat.cast_lt (α := ℚ)]
    push_cast
    constructor <;> intro h <;> linarith
  rw [Decimal.FitsColumn, hbound]
  exact ⟨fun h => h.2.1, fun h => ⟨hfinite, h, hfour⟩⟩

/-- The column holds an amount exactly when it is representable there. -/
theorem fitsColumn_iff_store (m : Money) :
    m.amount.FitsColumn ↔ (Numeric.store m.amount).isSome := by
  rw [fitsColumn_iff, TransferCommand.store_isSome]

/-- The cents of a constructed amount, as a bound on what it was constructed from. -/
theorem cents_new_lt {d : Decimal} {currency : Currency} {m : Money}
    (h : new d currency = .ok m) (n : ℕ) : m.cents < n ↔ |d.value| + 1 / 200 < n / 100 := by
  cases d with
  | finite s c e =>
    have hspec := new_finite s c e currency
    split_ifs at hspec with hlarge hneg
    · rw [hspec] at h
      cases h
    · obtain ⟨text, hspec⟩ := hspec
      rw [hspec] at h
      cases h
    · obtain ⟨m', hspec, -, hcents⟩ := hspec
      rw [hspec] at h
      obtain rfl := Except.ok.inj h
      rw [hcents, Decimal.rescale_hundredths_lt]
  | infinite s =>
    rw [new_not_finite (by exact id)] at h
    cases h
  | nan signaling =>
    rw [new_not_finite (by exact id)] at h
    cases h

end Money

namespace Flush

/-- Every balance and every amount that is written is representable in its column. -/
def Representable (w : Flush) : Prop :=
  (∀ orm ∈ w.newAccounts ++ w.dirtyAccounts, orm.balance.FitsColumn) ∧
    ∀ orm ∈ w.newTransactions, orm.amount.FitsColumn

/-- No column refuses a value for its size. -/
def Stored (w : Flush) : Prop :=
  (∀ orm ∈ w.newAccounts ++ w.dirtyAccounts, (Numeric.store orm.balance).isSome) ∧
    ∀ orm ∈ w.newTransactions, (Numeric.store orm.amount).isSome

instance (w : Flush) : Decidable w.Stored := by
  unfold Stored
  infer_instance

end Flush

/-- The request of a thread that is about to commit, and what it is about to commit. -/
def offered (p : System) (t : RequestId) : Option (Request × Flush) :=
  match p.threads t with
  | some (r, .call (.commit w) _) => some (r, w)
  | _ => none

/-- What a request is about to commit is what it makes of the committed database. -/
theorem SystemReachable.offers {p : System} (h : SystemReachable p) {t : RequestId} {r : Request}
    {w : Flush} (ht : offered p t = some (r, w)) (hab : t ∉ p.shared.aborted) :
    r.flush p.shared.db.findAccount = .ok w := by
  obtain ⟨views, hinv, htracks⟩ := h.tracked
  have hthread := htracks t
  unfold offered at ht
  split at ht
  · rename_i r' w' k hcommit
    obtain ⟨rfl, rfl⟩ : r' = r ∧ w' = w := by simpa using ht
    rw [hcommit] at hthread
    obtain ⟨v, hv, -, hw, -⟩ := hthread
    exact Request.flush_mono (fun id row hrow => (hinv.locked hv hrow hab).2) hw
  · cases ht

/-- The amounts of a request, and the balance that it is going to credit, stay below
`10 ^ 15`. -/
def Request.FitsColumns (db : Database) : Request → Prop
  | .create _ command => |command.initialBalance.value| + 1 / 200 < 10 ^ 15
  | .transfer _ command => |command.amount.value| + 1 / 200 < 10 ^ 15 ∧
      ∀ amount sender receiver, command.money = .ok amount →
        db.findAccount command.fromAccountId = some sender →
        db.findAccount command.toAccountId = some receiver →
        sender.AcceptsDebit amount → receiver.AcceptsCredit amount →
          receiver.balance.units / 10 ^ 4 + amount.amount.value < (10 ^ 15 : ℚ)

/-- Whatever a request commits was money before it was written. -/
theorem Request.flush_money {r : Request} {find : AccountId → Option AccountRow} {w : Flush}
    (h : r.flush find = .ok w) :
    (∀ orm ∈ w.newAccounts ++ w.dirtyAccounts, ∃ m : Money, orm.balance = m.amount) ∧
      ∀ orm ∈ w.newTransactions, ∃ m : Money, orm.amount = m.amount := by
  cases r with
  | create draws command =>
    obtain ⟨a, -, rfl⟩ := Request.flush_create_ok.mp h
    simp only [Flush.empty, List.append_nil, List.mem_singleton, forall_eq, List.not_mem_nil,
      false_imp_iff, implies_true, and_true]
    exact ⟨a.balance, rfl⟩
  | transfer draws command =>
    obtain ⟨amount, senderRow, receiverRow, S, -, -, rfl⟩ := Request.flush_transfer_ok.mp h
    simp only [Settlement.flush, List.nil_append, List.mem_singleton, forall_eq]
    refine ⟨fun orm horm => ?_, S.tx.amount, rfl⟩
    cases hraised : S.raised with
    | some e => simp [hraised] at horm
    | none =>
      simp only [hraised, List.mem_cons, List.not_mem_nil, or_false] at horm
      rcases horm with rfl | rfl
      · exact ⟨S.sender.balance, rfl⟩
      · exact ⟨S.receiver.balance, rfl⟩

theorem Request.flush_representable {r : Request} {find : AccountId → Option AccountRow}
    {w : Flush} (h : r.flush find = .ok w) : w.Representable ↔ w.Stored := by
  obtain ⟨hbalances, hamounts⟩ := Request.flush_money h
  apply and_congr
  · apply forall₂_congr
    intro orm horm
    obtain ⟨m, hm⟩ := hbalances orm horm
    rw [hm, m.fitsColumn_iff_store]
  · apply forall₂_congr
    intro orm horm
    obtain ⟨m, hm⟩ := hamounts orm horm
    rw [hm, m.fitsColumn_iff_store]

theorem stored_create {draws : AccountDraws} {command : CreateAccountCommand} {w : Flush}
    {db : Database} (h : (Request.create draws command).flush db.findAccount = .ok w) :
    w.Stored ↔ (Request.create draws command).FitsColumns db := by
  obtain ⟨a, hopened, rfl⟩ := Request.flush_create_ok.mp h
  obtain ⟨currency, balance, -, hbalance, hcreate⟩ := CreateAccountCommand.opened_ok hopened
  have ha : a.balance = balance := by rw [(Account.create_ok hcreate).2]
  have hstored : Flush.Stored { Flush.empty with newAccounts := [AccountMapper.toNewOrm a] } ↔
      balance.cents < 10 ^ 17 := by
    rw [← TransferCommand.store_isSome, ← ha]
    simp [Flush.Stored, Flush.empty, AccountMapper.toNewOrm]
  rw [hstored, Money.cents_new_lt hbalance, Request.FitsColumns]
  norm_num

theorem stored_transfer {draws : TransferDraws} {command : TransferCommand} {w : Flush}
    {db : Database} (hwhole : db.Whole)
    (h : (Request.transfer draws command).flush db.findAccount = .ok w) :
    w.Stored ↔ (Request.transfer draws command).FitsColumns db := by
  obtain ⟨amount, sender, receiver, S, hmoney, hresolve, rfl⟩ := Request.flush_transfer_ok.mp h
  obtain ⟨hsender, hreceiver, a, b, tx, ha, hb, htx, hS⟩ := TransferCommand.resolve_ok.mp hresolve
  obtain ⟨cs, hcs⟩ := hwhole.of_find hsender
  obtain ⟨cr, hcr⟩ := hwhole.of_find hreceiver
  rw [AccountMapper.toDomain_load hcs] at ha
  rw [AccountMapper.toDomain_load hcr] at hb
  obtain rfl := Except.ok.inj ha
  obtain rfl := Except.ok.inj hb
  obtain ⟨currency, -, hamount⟩ := bind_eq_ok.mp hmoney
  have hstored : (S.flush sender receiver).Stored ↔
      (∀ o ∈ (S.flush sender receiver).dirtyAccounts, (Numeric.store o.balance).isSome) ∧
        (Numeric.store S.tx.amount.amount).isSome := by
    simp [Flush.Stored, Settlement.flush, TransactionMapper.toNewOrm]
  have hinput : amount.cents < 10 ^ 17 ↔ |command.amount.value| + 1 / 200 < 10 ^ 15 := by
    rw [Money.cents_new_lt hamount]
    norm_num
  have hcredit : receiver.balance.units + 100 * amount.cents < 10 ^ 19 ↔
      receiver.balance.units / 10 ^ 4 + amount.amount.value < (10 ^ 15 : ℚ) := by
    rw [Money.value_amount, ← Int.cast_lt (R := ℚ)]
    push_cast
    constructor <;> intro h <;> linarith
  rw [hstored, TransferCommand.amounts_storable_iff hcs hcr htx hS, hinput, hcredit]
  apply and_congr_right
  intro _
  constructor
  · intro hfits amount' sender' receiver' hmoney' hsender' hreceiver'
    rw [hmoney] at hmoney'
    rw [hsender] at hsender'
    rw [hreceiver] at hreceiver'
    obtain rfl := Except.ok.inj hmoney'
    obtain rfl := Option.some.inj hsender'
    obtain rfl := Option.some.inj hreceiver'
    exact hfits
  · intro hfits
    exact hfits amount sender receiver hmoney hsender hreceiver

/-- In every run, what a request is about to commit is representable, and refused by no
column for its size, exactly when its amounts and the balance it credits stay below
`10 ^ 15`. -/
theorem handed_representable_iff {p : System} (h : SystemReachable p) {t : RequestId}
    {r : Request} {w : Flush} (ht : offered p t = some (r, w)) (hab : t ∉ p.shared.aborted) :
    (w.Representable ↔ r.FitsColumns p.shared.db) ∧ (w.Stored ↔ r.FitsColumns p.shared.db) := by
  have hw := h.offers ht hab
  have hstored : w.Stored ↔ r.FitsColumns p.shared.db := by
    cases r with
    | create draws command => exact stored_create hw
    | transfer draws command => exact stored_transfer h.whole hw
  exact ⟨(Request.flush_representable hw).trans hstored, hstored⟩

namespace Sample

/-- Open an account with `10 ^ 15` EUR. -/
def fortune : Request :=
  .create ⟨1, 0, 0, fun _ => Fin.last 9, (moment 0).stamp⟩ ⟨9, "EUR", .finite false 1 15⟩

/-- The account of a fortune is about to be committed. -/
def enriched : System :=
  replay Server.host.step (Pool.empty (Server.quiet .empty)) (served 0 fortune 1)
    (by decide +kernel)

theorem enriched_reachable : SystemReachable enriched := reachable_replay _

theorem enriched_offers : ∃ w, offered enriched 0 = some (fortune, w) ∧ ¬ w.Stored := by
  have hoffered : (offered enriched 0).any (fun x => x.1 = fortune ∧ ¬ x.2.Stored) = true := by
    decide +kernel
  rw [Option.any_eq_true] at hoffered
  obtain ⟨⟨r, w⟩, hw, hx⟩ := hoffered
  simp only [decide_eq_true_eq] at hx
  exact ⟨w, hx.1 ▸ hw, hx.2⟩

end Sample

/-- The opening is refused for its size. -/
theorem fortune_not_representable : ∃ w, offered Sample.enriched 0 = some (Sample.fortune, w) ∧
    SystemReachable Sample.enriched ∧ ¬ w.Representable ∧ ¬ w.Stored := by
  obtain ⟨w, hw, hstored⟩ := Sample.enriched_offers
  have hflush := Sample.enriched_reachable.offers hw (by decide +kernel)
  exact ⟨w, hw, Sample.enriched_reachable, mt (Request.flush_representable hflush).mp hstored,
    hstored⟩

theorem handed_representable_sample : ∃ w, offered Sample.enriched 0 = some (Sample.fortune, w) ∧
    ((w.Representable ↔ Sample.fortune.FitsColumns Sample.enriched.shared.db) ∧
      (w.Stored ↔ Sample.fortune.FitsColumns Sample.enriched.shared.db)) := by
  obtain ⟨w, hw, -⟩ := Sample.enriched_offers
  exact ⟨w, hw, handed_representable_iff Sample.enriched_reachable hw (by decide +kernel)⟩

end BankingTransactions
