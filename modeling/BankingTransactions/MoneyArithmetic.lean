import BankingTransactions.ValueObjects

/-!
# What `Money` accepts and how it computes

The constructor over every argument it can be given, the comparisons, and the laws
of the arithmetic. `__post_init__` rounds before it looks at the sign, and only the
conversion of other types is guarded, so that an amount that rounds to negative zero
passes and one that `quantize` refuses raises the error of `decimal`. Between two
amounts that were accepted every operation is exact to the cent.
-/
namespace BankingTransactions
open DecimalArithmetic

namespace DecimalArithmetic.Decimal

/-- Neither a NaN nor an infinity. -/
def IsFinite : Decimal → Prop
  | finite _ _ _ => True
  | _ => False

theorem abs_value_finite (s : Bool) (c : ℕ) (e : ℤ) : |(finite s c e).value| = c * 10 ^ e := by
  have hpos : (0 : ℚ) ≤ c * 10 ^ e := by positivity
  cases s
  · simp [value, abs_of_nonneg hpos]
  · rw [← abs_neg]
    simp [value, abs_of_nonneg hpos]

theorem value_finite_neg (s : Bool) (c : ℕ) (e : ℤ) :
    (finite s c e).value < 0 ↔ s = true ∧ c ≠ 0 := by
  have hpow : (0 : ℚ) < 10 ^ e := by positivity
  cases s
  · simp only [value, Bool.false_eq_true, if_false, one_mul, false_and, iff_false, not_lt]
    positivity
  · simp only [value, if_true, neg_mul, one_mul, true_and]
    rw [neg_neg_iff_pos, mul_pos_iff_of_pos_right hpow, Nat.cast_pos, Nat.pos_iff_ne_zero]

/-- The hundredths of a rounded number, as a bound on the number. -/
theorem rescale_hundredths_lt (s : Bool) (c : ℕ) (e : ℤ) (n : ℕ) :
    rescale (-2) c e < n ↔ |(finite s c e).value| + 1 / 200 < n / 100 := by
  rw [rescale_lt_iff, abs_value_finite]
  have hscale : (c * 10 ^ e / 10 ^ (-2 : ℤ) : ℚ) = 100 * (c * 10 ^ e) := by
    norm_num
    ring
  rw [hscale]
  constructor <;> intro h <;> linarith

theorem lt_zero_hundredths (s : Bool) (c : ℕ) :
    (finite s c (-2)).lt zero = .ok (s && decide (c ≠ 0)) := by
  cases s <;> simp [lt, zero, aligned, Nat.pos_iff_ne_zero]

end DecimalArithmetic.Decimal

/-! ## Construction -/

/-- The argument `amount`: a `Decimal`, or another value, of which its `str` is read
and its `repr` is quoted. -/
inductive AmountArgument where
  | decimal (d : Decimal)
  | other (str repr : String)

namespace AmountArgument

/-- The number that is rounded; `decimalOf` is `Decimal(text)`, which refuses some texts. -/
def number (decimalOf : String → Option Decimal) : AmountArgument → Option Decimal
  | decimal d => some d
  | other str _ => decimalOf str

end AmountArgument

namespace Money

/-- `Money(amount, currency)` for an amount of any type. -/
def ofArgument (decimalOf : String → Option Decimal) (amount : AmountArgument)
    (currency : Currency) : Except Exn Money :=
  match amount with
  | .decimal d => new d currency
  | .other str repr =>
    match decimalOf str with
    | some d => new d currency
    | none => .error (.valueError ("Invalid monetary amount: " ++ repr))

/-- The three ways in which the construction from a finite number ends. -/
theorem new_finite (s : Bool) (c : ℕ) (e : ℤ) (currency : Currency) :
    if 10 ^ precision ≤ Decimal.rescale (-2) c e then
      new (.finite s c e) currency = .error .decimalInvalidOperation
    else if s = true ∧ Decimal.rescale (-2) c e ≠ 0 then
      ∃ text, new (.finite s c e) currency = .error (.valueError text)
    else ∃ m, new (.finite s c e) currency = .ok m ∧ m.currency = currency ∧
      m.cents = Decimal.rescale (-2) c e := by
  set k := Decimal.rescale (-2) c e with hk
  have hq : Decimal.quantize (-2) (.finite s c e) =
      if k < 10 ^ precision then .ok (.finite s k (-2)) else .error .invalidOperation := rfl
  split_ifs with hlarge hneg
  · rw [if_neg (not_lt.mpr hlarge)] at hq
    exact new_of_quantize_error hq currency
  · rw [if_pos (not_le.mp hlarge)] at hq
    apply new_of_negative hq
    simp [Decimal.lt_zero_hundredths, hneg]
  · rw [if_pos (not_le.mp hlarge)] at hq
    have hcents : (Decimal.finite s k (-2)).IsHundredths := by
      refine ⟨rfl, not_le.mp hlarge, fun hs => ?_⟩
      by_contra hne
      exact hneg ⟨hs, hne⟩
    exact ⟨_, new_of_quantize hq hcents currency, rfl, rfl⟩

theorem new_not_finite {d : Decimal} (h : ¬ d.IsFinite) (currency : Currency) :
    new d currency = .error .decimalInvalidOperation := by
  cases d with
  | finite s c e => exact absurd trivial h
  | infinite s => rfl
  | nan signaling => cases signaling <;> rfl

/-- What is promised of the constructor: the amount rounded half up to hundredths, or a
`ValueError`, and the latter exactly for what is not a finite number or is below zero. -/
def Total (decimalOf : String → Option Decimal) (amount : AmountArgument) (currency : Currency) :
    Prop :=
  match ofArgument decimalOf amount currency with
  | .ok m => m.currency = currency ∧ ∃ d, amount.number decimalOf = some d ∧ d.IsFinite ∧
      0 ≤ d.value ∧ m.amount.value = ⌊100 * d.value + 1 / 2⌋₊ / 100
  | .error e => (∃ text, e = .valueError text) ∧
      ∀ d, amount.number decimalOf = some d → d.IsFinite → d.value < 0

/-- A finite number that `quantize` can round, and does not round up to zero. -/
def Rounds (d : Decimal) : Prop :=
  d.IsFinite ∧ |d.value| + 1 / 200 < 10 ^ 26 ∧ (d.value < 0 → d.value ≤ -1 / 200)

theorem rounds_finite (s : Bool) (c : ℕ) (e : ℤ) :
    Rounds (.finite s c e) ↔ Decimal.rescale (-2) c e < 10 ^ precision ∧
      ((Decimal.finite s c e).value < 0 → Decimal.rescale (-2) c e ≠ 0) := by
  have hbound := Decimal.rescale_hundredths_lt s c e (10 ^ precision)
  have hone := Decimal.rescale_hundredths_lt s c e 1
  rw [Nat.lt_one_iff] at hone
  simp only [Rounds, Decimal.IsFinite, true_and]
  apply and_congr
  · rw [hbound]
    norm_num [precision]
  · apply imp_congr_right
    intro hneg
    rw [ne_eq, hone, abs_of_neg hneg, not_lt]
    norm_num
    constructor <;> intro h <;> linarith

/-- The promise holds of a decimal exactly when it rounds, to a number that is negative
when the decimal is. -/
theorem total_decimal (decimalOf : String → Option Decimal) (d : Decimal) (currency : Currency) :
    Total decimalOf (.decimal d) currency ↔ Rounds d := by
  have hnumber (d' : Decimal) : (AmountArgument.decimal d).number decimalOf = some d' ↔ d' = d := by
    simp [AmountArgument.number, eq_comm]
  by_cases hfinite : d.IsFinite
  · match d, hfinite with
    | .finite s c e, _ =>
      have hneg := Decimal.value_finite_neg s c e
      have hnew := new_finite s c e currency
      have hfloor : 0 ≤ (Decimal.finite s c e).value →
          Decimal.rescale (-2) c e = ⌊100 * (Decimal.finite s c e).value + 1 / 2⌋₊ := by
        intro hpos
        rw [← abs_of_nonneg hpos, Decimal.abs_value_finite, Decimal.rescale_eq_floor]
        norm_num
        ring_nf
      simp only [Total, ofArgument, hnumber]
      rw [rounds_finite]
      split_ifs at hnew with hlarge hdown
      · rw [hnew]
        exact iff_of_false (by simp) (fun h => absurd h.1 (not_lt.mpr hlarge))
      · obtain ⟨text, hnew⟩ := hnew
        have hzero : c ≠ 0 := by
          intro hc
          apply hdown.2
          rw [hc, ← Nat.lt_one_iff, Decimal.rescale_lt_iff]
          norm_num
        rw [hnew]
        refine iff_of_true ⟨⟨text, rfl⟩, ?_⟩ ⟨not_le.mp hlarge, fun _ => hdown.2⟩
        intro d hd _
        rw [hd]
        exact hneg.mpr ⟨hdown.1, hzero⟩
      · obtain ⟨m, hnew, hcurrency, hcents⟩ := hnew
        rw [hnew]
        by_cases hsign : (Decimal.finite s c e).value < 0
        · have hdown' : Decimal.rescale (-2) c e = 0 := by
            by_contra hne
            exact hdown ⟨(hneg.mp hsign).1, hne⟩
          refine iff_of_false ?_ (fun h => h.2 hsign hdown')
          rintro ⟨-, d, rfl, -, hpos, -⟩
          exact absurd hsign (not_lt.mpr hpos)
        · have hpos := not_lt.mp hsign
          refine iff_of_true ⟨hcurrency, _, rfl, trivial, hpos, ?_⟩
            ⟨not_le.mp hlarge, fun h => absurd h hsign⟩
          rw [value_amount, hcents, hfloor hpos]
  · refine iff_of_false ?_ (fun h => hfinite h.1)
    simp [Total, ofArgument, new_not_finite hfinite]

/-- The constructor keeps its promise exactly on texts that are no numbers and on
numbers that round. -/
theorem money_total_iff (decimalOf : String → Option Decimal) (amount : AmountArgument)
    (currency : Currency) :
    Total decimalOf amount currency ↔ ∀ d, amount.number decimalOf = some d → Rounds d := by
  cases amount with
  | decimal d =>
    rw [total_decimal]
    simp [AmountArgument.number]
  | other str repr =>
    cases hparse : decimalOf str with
    | none => simp [Total, ofArgument, AmountArgument.number, hparse]
    | some d =>
      have hsame : Total decimalOf (.other str repr) currency ↔
          Total decimalOf (.decimal d) currency := by
        simp [Total, ofArgument, AmountArgument.number, hparse]
      rw [hsame, total_decimal]
      simp [AmountArgument.number, hparse]

/-- A NaN and `10 ^ 26` raise `InvalidOperation`, and `-0.004` is accepted. -/
theorem money_not_total :
    ¬ Total (fun _ => none) (.decimal (.nan false)) .EUR ∧
    ¬ Total (fun _ => none) (.decimal (.finite false 1 26)) .EUR ∧
    ¬ Total (fun _ => none) (.decimal (.finite true 4 (-3))) .EUR := by
  refine ⟨?_, ?_, ?_⟩ <;> rw [total_decimal]
  · exact fun h => h.1
  · intro h
    have hbound := h.2.1
    norm_num [Decimal.value] at hbound
  · intro h
    have hneg := h.2.2
    norm_num [Decimal.value] at hneg

/-! ## Comparison and equality -/

/-- A comparison of the amounts, once the currencies agree. -/
def compare (test : Decimal → Decimal → Except Signal Bool) (a b : Money) : Except Exn Bool := do
  assertSameCurrency a b
  match test a.amount b.amount with
  | .error e => .error (Signal.toExn e)
  | .ok r => .ok r

/-- `__lt__` -/
def lt (a b : Money) : Except Exn Bool := compare Decimal.lt a b

/-- `__le__` -/
def le (a b : Money) : Except Exn Bool := compare Decimal.le a b

/-- `__gt__` -/
def gt (a b : Money) : Except Exn Bool := compare (fun x y => y.lt x) a b

/-- `__ge__` -/
def ge (a b : Money) : Except Exn Bool := compare (fun x y => y.le x) a b

theorem compare_mismatch {a b : Money} (h : a.currency ≠ b.currency)
    (test : Decimal → Decimal → Except Signal Bool) :
    compare test a b = .error (.currencyMismatch a.currency b.currency) := by
  simp only [compare, assertSameCurrency, if_pos h]
  rfl

theorem compare_same {a b : Money} (h : a.currency = b.currency) {r : Bool}
    {test : Decimal → Decimal → Except Signal Bool} (htest : test a.amount b.amount = .ok r) :
    compare test a b = .ok r := by
  simp only [compare, assertSameCurrency, h, ne_eq, not_true_eq_false, if_false, htest]
  rfl

/-- `==`: the same currency and the same number. Zero equals negative zero. -/
def Equal (a b : Money) : Prop := a.currency = b.currency ∧ a.amount.value = b.amount.value

theorem value_lt_iff (a b : Money) : a.amount.value < b.amount.value ↔ a.cents < b.cents := by
  rw [value_amount, value_amount, div_lt_div_iff_of_pos_right (by norm_num), Nat.cast_lt]

theorem value_le_iff (a b : Money) : a.amount.value ≤ b.amount.value ↔ a.cents ≤ b.cents := by
  rw [← not_lt, value_lt_iff, not_lt]

theorem equal_iff (a b : Money) : a.Equal b ↔ a.currency = b.currency ∧ a.cents = b.cents := by
  have hvalue : a.amount.value = b.amount.value ↔ a.cents = b.cents := by
    rw [le_antisymm_iff, value_le_iff, value_le_iff, ← le_antisymm_iff]
  rw [Equal, hvalue]

/-! ## Laws of the arithmetic -/

theorem add_of_fits {a b : Money} (h : a.currency = b.currency)
    (hfits : a.cents + b.cents < 10 ^ precision) :
    ∃ s, a.add b = .ok s ∧ s.currency = a.currency ∧ s.cents = a.cents + b.cents := by
  have hspec := add_spec a b
  rwa [if_neg (not_not.mpr h), if_pos hfits] at hspec

theorem add_of_not_fits {a b : Money} (h : a.currency = b.currency)
    (hfits : ¬ a.cents + b.cents < 10 ^ precision) :
    a.add b = .error .decimalInvalidOperation := by
  have hspec := add_spec a b
  rwa [if_neg (not_not.mpr h), if_neg hfits] at hspec

theorem add_ok {a b s : Money} (h : a.add b = .ok s) : a.currency = b.currency ∧
    s.currency = a.currency ∧ s.cents = a.cents + b.cents ∧
    a.cents + b.cents < 10 ^ precision := by
  have hspec := add_spec a b
  split_ifs at hspec with hcurrency hfits
  · rw [hspec] at h
    cases h
  · obtain ⟨s', hs', hcur, hcents⟩ := hspec
    rw [hs'] at h
    obtain rfl := Except.ok.inj h
    exact ⟨not_not.mp hcurrency, hcur, hcents, hfits⟩
  · rw [hspec] at h
    cases h

theorem sub_of_le {a b : Money} (h : a.currency = b.currency) (hle : b.cents ≤ a.cents) :
    ∃ d, a.sub b = .ok d ∧ d.currency = a.currency ∧ d.cents + b.cents = a.cents := by
  have hspec := sub_spec a b
  rwa [if_neg (not_not.mpr h), if_neg (not_lt.mpr hle)] at hspec

theorem sub_of_lt {a b : Money} (h : a.currency = b.currency) (hlt : a.cents < b.cents) :
    a.sub b = .error (.insufficientFunds a b) := by
  have hspec := sub_spec a b
  rwa [if_neg (not_not.mpr h), if_pos hlt] at hspec

theorem lt_same {a b : Money} (h : a.currency = b.currency) :
    a.lt b = .ok (decide (a.cents < b.cents)) :=
  compare_same h (a.hundredths.lt_eq b.hundredths)

theorem le_same {a b : Money} (h : a.currency = b.currency) :
    a.le b = .ok (decide (a.cents ≤ b.cents)) :=
  compare_same h (a.hundredths.le_eq b.hundredths)

theorem gt_same {a b : Money} (h : a.currency = b.currency) :
    a.gt b = .ok (decide (b.cents < a.cents)) :=
  compare_same h (b.hundredths.lt_eq a.hundredths)

theorem ge_same {a b : Money} (h : a.currency = b.currency) :
    a.ge b = .ok (decide (b.cents ≤ a.cents)) :=
  compare_same h (b.hundredths.le_eq a.hundredths)

/-- The sum of three amounts, bracketed either way, is there when it fits. -/
theorem add_add_ok {a b c s : Money} (h : (do (← a.add b).add c) = .ok s) :
    ∃ s', (do a.add (← b.add c)) = .ok s' ∧ s.Equal s' := by
  obtain ⟨x, hx, hs⟩ := bind_eq_ok.mp h
  obtain ⟨hab, hxa, hxcents, -⟩ := add_ok hx
  obtain ⟨hxc, hsx, hscents, hfits⟩ := add_ok hs
  have hbc : b.currency = c.currency := hab.symm.trans (hxa.symm.trans hxc)
  obtain ⟨y, hy, hyb, hycents⟩ := add_of_fits hbc (by omega)
  obtain ⟨s', hs', hsa, hs'cents⟩ := add_of_fits (hab.trans hyb.symm) (by omega)
  refine ⟨s', bind_eq_ok.mpr ⟨y, hy, hs'⟩, (equal_iff s s').mpr ⟨?_, ?_⟩⟩
  · rw [hsx, hxa, hsa]
  · omega

theorem add_add_ok' {a b c s : Money} (h : (do a.add (← b.add c)) = .ok s) :
    ∃ s', (do (← a.add b).add c) = .ok s' ∧ s.Equal s' := by
  obtain ⟨y, hy, hs⟩ := bind_eq_ok.mp h
  obtain ⟨hbc, hyb, hycents, -⟩ := add_ok hy
  obtain ⟨hay, hsa, hscents, hfits⟩ := add_ok hs
  have hab : a.currency = b.currency := hay.trans hyb
  obtain ⟨x, hx, hxa, hxcents⟩ := add_of_fits hab (by omega)
  have hxc : x.currency = c.currency := hxa.trans (hab.trans hbc)
  obtain ⟨s', hs', hs'x, hs'cents⟩ := add_of_fits hxc (by omega)
  refine ⟨s', bind_eq_ok.mpr ⟨x, hx, hs'⟩, (equal_iff s s').mpr ⟨?_, ?_⟩⟩
  · rw [hsa, hs'x, hxa]
  · omega

/-- What holds of two amounts of one currency. -/
structure ExactToTheCent (a b : Money) : Prop where
  add : ∀ s, a.add b = .ok s →
    s.currency = a.currency ∧ s.amount.value = a.amount.value + b.amount.value
  addRaises : (∃ e, a.add b = .error e) ↔ 10 ^ 26 ≤ a.amount.value + b.amount.value
  less : a.lt b = .ok (decide (a.amount.value < b.amount.value))
  lessEqual : a.le b = .ok (decide (a.amount.value ≤ b.amount.value))
  greater : a.gt b = .ok (decide (b.amount.value < a.amount.value))
  greaterEqual : a.ge b = .ok (decide (b.amount.value ≤ a.amount.value))
  subRaises : a.sub b = .error (.insufficientFunds a b) ↔ b.gt a = .ok true
  sub : b.gt a ≠ .ok true → ∃ d, a.sub b = .ok d ∧ d.currency = a.currency ∧
    d.amount.value = a.amount.value - b.amount.value
  addComm : ∀ s, a.add b = .ok s → ∃ s', b.add a = .ok s' ∧ s.Equal s'
  addSub : ∀ s, a.add b = .ok s → ∃ d, s.sub b = .ok d ∧ d.Equal a
  subAdd : ∀ d, a.sub b = .ok d → ∃ s, d.add b = .ok s ∧ s.Equal a
  assocRight : ∀ c s, (do (← a.add b).add c) = .ok s →
    ∃ s', (do a.add (← b.add c)) = .ok s' ∧ s.Equal s'
  assocLeft : ∀ c s, (do a.add (← b.add c)) = .ok s →
    ∃ s', (do (← a.add b).add c) = .ok s' ∧ s.Equal s'

/-- What holds of two amounts of different currencies. -/
structure Mismatch (a b : Money) : Prop where
  add : a.add b = .error (.currencyMismatch a.currency b.currency)
  sub : a.sub b = .error (.currencyMismatch a.currency b.currency)
  lt : a.lt b = .error (.currencyMismatch a.currency b.currency)
  le : a.le b = .error (.currencyMismatch a.currency b.currency)
  gt : a.gt b = .error (.currencyMismatch a.currency b.currency)
  ge : a.ge b = .error (.currencyMismatch a.currency b.currency)

theorem exact_same {a b : Money} (h : a.currency = b.currency) : ExactToTheCent a b where
  add s hs := by
    obtain ⟨-, hcurrency, hcents, -⟩ := add_ok hs
    refine ⟨hcurrency, ?_⟩
    rw [value_amount, value_amount, value_amount, hcents]
    push_cast
    ring
  addRaises := by
    have hvalue : (10 ^ 26 : ℚ) ≤ a.amount.value + b.amount.value ↔
        ¬ a.cents + b.cents < 10 ^ precision := by
      rw [value_amount, value_amount, not_lt, ← Nat.cast_le (α := ℚ), precision]
      push_cast
      constructor <;> intro h <;> linarith
    rw [hvalue]
    constructor
    · rintro ⟨e, he⟩ hfits
      obtain ⟨s, hs, -⟩ := add_of_fits h hfits
      rw [hs] at he
      cases he
    · intro hfits
      exact ⟨_, add_of_not_fits h hfits⟩
  less := by simp only [lt_same h, value_lt_iff]
  lessEqual := by simp only [le_same h, value_le_iff]
  greater := by simp only [gt_same h, value_lt_iff]
  greaterEqual := by simp only [ge_same h, value_le_iff]
  subRaises := by
    rw [gt_same h.symm]
    by_cases hlt : a.cents < b.cents
    · simp [sub_of_lt h hlt, hlt]
    · obtain ⟨d, hd, -⟩ := sub_of_le h (not_lt.mp hlt)
      simp [hd, hlt]
  sub hle := by
    rw [gt_same h.symm] at hle
    have hle' : b.cents ≤ a.cents := by simpa using hle
    obtain ⟨d, hd, hcurrency, hcents⟩ := sub_of_le h hle'
    refine ⟨d, hd, hcurrency, ?_⟩
    rw [value_amount, value_amount, value_amount, ← hcents]
    push_cast
    ring
  addComm s hs := by
    obtain ⟨-, hcurrency, hcents, hfits⟩ := add_ok hs
    obtain ⟨s', hs', hcurrency', hcents'⟩ := add_of_fits h.symm (by omega)
    refine ⟨s', hs', (equal_iff s s').mpr ⟨?_, by omega⟩⟩
    rw [hcurrency, hcurrency', h]
  addSub s hs := by
    obtain ⟨-, hcurrency, hcents, -⟩ := add_ok hs
    obtain ⟨d, hd, hcurrency', hcents'⟩ := sub_of_le (hcurrency.trans h) (by omega)
    exact ⟨d, hd, (equal_iff d a).mpr ⟨hcurrency'.trans hcurrency, by omega⟩⟩
  subAdd d hd := by
    have hle : b.cents ≤ a.cents := by
      by_contra hlt
      rw [sub_of_lt h (not_le.mp hlt)] at hd
      cases hd
    obtain ⟨d', hd', hcurrency, hcents⟩ := sub_of_le h hle
    rw [hd'] at hd
    obtain rfl := Except.ok.inj hd
    have hfits : d'.cents + b.cents < 10 ^ precision := by
      rw [hcents]
      exact cents_lt a
    obtain ⟨s, hs, hcurrency', hcents'⟩ := add_of_fits (hcurrency.trans h) hfits
    exact ⟨s, hs, (equal_iff s a).mpr ⟨hcurrency'.trans hcurrency, by omega⟩⟩
  assocRight _ _ hs := add_add_ok hs
  assocLeft _ _ hs := add_add_ok' hs

theorem mismatch_of_ne {a b : Money} (h : a.currency ≠ b.currency) : Mismatch a b where
  add := by
    have hspec := add_spec a b
    rwa [if_pos h] at hspec
  sub := by
    have hspec := sub_spec a b
    rwa [if_pos h] at hspec
  lt := compare_mismatch h _
  le := compare_mismatch h _
  gt := compare_mismatch h _
  ge := compare_mismatch h _

/-- Money arithmetic is exact to the cent, within one currency and only there. -/
theorem money_arithmetic (a b : Money) :
    if a.currency = b.currency then ExactToTheCent a b else Mismatch a b := by
  split_ifs with h
  · exact exact_same h
  · exact mismatch_of_ne h

end Money
end BankingTransactions
