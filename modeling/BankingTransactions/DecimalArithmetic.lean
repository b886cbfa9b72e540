import Mathlib.Algebra.Order.Floor.Semifield
import Mathlib.Data.Int.Log
import Mathlib.Tactic

/-!
# Decimal floating point

Decimal numbers with a sign, a coefficient and an exponent, and the operations
`quantize`, `add`, `sub` and `lt` in the default arithmetic context: precision
28, results rounded half to even, invalid operations and overflow trapped, so
that they end in a signal. Quantizing rounds half up, as its callers ask for.
The last section states what these operations do on amounts of whole
hundredths, where every result is either exact or a signal.
-/
namespace BankingTransactions.DecimalArithmetic

/-- `finite s c e` is `c * 10 ^ e`, negated when `s` holds. Zero keeps its sign. -/
inductive Decimal where
  | finite (negative : Bool) (coefficient : ℕ) (exponent : ℤ)
  | infinite (negative : Bool)
  | nan (signaling : Bool)
  deriving DecidableEq, Repr

/-- The traps that are enabled in the default context. -/
inductive Signal where
  | invalidOperation
  | overflow
  deriving DecidableEq, Repr

/-- Digits kept by the default context. -/
def precision : ℕ := 28

def maxExponent : ℤ := 999999

def minExponent : ℤ := -999999

/-- Least exponent of a subnormal result. -/
def tiny : ℤ := minExponent - (precision - 1)

/-- Greatest exponent of a result with `precision` digits. -/
def top : ℤ := maxExponent - (precision - 1)

/-- `n / d`, rounded to the nearest integer, ties upwards. -/
def divHalfUp (n d : ℕ) : ℕ := (2 * n + d) / (2 * d)

/-- `n / d`, rounded to the nearest integer, ties to the even neighbour. -/
def divHalfEven (n d : ℕ) : ℕ :=
  if d < 2 * (n % d) ∨ (2 * (n % d) = d ∧ (n / d) % 2 = 1) then n / d + 1 else n / d

namespace Decimal

def zero : Decimal := finite false 0 0

/-- The number that a decimal denotes. -/
def value : Decimal → ℚ
  | finite s c e => (if s then -1 else 1) * c * 10 ^ e
  | _ => 0

def negate : Decimal → Decimal
  | finite s c e => finite (!s) c e
  | infinite s => infinite (!s)
  | nan b => nan b

/-- The signed coefficient of `c * 10 ^ e` when it is written with exponent `m ≤ e`. -/
def aligned (m : ℤ) (s : Bool) (c : ℕ) (e : ℤ) : ℤ :=
  let magnitude : ℤ := c * 10 ^ (e - m).toNat
  if s then -magnitude else magnitude

/-- Bring a coefficient of any length into the context. -/
def fix (s : Bool) (c : ℕ) (e : ℤ) : Except Signal Decimal :=
  if c = 0 then .ok (finite s 0 (min (max e tiny) maxExponent))
  else
    let least := max ((Nat.log 10 c : ℤ) + 1 + e - precision) tiny
    if top < least then .error .overflow
    else if least ≤ e then .ok (finite s c e)
    else
      let rounded := divHalfEven c (10 ^ (least - e).toNat)
      if rounded = 10 ^ precision then
        if top < least + 1 then .error .overflow
        else .ok (finite s (10 ^ (precision - 1)) (least + 1))
      else .ok (finite s rounded least)

/-- Exact sum, then rounding into the context. -/
def add : Decimal → Decimal → Except Signal Decimal
  | finite s c e, finite s' c' e' =>
    let m := min e e'
    let z := aligned m s c e + aligned m s' c' e'
    fix (if z = 0 then s && s' else decide (z < 0)) z.natAbs m
  | nan true, _ => .error .invalidOperation
  | _, nan true => .error .invalidOperation
  | nan false, _ => .ok (nan false)
  | _, nan false => .ok (nan false)
  | infinite s, infinite s' => if s = s' then .ok (infinite s) else .error .invalidOperation
  | infinite s, finite _ _ _ => .ok (infinite s)
  | finite _ _ _, infinite s => .ok (infinite s)

def sub (x y : Decimal) : Except Signal Decimal := x.add y.negate

/-- The coefficient of `c * 10 ^ e` at exponent `p`, rounded half up. -/
def rescale (p : ℤ) (c : ℕ) (e : ℤ) : ℕ :=
  if p ≤ e then c * 10 ^ (e - p).toNat else divHalfUp c (10 ^ (p - e).toNat)

@[simp] theorem rescale_self (p : ℤ) (c : ℕ) : rescale p c p = c := by simp [rescale]

theorem divHalfUp_eq_floor (n d : ℕ) (hd : 0 < d) : divHalfUp n d = ⌊(n / d + 1 / 2 : ℚ)⌋₊ := by
  have hd' : (d : ℚ) ≠ 0 := by positivity
  have hsum : (n / d + 1 / 2 : ℚ) = ((2 * n + d : ℕ) : ℚ) / ((2 * d : ℕ) : ℚ) := by
    push_cast
    field_simp
  rw [hsum, Nat.floor_div_eq_div, divHalfUp]

/-- Rescaling rounds half up. -/
theorem rescale_eq_floor (p : ℤ) (c : ℕ) (e : ℤ) :
    rescale p c e = ⌊(c * 10 ^ e / 10 ^ p + 1 / 2 : ℚ)⌋₊ := by
  have hten : (10 : ℚ) ≠ 0 := by norm_num
  have hshift : (c * 10 ^ e / 10 ^ p : ℚ) = c * 10 ^ (e - p) := by
    rw [zpow_sub₀ hten, mul_div_assoc]
  rw [hshift, rescale]
  split_ifs with h
  · obtain ⟨k, hk⟩ := Int.eq_ofNat_of_zero_le (sub_nonneg.mpr h)
    rw [hk, Int.toNat_natCast, zpow_natCast]
    symm
    rw [Nat.floor_eq_iff (by positivity)]
    push_cast
    constructor <;> linarith
  · obtain ⟨k, hk⟩ := Int.eq_ofNat_of_zero_le (sub_nonneg.mpr (le_of_not_ge h))
    have hneg : e - p = -(k : ℤ) := by
      have : (Int.ofNat k : ℤ) = k := rfl
      omega
    rw [hk, hneg, Int.toNat_natCast, divHalfUp_eq_floor _ _ (by positivity), zpow_neg, zpow_natCast]
    push_cast
    rfl

/-- What is rescaled stays below a bound when the exact number, half a unit up, does. -/
theorem rescale_lt_iff (p : ℤ) (c : ℕ) (e : ℤ) (n : ℕ) :
    rescale p c e < n ↔ (c * 10 ^ e / 10 ^ p + 1 / 2 : ℚ) < n := by
  rw [rescale_eq_floor, Nat.floor_lt (by positivity)]

/-- Write a number with exponent `p`, rounding half up. -/
def quantize (p : ℤ) : Decimal → Except Signal Decimal
  | finite s c e =>
    if rescale p c e < 10 ^ precision then .ok (finite s (rescale p c e) p)
    else .error .invalidOperation
  | infinite _ => .error .invalidOperation
  | nan true => .error .invalidOperation
  | nan false => .ok (nan false)

/-- The ordering comparison. It is invalid on a NaN of either kind. -/
def lt : Decimal → Decimal → Except Signal Bool
  | finite s c e, finite s' c' e' =>
    .ok (decide (aligned (min e e') s c e < aligned (min e e') s' c' e'))
  | infinite s, infinite s' => .ok (s && !s')
  | infinite s, finite _ _ _ => .ok s
  | finite _ _ _, infinite s => .ok (!s)
  | _, _ => .error .invalidOperation

/-- `<=`, invalid on a NaN of either kind as well. -/
def le : Decimal → Decimal → Except Signal Bool
  | finite s c e, finite s' c' e' =>
    .ok (decide (aligned (min e e') s c e ≤ aligned (min e e') s' c' e'))
  | infinite s, infinite s' => .ok (s || !s')
  | infinite s, finite _ _ _ => .ok s
  | finite _ _ _, infinite s => .ok (!s)
  | _, _ => .error .invalidOperation

/-! ## Amounts of whole hundredths -/

/-- A non-negative number of hundredths that the context holds exactly. -/
def IsHundredths : Decimal → Prop
  | finite s c e => e = -2 ∧ c < 10 ^ precision ∧ (s = true → c = 0)
  | _ => False

instance : DecidablePred IsHundredths := fun x => by
  cases x <;> unfold IsHundredths <;> infer_instance

/-- The number of hundredths, for numbers with exponent `-2`. -/
def hundredths : Decimal → ℕ
  | finite _ c _ => c
  | _ => 0

theorem coefficient_eq_zero {c : ℕ} (h : (finite true c (-2)).lt zero = .ok false) : c = 0 := by
  simpa [lt, zero, aligned] using h

theorem isHundredths_of_quantize {x y : Decimal} (hq : x.quantize (-2) = .ok y)
    (hlt : y.lt zero = .ok false) : y.IsHundredths := by
  cases x with
  | finite s c e =>
    simp only [quantize] at hq
    split at hq
    · rename_i hc
      simp only [Except.ok.injEq] at hq
      subst hq
      refine ⟨rfl, hc, fun hs => ?_⟩
      subst hs
      exact coefficient_eq_zero hlt
    · cases hq
  | infinite s => simp [quantize] at hq
  | nan b =>
    cases b
    · simp only [quantize, Except.ok.injEq] at hq
      subst hq
      simp [lt] at hlt
    · simp [quantize] at hq

theorem quantize_of_isHundredths {x : Decimal} (hx : x.IsHundredths) :
    x.quantize (-2) = .ok x := by
  match x, hx with
  | finite s c e, ⟨he, hc, _⟩ => subst he; simp [quantize, hc]

theorem IsHundredths.not_lt_zero {x : Decimal} (hx : x.IsHundredths) :
    x.lt zero = .ok false := by
  match x, hx with
  | finite s c e, ⟨he, _, hs⟩ =>
    subst he
    cases s
    · simp [lt, aligned, zero]
    · simp [lt, aligned, zero, hs rfl]

/-- The signed number of hundredths of an amount is its coefficient. -/
theorem IsHundredths.aligned_eq {s : Bool} {c : ℕ} {e : ℤ}
    (hx : (finite s c e).IsHundredths) : aligned (-2) s c e = c := by
  obtain ⟨he, _, hs⟩ := hx
  subst he
  cases s
  · simp [aligned]
  · simp [aligned, hs rfl]

/-- The signed number of hundredths of the opposite of an amount. -/
theorem IsHundredths.aligned_not {s : Bool} {c : ℕ} {e : ℤ}
    (hx : (finite s c e).IsHundredths) : aligned (-2) (!s) c e = -(c : ℤ) := by
  obtain ⟨he, _, hs⟩ := hx
  subst he
  cases s
  · simp [aligned]
  · simp [aligned, hs rfl]

theorem IsHundredths.lt_eq {x y : Decimal} (hx : x.IsHundredths) (hy : y.IsHundredths) :
    x.lt y = .ok (decide (x.hundredths < y.hundredths)) := by
  match x, y, hx, hy with
  | finite s c e, finite s' c' e', hx, hy =>
    have hax := hx.aligned_eq
    have hay := hy.aligned_eq
    obtain ⟨he, _, _⟩ := hx
    obtain ⟨he', _, _⟩ := hy
    subst he he'
    simp only [lt, min_self, hax, hay, hundredths, Except.ok.injEq]
    exact decide_eq_decide.mpr Nat.cast_lt

theorem IsHundredths.le_eq {x y : Decimal} (hx : x.IsHundredths) (hy : y.IsHundredths) :
    x.le y = .ok (decide (x.hundredths ≤ y.hundredths)) := by
  match x, y, hx, hy with
  | finite s c e, finite s' c' e', hx, hy =>
    have hax := hx.aligned_eq
    have hay := hy.aligned_eq
    obtain ⟨he, _, _⟩ := hx
    obtain ⟨he', _, _⟩ := hy
    subst he he'
    simp only [le, min_self, hax, hay, hundredths, Except.ok.injEq]
    exact decide_eq_decide.mpr Nat.cast_le

/-- A coefficient with too many digits is left with an exponent above `-2`, so
that quantizing it back to hundredths is refused. -/
theorem fix_hundredths_large {c : ℕ} (s : Bool) (hc : 10 ^ precision ≤ c)
    (hc' : c < 2 * 10 ^ precision) :
    ∃ y, fix s c (-2) = .ok y ∧ y.quantize (-2) = .error .invalidOperation := by
  have hlog : Nat.log 10 c = 28 := by
    rw [Nat.log_eq_iff (by simp)]
    simp only [precision] at hc hc'
    omega
  have hpos : c ≠ 0 := by simp only [precision] at hc; omega
  have hround : 10 ^ 27 ≤ divHalfEven c (10 ^ 1) ∧ divHalfEven c (10 ^ 1) < 10 ^ 28 := by
    simp only [precision] at hc hc'
    simp only [divHalfEven]
    split_ifs <;> omega
  refine ⟨finite s (divHalfEven c (10 ^ 1)) (-1), ?_, ?_⟩
  · have hne : divHalfEven c (10 ^ 1) ≠ 10 ^ 28 := by omega
    have hleast : max ((28 : ℤ) + 1 + -2 - 28) tiny = -1 := by
      simp [tiny, minExponent, precision]
    simp only [fix, hlog, precision, hpos, if_false, Nat.cast_ofNat, hleast]
    rw [if_neg (by simp [top, maxExponent, precision]), if_neg (by norm_num),
      show ((-1 : ℤ) - -2).toNat = 1 from rfl, if_neg hne]
  · have hlong : rescale (-2) (divHalfEven c (10 ^ 1)) (-1) = divHalfEven c (10 ^ 1) * 10 ^ 1 :=
      if_pos (by norm_num)
    simp only [quantize, hlong]
    exact if_neg (by simp only [precision]; omega)

theorem fix_hundredths_small {c : ℕ} (s : Bool) (hc : c < 10 ^ precision) :
    fix s c (-2) = .ok (finite s c (-2)) := by
  by_cases h0 : c = 0
  · subst h0
    simp [fix, tiny, minExponent, maxExponent, precision]
  · have hlog : Nat.log 10 c < 28 := Nat.log_lt_of_lt_pow h0 hc
    have hleast : max ((Nat.log 10 c : ℤ) + 1 + -2 - precision) tiny ≤ -2 := by
      simp only [precision, tiny, minExponent]
      omega
    simp only [fix, h0, if_false]
    rw [if_neg (by simp only [top, maxExponent, precision] at *; omega), if_pos hleast]

/-- Adding amounts and quantizing the sum is exact, or refused for want of digits. -/
theorem quantize_add {x y : Decimal} (hx : x.IsHundredths) (hy : y.IsHundredths) :
    if x.hundredths + y.hundredths < 10 ^ precision then
      ∃ z, x.add y = .ok z ∧ z.quantize (-2) = .ok z ∧ z.IsHundredths ∧
        z.hundredths = x.hundredths + y.hundredths
    else ∃ z, x.add y = .ok z ∧ z.quantize (-2) = .error .invalidOperation := by
  match x, y, hx, hy with
  | finite s c e, finite s' c' e', hx, hy =>
    have hax := hx.aligned_eq
    have hay := hy.aligned_eq
    obtain ⟨he, hc, hs⟩ := hx
    obtain ⟨he', hc', hs'⟩ := hy
    subst he he'
    have hz : aligned (-2) s c (-2) + aligned (-2) s' c' (-2) = ((c + c' : ℕ) : ℤ) := by
      rw [hax, hay]; push_cast; rfl
    simp only [add, min_self, hz, hundredths, Int.natAbs_natCast]
    split_ifs with h hzero hzero
    · refine ⟨_, fix_hundredths_small _ h, ?_, ⟨rfl, h, fun _ => by omega⟩, rfl⟩
      simp [quantize, h]
    · refine ⟨_, fix_hundredths_small _ h, ?_, ⟨rfl, h, fun hneg => ?_⟩, rfl⟩
      · simp [quantize, h]
      · simp at hneg
        omega
    · simp only [precision] at h; omega
    · exact fix_hundredths_large _ (by omega) (by omega)

/-- Subtracting a smaller amount is exact; subtracting a larger one gives a negative number. -/
theorem quantize_sub {x y : Decimal} (hx : x.IsHundredths) (hy : y.IsHundredths) :
    ∃ z, x.sub y = .ok z ∧ z.quantize (-2) = .ok z ∧
      z.lt zero = .ok (decide (x.hundredths < y.hundredths)) ∧
      (y.hundredths ≤ x.hundredths →
        z.IsHundredths ∧ z.hundredths = x.hundredths - y.hundredths) := by
  match x, y, hx, hy with
  | finite s c e, finite s' c' e', hx, hy =>
    have hax := hx.aligned_eq
    have hneg := hy.aligned_not
    obtain ⟨he, hc, hs⟩ := hx
    obtain ⟨he', hc', hs'⟩ := hy
    subst he he'
    have hz : aligned (-2) s c (-2) + aligned (-2) (!s') c' (-2) = (c : ℤ) - c' := by
      rw [hax, hneg]; ring
    have hbound : ((c : ℤ) - c').natAbs < 10 ^ precision := by omega
    simp only [sub, negate, add, min_self, hz, hundredths, fix_hundredths_small _ hbound]
    refine ⟨_, rfl, by simp [quantize, hbound], ?_, fun hle => ⟨⟨rfl, hbound, ?_⟩, ?_⟩⟩
    · rcases lt_trichotomy c c' with h | h | h
      · have h1 : ((c : ℤ) - c') < 0 := by omega
        have h2 : ((c : ℤ) - c') ≠ 0 := by omega
        simp [h1, h2, lt, aligned, zero, h]
      · subst h
        simp [lt, aligned, zero]
      · have h1 : ¬ ((c : ℤ) - c') < 0 := by omega
        have h2 : ((c : ℤ) - c') ≠ 0 := by omega
        have h3 : ¬ |(c : ℤ) - c'| < 0 := not_lt.mpr (abs_nonneg _)
        simp [h1, h2, h3, lt, aligned, zero, h.not_gt]
    · intro h
      split_ifs at h with h0
      · omega
      · simp at h; omega
    · show ((c : ℤ) - c').natAbs = c - c'
      omega

/-- Adding an amount to one that is not a negative zero. -/
theorem add_unsigned {c c' : ℕ} {s' : Bool} (hy : (finite s' c' (-2)).IsHundredths)
    (hfits : c + c' < 10 ^ precision) :
    (finite false c (-2)).add (finite s' c' (-2)) = .ok (finite false (c + c') (-2)) := by
  have hz : aligned (-2) false c (-2) + aligned (-2) s' c' (-2) = ((c + c' : ℕ) : ℤ) := by
    rw [hy.aligned_eq]
    simp [aligned]
  have hsign : (if ((c + c' : ℕ) : ℤ) = 0 then false && s' else
      decide (((c + c' : ℕ) : ℤ) < 0)) = false := by
    split_ifs
    · rfl
    · exact decide_eq_false (by omega)
  simp only [add, min_self, hz, Int.natAbs_natCast]
  rw [hsign, fix_hundredths_small false hfits]

/-- Subtracting a smaller amount from one that is not a negative zero. -/
theorem sub_unsigned {c c' : ℕ} {s' : Bool} (hy : (finite s' c' (-2)).IsHundredths)
    (hc : c < 10 ^ precision) (hle : c' ≤ c) :
    (finite false c (-2)).sub (finite s' c' (-2)) = .ok (finite false (c - c') (-2)) := by
  have hz : aligned (-2) false c (-2) + aligned (-2) (!s') c' (-2) = ((c - c' : ℕ) : ℤ) := by
    rw [hy.aligned_not]
    simp only [aligned, sub_self, Int.toNat_zero, pow_zero, mul_one, Bool.false_eq_true, if_false]
    omega
  have hsign : (if ((c - c' : ℕ) : ℤ) = 0 then false && !s' else
      decide (((c - c' : ℕ) : ℤ) < 0)) = false := by
    split_ifs
    · rfl
    · exact decide_eq_false (by omega)
  have hbound : c - c' < 10 ^ precision := by omega
  simp only [sub, negate, add, min_self, hz, Int.natAbs_natCast]
  rw [hsign, fix_hundredths_small false hbound]

end Decimal

end BankingTransactions.DecimalArithmetic
