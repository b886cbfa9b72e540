import Mathlib.Tactic.IntervalCases
import Mathlib.Tactic.Ring

/-!
# The proleptic Gregorian calendar

`ord2ymd` finds the date of a day by its number, counted from 1 January of the year 1, as
Python's `datetime` does: by periods of 400, 100, 4 years and one year, and by an estimate of
the month that is at most one too high. `ymd2ord` counts the days up to a date, and takes back
what `ord2ymd` has found.
-/
namespace BankingTransactions.GregorianCalendar

structure Date where
  year : ℕ
  month : ℕ
  day : ℕ
  deriving DecidableEq

def isLeap (year : ℕ) : Bool := year % 4 = 0 ∧ (year % 100 ≠ 0 ∨ year % 400 = 0)

def daysInMonth : ℕ → ℕ
  | 2 => 28
  | 4 => 30
  | 6 => 30
  | 9 => 30
  | 11 => 30
  | _ => 31

/-- The days of a common year before a month. -/
def daysBefore : ℕ → ℕ
  | 2 => 31
  | 3 => 59
  | 4 => 90
  | 5 => 120
  | 6 => 151
  | 7 => 181
  | 8 => 212
  | 9 => 243
  | 10 => 273
  | 11 => 304
  | 12 => 334
  | _ => 0

def daysBeforeYear (year : ℕ) : ℕ :=
  (year - 1) * 365 + (year - 1) / 4 - (year - 1) / 100 + (year - 1) / 400

def daysBeforeMonth (leap : Bool) (month : ℕ) : ℕ :=
  daysBefore month + if 2 < month ∧ leap then 1 else 0

/-- `_ymd2ord` -/
def ymd2ord (d : Date) : ℕ :=
  daysBeforeYear d.year + daysBeforeMonth (isLeap d.year) d.month + d.day

/-- The month and the day of the `n`-th day of a year, counted from zero. -/
def monthOf (leap : Bool) (n : ℕ) : ℕ × ℕ :=
  let month := (n + 50) / 32
  let preceding := daysBeforeMonth leap month
  if n < preceding then
    let month := month - 1
    let preceding := preceding - (daysInMonth month + if month = 2 ∧ leap then 1 else 0)
    (month, n - preceding + 1)
  else (month, n - preceding + 1)

/-- `_ord2ymd` -/
def ord2ymd (ordinal : ℕ) : Date :=
  let n := ordinal - 1
  let n400 := n / 146097
  let n := n % 146097
  let n100 := n / 36524
  let n := n % 36524
  let n4 := n / 1461
  let n := n % 1461
  let n1 := n / 365
  let n := n % 365
  let year := n400 * 400 + 1 + n100 * 100 + n4 * 4 + n1
  if n1 = 4 ∨ n100 = 4 then ⟨year - 1, 12, 31⟩
  else
    let (month, day) := monthOf (n1 = 3 ∧ (n4 ≠ 24 ∨ n100 = 3)) n
    ⟨year, month, day⟩

/-- The estimate of the month is corrected to the month of the day. -/
theorem monthOf_spec (leap : Bool) {n : ℕ} (h : n < 365 + leap.toNat) :
    daysBeforeMonth leap (monthOf leap n).1 + (monthOf leap n).2 = n + 1 ∧
      1 ≤ (monthOf leap n).1 ∧ (monthOf leap n).1 ≤ 12 ∧
      1 ≤ (monthOf leap n).2 ∧ (monthOf leap n).2 ≤ 31 := by
  have hall : ∀ leap : Bool, ∀ n < 366, n < 365 + leap.toNat →
      daysBeforeMonth leap (monthOf leap n).1 + (monthOf leap n).2 = n + 1 ∧
        1 ≤ (monthOf leap n).1 ∧ (monthOf leap n).1 ≤ 12 ∧
        1 ≤ (monthOf leap n).2 ∧ (monthOf leap n).2 ≤ 31 := by decide +kernel
  exact hall leap n (by cases leap <;> simp at h <;> omega) h

theorem daysBeforeYear_eq (n400 : ℕ) {n100 n4 n1 : ℕ} (h100 : n100 ≤ 3) (h4 : n4 ≤ 24)
    (h1 : n1 ≤ 3) :
    daysBeforeYear (n400 * 400 + 1 + n100 * 100 + n4 * 4 + n1) =
      n400 * 146097 + n100 * 36524 + n4 * 1461 + n1 * 365 := by
  unfold daysBeforeYear
  omega

theorem isLeap_eq (n400 : ℕ) {n100 n4 n1 : ℕ} (h100 : n100 ≤ 3) (h4 : n4 ≤ 24) (h1 : n1 ≤ 3) :
    isLeap (n400 * 400 + 1 + n100 * 100 + n4 * 4 + n1) =
      decide (n1 = 3 ∧ (n4 ≠ 24 ∨ n100 = 3)) := by
  simp only [isLeap, decide_eq_decide]
  omega

/-- The last day of a leap year. -/
theorem ymd2ord_last (n400 : ℕ) {n100 n4 : ℕ} (h100 : n100 ≤ 3) (h4 : n4 ≤ 24)
    (hleap : n4 ≠ 24 ∨ n100 = 3) :
    ymd2ord ⟨n400 * 400 + 1 + n100 * 100 + n4 * 4 + 3, 12, 31⟩ =
      n400 * 146097 + n100 * 36524 + n4 * 1461 + 1461 := by
  have hyear := daysBeforeYear_eq n400 h100 h4 (le_refl 3)
  have hleap' := isLeap_eq n400 h100 h4 (le_refl 3)
  rw [decide_eq_true ⟨rfl, hleap⟩] at hleap'
  simp [ymd2ord, hyear, hleap', daysBeforeMonth, daysBefore]

/-- The date of a day determines the day. -/
theorem ymd2ord_ord2ymd {ordinal : ℕ} (h : 1 ≤ ordinal) : ymd2ord (ord2ymd ordinal) = ordinal := by
  obtain ⟨n, rfl⟩ : ∃ n, ordinal = n + 1 := ⟨ordinal - 1, by omega⟩
  simp only [ord2ymd, Nat.add_sub_cancel]
  split_ifs with hlast
  -- the periods of one year and of 100 years leave the last day of the last year over
  · by_cases h100 : n % 146097 / 36524 = 4
    · have hyear : n / 146097 * 400 + 1 + n % 146097 / 36524 * 100 +
          n % 146097 % 36524 / 1461 * 4 + n % 146097 % 36524 % 1461 / 365 - 1 =
            n / 146097 * 400 + 1 + 3 * 100 + 24 * 4 + 3 := by omega
      rw [hyear, ymd2ord_last (n / 146097) (le_refl 3) (le_refl 24) (.inr rfl)]
      omega
    · have h1 : n % 146097 % 36524 % 1461 / 365 = 4 := by omega
      have hyear : n / 146097 * 400 + 1 + n % 146097 / 36524 * 100 +
          n % 146097 % 36524 / 1461 * 4 + n % 146097 % 36524 % 1461 / 365 - 1 =
            n / 146097 * 400 + 1 + n % 146097 / 36524 * 100 + n % 146097 % 36524 / 1461 * 4 + 3 := by
        omega
      rw [hyear, ymd2ord_last (n / 146097) (by omega) (by omega) (by omega)]
      omega
  · have h100 : n % 146097 / 36524 ≤ 3 := by omega
    have h4 : n % 146097 % 36524 / 1461 ≤ 24 := by omega
    have h1 : n % 146097 % 36524 % 1461 / 365 ≤ 3 := by omega
    have hleap := isLeap_eq (n / 146097) h100 h4 h1
    have hyear := daysBeforeYear_eq (n / 146097) h100 h4 h1
    obtain ⟨hmonth, -⟩ := monthOf_spec (isLeap (n / 146097 * 400 + 1 + n % 146097 / 36524 * 100 +
      n % 146097 % 36524 / 1461 * 4 + n % 146097 % 36524 % 1461 / 365))
      (n := n % 146097 % 36524 % 1461 % 365) (by omega)
    rw [ymd2ord, ← hleap]
    simp only
    rw [hyear]
    omega

/-- A day up to the year 9999 has a date whose parts have four, two and two digits. -/
theorem ord2ymd_bounds {ordinal : ℕ} (h : 1 ≤ ordinal) (h' : ordinal ≤ 3652059) :
    (ord2ymd ordinal).year < 10000 ∧ (ord2ymd ordinal).month < 100 ∧
      (ord2ymd ordinal).day < 100 := by
  obtain ⟨n, rfl⟩ : ∃ n, ordinal = n + 1 := ⟨ordinal - 1, by omega⟩
  simp only [ord2ymd, Nat.add_sub_cancel]
  split_ifs with hlast
  · refine ⟨?_, by norm_num, by norm_num⟩
    simp only
    omega
  · obtain ⟨-, -, hmonth, -, hday⟩ := monthOf_spec (n := n % 146097 % 36524 % 1461 % 365)
      (decide (n % 146097 % 36524 % 1461 / 365 = 3 ∧
        (n % 146097 % 36524 / 1461 ≠ 24 ∨ n % 146097 / 36524 = 3))) (by omega)
    simp only
    omega

end BankingTransactions.GregorianCalendar
