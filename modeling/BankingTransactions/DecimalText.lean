import BankingTransactions.DecimalArithmetic

/-!
# The texts of decimals

`str` writes a decimal as Python's `str` does: with a point where the exponent is not positive
and not too small, else with one digit before the point and an exponent. The text determines
sign, coefficient and exponent, so no two numbers, and no two forms of one, share it.
-/
namespace BankingTransactions.DecimalArithmetic

/-! ## Digits -/

/-- The decimal digits of a number. -/
def digits (n : ℕ) : List Char := Nat.toDigits 10 n

theorem digits_injective : Function.Injective digits := by
  intro m n h
  have hm := Nat.ofDigitChars_ten_toDigits (n := m)
  rw [show Nat.toDigits 10 m = Nat.toDigits 10 n from h] at hm
  exact hm.symm.trans Nat.ofDigitChars_ten_toDigits

theorem digits_ne_nil (n : ℕ) : digits n ≠ [] := Nat.toDigits_ne_nil

theorem isDigit_of_mem_digits {n : ℕ} {c : Char} (h : c ∈ digits n) : c.isDigit = true :=
  Nat.isDigit_of_mem_toDigits (by decide) (by decide) h

/-- The number that digits with zeros before them stand for. -/
theorem ofDigitChars_zeros (k n : ℕ) :
    Nat.ofDigitChars 10 (List.replicate k '0' ++ digits n) 0 = n := by
  rw [Nat.ofDigitChars_append, Nat.ofDigitChars_replicate_zero, Nat.mul_zero]
  exact Nat.ofDigitChars_ten_toDigits

namespace Decimal

/-! ## Writing -/

/-- The digits with a point after the first `dot` of them. -/
def pointed (ds : List Char) (dot : ℤ) : List Char :=
  if dot ≤ 0 then '0' :: '.' :: (List.replicate (-dot).toNat '0' ++ ds)
  else if ds.length ≤ dot then ds ++ List.replicate (dot - ds.length).toNat '0'
  else ds.take dot.toNat ++ '.' :: ds.drop dot.toNat

/-- `"%+d"` -/
def signed (k : ℤ) : List Char := (if k < 0 then '-' else '+') :: digits k.natAbs

/-- How many digits are left of the point when there is no exponent. -/
def leftDigits (c : ℕ) (e : ℤ) : ℤ := e + (digits c).length

/-- Where the point is written. -/
def dotPlace (c : ℕ) (e : ℤ) : ℤ := if e ≤ 0 ∧ -6 < leftDigits c e then leftDigits c e else 1

def exponentText (c : ℕ) (e : ℤ) : List Char :=
  if leftDigits c e = dotPlace c e then [] else 'E' :: signed (leftDigits c e - dotPlace c e)

def chars : Decimal → List Char
  | finite s c e =>
    (if s then ['-'] else []) ++ (pointed (digits c) (dotPlace c e) ++ exponentText c e)
  | infinite s => (if s then ['-'] else []) ++ "Infinity".toList
  | nan signaling => if signaling then "sNaN".toList else "NaN".toList

/-- `str(d)` -/
def str (d : Decimal) : String := String.ofList d.chars

/-! ## The parts of a text -/

/-- The point is never written behind the digits, only before, between or right after them. -/
theorem dotPlace_le (c : ℕ) (e : ℤ) : dotPlace c e ≤ (digits c).length := by
  have hpos := List.length_pos_iff.mpr (digits_ne_nil c)
  unfold dotPlace leftDigits
  split_ifs <;> omega

theorem pointed_digits (c : ℕ) {dot : ℤ} (h : dot ≤ (digits c).length) :
    ∃ k, (pointed (digits c) dot).filter Char.isDigit = List.replicate k '0' ++ digits c := by
  have hall : (digits c).filter Char.isDigit = digits c :=
    List.filter_eq_self.mpr fun _ => isDigit_of_mem_digits
  unfold pointed
  split_ifs with hleft hright
  · refine ⟨(-dot).toNat + 1, ?_⟩
    simp [List.filter_append, hall, List.replicate_succ]
  · have hdot : (dot - (digits c).length).toNat = 0 := by omega
    exact ⟨0, by simp [hdot, hall]⟩
  · refine ⟨0, ?_⟩
    rw [List.filter_append, List.filter_cons_of_neg (by decide), ← List.filter_append,
      List.take_append_drop]
    exact hall

/-- The point and what is behind it. -/
def fraction (text : List Char) : List Char := text.dropWhile fun c => c ≠ '.'

theorem fraction_append {ds : List Char} (h : ∀ c ∈ ds, c.isDigit = true) (text : List Char) :
    fraction (ds ++ text) = fraction text := by
  apply List.dropWhile_append_of_pos
  intro c hc
  have hdigit := h c hc
  simp only [ne_eq, decide_not, Bool.not_eq_true', decide_eq_false_iff_not]
  rintro rfl
  cases hdigit

theorem length_fraction (c : ℕ) {dot : ℤ} (h : dot ≤ (digits c).length) :
    (fraction (pointed (digits c) dot)).length =
      if dot = (digits c).length then 0 else ((digits c).length - dot).toNat + 1 := by
  have hpos := List.length_pos_iff.mpr (digits_ne_nil c)
  have hdigit (l : List Char) (hl : l ⊆ digits c) : ∀ x ∈ l, x.isDigit = true :=
    fun x hx => isDigit_of_mem_digits (hl hx)
  unfold pointed
  split_ifs with hleft hlast hright hlast hlast
  · omega
  · change (fraction ('.' :: (List.replicate (-dot).toNat '0' ++ digits c))).length = _
    simp only [fraction, ne_eq, not_true_eq_false, decide_false, List.dropWhile_cons_of_neg,
      Bool.false_eq_true, not_false_eq_true, List.length_cons, List.length_append,
      List.length_replicate]
    omega
  · rw [fraction_append (hdigit _ (List.Subset.refl _))]
    have hdot : (dot - (digits c).length).toNat = 0 := by omega
    rw [hdot]
    rfl
  · omega
  · omega
  · rw [fraction_append (hdigit _ (List.take_subset _ _))]
    simp only [fraction, ne_eq, not_true_eq_false, decide_false, List.dropWhile_cons_of_neg,
      Bool.false_eq_true, not_false_eq_true, List.length_cons, List.length_drop]
    omega

/-- There are digits and points only, neither the letter of the exponent nor a sign. -/
theorem pointed_plain (c : ℕ) (dot : ℤ) : ∀ x ∈ pointed (digits c) dot, x ≠ 'E' ∧ x ≠ '-' := by
  have hdigit {x : Char} (hx : x ∈ digits c) : x ≠ 'E' ∧ x ≠ '-' := by
    have hdigit := isDigit_of_mem_digits hx
    constructor <;> rintro rfl <;> cases hdigit
  unfold pointed
  split_ifs
  · intro x hx
    simp only [List.mem_cons, List.mem_append, List.mem_replicate] at hx
    obtain rfl | rfl | ⟨-, rfl⟩ | hx := hx
    · decide
    · decide
    · decide
    · exact hdigit hx
  · intro x hx
    simp only [List.mem_append, List.mem_replicate] at hx
    obtain hx | ⟨-, rfl⟩ := hx
    · exact hdigit hx
    · decide
  · intro x hx
    simp only [List.mem_append, List.mem_cons] at hx
    obtain hx | rfl | hx := hx
    · exact hdigit (List.mem_of_mem_take hx)
    · decide
    · exact hdigit (List.mem_of_mem_drop hx)

theorem signed_injective : Function.Injective signed := by
  intro j k h
  obtain ⟨hsign, hdigits⟩ := List.cons.inj h
  have habs := digits_injective hdigits
  by_cases hj : j < 0 <;> by_cases hk : k < 0 <;> simp only [hj, hk, if_true, if_false] at hsign
  · omega
  · cases hsign
  · cases hsign
  · omega

/-- What the text says of the exponent. -/
theorem exponentText_injective {c c' : ℕ} {e e' : ℤ} (h : exponentText c e = exponentText c' e') :
    leftDigits c e - dotPlace c e = leftDigits c' e' - dotPlace c' e' := by
  unfold exponentText at h
  split_ifs at h with hplain hplain' hplain'
  · omega
  · exact signed_injective (List.cons.inj h).2

theorem exponentText_head (c : ℕ) (e : ℤ) :
    exponentText c e = [] ∨ ∃ text, exponentText c e = 'E' :: text := by
  unfold exponentText
  split_ifs
  · exact .inl rfl
  · exact .inr ⟨_, rfl⟩

/-- The text of a number consists of the digits with the point, and the exponent. -/
theorem split_text {ds ds' x x' : List Char} (hds : ∀ c ∈ ds, c ≠ 'E') (hds' : ∀ c ∈ ds', c ≠ 'E')
    (hx : x = [] ∨ ∃ text, x = 'E' :: text) (hx' : x' = [] ∨ ∃ text, x' = 'E' :: text)
    (h : ds ++ x = ds' ++ x') : ds = ds' ∧ x = x' := by
  have htake {l y : List Char} (hl : ∀ c ∈ l, c ≠ 'E') (hy : y = [] ∨ ∃ text, y = 'E' :: text) :
      (l ++ y).takeWhile (fun c => c ≠ 'E') = l := by
    rw [List.takeWhile_append_of_pos (by simpa using hl)]
    obtain rfl | ⟨text, rfl⟩ := hy <;> simp
  have hparts : ds = ds' := by
    rw [← htake hds hx, h, htake hds' hx']
  subst hparts
  exact ⟨rfl, List.append_cancel_left h⟩

/-- The sign is the first character, or there is none. -/
theorem sign_injective {s s' : Bool} {c c' : ℕ} {dot dot' : ℤ} {x x' : List Char}
    (h : (if s then ['-'] else []) ++ (pointed (digits c) dot ++ x) =
      (if s' then ['-'] else []) ++ (pointed (digits c') dot' ++ x')) :
    s = s' ∧ pointed (digits c) dot ++ x = pointed (digits c') dot' ++ x' := by
  have hunsigned (c : ℕ) (dot : ℤ) (x l : List Char) : pointed (digits c) dot ++ x ≠ '-' :: l := by
    intro hminus
    cases hp : pointed (digits c) dot with
    | nil =>
      unfold pointed at hp
      split_ifs at hp <;> simp [digits_ne_nil] at hp
    | cons y ys =>
      rw [hp] at hminus
      have hplain := (pointed_plain c dot y (by simp [hp])).2
      exact hplain (List.cons.inj hminus).1
  cases s <;> cases s'
  · exact ⟨rfl, h⟩
  · exact absurd h (hunsigned _ _ _ _)
  · exact absurd h.symm (hunsigned _ _ _ _)
  · exact ⟨rfl, (List.cons.inj h).2⟩

/-- Sign, coefficient and exponent can be read from the text. -/
theorem chars_finite_injective {s s' : Bool} {c c' : ℕ} {e e' : ℤ}
    (h : (finite s c e).chars = (finite s' c' e').chars) : s = s' ∧ c = c' ∧ e = e' := by
  obtain ⟨hsign, h⟩ := sign_injective h
  obtain ⟨hpointed, hexponent⟩ := split_text (fun x hx => (pointed_plain _ _ x hx).1)
    (fun x hx => (pointed_plain _ _ x hx).1) (exponentText_head c e) (exponentText_head c' e') h
  obtain ⟨k, hk⟩ := pointed_digits c (dotPlace_le c e)
  obtain ⟨k', hk'⟩ := pointed_digits c' (dotPlace_le c' e')
  have hcoefficient : c = c' := by
    rw [hpointed, hk'] at hk
    rw [← ofDigitChars_zeros k c, ← hk, ofDigitChars_zeros]
  subst hcoefficient
  refine ⟨hsign, rfl, ?_⟩
  have hfraction := length_fraction c (dotPlace_le c e)
  rw [hpointed, length_fraction c (dotPlace_le c e')] at hfraction
  have hle := dotPlace_le c e
  have hle' := dotPlace_le c e'
  have hdot : dotPlace c e = dotPlace c e' := by
    split_ifs at hfraction <;> omega
  have hleft := exponentText_injective hexponent
  unfold leftDigits at hleft
  omega

/-- A number has digits. -/
theorem finite_digits (s : Bool) (c : ℕ) (e : ℤ) :
    (finite s c e).chars.filter Char.isDigit ≠ [] := by
  obtain ⟨k, hk⟩ := pointed_digits c (dotPlace_le c e)
  intro hnone
  rw [chars, List.filter_append, List.filter_append, hk] at hnone
  simp [digits_ne_nil] at hnone

/-- Different decimals have different texts. -/
theorem str_injective : Function.Injective str := by
  intro d d' h
  have h : d.chars = d'.chars := String.ofList_inj.mp h
  cases d with
  | finite s c e =>
    cases d' with
    | finite s' c' e' =>
      obtain ⟨rfl, rfl, rfl⟩ := chars_finite_injective h
      rfl
    | infinite s' => exact absurd (h ▸ by cases s' <;> decide) (finite_digits s c e)
    | nan b => exact absurd (h ▸ by cases b <;> decide) (finite_digits s c e)
  | infinite s =>
    cases d' with
    | finite s' c' e' => exact absurd (h ▸ by cases s <;> decide) (finite_digits s' c' e')
    | infinite s' => cases s <;> cases s' <;> first | rfl | cases h
    | nan b => cases s <;> cases b <;> cases h
  | nan b =>
    cases d' with
    | finite s' c' e' => exact absurd (h ▸ by cases b <;> decide) (finite_digits s' c' e')
    | infinite s' => cases b <;> cases s' <;> cases h
    | nan b' => cases b <;> cases b' <;> first | rfl | cases h

end Decimal

end BankingTransactions.DecimalArithmetic
