import Mathlib.Algebra.BigOperators.Finprod
import Mathlib.Algebra.Order.Group.Defs
import Mathlib.Tactic.Abel

/-!
# Atomic banks

What a bank is for, one operation after the other: accounts are enrolled, an order moves an
amount or is refused, and every order leaves a receipt under its key, which can be asked for
but not replaced. A run keeps the amounts non-negative, adds to the money in a currency what
was enrolled in it and nothing else, and every receipt that it hands out stays the receipt of
its key.
-/
namespace BankingTransactions.AtomicBanks

/-- An account of a holder. -/
structure Account (H C M : Type) where
  holder : H
  currency : C
  amount : M

structure Order (A C M : Type) where
  source : A
  target : A
  currency : C
  amount : M

inductive Refusal where
  | currency
  | funds

inductive Verdict where
  | executed
  | refused (why : Refusal)

/-- What is kept of an order, with what was generated for it. -/
structure Receipt (A C M D : Type) where
  order : Order A C M
  stamp : D
  verdict : Verdict

structure Bank (A H C M K D : Type) where
  accounts : A → Option (Account H C M)
  register : K → Option (Receipt A C M D)
  finite : {a | accounts a ≠ none}.Finite

inductive Operation (A H C M K D : Type) where
  | enroll (a : A) (x : Account H C M)
  | submit (k : K) (o : Order A C M) (d : D)
  | inquire (k : K)

inductive Result (A H C M K D : Type) where
  | enrolled (a : A) (x : Account H C M)
  | receipt (k : K) (r : Receipt A C M D)

variable {A H C M K D : Type}

section Verdicts

variable [DecidableEq C] [LinearOrder M]

/-- The verdict on an order between two accounts. -/
def judge (s r : Account H C M) (o : Order A C M) : Verdict :=
  if s.currency ≠ o.currency then .refused .currency
  else if s.amount < o.amount then .refused .funds
  else if r.currency ≠ o.currency then .refused .currency
  else .executed

theorem judge_executed {s r : Account H C M} {o : Order A C M} :
    judge s r o = .executed ↔
      s.currency = o.currency ∧ r.currency = o.currency ∧ o.amount ≤ s.amount := by
  unfold judge
  by_cases hs : s.currency = o.currency <;> by_cases hr : r.currency = o.currency <;>
    by_cases ho : s.amount < o.amount <;> simp [hs, hr, ho, not_le.mpr, not_lt.mp]

end Verdicts

namespace Bank

def empty : Bank A H C M K D := ⟨fun _ => none, fun _ => none, by simp⟩

/-- No account is overdrawn. -/
def Solvent [Zero M] [LE M] (b : Bank A H C M K D) : Prop :=
  ∀ a x, b.accounts a = some x → 0 ≤ x.amount

/-- The amount of an account in a currency. -/
def holding [DecidableEq C] [Zero M] (b : Bank A H C M K D) (c : C) (a : A) : M :=
  match b.accounts a with
  | none => 0
  | some x => if x.currency = c then x.amount else 0

/-- The money in a currency. -/
noncomputable def total [DecidableEq C] [AddCommMonoid M] (b : Bank A H C M K D) (c : C) : M :=
  ∑ᶠ a, b.holding c a

end Bank

/-- The money that an operation brings into the bank. -/
def Operation.deposit [DecidableEq C] [Zero M] (op : Operation A H C M K D) (c : C) : M :=
  match op with
  | .enroll _ x => if x.currency = c then x.amount else 0
  | _ => 0

/-- What an executed order changes on an account. -/
def Order.shift [DecidableEq A] [AddGroup M] (o : Order A C M) (a : A) : M :=
  (if a = o.target then o.amount else 0) - (if a = o.source then o.amount else 0)

section Runs

variable [DecidableEq A] [DecidableEq C] [DecidableEq K] [AddCommGroup M] [LinearOrder M]

namespace Bank

/-- One operation and its result. -/
inductive Step (b : Bank A H C M K D) : Operation A H C M K D → Result A H C M K D →
    Bank A H C M K D → Prop
  | enroll {b' : Bank A H C M K D} {a : A} {x : Account H C M} (new : b.accounts a = none)
      (amount : 0 ≤ x.amount)
      (accounts : ∀ a', b'.accounts a' = if a' = a then some x else b.accounts a')
      (register : b'.register = b.register) : Step b (.enroll a x) (.enrolled a x) b'
  | execute {b' : Bank A H C M K D} {k : K} {o : Order A C M} {d : D} {s r : Account H C M}
      (unused : b.register k = none) (distinct : o.source ≠ o.target) (positive : 0 < o.amount)
      (source : b.accounts o.source = some s) (target : b.accounts o.target = some r)
      (verdict : judge s r o = .executed)
      (accounts : ∀ a, b'.accounts a =
        (b.accounts a).map fun x => { x with amount := x.amount + o.shift a })
      (register : ∀ k', b'.register k' = if k' = k then some ⟨o, d, .executed⟩ else b.register k') :
      Step b (.submit k o d) (.receipt k ⟨o, d, .executed⟩) b'
  | refuse {b' : Bank A H C M K D} {k : K} {o : Order A C M} {d : D} {s r : Account H C M}
      {why : Refusal} (unused : b.register k = none) (distinct : o.source ≠ o.target)
      (positive : 0 < o.amount) (source : b.accounts o.source = some s)
      (target : b.accounts o.target = some r) (verdict : judge s r o = .refused why)
      (accounts : b'.accounts = b.accounts)
      (register : ∀ k', b'.register k' =
        if k' = k then some ⟨o, d, .refused why⟩ else b.register k') :
      Step b (.submit k o d) (.receipt k ⟨o, d, .refused why⟩) b'
  | inquire {k : K} {r : Receipt A C M D} (found : b.register k = some r) :
      Step b (.inquire k) (.receipt k r) b

/-- Operations and their results, one after the other. -/
inductive Runs (b : Bank A H C M K D) :
    List (Operation A H C M K D × Result A H C M K D) → Bank A H C M K D → Prop
  | nil : Runs b [] b
  | snoc {b' b'' : Bank A H C M K D} {es : List (Operation A H C M K D × Result A H C M K D)}
      {op : Operation A H C M K D} {res : Result A H C M K D} :
      Runs b es b' → Step b' op res b'' → Runs b (es ++ [(op, res)]) b''

variable {b b' : Bank A H C M K D} {op : Operation A H C M K D} {res : Result A H C M K D}
  {es : List (Operation A H C M K D × Result A H C M K D)}

/-- The result is one of this operation. -/
def Answers : Operation A H C M K D → Result A H C M K D → Prop
  | .enroll a x, .enrolled a' x' => a' = a ∧ x' = x
  | .submit k _ _, .receipt k' _ => k' = k
  | .inquire k, .receipt k' _ => k' = k
  | _, _ => False

theorem Step.answers (h : Step b op res b') : Answers op res := by
  cases h with
  | enroll => exact ⟨rfl, rfl⟩
  | execute => exact rfl
  | refuse => exact rfl
  | inquire => exact rfl

theorem Runs.answers (h : Runs b es b') : ∀ e ∈ es, Answers e.1 e.2 := by
  induction h with
  | nil => simp
  | snoc _ hstep ih =>
    intro e he
    rw [List.mem_append, List.mem_singleton] at he
    rcases he with he | rfl
    · exact ih e he
    · exact hstep.answers

/-! ## Receipts -/

/-- A receipt is never replaced. -/
theorem Step.register (h : Step b op res b') {k : K} {r : Receipt A C M D}
    (hr : b.register k = some r) : b'.register k = some r := by
  have hne {k' : K} (hunused : b.register k' = none) : k ≠ k' := by
    intro hk
    rw [hk, hunused] at hr
    cases hr
  cases h with
  | enroll _ _ _ hregister => rw [hregister, hr]
  | execute hunused _ _ _ _ _ _ hregister => rw [hregister, if_neg (hne hunused), hr]
  | refuse hunused _ _ _ _ _ _ hregister => rw [hregister, if_neg (hne hunused), hr]
  | inquire _ => exact hr

/-- A receipt that an operation hands out is the receipt of its key. -/
theorem Step.receipt (h : Step b op res b') {k : K} {r : Receipt A C M D}
    (hr : res = .receipt k r) : b'.register k = some r := by
  cases h with
  | enroll => cases hr
  | execute _ _ _ _ _ _ _ hregister =>
    cases hr
    rw [hregister, if_pos rfl]
  | refuse _ _ _ _ _ _ _ hregister =>
    cases hr
    rw [hregister, if_pos rfl]
  | inquire hfound =>
    cases hr
    exact hfound

/-- Every receipt that was handed out is still the receipt of its key. -/
theorem Runs.receipt (h : Runs b es b') {k : K} {r : Receipt A C M D}
    (hr : ∃ e ∈ es, e.2 = .receipt k r) : b'.register k = some r := by
  induction h with
  | nil => simp at hr
  | snoc _ hstep ih =>
    obtain ⟨e, he, hres⟩ := hr
    rw [List.mem_append, List.mem_singleton] at he
    rcases he with he | rfl
    · exact hstep.register (ih ⟨e, he, hres⟩)
    · exact hstep.receipt hres

/-! ## Money -/

omit [DecidableEq A] [DecidableEq K] [LinearOrder M] in
theorem holding_support (b : Bank A H C M K D) (c : C) :
    (Function.support (b.holding c)).Finite := by
  apply b.finite.subset
  intro a ha hnone
  exact ha (by simp [holding, hnone])

omit [DecidableEq A] [DecidableEq K] [LinearOrder M] in
/-- What is added to the holdings is added to the money. -/
theorem total_of_holding {c : C} {f : A → M} (hf : (Function.support f).Finite)
    (h : ∀ a, b'.holding c a = b.holding c a + f a) : b'.total c = b.total c + ∑ᶠ a, f a := by
  rw [total, total, ← finsum_add_distrib (b.holding_support c) hf]
  exact finsum_congr h

end Bank

section Shifts

omit [DecidableEq C] [LinearOrder M]

theorem single_support (a : A) (m : M) :
    (Function.support fun a' => if a' = a then m else 0).Finite := by
  apply (Set.finite_singleton a).subset
  intro a' ha'
  by_contra hne
  exact ha' (if_neg hne)

theorem sum_single (a : A) (m : M) : ∑ᶠ a', (if a' = a then m else 0) = m := by
  rw [finsum_eq_single _ a fun a' ha' => if_neg ha']
  exact if_pos rfl

theorem Order.shift_support (o : Order A C M) : (Function.support o.shift).Finite := by
  apply ((single_support o.target o.amount).union (single_support o.source o.amount)).subset
  exact Function.support_sub _ _

/-- An order moves money, and makes none. -/
theorem Order.sum_shift (o : Order A C M) : ∑ᶠ a, o.shift a = 0 := by
  unfold Order.shift
  rw [finsum_sub_distrib (single_support _ _) (single_support _ _), sum_single, sum_single,
    sub_self]

end Shifts

namespace Bank

variable {b b' : Bank A H C M K D} {op : Operation A H C M K D} {res : Result A H C M K D}
  {es : List (Operation A H C M K D × Result A H C M K D)}

omit [DecidableEq K] in
/-- An executed order shifts the holdings in its own currency. -/
theorem holding_shifted {o : Order A C M} {s r : Account H C M}
    (hs : b.accounts o.source = some s) (hr : b.accounts o.target = some r)
    (hverdict : judge s r o = .executed)
    (h : ∀ a, b'.accounts a = (b.accounts a).map fun x => { x with amount := x.amount + o.shift a })
    (c : C) (a : A) :
    b'.holding c a = b.holding c a + if o.currency = c then o.shift a else 0 := by
  obtain ⟨hscurrency, hrcurrency, -⟩ := judge_executed.mp hverdict
  have hstill (hsource : a ≠ o.source) (htarget : a ≠ o.target) : o.shift a = 0 := by
    simp [Order.shift, hsource, htarget]
  cases hx : b.accounts a with
  | none =>
    have hsource : a ≠ o.source := by
      intro ha
      rw [ha, hs] at hx
      cases hx
    have htarget : a ≠ o.target := by
      intro ha
      rw [ha, hr] at hx
      cases hx
    simp [holding, h, hx, hstill hsource htarget]
  | some x =>
    by_cases hparty : a = o.source ∨ a = o.target
    · have hcurrency : x.currency = o.currency := by
        rcases hparty with ha | ha
        · rw [ha, hs] at hx
          rw [← Option.some.inj hx, hscurrency]
        · rw [ha, hr] at hx
          rw [← Option.some.inj hx, hrcurrency]
      simp only [holding, h, hx, Option.map_some, hcurrency]
      split_ifs <;> simp
    · obtain ⟨hsource, htarget⟩ := not_or.mp hparty
      simp [holding, h, hx, hstill hsource htarget]

/-- An operation adds to the money what it brings in. -/
theorem Step.total (h : Step b op res b') (c : C) : b'.total c = b.total c + op.deposit c := by
  have hsame (haccounts : b'.accounts = b.accounts) : b'.total c = b.total c + 0 := by
    simp only [Bank.total, holding, haccounts, add_zero]
  cases h with
  | @enroll _ a x hnew _ haccounts _ =>
    rw [total_of_holding (single_support a ((Operation.enroll a x : Operation A H C M K D).deposit c))
      fun a' => ?_, sum_single]
    by_cases ha : a' = a
    · simp [holding, haccounts, ha, hnew, Operation.deposit]
    · simp [holding, haccounts, ha]
  | @execute _ k o d s r _ _ _ hs hr hverdict haccounts _ =>
    have hsum : ∑ᶠ a, (if o.currency = c then o.shift a else 0) = 0 := by
      split_ifs
      · exact o.sum_shift
      · exact finsum_zero
    have hfinite : (Function.support fun a => if o.currency = c then o.shift a else 0).Finite := by
      split_ifs
      · exact o.shift_support
      · simp
    rw [total_of_holding hfinite (holding_shifted hs hr hverdict haccounts c), hsum]
    rfl
  | refuse _ _ _ _ _ _ haccounts _ => exact hsame haccounts
  | inquire _ => exact hsame rfl

theorem Runs.total (h : Runs b es b') (c : C) :
    b'.total c = b.total c + (es.map fun e => e.1.deposit c).sum := by
  induction h with
  | nil => simp
  | snoc _ hstep ih =>
    rw [hstep.total, ih, List.map_append, List.sum_append, add_assoc]
    simp

/-! ## Solvency -/

variable [IsOrderedAddMonoid M]

theorem Step.solvent (h : Step b op res b') (hb : b.Solvent) : b'.Solvent := by
  intro a x hx
  cases h with
  | enroll _ hamount haccounts _ =>
    rw [haccounts] at hx
    split_ifs at hx
    · cases hx
      exact hamount
    · exact hb a x hx
  | @execute _ k o d s r _ hdistinct hpositive hs hr hverdict haccounts _ =>
    obtain ⟨-, -, henough⟩ := judge_executed.mp hverdict
    rw [haccounts] at hx
    obtain ⟨y, hy, rfl⟩ := Option.map_eq_some_iff.mp hx
    have hbefore := hb a y hy
    by_cases hsource : a = o.source
    · rw [hsource, hs] at hy
      cases hy
      simpa [Order.shift, hsource, hdistinct] using henough
    · by_cases htarget : a = o.target
      · simpa [Order.shift, hsource, htarget, hdistinct.symm] using
          add_nonneg hbefore hpositive.le
      · simpa [Order.shift, hsource, htarget] using hbefore
  | refuse _ _ _ _ _ _ haccounts _ => exact hb a x (haccounts ▸ hx)
  | inquire _ => exact hb a x hx

theorem Runs.solvent (h : Runs b es b') (hb : b.Solvent) : b'.Solvent := by
  induction h with
  | nil => exact hb
  | snoc _ hstep ih => exact hstep.solvent ih

omit [DecidableEq A] [DecidableEq K] [IsOrderedAddMonoid M] in
theorem Solvent.holding_nonneg (hb : b.Solvent) (c : C) (a : A) : 0 ≤ b.holding c a := by
  unfold holding
  cases hx : b.accounts a with
  | none => exact le_rfl
  | some x =>
    simp only
    split_ifs
    · exact hb a x hx
    · exact le_rfl

omit [DecidableEq A] [DecidableEq K] in
/-- In a solvent bank nobody holds more than the money there is. -/
theorem Solvent.holding_le_total (hb : b.Solvent) (c : C) (a : A) :
    b.holding c a ≤ b.total c :=
  single_le_finsum a (holding_support b c) (hb.holding_nonneg c)

end Bank

end Runs

end BankingTransactions.AtomicBanks
