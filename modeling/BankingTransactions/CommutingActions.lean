import Mathlib.Algebra.Group.Hom.Defs

/-!
# Actions that add to a state

An action returns an outcome and adds an increment to the state. Two actions are alike at two
states when their outcomes are related and a homomorphism keeps the same of their increments.
Where each of two actions is alike before and after the other, their outcomes do not depend on
the order, nor does what is kept of all that they add.
-/
namespace BankingTransactions.CommutingActions

variable {S O D E : Type} [AddCommMonoid D] [AddCommMonoid E]

/-- How increments take states to states. -/
structure Increments (S D : Type) [AddCommMonoid D] where
  adds : D → S → S → Prop
  zero : ∀ s, adds 0 s s
  trans : ∀ {δ δ' s t u}, adds δ s t → adds δ' t u → adds (δ + δ') s u

/-- `act` at `s` and `act'` at `t`. -/
structure Alike (I : Increments S D) (keep : D →+ E) (R : O → O → Prop) (act act' : S → O × S)
    (s t : S) : Prop where
  outcome : R (act s).1 (act' t).1
  increment : ∃ δ δ', I.adds δ s (act s).2 ∧ I.adds δ' t (act' t).2 ∧ keep δ = keep δ'

variable {I : Increments S D} {keep : D →+ E} {R : O → O → Prop}

/-- Actions that change nothing are alike when their outcomes are. -/
theorem alike_of_unchanged {act act' : S → O × S} {s t : S} (hR : R (act s).1 (act' t).1)
    (hs : (act s).2 = s) (ht : (act' t).2 = t) : Alike I keep R act act' s t := by
  refine ⟨hR, 0, 0, ?_, ?_, rfl⟩
  · rw [hs]
    exact I.zero s
  · rw [ht]
    exact I.zero t

/-- One action and then the other, in both orders. -/
theorem Alike.commute {a a' b b' : S → O × S} {s : S} (ha : Alike I keep R a a' s (b' s).2)
    (hb : Alike I keep R b b' (a s).2 s) :
    R (a s).1 (a' (b' s).2).1 ∧ R (b (a s).2).1 (b' s).1 ∧
      ∃ δ δ', I.adds δ s (b (a s).2).2 ∧ I.adds δ' s (a' (b' s).2).2 ∧ keep δ = keep δ' := by
  obtain ⟨α, α', hα, hα', hkeepα⟩ := ha.increment
  obtain ⟨β, β', hβ, hβ', hkeepβ⟩ := hb.increment
  refine ⟨ha.outcome, hb.outcome, α + β, β' + α', I.trans hα hβ, I.trans hβ' hα', ?_⟩
  calc
    keep (α + β) = keep α + keep β := keep.map_add α β
    _ = keep β' + keep α' := by rw [hkeepα, hkeepβ, add_comm]
    _ = keep (β' + α') := (keep.map_add β' α').symm

end BankingTransactions.CommutingActions
