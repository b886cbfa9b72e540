import Mathlib.Logic.Relation
import Mathlib.Data.Fin.Basic
import Mathlib.Order.Defs.LinearOrder
import Mathlib.Tactic

/-!
# Cycles of waiting

Agents own resources and wait for others. A deadlock is a cycle of at least two
distinct agents, each waiting for a resource that the next one owns. Two ways to rule
it out: every agent owns only what ranks no higher than what it waits for, or the
resources are the nodes of a graph without cycles that has every wait as an edge.
-/
namespace BankingTransactions.WaitGraphs

variable {T K : Type} {waits : T → K → Prop} {owns : K → T → Prop}

/-- A cycle of distinct agents, each waiting for what the next one owns. -/
def Deadlock (waits : T → K → Prop) (owns : K → T → Prop) : Prop :=
  ∃ (m : ℕ) (agent : Fin (m + 2) → T) (resource : Fin (m + 2) → K), Function.Injective agent ∧
    ∀ i, waits (agent i) (resource i) ∧ owns (resource i) (agent (i + 1))

/-- What follows the steps of a cycle comes round to where it started. -/
theorem round_trip {R : K → K → Prop} {m : ℕ} {f : Fin (m + 2) → K}
    (h : ∀ i, R (f i) (f (i + 1))) : Relation.TransGen R (f 0) (f 0) := by
  have hreach : ∀ j : Fin (m + 2), Relation.ReflTransGen R (f 0) (f j) := by
    intro j
    induction j using Fin.induction with
    | zero => exact .refl
    | succ i ih =>
      have hstep := h i.castSucc
      rw [Fin.coeSucc_eq_succ] at hstep
      exact ih.tail hstep
  have hlast := h (Fin.last (m + 1))
  rw [Fin.last_add_one] at hlast
  exact .tail' (hreach _) hlast

/-- What never falls along a cycle does not rise in its first step. -/
theorem eq_of_le_succ [PartialOrder K] {m : ℕ} {f : Fin (m + 2) → K} (h : ∀ i, f i ≤ f (i + 1)) :
    f 0 = f 1 := by
  have hrise : ∀ j : Fin (m + 2), j = 0 ∨ f 1 ≤ f j := by
    intro j
    induction j using Fin.induction with
    | zero => exact .inl rfl
    | succ i ih =>
      have hstep := h i.castSucc
      rw [Fin.coeSucc_eq_succ] at hstep
      rcases ih with hzero | hle
      · have hone : i.succ = 1 := by
          rw [← Fin.coeSucc_eq_succ, hzero, zero_add]
        exact .inr (by rw [hone])
      · exact .inr (hle.trans hstep)
  have hlast := h (Fin.last (m + 1))
  rw [Fin.last_add_one] at hlast
  have hle : f 1 ≤ f (Fin.last (m + 1)) := (hrise _).resolve_left (by simp [Fin.ext_iff])
  have hfirst := h 0
  rw [zero_add] at hfirst
  exact le_antisymm hfirst (hle.trans hlast)

/-- Owners that rank no higher than what they wait for are never deadlocked. -/
theorem not_deadlock_of_ranked [PartialOrder K]
    (hranked : ∀ {t k k'}, waits t k → owns k' t → k' ≤ k)
    (hunique : ∀ {k t t'}, owns k t → owns k t' → t = t') : ¬ Deadlock waits owns := by
  intro hdeadlock
  obtain ⟨m, agent, resource, hinjective, hcycle⟩ := hdeadlock
  have hle : ∀ i, resource i ≤ resource (i + 1) := fun i =>
    hranked (hcycle (i + 1)).1 (hcycle i).2
  have heq := eq_of_le_succ hle
  have howned := (hcycle 0).2
  rw [heq] at howned
  have hsame := hinjective (hunique howned (hcycle 1).2)
  simp at hsame

/-- In a deadlock the resources form a cycle of waits. -/
theorem Deadlock.cycle (h : Deadlock waits owns) :
    ∃ k, Relation.TransGen (fun k k' => ∃ t, owns k t ∧ waits t k') k k := by
  obtain ⟨m, agent, resource, -, hcycle⟩ := h
  exact ⟨_, round_trip (f := resource) fun i =>
    ⟨agent (i + 1), (hcycle i).2, (hcycle (i + 1)).1⟩⟩

/-! ## Graphs without cycles -/

def Acyclic (E : K → K → Prop) : Prop := ∀ k, ¬ Relation.TransGen E k k

/-- A new edge closes no cycle when nothing leads back from its end to its start. -/
theorem Acyclic.insert {E : K → K → Prop} (h : Acyclic E) {a b : K}
    (hback : ¬ Relation.ReflTransGen E b a) : Acyclic fun x y => E x y ∨ x = a ∧ y = b := by
  have hpath : ∀ {x y}, Relation.TransGen (fun x y => E x y ∨ x = a ∧ y = b) x y →
      Relation.TransGen E x y ∨ Relation.ReflTransGen E x a ∧ Relation.ReflTransGen E b y := by
    intro x y hxy
    induction hxy with
    | single hstep =>
      rcases hstep with hstep | ⟨rfl, rfl⟩
      · exact .inl (.single hstep)
      · exact .inr ⟨.refl, .refl⟩
    | tail _ hstep ih =>
      rcases hstep with hstep | ⟨rfl, rfl⟩
      · rcases ih with hold | ⟨hto, hfrom⟩
        · exact .inl (hold.tail hstep)
        · exact .inr ⟨hto, hfrom.tail hstep⟩
      · rcases ih with hold | ⟨hto, -⟩
        · exact .inr ⟨hold.to_reflTransGen, .refl⟩
        · exact .inr ⟨hto, .refl⟩
  intro k hk
  rcases hpath hk with hold | ⟨hto, hfrom⟩
  · exact h k hold
  · exact hback (hfrom.trans hto)

theorem Acyclic.mono {E E' : K → K → Prop} (h : Acyclic E) (hE : ∀ a b, E' a b → E a b) :
    Acyclic E' := fun k hk => h k (Relation.TransGen.mono hE _ _ hk)

/-- Waits along the edges of a graph without cycles are never a deadlock. -/
theorem not_deadlock_of_acyclic {E : K → K → Prop} (h : Acyclic E)
    (hwaits : ∀ {t k k'}, owns k t → waits t k' → E k k') : ¬ Deadlock waits owns := by
  intro hdeadlock
  obtain ⟨k, hk⟩ := hdeadlock.cycle
  refine h k (Relation.TransGen.mono (fun a b hab => ?_) _ _ hk)
  obtain ⟨t, howns, hwait⟩ := hab
  exact hwaits howns hwait

end BankingTransactions.WaitGraphs
