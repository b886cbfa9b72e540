import BankingTransactions.ThreadPools
import Mathlib.Order.Defs.Unbundled

/-!
# Budgets of operations

How many operations a program performs at most, whatever it is answered. The budget is a
contract whose view is what is left of it, and every construct of a task has a rule for what it
costs. A thread of a pool makes as many steps as its budget allows, whatever the others do.
-/
namespace BankingTransactions.InteractionPrograms

variable {Op : Type} {Res : Op → Type} {ε σ α β : Type}

/-- Every operation costs one, and there has to be something left for it. -/
def Contract.budget : Contract Op Res ℕ where
  demand n _ Q := 0 < n ∧ ∀ r, Q r (n - 1)
  mono h hQ := ⟨hQ.1, fun r => h _ _ (hQ.2 r)⟩

namespace Program

/-- The program performs at most `n` operations. -/
def Within (p : Program Op Res α) (n : ℕ) : Prop := p.wp .budget (fun _ _ => True) n

end Program

namespace Task

variable {R : σ → σ → Prop} {m n : ℕ}

/-- The code performs at most `n` operations and changes the state as `R` allows. -/
def Costs (R : σ → σ → Prop) (x : Task (Program Op Res) ε σ α) (n : ℕ) : Prop :=
  ∀ s m, n ≤ m → wp .budget x (fun _ s' m' => R s s' ∧ m ≤ m' + n) s m

theorem Costs.mono {x : Task (Program Op Res) ε σ α} (hx : Costs R x m) (h : m ≤ n) :
    Costs R x n := by
  intro s k hk
  refine wp_mono (fun _ s' k' hs => ?_) (hx s k (h.trans hk))
  exact ⟨hs.1, by omega⟩

theorem Costs.anyhow {x : Task (Program Op Res) ε σ α} (hx : Costs R x n) :
    Costs (fun _ _ => True) x n := by
  intro s k hk
  exact wp_mono (fun _ _ _ h => ⟨trivial, h.2⟩) (hx s k hk)

theorem costs_perform [Std.Refl R] (o : Op) (get : Res o → Except ε α) :
    Costs R (perform o get) 1 := by
  intro s k hk
  rw [wp_perform]
  exact ⟨hk, fun _ => ⟨refl_of R s, by omega⟩⟩

theorem costs_stepState {f : σ → Except ε α × σ} (hf : ∀ s, R s (f s).2) :
    Costs R (stepState f : Task (Program Op Res) ε σ α) 0 := by
  intro s k hk
  rw [wp_stepState]
  exact ⟨hf s, le_rfl⟩

theorem costs_modifyState {f : σ → σ} (hf : ∀ s, R s (f s)) :
    Costs R (modifyState f : Task (Program Op Res) ε σ Unit) 0 := by
  intro s k hk
  rw [wp_modifyState]
  exact ⟨hf s, le_rfl⟩

section Preorder

variable [IsPreorder σ R]

theorem costs_ofExcept (x : Except ε α) :
    Costs R (ofExcept x : Task (Program Op Res) ε σ α) 0 := by
  intro s k hk
  rw [wp_ofExcept]
  exact ⟨refl_of R s, le_rfl⟩

theorem costs_pure (a : α) : Costs R (pure a : Task (Program Op Res) ε σ α) 0 :=
  costs_ofExcept (.ok a)

theorem costs_throw (e : ε) : Costs R (throw e : Task (Program Op Res) ε σ α) 0 :=
  costs_ofExcept (.error e)

theorem costs_bind {x : Task (Program Op Res) ε σ β} {f : β → Task (Program Op Res) ε σ α}
    (hx : Costs R x m) (hf : ∀ b, Costs R (f b) n) : Costs R (x >>= f) (n + m) := by
  intro s k hk
  rw [wp_bind]
  refine wp_mono (fun r s' k' h => ?_) (hx s k (by omega))
  obtain ⟨hs, hleft⟩ := h
  cases r with
  | error e => exact ⟨hs, by omega⟩
  | ok b =>
    refine wp_mono (fun _ s'' k'' h' => ?_) (hf b s' k' (by omega))
    exact ⟨trans_of R hs h'.1, by omega⟩

theorem costs_tryCatch {x : Task (Program Op Res) ε σ α} {f : ε → Task (Program Op Res) ε σ α}
    (hx : Costs R x m) (hf : ∀ e, Costs R (f e) n) : Costs R (tryCatch x f) (n + m) := by
  intro s k hk
  rw [wp_tryCatch]
  refine wp_mono (fun r s' k' h => ?_) (hx s k (by omega))
  obtain ⟨hs, hleft⟩ := h
  cases r with
  | ok a => exact ⟨hs, by omega⟩
  | error e =>
    refine wp_mono (fun _ s'' k'' h' => ?_) (hf e s' k' (by omega))
    exact ⟨trans_of R hs h'.1, by omega⟩

theorem costs_withExit {body : Task (Program Op Res) ε σ α}
    {exit : Option ε → Task (Program Op Res) ε σ Unit} (hbody : Costs R body m)
    (hexit : ∀ e, Costs R (exit e) n) : Costs R (withExit body exit) (n + m) := by
  intro s k hk
  rw [wp_withExit]
  refine wp_mono (fun r s' k' h => ?_) (hbody s k (by omega))
  obtain ⟨hs, hleft⟩ := h
  cases r
  all_goals
    refine wp_mono (fun r' s'' k'' h' => ?_) (hexit _ s' k' (by omega))
    have hs' := trans_of R hs h'.1
    cases r' <;> exact ⟨hs', by omega⟩

end Preorder

end Task

end BankingTransactions.InteractionPrograms

namespace BankingTransactions.ThreadPools
open InteractionPrograms

variable {T σ Req Choice Ev Op : Type} {Res : Op → Type} {α : Type} [DecidableEq T]

/-- The steps of a thread. -/
def Label.resumes (t : T) : Label T Req Choice Ev → Bool
  | .resume t' _ => t' = t
  | _ => false

/-- How many steps a thread makes. -/
def stepsOf (t : T) (ls : List (Label T Req Choice Ev)) : ℕ := ls.countP fun l => l.resumes t

theorem stepsOf_cons (t : T) (l : Label T Req Choice Ev) (ls : List (Label T Req Choice Ev)) :
    stepsOf t (l :: ls) = stepsOf t ls + if l.resumes t then 1 else 0 := List.countP_cons

/-- What is left of a budget of `bound` operations for a thread, whether or not it has arrived. -/
def Pool.Left (p : Pool T σ Req Op Res α) (bound : ℕ) (t : T) (n : ℕ) : Prop :=
  match p.threads t with
  | none => n = bound
  | some (_, program) => program.Within n

variable {H : Host T σ Req Choice Ev Op Res α} {bound : ℕ}

/-- A step of a thread costs one, and the steps of others cost it nothing. -/
theorem Pool.Left.step (hbound : ∀ r, (H.program r).Within bound)
    {p p' : Pool T σ Req Op Res α} {l : Label T Req Choice Ev} (hstep : H.step p l = some p')
    {t : T} {n : ℕ} (h : p.Left bound t n) :
    ∃ n', p'.Left bound t n' ∧ n' + (if l.resumes t then 1 else 0) ≤ n := by
  cases l with
  | spawn t' r =>
    simp only [Host.step] at hstep
    split at hstep
    · cases hstep
    · rename_i hnone
      obtain ⟨s, -, rfl⟩ := Option.map_eq_some_iff.mp hstep
      refine ⟨n, ?_, le_rfl⟩
      by_cases ht : t = t'
      · subst ht
        simp only [Pool.Left, hnone] at h
        simp only [Pool.Left, Function.update_self]
        exact h ▸ hbound r
      · simpa only [Pool.Left, Function.update_of_ne ht] using h
  | resume t' c =>
    simp only [Host.step] at hstep
    split at hstep
    · rename_i r o k hthread
      obtain ⟨⟨res, s⟩, -, rfl⟩ := Option.map_eq_some_iff.mp hstep
      by_cases ht : t' = t
      · subst ht
        simp only [Pool.Left, hthread] at h
        obtain ⟨hpos, hrest⟩ := h
        refine ⟨n - 1, ?_, ?_⟩
        · simp only [Pool.Left, Function.update_self]
          exact hrest res
        · simp only [Label.resumes, decide_true, if_true]
          omega
      · refine ⟨n, ?_, ?_⟩
        · simpa only [Pool.Left, Function.update_of_ne (Ne.symm ht)] using h
        · simp [Label.resumes, ht]
    · cases hstep
  | disturb e =>
    obtain ⟨s, -, rfl⟩ := Option.map_eq_some_iff.mp hstep
    exact ⟨n, h, le_rfl⟩

/-- However the threads of a pool are interleaved, none of them makes more steps than its program
has operations. -/
theorem Run.steps_le (hbound : ∀ r, (H.program r).Within bound)
    {ok : Pool T σ Req Op Res α → Label T Req Choice Ev → Prop} {s : σ}
    {p : Pool T σ Req Op Res α} {ls : List (Label T Req Choice Ev)}
    (hrun : Run H.step ok (Pool.empty s) ls p) (t : T) :
    stepsOf t ls ≤ bound := by
  have hall : ∀ {p p' : Pool T σ Req Op Res α} {ls : List (Label T Req Choice Ev)},
      Run H.step ok p ls p' → ∀ {n}, p.Left bound t n →
        ∃ n', p'.Left bound t n' ∧ n' + stepsOf t ls ≤ n := by
    intro p p' ls hrun
    induction hrun with
    | nil => exact fun h => ⟨_, h, le_rfl⟩
    | cons _ hstep _ ih =>
      intro n h
      obtain ⟨n', h', hle⟩ := h.step hbound hstep
      obtain ⟨n'', h'', hle'⟩ := ih h'
      refine ⟨n'', h'', ?_⟩
      rw [stepsOf_cons]
      omega
  obtain ⟨n, -, hle⟩ := hall hrun (n := bound) rfl
  omega

end BankingTransactions.ThreadPools
