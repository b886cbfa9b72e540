import BankingTransactions.ThreadPools
import Mathlib.Data.Finset.Dedup

/-!
# Locks that are sets of keys

A lock service keeps the set of the keys that are held. A program takes keys one at a
time, between operations of other programs, and is trusted to give back what it took.
Each program owns the keys that it has taken and not given back, which is read off the
operations it performed and their answers.

`KeepsAccounts` says what is required of the service, `tidy` what is required of every
program, alone. Together they make the held keys the disjoint union of what the programs
own, in every state of every run, and a program that is in its body owns what it asked for.
-/
namespace BankingTransactions.KeyedLocks
open InteractionPrograms ThreadPools

variable {K : Type}

/-! ## Accounts -/

/-- What an operation has done to the keys. -/
inductive Effect (K : Type) where
  | take (k : K)
  | drop (k : K)
  | none
  deriving DecidableEq

/-- The keys that are held are the disjoint union of what the programs own. -/
structure Accounts {T : Type} (held : Finset K) (owned : T → Finset K) : Prop where
  held_iff : ∀ k, k ∈ held ↔ ∃ t, k ∈ owned t
  disjoint : ∀ t t', t ≠ t' → Disjoint (owned t) (owned t')

namespace Accounts

variable {T : Type} {held : Finset K} {owned : T → Finset K}

theorem empty : Accounts ∅ fun _ : T => (∅ : Finset K) :=
  ⟨by simp, by simp⟩

/-- A key has at most one owner. -/
theorem owner_unique (h : Accounts held owned) {k : K} {t t' : T} (ht : k ∈ owned t)
    (ht' : k ∈ owned t') : t = t' := by
  by_contra hne
  exact Finset.disjoint_left.mp (h.disjoint t t' hne) ht ht'

theorem subset (h : Accounts held owned) (t : T) : owned t ⊆ held :=
  fun k hk => (h.held_iff k).mpr ⟨t, hk⟩

theorem eq_empty (h : Accounts held owned) (hnone : ∀ t, owned t = ∅) : held = ∅ := by
  apply Finset.eq_empty_of_forall_notMem
  intro k hk
  obtain ⟨t, ht⟩ := (h.held_iff k).mp hk
  simp [hnone t] at ht

end Accounts

variable [DecidableEq K]

def Effect.apply : Effect K → Finset K → Finset K
  | take k, v => insert k v
  | drop k, v => v.erase k
  | none, v => v

@[simp] theorem Effect.apply_take (k : K) (v : Finset K) : (take k).apply v = insert k v := rfl

@[simp] theorem Effect.apply_drop (k : K) (v : Finset K) : (drop k).apply v = v.erase k := rfl

@[simp] theorem Effect.apply_none (v : Finset K) : (none : Effect K).apply v = v := rfl

namespace Accounts

variable {T : Type} [DecidableEq T] {held : Finset K} {owned : T → Finset K}

/-- A key that nobody holds is taken. -/
theorem take (h : Accounts held owned) (t : T) {k : K} (hk : k ∉ held) :
    Accounts (insert k held) (Function.update owned t (insert k (owned t))) := by
  have hfree : ∀ t', k ∉ owned t' := fun t' hmem => hk (h.subset t' hmem)
  constructor
  · intro k'
    rw [Finset.mem_insert, h.held_iff]
    constructor
    · rintro (rfl | ⟨t', hmem⟩)
      · exact ⟨t, by simp⟩
      · refine ⟨t', ?_⟩
        by_cases ht : t' = t
        · subst ht
          simp [hmem]
        · simpa [ht] using hmem
    · rintro ⟨t', hmem⟩
      by_cases ht : t' = t
      · subst ht
        rw [Function.update_self, Finset.mem_insert] at hmem
        exact hmem.imp id fun hmem => ⟨t', hmem⟩
      · rw [Function.update_of_ne ht] at hmem
        exact .inr ⟨t', hmem⟩
  · intro t₁ t₂ hne
    by_cases h₁ : t₁ = t
    · subst h₁
      rw [Function.update_self, Function.update_of_ne hne.symm, Finset.disjoint_insert_left]
      exact ⟨hfree t₂, h.disjoint t₁ t₂ hne⟩
    · rw [Function.update_of_ne h₁]
      by_cases h₂ : t₂ = t
      · subst h₂
        rw [Function.update_self, Finset.disjoint_insert_right]
        exact ⟨hfree t₁, h.disjoint t₁ t₂ hne⟩
      · rw [Function.update_of_ne h₂]
        exact h.disjoint t₁ t₂ hne

/-- A key is given back by its owner. -/
theorem drop (h : Accounts held owned) {t : T} {k : K} (hk : k ∈ owned t) :
    Accounts (held.erase k) (Function.update owned t ((owned t).erase k)) := by
  have hother : ∀ t', t' ≠ t → k ∉ owned t' := fun t' hne hmem => hne (h.owner_unique hmem hk)
  constructor
  · intro k'
    rw [Finset.mem_erase, h.held_iff]
    constructor
    · rintro ⟨hne, t', hmem⟩
      refine ⟨t', ?_⟩
      by_cases ht : t' = t
      · subst ht
        simp [hne, hmem]
      · simpa [ht] using hmem
    · rintro ⟨t', hmem⟩
      by_cases ht : t' = t
      · subst ht
        rw [Function.update_self, Finset.mem_erase] at hmem
        exact ⟨hmem.1, t', hmem.2⟩
      · rw [Function.update_of_ne ht] at hmem
        refine ⟨fun heq => ?_, t', hmem⟩
        subst heq
        exact hother t' ht hmem
  · intro t₁ t₂ hne
    have hsub : ∀ t', Function.update owned t ((owned t).erase k) t' ⊆ owned t' := by
      intro t'
      by_cases ht : t' = t
      · subst ht
        rw [Function.update_self]
        exact Finset.erase_subset k (owned t')
      · rw [Function.update_of_ne ht]
    exact (h.disjoint t₁ t₂ hne).mono (hsub t₁) (hsub t₂)

/-- What one operation does to the keys keeps the accounts, when it takes only what is
free and gives back only what is owned. -/
theorem apply (h : Accounts held owned) (t : T) {e : Effect K}
    (htake : ∀ k, e = .take k → k ∉ held) (hdrop : ∀ k, e = .drop k → k ∈ owned t) :
    Accounts (e.apply held) (Function.update owned t (e.apply (owned t))) := by
  cases e with
  | take k => exact h.take t (htake k rfl)
  | drop k => exact h.drop (hdrop k rfl)
  | none =>
    simp only [Effect.apply_none, Function.update_eq_self]
    exact h

end Accounts

/-- A list of keys, in the order in which they were taken. -/
structure Lists (l : List K) (v : Finset K) : Prop where
  nodup : l.Nodup
  toFinset_eq : l.toFinset = v

namespace Lists

variable {l : List K} {v : Finset K} {k : K}

theorem nil : Lists [] (∅ : Finset K) := ⟨List.nodup_nil, rfl⟩

theorem append (h : Lists l v) (hk : k ∉ v) : Lists (l ++ [k]) (insert k v) := by
  have hnew : k ∉ l := by simpa [← h.toFinset_eq] using hk
  constructor
  · simpa [List.nodup_append] using ⟨h.nodup, fun k' hk' heq => hnew (heq ▸ hk')⟩
  · ext k'
    simp [← h.toFinset_eq]

theorem reverse (h : Lists l v) : Lists l.reverse v :=
  ⟨List.nodup_reverse.mpr h.nodup, by rw [List.toFinset_reverse, h.toFinset_eq]⟩

theorem mem_head (h : Lists (k :: l) v) : k ∈ v := by
  simp [← h.toFinset_eq]

theorem tail (h : Lists (k :: l) v) : Lists l (v.erase k) := by
  obtain ⟨hk, hnodup⟩ := List.nodup_cons.mp h.nodup
  refine ⟨hnodup, ?_⟩
  rw [← h.toFinset_eq, List.toFinset_cons, Finset.erase_insert]
  simpa using hk

theorem eq_empty (h : Lists [] v) : v = ∅ := h.toFinset_eq.symm

end Lists

/-! ## Programs that give back what they take -/

variable {Op : Type} {Res : Op → Type} {α : Type}

/-- What a program owns after one more operation. -/
def own (effect : (o : Op) → Res o → Effect K) (v : Finset K) (o : Op) (res : Res o) : Finset K :=
  (effect o res).apply v

/-- The view holds what the program owns, which is all of `keys` in its body. It may hear what
the service says in `answers`, it is not granted what it owns already, and it gives back only
what it owns. -/
def tidy (effect : (o : Op) → Res o → Effect K) (answers : (o : Op) → Res o → Prop)
    (body : Op → Prop) (keys : Finset K) : Contract Op Res (Finset K) where
  demand v o Q := (body o → v = keys) ∧
    ∀ res, answers o res → (∀ k, effect o res = .take k → k ∉ v) →
      (∀ k, effect o res = .drop k → k ∈ v) ∧ Q res (own effect v o res)
  mono h hQ := ⟨hQ.1, fun res hres htake => (hQ.2 res hres htake).imp id (h _ _)⟩

section Tidy

variable {effect : (o : Op) → Res o → Effect K} {answers : (o : Op) → Res o → Prop}
  {body : Op → Prop} {keys : Finset K}

/-- With all of its keys, a program may do what does nothing to them. -/
theorem tidy_ignores {P : Op → Prop} (hP : ∀ o, P o → ∀ res, effect o res = .none) :
    (tidy effect answers body keys).Ignores keys P := by
  intro o Q ho hQ
  refine ⟨fun _ => rfl, fun res hres htake => ?_⟩
  simp [own, hP o ho res, hQ res]

variable {ε σ β : Type} {I : σ → Finset K → Prop}

/-- What was taken before the failure is given back. -/
theorem wp_take_or_release {take release : Task (Program Op Res) ε σ Unit} {s : σ} {v : Finset K}
    (htake : Task.wp (tidy effect answers body keys) take
      (fun r s v => I s v ∧ (r = .ok () → v = keys)) s v)
    (hrelease : ∀ s v, I s v →
      Task.wp (tidy effect answers body keys) release (fun _ _ v => v = ∅) s v) :
    Task.wp (tidy effect answers body keys) (tryCatch take fun e => do release; throw e)
      (fun r s v => match r with
        | .ok _ => I s v ∧ v = keys
        | .error _ => v = ∅) s v := by
  rw [Task.wp_tryCatch]
  refine Task.wp_mono (fun r s v h => ?_) htake
  obtain ⟨hI, hall⟩ := h
  cases r with
  | ok _ => exact ⟨hI, hall rfl⟩
  | error e =>
    simp only
    rw [Task.wp_bind]
    refine Task.wp_mono (fun r s v hv => ?_) (hrelease s v hI)
    cases r with
    | ok _ =>
      simp only
      rw [Task.wp_throw]
      exact hv
    | error e' => exact hv

/-- However the body ends, what it was run under is given back. -/
theorem wp_release_after {task : Task (Program Op Res) ε σ β}
    {release : Task (Program Op Res) ε σ Unit} {s : σ} {v : Finset K}
    (htask : Task.wp (tidy effect answers body keys) task (fun _ => I) s v)
    (hrelease : ∀ s v, I s v →
      Task.wp (tidy effect answers body keys) release (fun _ _ v => v = ∅) s v) :
    Task.wp (tidy effect answers body keys) (Task.withExit task fun _ => release)
      (fun _ _ v => v = ∅) s v := by
  rw [Task.wp_withExit]
  refine Task.wp_mono (fun r s v hI => ?_) htask
  cases r
  all_goals
    refine Task.wp_mono (fun r s v hv => ?_) (hrelease s v hI)
    cases r <;> exact hv

end Tidy

/-! ## Runs -/

variable {T σ Req Choice Ev : Type}

/-- The program of a thread is not under way: it has not arrived or it has returned. -/
def Outside (p : Pool T σ Req Op Res α) (t : T) : Prop :=
  ∀ r o k, p.threads t ≠ some (r, .call o k)

variable [DecidableEq T]

/-- A service that takes free keys only and changes nothing else, as `effect` reads it off
its answers. -/
structure KeepsAccounts (H : Host T σ Req Choice Ev Op Res α) (held : σ → Finset K)
    (effect : (o : Op) → Res o → Effect K) (answers : (o : Op) → Res o → Prop) : Prop where
  accept : ∀ {t r s s'}, H.accept t r s = some s' → held s' = held s
  answer : ∀ {t r c o s res s'}, H.answer t r c o s = some (res, s') →
    answers o res ∧ (∀ k, effect o res = .take k → k ∉ held s) ∧
      held s' = (effect o res).apply (held s)
  disturb : ∀ {e s s'}, H.disturb e s = some s' → held s' = held s

section Runs

variable {H : Host T σ Req Choice Ev Op Res α} {held : σ → Finset K}
  {effect : (o : Op) → Res o → Effect K} {answers : (o : Op) → Res o → Prop}
  {body : Op → Prop} {keys : Req → Finset K}

/-- What every thread owns is in the accounts, and the rest of its program is tidy. -/
structure Kept (held : σ → Finset K) (effect : (o : Op) → Res o → Effect K)
    (answers : (o : Op) → Res o → Prop) (body : Op → Prop) (keys : Req → Finset K)
    (p : Pool T σ Req Op Res α) (owned : T → Finset K) : Prop where
  accounts : Accounts (held p.shared) owned
  tidy : ∀ t, match p.threads t with
    | none => owned t = ∅
    | some (r, q) => q.wp (tidy effect answers body (keys r)) (fun _ v => v = ∅) (owned t)

omit [DecidableEq T] in
/-- Whoever is in the body owns all of its keys. -/
theorem Kept.inside {p : Pool T σ Req Op Res α} {owned : T → Finset K}
    (h : Kept held effect answers body keys p owned) {t : T} {r : Req} {o : Op}
    {k : Res o → Program Op Res α} (hthread : p.threads t = some (r, .call o k)) (ho : body o) :
    owned t = keys r := by
  have htidy := h.tidy t
  rw [hthread] at htidy
  exact htidy.1 ho

omit [DecidableEq T] in
/-- Whoever is outside owns nothing. -/
theorem Kept.outside {p : Pool T σ Req Op Res α} {owned : T → Finset K}
    (h : Kept held effect answers body keys p owned) {t : T} (ht : Outside p t) :
    owned t = ∅ := by
  have htidy := h.tidy t
  split at htidy
  · exact htidy
  · rename_i r q hthread
    cases q with
    | ret a => exact htidy
    | call o k => exact absurd hthread (ht r o k)

theorem kept_update {p : Pool T σ Req Op Res α} {owned : T → Finset K}
    (h : Kept held effect answers body keys p owned) {t : T} {r : Req} {q : Program Op Res α}
    {v : Finset K} {s : σ} (haccounts : Accounts (held s) (Function.update owned t v))
    (hq : q.wp (tidy effect answers body (keys r)) (fun _ v => v = ∅) v) :
    Kept held effect answers body keys ⟨s, Function.update p.threads t (some (r, q))⟩
      (Function.update owned t v) := by
  refine ⟨haccounts, fun t' => ?_⟩
  by_cases ht : t' = t
  · subst ht
    simpa only [Function.update_self] using hq
  · simpa only [Function.update_of_ne ht] using h.tidy t'

/-- One step: of a program that arrives, that performs an operation, or of the service. -/
theorem kept_step (hH : KeepsAccounts H held effect answers)
    (hprogram : ∀ r, (H.program r).wp (tidy effect answers body (keys r)) (fun _ v => v = ∅) ∅)
    {p p' : Pool T σ Req Op Res α} {l : Label T Req Choice Ev} {owned : T → Finset K}
    (h : Kept held effect answers body keys p owned) (hstep : H.step p l = some p') :
    Kept held effect answers body keys p' (H.noteStep (own effect) p owned l) := by
  cases l with
  | spawn t r =>
    have ht := h.tidy t
    simp only [Host.step] at hstep
    split at hstep
    · cases hstep
    · rename_i hnone
      rw [hnone] at ht
      obtain ⟨s, hs, rfl⟩ := Option.map_eq_some_iff.mp hstep
      have hsame : Function.update owned t ∅ = owned := by rw [← ht, Function.update_eq_self]
      change Kept held effect answers body keys _ owned
      rw [← hsame]
      refine kept_update h ?_ (hprogram r)
      rw [hsame, hH.accept hs]
      exact h.accounts
  | resume t c =>
    have ht := h.tidy t
    simp only [Host.step] at hstep
    split at hstep
    · rename_i r o k hcall
      rw [hcall] at ht
      obtain ⟨⟨res, s⟩, hs, rfl⟩ := Option.map_eq_some_iff.mp hstep
      obtain ⟨hres, htake, heffect⟩ := hH.answer hs
      obtain ⟨hdrop, hrest⟩ := ht.2 res hres fun k hk hmem => htake k hk (h.accounts.subset t hmem)
      simp only [Host.noteStep, hcall, hs]
      refine kept_update h ?_ hrest
      rw [heffect]
      exact h.accounts.apply t htake hdrop
    · cases hstep
  | disturb e =>
    obtain ⟨s, hs, rfl⟩ := Option.map_eq_some_iff.mp hstep
    exact ⟨by rw [hH.disturb hs]; exact h.accounts, h.tidy⟩

/-- What the programs own at the end of a run that starts with no program under way. -/
def ownedAfter (H : Host T σ Req Choice Ev Op Res α) (effect : (o : Op) → Res o → Effect K)
    (s₀ : σ) (ls : List (Label T Req Choice Ev)) : T → Finset K :=
  H.notes (own effect) (Pool.empty s₀) (fun _ => ∅) ls

/-- No step of the list is a step of the thread. -/
def Pauses (t : T) (ls : List (Label T Req Choice Ev)) : Prop := ∀ c, Label.resume t c ∉ ls

/-- In every state of every run the held keys are the disjoint union of what the threads own,
a thread that is in its body owns the keys that it asked for, one that is outside owns nothing,
and what a thread owns is held until it takes a step of its own. -/
structure Accounted (H : Host T σ Req Choice Ev Op Res α) (held : σ → Finset K)
    (effect : (o : Op) → Res o → Effect K) (s₀ : σ) (body : Op → Prop)
    (keys : Req → Finset K) : Prop where
  accounts : ∀ {ls p}, Run H.step (fun _ _ => True) (Pool.empty s₀) ls p →
    Accounts (held p.shared) (ownedAfter H effect s₀ ls)
  inside : ∀ {ls p}, Run H.step (fun _ _ => True) (Pool.empty s₀) ls p →
    ∀ {t r o k}, p.threads t = some (r, .call o k) → body o → ownedAfter H effect s₀ ls t = keys r
  outside : ∀ {ls p}, Run H.step (fun _ _ => True) (Pool.empty s₀) ls p →
    ∀ t, Outside p t → ownedAfter H effect s₀ ls t = ∅
  paused : ∀ {ls ls' p p'}, Run H.step (fun _ _ => True) (Pool.empty s₀) ls p →
    Run H.step (fun _ _ => True) p ls' p' → ∀ t, Pauses t ls' →
    ownedAfter H effect s₀ ls t ⊆ held p'.shared
  all_outside : ∀ {ls p}, Run H.step (fun _ _ => True) (Pool.empty s₀) ls p →
    (∀ t, Outside p t) → held p.shared = ∅

/-- The accounts of a whole run. -/
theorem kept_of_run (hH : KeepsAccounts H held effect answers)
    (hprogram : ∀ r, (H.program r).wp (tidy effect answers body (keys r)) (fun _ v => v = ∅) ∅)
    {ok : Pool T σ Req Op Res α → Label T Req Choice Ev → Prop} {s₀ : σ} (h₀ : held s₀ = ∅)
    {ls : List (Label T Req Choice Ev)} {p : Pool T σ Req Op Res α}
    (hrun : Run H.step ok (Pool.empty s₀) ls p) :
    Kept held effect answers body keys p (ownedAfter H effect s₀ ls) := by
  refine hrun.notes_invariant (fun _ _ _ _ h _ hs => kept_step hH hprogram h hs) ⟨?_, fun t => rfl⟩
  rw [show held (Pool.empty s₀ : Pool T σ Req Op Res α).shared = ∅ from h₀]
  exact Accounts.empty

theorem notes_append {N : Type} (note : N → (o : Op) → Res o → N)
    {ok : Pool T σ Req Op Res α → Label T Req Choice Ev → Prop} {p p' : Pool T σ Req Op Res α}
    {ls : List (Label T Req Choice Ev)} (hrun : Run H.step ok p ls p') (ns : T → N)
    (ls' : List (Label T Req Choice Ev)) :
    H.notes note p ns (ls ++ ls') = H.notes note p' (H.notes note p ns ls) ls' := by
  induction hrun generalizing ns with
  | nil => rfl
  | cons _ hs _ ih =>
    simp only [List.cons_append, Host.notes, hs]
    exact ih _

theorem noteStep_of_pauses {N : Type} (note : N → (o : Op) → Res o → N)
    (p : Pool T σ Req Op Res α) (ns : T → N) {l : Label T Req Choice Ev} {t : T}
    (ht : ∀ c, l ≠ .resume t c) : H.noteStep note p ns l t = ns t := by
  rcases Host.noteStep_cases p ns l t with hsame | ⟨c, -, -, -, -, -, hl, -⟩
  · exact hsame
  · exact absurd hl (ht c)

theorem notes_of_pauses {N : Type} (note : N → (o : Op) → Res o → N) {t : T}
    {ls : List (Label T Req Choice Ev)} (ht : Pauses t ls) (p : Pool T σ Req Op Res α)
    (ns : T → N) : H.notes note p ns ls t = ns t := by
  induction ls generalizing p ns with
  | nil => rfl
  | cons l ls ih =>
    have hl : ∀ c, l ≠ .resume t c := fun c heq => ht c (by simp [heq])
    cases hs : H.step p l with
    | none => simp only [Host.notes, hs]
    | some p' =>
      simp only [Host.notes, hs]
      rw [ih fun c hmem => ht c (List.mem_cons_of_mem _ hmem), noteStep_of_pauses note p ns hl]

/-- What a thread owns stays its own while it pauses, whatever the others do. -/
theorem ownedAfter_of_pauses {ok : Pool T σ Req Op Res α → Label T Req Choice Ev → Prop} {s₀ : σ}
    {ls ls' : List (Label T Req Choice Ev)} {p : Pool T σ Req Op Res α}
    (hrun : Run H.step ok (Pool.empty s₀) ls p) {t : T} (ht : Pauses t ls') :
    ownedAfter H effect s₀ (ls ++ ls') t = ownedAfter H effect s₀ ls t := by
  unfold ownedAfter
  rw [notes_append _ hrun, notes_of_pauses _ ht]

/-- Tidy programs over a service that keeps accounts. -/
theorem accounted (hH : KeepsAccounts H held effect answers)
    (hprogram : ∀ r, (H.program r).wp (tidy effect answers body (keys r)) (fun _ v => v = ∅) ∅)
    {s₀ : σ} (h₀ : held s₀ = ∅) : Accounted H held effect s₀ body keys where
  accounts hrun := (kept_of_run hH hprogram h₀ hrun).accounts
  inside hrun _ _ _ _ hthread ho := (kept_of_run hH hprogram h₀ hrun).inside hthread ho
  outside hrun _ ht := (kept_of_run hH hprogram h₀ hrun).outside ht
  paused hrun hrun' t ht := by
    rw [← ownedAfter_of_pauses hrun ht]
    exact (kept_of_run hH hprogram h₀ (hrun.trans hrun')).accounts.subset t
  all_outside hrun hall :=
    (kept_of_run hH hprogram h₀ hrun).accounts.eq_empty
      fun t => (kept_of_run hH hprogram h₀ hrun).outside (hall t)

end Runs

end BankingTransactions.KeyedLocks
