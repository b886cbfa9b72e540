import BankingTransactions.InteractionPrograms

/-!
# Runs of transition systems and pools of programs

`Run` is a run of a partial step function, all of whose steps meet a condition on
the state before them. A `Pool` holds any number of programs that share a state.
Its host answers one operation of one program at a time, in any order, so a run
of a pool is an interleaving at the operations; the label of a step carries what
the environment chose.

`Discipline.sound` is the proof rule for pools. Every program is proved against
its own contract, alone. The invariant ties the shared state to the views of all
programs, and has to be kept by single answers only.
-/
namespace BankingTransactions.ThreadPools
open InteractionPrograms

/-! ## Runs -/

section Runs

variable {S L : Type}

/-- A run of `step` in which every step meets `ok`. -/
inductive Run (step : S → L → Option S) (ok : S → L → Prop) : S → List L → S → Prop
  | nil (s : S) : Run step ok s [] s
  | cons {s s' s'' : S} {l : L} {ls : List L} :
      ok s l → step s l = some s' → Run step ok s' ls s'' → Run step ok s (l :: ls) s''

/-- The state after a list of labels, when all of them are enabled. -/
def execute (step : S → L → Option S) : S → List L → Option S
  | s, [] => some s
  | s, l :: ls => (step s l).bind fun s' => execute step s' ls

def Reachable (step : S → L → Option S) (s₀ s : S) : Prop :=
  ∃ ls, Run step (fun _ _ => True) s₀ ls s

variable {step : S → L → Option S} {ok : S → L → Prop}

theorem run_of_execute {s s' : S} {ls : List L} (h : execute step s ls = some s') :
    Run step (fun _ _ => True) s ls s' := by
  induction ls generalizing s with
  | nil =>
    simp only [execute, Option.some.injEq] at h
    exact h ▸ .nil s
  | cons l ls ih =>
    simp only [execute, Option.bind_eq_some_iff] at h
    obtain ⟨m, hm, hrest⟩ := h
    exact .cons trivial hm (ih hrest)

/-- The state after a list of labels that is known to be enabled. -/
def replay (step : S → L → Option S) (s : S) (ls : List L) (h : (execute step s ls).isSome) : S :=
  (execute step s ls).get h

theorem reachable_replay {s : S} {ls : List L} (h : (execute step s ls).isSome) :
    Reachable step s (replay step s ls h) := ⟨ls, run_of_execute (Option.some_get h).symm⟩

/-- The steps that pass a check. -/
def checked (check : S → L → Bool) (step : S → L → Option S) (s : S) (l : L) : Option S :=
  if check s l then step s l else none

/-- A run of steps that pass a check, when the check implies the condition. -/
theorem run_of_checked {check : S → L → Bool} (hcheck : ∀ s l, check s l = true → ok s l)
    {s s' : S} {ls : List L} (h : execute (checked check step) s ls = some s') :
    Run step ok s ls s' := by
  induction ls generalizing s with
  | nil =>
    simp only [execute, Option.some.injEq] at h
    exact h ▸ .nil s
  | cons l ls ih =>
    simp only [execute, Option.bind_eq_some_iff] at h
    obtain ⟨m, hm, hrest⟩ := h
    unfold checked at hm
    split_ifs at hm with hl
    exact .cons (hcheck s l hl) hm (ih hrest)

theorem run_replay {check : S → L → Bool} (hcheck : ∀ s l, check s l = true → ok s l) {s : S}
    {ls : List L} (h : (execute (checked check step) s ls).isSome) :
    Run step ok s ls (replay (checked check step) s ls h) :=
  run_of_checked hcheck (Option.some_get h).symm

/-- What holds at the start and is kept by every allowed step holds throughout. -/
theorem Run.invariant {I : S → Prop} {s s' : S} {ls : List L} (hrun : Run step ok s ls s')
    (hstep : ∀ s l s', I s → ok s l → step s l = some s' → I s') (h : I s) : I s' := by
  induction hrun with
  | nil s => exact h
  | cons hok hs _ ih => exact ih (hstep _ _ _ h hok hs)

/-- A run whose labels meet the condition in every state. -/
theorem Run.of_labels {ok' : S → L → Prop} {s s' : S} {ls : List L} (hrun : Run step ok s ls s')
    (h : ∀ l ∈ ls, ∀ s, ok' s l) : Run step ok' s ls s' := by
  induction hrun with
  | nil s => exact .nil s
  | cons _ hs _ ih =>
    exact .cons (h _ List.mem_cons_self _) hs (ih fun l hl => h l (List.mem_cons_of_mem _ hl))

theorem run_of_replay {s : S} {ls : List L} (h : (execute step s ls).isSome) :
    Run step (fun _ _ => True) s ls (replay step s ls h) := run_of_execute (Option.some_get h).symm

theorem Run.trans {s s' s'' : S} {ls ls' : List L} (h : Run step ok s ls s')
    (h' : Run step ok s' ls' s'') : Run step ok s (ls ++ ls') s'' := by
  induction h with
  | nil s => exact h'
  | cons hok hs _ ih => exact .cons hok hs (ih h')

theorem Run.mono {ok' : S → L → Prop} {s s' : S} {ls : List L} (hrun : Run step ok s ls s')
    (h : ∀ s l, ok s l → ok' s l) : Run step ok' s ls s' := by
  induction hrun with
  | nil s => exact .nil s
  | cons hok hs _ ih => exact .cons (h _ _ hok) hs ih

/-- A run that ends where `F` holds, when no step leads from outside `F` into it. -/
theorem Run.backwards {I F : S → Prop}
    (hstep : ∀ s l s', I s → ok s l → step s l = some s' → I s' ∧ (F s' → F s)) {s s' : S}
    {ls : List L} (hrun : Run step ok s ls s') (h : I s) (hF : F s') :
    Run step (fun s l => ok s l ∧ F s) s ls s' ∧ F s := by
  induction hrun with
  | nil s => exact ⟨.nil s, hF⟩
  | cons hok hs _ ih =>
    obtain ⟨hI, hback⟩ := hstep _ _ _ h hok hs
    obtain ⟨hrest, hmid⟩ := ih hI hF
    exact ⟨.cons ⟨hok, hback hmid⟩ hs hrest, hback hmid⟩

/-- A log that every step can extend, so that it stays true of the state, grows along a run: the
states on the way have logs of their own, which are prefixes of the last one. -/
theorem Run.logged {E : Type} {I : S → List E → Prop}
    (hstep : ∀ s l s' log, I s log → ok s l → step s l = some s' →
      ∃ log', log <+: log' ∧ I s' log') {s s' : S} {ls : List L} (hrun : Run step ok s ls s')
    {log : List E} (h : I s log) :
    ∃ log', log <+: log' ∧ I s' log' ∧ ∀ ls₁ s₁, ls₁ <+: ls → Run step ok s ls₁ s₁ →
      ∃ log₁, log₁ <+: log' ∧ I s₁ log₁ := by
  induction hrun generalizing log with
  | nil s =>
    refine ⟨log, List.prefix_rfl, h, fun ls₁ s₁ hinit hrun₁ => ?_⟩
    obtain rfl := List.prefix_nil.mp hinit
    cases hrun₁
    exact ⟨log, List.prefix_rfl, h⟩
  | cons hok hs _ ih =>
    obtain ⟨log₁, hlog₁, h₁⟩ := hstep _ _ _ _ h hok hs
    obtain ⟨log', hlog', h', hall⟩ := ih h₁
    refine ⟨log', hlog₁.trans hlog', h', fun ls₁ s₁ hinit hrun₁ => ?_⟩
    cases hrun₁ with
    | nil => exact ⟨log, hlog₁.trans hlog', h⟩
    | cons _ hs₁ hrest₁ =>
      obtain ⟨rfl, hrest⟩ := List.cons_prefix_cons.mp hinit
      obtain rfl := Option.some.inj (hs.symm.trans hs₁)
      exact hall _ _ hrest hrest₁

end Runs

/-! ## Pools -/

/-- A shared state and the programs running over it, each with the request it serves. -/
structure Pool (T σ Req Op : Type) (Res : Op → Type) (α : Type) where
  shared : σ
  threads : T → Option (Req × Program Op Res α)

/-- The surroundings of a pool. `accept` accepts a new request, `answer` performs an
operation, `disturb` is a change that no program asked for. -/
structure Host (T σ Req Choice Ev Op : Type) (Res : Op → Type) (α : Type) where
  program : Req → Program Op Res α
  accept : T → Req → σ → Option σ
  answer : T → Req → Choice → (o : Op) → σ → Option (Res o × σ)
  disturb : Ev → σ → Option σ

inductive Label (T Req Choice Ev : Type) where
  | spawn (t : T) (r : Req)
  | resume (t : T) (c : Choice)
  | disturb (e : Ev)

/-- A restriction on the steps of a run, judged in the state before the step. -/
structure Policy (T σ Req Choice Ev Op : Type) where
  accept : T → Req → σ → Prop
  answer : T → Req → Choice → Op → σ → Prop
  disturb : Ev → σ → Prop

variable {T σ Req Choice Ev Op : Type} {Res : Op → Type} {α V : Type}

namespace Pool

def empty (s : σ) : Pool T σ Req Op Res α := ⟨s, fun _ => none⟩

/-- The result of a program that has returned. -/
def result (p : Pool T σ Req Op Res α) (t : T) : Option α :=
  match p.threads t with
  | some (_, .ret a) => some a
  | _ => none

theorem result_eq_some {p : Pool T σ Req Op Res α} {t : T} {a : α} (h : p.result t = some a) :
    ∃ r, p.threads t = some (r, .ret a) := by
  unfold result at h
  split at h
  · rename_i r a' hthread
    obtain rfl := Option.some.inj h
    exact ⟨r, hthread⟩
  · cases h

end Pool

namespace Policy

/-- Every step is allowed. -/
def any : Policy T σ Req Choice Ev Op := ⟨fun _ _ _ => True, fun _ _ _ _ _ => True, fun _ _ => True⟩

def ok (P : Policy T σ Req Choice Ev Op) (p : Pool T σ Req Op Res α) :
    Label T Req Choice Ev → Prop
  | .spawn t r => P.accept t r p.shared
  | .resume t c => ∀ r o k, p.threads t = some (r, .call o k) → P.answer t r c o p.shared
  | .disturb e => P.disturb e p.shared

theorem any_ok (p : Pool T σ Req Op Res α) (l : Label T Req Choice Ev) :
    (any : Policy T σ Req Choice Ev Op).ok p l := by
  cases l <;> simp [any, ok]

end Policy

variable [DecidableEq T]

/-- What is found after an update is what was put there, or what was there before. -/
theorem update_eq_some {X : Type} {f : T → Option X} {t t' : T} {x y : X}
    (h : Function.update f t (some x) t' = some y) : t' = t ∧ y = x ∨ t' ≠ t ∧ f t' = some y := by
  by_cases ht : t' = t
  · subst ht
    rw [Function.update_self] at h
    exact .inl ⟨rfl, (Option.some.inj h).symm⟩
  · rw [Function.update_of_ne ht] at h
    exact .inr ⟨ht, h⟩

namespace Host

def step (H : Host T σ Req Choice Ev Op Res α) (p : Pool T σ Req Op Res α) :
    Label T Req Choice Ev → Option (Pool T σ Req Op Res α)
  | .spawn t r =>
    match p.threads t with
    | some _ => none
    | none => (H.accept t r p.shared).map fun s =>
        ⟨s, Function.update p.threads t (some (r, H.program r))⟩
  | .resume t c =>
    match p.threads t with
    | some (r, .call o k) => (H.answer t r c o p.shared).map fun (res, s) =>
        ⟨s, Function.update p.threads t (some (r, k res))⟩
    | _ => none
  | .disturb e => (H.disturb e p.shared).map fun s => ⟨s, p.threads⟩

section Notes

variable {N : Type} (H : Host T σ Req Choice Ev Op Res α) (note : N → (o : Op) → Res o → N)

/-- What the programs have noted after one more step. -/
def noteStep (p : Pool T σ Req Op Res α) (ns : T → N) : Label T Req Choice Ev → T → N
  | .resume t c =>
    match p.threads t with
    | some (r, .call o _) =>
      match H.answer t r c o p.shared with
      | some (res, _) => Function.update ns t (note (ns t) o res)
      | none => ns
    | _ => ns
  | _ => ns

/-- What the programs have noted at the end of a run. -/
def notes : Pool T σ Req Op Res α → (T → N) → List (Label T Req Choice Ev) → T → N
  | _, ns, [] => ns
  | p, ns, l :: ls =>
    match H.step p l with
    | some p' => notes p' (H.noteStep note p ns l) ls
    | none => ns

variable {H note}

/-- A thread notes something only in a step of its own. -/
theorem noteStep_cases (p : Pool T σ Req Op Res α) (ns : T → N) (l : Label T Req Choice Ev)
    (t : T) : H.noteStep note p ns l t = ns t ∨ ∃ c r o k res s, l = .resume t c ∧
      p.threads t = some (r, .call o k) ∧ H.answer t r c o p.shared = some (res, s) ∧
      H.noteStep note p ns l t = note (ns t) o res := by
  cases l with
  | spawn t' r => exact .inl rfl
  | disturb e => exact .inl rfl
  | resume t' c =>
    cases hthread : p.threads t' with
    | none =>
      left
      simp only [noteStep, hthread]
    | some x =>
      obtain ⟨r, program⟩ := x
      cases program with
      | ret a =>
        left
        simp only [noteStep, hthread]
      | call o k =>
        cases hanswer : H.answer t' r c o p.shared with
        | none =>
          left
          simp only [noteStep, hthread, hanswer]
        | some x =>
          obtain ⟨res, s⟩ := x
          by_cases ht : t = t'
          · subst ht
            right
            refine ⟨c, r, o, k, res, s, rfl, hthread, hanswer, ?_⟩
            simp only [noteStep, hthread, hanswer, Function.update_self]
          · left
            simp only [noteStep, hthread, hanswer, Function.update_of_ne ht]

end Notes

end Host

/-- The threads keep their requests. -/
theorem Host.keeps_request {H : Host T σ Req Choice Ev Op Res α} {p p' : Pool T σ Req Op Res α}
    {l : Label T Req Choice Ev} (hstep : H.step p l = some p') {t : T} {r : Req}
    {prog : Program Op Res α} (ht : p.threads t = some (r, prog)) :
    ∃ prog', p'.threads t = some (r, prog') := by
  cases l with
  | spawn t' r' =>
    simp only [Host.step] at hstep
    split at hstep
    · cases hstep
    · rename_i hnone
      simp only [Option.map_eq_some_iff] at hstep
      obtain ⟨s, -, rfl⟩ := hstep
      have hne : t ≠ t' := by
        intro heq
        rw [heq, hnone] at ht
        cases ht
      exact ⟨prog, (Function.update_of_ne hne ..).trans ht⟩
  | resume t' c =>
    simp only [Host.step] at hstep
    split at hstep
    · rename_i r' o k hthread
      simp only [Option.map_eq_some_iff] at hstep
      obtain ⟨⟨res, s⟩, -, rfl⟩ := hstep
      by_cases hne : t = t'
      · subst hne
        rw [ht] at hthread
        cases hthread
        exact ⟨_, Function.update_self ..⟩
      · exact ⟨prog, (Function.update_of_ne hne ..).trans ht⟩
    · cases hstep
  | disturb e =>
    simp only [Host.step, Option.map_eq_some_iff] at hstep
    obtain ⟨s, -, rfl⟩ := hstep
    exact ⟨prog, ht⟩

theorem Run.keeps_request {H : Host T σ Req Choice Ev Op Res α}
    {ok : Pool T σ Req Op Res α → Label T Req Choice Ev → Prop} {p p' : Pool T σ Req Op Res α}
    {ls : List (Label T Req Choice Ev)} (hrun : Run H.step ok p ls p') {t : T} {r : Req}
    {prog : Program Op Res α} (ht : p.threads t = some (r, prog)) :
    ∃ prog', p'.threads t = some (r, prog') := by
  refine hrun.invariant (I := fun q => ∃ prog', q.threads t = some (r, prog')) ?_ ⟨prog, ht⟩
  intro q l q' hq _ hstep
  obtain ⟨prog', hprog'⟩ := hq
  exact Host.keeps_request hstep hprog'

/-- What every step keeps true of the state and of the notes holds throughout a run. -/
theorem Run.notes_invariant {N : Type} {H : Host T σ Req Choice Ev Op Res α}
    {note : N → (o : Op) → Res o → N}
    {ok : Pool T σ Req Op Res α → Label T Req Choice Ev → Prop}
    {I : Pool T σ Req Op Res α → (T → N) → Prop}
    (hstep : ∀ p p' l ns, I p ns → ok p l → H.step p l = some p' → I p' (H.noteStep note p ns l))
    {p p' : Pool T σ Req Op Res α} {ls : List (Label T Req Choice Ev)}
    (hrun : Run H.step ok p ls p') {ns : T → N} (h : I p ns) : I p' (H.notes note p ns ls) := by
  induction hrun generalizing ns with
  | nil => exact h
  | cons hok hs _ ih =>
    simp only [Host.notes, hs]
    exact ih (hstep _ _ _ _ h hok hs)

/-- What the notes of a thread say at the end of a run, and did not say at its start, they say
since one of its steps. -/
theorem Run.notes_split {N : Type} {H : Host T σ Req Choice Ev Op Res α}
    {note : N → (o : Op) → Res o → N}
    {ok : Pool T σ Req Op Res α → Label T Req Choice Ev → Prop} {p p' : Pool T σ Req Op Res α}
    {ls : List (Label T Req Choice Ev)} (hrun : Run H.step ok p ls p') {t : T} {F : N → Prop}
    {ns : T → N} (hstart : ¬F (ns t)) (hend : F (H.notes note p ns ls t)) :
    ∃ before c after q r o k res s n, ls = before ++ .resume t c :: after ∧
      Run H.step ok p before q ∧ Run H.step ok q (.resume t c :: after) p' ∧
      q.threads t = some (r, .call o k) ∧ H.answer t r c o q.shared = some (res, s) ∧
      ¬F n ∧ F (note n o res) := by
  induction hrun generalizing ns with
  | nil => exact absurd hend hstart
  | @cons p mid p' l ls hok hs hrest ih =>
    simp only [Host.notes, hs] at hend
    by_cases hnow : F (H.noteStep note p ns l t)
    · rcases Host.noteStep_cases p ns l t with hsame | ⟨c, r, o, k, res, s, rfl, hthread, hanswer,
        hnote⟩
      · rw [hsame] at hnow
        exact absurd hnow hstart
      · rw [hnote] at hnow
        exact ⟨[], c, ls, p, r, o, k, res, s, ns t, rfl, .nil p, .cons hok hs hrest, hthread,
          hanswer, hstart, hnow⟩
    · obtain ⟨before, c, after, q, r, o, k, res, s, n, rfl, hbefore, hsplit⟩ := ih hnow hend
      exact ⟨l :: before, c, after, q, r, o, k, res, s, n, rfl, .cons hok hs hbefore, hsplit⟩

/-- A proof that the programs of a pool, each keeping to its contract, preserve an
invariant of the shared state and their views. -/
structure Discipline (H : Host T σ Req Choice Ev Op Res α) (P : Policy T σ Req Choice Ev Op)
    (V : Type) where
  contract : Req → Contract Op Res V
  post : Req → α → V → Prop
  inv : σ → (T → Option (Req × V)) → Prop
  accept : ∀ {t r s s' vs}, inv s vs → vs t = none → P.accept t r s → H.accept t r s = some s' →
    ∃ v, (H.program r).wp (contract r) (post r) v ∧ inv s' (Function.update vs t (some (r, v)))
  answer : ∀ {t r c o s res s' vs v Q}, inv s vs → vs t = some (r, v) → P.answer t r c o s →
    H.answer t r c o s = some (res, s') → (contract r).demand v o Q →
    ∃ v', Q res v' ∧ inv s' (Function.update vs t (some (r, v')))
  disturb : ∀ {e s s' vs}, inv s vs → P.disturb e s → H.disturb e s = some s' → inv s' vs

namespace Discipline

variable {H : Host T σ Req Choice Ev Op Res α} {P : Policy T σ Req Choice Ev Op}

/-- Every thread has a view in which the rest of its program keeps to the contract. -/
def Tracks (D : Discipline H P V) (threads : T → Option (Req × Program Op Res α))
    (vs : T → Option (Req × V)) : Prop :=
  ∀ t, match threads t with
    | none => vs t = none
    | some (r, p) => ∃ v, vs t = some (r, v) ∧ p.wp (D.contract r) (D.post r) v

theorem tracks_update {D : Discipline H P V} {threads : T → Option (Req × Program Op Res α)}
    {vs : T → Option (Req × V)} (h : D.Tracks threads vs) (t : T) {r : Req}
    {p : Program Op Res α} {v : V} (hp : p.wp (D.contract r) (D.post r) v) :
    D.Tracks (Function.update threads t (some (r, p))) (Function.update vs t (some (r, v))) := by
  intro t'
  by_cases ht : t' = t
  · subst ht
    simp only [Function.update_self]
    exact ⟨v, rfl, hp⟩
  · simp only [Function.update_of_ne ht]
    exact h t'

/-- The invariant and the tracking views together are kept by every allowed step. -/
theorem step_sound (D : Discipline H P V) {p p' : Pool T σ Req Op Res α}
    {l : Label T Req Choice Ev} (hok : P.ok p l) (hstep : H.step p l = some p')
    (h : ∃ vs, D.inv p.shared vs ∧ D.Tracks p.threads vs) :
    ∃ vs, D.inv p'.shared vs ∧ D.Tracks p'.threads vs := by
  obtain ⟨vs, hinv, htr⟩ := h
  cases l with
  | spawn t r =>
    have ht := htr t
    simp only [Host.step] at hstep
    split at hstep
    · cases hstep
    · rename_i hnone
      rw [hnone] at ht
      simp only [Option.map_eq_some_iff] at hstep
      obtain ⟨s, hs, rfl⟩ := hstep
      obtain ⟨v, hv, hinv'⟩ := D.accept hinv ht hok hs
      exact ⟨_, hinv', tracks_update htr t hv⟩
  | resume t c =>
    have ht := htr t
    simp only [Host.step] at hstep
    split at hstep
    · rename_i r o k hcall
      rw [hcall] at ht
      obtain ⟨v, hv, hwp⟩ := ht
      simp only [Option.map_eq_some_iff] at hstep
      obtain ⟨⟨res, s⟩, hs, rfl⟩ := hstep
      obtain ⟨v', hQ, hinv'⟩ := D.answer hinv hv (hok r o k hcall) hs hwp
      exact ⟨_, hinv', tracks_update htr t hQ⟩
    · cases hstep
  | disturb e =>
    simp only [Host.step, Option.map_eq_some_iff] at hstep
    obtain ⟨s, hs, rfl⟩ := hstep
    exact ⟨vs, D.disturb hinv hok hs, htr⟩

/-- In every run of the pool the invariant holds, and every thread keeps to its contract. -/
theorem sound (D : Discipline H P V) {s₀ : σ} {ls : List (Label T Req Choice Ev)}
    {p : Pool T σ Req Op Res α} (h₀ : D.inv s₀ fun _ => none)
    (hrun : Run H.step P.ok (Pool.empty s₀) ls p) :
    ∃ vs, D.inv p.shared vs ∧ D.Tracks p.threads vs :=
  hrun.invariant (I := fun p => ∃ vs, D.inv p.shared vs ∧ D.Tracks p.threads vs)
    (fun _ _ _ h hok hs => D.step_sound hok hs h) ⟨_, h₀, fun _ => rfl⟩

/-! ### Notes -/

section Notes

variable {N : Type} {note : N → (o : Op) → Res o → N}

/-- Every thread keeps to its contract in a view and with its notes. -/
def TracksNotes (D : Discipline H P V) (note : N → (o : Op) → Res o → N)
    (post : Req → α → V × N → Prop) (n₀ : N)
    (threads : T → Option (Req × Program Op Res α)) (vs : T → Option (Req × V))
    (ns : T → N) : Prop :=
  ∀ t, match threads t with
    | none => vs t = none ∧ ns t = n₀
    | some (r, p) => ∃ v, vs t = some (r, v) ∧
        p.wp ((D.contract r).noting note) (post r) (v, ns t)

variable {D : Discipline H P V} {post : Req → α → V × N → Prop} {n₀ : N}

theorem tracksNotes_update {threads : T → Option (Req × Program Op Res α)}
    {vs : T → Option (Req × V)} {ns : T → N} (h : D.TracksNotes note post n₀ threads vs ns) (t : T)
    {r : Req} {p : Program Op Res α} {v : V} {n : N}
    (hp : p.wp ((D.contract r).noting note) (post r) (v, n)) :
    D.TracksNotes note post n₀ (Function.update threads t (some (r, p)))
      (Function.update vs t (some (r, v))) (Function.update ns t n) := by
  intro t'
  by_cases ht : t' = t
  · subst ht
    simp only [Function.update_self]
    exact ⟨v, rfl, hp⟩
  · simp only [Function.update_of_ne ht]
    exact h t'

/-- The programs keep to their contracts with notes that start at `n₀`. -/
def StartsNoted (D : Discipline H P V) (note : N → (o : Op) → Res o → N)
    (post : Req → α → V × N → Prop) (n₀ : N) : Prop :=
  ∀ {t r s s' vs}, D.inv s vs → vs t = none → P.accept t r s → H.accept t r s = some s' →
    ∃ v, (H.program r).wp ((D.contract r).noting note) (post r) (v, n₀) ∧
      D.inv s' (Function.update vs t (some (r, v)))

theorem step_sound_noted (hstart : D.StartsNoted note post n₀) {p p' : Pool T σ Req Op Res α}
    {l : Label T Req Choice Ev} (hok : P.ok p l) (hstep : H.step p l = some p') {ns : T → N}
    (h : ∃ vs, D.inv p.shared vs ∧ D.TracksNotes note post n₀ p.threads vs ns) :
    ∃ vs, D.inv p'.shared vs ∧
      D.TracksNotes note post n₀ p'.threads vs (H.noteStep note p ns l) := by
  obtain ⟨vs, hinv, htr⟩ := h
  cases l with
  | spawn t r =>
    have ht := htr t
    simp only [Host.step] at hstep
    split at hstep
    · cases hstep
    · rename_i hnone
      rw [hnone] at ht
      simp only [Option.map_eq_some_iff] at hstep
      obtain ⟨s, hs, rfl⟩ := hstep
      obtain ⟨v, hv, hinv'⟩ := hstart hinv ht.1 hok hs
      have hns : ns = Function.update ns t n₀ := by rw [← ht.2, Function.update_eq_self]
      refine ⟨_, hinv', ?_⟩
      change D.TracksNotes note post n₀ _ _ ns
      rw [hns]
      exact tracksNotes_update htr t hv
  | resume t c =>
    have ht := htr t
    simp only [Host.step] at hstep
    split at hstep
    · rename_i r o k hcall
      rw [hcall] at ht
      obtain ⟨v, hv, hwp⟩ := ht
      simp only [Option.map_eq_some_iff] at hstep
      obtain ⟨⟨res, s⟩, hs, rfl⟩ := hstep
      obtain ⟨v', hQ, hinv'⟩ := D.answer hinv hv (hok r o k hcall) hs hwp
      refine ⟨_, hinv', ?_⟩
      simp only [Host.noteStep, hcall, hs]
      exact tracksNotes_update htr t hQ
    · cases hstep
  | disturb e =>
    simp only [Host.step, Option.map_eq_some_iff] at hstep
    obtain ⟨s, hs, rfl⟩ := hstep
    exact ⟨vs, D.disturb hinv hok hs, htr⟩

/-- In every run of the pool, every thread keeps to its contract with what it has noted. -/
theorem sound_noted (hstart : D.StartsNoted note post n₀) {s₀ : σ}
    {ls : List (Label T Req Choice Ev)} {p : Pool T σ Req Op Res α}
    (h₀ : D.inv s₀ fun _ => none) (hrun : Run H.step P.ok (Pool.empty s₀) ls p) :
    ∃ vs, D.inv p.shared vs ∧ D.TracksNotes note post n₀ p.threads vs
      (H.notes note (Pool.empty s₀) (fun _ => n₀) ls) :=
  hrun.notes_invariant (I := fun p ns => ∃ vs, D.inv p.shared vs ∧
      D.TracksNotes note post n₀ p.threads vs ns)
    (fun _ _ _ _ h hok hs => step_sound_noted hstart hok hs h) ⟨_, h₀, fun _ => ⟨rfl, rfl⟩⟩

end Notes

/-- What has a view is one of the threads. -/
theorem Tracks.thread {D : Discipline H P V} {threads : T → Option (Req × Program Op Res α)}
    {vs : T → Option (Req × V)} (h : D.Tracks threads vs) {t : T} {r : Req} {v : V}
    (hv : vs t = some (r, v)) : ∃ p, threads t = some (r, p) := by
  have ht := h t
  split at ht
  · rw [ht] at hv
    cases hv
  · rename_i r' p hthread
    obtain ⟨v', hv', -⟩ := ht
    obtain ⟨rfl, rfl⟩ : r' = r ∧ v' = v := by simpa [hv] using hv'.symm
    exact ⟨p, hthread⟩

/-- A thread that has returned satisfies its postcondition in its view. -/
theorem Tracks.post_of_result {D : Discipline H P V} {p : Pool T σ Req Op Res α}
    {vs : T → Option (Req × V)} (h : D.Tracks p.threads vs) {t : T} {a : α}
    (ha : p.result t = some a) : ∃ r v, vs t = some (r, v) ∧ D.post r a v := by
  have ht := h t
  unfold Pool.result at ha
  split at ha
  · rename_i r a' hret
    rw [hret] at ht
    obtain ⟨v, hv, hpost⟩ := ht
    obtain rfl : a' = a := by simpa using ha
    exact ⟨r, v, hv, hpost⟩
  · cases ha

end Discipline

end BankingTransactions.ThreadPools
