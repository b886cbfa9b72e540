import Mathlib.Tactic

/-!
# Programs that interact with their surroundings

A program is a tree: it returns, or performs an operation and continues with
whatever response comes back. The tree fixes nothing about who answers. `run`
answers with a deterministic service; `wp` computes the precondition of a
postcondition against a contract that says, in a view of the caller's own, which
operations may be performed and which responses may follow.

A `Task` adds what an imperative coroutine has besides: a local state that
survives exceptions, exceptions, handlers and exit actions. The equations for
`Task.wp` are the symbolic execution of such code, one lemma for each construct.
-/
namespace BankingTransactions.InteractionPrograms

inductive Program (Op : Type) (Res : Op → Type) (α : Type) : Type where
  | ret (a : α)
  | call (o : Op) (k : Res o → Program Op Res α)

/-- What a caller may do and what it may hear. `demand v o Q` holds when, in view
`v`, operation `o` is allowed and `Q` holds of every response and view after it. -/
structure Contract (Op : Type) (Res : Op → Type) (V : Type) where
  demand : V → (o : Op) → (Res o → V → Prop) → Prop
  mono : ∀ {v : V} {o : Op} {Q Q' : Res o → V → Prop},
    (∀ r v', Q r v' → Q' r v') → demand v o Q → demand v o Q'

namespace Program

variable {Op : Type} {Res : Op → Type} {α β σ V : Type}

def bind : Program Op Res α → (α → Program Op Res β) → Program Op Res β
  | ret a, f => f a
  | call o k, f => call o fun r => (k r).bind f

instance : Monad (Program Op Res) where
  pure := ret
  bind := bind

@[simp] theorem ret_bind (a : α) (f : α → Program Op Res β) : (ret a >>= f) = f a := rfl

@[simp] theorem call_bind (o : Op) (k : Res o → Program Op Res α) (f : α → Program Op Res β) :
    (call o k >>= f) = call o fun r => k r >>= f := rfl

/-- One operation, returning its response. -/
def perform (o : Op) : Program Op Res (Res o) := call o ret

/-- The operation that is performed first, if one is. -/
def first : Program Op Res α → Option Op
  | ret _ => none
  | call o _ => some o

/-- Run against a service that answers every operation at once. -/
def run (serve : (o : Op) → σ → Res o × σ) : Program Op Res α → σ → α × σ
  | ret a, s => (a, s)
  | call o k, s => (k (serve o s).1).run serve (serve o s).2

theorem run_bind (serve : (o : Op) → σ → Res o × σ) (p : Program Op Res α)
    (f : α → Program Op Res β) (s : σ) :
    (p >>= f).run serve s = (f (p.run serve s).1).run serve (p.run serve s).2 := by
  induction p generalizing s with
  | ret a => rfl
  | call o k ih => exact ih _ _

/-- What every answer of the service keeps true is true at the end. -/
theorem run_invariant {serve : (o : Op) → σ → Res o × σ} {I : σ → Prop}
    (hserve : ∀ o s, I s → I (serve o s).2) (p : Program Op Res α) {s : σ} (hs : I s) :
    I (p.run serve s).2 := by
  induction p generalizing s with
  | ret a => exact hs
  | call o k ih => exact ih _ (hserve o s hs)

/-- The views in which a program keeps to a contract and returns in `Q`. -/
def wp (C : Contract Op Res V) : Program Op Res α → (α → V → Prop) → V → Prop
  | ret a, Q, v => Q a v
  | call o k, Q, v => C.demand v o fun r v' => (k r).wp C Q v'

@[simp] theorem wp_ret (C : Contract Op Res V) (a : α) (Q : α → V → Prop) (v : V) :
    (ret a : Program Op Res α).wp C Q v = Q a v := rfl

theorem wp_call (C : Contract Op Res V) (o : Op) (k : Res o → Program Op Res α)
    (Q : α → V → Prop) (v : V) :
    (call o k).wp C Q v = C.demand v o fun r v' => (k r).wp C Q v' := rfl

theorem wp_bind (C : Contract Op Res V) (p : Program Op Res α) (f : α → Program Op Res β)
    (Q : β → V → Prop) (v : V) :
    (p >>= f).wp C Q v = p.wp C (fun a v' => (f a).wp C Q v') v := by
  induction p generalizing v with
  | ret a => rfl
  | call o k ih =>
    simp only [call_bind, wp_call]
    congr 1
    funext r v'
    exact ih r v'

theorem wp_mono {C : Contract Op Res V} {p : Program Op Res α} {Q Q' : α → V → Prop} {v : V}
    (h : ∀ a v', Q a v' → Q' a v') (hp : p.wp C Q v) : p.wp C Q' v := by
  induction p generalizing v with
  | ret a => exact h a v hp
  | call o k ih => exact C.mono (fun r v' => ih r) hp

end Program

namespace Contract

variable {Op : Type} {Res : Op → Type} {α σ : Type}

/-- The contract of a service that answers every operation at once: its state is the view. -/
def ofService (serve : (o : Op) → σ → Res o × σ) : Contract Op Res σ where
  demand s o Q := Q (serve o s).1 (serve o s).2
  mono h := h _ _

theorem wp_ofService (serve : (o : Op) → σ → Res o × σ) (p : Program Op Res α)
    (Q : α → σ → Prop) (s : σ) :
    p.wp (ofService serve) Q s ↔ Q (p.run serve s).1 (p.run serve s).2 := by
  induction p generalizing s with
  | ret a => rfl
  | call o k ih => exact ih _ _

/-- The contract of a caller that keeps notes of what it has done and heard. -/
def noting {V N : Type} (C : Contract Op Res V) (note : N → (o : Op) → Res o → N) :
    Contract Op Res (V × N) where
  demand v o Q := C.demand v.1 o fun r v' => Q r (v', note v.2 o r)
  mono h := C.mono fun r _ => h r _

/-- What holds of the notes and is never noted away holds at the end. -/
theorem wp_noting {V N : Type} {C : Contract Op Res V} {note : N → (o : Op) → Res o → N}
    {I : N → Prop} (hI : ∀ n o r, I n → I (note n o r)) {p : Program Op Res α}
    {Q : α → V → Prop} {v : V} (h : p.wp C Q v) {n : N} (hn : I n) :
    p.wp (C.noting note) (fun a v' => Q a v'.1 ∧ I v'.2) (v, n) := by
  induction p generalizing v n with
  | ret a => exact ⟨h, hn⟩
  | call o k ih => exact C.mono (fun r v' h' => ih r h' (hI n o r hn)) h

/-- The contract of a caller that has to have grounds for an operation. -/
def requiring {V : Type} (C : Contract Op Res V) (P : V → Op → Prop) : Contract Op Res V where
  demand v o Q := P v o ∧ C.demand v o Q
  mono h hQ := ⟨hQ.1, C.mono h hQ.2⟩

theorem wp_of_requiring {V : Type} {C : Contract Op Res V} {P : V → Op → Prop}
    {p : Program Op Res α} {Q : α → V → Prop} {v : V} (h : p.wp (C.requiring P) Q v) :
    p.wp C Q v := by
  induction p generalizing v with
  | ret a => exact h
  | call o k ih => exact C.mono (fun r v' => ih r) h.2

/-- The grounds may come from another contract that the program keeps to, if that one hears
whatever the first one hears. -/
theorem wp_requiring {V V' : Type} {C : Contract Op Res V} {C' : Contract Op Res V'}
    {P : V → Op → Prop} {I : V' → Prop}
    (h : ∀ {v v' o} {Q : Res o → V → Prop} {Q' : Res o → V' → Prop}, I v' → C.demand v o Q →
      C'.demand v' o Q' → P v o ∧ C.demand v o fun r w => Q r w ∧ ∃ w', I w' ∧ Q' r w')
    {p : Program Op Res α} {Q : α → V → Prop} {Q' : α → V' → Prop} {v : V} {v' : V'}
    (hp : p.wp C Q v) (hp' : p.wp C' Q' v') (hv : I v') : p.wp (C.requiring P) Q v := by
  induction p generalizing v v' with
  | ret a => exact hp
  | call o k ih =>
    obtain ⟨hP, hd⟩ := h hv hp hp'
    refine ⟨hP, C.mono (fun r w hw => ?_) hd⟩
    obtain ⟨hQ, w', hw', hQ'⟩ := hw
    exact ih r hQ hQ' hw'

/-- The contract that allows the operations in `P`, whatever they answer. -/
def only (P : Op → Prop) : Contract Op Res Unit where
  demand _ o Q := P o ∧ ∀ r, Q r ()
  mono h hQ := ⟨hQ.1, fun r => h _ _ (hQ.2 r)⟩

/-- Where `I` holds of the view, the operations in `P` are allowed and keep it. -/
def Preserves {V : Type} (C : Contract Op Res V) (I : V → Prop) (P : Op → Prop) : Prop :=
  ∀ (v : V) (o : Op) (Q : Res o → V → Prop), I v → P o → (∀ r v', I v' → Q r v') → C.demand v o Q

theorem wp_of_preserves {V : Type} {C : Contract Op Res V} {I : V → Prop} {P : Op → Prop}
    (hC : C.Preserves I P) {p : Program Op Res α} {Q : α → Unit → Prop} (h : p.wp (only P) Q ())
    {v : V} (hv : I v) : p.wp C (fun a v' => Q a () ∧ I v') v := by
  induction p generalizing v with
  | ret a => exact ⟨h, hv⟩
  | call o k ih => exact hC _ _ _ hv h.1 fun r v' hv' => ih r (h.2 r) hv'

/-- In view `v`, the operations in `P` are allowed and leave the view alone. -/
def Ignores {V : Type} (C : Contract Op Res V) (v : V) (P : Op → Prop) : Prop :=
  ∀ (o : Op) (Q : Res o → V → Prop), P o → (∀ r, Q r v) → C.demand v o Q

theorem Ignores.mono {V : Type} {C : Contract Op Res V} {v : V} {P P' : Op → Prop}
    (hC : C.Ignores v P) (h : ∀ o, P' o → P o) : C.Ignores v P' := fun o Q ho => hC o Q (h o ho)

theorem Ignores.preserves {V : Type} {C : Contract Op Res V} {v : V} {P : Op → Prop}
    (hC : C.Ignores v P) : C.Preserves (· = v) P := by
  intro v' o Q hv ho hQ
  subst hv
  exact hC o Q ho fun r => hQ r _ rfl

theorem wp_of_ignores {V : Type} {C : Contract Op Res V} {P : Op → Prop} {v : V}
    (hC : C.Ignores v P) {p : Program Op Res α} {Q : α → Unit → Prop} (h : p.wp (only P) Q ()) :
    p.wp C (fun a v' => Q a () ∧ v' = v) v := wp_of_preserves hC.preserves h rfl

/-- The operations in `P` are allowed in every view. -/
def Allows {V : Type} (C : Contract Op Res V) (P : Op → Prop) : Prop :=
  ∀ (v : V) (o : Op) (Q : Res o → V → Prop), P o → (∀ r v', Q r v') → C.demand v o Q

theorem Allows.preserves {V : Type} {C : Contract Op Res V} {P : Op → Prop} (hC : C.Allows P) :
    C.Preserves (fun _ => True) P :=
  fun v o Q _ ho hQ => hC v o Q ho fun r v' => hQ r v' trivial

theorem wp_of_allows {V : Type} {C : Contract Op Res V} {P : Op → Prop} (hC : C.Allows P)
    {p : Program Op Res α} {Q : α → Unit → Prop} (h : p.wp (only P) Q ()) (v : V) :
    p.wp C (fun a _ => Q a ()) v :=
  Program.wp_mono (fun _ _ h => h.1) (wp_of_preserves hC.preserves h trivial)

/-- What holds at the end whatever is answered also holds when it is answered by a contract. -/
theorem wp_and_only {V : Type} {C : Contract Op Res V} {p : Program Op Res α} {Q : α → V → Prop}
    {Q' : α → Unit → Prop} {v : V} (h : p.wp C Q v) (h' : p.wp (only fun _ => True) Q' ()) :
    p.wp C (fun a v' => Q a v' ∧ Q' a ()) v := by
  induction p generalizing v with
  | ret a => exact ⟨h, h'⟩
  | call o k ih => exact C.mono (fun r v' hr => ih r hr (h'.2 r)) h

end Contract

/-! ## Imperative tasks -/

/-- Code with exceptions `ε` and a local state `σ` that outlives them, over a monad `n`
that performs the operations. -/
abbrev Task (n : Type → Type) (ε σ : Type) : Type → Type := ExceptT ε (StateT σ n)

namespace Task

section Code

variable {n : Type → Type} [Monad n] {ε σ α β : Type}

def getState : Task n ε σ σ := ExceptT.mk fun s => pure (.ok s, s)

def modifyState (f : σ → σ) : Task n ε σ Unit := ExceptT.mk fun s => pure (.ok (), f s)

/-- Step the local state with code of its own, which may end in an exception. -/
def stepState (f : σ → Except ε α × σ) : Task n ε σ α := ExceptT.mk fun s => pure (f s)

def ofExcept (x : Except ε α) : Task n ε σ α := ExceptT.mk fun s => pure (x, s)

/-- `body` followed by an exit action, which is told whether `body` ended in an
exception. An exception of the exit action replaces what `body` ended in. -/
def withExit (body : Task n ε σ α) (exit : Option ε → Task n ε σ Unit) : Task n ε σ α :=
  ExceptT.mk fun s => do
    match ← body.run.run s with
    | (.ok a, s) =>
      match ← (exit none).run.run s with
      | (.ok _, s) => pure (.ok a, s)
      | (.error e, s) => pure (.error e, s)
    | (.error e, s) =>
      match ← (exit (some e)).run.run s with
      | (.ok _, s) => pure (.error e, s)
      | (.error e', s) => pure (.error e', s)

/-- The same code, seen from a caller with exceptions of its own. -/
def mapError {ε' : Type} (g : ε → ε') (x : Task n ε σ α) : Task n ε' σ α :=
  ExceptT.mk fun s => do
    let (r, s') ← x.run.run s
    pure (r.mapError g, s')

theorem run_bind (x : Task n ε σ β) (f : β → Task n ε σ α) (s : σ) :
    (x >>= f).run.run s = (x.run.run s >>= fun r => match r with
      | (.ok b, s') => (f b).run.run s'
      | (.error e, s') => pure (.error e, s')) := by
  simp only [ExceptT.run_bind, StateT.run_bind]
  refine congrArg (x.run.run s >>= ·) (funext fun r => ?_)
  obtain ⟨r, s'⟩ := r
  cases r <;> rfl

theorem run_tryCatch (x : Task n ε σ α) (f : ε → Task n ε σ α) (s : σ) :
    (tryCatch x f : Task n ε σ α).run.run s = (x.run.run s >>= fun r => match r with
      | (.ok a, s') => pure (.ok a, s')
      | (.error e, s') => (f e).run.run s') := by
  refine congrArg (x.run.run s >>= ·) (funext fun r => ?_)
  obtain ⟨r, s'⟩ := r
  cases r <;> rfl

end Code

variable {Op : Type} {Res : Op → Type} {V ε σ α β : Type}

/-- Perform an operation whose response is a value or an exception. -/
def perform (o : Op) (get : Res o → Except ε α) : Task (Program Op Res) ε σ α :=
  ExceptT.mk fun s => .call o fun r => .ret (get r, s)

/-- `Program.wp` of a task started in local state `s` and view `v`. -/
def wp (C : Contract Op Res V) (x : Task (Program Op Res) ε σ α)
    (Q : Except ε α → σ → V → Prop) (s : σ) (v : V) : Prop :=
  (x.run.run s).wp C (fun r v' => Q r.1 r.2 v') v

variable (C : Contract Op Res V) (Q : Except ε α → σ → V → Prop) (s : σ) (v : V)

theorem wp_def (x : Task (Program Op Res) ε σ α) :
    wp C x Q s v = (x.run.run s).wp C (fun r v' => Q r.1 r.2 v') v := rfl

theorem wp_pure (a : α) : wp C (pure a : Task (Program Op Res) ε σ α) Q s v = Q (.ok a) s v := rfl

theorem wp_throw (e : ε) :
    wp C (throw e : Task (Program Op Res) ε σ α) Q s v = Q (.error e) s v := rfl

theorem wp_ofExcept (x : Except ε α) :
    wp C (ofExcept x : Task (Program Op Res) ε σ α) Q s v = Q x s v := rfl

theorem wp_getState (Q : Except ε σ → σ → V → Prop) :
    wp C (getState : Task (Program Op Res) ε σ σ) Q s v = Q (.ok s) s v := rfl

theorem wp_modifyState (f : σ → σ) (Q : Except ε Unit → σ → V → Prop) :
    wp C (modifyState f : Task (Program Op Res) ε σ Unit) Q s v = Q (.ok ()) (f s) v := rfl

theorem wp_stepState (f : σ → Except ε α × σ) :
    wp C (stepState f : Task (Program Op Res) ε σ α) Q s v = Q (f s).1 (f s).2 v := rfl

theorem wp_perform (o : Op) (get : Res o → Except ε α) :
    wp C (perform o get) Q s v = C.demand v o fun r v' => Q (get r) s v' := rfl

theorem wp_bind (x : Task (Program Op Res) ε σ β) (f : β → Task (Program Op Res) ε σ α) :
    wp C (x >>= f) Q s v = wp C x (fun r s' v' =>
      match r with
      | .ok b => wp C (f b) Q s' v'
      | .error e => Q (.error e) s' v') s v := by
  unfold wp
  rw [run_bind, Program.wp_bind]
  congr 1
  funext r v'
  obtain ⟨r, s'⟩ := r
  cases r <;> rfl

theorem wp_tryCatch (x : Task (Program Op Res) ε σ α) (f : ε → Task (Program Op Res) ε σ α) :
    wp C (tryCatch x f) Q s v = wp C x (fun r s' v' =>
      match r with
      | .ok a => Q (.ok a) s' v'
      | .error e => wp C (f e) Q s' v') s v := by
  unfold wp
  rw [run_tryCatch, Program.wp_bind]
  congr 1
  funext r v'
  obtain ⟨r, s'⟩ := r
  cases r <;> rfl

theorem wp_withExit (body : Task (Program Op Res) ε σ α)
    (exit : Option ε → Task (Program Op Res) ε σ Unit) :
    wp C (withExit body exit) Q s v = wp C body (fun r s' v' =>
      match r with
      | .ok a => wp C (exit none) (fun r' s' v' =>
          match r' with
          | .ok _ => Q (.ok a) s' v'
          | .error e => Q (.error e) s' v') s' v'
      | .error e => wp C (exit (some e)) (fun r' s' v' =>
          match r' with
          | .ok _ => Q (.error e) s' v'
          | .error e' => Q (.error e') s' v') s' v') s v := by
  unfold wp withExit
  change Program.wp C (body.run.run s >>= _) _ v = _
  rw [Program.wp_bind]
  congr 1
  funext r v'
  obtain ⟨r, s'⟩ := r
  cases r
  all_goals
    dsimp only
    rw [Program.wp_bind]
    congr 1
    funext r' v'
    obtain ⟨r', s'⟩ := r'
    cases r' <;> rfl

theorem wp_mapError {ε' : Type} (g : ε → ε') (x : Task (Program Op Res) ε σ α)
    (Q : Except ε' α → σ → V → Prop) :
    wp C (mapError g x) Q s v = wp C x (fun r => Q (r.mapError g)) s v := by
  unfold wp mapError
  change Program.wp C (x.run.run s >>= _) _ v = _
  rw [Program.wp_bind]
  rfl

theorem wp_mono {C : Contract Op Res V} {x : Task (Program Op Res) ε σ α}
    {Q Q' : Except ε α → σ → V → Prop} {s : σ} {v : V}
    (h : ∀ r s' v', Q r s' v' → Q' r s' v') (hx : wp C x Q s v) : wp C x Q' s v :=
  Program.wp_mono (fun r v' => h r.1 r.2 v') hx

/-- Code that performs operations in `P` only, in a view that these leave alone. -/
theorem wp_of_ignores {C : Contract Op Res V} {P : Op → Prop} {v : V} (hC : C.Ignores v P)
    {x : Task (Program Op Res) ε σ α} {Q : Except ε α → σ → Unit → Prop} {s : σ}
    (h : wp (.only P) x Q s ()) : wp C x (fun r s' v' => Q r s' () ∧ v' = v) s v := by
  unfold wp at h ⊢
  exact Contract.wp_of_ignores hC h

/-- Code that performs operations in `P` only, in views that these keep in `I`. -/
theorem wp_of_preserves {C : Contract Op Res V} {I : V → Prop} {P : Op → Prop}
    (hC : C.Preserves I P) {x : Task (Program Op Res) ε σ α} {Q : Except ε α → σ → Unit → Prop}
    {s : σ} {v : V} (h : wp (.only P) x Q s ()) (hv : I v) :
    wp C x (fun r s' v' => Q r s' () ∧ I v') s v := by
  unfold wp at h ⊢
  exact Contract.wp_of_preserves hC h hv

/-- What holds of the notes and is never noted away holds at the end of the code. -/
theorem wp_noting {N : Type} {C : Contract Op Res V} {note : N → (o : Op) → Res o → N}
    {I : N → Prop} (hI : ∀ n o r, I n → I (note n o r)) {x : Task (Program Op Res) ε σ α}
    {Q : Except ε α → σ → V → Prop} {s : σ} {v : V} (h : wp C x Q s v) {n : N} (hn : I n) :
    wp (C.noting note) x (fun r s' v' => Q r s' v'.1 ∧ I v'.2) s (v, n) := by
  unfold wp at h ⊢
  exact Contract.wp_noting hI h hn

/-- Code that performs operations in `P` only, when these are always allowed. -/
theorem wp_of_allows {C : Contract Op Res V} {P : Op → Prop} (hC : C.Allows P)
    {x : Task (Program Op Res) ε σ α} {Q : Except ε α → σ → Unit → Prop} {s : σ}
    (h : wp (.only P) x Q s ()) (v : V) : wp C x (fun r s' _ => Q r s' ()) s v := by
  unfold wp at h ⊢
  exact Contract.wp_of_allows hC h v

theorem wp_and_only {C : Contract Op Res V} {x : Task (Program Op Res) ε σ α}
    {Q : Except ε α → σ → V → Prop} {Q' : Except ε α → σ → Unit → Prop} {s : σ} {v : V}
    (h : wp C x Q s v) (h' : wp (.only fun _ => True) x Q' s ()) :
    wp C x (fun r s' v' => Q r s' v' ∧ Q' r s' ()) s v := by
  unfold wp at h h' ⊢
  exact Contract.wp_and_only h h'

section Service

variable (serve : (o : Op) → V → Res o × V)

/-- Run a task against a service that answers every operation at once. -/
def runWith (x : Task (Program Op Res) ε σ α) (s : σ) (v : V) : (Except ε α × σ) × V :=
  (x.run.run s).run serve v

theorem runWith_of_wp {x : Task (Program Op Res) ε σ α} {Q : Except ε α → σ → V → Prop} {s : σ}
    {v : V} (h : wp (.ofService serve) x Q s v) :
    Q (x.runWith serve s v).1.1 (x.runWith serve s v).1.2 (x.runWith serve s v).2 :=
  (Contract.wp_ofService serve _ _ v).mp h

@[simp] theorem runWith_pure (a : α) (s : σ) (v : V) :
    (pure a : Task (Program Op Res) ε σ α).runWith serve s v = ((.ok a, s), v) := rfl

@[simp] theorem runWith_throw (e : ε) (s : σ) (v : V) :
    (throw e : Task (Program Op Res) ε σ α).runWith serve s v = ((.error e, s), v) := rfl

@[simp] theorem runWith_ofExcept (x : Except ε α) (s : σ) (v : V) :
    (ofExcept x : Task (Program Op Res) ε σ α).runWith serve s v = ((x, s), v) := rfl

theorem runWith_bind (x : Task (Program Op Res) ε σ β) (f : β → Task (Program Op Res) ε σ α)
    (s : σ) (v : V) :
    (x >>= f).runWith serve s v = match x.runWith serve s v with
      | ((.ok b, s'), v') => (f b).runWith serve s' v'
      | ((.error e, s'), v') => ((.error e, s'), v') := by
  unfold runWith
  rw [run_bind, Program.run_bind]
  obtain ⟨⟨r, s'⟩, v'⟩ := (x.run.run s).run serve v
  cases r <;> rfl

theorem runWith_mapError {ε' : Type} (g : ε → ε') (x : Task (Program Op Res) ε σ α) (s : σ)
    (v : V) :
    (mapError g x).runWith serve s v = (((x.runWith serve s v).1.1.mapError g,
      (x.runWith serve s v).1.2), (x.runWith serve s v).2) := by
  unfold runWith mapError
  change Program.run serve (x.run.run s >>= _) v = _
  rw [Program.run_bind]
  rfl

end Service

attribute [irreducible] wp

/-! ### Tasks that perform no operations -/

section Local

variable {ε σ α β : Type}

/-- Run a task that performs no operations. -/
def eval (x : Task Id ε σ α) (s : σ) : Except ε α × σ := x.run.run s

@[simp] theorem eval_pure (a : α) (s : σ) : eval (pure a : Task Id ε σ α) s = (.ok a, s) := rfl

@[simp] theorem eval_throw (e : ε) (s : σ) :
    eval (throw e : Task Id ε σ α) s = (.error e, s) := rfl

@[simp] theorem eval_ofExcept (x : Except ε α) (s : σ) :
    eval (ofExcept x : Task Id ε σ α) s = (x, s) := rfl

@[simp] theorem eval_getState (s : σ) : eval (getState : Task Id ε σ σ) s = (.ok s, s) := rfl

@[simp] theorem eval_modifyState (f : σ → σ) (s : σ) :
    eval (modifyState f : Task Id ε σ Unit) s = (.ok (), f s) := rfl

@[simp] theorem eval_stepState (f : σ → Except ε α × σ) (s : σ) :
    eval (stepState f : Task Id ε σ α) s = f s := rfl

@[simp] theorem eval_bind (x : Task Id ε σ β) (f : β → Task Id ε σ α) (s : σ) :
    eval (x >>= f) s = match eval x s with
      | (.ok b, s') => eval (f b) s'
      | (.error e, s') => (.error e, s') := by
  unfold eval
  rw [run_bind]
  obtain ⟨r, s'⟩ := x.run.run s
  cases r <;> rfl

@[simp] theorem eval_tryCatch (x : Task Id ε σ α) (f : ε → Task Id ε σ α) (s : σ) :
    eval (tryCatch x f) s = match eval x s with
      | (.ok a, s') => (.ok a, s')
      | (.error e, s') => eval (f e) s' := by
  unfold eval
  rw [run_tryCatch]
  obtain ⟨r, s'⟩ := x.run.run s
  cases r <;> rfl

@[simp] theorem eval_withExit (body : Task Id ε σ α) (exit : Option ε → Task Id ε σ Unit)
    (s : σ) :
    eval (withExit body exit) s = match eval body s with
      | (.ok a, s') =>
        match eval (exit none) s' with
        | (.ok _, s'') => (.ok a, s'')
        | (.error e, s'') => (.error e, s'')
      | (.error e, s') =>
        match eval (exit (some e)) s' with
        | (.ok _, s'') => (.error e, s'')
        | (.error e', s'') => (.error e', s'') := by
  unfold eval withExit
  change (body.run.run s >>= _ : Id _) = _
  obtain ⟨r, s'⟩ := body.run.run s
  cases r <;> rfl

end Local

end Task

end BankingTransactions.InteractionPrograms
