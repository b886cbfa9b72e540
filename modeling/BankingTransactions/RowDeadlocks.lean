import BankingTransactions.RowOrder
import BankingTransactions.Server
import BankingTransactions.WaitGraphs

/-!
# Deadlocks on row locks

The order in which a request locks its rows depends on who sends and who receives. Two
opposite transfers that are both inside deadlock; this happens once their lock keys have
expired. A cycle can only close when a transfer locks the row of its sender while other
transfers, each between its two locks, lead from its receiver back to its sender. As
long as that never happens no deadlock is ever reached.
-/
namespace BankingTransactions
open DecimalArithmetic InteractionPrograms ThreadPools WaitGraphs

/-! ## Row locks in a system -/

/-- The locked rows are those that the requests may have locked. -/
structure RowsHeld (s : Server) (views : RequestId → Option (Request × RowPhase)) : Prop where
  exclusive : ∀ {id t t'}, (id, t) ∈ s.rowLocks → (id, t') ∈ s.rowLocks → t = t'
  viewed : ∀ {id t}, (id, t) ∈ s.rowLocks → ∃ r v, views t = some (r, v) ∧ id ∈ v.rows
  held : ∀ {t r v id}, views t = some (r, v) → t ∉ s.aborted → id ∈ v.rows → (id, t) ∈ s.rowLocks
  aborted : ∀ {t id}, t ∈ s.aborted → (id, t) ∉ s.rowLocks

namespace RowsHeld

variable {s s' : Server} {views : RequestId → Option (Request × RowPhase)} {t : RequestId}
  {r : Request} {v w : RowPhase} {o : IoOp} {res : o.Res} {Q : o.Res → RowPhase → Prop}

/-- The phase of a request changes, and rows are lost or gained by that request alone. -/
theorem view (h : RowsHeld s views) (ht : views t = some (r, v))
    (hothers : ∀ {id t'}, t' ≠ t → ((id, t') ∈ s'.rowLocks ↔ (id, t') ∈ s.rowLocks))
    (habothers : ∀ {t'}, t' ≠ t → (t' ∈ s'.aborted ↔ t' ∈ s.aborted))
    (hown : ∀ {id}, (id, t) ∈ s'.rowLocks → id ∈ w.rows)
    (hheld : t ∉ s'.aborted → ∀ {id}, id ∈ w.rows → (id, t) ∈ s'.rowLocks)
    (haborted : t ∈ s'.aborted → ∀ {id}, (id, t) ∉ s'.rowLocks)
    (hfree : ∀ {id t'}, (id, t) ∈ s'.rowLocks → (id, t') ∈ s.rowLocks → t' = t) :
    RowsHeld s' (Function.update views t (some (r, w))) where
  exclusive {id t₁ t₂} h₁ h₂ := by
    by_cases hne₁ : t₁ = t <;> by_cases hne₂ : t₂ = t
    · rw [hne₁, hne₂]
    · subst hne₁
      exact (hfree h₁ ((hothers hne₂).mp h₂)).symm
    · subst hne₂
      exact hfree h₂ ((hothers hne₁).mp h₁)
    · exact h.exclusive ((hothers hne₁).mp h₁) ((hothers hne₂).mp h₂)
  viewed {id t'} hmem := by
    by_cases hne : t' = t
    · subst hne
      exact ⟨r, w, Function.update_self .., hown hmem⟩
    · rw [Function.update_of_ne hne]
      exact h.viewed ((hothers hne).mp hmem)
  held {t' r' v' id} hview hab hmem := by
    by_cases hne : t' = t
    · subst hne
      rw [Function.update_self] at hview
      cases hview
      exact hheld hab hmem
    · rw [Function.update_of_ne hne] at hview
      exact (hothers hne).mpr (h.held hview (fun hab' => hab ((habothers hne).mpr hab')) hmem)
  aborted {t' id} hab := by
    by_cases hne : t' = t
    · subst hne
      exact haborted hab
    · exact fun hmem => h.aborted ((habothers hne).mp hab) ((hothers hne).mp hmem)

theorem mem_rows (h : RowsHeld s views) (ht : views t = some (r, v)) {id : AccountId}
    (hmem : (id, t) ∈ s.rowLocks) : id ∈ v.rows := by
  obtain ⟨r', v', hview, hid⟩ := h.viewed hmem
  rw [ht] at hview
  cases hview
  exact hid

/-- Nothing happens to the row locks, and the request still may hold the same rows. -/
theorem unchanged (h : RowsHeld s views) (ht : views t = some (r, v))
    (hlocks : s'.rowLocks = s.rowLocks) (haborted : s'.aborted = s.aborted)
    (hrows : w.rows = v.rows) : RowsHeld s' (Function.update views t (some (r, w))) := by
  refine h.view ht (by simp [hlocks]) (by simp [haborted]) (fun hmem => ?_) (fun hab id hid => ?_)
    (fun hab id hmem => ?_) fun hmem hmem' => ?_
  · rw [hlocks] at hmem
    rw [hrows]
    exact h.mem_rows ht hmem
  · rw [haborted] at hab
    rw [hrows] at hid
    rw [hlocks]
    exact h.held ht hab hid
  · rw [haborted] at hab
    rw [hlocks] at hmem
    exact h.aborted hab hmem
  · rw [hlocks] at hmem
    exact h.exclusive hmem' hmem

/-- The database transaction of a request ends. -/
theorem released (h : RowsHeld s views) (ht : views t = some (r, v))
    (hlocks : s'.rowLocks = s.rowLocks.filter fun l => l.2 ≠ t)
    (haborted : s'.aborted = s.aborted.filter fun t' => t' ≠ t) (hrows : w.rows = []) :
    RowsHeld s' (Function.update views t (some (r, w))) := by
  have hnone : ∀ {id}, (id, t) ∉ s'.rowLocks := by simp [hlocks]
  refine h.view ht (fun hne => ?_) (fun hne => ?_) (fun hmem => absurd hmem hnone)
    (fun _ id hid => ?_) (fun _ _ => hnone) fun hmem _ => absurd hmem hnone
  · simp [hlocks, hne]
  · simp [haborted, hne]
  · simp [hrows] at hid

/-- A request locks a row that no other request holds. -/
theorem lock (h : RowsHeld s views) (ht : views t = some (r, v)) (hab : t ∉ s.aborted)
    {id : AccountId} (hfree : s.lockedByOther t id = false)
    (hrows : ∀ id', id' ∈ w.rows ↔ id' = id ∨ id' ∈ v.rows) :
    RowsHeld { s with rowLocks := (id, t) :: s.rowLocks }
      (Function.update views t (some (r, w))) := by
  have hother : ∀ t', (id, t') ∈ s.rowLocks → t' = t := by
    intro t' hmem
    by_contra hne
    have := List.any_eq_false.mp hfree _ hmem
    simp [hne] at this
  refine h.view ht (fun hne => ?_) (fun _ => .rfl) (fun hmem => ?_) (fun _ id' hid => ?_)
    (fun habt => absurd habt hab) fun hmem hmem' => ?_
  · simp [hne]
  · rcases List.mem_cons.mp hmem with heq | hmem
    · cases heq
      exact (hrows _).mpr (.inl rfl)
    · exact (hrows _).mpr (.inr (h.mem_rows ht hmem))
  · rcases (hrows id').mp hid with rfl | hid
    · exact List.mem_cons_self
    · exact List.mem_cons_of_mem _ (h.held ht hab hid)
  · rcases List.mem_cons.mp hmem with heq | hmem
    · cases heq
      exact hother _ hmem'
    · exact h.exclusive hmem' hmem

/-- What an operation that locks no row does to the row locks. -/
theorem serve_rows (ho : o.isRowLock = false) (hserve : Server.serve t r o s = some (res, s')) :
    s'.rowLocks = s.rowLocks ∧ s'.aborted = s.aborted ∨
      o.isEnd = true ∧ (s'.rowLocks = s.rowLocks.filter fun l => l.2 ≠ t) ∧
        s'.aborted = s.aborted.filter fun t' => t' ≠ t := by
  cases o with
  | selectAccountForUpdate id => cases ho
  | commit w =>
    simp only [Server.serve] at hserve
    split_ifs at hserve
    · cases hserve
      exact .inl ⟨rfl, rfl⟩
    · split at hserve
      · cases hserve
        exact .inl ⟨rfl, rfl⟩
      · cases hserve
        exact .inr ⟨rfl, rfl, rfl⟩
  | rollback =>
    cases hserve
    exact .inr ⟨rfl, rfl, rfl⟩
  | close =>
    cases hserve
    exact .inr ⟨rfl, rfl, rfl⟩
  | deleteKey k =>
    cases hserve
    exact .inl ⟨rfl, rfl⟩
  | publishMany events =>
    cases hserve
    exact .inl ⟨rfl, rfl⟩
  | _ =>
    simp only [Server.serve] at hserve
    split_ifs at hserve <;> cases hserve <;> exact .inl ⟨rfl, rfl⟩

theorem demand_other (ho : o.isRowLock = false) (hd : (rowOrderContract r).demand v o Q)
    (res : o.Res) : Q res v.onward ∧ (o.isEnd = true → Q res v.ended) := by
  cases o with
  | selectAccountForUpdate id => cases ho
  | commit w => exact ⟨(hd res).1, fun _ => (hd res).2⟩
  | rollback => exact ⟨(hd res).1, fun _ => (hd res).2⟩
  | close => exact ⟨(hd res).1, fun _ => (hd res).2⟩
  | _ => exact ⟨hd res, nofun⟩

/-- An operation that locks no row, whatever response to it arrives. -/
theorem serve_other (h : RowsHeld s views) (ht : views t = some (r, v)) (ho : o.isRowLock = false)
    (hserve : Server.serve t r o s = some (res, s')) (hd : (rowOrderContract r).demand v o Q)
    (res' : o.Res) : ∃ v', Q res' v' ∧ RowsHeld s' (Function.update views t (some (r, v'))) ∧
      ∀ first, v' ≠ .between first := by
  obtain ⟨honward, hended⟩ := demand_other ho hd res'
  rcases serve_rows ho hserve with ⟨hlocks, haborted⟩ | ⟨hend, hlocks, haborted⟩
  · exact ⟨_, honward, h.unchanged ht hlocks haborted v.rows_onward, v.onward_ne_between⟩
  · exact ⟨_, hended hend, h.released ht hlocks haborted v.rows_ended, v.ended_ne_between⟩

theorem mem_rows_lock {id : AccountId} (h : r.MayLock v id) (id' : AccountId) :
    id' ∈ (v.lock id).rows ↔ id' = id ∨ id' ∈ v.rows := by
  cases r with
  | create draws command => cases h
  | transfer draws command =>
    cases v with
    | before => simp [RowPhase.lock, RowPhase.rows]
    | between first => simp [RowPhase.lock, RowPhase.rows]
    | after held =>
      have hid : id ∈ held := h
      constructor
      · exact .inr
      · intro hid'
        rcases hid' with rfl | hid'
        · exact hid
        · exact hid'

/-- Only a first lock leads between the two locks. -/
theorem lock_between {id first : AccountId} (h : v.lock id = .between first) :
    v = .before ∧ id = first := by
  cases v with
  | before =>
    cases h
    exact ⟨rfl, rfl⟩
  | between _ => cases h
  | after _ => cases h

/-- A SELECT FOR UPDATE, answered or not. -/
theorem serve_lock {id : AccountId} {res : (IoOp.selectAccountForUpdate id).Res}
    {Q : (IoOp.selectAccountForUpdate id).Res → RowPhase → Prop} (h : RowsHeld s views)
    (ht : views t = some (r, v))
    (hserve : Server.serve t r (.selectAccountForUpdate id) s = some (res, s'))
    (hd : (rowOrderContract r).demand v (.selectAccountForUpdate id) Q) :
    (∃ v', Q res v' ∧ RowsHeld s' (Function.update views t (some (r, v'))) ∧
      ∀ first, v' = .between first → v = .before ∧ id = first) ∧
    ∀ e, ∃ v', Q (.error e) v' ∧ RowsHeld s' (Function.update views t (some (r, v'))) ∧
      ∀ first, v' ≠ .between first := by
  obtain ⟨hmay, hnone, hsome, herror⟩ := hd
  have hkept : RowsHeld s (Function.update views t (some (r, .after v.rows))) :=
    h.unchanged ht rfl rfl rfl
  by_cases hab : t ∈ s.aborted
  · simp only [Server.serve, if_pos hab] at hserve
    cases hserve
    exact ⟨⟨_, (herror _).1, hkept, nofun⟩, fun e => ⟨_, (herror e).1, hkept, nofun⟩⟩
  simp only [Server.serve, if_neg hab] at hserve
  cases hfind : s.db.findAccount id with
  | none =>
    simp only [hfind] at hserve
    cases hserve
    exact ⟨⟨_, hnone, hkept, nofun⟩, fun e => ⟨_, (herror e).1, hkept, nofun⟩⟩
  | some row =>
    simp only [hfind] at hserve
    split_ifs at hserve with hfree
    cases hserve
    have hid : row.load.id = id := (Database.findAccount_eq_some.mp hfind).2
    have hfree' : s.lockedByOther t id = false := by simpa using hfree
    refine ⟨⟨_, hsome _ hid, h.lock ht hab hfree' (mem_rows_lock hmay), fun first =>
      lock_between⟩, fun e => ⟨_, (herror e).2, h.lock ht hab hfree' fun id' => ?_, nofun⟩⟩
    exact List.mem_cons

/-- One answer. A request gets between its two locks only by locking its first row. -/
theorem answer {choice : Choice} (h : RowsHeld s views) (ht : views t = some (r, v))
    (hanswer : Server.answer t r choice o s = some (res, s'))
    (hd : (rowOrderContract r).demand v o Q) :
    ∃ v', Q res v' ∧ RowsHeld s' (Function.update views t (some (r, v'))) ∧
      ∀ first, v' = .between first →
        v = .before ∧ o = .selectAccountForUpdate first ∧ choice = .proceed := by
  cases ho : o.isRowLock with
  | false =>
    have hother : ∀ v', (∀ first, v' ≠ RowPhase.between first) → ∀ first, v' = .between first →
        v = .before ∧ o = .selectAccountForUpdate first ∧ choice = .proceed :=
      fun v' hne first hv' => absurd hv' (hne first)
    cases choice with
    | proceed =>
      obtain ⟨v', hQ, hv', hne⟩ := h.serve_other ht ho hanswer hd res
      exact ⟨v', hQ, hv', hother v' hne⟩
    | timeout =>
      cases o with
      | acquireKey k =>
        simp only [Server.answer] at hanswer
        split_ifs at hanswer
        cases hanswer
        exact ⟨_, hd _, h.unchanged ht rfl rfl v.rows_onward, hother _ v.onward_ne_between⟩
      | _ => cases hanswer
    | fault e =>
      cases hanswer
      exact ⟨_, (demand_other ho hd _).1, h.unchanged ht rfl rfl v.rows_onward,
        hother _ v.onward_ne_between⟩
    | faultAfter e =>
      simp only [Server.answer, Option.map_eq_some_iff] at hanswer
      obtain ⟨⟨res', s''⟩, hserve, hres⟩ := hanswer
      cases hres
      obtain ⟨v', hQ, hv', hne⟩ := h.serve_other ht ho hserve hd (.error e)
      exact ⟨v', hQ, hv', hother v' hne⟩
  | true =>
    cases o with
    | selectAccountForUpdate id =>
      cases choice with
      | proceed =>
        obtain ⟨v', hQ, hv', hbetween⟩ := (h.serve_lock ht hanswer hd).1
        refine ⟨v', hQ, hv', fun first hfirst => ?_⟩
        obtain ⟨hbefore, rfl⟩ := hbetween first hfirst
        exact ⟨hbefore, rfl, rfl⟩
      | timeout => cases hanswer
      | fault e =>
        cases hanswer
        exact ⟨_, (hd.2.2.2 e).1, h.unchanged ht rfl rfl rfl, fun first hfirst => by cases hfirst⟩
      | faultAfter e =>
        simp only [Server.answer, Option.map_eq_some_iff] at hanswer
        obtain ⟨⟨res', s''⟩, hserve, hres⟩ := hanswer
        cases hres
        obtain ⟨v', hQ, hv', hne⟩ := (h.serve_lock ht hserve hd).2 e
        exact ⟨v', hQ, hv', fun first hfirst => absurd hfirst (hne first)⟩
    | _ => cases ho

theorem accept (h : RowsHeld s views) (ht : views t = none)
    (haccept : Server.accept t r s = some s') :
    RowsHeld s' (Function.update views t (some (r, .before))) := by
  simp only [Server.accept] at haccept
  split_ifs at haccept
  cases haccept
  refine ⟨h.exclusive, fun {id t'} hmem => ?_, fun {t' r' v' id} hview hab hid => ?_, h.aborted⟩
  · obtain ⟨r', v', hview, hid⟩ := h.viewed hmem
    have hne : t' ≠ t := by
      intro heq
      rw [heq, ht] at hview
      cases hview
    exact ⟨r', v', by rw [Function.update_of_ne hne, hview], hid⟩
  · by_cases hne : t' = t
    · subst hne
      rw [Function.update_self] at hview
      cases hview
      cases hid
    · rw [Function.update_of_ne hne] at hview
      exact h.held hview hab hid

theorem disturb {d : Disturbance} (h : RowsHeld s views)
    (hdisturb : Server.disturb d s = some s') : RowsHeld s' views := by
  cases d with
  | expireKey k =>
    cases hdisturb
    exact ⟨h.exclusive, h.viewed, h.held, h.aborted⟩
  | abort t =>
    cases hdisturb
    refine ⟨fun h₁ h₂ => ?_, fun hmem => ?_, fun {t' r' v' id} hview hab hid => ?_,
      fun {t' id} hab hmem => ?_⟩
    · exact h.exclusive (List.mem_filter.mp h₁).1 (List.mem_filter.mp h₂).1
    · exact h.viewed (List.mem_filter.mp hmem).1
    · obtain ⟨hne, hab⟩ := not_or.mp (mt List.mem_cons.mpr hab)
      exact List.mem_filter.mpr ⟨h.held hview hab hid, by simpa using hne⟩
    · obtain ⟨hmem, hne⟩ := List.mem_filter.mp hmem
      rcases List.mem_cons.mp hab with rfl | hab
      · simp at hne
      · exact h.aborted hab hmem

end RowsHeld

def rowOrderDiscipline : Discipline Server.host .any RowPhase where
  contract := rowOrderContract
  post _ _ _ := True
  inv := RowsHeld
  accept h ht _ haccept := ⟨.before, inOrder_program _, h.accept ht haccept⟩
  answer h ht _ hanswer hd := by
    obtain ⟨v', hQ, hv', -⟩ := h.answer ht hanswer hd
    exact ⟨v', hQ, hv'⟩
  disturb h _ hdisturb := h.disturb hdisturb

/-- An answer to one request leaves the row locks of the others alone. -/
theorem Server.answer_others {s s' : Server} {t t' : RequestId} {r : Request} {c : Choice}
    {o : IoOp} {res : o.Res} (hanswer : Server.answer t r c o s = some (res, s')) (hne : t' ≠ t)
    (id : AccountId) : (id, t') ∈ s'.rowLocks ↔ (id, t') ∈ s.rowLocks := by
  have hserve : ∀ {res : o.Res}, Server.serve t r o s = some (res, s') →
      ((id, t') ∈ s'.rowLocks ↔ (id, t') ∈ s.rowLocks) := by
    intro res hserve
    cases ho : o.isRowLock with
    | false =>
      rcases RowsHeld.serve_rows ho hserve with ⟨hlocks, -⟩ | ⟨-, hlocks, -⟩
      · rw [hlocks]
      · simp [hlocks, hne]
    | true =>
      cases o with
      | selectAccountForUpdate id =>
        by_cases hab : t ∈ s.aborted
        · simp only [Server.serve, if_pos hab] at hserve
          cases hserve
          rfl
        simp only [Server.serve, if_neg hab] at hserve
        cases hfind : s.db.findAccount id with
        | none =>
          simp only [hfind] at hserve
          cases hserve
          rfl
        | some row =>
          simp only [hfind] at hserve
          split_ifs at hserve
          cases hserve
          simp [hne]
      | _ => cases ho
  cases c with
  | proceed => exact hserve hanswer
  | timeout =>
    cases o with
    | acquireKey k =>
      simp only [Server.answer] at hanswer
      split_ifs at hanswer
      cases hanswer
      rfl
    | _ => cases hanswer
  | fault e =>
    cases hanswer
    rfl
  | faultAfter e =>
    simp only [Server.answer, Option.map_eq_some_iff] at hanswer
    obtain ⟨⟨res', s''⟩, hserve', hres⟩ := hanswer
    cases hres
    exact hserve hserve'

/-! ## Deadlocks on row locks -/

/-- A request waits for the lock of a row, in `get_with_lock` or in `update`. -/
def WaitsRow (p : System) (t : RequestId) (id : AccountId) : Prop :=
  ∃ r next, p.threads t = some (r, .call (.selectAccountForUpdate id) next) ∧
    Server.serve t r (.selectAccountForUpdate id) p.shared = none

def OwnsRow (p : System) (id : AccountId) (t : RequestId) : Prop := (id, t) ∈ p.shared.rowLocks

/-- A transfer from `a` to `b` has locked the row of `a` but not that of `b`. -/
def Server.Halfway (s : Server) (t : RequestId) (r : Request) (a b : AccountId) : Prop :=
  (a, t) ∈ s.rowLocks ∧ (b, t) ∉ s.rowLocks ∧
    ∃ draws command, r = .transfer draws command ∧ command.fromAccountId = a ∧
      command.toAccountId = b

/-- A transfer from `a` to `b` has locked the row of `a` and asks for that of `b`. -/
def BetweenLocks (p : System) (a b : AccountId) : Prop :=
  ∃ t r next, p.threads t = some (r, .call (.selectAccountForUpdate b) next) ∧
    p.shared.Halfway t r a b

/-- Whenever a transfer locks the row of its sender, transfers between their two locks do not
lead from its receiver back to its sender. Nothing is locked when there is no such row or the
database transaction is aborted. -/
def OrderKept (p : System) : Label RequestId Request Choice Disturbance → Prop
  | .resume t .proceed => ∀ draws command next,
      p.threads t = some (.transfer draws command,
        .call (.selectAccountForUpdate command.fromAccountId) next) →
      command.fromAccountId ≠ command.toAccountId →
      (command.fromAccountId, t) ∉ p.shared.rowLocks → t ∉ p.shared.aborted →
      (p.shared.db.findAccount command.fromAccountId).isSome →
      ¬ Relation.ReflTransGen (BetweenLocks p) command.toAccountId command.fromAccountId
  | _ => True

/-- Between locks there is no cycle, and the requests keep to their order. -/
def RowsOrdered (p : System) : Prop :=
  Acyclic (BetweenLocks p) ∧
    ∃ views, RowsHeld p.shared views ∧ rowOrderDiscipline.Tracks p.threads views

namespace RowsOrdered

/-- A request that asks for a row that it has not locked, and has locked another, is between
its two locks. -/
theorem between_of_tracks {s : Server} {views : RequestId → Option (Request × RowPhase)}
    {r : Request} {t : RequestId} {v : RowPhase} (hrows : RowsHeld s views)
    (hview : views t = some (r, v)) {a b : AccountId} (hmay : r.MayLock v b)
    (howned : (a, t) ∈ s.rowLocks) (hfree : (b, t) ∉ s.rowLocks) :
    v = .between a ∧ s.Halfway t r a b := by
  have hmem := hrows.mem_rows hview howned
  cases r with
  | create draws command => cases hmay
  | transfer draws command =>
    cases v with
    | before => cases hmem
    | between first =>
      obtain ⟨hfrom, hto⟩ := hmay
      obtain rfl : a = first := List.mem_singleton.mp hmem
      exact ⟨rfl, howned, hfree, draws, command, rfl, hfrom.symm, hto.symm⟩
    | after held =>
      have hab : t ∈ s.aborted := by
        by_contra hab
        exact hfree (hrows.held hview hab hmay)
      exact absurd howned (hrows.aborted hab)

/-- When one request makes a step, the others stay between their locks or not, as before. -/
theorem edge_of_step {p p' : System} {views : RequestId → Option (Request × RowPhase)}
    {t : RequestId} {r : Request} {v : RowPhase} {prog : Program IoOp IoOp.Res Outcome}
    (hthreads : p'.threads = Function.update p.threads t (some (r, prog)))
    (hothers : ∀ t', t' ≠ t → ∀ id, (id, t') ∈ p'.shared.rowLocks ↔ (id, t') ∈ p.shared.rowLocks)
    (hrows : RowsHeld p'.shared views) (hview : views t = some (r, v))
    (hwp : prog.wp (rowOrderContract r) (fun _ _ => True) v) {a b : AccountId}
    (hedge : BetweenLocks p' a b) :
    BetweenLocks p a b ∨ v = .between a ∧ p'.shared.Halfway t r a b := by
  obtain ⟨t', r', next, hthread, howned, hfree, hends⟩ := hedge
  by_cases hne : t' = t
  · subst hne
    rw [hthreads, Function.update_self] at hthread
    cases hthread
    exact .inr (between_of_tracks hrows hview hwp.1 howned hfree)
  · rw [hthreads, Function.update_of_ne hne] at hthread
    exact .inl ⟨t', r', next, hthread, (hothers t' hne a).mp howned,
      fun hmem => hfree ((hothers t' hne b).mpr hmem), hends⟩

/-- A row that gets locked is there, and whoever locks it is not aborted. -/
theorem locked_of_serve {s s' : Server} {t : RequestId} (r : Request) {id : AccountId}
    {res : (IoOp.selectAccountForUpdate id).Res}
    (hserve : Server.serve t r (.selectAccountForUpdate id) s = some (res, s'))
    (hbefore : (id, t) ∉ s.rowLocks) (hafter : (id, t) ∈ s'.rowLocks) :
    t ∉ s.aborted ∧ (s.db.findAccount id).isSome := by
  unfold Server.serve at hserve
  by_cases hab : t ∈ s.aborted
  · simp only [if_pos hab] at hserve
    cases hserve
    exact absurd hafter hbefore
  · refine ⟨hab, ?_⟩
    cases hrow : s.db.findAccount id with
    | some row => rfl
    | none =>
      simp only [if_neg hab, hrow] at hserve
      cases hserve
      exact absurd hafter hbefore

/-- A first lock adds one edge, and it closes no cycle. -/
theorem acyclic_resume {p p' : System} {t : RequestId} {c : Choice}
    (hacyclic : Acyclic (BetweenLocks p)) {views : RequestId → Option (Request × RowPhase)}
    (hrows : RowsHeld p.shared views) (htracks : rowOrderDiscipline.Tracks p.threads views)
    (hok : OrderKept p (.resume t c)) (hstep : Server.host.step p (.resume t c) = some p') :
    Acyclic (BetweenLocks p') := by
  have ht := htracks t
  simp only [Host.step] at hstep
  split at hstep
  · rename_i r o k hthread
    rw [hthread] at ht
    obtain ⟨v, hview, hwp⟩ := ht
    simp only [Option.map_eq_some_iff] at hstep
    obtain ⟨⟨res, s'⟩, hanswer, rfl⟩ := hstep
    replace hanswer : Server.answer t r c o p.shared = some (res, s') := hanswer
    obtain ⟨v', hnext, hrows', hbetween⟩ := hrows.answer hview hanswer hwp
    have hedge : ∀ {a b}, BetweenLocks ⟨s', Function.update p.threads t (some (r, k res))⟩ a b →
        BetweenLocks p a b ∨ v' = .between a ∧ s'.Halfway t r a b := fun h =>
      edge_of_step rfl (fun t' hne id => Server.answer_others hanswer hne id) hrows'
        (Function.update_self ..) hnext h
    by_cases hnew : ∃ a b, v' = .between a ∧ s'.Halfway t r a b
    · obtain ⟨_, _, hv', howned, hfree, draws, command, rfl, rfl, rfl⟩ := hnew
      obtain ⟨rfl, rfl, rfl⟩ := hbetween _ hv'
      have hne : command.fromAccountId ≠ command.toAccountId := by
        intro heq
        rw [heq] at howned
        exact hfree howned
      have hunlocked : (command.fromAccountId, t) ∉ p.shared.rowLocks := by
        intro hmem
        have hrow := hrows.mem_rows hview hmem
        cases hrow
      obtain ⟨hab, hrow⟩ := locked_of_serve (.transfer draws command) hanswer hunlocked howned
      have hback := hok draws command k hthread hne hunlocked hab hrow
      refine (hacyclic.insert hback).mono fun a b h => ?_
      rcases hedge h with hold | ⟨-, -, -, draws', command', hr, hfrom, hto⟩
      · exact .inl hold
      · cases hr
        exact .inr ⟨hfrom.symm, hto.symm⟩
    · refine hacyclic.mono fun a b h => ?_
      rcases hedge h with hold | hedge
      · exact hold
      · exact absurd ⟨a, b, hedge⟩ hnew
  · cases hstep

theorem acyclic_spawn {p p' : System} {t : RequestId} {r : Request}
    (hacyclic : Acyclic (BetweenLocks p)) {views : RequestId → Option (Request × RowPhase)}
    (hrows : RowsHeld p.shared views) (htracks : rowOrderDiscipline.Tracks p.threads views)
    (hstep : Server.host.step p (.spawn t r) = some p') : Acyclic (BetweenLocks p') := by
  have ht := htracks t
  simp only [Host.step] at hstep
  split at hstep
  · cases hstep
  · rename_i hnone
    rw [hnone] at ht
    simp only [Option.map_eq_some_iff] at hstep
    obtain ⟨s', haccept, rfl⟩ := hstep
    have hrows' : RowsHeld s' (Function.update views t (some (r, .before))) :=
      hrows.accept ht haccept
    have hlocks : s'.rowLocks = p.shared.rowLocks := by
      simp only [Server.host, Server.accept] at haccept
      split_ifs at haccept
      cases haccept
      rfl
    refine hacyclic.mono fun a b h => ?_
    have hedge := edge_of_step rfl (fun t' _ id => by rw [hlocks]) hrows'
      (Function.update_self ..) (inOrder_program r) h
    rcases hedge with hold | ⟨hv, -⟩
    · exact hold
    · cases hv

theorem acyclic_disturb {p p' : System} {d : Disturbance} (hacyclic : Acyclic (BetweenLocks p))
    (hstep : Server.host.step p (.disturb d) = some p') : Acyclic (BetweenLocks p') := by
  refine hacyclic.mono fun a b h => ?_
  obtain ⟨t, r, next, hthread, howned, hfree, hends⟩ := h
  cases d with
  | expireKey k =>
    cases hstep
    exact ⟨t, r, next, hthread, howned, hfree, hends⟩
  | abort t' =>
    cases hstep
    obtain ⟨howned, hne⟩ := List.mem_filter.mp howned
    exact ⟨t, r, next, hthread, howned, fun hmem => hfree (List.mem_filter.mpr ⟨hmem, hne⟩),
      hends⟩

theorem step {p p' : System} {l : Label RequestId Request Choice Disturbance}
    (h : RowsOrdered p) (hok : OrderKept p l) (hstep : Server.host.step p l = some p') :
    RowsOrdered p' := by
  obtain ⟨hacyclic, views, hrows, htracks⟩ := h
  refine ⟨?_, rowOrderDiscipline.step_sound (Policy.any_ok p l) hstep ⟨views, hrows, htracks⟩⟩
  cases l with
  | spawn t r => exact acyclic_spawn hacyclic hrows htracks hstep
  | resume t c => exact acyclic_resume hacyclic hrows htracks hok hstep
  | disturb d => exact acyclic_disturb hacyclic hstep

/-- Who waits for a row and has locked another is between its two locks. -/
theorem not_deadlock {p : System} (h : RowsOrdered p) : ¬ Deadlock (WaitsRow p) (OwnsRow p) := by
  obtain ⟨hacyclic, views, hrows, htracks⟩ := h
  refine not_deadlock_of_acyclic hacyclic fun {t id id'} howned hwaits => ?_
  obtain ⟨r, next, hthread, hserve⟩ := hwaits
  have ht := htracks t
  rw [hthread] at ht
  obtain ⟨v, hview, hwp⟩ := ht
  have hfree : (id', t) ∉ p.shared.rowLocks := by
    intro hmem
    have hab : t ∉ p.shared.aborted := fun hab => hrows.aborted hab hmem
    simp only [Server.serve, if_neg hab] at hserve
    split at hserve
    · cases hserve
    · split_ifs at hserve with hother
      obtain ⟨⟨id'', t'⟩, hmem', hother⟩ := List.any_eq_true.mp hother
      obtain ⟨rfl, hne⟩ : id'' = id' ∧ t' ≠ t := by simpa using hother
      exact hne (hrows.exclusive hmem' hmem)
  exact ⟨t, r, next, hthread, (between_of_tracks hrows hview hwp.1 howned hfree).2⟩

end RowsOrdered

/-- In a run in which no transfer locks the row of its sender while transfers between their
two locks lead from its receiver back to its sender, requests never wait for each other's row
locks in a cycle. -/
theorem row_locks_never_deadlock {ls : List (Label RequestId Request Choice Disturbance)}
    {p : System} (hrun : Run Server.host.step OrderKept (.empty (.quiet .empty)) ls p) :
    ¬ Deadlock (WaitsRow p) (OwnsRow p) := by
  have hstart : RowsOrdered (.empty (.quiet .empty)) := by
    refine ⟨fun k hk => ?_, fun _ => none, ⟨nofun, nofun, nofun, nofun⟩, fun _ => rfl⟩
    obtain ⟨_, hedge, -⟩ := Relation.TransGen.head'_iff.mp hk
    obtain ⟨t, r, next, hthread, -⟩ := hedge
    cases hthread
  exact (hrun.invariant (fun _ _ _ h hok hstep => h.step hok hstep) hstart).not_deadlock

/-! ## Opposite transfers -/

/-- `WaitsRow`, evaluated. -/
def waitsRow (p : System) (t : RequestId) (id : AccountId) : Bool :=
  match p.threads t with
  | some (r, .call (.selectAccountForUpdate id') _) =>
    id' = id && (Server.serve t r (.selectAccountForUpdate id) p.shared).isNone
  | _ => false

theorem waitsRow_sound {p : System} {t : RequestId} {id : AccountId} (h : waitsRow p t id = true) :
    WaitsRow p t id := by
  unfold waitsRow at h
  split at h
  · rename_i r id' next hthread
    simp only [Bool.and_eq_true, decide_eq_true_eq, Option.isNone_iff_eq_none] at h
    obtain ⟨rfl, hserve⟩ := h
    exact ⟨r, next, hthread, hserve⟩
  · cases h

/-- The sender's row is locked while no row is. -/
def locksAlone (p : System) : Label RequestId Request Choice Disturbance → Bool
  | .resume t _ =>
    match p.threads t with
    | some (.transfer _ command, .call (.selectAccountForUpdate id) _) =>
      id ≠ command.fromAccountId || p.shared.rowLocks.isEmpty
    | _ => true
  | _ => true

theorem orderKept_of_locksAlone {p : System} {l : Label RequestId Request Choice Disturbance}
    (h : locksAlone p l = true) : OrderKept p l := by
  unfold OrderKept
  split
  · intro draws command next hthread hne _ _ _ hback
    simp only [locksAlone, hthread] at h
    have hnone : p.shared.rowLocks = [] := by simpa using h
    rcases Relation.ReflTransGen.cases_head hback with heq | ⟨_, hedge, -⟩
    · exact hne heq.symm
    · obtain ⟨t', r, next', -, howned, -⟩ := hedge
      rw [hnone] at howned
      cases howned
  · trivial

namespace Sample

/-- The lock keys of both accounts expire. -/
def expiries : List (Label RequestId Request Choice Disturbance) :=
  [.disturb (.expireKey (RedisLockManager.lockKey (UUID.str 1))),
    .disturb (.expireKey (RedisLockManager.lockKey (UUID.str 2)))]

/-- Opposite transfers, after the keys of the first have expired. -/
def crossing : List (Label RequestId Request Choice Disturbance) :=
  openings "EUR" ++ served 2 (.transfer (draws 3) command) 5 ++ expiries ++
    served 3 (.transfer (draws 4) reply) 5

/-- Each has locked the row of its sender. -/
def crossed : System :=
  replay Server.host.step (Pool.empty (Server.quiet .empty)) crossing (by decide +kernel)

/-- Transfers in one direction, after the keys of the first have expired. -/
def following : List (Label RequestId Request Choice Disturbance) :=
  openings "EUR" ++ served 2 (.transfer (draws 3) command) 6 ++ expiries ++
    served 3 (.transfer (draws 4) { command with idempotencyKey := "again" }) 4

/-- The second waits for the first. -/
def followed : System :=
  replay (checked locksAlone Server.host.step) (Pool.empty (Server.quiet .empty)) following
    (by decide +kernel)

theorem followed_run :
    Run Server.host.step OrderKept (.empty (.quiet .empty)) following followed :=
  run_replay (fun _ _ => orderKept_of_locksAlone) _

end Sample

theorem row_locks_never_deadlock_sample :
    Run Server.host.step OrderKept (.empty (.quiet .empty)) Sample.following Sample.followed ∧
      WaitsRow Sample.followed 3 1 ∧ OwnsRow Sample.followed 1 2 ∧
      ¬ Deadlock (WaitsRow Sample.followed) (OwnsRow Sample.followed) :=
  ⟨Sample.followed_run, waitsRow_sound (by decide +kernel), by unfold OwnsRow; decide +kernel,
    row_locks_never_deadlock Sample.followed_run⟩

/-- Two opposite transfers whose lock keys have expired wait for each other. -/
theorem opposite_transfers_deadlock :
    SystemReachable Sample.crossed ∧ Deadlock (WaitsRow Sample.crossed) (OwnsRow Sample.crossed) := by
  refine ⟨reachable_replay _, 0, ![2, 3], ![2, 1], by decide, fun i => ?_⟩
  fin_cases i
  · exact ⟨waitsRow_sound (by decide +kernel), by unfold OwnsRow; decide +kernel⟩
  · exact ⟨waitsRow_sound (by decide +kernel), by unfold OwnsRow; decide +kernel⟩

end BankingTransactions
