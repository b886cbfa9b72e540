import BankingTransactions.RequestContracts
import BankingTransactions.Histories

/-!
# Concurrent requests refine a serial history

The invariant of the server ties the committed database to a serial history, and
the rows in the view of every request to the row locks. One operation of one
request keeps it, whatever the environment chooses: it may fail, lock keys may
expire and transactions may be aborted. So the commits of any interleaving form a
serial history.
-/
namespace BankingTransactions
open DecimalArithmetic InteractionPrograms ThreadPools

theorem TransferCommand.resolve_mono {command : TransferCommand} {draws : TransferDraws}
    {amount : Money} {find find' : AccountId → Option AccountRow}
    (h : ∀ id row, find id = some row → find' id = some row) {x}
    (hx : command.resolve draws amount find = .ok x) :
    command.resolve draws amount find' = .ok x := by
  obtain ⟨senderRow, receiverRow, S⟩ := x
  obtain ⟨hs, hr, hrest⟩ := TransferCommand.resolve_ok.mp hx
  exact TransferCommand.resolve_ok.mpr ⟨h _ _ hs, h _ _ hr, hrest⟩

/-- What a request commits depends only on the rows it has found. -/
theorem Request.flush_mono {r : Request} {find find' : AccountId → Option AccountRow}
    (h : ∀ id row, find id = some row → find' id = some row) {w : Flush}
    (hw : r.flush find = .ok w) : r.flush find' = .ok w := by
  cases r with
  | create draws command => exact Request.flush_create_ok.mpr (Request.flush_create_ok.mp hw)
  | transfer draws command =>
    obtain ⟨amount, senderRow, receiverRow, S, hmoney, hS, rfl⟩ := Request.flush_transfer_ok.mp hw
    exact Request.flush_transfer_ok.mpr
      ⟨amount, senderRow, receiverRow, S, hmoney, TransferCommand.resolve_mono h hS, rfl⟩

/-- A transfer that commits has found the rows of its two accounts. -/
theorem Request.flush_found {draws : TransferDraws} {command : TransferCommand}
    {find : AccountId → Option AccountRow} {w : Flush}
    (hw : (Request.transfer draws command).flush find = .ok w) :
    (∃ row, find command.fromAccountId = some row) ∧ ∃ row, find command.toAccountId = some row := by
  obtain ⟨amount, senderRow, receiverRow, S, -, hS, -⟩ := Request.flush_transfer_ok.mp hw
  obtain ⟨hs, hr, -⟩ := TransferCommand.resolve_ok.mp hS
  exact ⟨⟨_, hs⟩, ⟨_, hr⟩⟩

/-- The committed database is the end of a serial history, and every request that was
not aborted holds the locks of the rows in its view. -/
structure Consistent (s : Server) (views : RequestId → Option (Request × RowView)) : Prop where
  history : SerialHistory .empty s.history s.db
  locked : ∀ {t r v id row}, views t = some (r, v) → v.rows id = some row → t ∉ s.aborted →
    (id, t) ∈ s.rowLocks ∧ s.db.findAccount id = some row
  exclusive : ∀ {id t t'}, (id, t) ∈ s.rowLocks → (id, t') ∈ s.rowLocks → t = t'
  issued : ∀ {t r v}, views t = some (r, v) → r.newId ∈ s.issued
  distinct : ∀ {t t' r r' v v'}, views t = some (r, v) → views t' = some (r', v') →
    r.newId = r'.newId → t = t'
  unused : ∀ {t r v}, views t = some (r, v) → v.attempted = false →
    s.db.findAccount r.newId = none ∧ s.db.findTransaction r.newId = none
  ids : ∀ {id}, id ∉ s.issued → s.db.findAccount id = none ∧ s.db.findTransaction id = none

namespace Consistent

variable {s s' : Server} {views : RequestId → Option (Request × RowView)} {t : RequestId}
  {r : Request} {v w : RowView}

theorem whole (h : Consistent s views) : s.db.Whole := h.history.whole Database.whole_empty

theorem quiet : Consistent (.quiet .empty) fun _ => none where
  history := .nil
  locked h := nomatch h
  exclusive h := nomatch h
  issued h := nomatch h
  distinct h := nomatch h
  unused h := nomatch h
  ids _ := ⟨rfl, rfl⟩

/-- The invariant reads only these parts of the server. -/
theorem congr (h : Consistent s views) (hdb : s'.db = s.db) (hrows : s'.rowLocks = s.rowLocks)
    (haborted : s'.aborted = s.aborted) (hissued : s'.issued = s.issued)
    (hhistory : s'.history = s.history) : Consistent s' views where
  history := by rw [hdb, hhistory]; exact h.history
  locked := by rw [hdb, hrows, haborted]; exact h.locked
  exclusive := by rw [hrows]; exact h.exclusive
  issued := by rw [hissued]; exact h.issued
  distinct := h.distinct
  unused := by rw [hdb]; exact h.unused
  ids := by rw [hdb, hissued]; exact h.ids

/-- A request changes its view: the rows in it stay locked, the attempt is not forgotten. -/
theorem view (h : Consistent s views) (ht : views t = some (r, v))
    (hrows : ∀ {id row}, w.rows id = some row → t ∉ s.aborted →
      (id, t) ∈ s.rowLocks ∧ s.db.findAccount id = some row)
    (hattempted : w.attempted = false → v.attempted = false) :
    Consistent s (Function.update views t (some (r, w))) where
  history := h.history
  locked {t' r' u id row} hview hrow hab := by
    obtain ⟨rfl, hx⟩ | ⟨-, hview⟩ := update_eq_some hview
    · cases hx
      exact hrows hrow hab
    · exact h.locked hview hrow hab
  exclusive := h.exclusive
  issued {t' r' u} hview := by
    obtain ⟨rfl, hx⟩ | ⟨-, hview⟩ := update_eq_some hview
    · cases hx
      exact h.issued ht
    · exact h.issued hview
  distinct {t₁ t₂ r₁ r₂ v₁ v₂} h₁ h₂ hid := by
    rcases update_eq_some h₁ with ⟨ht₁, hx⟩ | ⟨-, h₁'⟩ <;>
      rcases update_eq_some h₂ with ⟨ht₂, hy⟩ | ⟨-, h₂'⟩
    · exact ht₁.trans ht₂.symm
    · cases hx
      exact ht₁.trans (h.distinct ht h₂' hid)
    · cases hy
      exact (h.distinct h₁' ht hid).trans ht₂.symm
    · exact h.distinct h₁' h₂' hid
  unused {t' r' u} hview hunused := by
    obtain ⟨rfl, hx⟩ | ⟨-, hview⟩ := update_eq_some hview
    · cases hx
      exact h.unused ht (hattempted hunused)
    · exact h.unused hview hunused
  ids := h.ids

/-- The transaction of a request that relies on no row may end. -/
theorem release (h : Consistent s views) (ht : views t = some (r, v))
    (hrows : v.rows = fun _ => none) : Consistent (s.release t) views where
  history := h.history
  locked {t' r' w id row} hview hrow hab := by
    have hne : t' ≠ t := by
      rintro rfl
      rw [ht] at hview
      cases hview
      rw [hrows] at hrow
      cases hrow
    have hab' : t' ∉ s.aborted := fun hmem => hab (by simp [Server.release, hmem, hne])
    obtain ⟨hlock, hfind⟩ := h.locked hview hrow hab'
    exact ⟨by simp [Server.release, hlock, hne], hfind⟩
  exclusive hlock hlock' := h.exclusive (List.mem_filter.mp hlock).1 (List.mem_filter.mp hlock').1
  issued := h.issued
  distinct := h.distinct
  unused := h.unused
  ids := h.ids

/-- A request takes the lock of a row that no other request holds. -/
theorem lock (h : Consistent s views) {id : AccountId} (hfree : s.lockedByOther t id = false) :
    Consistent { s with rowLocks := (id, t) :: s.rowLocks } views where
  history := h.history
  locked hview hrow hab := by
    obtain ⟨hlock, hfind⟩ := h.locked hview hrow hab
    exact ⟨List.mem_cons_of_mem _ hlock, hfind⟩
  exclusive {id' t₁ t₂} h₁ h₂ := by
    have hother : ∀ t', (id, t') ∈ s.rowLocks → t' = t := by
      intro t' hlock
      by_contra hne
      have := List.any_eq_false.mp hfree _ hlock
      simp [hne] at this
    rcases List.mem_cons.mp h₁ with h₁ | h₁ <;> rcases List.mem_cons.mp h₂ with h₂ | h₂
    · cases h₁
      cases h₂
      rfl
    · cases h₁
      exact (hother _ h₂).symm
    · cases h₂
      exact hother _ h₁
    · exact h.exclusive h₁ h₂
  issued := h.issued
  distinct := h.distinct
  unused := h.unused
  ids := h.ids

/-- A successful commit extends the history by a legal commit. -/
theorem commit (h : Consistent s views) (ht : views t = some (r, v)) (hab : t ∉ s.aborted)
    {w : Flush} (hw : r.flush v.rows = .ok w) {db : Database} (hdb : s.db.flush w = .ok db) :
    Consistent { s.release t with db := db, history := s.history ++ [⟨t, r, s.db, w, db⟩] }
      (Function.update views t (some (r, { v.ended with attempted := true }))) := by
  have hlegal : Commit.Legal ⟨t, r, s.db, w, db⟩ :=
    ⟨Request.flush_mono (fun id row hrow => (h.locked ht hrow hab).2) hw, hdb⟩
  refine
    { history := .snoc h.history hlegal
      locked := fun {t' r' w' id row} hview hrow hab' => ?_
      exclusive := fun hlock hlock' =>
        h.exclusive (List.mem_filter.mp hlock).1 (List.mem_filter.mp hlock').1
      issued := fun {t' r' w'} hview => ?_
      distinct := (h.view ht (w := { v.ended with attempted := true }) nofun nofun).distinct
      unused := fun {t' r' w'} hview hunused => ?_
      ids := fun {id} hid => ?_ }
  · obtain ⟨rfl, hx⟩ | ⟨hne, hview⟩ := update_eq_some hview
    · cases hx
      cases hrow
    · have hab'' : t' ∉ s.aborted := fun hmem => hab' (by simp [Server.release, hmem, hne])
      obtain ⟨hlock, hfind⟩ := h.locked hview hrow hab''
      refine ⟨by simp [Server.release, hlock, hne], hlegal.frame h.whole hfind ?_⟩
      -- the two rows that change are locked by `t`, so `row` is neither
      rintro draws command rfl
      obtain ⟨⟨from', hfrom⟩, ⟨to', hto⟩⟩ := Request.flush_found hw
      constructor
      · rintro rfl
        exact hne (h.exclusive hlock (h.locked ht hfrom hab).1)
      · rintro rfl
        exact hne (h.exclusive hlock (h.locked ht hto hab).1)
  · obtain ⟨rfl, hx⟩ | ⟨-, hview⟩ := update_eq_some hview
    · cases hx
      exact h.issued ht
    · exact h.issued hview
  · obtain ⟨rfl, hx⟩ | ⟨hne, hview⟩ := update_eq_some hview
    · cases hx
      cases hunused
    · obtain ⟨haccount, htransaction⟩ := h.unused hview hunused
      have hids := hlegal.ids h.whole r'.newId fun hid => hne (h.distinct hview ht hid)
      exact ⟨hids.1 haccount, hids.2 htransaction⟩
  · obtain ⟨haccount, htransaction⟩ := h.ids hid
    have hids := hlegal.ids h.whole id fun heq => hid (heq ▸ h.issued ht)
    exact ⟨hids.1 haccount, hids.2 htransaction⟩

end Consistent

/-! ## One operation -/

/-- The view of a request that was told that an operation failed. -/
def RowView.failed (v : RowView) : IoOp → RowView
  | .commit _ => { v.ended with attempted := true }
  | .rollback => v.ended
  | .close => v.ended
  | _ => v

theorem demand_error {r : Request} {v : RowView} {o : IoOp} {Q : o.Res → RowView → Prop}
    (h : (rowContract r).demand v o Q) (e : Exn) : Q (.error e) (v.failed o) := by
  cases o with
  | selectAccount id => exact h.1 e
  | selectAccountForUpdate id => exact h.1 e
  | selectTransaction id => exact h.1 e
  | commit w => exact h.2.2 (.error e)
  | selectTransactionByKey key => exact h (.error e)
  | rollback => exact h (.error e)
  | close => exact h (.error e)
  | acquireKey lockKey => exact h (.error e)
  | deleteKey lockKey => exact h (.error e)
  | publishMany events => exact h (.error e)

namespace Consistent

variable {s s' : Server} {views : RequestId → Option (Request × RowView)} {t : RequestId}
  {r : Request} {v : RowView} {o : IoOp} {res : o.Res} {Q : o.Res → RowView → Prop}

theorem unchanged (h : Consistent s views) (ht : views t = some (r, v)) :
    Consistent s (Function.update views t (some (r, v))) :=
  h.view ht (fun hrow hab => h.locked ht hrow hab) id

theorem ended (h : Consistent s views) (ht : views t = some (r, v)) :
    Consistent s (Function.update views t (some (r, v.ended))) :=
  h.view ht nofun id

theorem failed (h : Consistent s views) (ht : views t = some (r, v)) (o : IoOp) :
    Consistent s (Function.update views t (some (r, v.failed o))) := by
  cases o with
  | commit w => exact h.view ht nofun nofun
  | rollback => exact h.ended ht
  | close => exact h.ended ht
  | _ => exact h.unchanged ht

theorem released (h : Consistent s views) (ht : views t = some (r, v)) :
    Consistent (s.release t) (Function.update views t (some (r, v.ended))) :=
  (h.ended ht).release (Function.update_self ..) rfl

/-- Only a request that has attempted to commit can find a row with its new id. -/
theorem attempted_of_account (h : Consistent s views) (ht : views t = some (r, v))
    {row : AccountRow} (hfind : s.db.findAccount r.newId = some row) : v.attempted = true := by
  by_contra hunused
  rw [Bool.not_eq_true] at hunused
  rw [(h.unused ht hunused).1] at hfind
  cases hfind

theorem attempted_of_transaction (h : Consistent s views) (ht : views t = some (r, v))
    {row : TransactionRow} (hfind : s.db.findTransaction r.newId = some row) :
    v.attempted = true := by
  by_contra hunused
  rw [Bool.not_eq_true] at hunused
  rw [(h.unused ht hunused).2] at hfind
  cases hfind

/-- An operation that is performed keeps the invariant, whether its response arrives or not. -/
theorem serve (h : Consistent s views) (ht : views t = some (r, v))
    (hserve : Server.serve t r o s = some (res, s')) (hd : (rowContract r).demand v o Q) :
    (∃ v', Q res v' ∧ Consistent s' (Function.update views t (some (r, v')))) ∧
      Consistent s' (Function.update views t (some (r, v.failed o))) := by
  cases o with
  | selectAccount id =>
    simp only [Server.serve] at hserve
    split_ifs at hserve with hab
    · cases hserve
      exact ⟨⟨v, hd.1 _, h.unchanged ht⟩, h.unchanged ht⟩
    · cases hserve
      refine ⟨⟨v, ?_, h.unchanged ht⟩, h.unchanged ht⟩
      cases hfind : s.db.findAccount id with
      | none => exact hd.2.1
      | some row =>
        refine hd.2.2 (fun hid => ?_) row
        rw [hid] at hfind
        exact h.attempted_of_account ht hfind
  | selectTransaction id =>
    simp only [Server.serve] at hserve
    split_ifs at hserve with hab
    · cases hserve
      exact ⟨⟨v, hd.1 _, h.unchanged ht⟩, h.unchanged ht⟩
    · cases hserve
      refine ⟨⟨v, ?_, h.unchanged ht⟩, h.unchanged ht⟩
      cases hfind : s.db.findTransaction id with
      | none => exact hd.2.1
      | some row =>
        refine hd.2.2 (fun hid => ?_) row
        rw [hid] at hfind
        exact h.attempted_of_transaction ht hfind
  | selectAccountForUpdate id =>
    by_cases hab : t ∈ s.aborted
    · simp only [Server.serve, if_pos hab] at hserve
      cases hserve
      exact ⟨⟨v, hd.1 _, h.unchanged ht⟩, h.unchanged ht⟩
    simp only [Server.serve, if_neg hab] at hserve
    cases hfind : s.db.findAccount id with
    | none =>
      simp only [hfind] at hserve
      cases hserve
      exact ⟨⟨v, hd.2.1, h.unchanged ht⟩, h.unchanged ht⟩
    | some row =>
      simp only [hfind] at hserve
      split_ifs at hserve with hfree
      cases hserve
      obtain ⟨-, rfl⟩ := Database.findAccount_eq_some.mp hfind
      have hlock := h.lock (t := t) (by simpa using hfree)
      refine ⟨⟨v.see row, hd.2.2 row rfl fun seen hseen => ?_, hlock.view ht ?_ id⟩,
        hlock.unchanged ht⟩
      · have hseen' := (h.locked ht hseen hab).2
        rw [hfind] at hseen'
        exact (Option.some.inj hseen').symm
      · intro id row' hrow _
        by_cases hid : id = row.id
        · subst hid
          rw [RowView.see_rows, Function.update_self] at hrow
          obtain rfl := Option.some.inj hrow
          exact ⟨List.mem_cons_self, hfind⟩
        · rw [RowView.see_rows, Function.update_of_ne hid] at hrow
          exact hlock.locked ht hrow hab
  | selectTransactionByKey key =>
    simp only [Server.serve] at hserve
    split_ifs at hserve with hab <;> cases hserve <;>
      exact ⟨⟨v, hd _, h.unchanged ht⟩, h.unchanged ht⟩
  | commit w =>
    obtain ⟨hattempted, hw, hQ⟩ := hd
    simp only [Server.serve] at hserve
    split_ifs at hserve with hab
    · cases hserve
      exact ⟨⟨_, hQ _, h.failed ht (.commit w)⟩, h.failed ht (.commit w)⟩
    · split at hserve
      · cases hserve
        exact ⟨⟨_, hQ _, h.failed ht (.commit w)⟩, h.failed ht (.commit w)⟩
      · rename_i db hdb
        cases hserve
        exact ⟨⟨_, hQ _, h.commit ht hab hw hdb⟩, h.commit ht hab hw hdb⟩
  | rollback =>
    cases hserve
    exact ⟨⟨_, hd _, h.released ht⟩, h.released ht⟩
  | close =>
    cases hserve
    exact ⟨⟨_, hd _, h.released ht⟩, h.released ht⟩
  | acquireKey lockKey =>
    simp only [Server.serve] at hserve
    split_ifs at hserve with hheld
    cases hserve
    have hkeep : Consistent { s with lockKeys := (lockKey, t) :: s.lockKeys } _ :=
      (h.unchanged ht).congr rfl rfl rfl rfl rfl
    exact ⟨⟨v, hd _, hkeep⟩, hkeep⟩
  | deleteKey lockKey =>
    cases hserve
    have hkeep :
        Consistent { s with lockKeys := s.lockKeys.filter fun l => l.1 ≠ lockKey } _ :=
      (h.unchanged ht).congr rfl rfl rfl rfl rfl
    exact ⟨⟨v, hd _, hkeep⟩, hkeep⟩
  | publishMany events =>
    cases hserve
    have hkeep : Consistent { s with published := s.published ++ events } _ :=
      (h.unchanged ht).congr rfl rfl rfl rfl rfl
    exact ⟨⟨v, hd _, hkeep⟩, hkeep⟩

theorem answer {choice : Choice} (h : Consistent s views) (ht : views t = some (r, v))
    (hanswer : Server.answer t r choice o s = some (res, s'))
    (hd : (rowContract r).demand v o Q) :
    ∃ v', Q res v' ∧ Consistent s' (Function.update views t (some (r, v'))) := by
  cases choice with
  | proceed => exact (h.serve ht hanswer hd).1
  | timeout =>
    cases o with
    | acquireKey lockKey =>
      simp only [Server.answer] at hanswer
      split_ifs at hanswer
      cases hanswer
      exact ⟨v, hd _, h.unchanged ht⟩
    | _ => cases hanswer
  | fault e =>
    cases hanswer
    exact ⟨_, demand_error hd e, h.failed ht o⟩
  | faultAfter e =>
    simp only [Server.answer, Option.map_eq_some_iff] at hanswer
    obtain ⟨⟨res', s''⟩, hserve, hres⟩ := hanswer
    cases hres
    exact ⟨_, demand_error hd e, (h.serve ht hserve hd).2⟩

theorem accept (h : Consistent s views) (ht : views t = none)
    (haccept : Server.accept t r s = some s') :
    Consistent s' (Function.update views t (some (r, .fresh))) := by
  simp only [Server.accept] at haccept
  split_ifs at haccept with hnew
  cases haccept
  exact
    { history := h.history
      exclusive := h.exclusive
      locked := fun {t' r' w id row} hview hrow hab => by
        obtain ⟨rfl, hx⟩ | ⟨-, hview⟩ := update_eq_some hview
        · cases hx
          cases hrow
        · exact h.locked hview hrow hab
      issued := fun {t' r' w} hview => by
        obtain ⟨rfl, hx⟩ | ⟨-, hview⟩ := update_eq_some hview
        · cases hx
          exact List.mem_cons_self
        · exact List.mem_cons_of_mem _ (h.issued hview)
      distinct := fun {t₁ t₂ r₁ r₂ v₁ v₂} h₁ h₂ hid => by
        rcases update_eq_some h₁ with ⟨ht₁, hx⟩ | ⟨-, h₁'⟩ <;>
          rcases update_eq_some h₂ with ⟨ht₂, hy⟩ | ⟨-, h₂'⟩
        · exact ht₁.trans ht₂.symm
        · cases hx
          exact absurd (hid ▸ h.issued h₂') hnew
        · cases hy
          exact absurd (hid ▸ h.issued h₁') hnew
        · exact h.distinct h₁' h₂' hid
      unused := fun {t' r' w} hview hunused => by
        obtain ⟨rfl, hx⟩ | ⟨-, hview⟩ := update_eq_some hview
        · cases hx
          exact h.ids hnew
        · exact h.unused hview hunused
      ids := fun {id} hid => h.ids fun hmem => hid (List.mem_cons_of_mem _ hmem) }

theorem disturb {d : Disturbance} (h : Consistent s views)
    (hdisturb : Server.disturb d s = some s') : Consistent s' views := by
  cases d with
  | expireKey lockKey =>
    cases hdisturb
    exact h.congr rfl rfl rfl rfl rfl
  | abort t =>
    cases hdisturb
    exact
      { history := h.history
        locked := fun {t' r' w id row} hview hrow hab => by
          obtain ⟨hne, hab'⟩ := not_or.mp (mt List.mem_cons.mpr hab)
          obtain ⟨hlock, hfind⟩ := h.locked hview hrow hab'
          exact ⟨List.mem_filter.mpr ⟨hlock, by simpa using hne⟩, hfind⟩
        exclusive := fun hlock hlock' =>
          h.exclusive (List.mem_filter.mp hlock).1 (List.mem_filter.mp hlock').1
        issued := h.issued
        distinct := h.distinct
        unused := h.unused
        ids := h.ids }

end Consistent

/-! ## Any interleaving -/

/-- The requests keep to their contracts, and single operations keep the invariant. -/
def rowDiscipline : Discipline Server.host .any RowView where
  contract := rowContract
  post _ _ _ := True
  inv := Consistent
  accept h ht _ haccept := ⟨.fresh, keeps_program _, h.accept ht haccept⟩
  answer h ht _ hanswer hd := h.answer ht hanswer hd
  disturb h _ hdisturb := h.disturb hdisturb

theorem SystemReachable.tracked {p : System} (h : SystemReachable p) :
    ∃ views, Consistent p.shared views ∧ rowDiscipline.Tracks p.threads views := by
  obtain ⟨ls, hrun⟩ := h
  exact rowDiscipline.sound Consistent.quiet (hrun.mono fun p l _ => Policy.any_ok p l)

/-- What a request notes by its own contract is in its postcondition when it has ended. -/
theorem ended_noted {N : Type} {note : N → (o : IoOp) → o.Res → N} {n₀ : N}
    {post : Request → Outcome → RowView × N → Prop}
    (hprogram : ∀ r : Request, r.program.wp ((rowContract r).noting note) (post r) (.fresh, n₀))
    {ls : List (Label RequestId Request Choice Disturbance)} {p : System} (hrun : SystemRun ls p)
    {t : RequestId} {r : Request} {out : Outcome} (hend : p.threads t = some (r, .ret out)) :
    ∃ v, post r out
      (v, Server.host.notes note (Pool.empty (Server.quiet .empty)) (fun _ => n₀) ls t) := by
  have hstart : rowDiscipline.StartsNoted note post n₀ :=
    fun hinv ht _ haccept => ⟨.fresh, hprogram _, hinv.accept ht haccept⟩
  obtain ⟨vs, -, htracks⟩ := rowDiscipline.sound_noted hstart Consistent.quiet
    (hrun.mono fun p l _ => Policy.any_ok p l)
  have ht := htracks t
  rw [hend] at ht
  obtain ⟨v, -, hpost⟩ := ht
  exact ⟨v, hpost⟩

theorem SystemReachable.consistent {p : System} (h : SystemReachable p) :
    ∃ views, Consistent p.shared views := by
  obtain ⟨views, hinv, -⟩ := h.tracked
  exact ⟨views, hinv⟩

/-- Whatever happened, the committed database is the end of a serial history. -/
theorem SystemReachable.serial {p : System} (h : SystemReachable p) :
    SerialHistory .empty p.shared.history p.shared.db := by
  obtain ⟨views, hinv⟩ := h.consistent
  exact hinv.history

/-- An identifier that was not issued is not in use. -/
theorem SystemReachable.unused {p : System} (h : SystemReachable p) {id : UUID}
    (hid : id ∉ p.shared.issued) :
    p.shared.db.findAccount id = none ∧ p.shared.db.findTransaction id = none := by
  obtain ⟨views, hinv⟩ := h.consistent
  exact hinv.ids hid

theorem SystemReachable.whole {p : System} (h : SystemReachable p) : p.shared.db.Whole :=
  h.serial.whole Database.whole_empty

theorem SystemReachable.legal {p : System} (h : SystemReachable p) {c : Commit}
    (hc : c ∈ p.shared.history) : c.Legal ∧ c.before.Whole :=
  h.serial.legal Database.whole_empty c hc

end BankingTransactions
