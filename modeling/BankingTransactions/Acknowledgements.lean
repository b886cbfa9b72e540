import BankingTransactions.AccessControl
import BankingTransactions.AccountTable
import BankingTransactions.CommittedTransfers
import BankingTransactions.Reconciliation
import BankingTransactions.RequestReports
import BankingTransactions.Retries

/-!
# What clients and subscribers are told is true, and stays true

The reports of the requests are tied to the committed database: a row that was found is
stored, and a commit that was confirmed is in the history. One answer to one operation keeps
this, whatever the environment chooses. So a caller that gets a transaction back is told of a
committed row, which every later lookup returns unchanged, and the bus carries the events of
completed transfers only, those of one transfer at most once.
-/
namespace BankingTransactions
open DecimalArithmetic InteractionPrograms ThreadPools

/-- The events of the transaction, when the request completes a transfer on these rows. -/
def Request.announcements (find : AccountId → Option AccountRow) : Request → List DomainEvent
  | .create _ _ => []
  | .transfer draws command =>
    match command.money with
    | .error _ => []
    | .ok amount =>
      match command.resolve draws amount find with
      | .error _ => []
      | .ok (_, _, S) => S.published

def Commit.announcements (c : Commit) : List DomainEvent :=
  c.request.announcements c.before.findAccount

namespace Commit

/-- A settlement in which nothing was raised is stored as a completed transfer. -/
structure Completed (c : Commit) (draws : TransferDraws) (command : TransferCommand)
    (amount : Money) (stored : Numeric) (tx : Transaction) : Prop where
  cents : stored.IsCents amount.cents
  initiated : Transaction.initiate draws.tx command.fromAccountId command.toAccountId amount
    command.idempotencyKey = .ok tx
  transactions : c.after.transactions =
    c.before.transactions ++ [command.completedRow draws amount stored]
  announcements : c.announcements = (draws.completedTx tx).domainEvents

theorem settle_tx_completed {draws : TransferDraws} {amount : Money} {a b : Account}
    {tx : Transaction} (h : (draws.settle amount a b tx).raised = none) :
    (draws.settle amount a b tx).tx = draws.completedTx tx := by
  obtain ⟨-, htx⟩ | ⟨e, he, -⟩ := draws.settle_tx_cases amount a b tx
  · exact htx
  · rw [h] at he
    cases he

theorem Legal.completed {c : Commit} (h : c.Legal) {draws : TransferDraws}
    {command : TransferCommand} (hrequest : c.request = .transfer draws command) {S : Settlement}
    (hS : command.Settles draws c.written S) :
    ∃ amount stored tx, c.Completed draws command amount stored tx ∧
      S.tx = draws.completedTx tx := by
  obtain ⟨amount, sender, receiver, stored, a, b, tx, moved, hfinds, ha, hb, htx, hw, -, -,
    htransactions⟩ := finds_of_legal h hrequest
  obtain ⟨amount', find, senderRow', receiverRow', hmoney', hresolve', hraised, hw'⟩ := hS
  obtain rfl := Except.ok.inj (hfinds.money.symm.trans hmoney')
  have hresolve : command.resolve draws amount c.before.findAccount =
      .ok (sender, receiver, draws.settle amount a b tx) :=
    TransferCommand.resolve_ok.mpr
      ⟨hfinds.findsSender, hfinds.findsReceiver, a, b, tx, ha, hb, htx, rfl⟩
  obtain ⟨-, -, a', b', tx', -, -, htx', rfl⟩ := TransferCommand.resolve_ok.mp hresolve'
  obtain rfl := Except.ok.inj (htx.symm.trans htx')
  have hraised' : (draws.settle amount a b tx).raised = none := by
    have hdirty := congrArg Flush.dirtyAccounts (hw.symm.trans hw')
    cases hcase : (draws.settle amount a b tx).raised with
    | none => rfl
    | some e => simp [Settlement.flush, hcase, hraised] at hdirty
  refine ⟨amount, stored, tx, ⟨hfinds.cents, htx, ?_, ?_⟩, settle_tx_completed hraised⟩
  · rw [htransactions, settle_tx_completed hraised', completed_row stored htx]
  · simp only [Commit.announcements, hrequest, Request.announcements, hfinds.money, hresolve,
      Settlement.published, hraised', settle_tx_completed hraised']

/-- A commit that has something to announce completes a transfer. -/
theorem Legal.completed_of_announcements {c : Commit} (h : c.Legal) (hne : c.announcements ≠ []) :
    ∃ draws command amount stored tx, c.request = .transfer draws command ∧
      c.Completed draws command amount stored tx := by
  cases hrequest : c.request with
  | create draws command =>
    rw [Commit.announcements, hrequest] at hne
    exact absurd rfl hne
  | transfer draws command =>
    obtain ⟨amount, sender, receiver, stored, a, b, tx, moved, hfinds, ha, hb, htx, hw, -⟩ :=
      finds_of_legal h hrequest
    have hresolve : command.resolve draws amount c.before.findAccount =
        .ok (sender, receiver, draws.settle amount a b tx) :=
      TransferCommand.resolve_ok.mpr
        ⟨hfinds.findsSender, hfinds.findsReceiver, a, b, tx, ha, hb, htx, rfl⟩
    simp only [Commit.announcements, hrequest, Request.announcements, hfinds.money, hresolve,
      Settlement.published] at hne
    have hraised : (draws.settle amount a b tx).raised = none := by
      cases hcase : (draws.settle amount a b tx).raised with
      | none => rfl
      | some e => simp [hcase] at hne
    obtain ⟨amount', stored', tx', hcompleted, -⟩ := h.completed hrequest
      ⟨amount, _, sender, receiver, hfinds.money, hresolve, hraised, hw⟩
    exact ⟨draws, command, amount', stored', tx', rfl, hcompleted⟩

end Commit

/-! ## One answer -/

namespace Server

variable {s s' : Server} {t : RequestId} {r : Request} {choice : Choice} {o : IoOp} {res : o.Res}

/-- Only a COMMIT changes the database, whatever the environment chooses. -/
theorem answer_keeps (h : answer t r choice o s = some (res, s')) (ho : ∀ w, o ≠ .commit w) :
    s'.db = s.db ∧ s'.history = s.history := by
  cases choice with
  | proceed => exact serve_keeps h ho
  | timeout =>
    cases o with
    | acquireKey lockKey =>
      simp only [answer] at h
      split_ifs at h
      cases h
      exact ⟨rfl, rfl⟩
    | _ => cases h
  | fault e =>
    cases h
    exact ⟨rfl, rfl⟩
  | faultAfter e =>
    simp only [answer, Option.map_eq_some_iff] at h
    obtain ⟨⟨res', s''⟩, hserve, hres⟩ := h
    cases hres
    exact serve_keeps hserve ho

/-- A commit that was made is not forgotten. -/
theorem mem_history_of_answer (h : answer t r choice o s = some (res, s')) {c : Commit}
    (hc : c ∈ s.history) : c ∈ s'.history := by
  rcases answer_grows h with ⟨-, hhistory⟩ | ⟨_, -, -, -, -, hhistory⟩
  · rw [hhistory]
    exact hc
  · rw [hhistory]
    exact List.mem_append_left _ hc

/-- The history grows by a COMMIT only. -/
theorem commit_of_answer (h : answer t r choice o s = some (res, s')) {c : Commit}
    (hnew : s'.history = s.history ++ [c]) : ∃ w, o = .commit w := by
  by_contra ho
  have hsame := (answer_keeps h fun w hw => ho ⟨w, hw⟩).2
  simp [hsame] at hnew

theorem serve_published (h : serve t r o s = some (res, s')) :
    s'.published = s.published ∨
      ∃ events, o = .publishMany events ∧ s'.published = s.published ++ events := by
  cases o with
  | publishMany events =>
    cases h
    exact .inr ⟨events, rfl, rfl⟩
  | selectAccountForUpdate id =>
    left
    simp only [serve] at h
    split_ifs at h
    · cases h
      rfl
    · split at h <;> cases h
      rfl
    · split at h <;> cases h <;> rfl
  | commit w =>
    left
    simp only [serve] at h
    split_ifs at h
    · cases h
      rfl
    · split at h <;> cases h <;> rfl
  | rollback => cases h; exact .inl rfl
  | close => cases h; exact .inl rfl
  | deleteKey lockKey => cases h; exact .inl rfl
  | _ =>
    left
    simp only [serve] at h
    split_ifs at h <;> cases h <;> rfl

theorem answer_published (h : answer t r choice o s = some (res, s')) :
    s'.published = s.published ∨
      ∃ events, o = .publishMany events ∧ s'.published = s.published ++ events := by
  cases choice with
  | proceed => exact serve_published h
  | timeout =>
    cases o with
    | acquireKey lockKey =>
      simp only [answer] at h
      split_ifs at h
      cases h
      exact .inl rfl
    | _ => cases h
  | fault e =>
    cases h
    exact .inl rfl
  | faultAfter e =>
    simp only [answer, Option.map_eq_some_iff] at h
    obtain ⟨⟨res', s''⟩, hserve, hres⟩ := h
    cases hres
    exact serve_published hserve

/-- What a lookup has found is stored. -/
theorem answer_found (h : answer t r choice o s = some (res, s')) {n : Report}
    {x : String × TransactionORM} (hx : x ∈ (n.note o res).found) :
    x ∈ n.found ∨ ∃ row, s.db.findByKey x.1 = some row ∧ x.2 = row.load := by
  cases o with
  | selectTransactionByKey key =>
    obtain e | _ | orm := (res : Except Exn (Option TransactionORM))
    · exact .inl hx
    · exact .inl hx
    · refine (List.mem_append.mp hx).imp id fun hx => ?_
      obtain rfl := List.mem_singleton.mp hx
      cases choice with
      | proceed =>
        simp only [answer, serve] at h
        split_ifs at h
        · cases h
        · obtain ⟨hres, -⟩ := Prod.mk.inj (Option.some.inj h)
          obtain ⟨row, hrow, hload⟩ := Option.map_eq_some_iff.mp (Except.ok.inj hres)
          exact ⟨row, hrow, hload.symm⟩
      | timeout => cases h
      | fault e => cases h
      | faultAfter e =>
        simp only [answer, Option.map_eq_some_iff] at h
        obtain ⟨_, -, hres⟩ := h
        cases hres
  | commit w =>
    obtain e | _ := (res : Except Exn Unit) <;> exact .inl hx
  | _ => exact .inl hx

/-- A commit that was confirmed is in the history. -/
theorem answer_committed (h : answer t r choice o s = some (res, s')) {n : Report} {w : Flush}
    (hw : w ∈ (n.note o res).committed) :
    w ∈ n.committed ∨ ∃ c ∈ s'.history, c.requestId = t ∧ c.request = r ∧ c.written = w := by
  cases o with
  | commit w' =>
    obtain e | _ := (res : Except Exn Unit)
    · exact .inl hw
    · refine (List.mem_append.mp hw).imp id fun hw => ?_
      obtain rfl := List.mem_singleton.mp hw
      cases choice with
      | proceed =>
        simp only [answer, serve] at h
        split_ifs at h
        · cases h
        · split at h
          · cases h
          · cases h
            exact ⟨_, List.mem_append_right _ (List.mem_singleton.mpr rfl), rfl, rfl, rfl⟩
      | timeout => cases h
      | fault e => cases h
      | faultAfter e =>
        simp only [answer, Option.map_eq_some_iff] at h
        obtain ⟨_, -, hres⟩ := h
        cases hres
  | selectTransactionByKey key =>
    obtain e | _ | orm := (res : Except Exn (Option TransactionORM)) <;> exact .inl hw
  | _ => exact .inl hw

end Server

/-- A request does not forget its attempt to commit. -/
theorem demand_attempted {r : Request} {v : RowView} {o : IoOp} {Q : o.Res → RowView → Prop}
    (h : (rowContract r).demand v o Q) :
    (rowContract r).demand v o fun res v' =>
      Q res v' ∧ (v.attempted = true ∨ (∃ w, o = .commit w) → v'.attempted = true) := by
  cases o with
  | commit w => exact ⟨h.1, h.2.1, fun res => ⟨h.2.2 res, fun _ => rfl⟩⟩
  | selectAccount id =>
    exact ⟨fun e => ⟨h.1 e, by simp⟩, ⟨h.2.1, by simp⟩, fun hid row => ⟨h.2.2 hid row, by simp⟩⟩
  | selectAccountForUpdate id =>
    exact ⟨fun e => ⟨h.1 e, by simp⟩, ⟨h.2.1, by simp⟩,
      fun row hid hseen => ⟨h.2.2 row hid hseen, by simp⟩⟩
  | selectTransaction id =>
    exact ⟨fun e => ⟨h.1 e, by simp⟩, ⟨h.2.1, by simp⟩, fun hid row => ⟨h.2.2 hid row, by simp⟩⟩
  | rollback => exact fun res => ⟨h res, by simp [RowView.ended]⟩
  | close => exact fun res => ⟨h res, by simp [RowView.ended]⟩
  | selectTransactionByKey key => exact fun res => ⟨h res, by simp⟩
  | acquireKey lockKey => exact fun res => ⟨h res, by simp⟩
  | deleteKey lockKey => exact fun res => ⟨h res, by simp⟩
  | publishMany events => exact fun res => ⟨h res, by simp⟩

/-- What is committed leaves the rows where they are. -/
theorem Consistent.transactions_of_grows {s s' : Server}
    {views : RequestId → Option (Request × RowView)} {t : RequestId} {r : Request}
    (h : Consistent s' views) (hgrows : s.Grows s' t r) :
    s.db.transactions <+: s'.db.transactions := by
  rcases hgrows with ⟨hdb, -⟩ | ⟨c, -, -, hbefore, hafter, hhistory⟩
  · rw [hdb]
  · obtain ⟨hlegal, hwhole⟩ := h.history.legal Database.whole_empty c (by simp [hhistory])
    rw [← hbefore, hafter]
    exact hlegal.keepsTransactions hwhole

/-! ## The invariant -/

/-- What the requests know of the rows, without their reports. -/
def rowViews (views : RequestId → Option (Request × RowView × Report)) (t : RequestId) :
    Option (Request × RowView) := (views t).map fun x => (x.1, x.2.1)

theorem rowViews_update (views : RequestId → Option (Request × RowView × Report)) (t : RequestId)
    (r : Request) (v : RowView) (n : Report) :
    rowViews (Function.update views t (some (r, v, n))) =
      Function.update (rowViews views) t (some (r, v)) := by
  funext t'
  by_cases ht : t' = t
  · subst ht
    simp [rowViews]
  · simp [rowViews, Function.update_of_ne ht]

/-- The reports are true of the server, every commit was made by the one request that it
names, and the bus has got the announcements of some commits, each at most once. -/
structure Backed (s : Server) (views : RequestId → Option (Request × RowView × Report)) : Prop where
  rows : Consistent s (rowViews views)
  found : ∀ {t r v n x}, views t = some (r, v, n) → x ∈ n.found →
    ∃ row, s.db.findByKey x.1 = some row ∧ x.2 = row.load
  committed : ∀ {t r v n w}, views t = some (r, v, n) → w ∈ n.committed →
    ∃ c ∈ s.history, c.requestId = t ∧ c.request = r ∧ c.written = w
  attempted : ∀ c ∈ s.history, ∃ v n, views c.requestId = some (c.request, v, n) ∧
    v.attempted = true
  once : (s.history.map (·.requestId)).Nodup
  published : ∃ cs : List Commit, (cs.map (·.requestId)).Nodup ∧
    (∀ c ∈ cs, c ∈ s.history ∧ c.announcements ≠ [] ∧
      ∀ {r v n}, views c.requestId = some (r, v, n) → n.announced = true) ∧
    s.published = cs.flatMap Commit.announcements

namespace Backed

variable {s s' : Server} {views : RequestId → Option (Request × RowView × Report)}
  {t : RequestId} {r : Request} {v : RowView} {n : Report} {o : IoOp} {res : o.Res}
  {Q : o.Res → RowView × Report → Prop}

theorem quiet : Backed (.quiet .empty) fun _ => none where
  rows := Consistent.quiet
  found h := by cases h
  committed h := by cases h
  attempted c hc := by cases hc
  once := List.nodup_nil
  published := by
    refine ⟨[], List.nodup_nil, fun c hc => ?_, rfl⟩
    cases hc

/-- The invariant reads only these parts of the server, besides the rows. -/
theorem congr (h : Backed s views) (hrows : Consistent s' (rowViews views)) (hdb : s'.db = s.db)
    (hhistory : s'.history = s.history) (hpublished : s'.published = s.published) :
    Backed s' views where
  rows := hrows
  found := by rw [hdb]; exact h.found
  committed := by rw [hhistory]; exact h.committed
  attempted := by rw [hhistory]; exact h.attempted
  once := by rw [hhistory]; exact h.once
  published := by rw [hhistory, hpublished]; exact h.published

theorem accept (h : Backed s views) (ht : views t = none)
    (haccept : Server.accept t r s = some s') :
    Backed s' (Function.update views t (some (r, .fresh, .start))) := by
  have hrows : Consistent s' (rowViews (Function.update views t (some (r, .fresh, .start)))) := by
    rw [rowViews_update]
    exact h.rows.accept (by simp [rowViews, ht]) haccept
  simp only [Server.accept] at haccept
  split_ifs at haccept
  cases haccept
  refine ⟨hrows, fun {t' r' v' n' x} hview hx => ?_, fun {t' r' v' n' w} hview hw => ?_,
    fun c hc => ?_, h.once, ?_⟩
  · obtain ⟨-, hy⟩ | ⟨-, hview⟩ := update_eq_some hview
    · cases hy
      cases hx
    · exact h.found hview hx
  · obtain ⟨-, hy⟩ | ⟨-, hview⟩ := update_eq_some hview
    · cases hy
      cases hw
    · exact h.committed hview hw
  · obtain ⟨v', n', hview, hattempted⟩ := h.attempted c hc
    have hne : c.requestId ≠ t := by
      rintro rfl
      rw [ht] at hview
      cases hview
    exact ⟨v', n', by rw [Function.update_of_ne hne, hview], hattempted⟩
  · obtain ⟨cs, hnodup, hcs, hpublished⟩ := h.published
    refine ⟨cs, hnodup, fun c hc => ?_, hpublished⟩
    obtain ⟨hmem, hne, hannounced⟩ := hcs c hc
    refine ⟨hmem, hne, fun {r' v' n'} hview => ?_⟩
    obtain ⟨ht', -⟩ | ⟨-, hview⟩ := update_eq_some hview
    · obtain ⟨v', n', hview', -⟩ := h.attempted c hmem
      rw [ht', ht] at hview'
      cases hview'
    · exact hannounced hview

theorem disturb {d : Disturbance} (h : Backed s views)
    (hdisturb : Server.disturb d s = some s') : Backed s' views := by
  have hrows := h.rows.disturb hdisturb
  cases d <;> cases hdisturb <;> exact h.congr hrows rfl rfl rfl

/-! ### One answer to one operation -/

section Answer

variable {choice : Choice} {v' : RowView} (h : Backed s views) (ht : views t = some (r, v, n))
  (hanswer : Server.answer t r choice o s = some (res, s'))
include h ht hanswer

theorem found_answer (hinit : s.db.transactions <+: s'.db.transactions) {t' : RequestId}
    {r' : Request} {w' : RowView} {n' : Report} {x : String × TransactionORM}
    (hview : Function.update views t (some (r, v', n.note o res)) t' = some (r', w', n'))
    (hx : x ∈ n'.found) : ∃ row, s'.db.findByKey x.1 = some row ∧ x.2 = row.load := by
  have hbefore : ∃ row, s.db.findByKey x.1 = some row ∧ x.2 = row.load := by
    obtain ⟨rfl, hy⟩ | ⟨-, hview⟩ := update_eq_some hview
    · cases hy
      exact (Server.answer_found hanswer hx).elim (h.found ht) id
    · exact h.found hview hx
  obtain ⟨row, hrow, hload⟩ := hbefore
  exact ⟨row, Database.findByKey_of_prefix hinit hrow, hload⟩

theorem committed_answer {t' : RequestId} {r' : Request} {w' : RowView} {n' : Report} {w : Flush}
    (hview : Function.update views t (some (r, v', n.note o res)) t' = some (r', w', n'))
    (hw : w ∈ n'.committed) :
    ∃ c ∈ s'.history, c.requestId = t' ∧ c.request = r' ∧ c.written = w := by
  have hkept (hw : ∃ c ∈ s.history, c.requestId = t' ∧ c.request = r' ∧ c.written = w) :
      ∃ c ∈ s'.history, c.requestId = t' ∧ c.request = r' ∧ c.written = w := by
    obtain ⟨c, hc, hrest⟩ := hw
    exact ⟨c, Server.mem_history_of_answer hanswer hc, hrest⟩
  obtain ⟨rfl, hy⟩ | ⟨-, hview⟩ := update_eq_some hview
  · cases hy
    exact (Server.answer_committed hanswer hw).elim (fun hw => hkept (h.committed ht hw)) id
  · exact hkept (h.committed hview hw)

theorem attempted_answer
    (hattempted : v.attempted = true ∨ (∃ w, o = .commit w) → v'.attempted = true) {c : Commit}
    (hc : c ∈ s'.history) : ∃ w' n', Function.update views t (some (r, v', n.note o res))
      c.requestId = some (c.request, w', n') ∧ w'.attempted = true := by
  have hearlier (hc : c ∈ s.history) : ∃ w' n', Function.update views t
      (some (r, v', n.note o res)) c.requestId = some (c.request, w', n') ∧
        w'.attempted = true := by
    obtain ⟨w', n', hview, hattempted'⟩ := h.attempted c hc
    by_cases hct : c.requestId = t
    · rw [hct, ht] at hview
      cases hview
      exact ⟨v', n.note o res, by rw [hct, Function.update_self], hattempted (.inl hattempted')⟩
    · exact ⟨w', n', by rw [Function.update_of_ne hct, hview], hattempted'⟩
  rcases Server.answer_grows hanswer with ⟨-, hhistory⟩ | ⟨new, hid, hrequest, -, -, hhistory⟩
  · exact hearlier (hhistory ▸ hc)
  · have hcommit := Server.commit_of_answer hanswer hhistory
    rw [hhistory, List.mem_append, List.mem_singleton] at hc
    rcases hc with hc | rfl
    · exact hearlier hc
    · exact ⟨v', n.note o res, by rw [hid, hrequest, Function.update_self],
        hattempted (.inr hcommit)⟩

/-- A request commits once: it has not attempted to before. -/
theorem once_answer (hfirst : (∃ w, o = .commit w) → v.attempted = false) :
    (s'.history.map (·.requestId)).Nodup := by
  rcases Server.answer_grows hanswer with ⟨-, hhistory⟩ | ⟨new, hid, -, -, -, hhistory⟩
  · rw [hhistory]
    exact h.once
  · have hunattempted := hfirst (Server.commit_of_answer hanswer hhistory)
    rw [hhistory, List.map_append, List.map_singleton, ← List.concat_eq_append, List.nodup_concat]
    refine ⟨fun hmem => ?_, h.once⟩
    obtain ⟨c, hc, hct⟩ := List.mem_map.mp hmem
    obtain ⟨w', n', hview, hattempted⟩ := h.attempted c hc
    rw [hct, hid, ht] at hview
    cases hview
    rw [hunattempted] at hattempted
    cases hattempted

omit h in
/-- A commit that was announced stays so. -/
theorem announced_answer {c : Commit} (hc : c ∈ s.history) (hne : c.announcements ≠ [])
    (hannounced : ∀ {r v n}, views c.requestId = some (r, v, n) → n.announced = true) :
    c ∈ s'.history ∧ c.announcements ≠ [] ∧
      ∀ {r' w' n'}, Function.update views t (some (r, v', n.note o res)) c.requestId =
        some (r', w', n') → n'.announced = true := by
  refine ⟨Server.mem_history_of_answer hanswer hc, hne, fun {r' w' n'} hview => ?_⟩
  obtain ⟨hct, hy⟩ | ⟨-, hview⟩ := update_eq_some hview
  · cases hy
    exact Report.note_announced (hannounced (hct ▸ ht)) o res
  · exact hannounced hview

/-- Events are handed over once by a request, and they are what its commit announces. -/
theorem published_answer (hgrounds : n.Grounds r o) :
    ∃ cs : List Commit, (cs.map (·.requestId)).Nodup ∧
      (∀ c ∈ cs, c ∈ s'.history ∧ c.announcements ≠ [] ∧
        ∀ {r' w' n'}, Function.update views t (some (r, v', n.note o res)) c.requestId =
          some (r', w', n') → n'.announced = true) ∧
      s'.published = cs.flatMap Commit.announcements := by
  obtain ⟨cs, hnodup, hcs, hpublished⟩ := h.published
  have hkept : ∀ c ∈ cs, c ∈ s'.history ∧ c.announcements ≠ [] ∧
      ∀ {r' w' n'}, Function.update views t (some (r, v', n.note o res)) c.requestId =
        some (r', w', n') → n'.announced = true := by
    intro c hc
    obtain ⟨hmem, hne, hannounced⟩ := hcs c hc
    exact announced_answer ht hanswer hmem hne hannounced
  rcases Server.answer_published hanswer with hsame | ⟨events, rfl, hnew⟩
  · exact ⟨cs, hnodup, hkept, hsame.trans hpublished⟩
  obtain ⟨hfirst, draws, command, S, rfl, ⟨w, hw, hsettles⟩, rfl, hevents⟩ := hgrounds
  obtain ⟨c, hc, hid, hrequest, rfl⟩ := h.committed ht hw
  obtain ⟨hlegal, -⟩ := h.rows.history.legal Database.whole_empty c hc
  obtain ⟨amount, stored, tx, hcompleted, htx⟩ := hlegal.completed hrequest hsettles
  have hannounces : c.announcements = S.tx.domainEvents := by
    rw [hcompleted.announcements, htx]
  refine ⟨cs ++ [c], ?_, fun c' hc' => ?_, ?_⟩
  · rw [List.map_append, List.map_singleton, ← List.concat_eq_append, List.nodup_concat]
    refine ⟨fun hmem => ?_, hnodup⟩
    obtain ⟨c', hc', hct⟩ := List.mem_map.mp hmem
    have hannounced := (hcs c' hc').2.2 (hct.trans hid ▸ ht)
    rw [hfirst] at hannounced
    cases hannounced
  · rw [List.mem_append, List.mem_singleton] at hc'
    rcases hc' with hc' | rfl
    · exact hkept c' hc'
    · refine ⟨Server.mem_history_of_answer hanswer hc, hannounces ▸ hevents,
        fun {r' w' n'} hview => ?_⟩
      rw [hid, Function.update_self] at hview
      cases hview
      rfl
  · rw [hnew, hpublished, List.flatMap_append, List.flatMap_singleton, hannounces]

end Answer

/-- One answer to one operation keeps the invariant, whatever the environment chooses. -/
theorem answer {choice : Choice} (h : Backed s views) (ht : views t = some (r, v, n))
    (hanswer : Server.answer t r choice o s = some (res, s'))
    (hd : (reportContract r).demand (v, n) o Q) :
    ∃ v', Q res (v', n.note o res) ∧
      (v.attempted = true ∨ (∃ w, o = .commit w) → v'.attempted = true) ∧
      Backed s' (Function.update views t (some (r, v', n.note o res))) := by
  obtain ⟨hgrounds, hd⟩ := hd
  have hrow : rowViews views t = some (r, v) := by simp [rowViews, ht]
  obtain ⟨v', ⟨hQ, hattempted⟩, hrows⟩ := h.rows.answer hrow hanswer (demand_attempted hd)
  have hfirst : (∃ w, o = .commit w) → v.attempted = false := by
    rintro ⟨w, rfl⟩
    exact hd.1
  have hinit := hrows.transactions_of_grows (Server.answer_grows hanswer)
  refine ⟨v', hQ, hattempted, ?_⟩
  exact {
    rows := by
      rw [rowViews_update]
      exact hrows
    found := fun hview hx => h.found_answer ht hanswer hinit hview hx
    committed := fun hview hw => h.committed_answer ht hanswer hview hw
    attempted := fun c hc => h.attempted_answer ht hanswer hattempted hc
    once := h.once_answer ht hanswer hfirst
    published := h.published_answer ht hanswer hgrounds }

end Backed

/-- The requests keep to their contracts, and single answers keep the invariant. -/
def reportDiscipline : Discipline Server.host .any (RowView × Report) where
  contract := reportContract
  post r out v := ∀ response, out.1 = .ok response → v.2.Supports r response
  inv := Backed
  accept h ht _ haccept := ⟨(.fresh, .start), reports_program _, h.accept ht haccept⟩
  answer h ht _ hanswer hd := by
    obtain ⟨v', hQ, -, h'⟩ := h.answer ht hanswer hd
    exact ⟨_, hQ, h'⟩
  disturb h _ hdisturb := h.disturb hdisturb

theorem SystemReachable.backed {p : System} (h : SystemReachable p) :
    ∃ views, Backed p.shared views ∧ reportDiscipline.Tracks p.threads views := by
  obtain ⟨ls, hrun⟩ := h
  exact reportDiscipline.sound Backed.quiet (hrun.mono fun p l _ => Policy.any_ok p l)

/-! ## The bus -/

/-- What the bus is told of a completed transfer. -/
def TransactionRecord.story (row : TransactionRow) (amount : Decimal) : List EventBody :=
  [.transactionInitiated row.id row.fromAccountId row.toAccountId amount row.currency.value
      row.idempotencyKey,
    .transactionProcessing row.id row.fromAccountId row.toAccountId amount row.currency.value,
    .transactionCompleted row.id row.fromAccountId row.toAccountId amount row.currency.value]

/-- A commit announces the transfer that it completes. -/
theorem Commit.Completed.story {c : Commit} {draws : TransferDraws} {command : TransferCommand}
    {amount : Money} {stored : Numeric} {tx : Transaction}
    (h : c.Completed draws command amount stored tx) :
    c.announcements.map (·.body) =
      (command.completedRow draws amount stored).story amount.amount := by
  obtain ⟨-, -, rfl⟩ := Transaction.initiate_ok h.initiated
  rw [h.announcements, TransferDraws.completedTx_eq rfl, TransferDraws.processed_eq rfl]
  rfl

/-- Whatever fails and however the requests interleave, what the bus has got is put together
from the stories of completed transfers: each is that of a committed row, told in full and in
order, and no row has its story told twice. -/
theorem bus_sound {p : System} (h : SystemReachable p) :
    ∃ told : List (TransactionRow × List DomainEvent),
      (told.map fun x => x.1.id).Nodup ∧ p.shared.published = told.flatMap (·.2) ∧
      ∀ x ∈ told, x.1 ∈ p.shared.db.transactions ∧ x.1.status = .completed ∧
        ∃ amount : Money, x.1.amount.IsCents amount.cents ∧
          x.2.map (·.body) = x.1.story amount.amount := by
  obtain ⟨views, hbacked, -⟩ := h.backed
  obtain ⟨cs, hnodup, hcs, hpublished⟩ := hbacked.published
  have htold (c : Commit) (hc : c ∈ cs) : ∃ row ∈ p.shared.db.transactions,
      row.id = c.request.newId ∧ row.status = .completed ∧ ∃ amount : Money,
        row.amount.IsCents amount.cents ∧ c.announcements.map (·.body) = row.story amount.amount := by
    obtain ⟨hmem, hne, -⟩ := hcs c hc
    obtain ⟨draws, command, amount, stored, tx, hrequest, hcompleted⟩ :=
      (h.legal hmem).1.completed_of_announcements hne
    refine ⟨command.completedRow draws amount stored, ?_, ?_, rfl, amount, hcompleted.cents,
      hcompleted.story⟩
    · apply (h.serial.transactions_prefix Database.whole_empty hmem).subset
      rw [hcompleted.transactions]
      exact List.mem_append_right _ (List.mem_singleton.mpr rfl)
    · rw [hrequest]
      rfl
  have hids : (cs.map fun c => c.request.newId).Nodup := by
    refine List.Nodup.map_on (fun c hc c' hc' hid => ?_) (List.Nodup.of_map _ hnodup)
    obtain ⟨v, n, hview, -⟩ := hbacked.attempted c (hcs c hc).1
    obtain ⟨v', n', hview', -⟩ := hbacked.attempted c' (hcs c' hc').1
    have hrows : rowViews views c.requestId = some (c.request, v) := by simp [rowViews, hview]
    have hrows' : rowViews views c'.requestId = some (c'.request, v') := by
      simp [rowViews, hview']
    exact List.inj_on_of_nodup_map hnodup hc hc' (hbacked.rows.distinct hrows hrows' hid)
  choose row hrow hid hstatus hstory using htold
  refine ⟨cs.attach.map fun c => (row c.1 c.2, c.1.announcements), ?_, ?_, ?_⟩
  · simpa [List.map_map, Function.comp_def, hid] using hids
  · rw [hpublished, List.flatMap_map]
    conv_lhs => rw [← List.attach_map_subtype_val cs, List.flatMap_map]
  · intro x hx
    obtain ⟨c, -, rfl⟩ := List.mem_map.mp hx
    exact ⟨hrow c.1 c.2, hstatus c.1 c.2, hstory c.1 c.2⟩

theorem bus_sound_sample :
    ∃ told : List (TransactionRow × List DomainEvent),
      (told.map fun x => x.1.id).Nodup ∧
      Sample.transferred.shared.published = told.flatMap (·.2) ∧
      ∀ x ∈ told, x.1 ∈ Sample.transferred.shared.db.transactions ∧ x.1.status = .completed ∧
        ∃ amount : Money, x.1.amount.IsCents amount.cents ∧
          x.2.map (·.body) = x.1.story amount.amount :=
  bus_sound Sample.transferred_reachable

/-! ## The callers -/

/-- The table has a row that reads as this transaction. -/
def Database.Shows (db : Database) (dto : TransactionDTO) : Prop :=
  ∃ row tx, db.findTransaction dto.id = some row ∧ TransactionMapper.toDomain row.load = .ok tx ∧
    TransactionDTO.fromAggregate tx = dto

theorem Database.shows_of_mem {db : Database} {row : TransactionRow} (hrow : row ∈ db.transactions)
    {tx : Transaction} (htx : TransactionMapper.toDomain row.load = .ok tx) :
    db.Shows (TransactionDTO.fromAggregate tx) := by
  have hid : tx.id = row.id := by
    obtain ⟨amount, -, hreconstituted⟩ := bind_eq_ok.mp htx
    obtain rfl := Except.ok.inj hreconstituted
    rfl
  exact ⟨row, tx, Database.findTransaction_eq_some.mpr ⟨hrow, hid.symm⟩, htx, rfl⟩

theorem Database.Shows.of_prefix {db db' : Database} {dto : TransactionDTO} (h : db.Shows dto)
    (hinit : db.transactions <+: db'.transactions) : db'.Shows dto := by
  obtain ⟨row, tx, hrow, htx, rfl⟩ := h
  exact shows_of_mem (hinit.subset (Database.findTransaction_eq_some.mp hrow).1) htx

/-- A transaction that a request may return is stored, under the key of the request. -/
theorem Backed.shows {s : Server} {views : RequestId → Option (Request × RowView × Report)}
    (h : Backed s views) {t : RequestId} {r : Request} {v : RowView} {n : Report}
    (ht : views t = some (r, v, n)) {dto : TransactionDTO}
    (hdto : n.Supports r (.transaction dto)) :
    s.db.Shows dto ∧ ∃ draws command, r = .transfer draws command ∧
      dto.idempotencyKey = command.idempotencyKey := by
  obtain ⟨draws, command, rfl, ⟨orm, tx, hfound, htx, rfl⟩ | ⟨-, w, hw, S, hS, rfl⟩⟩ := hdto
  · obtain ⟨row, hrow, rfl⟩ := h.found ht hfound
    obtain ⟨hmem, hkey⟩ := Database.findByKey_eq_some.mp hrow
    refine ⟨Database.shows_of_mem hmem htx, draws, command, rfl, ?_⟩
    obtain ⟨amount, -, hreconstituted⟩ := bind_eq_ok.mp htx
    obtain rfl := Except.ok.inj hreconstituted
    exact hkey
  · obtain ⟨c, hc, -, hrequest, rfl⟩ := h.committed ht hw
    obtain ⟨amount, stored, tx, hcompleted, htx⟩ :=
      (h.rows.history.legal Database.whole_empty c hc).1.completed hrequest hS
    obtain ⟨hread, hsame⟩ := TransferCommand.completed_dto hcompleted.initiated hcompleted.cents
    rw [htx, ← hsame]
    refine ⟨Database.shows_of_mem ?_ hread, draws, command, rfl, rfl⟩
    apply (h.rows.history.transactions_prefix Database.whole_empty hc).subset
    rw [hcompleted.transactions]
    exact List.mem_append_right _ (List.mem_singleton.mpr rfl)

/-- What a request has returned is supported by its report. -/
theorem SystemReachable.supported {p : System} (h : SystemReachable p) {t : RequestId}
    {r : Request} {out : Outcome} (hend : p.threads t = some (r, .ret out)) {response : Response}
    (hok : out.1 = .ok response) :
    ∃ views v n, Backed p.shared views ∧ views t = some (r, v, n) ∧ n.Supports r response := by
  obtain ⟨views, hbacked, htracks⟩ := h.backed
  have ht := htracks t
  rw [hend] at ht
  obtain ⟨⟨v, n⟩, hview, hpost⟩ := ht
  exact ⟨views, v, n, hbacked, hview, hpost response hok⟩

/-- Run a service alone on what a server has committed, where nothing fails. -/
def Server.ask {α : Type} (s : Server) (label : Request) (x : SqlTask α) : Except Exn α :=
  (x.runWith (Server.answerBy (fun _ => .proceed) label) .init (s.atRest, 0)).1.1

theorem Server.ask_getTransaction (s : Server) (label : Request) (id : UUID) :
    s.ask label (TransferService.get sqlUow id) =
      s.db.readTransaction (fun _ => .proceed) id := by
  have hlive : s.atRest.Live := by simp [Server.Live, Server.atRest, Server.quiet]
  exact Task.runWith_of_wp _ (wp_getTransaction (r := label) hlive id
    (Q := fun res _ _ => res = s.db.readTransaction (fun _ => .proceed) id) fun _ _ _ _ => rfl)

theorem Server.ask_getAccount (s : Server) (label : Request) (id : UUID) :
    s.ask label (AccountService.get sqlUow id) = s.db.readAccount (fun _ => .proceed) id := by
  have hlive : s.atRest.Live := by simp [Server.Live, Server.atRest, Server.quiet]
  exact Task.runWith_of_wp _ (wp_getAccount (r := label) hlive id
    (Q := fun res _ _ => res = s.db.readAccount (fun _ => .proceed) id) fun _ _ _ _ => rfl)

/-- A transaction that a transfer has returned carries the key of its command, and a lookup in
this or any later state returns the same transaction. Whatever failed and however the requests
interleaved, nobody is told of a transfer that is not stored for good. -/
theorem transfers_stay_true {p p' : System} (h : SystemReachable p) {t : RequestId} {r : Request}
    {out : Outcome} (hend : p.threads t = some (r, .ret out)) {dto : TransactionDTO}
    (hok : out.1 = .ok (.transaction dto)) (hreach : Reachable Server.host.step p p')
    (label : Request) :
    (∃ draws command, r = .transfer draws command ∧
      dto.idempotencyKey = command.idempotencyKey) ∧
    p'.shared.ask label (TransferService.get sqlUow dto.id) = .ok dto := by
  obtain ⟨views, v, n, hbacked, hview, hsupports⟩ := h.supported hend hok
  obtain ⟨hshows, hkey⟩ := hbacked.shows hview hsupports
  refine ⟨hkey, ?_⟩
  rw [Server.ask_getTransaction]
  have hkept := (h.related (R := fun db db' => db.transactions <+: db'.transactions)
    (fun _ => List.prefix_rfl) List.IsPrefix.trans Commit.Legal.keepsTransactions hreach).2
  exact readTransaction_eq_ok.mpr ⟨rfl, rfl, hshows.of_prefix hkept⟩

/-- A response that a state of the system has for a request. -/
theorem returned {p : System} {t : RequestId} {P : Response → Bool}
    (h : ((p.result t).bind (·.1.toOption)).any P = true) :
    ∃ r out response, p.threads t = some (r, .ret out) ∧ out.1 = .ok response ∧
      P response = true := by
  obtain ⟨response, hresponse, hP⟩ : ∃ response, (p.result t).bind (·.1.toOption) = some response ∧
      P response = true := by
    cases hcase : (p.result t).bind (·.1.toOption) with
    | none =>
      rw [hcase] at h
      cases h
    | some response =>
      rw [hcase] at h
      exact ⟨response, rfl, h⟩
  obtain ⟨out, hout, hok⟩ := Option.bind_eq_some_iff.mp hresponse
  obtain ⟨r, hthread⟩ := Pool.result_eq_some hout
  refine ⟨r, out, response, hthread, ?_, hP⟩
  cases hcase : out.1 with
  | error e =>
    rw [hcase] at hok
    cases hok
  | ok a =>
    rw [hcase] at hok
    rw [Option.some.inj hok]

theorem transfers_stay_true_sample :
    ∃ r out dto, Sample.transferred.threads 2 = some (r, .ret out) ∧
      out.1 = .ok (.transaction dto) ∧
      ((∃ draws command, r = .transfer draws command ∧
        dto.idempotencyKey = command.idempotencyKey) ∧
      Sample.transferred.shared.ask r (TransferService.get sqlUow dto.id) = .ok dto) := by
  obtain ⟨r, out, response, hend, hok, hP⟩ := returned Sample.transferred_returns
  cases response with
  | account dto => cases hP
  | transaction dto =>
    exact ⟨r, out, dto, hend, hok,
      transfers_stay_true Sample.transferred_reachable hend hok ⟨[], .nil _⟩ r⟩

/-- The balance that an opened account was given is its opening balance from then on. -/
theorem SerialHistory.openingBalance_of_opens {db : Database} {history : List Commit}
    (h : SerialHistory .empty history db) {c : Commit} (hc : c ∈ history) {draws : AccountDraws}
    {command : CreateAccountCommand} {a : Account} {balance : Numeric}
    (hopens : c.Opens draws command a balance) :
    openingBalance history draws.id = some (100 * a.balance.cents) := by
  obtain ⟨before, after, rfl⟩ := List.append_of_mem hc
  have hnone : openingBalance before draws.id = none :=
    (opening_eq_none h.split.reconciled draws.id).mpr hopens.new
  have hopening : c.opening draws.id = some (100 * a.balance.cents) := by
    simp [Commit.opening, hopens.request, hopens.opened]
  rw [openingBalance] at hnone ⊢
  rw [List.findSome?_append, hnone, List.findSome?_cons, hopening]
  rfl

/-- The account that a request may return was opened with the returned balance. -/
theorem Backed.opens {s : Server} {views : RequestId → Option (Request × RowView × Report)}
    (h : Backed s views) {t : RequestId} {r : Request} {v : RowView} {n : Report}
    (ht : views t = some (r, v, n)) {dto : AccountDTO} (hdto : n.Supports r (.account dto)) :
    ∃ c ∈ s.history, ∃ draws command a balance, c.Opens draws command a balance ∧
      r = .create draws command ∧ dto = AccountDTO.fromAggregate a := by
  obtain ⟨draws, command, a, rfl, hopened, hw, rfl⟩ := hdto
  obtain ⟨c, hc, -, hrequest, -⟩ := h.committed ht hw
  obtain ⟨a', balance, hopens⟩ :=
    Commit.legal_create (h.rows.history.legal Database.whole_empty c hc).1 hrequest
  obtain rfl := Except.ok.inj (hopened.symm.trans hopens.opened)
  exact ⟨c, hc, draws, command, a, balance, hopens, rfl, rfl⟩

/-- A balance is the opening balance plus the completed transfers in, minus those out. -/
theorem SystemReachable.balance_of_opening {p : System} (h : SystemReachable p) {id : AccountId}
    {opening : ℤ} (hopening : openingBalance p.shared.history id = some opening) {row : AccountRow}
    (hrow : p.shared.db.findAccount id = some row) :
    row.balance.units = opening + p.shared.db.received id - p.shared.db.sent id := by
  have hbalance := h.serial.reconciled.balance id
  simp only [book, Database.balance, hrow, hopening, Option.map_some, Database.credited_postings,
    Database.debited_postings] at hbalance
  exact Option.some.inj hbalance

/-- The row of an account that was opened, and its opening balance, in any later state. -/
theorem opened_later {p p' : System} (h : SystemReachable p)
    (hreach : Reachable Server.host.step p p') {c : Commit} (hc : c ∈ p.shared.history)
    {draws : AccountDraws} {command : CreateAccountCommand} {a : Account} {balance : Numeric}
    (hopens : c.Opens draws command a balance) :
    SystemReachable p' ∧ openingBalance p'.shared.history draws.id = some (100 * a.balance.cents) ∧
      ∃ row, p'.shared.db.findAccount draws.id = some row ∧
        ((AccountMapper.toNewOrm a).withBalance balance : AccountRow).SameAccount row := by
  have hlater := h.related Database.keepsAccounts_refl Database.KeepsAccounts.trans
    Commit.Legal.keepsAccounts hreach
  have hkept := h.serial.related Database.whole_empty Database.keepsAccounts_refl
    Database.KeepsAccounts.trans Commit.Legal.keepsAccounts hc
  have hc' : c ∈ p'.shared.history := by
    obtain ⟨ls, hrun⟩ := hreach
    obtain ⟨commits, hhistory, -⟩ := history_of_run hrun
    rw [hhistory]
    exact List.mem_append_left _ hc
  have hrow : c.after.findAccount draws.id = some ((AccountMapper.toNewOrm a).withBalance balance) :=
    (hopens.accounts draws.id).trans (if_pos rfl)
  exact ⟨hlater.1, hlater.1.serial.openingBalance_of_opens hc' hopens,
    (hkept.trans hlater.2) _ _ hrow⟩

/-- An account that was returned by its opening belongs to whom the command names, and a lookup
in this or any later state returns it with the same number, currency and status; its balance is
the returned one plus the completed transfers to it minus those from it. -/
theorem openings_stay_true {p p' : System} (h : SystemReachable p) {t : RequestId} {r : Request}
    {out : Outcome} (hend : p.threads t = some (r, .ret out)) {dto : AccountDTO}
    (hok : out.1 = .ok (.account dto)) (hreach : Reachable Server.host.step p p')
    (label : Request) :
    (∃ draws command, r = .create draws command ∧ dto.ownerId = command.ownerId ∧
      dto.currency = command.currency) ∧
    ∃ dto' : AccountDTO, p'.shared.ask label (AccountService.get sqlUow dto.id) = .ok dto' ∧
      { dto' with balance := dto.balance } = dto ∧
      dto'.balance.value = dto.balance.value +
        ((p'.shared.db.received dto.id - p'.shared.db.sent dto.id : ℤ) : ℚ) / 10 ^ 4 := by
  obtain ⟨views, v, n, hbacked, hview, hsupports⟩ := h.supported hend hok
  obtain ⟨c, hc, draws, command, a, balance, hopens, rfl, rfl⟩ := hbacked.opens hview hsupports
  obtain ⟨hp', hopening, row, hrow, hsame⟩ := opened_later h hreach hc hopens
  obtain ⟨currency, initial, hcurrency, hmoney, ha⟩ := CreateAccountCommand.opened_ok hopens.opened
  obtain ⟨hinitial, hcreated⟩ := Account.create_ok ha
  have hvalue : initial.currency.value = command.currency := by
    rw [Money.new_currency hmoney, Currency.value_of_ofValue hcurrency]
  have hid : a.id = draws.id := by rw [hcreated]
  obtain ⟨cents, hcents⟩ := hp'.whole.of_find hrow
  refine ⟨⟨draws, command, rfl, by rw [hcreated]; rfl, by rw [hcreated]; exact hvalue⟩, ?_⟩
  refine ⟨AccountDTO.fromAggregate (row.account cents hcents), ?_, ?_, ?_⟩
  · rw [Server.ask_getAccount, Database.readAccount, lookup_eq_ok]
    refine ⟨rfl, rfl, ?_⟩
    change (p'.shared.db.findAccount a.id).map _ = _
    rw [hid, hrow, Option.map_some, AccountMapper.toDomain_load hcents]
    rfl
  · have hcurrency' : row.currency = a.balance.currency := hsame.currency
    simp only [AccountDTO.fromAggregate, AccountDTO.mk.injEq]
    refine ⟨hsame.id, hsame.ownerId, hsame.accountNumber, trivial, ?_, ?_⟩
    · exact congrArg Currency.value hcurrency'
    · exact congrArg AccountStatus.value hsame.status
  · have hunits := hp'.balance_of_opening hopening hrow
    change (row.account cents hcents).balance.amount.value = a.balance.amount.value + _
    rw [Money.value_amount, Money.value_amount]
    change (cents : ℚ) / 100 = _
    change _ = _ + ((p'.shared.db.received a.id - p'.shared.db.sent a.id : ℤ) : ℚ) / 10 ^ 4
    rw [hid, ← hcents.value, hunits]
    push_cast
    ring

theorem openings_stay_true_sample :
    ∃ r out dto, Sample.opened.threads 0 = some (r, .ret out) ∧ out.1 = .ok (.account dto) ∧
      ((∃ draws command, r = .create draws command ∧ dto.ownerId = command.ownerId ∧
        dto.currency = command.currency) ∧
      ∃ dto' : AccountDTO, Sample.opened.shared.ask r (AccountService.get sqlUow dto.id) = .ok dto' ∧
        { dto' with balance := dto.balance } = dto ∧
        dto'.balance.value = dto.balance.value + ((Sample.opened.shared.db.received dto.id -
          Sample.opened.shared.db.sent dto.id : ℤ) : ℚ) / 10 ^ 4) := by
  obtain ⟨r, out, response, hend, hok, hP⟩ := returned Sample.opened_returns
  cases response with
  | transaction dto => cases hP
  | account dto =>
    exact ⟨r, out, dto, hend, hok,
      openings_stay_true Sample.opened_reachable hend hok ⟨[], .nil _⟩ r⟩

end BankingTransactions
