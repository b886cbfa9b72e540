import BankingTransactions.AccountTable
import BankingTransactions.DuplicateRequests
import BankingTransactions.HttpContracts
import BankingTransactions.OutboxLedger

/-!
# The assembled server

The endpoints are the only callers of the services. Here any number of calls runs over one
server, interleaved and with failures. Whatever is called, the accounts that were there stay as
they are, accounts are opened for authenticated users only, and no transfer is ever made.
-/
namespace BankingTransactions
open DecimalArithmetic InteractionPrograms ThreadPools

/-! ## Calls over one server -/

/-- Any number of calls over one server. `unnamed` stands for the calls that ask for no account
opening, should one of them commit. -/
def httpHost (settings : Settings) (unnamed : Request) :
    Host RequestId Server HttpCall Choice Disturbance IoOp IoOp.Res (Option HttpResponse) where
  program := HttpCall.program settings
  accept t call s :=
    match call.request settings with
    | some r => Server.accept t r s
    | none => some s
  answer t call := Server.answer t ((call.request settings).getD unnamed)
  disturb := Server.disturb

abbrev HttpSystem := Pool RequestId Server HttpCall IoOp IoOp.Res (Option HttpResponse)

/-! ## Histories of account openings -/

/-- The other database has the same transactions and outbox, and keeps the accounts as they are. -/
structure Database.Extends (db db' : Database) : Prop where
  transactions : db'.transactions = db.transactions
  outbox : db'.outbox = db.outbox
  accounts : ∀ id row, db.findAccount id = some row → db'.findAccount id = some row

/-- The request opens an account. -/
def Request.IsCreate (r : Request) : Prop := ∃ draws command, r = .create draws command

theorem Commit.Legal.extension {c : Commit} (h : c.Legal) (hcreate : c.request.IsCreate) :
    c.before.Extends c.after := by
  obtain ⟨draws, command, hrequest⟩ := hcreate
  obtain ⟨a, balance, hopens⟩ := legal_create h hrequest
  have houtbox := Database.flush_outbox h.flushed
  rw [hopens.events, List.append_nil] at houtbox
  refine ⟨hopens.transactions, houtbox, fun id row hrow => ?_⟩
  rw [hopens.accounts, if_neg, hrow]
  rintro rfl
  rw [hopens.new] at hrow
  cases hrow

namespace SerialHistory

variable {start db : Database} {history : List Commit}

theorem extension (h : SerialHistory start history db)
    (hcreates : ∀ c ∈ history, c.request.IsCreate) : start.Extends db := by
  induction h with
  | nil => exact ⟨rfl, rfl, fun _ _ hrow => hrow⟩
  | @snoc history c hbefore hc ih =>
    obtain ⟨htransactions, houtbox, haccounts⟩ :=
      ih fun c hmem => hcreates c (List.mem_append_left _ hmem)
    obtain ⟨htransactions', houtbox', haccounts'⟩ := hc.extension (hcreates c (by simp))
    exact ⟨htransactions'.trans htransactions, houtbox'.trans houtbox,
      fun id row hrow => haccounts' id row (haccounts id row hrow)⟩

/-- Every account was there before or was opened by one of the commits. -/
theorem opened (h : SerialHistory start history db)
    (hcreates : ∀ c ∈ history, c.request.IsCreate) {id : AccountId} {row : AccountRow}
    (hrow : db.findAccount id = some row) : start.findAccount id = some row ∨
      ∃ c ∈ history, ∃ draws command a balance, c.Opens draws command a balance ∧
        id = draws.id ∧ row = (AccountMapper.toNewOrm a).withBalance balance := by
  induction h with
  | nil => exact .inl hrow
  | @snoc history c hbefore hc ih =>
    obtain ⟨draws, command, hrequest⟩ := hcreates c (by simp)
    obtain ⟨a, balance, hopens⟩ := Commit.legal_create hc hrequest
    rw [hopens.accounts] at hrow
    split_ifs at hrow with hid
    · exact .inr ⟨c, by simp, draws, command, a, balance, hopens, hid, (Option.some.inj hrow).symm⟩
    · rcases ih (fun c hmem => hcreates c (List.mem_append_left _ hmem)) hrow with
        hold | ⟨c', hc', hby⟩
      · exact .inl hold
      · exact .inr ⟨c', List.mem_append_left _ hc', hby⟩

end SerialHistory

/-! ## The invariant -/

theorem HttpCall.request_eq_some {settings : Settings} {call : HttpCall} {r : Request}
    (h : call.request settings = some r) : ∃ draws body user,
      call.endpoint = .createAccount draws body ∧ settings.getCurrentUser call.headers = .ok user ∧
      r = .create draws ⟨user.userId, body.currency.value, body.initialBalance⟩ := by
  unfold request at h
  split at h
  · exact ⟨_, _, _, ‹_›, ‹_›, (Option.some.inj h).symm⟩
  · cases h

/-- The views of the calls that open an account. -/
def openingViews (settings : Settings) (vs : RequestId → Option (HttpCall × RowView)) :
    RequestId → Option (Request × RowView) :=
  fun t => (vs t).bind fun x => (x.1.request settings).map fun r => (r, x.2)

/-- The new accounts were opened by calls, and what a lookup has found is there. -/
structure Assembled (settings : Settings) (s₀ s : Server)
    (vs : RequestId → Option (HttpCall × RowView)) : Prop where
  consistent : Consistent s (openingViews settings vs)
  opened : ∃ added, SerialHistory s₀.db added s.db ∧ ∀ c ∈ added, ∃ call v,
    vs c.requestId = some (call, v) ∧ call.request settings = some c.request
  seen : ∀ {t call v id row}, vs t = some (call, v) → call.request settings = none →
    v.rows id = some row → s.db.findAccount id = some row

section Views

variable {settings : Settings} {vs : RequestId → Option (HttpCall × RowView)} {t : RequestId}
  {call : HttpCall} {v : RowView}

theorem openingViews_update_some {r : Request} (hcall : call.request settings = some r) :
    openingViews settings (Function.update vs t (some (call, v))) =
      Function.update (openingViews settings vs) t (some (r, v)) := by
  ext1 t'
  by_cases ht : t' = t
  · subst ht
    simp [openingViews, hcall]
  · simp [openingViews, ht]

theorem openingViews_update_none (hcall : call.request settings = none)
    (ht : openingViews settings vs t = none) :
    openingViews settings (Function.update vs t (some (call, v))) = openingViews settings vs := by
  ext1 t'
  by_cases ht' : t' = t
  · subst ht'
    rw [ht]
    simp [openingViews, hcall]
  · simp [openingViews, ht']

end Views

/-- A transaction that is none of the views' may end. -/
theorem Consistent.release_other {s : Server} {views : RequestId → Option (Request × RowView)}
    {t : RequestId} (h : Consistent s views) (ht : views t = none) :
    Consistent (s.release t) views where
  history := h.history
  locked {t' r' w id row} hview hrow hab := by
    have hne : t' ≠ t := by
      rintro rfl
      rw [ht] at hview
      cases hview
    have hab' : t' ∉ s.aborted := fun hmem => hab (by simp [Server.release, hmem, hne])
    obtain ⟨hlock, hfind⟩ := h.locked hview hrow hab'
    exact ⟨by simp [Server.release, hlock, hne], hfind⟩
  exclusive hlock hlock' := h.exclusive (List.mem_filter.mp hlock).1 (List.mem_filter.mp hlock').1
  issued := h.issued
  distinct := h.distinct
  unused := h.unused
  ids := h.ids

/-! ## One operation of a lookup -/

section Lookups

variable {s s' : Server} {t : RequestId} {r : Request} {choice : Choice} {o : IoOp} {res : o.Res}
  {v : RowView} {Q : o.Res → RowView → Prop}

/-- A lookup changes nothing but its own transaction, and keeps what it has found in its view. -/
structure LooksUp (s s' : Server) (t : RequestId) (v : RowView) (K : RowView → Prop) : Prop where
  server : s' = s ∨ s' = s.release t
  view : ∃ v', K v' ∧ ∀ id row, v'.rows id = some row →
    v.rows id = some row ∨ s.db.findAccount id = some row

theorem LooksUp.same {K : RowView → Prop} (hserver : s' = s ∨ s' = s.release t) (hK : K v) :
    LooksUp s s' t v K := ⟨hserver, v, hK, fun _ _ hrow => .inl hrow⟩

theorem lookup_error (hd : (lookupContract s.db.findTransaction).demand v o Q) (e : Exn) :
    Q (.error e) v := by
  cases o with
  | selectAccount id => exact hd.1 e
  | selectTransaction id => exact hd.1 e
  | rollback => exact hd (.error e)
  | close => exact hd (.error e)
  | _ => exact hd.elim

theorem serve_lookup (hd : (lookupContract s.db.findTransaction).demand v o Q)
    (h : Server.serve t r o s = some (res, s')) : LooksUp s s' t v (Q res) := by
  cases o with
  | selectAccount id =>
    simp only [Server.serve] at h
    split_ifs at h <;> cases h
    · exact .same (.inl rfl) (hd.1 _)
    · cases hfind : s.db.findAccount id with
      | none => exact .same (.inl rfl) hd.2.1
      | some row =>
        have hid := (Database.findAccount_eq_some.mp hfind).2
        refine ⟨.inl rfl, v.see row, hd.2.2 row hid, fun id' row' hrow => ?_⟩
        by_cases heq : id' = row.id
        · subst heq
          rw [RowView.see_rows, Function.update_self] at hrow
          rw [← Option.some.inj hrow, hid]
          exact .inr hfind
        · rw [RowView.see_rows, Function.update_of_ne heq] at hrow
          exact .inl hrow
  | selectTransaction id =>
    simp only [Server.serve] at h
    split_ifs at h <;> cases h
    · exact .same (.inl rfl) (hd.1 _)
    · exact .same (.inl rfl) hd.2
  | rollback =>
    cases h
    exact .same (.inr rfl) (hd _)
  | close =>
    cases h
    exact .same (.inr rfl) (hd _)
  | _ => exact hd.elim

theorem answer_lookup (hd : (lookupContract s.db.findTransaction).demand v o Q)
    (h : Server.answer t r choice o s = some (res, s')) : LooksUp s s' t v (Q res) := by
  cases choice with
  | proceed => exact serve_lookup hd h
  | timeout =>
    cases o with
    | acquireKey lockKey => exact hd.elim
    | _ => cases h
  | fault e =>
    cases h
    exact .same (.inl rfl) (lookup_error hd e)
  | faultAfter e =>
    simp only [Server.answer, Option.map_eq_some_iff] at h
    obtain ⟨⟨res', s''⟩, hserve, hres⟩ := h
    cases hres
    exact .same (serve_lookup hd hserve).server (lookup_error hd e)

end Lookups

/-! ## Any interleaving -/

namespace Assembled

variable {settings : Settings} {s₀ s s' : Server} {vs : RequestId → Option (HttpCall × RowView)}
  {t : RequestId} {call : HttpCall} {v w : RowView}

/-- The calls that have been accepted stay. -/
theorem called (hvs : ∀ x, vs t = some x → x.1 = call) {P : HttpCall → Prop} {t' : RequestId}
    (h : ∃ call' v', vs t' = some (call', v') ∧ P call') :
    ∃ call' v', Function.update vs t (some (call, w)) t' = some (call', v') ∧ P call' := by
  obtain ⟨call', v', hv', hP⟩ := h
  by_cases ht : t' = t
  · subst ht
    refine ⟨call, w, Function.update_self .., ?_⟩
    rw [← hvs _ hv']
    exact hP
  · exact ⟨call', v', by rw [Function.update_of_ne ht, hv'], hP⟩

/-- The part of the server that the views speak of stays the same. -/
theorem keep (h : Assembled settings s₀ s vs) (hvs : ∀ x, vs t = some x → x.1 = call)
    (hdb : s'.db = s.db)
    (hconsistent : Consistent s' (openingViews settings (Function.update vs t (some (call, w)))))
    (hseen : call.request settings = none → ∀ id row, w.rows id = some row →
      s.db.findAccount id = some row) :
    Assembled settings s₀ s' (Function.update vs t (some (call, w))) where
  consistent := hconsistent
  opened := by
    obtain ⟨added, hadded, hcalls⟩ := h.opened
    rw [hdb]
    exact ⟨added, hadded, fun c hc => called hvs (hcalls c hc)⟩
  seen {t' call' v' id row} hview hnone hrow := by
    rw [hdb]
    obtain ⟨rfl, hx⟩ | ⟨-, hview⟩ := update_eq_some hview
    · cases hx
      exact hseen hnone id row hrow
    · exact h.seen hview hnone hrow

theorem extension (h : Assembled settings s₀ s vs) : s₀.db.Extends s.db := by
  obtain ⟨added, hadded, hcalls⟩ := h.opened
  refine hadded.extension fun c hc => ?_
  obtain ⟨call, v, -, hrequest⟩ := hcalls c hc
  obtain ⟨draws, body, user, -, -, heq⟩ := HttpCall.request_eq_some hrequest
  exact ⟨_, _, heq⟩

/-- A call is accepted. -/
theorem accept {unnamed : Request} (h : Assembled settings s₀ s vs) (ht : vs t = none)
    (haccept : (httpHost settings unnamed).accept t call s = some s') :
    Assembled settings s₀ s' (Function.update vs t (some (call, .fresh))) := by
  have hnone : openingViews settings vs t = none := by simp [openingViews, ht]
  have hvs : ∀ x, vs t = some x → x.1 = call := by simp [ht]
  cases hrequest : call.request settings with
  | none =>
    simp only [httpHost, hrequest] at haccept
    obtain rfl := Option.some.inj haccept
    refine h.keep hvs rfl ?_ fun _ _ _ hrow => by cases hrow
    rw [openingViews_update_none hrequest hnone]
    exact h.consistent
  | some r =>
    simp only [httpHost, hrequest] at haccept
    have hconsistent := h.consistent.accept hnone haccept
    simp only [Server.accept] at haccept
    split_ifs at haccept
    cases haccept
    refine h.keep hvs rfl ?_ fun _ _ _ hrow => by cases hrow
    rw [openingViews_update_some hrequest]
    exact hconsistent

variable {unnamed : Request} {choice : Choice} {o : IoOp} {res : o.Res}
  {Q : o.Res → RowView → Prop}

/-- An operation of a call that opens an account. -/
theorem answer_opening {r : Request} (h : Assembled settings s₀ s vs) (ht : vs t = some (call, v))
    (hrequest : call.request settings = some r)
    (hanswer : Server.answer t r choice o s = some (res, s'))
    (hd : (rowContract r).demand v o Q) :
    ∃ v', Q res v' ∧ Assembled settings s₀ s' (Function.update vs t (some (call, v'))) := by
  have hopening : openingViews settings vs t = some (r, v) := by simp [openingViews, ht, hrequest]
  have hvs : ∀ x, vs t = some x → x.1 = call := by simp [ht]
  obtain ⟨v', hQ, hconsistent⟩ := h.consistent.answer hopening hanswer hd
  rw [← openingViews_update_some hrequest] at hconsistent
  refine ⟨v', hQ, ?_⟩
  rcases Server.answer_grows hanswer with ⟨hdb, -⟩ | ⟨c, rfl, rfl, hbefore, hdb, hhistory⟩
  · exact h.keep hvs hdb hconsistent (by simp [hrequest])
  · obtain ⟨hlegal, -⟩ := hconsistent.history.legal Database.whole_empty c (by simp [hhistory])
    obtain ⟨draws, body, user, -, -, hcreate⟩ := HttpCall.request_eq_some hrequest
    have hextends := hlegal.extension ⟨_, _, hcreate⟩
    rw [hbefore, ← hdb] at hextends
    obtain ⟨added, hadded, hcalls⟩ := h.opened
    rw [← hbefore] at hadded
    refine ⟨hconsistent, ⟨added ++ [c], hdb ▸ hadded.snoc hlegal, fun c' hc' => ?_⟩,
      fun {t' call' w id row} hview hnone hrow => ?_⟩
    · rcases List.mem_append.mp hc' with hc' | hc'
      · exact called hvs (hcalls c' hc')
      · rw [List.mem_singleton.mp hc']
        exact called hvs ⟨call, v, ht, hrequest⟩
    · obtain ⟨rfl, hx⟩ | ⟨-, hview⟩ := update_eq_some hview
      · cases hx
        rw [hrequest] at hnone
        cases hnone
      · exact hextends.accounts id row (h.seen hview hnone hrow)

/-- An operation of a call that looks something up. -/
theorem answer_lookup (h : Assembled settings s₀ s vs) (ht : vs t = some (call, v))
    (hrequest : call.request settings = none)
    (hanswer : Server.answer t unnamed choice o s = some (res, s'))
    (hd : (lookupContract s₀.db.findTransaction).demand v o Q) :
    ∃ v', Q res v' ∧ Assembled settings s₀ s' (Function.update vs t (some (call, v'))) := by
  have hnone : openingViews settings vs t = none := by simp [openingViews, ht, hrequest]
  have htransactions : s₀.db.findTransaction = s.db.findTransaction := by
    ext1 id
    simp only [Database.findTransaction, h.extension.transactions]
  rw [htransactions] at hd
  obtain ⟨hserver, v', hQ, hrows⟩ := BankingTransactions.answer_lookup hd hanswer
  refine ⟨v', hQ, h.keep (by simp [ht]) ?_ ?_ fun _ id row hrow => ?_⟩
  · rcases hserver with rfl | rfl <;> rfl
  · rw [openingViews_update_none hrequest hnone]
    rcases hserver with rfl | rfl
    · exact h.consistent
    · exact h.consistent.release_other hnone
  · rcases hrows id row hrow with hrow | hrow
    · exact h.seen ht hrequest hrow
    · exact hrow

theorem disturb {d : Disturbance} (h : Assembled settings s₀ s vs)
    (hdisturb : Server.disturb d s = some s') : Assembled settings s₀ s' vs := by
  have hdb : s'.db = s.db := by
    cases d <;> cases hdisturb <;> rfl
  exact ⟨h.consistent.disturb hdisturb, by rw [hdb]; exact h.opened, by rw [hdb]; exact h.seen⟩

end Assembled

/-- The calls keep to their contracts, and single operations keep the invariant. -/
def httpDiscipline (settings : Settings) (unnamed : Request) (s₀ : Server) :
    Discipline (httpHost settings unnamed) .any RowView where
  contract := httpContract settings s₀.db.findTransaction
  post := HttpCall.Answers settings s₀.db.findTransaction
  inv := Assembled settings s₀
  accept h ht _ haccept := ⟨.fresh, keeps_call _ _ _, h.accept ht haccept⟩
  answer {t call choice o s res s' vs v Q} h ht _ hanswer hd := by
    cases hrequest : call.request settings with
    | some r =>
      simp only [httpHost, hrequest, Option.getD_some] at hanswer
      simp only [httpContract, hrequest] at hd
      exact h.answer_opening ht hrequest hanswer hd
    | none =>
      simp only [httpHost, hrequest, Option.getD_none] at hanswer
      simp only [httpContract, hrequest] at hd
      exact h.answer_lookup ht hrequest hanswer hd
  disturb h _ hdisturb := h.disturb hdisturb

theorem SystemReachable.http {p : System} (h : SystemReachable p) {settings : Settings}
    {unnamed : Request} {q : HttpSystem}
    (hq : Reachable (httpHost settings unnamed).step (Pool.empty p.shared.resting) q) :
    ∃ vs, Assembled settings p.shared.resting q.shared vs ∧
      (httpDiscipline settings unnamed p.shared.resting).Tracks q.threads vs := by
  have hstart : Assembled settings p.shared.resting p.shared.resting fun _ => none :=
    ⟨h.resting, ⟨[], .nil, by simp⟩, fun h => by cases h⟩
  obtain ⟨ls, hrun⟩ := hq
  exact (httpDiscipline settings unnamed p.shared.resting).sound hstart
    (hrun.mono fun q l _ => Policy.any_ok q l)

/-- An authenticated user has opened the account by one of the calls. -/
def AccountRecord.OpenedOver (row : AccountRow) (settings : Settings) (q : HttpSystem) : Prop :=
  ∃ t call program draws body user initial, q.threads t = some (call, program) ∧
    call.endpoint = .createAccount draws body ∧ settings.getCurrentUser call.headers = .ok user ∧
    Money.new body.initialBalance body.currency = .ok initial ∧ row.id = draws.id ∧
    row.ownerId = user.userId ∧ row.currency = body.currency ∧ row.status = .active ∧
    row.balance.IsCents initial.cents

theorem Currency.ofValue_value (currency : Currency) : ofValue currency.value = .ok currency := by
  cases currency <;> decide

theorem Commit.Opens.openedOver {c : Commit} {draws : AccountDraws} {command : CreateAccountCommand}
    {a : Account} {balance : Numeric} (h : c.Opens draws command a balance) {settings : Settings}
    {q : HttpSystem} {t : RequestId} {call : HttpCall}
    {program : Program IoOp IoOp.Res (Option HttpResponse)}
    (hthread : q.threads t = some (call, program))
    (hrequest : call.request settings = some c.request) :
    ((AccountMapper.toNewOrm a).withBalance balance : AccountRow).OpenedOver settings q := by
  obtain ⟨draws', body, user, hendpoint, huser, hcreate⟩ := HttpCall.request_eq_some hrequest
  rw [h.request] at hcreate
  obtain ⟨rfl, rfl⟩ := Request.create.inj hcreate
  obtain ⟨currency, initial, hcurrency, hinitial, ha⟩ := CreateAccountCommand.opened_ok h.opened
  obtain rfl := Except.ok.inj ((Currency.ofValue_value body.currency).symm.trans hcurrency)
  obtain ⟨hsame, ha⟩ := Account.create_ok ha
  have hcents := h.cents
  subst ha
  exact ⟨t, call, program, draws, body, user, initial, hthread, hendpoint, huser, hinitial, rfl,
    rfl, hsame, rfl, hcents⟩

/-- Calls of the HTTP API, however they interleave and whatever fails, on any database that the
services can have left: no transaction, no message and no account that was there is ever changed,
every new account was opened by an authenticated user, for that user, with the body's currency and
balance, and outside development there is none. -/
theorem http_opens_only {p : System} (h : SystemReachable p) {settings : Settings}
    {unnamed : Request} {q : HttpSystem}
    (hq : Reachable (httpHost settings unnamed).step (Pool.empty p.shared.resting) q) :
    p.shared.db.Extends q.shared.db ∧
      (∀ id row, q.shared.db.findAccount id = some row →
        p.shared.db.findAccount id = some row ∨ row.OpenedOver settings q) ∧
      (settings.isDevelopment = false → q.shared.db = p.shared.db) := by
  obtain ⟨vs, hassembled, htracks⟩ := h.http hq
  obtain ⟨added, hadded, hcalls⟩ := hassembled.opened
  refine ⟨hassembled.extension, fun id row hrow => ?_, fun hdev => ?_⟩
  · have hcreates : ∀ c ∈ added, c.request.IsCreate := by
      intro c hc
      obtain ⟨call, v, -, hrequest⟩ := hcalls c hc
      obtain ⟨draws, body, user, -, -, heq⟩ := HttpCall.request_eq_some hrequest
      exact ⟨_, _, heq⟩
    rcases hadded.opened hcreates hrow with
      hold | ⟨c, hc, draws, command, a, balance, hopens, -, rfl⟩
    · exact .inl hold
    · obtain ⟨call, v, hv, hrequest⟩ := hcalls c hc
      obtain ⟨program, hthread⟩ := htracks.thread hv
      exact .inr (hopens.openedOver hthread hrequest)
  · have hnone : added = [] := by
      rw [List.eq_nil_iff_forall_not_mem]
      intro c hc
      obtain ⟨call, v, -, hrequest⟩ := hcalls c hc
      obtain ⟨draws, body, user, -, huser, -⟩ := HttpCall.request_eq_some hrequest
      obtain ⟨detail, herror⟩ := Settings.getCurrentUser_production hdev call.headers
      rw [huser] at herror
      cases herror
    rw [hnone] at hadded
    exact hadded.databaseAfter_eq.symm

namespace Sample

/-- In development, with the text of one user id. -/
def development : Settings :=
  ⟨true, fun text => if text = "00000000-0000-0000-0000-000000000009" then some 9 else none⟩

def user9 : Headers := ⟨some "00000000-0000-0000-0000-000000000009", none⟩

/-- A call that arrives and performs `n` operations. -/
def calls (t : RequestId) (call : HttpCall) (n : ℕ) :
    List (Label RequestId HttpCall Choice Disturbance) :=
  .spawn t call :: List.replicate n (.resume t .proceed)

/-- After a transfer, a user opens an account with 100 EUR, looks it up and asks for a transfer. -/
def visited : HttpSystem :=
  replay (httpHost development (opening 4 (Fin.last 9) "EUR")).step (Pool.empty transferred.shared.resting)
    (calls 1 ⟨user9, .createAccount ⟨4, 0, 0, fun _ => Fin.last 9, (moment 0).stamp⟩
      ⟨.EUR, .finite false 100 0, trivial, by decide⟩⟩ 3 ++
    calls 2 ⟨user9, .getAccount 4⟩ 2 ++
    calls 3 ⟨user9, .initiateTransfer (draws 5) transferBody⟩ 0) (by decide +kernel)

theorem visited_reachable : Reachable (httpHost development (opening 4 (Fin.last 9) "EUR")).step
    (Pool.empty transferred.shared.resting) visited := reachable_replay _

end Sample

theorem http_opens_only_sample :
    Sample.visited.shared.db.accounts.map (·.balance.units) = [700000, 1300000, 1000000] ∧
    Sample.transferred.shared.db.Extends Sample.visited.shared.db ∧
    (∀ id row, Sample.visited.shared.db.findAccount id = some row →
      Sample.transferred.shared.db.findAccount id = some row ∨
        row.OpenedOver Sample.development Sample.visited) ∧
    (Sample.development.isDevelopment = false →
      Sample.visited.shared.db = Sample.transferred.shared.db) :=
  ⟨by decide +kernel, http_opens_only Sample.transferred_reachable Sample.visited_reachable⟩

theorem HttpCall.Answered.mono {settings : Settings}
    {accounts accounts' : AccountId → Option AccountRow}
    {transactions : TransactionId → Option TransactionRow} {call : HttpCall}
    {response : HttpResponse}
    (h : call.Answered settings accounts transactions response)
    (hmono : (∃ id, call.endpoint = .getAccount id) → ∀ id row, accounts id = some row →
      accounts' id = some row) : call.Answered settings accounts' transactions response where
  account shown hshown := by
    obtain ⟨user, huser, howner, hrow⟩ := h.account shown hshown
    refine ⟨user, huser, howner, fun id hid => ?_⟩
    obtain ⟨row, hfound, hshows⟩ := hrow id hid
    exact ⟨row, hmono ⟨id, hid⟩ id row hfound, hshows⟩
  transaction := h.transaction
  error := h.error
  refused := h.refused

/-- Whatever the calls were answered, in any interleaving and with any failures, was to be answered:
an account is shown to its owner only, not even to an admin, and an account or a transaction that
was looked up is stored as it is shown; a transfer is never acknowledged; all else is an error; and
outside development nobody but those who look for a transaction gets further than 401. -/
theorem http_answers {p : System} (h : SystemReachable p) {settings : Settings} {unnamed : Request}
    {q : HttpSystem}
    (hq : Reachable (httpHost settings unnamed).step (Pool.empty p.shared.resting) q)
    {t : RequestId} {response : HttpResponse} (hresponse : q.result t = some (some response)) :
    ∃ call program, q.threads t = some (call, program) ∧
      call.Answered settings q.shared.db.findAccount q.shared.db.findTransaction response := by
  obtain ⟨vs, hassembled, htracks⟩ := h.http hq
  obtain ⟨call, v, hv, hpost⟩ := htracks.post_of_result hresponse
  obtain ⟨program, hthread⟩ := htracks.thread hv
  have htransactions : q.shared.db.findTransaction = p.shared.resting.db.findTransaction := by
    ext1 id
    simp only [Database.findTransaction, hassembled.extension.transactions]
  refine ⟨call, program, hthread, ?_⟩
  rw [htransactions]
  refine (hpost response rfl).mono ?_
  rintro ⟨id, hid⟩ id' row hrow
  have hnone : call.request settings = none := by simp [HttpCall.request, hid]
  exact hassembled.seen hv hnone hrow

theorem http_answers_sample :
    ∃ response, Sample.visited.result 2 = some (some response) ∧ response.status = 200 ∧
      ∃ call program, Sample.visited.threads 2 = some (call, program) ∧
        call.Answered Sample.development Sample.visited.shared.db.findAccount
          Sample.visited.shared.db.findTransaction response := by
  have hresult : (Sample.visited.result 2).any (fun out => out.any (·.status = 200)) = true := by
    decide +kernel
  simp only [Option.any_eq_true, decide_eq_true_eq] at hresult
  obtain ⟨out, hout, response, rfl, hstatus⟩ := hresult
  exact ⟨response, hout, hstatus,
    http_answers Sample.transferred_reachable Sample.visited_reachable hout⟩

end BankingTransactions
