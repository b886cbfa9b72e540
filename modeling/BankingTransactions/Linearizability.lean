import BankingTransactions.Acknowledgements
import BankingTransactions.BankRefinement

/-!
# The server is a linearizable bank

Every request takes effect at one moment between its arrival and its answer: at its commit, or
when its lookup finds the row of its key. The log of these moments is a run of the bank, and
whoever is answered is told the result that the bank gives.
-/
namespace BankingTransactions
open DecimalArithmetic InteractionPrograms ThreadPools
open AtomicBanks (Bank Verdict Result)

/-- An operation that took effect, for the request that asked for it, and its result. -/
abbrev LogEntry := RequestId × BankOperation × BankResult

/-- The response tells this result. -/
def Response.Tells : Response → BankResult → Prop
  | .account dto, .enrolled id x =>
    dto.id = id ∧ (dto.ownerId, dto.accountNumber) = x.holder ∧ dto.currency = x.currency.value ∧
      dto.balance.value = x.amount / 10 ^ 4 ∧ dto.status = AccountStatus.active.value
  | .transaction dto, .receipt key r =>
    dto.idempotencyKey = key ∧ dto.fromAccountId = r.order.source ∧
      dto.toAccountId = r.order.target ∧ dto.currency = r.order.currency.value ∧
      dto.amount.value = r.order.amount / 10 ^ 4 ∧
      (⟨dto.id, dto.failureReason, dto.createdAt, dto.completedAt⟩ : TransferStamp) = r.stamp ∧
      (dto.status, dto.failureCode) =
        ((verdictColumns r.verdict).1.value, (verdictColumns r.verdict).2)
  | _, _ => False

/-- The log explains a state of the system: it is a run of the bank that ends in its tables,
its entries are operations that requests which have arrived asked for, and it has the result of
every request that was answered with success. -/
structure Explains (log : List LogEntry) (p : System) : Prop where
  runs : Bank.Runs Bank.empty (log.map (·.2)) p.shared.db.bank
  asked : ∀ e ∈ log, ∃ r x, p.threads e.1 = some (r, x) ∧ r.Asks e.2.1
  answered : ∀ {t r out response}, p.threads t = some (r, .ret out) → out.1 = .ok response →
    ∃ e ∈ log, e.1 = t ∧ response.Tells e.2.2

/-! ## What responses tell -/

theorem TransactionRecord.Explained.columns {row : TransactionRow} {db : Database}
    (h : row.Explained db) : (row.status, row.failureCode) = verdictColumns row.verdict := by
  obtain ⟨-, -, a, b, amount, -, -, -, -, -, -, hrecords⟩ := h
  rw [verdict_of_columns hrecords.columns]
  exact hrecords.columns

/-- What is read from a stored row tells the receipt of its key. -/
theorem Database.Shows.tells {db : Database} {dto : TransactionDTO} (h : db.Shows dto)
    (hexplained : ∀ row ∈ db.transactions, ∃ db', row.Explained db') :
    ∃ r, db.bank.register dto.idempotencyKey = some r ∧
      (Response.transaction dto).Tells (.receipt dto.idempotencyKey r) := by
  obtain ⟨row, tx, hrow, htx, rfl⟩ := h
  obtain ⟨hmem, -⟩ := Database.findTransaction_eq_some.mp hrow
  obtain ⟨db', hexplained⟩ := hexplained row hmem
  obtain ⟨hstatus, hcode⟩ := Prod.mk.inj hexplained.columns
  obtain ⟨-, -, -, -, amount, -, -, -, -, hcents, -, -⟩ := hexplained
  obtain rfl := Except.ok.inj ((TransactionMapper.toDomain_load hcents).symm.trans htx)
  refine ⟨row.receipt, congrArg (Option.map _) (Database.findByKey_eq_some.mpr ⟨hmem, rfl⟩), rfl,
    rfl, rfl, rfl, ?_, rfl, ?_⟩
  · change (Money.ofCents amount.cents hcents.lt_precision row.currency).amount.value =
      (row.amount.units : ℚ) / 10 ^ 4
    rw [Money.value_amount, hcents.value]
    rfl
  · change (row.status.value, row.failureCode) = _
    rw [hstatus, hcode]
    rfl

/-- The account that is opened tells its enrolment. -/
theorem CreateAccountCommand.opened_tells {draws : AccountDraws} {command : CreateAccountCommand}
    {a : Account} (h : command.opened draws = .ok a) :
    (Response.account (AccountDTO.fromAggregate a)).Tells (.enrolled draws.id a.entry) := by
  obtain ⟨currency, initial, -, -, ha⟩ := CreateAccountCommand.opened_ok h
  obtain ⟨-, hcreated⟩ := Account.create_ok ha
  refine ⟨CreateAccountCommand.opened_id h, rfl, rfl, ?_, ?_⟩
  · change a.balance.amount.value = ((100 * a.balance.cents : ℤ) : ℚ) / 10 ^ 4
    rw [Money.value_amount]
    push_cast
    ring
  · change a.status.value = _
    rw [hcreated]

/-! ## The log -/

/-- The log and what the requests have found and committed belong together. -/
structure Logged (log : List LogEntry) (s : Server)
    (views : RequestId → Option (Request × RowView × Report)) : Prop where
  backed : Backed s views
  runs : Bank.Runs Bank.empty (log.map (·.2)) s.db.bank
  asked : ∀ e ∈ log, ∃ r v n, views e.1 = some (r, v, n) ∧ r.Asks e.2.1 ∧
    (v.attempted = true ∨ n.found ≠ [])
  once : (log.map (·.1)).Nodup
  found : ∀ {t r v n}, views t = some (r, v, n) → n.found ≠ [] → t ∈ log.map (·.1)
  committed : ∀ c ∈ s.history, c.requestId ∈ log.map (·.1)

namespace Logged

variable {log : List LogEntry} {s s' : Server}
  {views : RequestId → Option (Request × RowView × Report)} {t : RequestId} {r : Request}
  {v : RowView} {n : Report} {o : IoOp} {res : o.Res} {Q : o.Res → RowView × Report → Prop}

theorem quiet : Logged [] (.quiet .empty) fun _ => none where
  backed := Backed.quiet
  runs := .nil
  asked _ he := by cases he
  once := List.nodup_nil
  found h := by cases h
  committed _ hc := by cases hc

theorem accept (h : Logged log s views) (ht : views t = none)
    (haccept : Server.accept t r s = some s') :
    Logged log s' (Function.update views t (some (r, .fresh, .start))) := by
  have hbacked := h.backed.accept ht haccept
  simp only [Server.accept] at haccept
  split_ifs at haccept
  cases haccept
  refine ⟨hbacked, h.runs, fun e he => ?_, h.once, fun {t' r' v' n'} hview hfound => ?_,
    h.committed⟩
  · obtain ⟨r', v', n', hview, hrest⟩ := h.asked e he
    have hne : e.1 ≠ t := by
      intro het
      rw [het, ht] at hview
      cases hview
    exact ⟨r', v', n', by rw [Function.update_of_ne hne, hview], hrest⟩
  · obtain ⟨-, hy⟩ | ⟨-, hview⟩ := update_eq_some hview
    · cases hy
      exact absurd rfl hfound
    · exact h.found hview hfound

theorem disturb {d : Disturbance} (h : Logged log s views)
    (hdisturb : Server.disturb d s = some s') : Logged log s' views := by
  have hbacked := h.backed.disturb hdisturb
  cases d <;> cases hdisturb <;>
    exact ⟨hbacked, h.runs, h.asked, h.once, h.found, h.committed⟩

/-- The entries keep their requests when one of these has got on. -/
theorem asked_update (h : Logged log s views) (ht : views t = some (r, v, n)) {v' : RowView}
    {n' : Report} (hv : v.attempted = true → v'.attempted = true) (hn : n.found <+: n'.found) :
    ∀ e ∈ log, ∃ r' w m, Function.update views t (some (r, v', n')) e.1 = some (r', w, m) ∧
      r'.Asks e.2.1 ∧ (w.attempted = true ∨ m.found ≠ []) := by
  intro e he
  obtain ⟨r', w, m, hview, hasks, hdone⟩ := h.asked e he
  by_cases het : e.1 = t
  · rw [het, ht] at hview
    cases hview
    refine ⟨r, v', n', by rw [het, Function.update_self], hasks, hdone.imp hv fun hfound => ?_⟩
    intro hempty
    rw [hempty, List.prefix_nil] at hn
    exact hfound hn
  · exact ⟨r', w, m, by rw [Function.update_of_ne het, hview], hasks, hdone⟩

/-- A request that has neither committed nor found a row has no entry. -/
theorem no_entry (h : Logged log s views) (ht : views t = some (r, v, n))
    (hv : v.attempted = false) (hn : n.found = []) : t ∉ log.map (·.1) := by
  intro hmem
  obtain ⟨e, he, rfl⟩ := List.mem_map.mp hmem
  obtain ⟨r', w, m, hview, -, hdone⟩ := h.asked e he
  rw [ht] at hview
  cases hview
  rcases hdone with hattempted | hfound
  · rw [hv] at hattempted
    cases hattempted
  · exact hfound hn

/-- The log after an answer, which may have added an entry for the request. -/
theorem extend (h : Logged log s views) (ht : views t = some (r, v, n)) {v' : RowView} {n' : Report}
    (hbacked : Backed s' (Function.update views t (some (r, v', n'))))
    (hv : v.attempted = true → v'.attempted = true) (hn : n.found <+: n'.found)
    {entries : List LogEntry}
    (hruns : Bank.Runs Bank.empty ((log ++ entries).map (·.2)) s'.db.bank)
    (hentries : ∀ e ∈ entries, e.1 = t ∧ r.Asks e.2.1 ∧ (v'.attempted = true ∨ n'.found ≠ []))
    (honce : ((log ++ entries).map (·.1)).Nodup)
    (hfound : n'.found ≠ [] → t ∈ (log ++ entries).map (·.1))
    (hcommitted : ∀ c ∈ s'.history, c.requestId ∈ (log ++ entries).map (·.1)) :
    Logged (log ++ entries) s' (Function.update views t (some (r, v', n'))) := by
  refine ⟨hbacked, hruns, fun e he => ?_, honce, fun {t' r' w m} hview hm => ?_, hcommitted⟩
  · rcases List.mem_append.mp he with he | he
    · exact h.asked_update ht hv hn e he
    · obtain ⟨het, hasks, hdone⟩ := hentries e he
      exact ⟨r, v', n', by rw [het, Function.update_self], hasks, hdone⟩
  · obtain ⟨rfl, hy⟩ | ⟨-, hview⟩ := update_eq_some hview
    · cases hy
      exact hfound hm
    · rw [List.map_append]
      exact List.mem_append_left _ (h.found hview hm)

/-- One entry more, of a request that had none. -/
theorem nodup_snoc (h : Logged log s views) (ht : t ∉ log.map (·.1)) (op : BankOperation)
    (result : BankResult) : ((log ++ [(t, op, result)]).map (·.1)).Nodup := by
  rw [List.map_append, List.map_singleton, ← List.concat_eq_append, List.nodup_concat]
  exact ⟨ht, h.once⟩

/-- A commit is one operation, and the request had no entry before. -/
theorem commits {v' : RowView} {n' : Report} {c : Commit} (h : Logged log s views)
    (ht : views t = some (r, v, n))
    (hbacked : Backed s' (Function.update views t (some (r, v', n'))))
    (hv : v.attempted = false) (hv' : v'.attempted = true) (hfound : n.found = [])
    (hn : n.found <+: n'.found) (hid : c.requestId = t) (hrequest : c.request = r)
    (hbefore : c.before = s.db) (hafter : s'.db = c.after) (hhistory : s'.history = s.history ++ [c]) :
    ∃ entries, Logged (log ++ entries) s' (Function.update views t (some (r, v', n'))) := by
  have hserial := h.backed.rows.history
  have hlegal := (hbacked.rows.history.legal Database.whole_empty c (by simp [hhistory])).1
  rw [← hbefore] at hserial
  obtain ⟨op, result, hasks, hstep⟩ :=
    hlegal.bank_step (hserial.whole Database.whole_empty) hserial.accounts_wellFormed
  have hnew := h.no_entry ht hv hfound
  refine ⟨[(t, op, result)], h.extend ht hbacked (fun _ => hv') hn ?_ (fun e he => ?_)
    (h.nodup_snoc hnew op result) (fun _ => by simp) (fun c' hc' => ?_)⟩
  · rw [List.map_append, List.map_singleton, hafter]
    exact .snoc (hbefore ▸ h.runs) hstep
  · obtain rfl := List.mem_singleton.mp he
    exact ⟨rfl, hrequest ▸ hasks, .inl hv'⟩
  · rw [hhistory, List.mem_append, List.mem_singleton] at hc'
    rw [List.map_append, List.mem_append]
    rcases hc' with hc' | rfl
    · exact .inl (h.committed c' hc')
    · exact .inr (by simp [hid])

/-- A lookup that has found the row of the key is an inquiry. -/
theorem inquires {v' : RowView} {n' : Report} (h : Logged log s views)
    (ht : views t = some (r, v, n))
    (hbacked : Backed s' (Function.update views t (some (r, v', n'))))
    (hv : v.attempted = true → v'.attempted = true) (hn : n.found <+: n'.found)
    (hdb : s'.db = s.db) (hhistory : s'.history = s.history) (hnew : t ∉ log.map (·.1))
    (hfound : n'.found ≠ []) {draws : TransferDraws} {command : TransferCommand}
    (hr : r = .transfer draws command) {row : TransactionRow}
    (hrow : s.db.findByKey command.idempotencyKey = some row) :
    ∃ entries, Logged (log ++ entries) s' (Function.update views t (some (r, v', n'))) := by
  have hregister : s.db.bank.register command.idempotencyKey = some row.receipt :=
    congrArg (Option.map _) hrow
  refine ⟨[(t, .inquire command.idempotencyKey, .receipt command.idempotencyKey row.receipt)],
    h.extend ht hbacked hv hn ?_ (fun e he => ?_) (h.nodup_snoc hnew _ _) (fun _ => by simp)
    (fun c hc => ?_)⟩
  · rw [List.map_append, List.map_singleton, hdb]
    exact .snoc h.runs (.inquire hregister)
  · obtain rfl := List.mem_singleton.mp he
    exact ⟨rfl, hr ▸ .inl rfl, .inr hfound⟩
  · rw [List.map_append]
    exact List.mem_append_left _ (h.committed c (hhistory ▸ hc))

/-- The log stays as it is, when the request has found nothing or has an entry already. -/
theorem keeps {v' : RowView} {n' : Report} (h : Logged log s views)
    (ht : views t = some (r, v, n))
    (hbacked : Backed s' (Function.update views t (some (r, v', n'))))
    (hv : v.attempted = true → v'.attempted = true) (hn : n.found <+: n'.found)
    (hdb : s'.db = s.db) (hhistory : s'.history = s.history)
    (hfound : n'.found ≠ [] → t ∈ log.map (·.1)) :
    ∃ entries, Logged (log ++ entries) s' (Function.update views t (some (r, v', n'))) := by
  refine ⟨[], h.extend ht hbacked hv hn ?_ (fun e he => by cases he) ?_ ?_ ?_⟩
  · rw [List.append_nil, hdb]
    exact h.runs
  · rw [List.append_nil]
    exact h.once
  · rw [List.append_nil]
    exact hfound
  · rw [List.append_nil, hhistory]
    exact h.committed

/-- One answer to one operation extends the log by an entry or keeps it. -/
theorem answer {choice : Choice} (h : Logged log s views) (ht : views t = some (r, v, n))
    (hanswer : Server.answer t r choice o s = some (res, s'))
    (hd : (reportContract r).demand (v, n) o Q) :
    ∃ v', Q res v' ∧ ∃ entries,
      Logged (log ++ entries) s' (Function.update views t (some (r, v'))) := by
  obtain ⟨v', hQ, hattempted, hbacked⟩ := h.backed.answer ht hanswer hd
  obtain ⟨hgrounds, hdemand⟩ := hd
  have hn := n.note_found o res
  refine ⟨_, hQ, ?_⟩
  rcases Server.answer_grows hanswer with ⟨hdb, hhistory⟩ |
    ⟨c, hid, hrequest, hbefore, hafter, hhistory⟩
  · by_cases hmem : t ∈ log.map (·.1)
    · exact h.keeps ht hbacked (fun hv => hattempted (.inl hv)) hn hdb hhistory fun _ => hmem
    by_cases hfound : (n.note o res).found = []
    · exact h.keeps ht hbacked (fun hv => hattempted (.inl hv)) hn hdb hhistory
        fun hne => absurd hfound hne
    obtain ⟨x, hx⟩ := List.exists_mem_of_ne_nil _ hfound
    have hnone : n.found = [] := by
      by_contra hne
      exact hmem (h.found ht hne)
    obtain hold | ⟨row, hrow, -⟩ := Server.answer_found hanswer hx
    · simp [hnone] at hold
    · obtain rfl := Report.note_new hx (by simp [hnone])
      obtain ⟨draws, command, hr, hkey⟩ := hgrounds
      exact h.inquires ht hbacked (fun hv => hattempted (.inl hv)) hn hdb hhistory hmem hfound hr
        (hkey ▸ hrow)
  · obtain ⟨w, rfl⟩ : ∃ w, o = .commit w := by
      by_contra ho
      have hsame := (Server.answer_keeps hanswer fun w hw => ho ⟨w, hw⟩).2
      simp [hsame] at hhistory
    exact h.commits ht hbacked hdemand.1 (hattempted (.inr ⟨w, rfl⟩)) hgrounds hn hid hrequest
      hbefore hafter hhistory

/-- A request that may tell its caller something has an entry. -/
theorem mem_of_supports (h : Logged log s views) (ht : views t = some (r, v, n))
    {response : Response} (hresponse : n.Supports r response) : t ∈ log.map (·.1) := by
  have hcommitted {w : Flush} (hw : w ∈ n.committed) : t ∈ log.map (·.1) := by
    obtain ⟨c, hc, rfl, -⟩ := h.backed.committed ht hw
    exact h.committed c hc
  cases response with
  | account dto =>
    obtain ⟨draws, command, a, -, -, hw, -⟩ := hresponse
    exact hcommitted hw
  | transaction dto =>
    obtain ⟨draws, command, -, ⟨orm, tx, hfound, -⟩ | ⟨-, w, hw, -⟩⟩ := hresponse
    · exact h.found ht (List.ne_nil_of_mem hfound)
    · exact hcommitted hw

/-- What a request may tell its caller is the result of its entry. -/
theorem answered (h : Logged log s views) (ht : views t = some (r, v, n)) {response : Response}
    (hresponse : n.Supports r response) : ∃ e ∈ log, e.1 = t ∧ response.Tells e.2.2 := by
  obtain ⟨⟨t', op, result⟩, he, rfl⟩ := List.mem_map.mp (h.mem_of_supports ht hresponse)
  refine ⟨_, he, rfl, ?_⟩
  obtain ⟨r', v', n', hview, hasks, -⟩ := h.asked _ he
  rw [ht] at hview
  cases hview
  have hmem : (op, result) ∈ log.map (·.2) := List.mem_map.mpr ⟨_, he, rfl⟩
  have hanswers := h.runs.answers _ hmem
  cases response with
  | account dto =>
    obtain ⟨c, -, draws, command, a, balance, hopens, rfl, rfl⟩ := h.backed.opens ht hresponse
    obtain ⟨a', ha', rfl⟩ := hasks
    obtain rfl := Except.ok.inj (hopens.opened.symm.trans ha')
    cases result with
    | receipt key receipt => cases hanswers
    | enrolled id x =>
      obtain ⟨rfl, rfl⟩ := hanswers
      exact CreateAccountCommand.opened_tells ha'
  | transaction dto =>
    obtain ⟨hshows, draws, command, rfl, hkey⟩ := h.backed.shows ht hresponse
    obtain ⟨receipt, hreceipt, htells⟩ := hshows.tells fun row hrow => by
      obtain ⟨c, -, -, hexplained⟩ := h.backed.rows.history.explained row hrow
      exact ⟨_, hexplained⟩
    rw [hkey] at hreceipt htells
    cases result with
    | enrolled id x => obtain rfl | ⟨amount, stamp, -, -, rfl⟩ := hasks <;> cases hanswers
    | receipt key receipt' =>
      obtain rfl : key = command.idempotencyKey := by
        obtain rfl | ⟨amount, stamp, -, -, rfl⟩ := hasks <;> exact hanswers
      have hlast := h.runs.receipt ⟨_, hmem, rfl⟩
      rw [hreceipt] at hlast
      obtain rfl := Option.some.inj hlast
      exact htells

end Logged

/-! ## Runs -/

/-- The requests keep to their contracts, and single answers extend the log. -/
def logDiscipline (log : List LogEntry) : Discipline Server.host .any (RowView × Report) where
  contract := reportContract
  post := reportDiscipline.post
  inv s views := ∃ log', log <+: log' ∧ Logged log' s views
  accept h ht _ haccept := by
    obtain ⟨log', hlog, h⟩ := h
    exact ⟨(.fresh, .start), reports_program _, log', hlog, h.accept ht haccept⟩
  answer h ht _ hanswer hd := by
    obtain ⟨log', hlog, h⟩ := h
    obtain ⟨v', hQ, entries, h'⟩ := h.answer ht hanswer hd
    exact ⟨v', hQ, _, hlog.trans (List.prefix_append log' entries), h'⟩
  disturb h _ hdisturb := by
    obtain ⟨log', hlog, h⟩ := h
    exact ⟨log', hlog, h.disturb hdisturb⟩

/-- The log belongs to a state of the system. -/
def LogOf (p : System) (log : List LogEntry) : Prop :=
  ∃ views, Logged log p.shared views ∧ reportDiscipline.Tracks p.threads views

theorem LogOf.step {p p' : System} {log : List LogEntry} (h : LogOf p log)
    {l : Label RequestId Request Choice Disturbance} (hstep : Server.host.step p l = some p') :
    ∃ log', log <+: log' ∧ LogOf p' log' := by
  obtain ⟨views, hlogged, htracks⟩ := h
  obtain ⟨views', ⟨log', hlog, hlogged'⟩, htracks'⟩ :=
    (logDiscipline log).step_sound (Policy.any_ok p l) hstep
      ⟨views, ⟨log, List.prefix_rfl, hlogged⟩, htracks⟩
  exact ⟨log', hlog, views', hlogged', htracks'⟩

theorem LogOf.explains {p : System} {log : List LogEntry} (h : LogOf p log) : Explains log p := by
  obtain ⟨views, hlogged, htracks⟩ := h
  refine ⟨hlogged.runs, fun e he => ?_, fun {t r out response} hend hok => ?_⟩
  · obtain ⟨r, v, n, hview, hasks, -⟩ := hlogged.asked e he
    have ht := htracks e.1
    cases hthread : p.threads e.1 with
    | none =>
      rw [hthread, hview] at ht
      cases ht
    | some x =>
      obtain ⟨r', x⟩ := x
      rw [hthread] at ht
      obtain ⟨v', hview', -⟩ := ht
      rw [hview] at hview'
      cases hview'
      exact ⟨r, x, rfl, hasks⟩
  · have ht := htracks t
    rw [hend] at ht
    obtain ⟨⟨v, n⟩, hview, hpost⟩ := ht
    exact hlogged.answered hview (hpost response hok)

/-- The server is linearizable. Whatever fails and however the requests interleave, one log
explains a run from its start to its end: every state on the way is explained by a prefix of
it, so a request that was answered with success before another one arrived comes before it in
the log. No request has two entries, so none takes effect twice. -/
theorem linearizable {ls : List (Label RequestId Request Choice Disturbance)} {p : System}
    (hrun : Run Server.host.step (fun _ _ => True) (Pool.empty (Server.quiet .empty)) ls p) :
    ∃ log : List LogEntry, (log.map (·.1)).Nodup ∧ Explains log p ∧
      ∀ ls₁ p₁, ls₁ <+: ls →
        Run Server.host.step (fun _ _ => True) (Pool.empty (Server.quiet .empty)) ls₁ p₁ →
        ∃ log₁, log₁ <+: log ∧ Explains log₁ p₁ := by
  have hstart : LogOf (Pool.empty (Server.quiet .empty)) [] := ⟨_, Logged.quiet, fun _ => rfl⟩
  obtain ⟨log, -, hlog, hall⟩ := hrun.logged (I := LogOf)
    (fun _ _ _ _ h _ hstep => h.step hstep) hstart
  refine ⟨log, ?_, hlog.explains, fun ls₁ p₁ hinit hrun₁ => ?_⟩
  · obtain ⟨views, hlogged, -⟩ := hlog
    exact hlogged.once
  · obtain ⟨log₁, hinit₁, hlog₁⟩ := hall ls₁ p₁ hinit hrun₁
    exact ⟨log₁, hinit₁, hlog₁.explains⟩

theorem linearizable_sample :
    ∃ log : List LogEntry, (log.map (·.1)).Nodup ∧ Explains log Sample.transferred ∧
      ∀ ls₁ p₁, ls₁ <+: Sample.openings "EUR" ++
          Sample.served 2 (.transfer (Sample.draws 3) Sample.command) 14 →
        Run Server.host.step (fun _ _ => True) (Pool.empty (Server.quiet .empty)) ls₁ p₁ →
        ∃ log₁, log₁ <+: log ∧ Explains log₁ p₁ :=
  linearizable (run_of_replay _)

end BankingTransactions
