import BankingTransactions.Serializability

/-!
# The transactions table

Every committed row is the final record of a transfer between two existing accounts,
and the table only ever grows. A row is written by one legal commit, which leaves all
earlier rows as they are, and no commit removes an account or changes its currency, so
what a row says of its accounts stays true.
-/
namespace BankingTransactions
open DecimalArithmetic InteractionPrograms ThreadPools

/-- A final, well-formed record, in a database. -/
structure TransactionRecord.WellFormed (row : TransactionRow) (db : Database) : Prop where
  final : row.status = .completed ∨ row.status = .failed
  amount : ∃ c, 1 ≤ c ∧ row.amount.IsCents c
  distinct : row.fromAccountId ≠ row.toAccountId
  accounts : ∃ sender receiver, db.findAccount row.fromAccountId = some sender ∧
    db.findAccount row.toAccountId = some receiver ∧
    (row.status = .completed → sender.currency = row.currency ∧ receiver.currency = row.currency)
  completedAt : row.completedAt.isSome ↔ row.status = .completed
  failureCode : row.failureCode.isSome ↔ row.status = .failed
  failureReason : row.failureReason.isSome ↔ row.status = .failed

namespace Commit

variable {c : Commit}

/-- A commit keeps every account, and its currency. -/
theorem Legal.keepsAccount (h : c.Legal) (hwhole : c.before.Whole) {id : AccountId}
    {row : AccountRow} (hrow : c.before.findAccount id = some row) :
    ∃ row', c.after.findAccount id = some row' ∧ row'.currency = row.currency := by
  cases h.cases hwhole with
  | opened ho =>
    rw [ho.accounts]
    split_ifs with hid
    · subst hid
      rw [ho.new] at hrow
      cases hrow
    · exact ⟨row, hrow, rfl⟩
  | completed hc =>
    rw [hc.accounts]
    split_ifs with hfrom hto
    · subst hfrom
      obtain rfl := Option.some.inj (hc.findsSender.symm.trans hrow)
      exact ⟨_, rfl, rfl⟩
    · subst hto
      obtain rfl := Option.some.inj (hc.findsReceiver.symm.trans hrow)
      exact ⟨_, rfl, rfl⟩
    · exact ⟨row, hrow, rfl⟩
  | failed hf => exact ⟨row, (hf.findAccount id).trans hrow, rfl⟩

theorem Legal.keepsWellFormed (h : c.Legal) (hwhole : c.before.Whole) {row : TransactionRow}
    (hrow : row.WellFormed c.before) : row.WellFormed c.after := by
  obtain ⟨sender, receiver, hsender, hreceiver, hcurrency⟩ := hrow.accounts
  obtain ⟨sender', hsender', hscur⟩ := h.keepsAccount hwhole hsender
  obtain ⟨receiver', hreceiver', hrcur⟩ := h.keepsAccount hwhole hreceiver
  refine { hrow with accounts := ⟨sender', receiver', hsender', hreceiver', fun hc => ?_⟩ }
  rw [hscur, hrcur]
  exact hcurrency hc

/-- The table gets at most one row, at its end, and that row is well formed. -/
theorem Legal.transactions (h : c.Legal) (hwhole : c.before.Whole) :
    c.after.transactions = c.before.transactions ∨
      ∃ row, c.after.transactions = c.before.transactions ++ [row] ∧ row.WellFormed c.after := by
  cases h.cases hwhole with
  | opened ho => exact .inl ho.transactions
  | @completed draws command amount sender receiver stored _ _ _ _ hc =>
    have hfind := hc.accounts
    refine .inr ⟨_, hc.transactions, ?_⟩
    exact {
      final := .inl rfl
      amount := ⟨amount.cents, Nat.pos_of_ne_zero hc.positive, hc.cents⟩
      distinct := hc.distinct
      accounts := by
        refine ⟨_, _, (hfind _).trans (if_pos rfl),
          (hfind _).trans ((if_neg hc.distinct.symm).trans (if_pos rfl)), fun _ => ?_⟩
        exact ⟨hc.acceptsDebit.2.1, hc.acceptsCredit.2⟩
      completedAt := iff_of_true rfl rfl
      failureCode := iff_of_false nofun nofun
      failureReason := iff_of_false nofun nofun }
  | @failed draws command amount sender receiver stored e hf =>
    refine .inr ⟨_, hf.transactions, ?_⟩
    exact {
      final := .inr rfl
      amount := ⟨amount.cents, Nat.pos_of_ne_zero hf.positive, hf.cents⟩
      distinct := hf.distinct
      accounts := ⟨sender, receiver, (hf.findAccount _).trans hf.findsSender,
        (hf.findAccount _).trans hf.findsReceiver, nofun⟩
      completedAt := iff_of_false nofun nofun
      failureCode := iff_of_true rfl rfl
      failureReason := iff_of_true rfl rfl }

/-- The rows of the table stay where they are. -/
theorem Legal.keepsTransactions (h : c.Legal) (hwhole : c.before.Whole) :
    c.before.transactions <+: c.after.transactions := by
  rcases h.transactions hwhole with hsame | ⟨row, hrow, -⟩
  · rw [hsame]
  · rw [hrow]
    exact List.prefix_append _ _

end Commit

/-- No commit of a serial history changes a row that an earlier one has stored. -/
theorem SerialHistory.transactions_prefix {start db : Database} {history : List Commit}
    (h : SerialHistory start history db) (hstart : start.Whole) {c : Commit} (hc : c ∈ history) :
    c.after.transactions <+: db.transactions := by
  induction h with
  | nil => cases hc
  | @snoc history last hbefore hlast ih =>
    rcases List.mem_append.mp hc with hc | hc
    · exact (ih hc).trans (hlast.keepsTransactions (hbefore.whole hstart))
    · rw [List.mem_singleton.mp hc]

theorem SerialHistory.wellFormed {db : Database} {history : List Commit}
    (h : SerialHistory .empty history db) : ∀ row ∈ db.transactions, row.WellFormed db := by
  induction h with
  | nil =>
    intro row hrow
    cases hrow
  | snoc hbefore hc ih =>
    have hwhole := hbefore.whole Database.whole_empty
    have hkept := fun row hrow => hc.keepsWellFormed hwhole (ih row hrow)
    intro row hrow
    rcases hc.transactions hwhole with hsame | ⟨new, hnew, hwell⟩
    · exact hkept row (hsame ▸ hrow)
    · rw [hnew, List.mem_append, List.mem_singleton] at hrow
      rcases hrow with hrow | rfl
      · exact hkept row hrow
      · exact hwell

/-! ## The table only grows -/

/-- A stored row is found by its key from then on. -/
theorem Database.findByKey_of_prefix {db db' : Database} (h : db.transactions <+: db'.transactions)
    {key : String} {row : TransactionRow} (hrow : db.findByKey key = some row) :
    db'.findByKey key = some row := by
  obtain ⟨rest, hrest⟩ := h
  rw [findByKey, ← hrest, List.find?_append]
  rw [findByKey] at hrow
  rw [hrow]
  rfl

namespace Server

variable {s s' : Server} {t : RequestId} {r : Request}

/-- The database changes by successful commits only, and each is written down. -/
def Grows (s s' : Server) (t : RequestId) (r : Request) : Prop :=
  s'.db = s.db ∧ s'.history = s.history ∨
    ∃ c, c.requestId = t ∧ c.request = r ∧ c.before = s.db ∧ s'.db = c.after ∧
      s'.history = s.history ++ [c]

/-- Only a COMMIT changes the database. -/
theorem serve_keeps {o : IoOp} {res : o.Res} (h : serve t r o s = some (res, s'))
    (ho : ∀ w, o ≠ .commit w) : s'.db = s.db ∧ s'.history = s.history := by
  cases o with
  | selectAccountForUpdate id =>
    by_cases hab : t ∈ s.aborted
    · simp only [serve, if_pos hab] at h
      cases h
      exact ⟨rfl, rfl⟩
    · simp only [serve, if_neg hab] at h
      cases hfind : s.db.findAccount id with
      | none =>
        simp only [hfind] at h
        cases h
        exact ⟨rfl, rfl⟩
      | some row =>
        simp only [hfind] at h
        split_ifs at h
        cases h
        exact ⟨rfl, rfl⟩
  | commit w => exact absurd rfl (ho w)
  | rollback => cases h; exact ⟨rfl, rfl⟩
  | close => cases h; exact ⟨rfl, rfl⟩
  | deleteKey lockKey => cases h; exact ⟨rfl, rfl⟩
  | publishMany events => cases h; exact ⟨rfl, rfl⟩
  | _ =>
    simp only [serve] at h
    split_ifs at h <;> cases h <;> exact ⟨rfl, rfl⟩

/-- A COMMIT is refused, or written down. -/
theorem serve_commit {w : Flush} {res : IoOp.Res (.commit w)}
    (h : serve t r (.commit w) s = some (res, s')) :
    s' = s ∨ ∃ db, s'.db = db ∧ s'.history = s.history ++ [⟨t, r, s.db, w, db⟩] := by
  simp only [serve] at h
  split_ifs at h
  · cases h
    exact .inl rfl
  · split at h
    · cases h
      exact .inl rfl
    · cases h
      exact .inr ⟨_, rfl, rfl⟩

theorem serve_grows {o : IoOp} {res : o.Res} (h : serve t r o s = some (res, s')) :
    s.Grows s' t r := by
  cases o with
  | commit w =>
    obtain rfl | ⟨db, hdb, hhistory⟩ := serve_commit h
    · exact .inl ⟨rfl, rfl⟩
    · exact .inr ⟨_, rfl, rfl, rfl, hdb, hhistory⟩
  | _ => exact .inl (serve_keeps h (by simp))

theorem answer_grows {choice : Choice} {o : IoOp} {res : o.Res}
    (h : answer t r choice o s = some (res, s')) : s.Grows s' t r := by
  cases choice with
  | proceed => exact serve_grows h
  | timeout =>
    cases o with
    | acquireKey lockKey =>
      simp only [answer] at h
      split_ifs at h
      cases h
      exact .inl ⟨rfl, rfl⟩
    | _ => cases h
  | fault e => cases h; exact .inl ⟨rfl, rfl⟩
  | faultAfter e =>
    simp only [answer, Option.map_eq_some_iff] at h
    obtain ⟨⟨res', s''⟩, hserve, hres⟩ := h
    cases hres
    exact serve_grows hserve

/-- A step is a commit of the request that makes it, or leaves the database alone. -/
theorem step_grows {p p' : System} {l : Label RequestId Request Choice Disturbance}
    (h : host.step p l = some p') :
    p'.shared.db = p.shared.db ∧ p'.shared.history = p.shared.history ∨
      ∃ c choice prog, l = .resume c.requestId choice ∧
        p.threads c.requestId = some (c.request, prog) ∧ c.before = p.shared.db ∧
        p'.shared.db = c.after ∧ p'.shared.history = p.shared.history ++ [c] := by
  cases l with
  | spawn t r =>
    simp only [Host.step] at h
    split at h
    · cases h
    · simp only [Option.map_eq_some_iff] at h
      obtain ⟨s, hs, rfl⟩ := h
      change Server.accept t r p.shared = some s at hs
      simp only [accept] at hs
      split_ifs at hs
      cases hs
      exact .inl ⟨rfl, rfl⟩
  | resume t choice =>
    simp only [Host.step] at h
    split at h
    · rename_i r o k hthread
      simp only [Option.map_eq_some_iff] at h
      obtain ⟨⟨res, s⟩, hs, rfl⟩ := h
      rcases answer_grows hs with hsame | ⟨c, rfl, rfl, hbefore, hdb, hhistory⟩
      · exact .inl hsame
      · exact .inr ⟨c, choice, _, rfl, hthread, hbefore, hdb, hhistory⟩
    · cases h
  | disturb e =>
    simp only [Host.step, Option.map_eq_some_iff] at h
    obtain ⟨s, hs, rfl⟩ := h
    change Server.disturb e p.shared = some s at hs
    cases e <;> cases hs <;> exact .inl ⟨rfl, rfl⟩

end Server

theorem SystemReachable.step {p p' : System} (h : SystemReachable p)
    {l : Label RequestId Request Choice Disturbance} (hstep : Server.host.step p l = some p') :
    SystemReachable p' := by
  obtain ⟨ls, hrun⟩ := h
  exact ⟨ls ++ [l], hrun.trans (.cons trivial hstep (.nil p'))⟩

/-- A step leaves every stored row where it is. -/
theorem Consistent.transactions_prefix {p p' : System}
    {views : RequestId → Option (Request × RowView)} (h : Consistent p'.shared views)
    {l : Label RequestId Request Choice Disturbance} (hstep : Server.host.step p l = some p') :
    p.shared.db.transactions <+: p'.shared.db.transactions := by
  rcases Server.step_grows hstep with ⟨hdb, -⟩ | ⟨c, -, -, -, -, hbefore, hafter, hhistory⟩
  · rw [hdb]
  · have hmem : c ∈ p'.shared.history := by simp [hhistory]
    obtain ⟨hlegal, hwhole⟩ := h.history.legal Database.whole_empty c hmem
    rw [← hbefore, hafter]
    exact hlegal.keepsTransactions hwhole

/-- A step leaves every committed row where it is. -/
theorem transactions_prefix_of_step {p p' : System} (h : SystemReachable p)
    {l : Label RequestId Request Choice Disturbance} (hstep : Server.host.step p l = some p') :
    p.shared.db.transactions <+: p'.shared.db.transactions := by
  obtain ⟨views, hconsistent⟩ := (h.step hstep).consistent
  exact hconsistent.transactions_prefix hstep

/-- Every committed row is final and well formed, and no run from here changes or removes
one. -/
theorem transactions_final {p : System} (h : SystemReachable p) :
    (∀ row ∈ p.shared.db.transactions, row.WellFormed p.shared.db) ∧
      ∀ p', Reachable Server.host.step p p' →
        p.shared.db.transactions <+: p'.shared.db.transactions := by
  refine ⟨h.serial.wellFormed, fun p' hreach => ?_⟩
  obtain ⟨ls, hrun⟩ := hreach
  have hinv := hrun.invariant
    (I := fun q => SystemReachable q ∧ p.shared.db.transactions <+: q.shared.db.transactions)
    (fun q l q' hq _ hstep =>
      ⟨hq.1.step hstep, hq.2.trans (transactions_prefix_of_step hq.1 hstep)⟩)
    ⟨h, List.prefix_rfl⟩
  exact hinv.2

theorem transactions_final_sample :
    (∀ row ∈ Sample.failed.shared.db.transactions, row.WellFormed Sample.failed.shared.db) ∧
      ∀ p', Reachable Server.host.step Sample.failed p' →
        Sample.failed.shared.db.transactions <+: p'.shared.db.transactions :=
  transactions_final Sample.failed_reachable

end BankingTransactions
