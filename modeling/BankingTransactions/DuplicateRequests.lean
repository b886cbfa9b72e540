import BankingTransactions.CommittedTransfers
import BankingTransactions.DuplicateContracts
import BankingTransactions.FailureAtomicity
import BankingTransactions.Retries

/-!
# Duplicates of one request

Any number of requests carry the same command, over a Redis that keeps its keys, and nothing
fails. Whoever holds the lock of the transfer is alone with the database: until it commits,
it reads what everybody else has left. So a duplicate that gets the lock before the transfer
is committed is the one that commits it, and a duplicate that looks the key up after the
commit returns what was committed. The order that is left is a lookup before the commit and
a lock after it.
-/
namespace BankingTransactions
open DecimalArithmetic InteractionPrograms ThreadPools

/-! ## What the duplicates leave true -/

/-- The key of the command is stored in a COMPLETED transaction. -/
def TransferCommand.Completed (command : TransferCommand) (db : Database) : Prop :=
  ∃ row, db.findByKey command.idempotencyKey = some row ∧ row.status = .completed

/-- All requests carry the command, nothing fails, no key expires, and nobody gets the lock
of a database that is `late`. -/
def duplicatePolicy (command : TransferCommand) (late : Database → Prop) :
    Policy RequestId Server Request Choice Disturbance IoOp where
  accept _ r _ := ∃ draws, r = .transfer draws command
  answer _ _ c o s := c = .timeout ∨
    c = .proceed ∧ ∀ k, o = .acquireKey k → command.lastKey = some k → ¬ late s.db
  disturb _ _ := False

/-- What has been committed since `base`: nothing, or one transfer of a duplicate, and no
other duplicate has the lock since then. -/
inductive Progress (command : TransferCommand) (base s : Server)
    (views : RequestId → Option (Request × Duplicate)) : Prop
  | nothing (history : s.history = base.history) (db : s.db = base.db)
      (uncommitted : ∀ {t r v}, views t = some (r, v) → v.committed = false)
  | settled {c : Commit} (history : s.history = base.history ++ [c]) (db : s.db = c.after)
      (before : c.before = base.db) (legal : c.Legal)
      (request : ∃ draws, c.request = .transfer draws command)
      (others : ∀ {t r v}, views t = some (r, v) →
        (v.committed = true → t = c.requestId) ∧ ¬ v.Holds command)

/-- A lock key is set by one duplicate, and what a duplicate has found is stored. -/
structure Duplicates (command : TransferCommand) (base s : Server)
    (views : RequestId → Option (Request × Duplicate)) : Prop where
  aborted : s.aborted = []
  unique : ∀ {k t t'}, (k, t) ∈ s.lockKeys → (k, t') ∈ s.lockKeys → t = t'
  held : ∀ {t r v k}, views t = some (r, v) → k ∈ v.keys → (k, t) ∈ s.lockKeys
  request : ∀ {t r v}, views t = some (r, v) →
    (∃ draws, r = .transfer draws command) ∧ base.db.findTransaction r.newId = none
  ids : ∀ {id}, id ∉ s.issued → base.db.findTransaction id = none
  found : ∀ {t r v row}, views t = some (r, v) → v.found = some row →
    s.db.findByKey command.idempotencyKey = some row
  progress : Progress command base s views

/-- A commit of a transfer stores its row under its key. -/
theorem Commit.Legal.stored {c : Commit} (h : c.Legal) (hwhole : c.before.Whole)
    {draws : TransferDraws} {command : TransferCommand}
    (hrequest : c.request = .transfer draws command) :
    c.before.findByKey command.idempotencyKey = none ∧
      ∃ row, c.after.findByKey command.idempotencyKey = some row ∧ row.id = draws.tx.id := by
  obtain ⟨_, _, _, stored, _, _, _, _, hc⟩ | ⟨_, _, _, stored, e, hf⟩ :=
    legal_transfer h hwhole hrequest
  · exact ⟨hc.unused, _, TransferCommand.found_inserted (command.completedRow draws _ stored)
      hc.unused hc.transactions, rfl⟩
  · exact ⟨hf.unused, _, TransferCommand.found_inserted (command.failedRow draws _ stored e)
      hf.unused hf.transactions, rfl⟩

namespace Duplicates

variable {command : TransferCommand} {base s s' : Server}
  {views : RequestId → Option (Request × Duplicate)} {t : RequestId} {r : Request} {v : Duplicate}

/-- Whoever has the lock is alone with the database. -/
theorem alone (h : Duplicates command base s views) (ht : views t = some (r, v))
    (hholds : v.Holds command) : s.history = base.history ∧ s.db = base.db ∧
      ∀ {t r v}, views t = some (r, v) → v.committed = false := by
  cases h.progress with
  | nothing history db uncommitted => exact ⟨history, db, uncommitted⟩
  | settled history db before legal request others => exact absurd hholds (others ht).2

/-- A duplicate changes what it knows. Its keys are set, what it has found is stored, and if it
gets the lock then the key of the command is not stored. -/
theorem view (h : Duplicates command base s views) (hwhole : base.db.Whole)
    (ht : views t = some (r, v)) {w : Duplicate} (haborted : s'.aborted = [])
    (hissued : s'.issued = s.issued) (hhistory : s'.history = s.history) (hdb : s'.db = s.db)
    (hunique : ∀ {k t t'}, (k, t) ∈ s'.lockKeys → (k, t') ∈ s'.lockKeys → t = t')
    (hheld : ∀ {k}, k ∈ w.keys → (k, t) ∈ s'.lockKeys)
    (hothers : ∀ {k t'}, t' ≠ t → (k, t') ∈ s.lockKeys → (k, t') ∈ s'.lockKeys)
    (hfound : ∀ {row}, w.found = some row → s.db.findByKey command.idempotencyKey = some row)
    (hcommitted : w.committed = v.committed)
    (hlock : w.Holds command → v.Holds command ∨ s.db.findByKey command.idempotencyKey = none) :
    Duplicates command base s' (Function.update views t (some (r, w))) where
  aborted := haborted
  unique := hunique
  held hview hk := by
    obtain ⟨rfl, hx⟩ | ⟨hne, hview⟩ := update_eq_some hview
    · cases hx
      exact hheld hk
    · exact hothers hne (h.held hview hk)
  request hview := by
    obtain ⟨rfl, hx⟩ | ⟨-, hview⟩ := update_eq_some hview
    · cases hx
      exact h.request ht
    · exact h.request hview
  ids := by
    rw [hissued]
    exact h.ids
  found hview hrow := by
    rw [hdb]
    obtain ⟨rfl, hx⟩ | ⟨-, hview⟩ := update_eq_some hview
    · cases hx
      exact hfound hrow
    · exact h.found hview hrow
  progress := by
    cases h.progress with
    | nothing history db uncommitted =>
      refine .nothing (hhistory.trans history) (hdb.trans db) fun hview => ?_
      obtain ⟨rfl, hx⟩ | ⟨-, hview⟩ := update_eq_some hview
      · cases hx
        exact hcommitted.trans (uncommitted ht)
      · exact uncommitted hview
    | @settled c history db before legal request others =>
      refine .settled (hhistory.trans history) (hdb.trans db) before legal request fun hview => ?_
      obtain ⟨rfl, hx⟩ | ⟨-, hview⟩ := update_eq_some hview
      · cases hx
        refine ⟨fun hdone => (others ht).1 (hcommitted ▸ hdone), fun hholds => ?_⟩
        obtain hholds | hnone := hlock hholds
        · exact (others ht).2 hholds
        · obtain ⟨draws, hrequest⟩ := request
          obtain ⟨-, row, hrow, -⟩ := legal.stored (before ▸ hwhole) hrequest
          rw [db, hrow] at hnone
          cases hnone
      · exact others hview

variable (hwhole : base.db.Whole)
include hwhole

/-- Nothing that the invariant reads has changed. -/
theorem same (h : Duplicates command base s views) (ht : views t = some (r, v))
    (haborted : s'.aborted = []) (hkeys : s'.lockKeys = s.lockKeys) (hissued : s'.issued = s.issued)
    (hhistory : s'.history = s.history) (hdb : s'.db = s.db) :
    Duplicates command base s' (Function.update views t (some (r, v))) :=
  h.view hwhole ht haborted hissued hhistory hdb (hkeys ▸ h.unique) (fun hk => hkeys ▸ h.held ht hk)
    (fun _ hk => hkeys ▸ hk) (fun hrow => h.found ht hrow) rfl .inl

theorem finds (h : Duplicates command base s views) (ht : views t = some (r, v))
    {row : TransactionRow} (hrow : s.db.findByKey command.idempotencyKey = some row) :
    Duplicates command base s (Function.update views t (some (r, { v with found := some row }))) :=
  h.view hwhole ht h.aborted rfl rfl rfl h.unique (fun hk => h.held ht hk) (fun _ => id)
    (fun hsome => hrow.trans hsome) rfl fun hholds => .inl ⟨hholds.uncommitted, hholds.last⟩

theorem acquires (h : Duplicates command base s views) (ht : views t = some (r, v)) {k : String}
    (hfree : s.keyHeld k = false)
    (hlast : command.lastKey = some k → s.db.findByKey command.idempotencyKey = none) :
    Duplicates command base { s with lockKeys := (k, t) :: s.lockKeys }
      (Function.update views t (some (r, { v with keys := k :: v.keys }))) := by
  have hnew : ∀ t', (k, t') ∉ s.lockKeys := by
    intro t' hmem
    have := List.any_eq_false.mp hfree _ hmem
    simp at this
  refine h.view hwhole ht h.aborted rfl rfl rfl (fun h₁ h₂ => ?_) (fun hk => ?_)
    (fun _ => List.mem_cons_of_mem _) (fun hrow => h.found ht hrow) rfl fun hholds => ?_
  · rcases List.mem_cons.mp h₁ with h₁ | h₁ <;> rcases List.mem_cons.mp h₂ with h₂ | h₂
    · cases h₁
      cases h₂
      rfl
    · cases h₁
      exact absurd h₂ (hnew _)
    · cases h₂
      exact absurd h₁ (hnew _)
    · exact h.unique h₁ h₂
  · rcases List.mem_cons.mp hk with rfl | hk
    · exact List.mem_cons_self
    · exact List.mem_cons_of_mem _ (h.held ht hk)
  · obtain ⟨k', hk', hmem⟩ := hholds.last
    rcases List.mem_cons.mp hmem with rfl | hmem
    · exact .inr (hlast hk')
    · exact .inl ⟨hholds.uncommitted, k', hk', hmem⟩

theorem deletes (h : Duplicates command base s views) (ht : views t = some (r, v)) {k : String}
    (hk : k ∈ v.keys) :
    Duplicates command base { s with lockKeys := s.lockKeys.filter fun l => l.1 ≠ k }
      (Function.update views t (some (r, { v with keys := v.keys.filter (· ≠ k) }))) := by
  refine h.view hwhole ht h.aborted rfl rfl rfl (fun h₁ h₂ => ?_) (fun hk' => ?_)
    (fun hne hmem => ?_) (fun hrow => h.found ht hrow) rfl fun hholds => ?_
  · exact h.unique (List.mem_filter.mp h₁).1 (List.mem_filter.mp h₂).1
  · obtain ⟨hmem, hne⟩ := List.mem_filter.mp hk'
    exact List.mem_filter.mpr ⟨h.held ht hmem, by simpa using hne⟩
  · refine List.mem_filter.mpr ⟨hmem, decide_eq_true fun heq => hne ?_⟩
    subst heq
    exact h.unique hmem (h.held ht hk)
  · obtain ⟨k', hk', hmem⟩ := hholds.last
    exact .inl ⟨hholds.uncommitted, k', hk', (List.mem_filter.mp hmem).1⟩

/-- Whoever commits is the first, and nobody else has the lock. -/
theorem commits (h : Duplicates command base s views) (ht : views t = some (r, v))
    (hholds : v.Holds command) {w : Flush} (hw : r.flush base.db.findAccount = .ok w)
    {db : Database} (hdb : s.db.flush w = .ok db) :
    Duplicates command base { s.release t with
        db := db, history := s.history ++ [⟨t, r, s.db, w, db⟩] }
      (Function.update views t (some (r, { v with committed := true }))) := by
  obtain ⟨hhistory, hsame, huncommitted⟩ := h.alone ht hholds
  obtain ⟨⟨draws, rfl⟩, -⟩ := h.request ht
  have hlegal : Commit.Legal ⟨t, .transfer draws command, s.db, w, db⟩ := ⟨hsame ▸ hw, hdb⟩
  obtain ⟨hunused, -⟩ := hlegal.stored (hsame ▸ hwhole) rfl
  exact
    { aborted := by simp [Server.release, h.aborted]
      unique := h.unique
      held := fun hview hk => by
        obtain ⟨rfl, hx⟩ | ⟨-, hview⟩ := update_eq_some hview
        · cases hx
          exact h.held ht hk
        · exact h.held hview hk
      request := fun hview => by
        obtain ⟨rfl, hx⟩ | ⟨-, hview⟩ := update_eq_some hview
        · cases hx
          exact h.request ht
        · exact h.request hview
      ids := h.ids
      found := fun {t' r' v' row} hview hsome => by
        -- the key was not stored before, so nobody has found it
        have hstored : s.db.findByKey command.idempotencyKey = some row := by
          obtain ⟨rfl, hx⟩ | ⟨-, hview⟩ := update_eq_some hview
          · cases hx
            exact h.found ht hsome
          · exact h.found hview hsome
        have hnone := hunused.symm.trans hstored
        cases hnone
      progress := by
        refine .settled (by rw [hhistory]) rfl hsame hlegal ⟨draws, rfl⟩ fun hview => ?_
        obtain ⟨rfl, hx⟩ | ⟨hne, hview⟩ := update_eq_some hview
        · cases hx
          exact ⟨fun _ => rfl, fun hagain => by cases hagain.uncommitted⟩
        · refine ⟨fun hdone => ?_, fun hother => hne ?_⟩
          · rw [huncommitted hview] at hdone
            cases hdone
          · obtain ⟨k, hk, hmem⟩ := hholds.last
            obtain ⟨k', hk', hmem'⟩ := hother.last
            obtain rfl := Option.some.inj (hk.symm.trans hk')
            exact h.unique (h.held hview hmem') (h.held ht hmem) }

/-- An operation that is performed keeps the invariant. -/
theorem serve (h : Duplicates command base s views) (ht : views t = some (r, v)) {o : IoOp}
    {res : o.Res} {Q : o.Res → Duplicate → Prop}
    (htimely : ∀ k, o = .acquireKey k → command.lastKey = some k →
      s.db.findByKey command.idempotencyKey = none)
    (hserve : Server.serve t r o s = some (res, s'))
    (hd : (duplicateContract command r base.db).demand v o Q) :
    ∃ v', Q res v' ∧ Duplicates command base s' (Function.update views t (some (r, v'))) := by
  have hsame : Duplicates command base s (Function.update views t (some (r, v))) :=
    h.same hwhole ht h.aborted rfl rfl rfl rfl
  have hrelease : Duplicates command base (s.release t) (Function.update views t (some (r, v))) :=
    h.same hwhole ht (by simp [Server.release, h.aborted]) rfl rfl rfl rfl
  have hlive : t ∉ s.aborted := by simp [h.aborted]
  cases o with
  | selectAccount id => exact hd.elim
  | selectAccountForUpdate id =>
    obtain ⟨hholds, hQ⟩ := hd
    rw [← (h.alone ht hholds).2.1] at hQ
    simp only [Server.serve, if_neg hlive] at hserve
    cases hfind : s.db.findAccount id with
    | none =>
      simp only [hfind] at hserve hQ
      cases hserve
      exact ⟨v, hQ, hsame⟩
    | some row =>
      simp only [hfind] at hserve hQ
      split_ifs at hserve
      cases hserve
      exact ⟨v, hQ, h.same hwhole ht h.aborted rfl rfl rfl rfl⟩
  | selectTransaction id =>
    obtain ⟨hholds, rfl, hQ⟩ := hd
    have hnone : s.db.findTransaction r.newId = none := by
      rw [(h.alone ht hholds).2.1]
      exact (h.request ht).2
    simp only [Server.serve, if_neg hlive, hnone] at hserve
    cases hserve
    exact ⟨v, hQ, hsame⟩
  | selectTransactionByKey key =>
    obtain ⟨rfl, hnone, hsome⟩ := hd
    simp only [Server.serve, if_neg hlive] at hserve
    cases hfind : s.db.findByKey command.idempotencyKey with
    | none =>
      rw [hfind] at hserve
      cases hserve
      exact ⟨v, hnone, hsame⟩
    | some row =>
      rw [hfind] at hserve
      cases hserve
      exact ⟨_, hsome row, h.finds hwhole ht hfind⟩
  | commit w =>
    obtain ⟨hholds, hw, hrefused, hdone⟩ := hd
    rw [← (h.alone ht hholds).2.1] at hrefused hdone
    simp only [Server.serve, if_neg hlive] at hserve
    cases hdb : s.db.flush w with
    | error e =>
      simp only [hdb] at hserve
      cases hserve
      exact ⟨v, hrefused e hdb, hsame⟩
    | ok db =>
      simp only [hdb] at hserve
      cases hserve
      exact ⟨_, hdone ⟨db, hdb⟩, h.commits hwhole ht hholds hw hdb⟩
  | rollback =>
    cases hserve
    exact ⟨v, hd, hrelease⟩
  | close =>
    cases hserve
    exact ⟨v, hd, hrelease⟩
  | acquireKey k =>
    simp only [Server.serve] at hserve
    split_ifs at hserve with hheld
    cases hserve
    have hfree : s.keyHeld k = false := eq_false_of_ne_true hheld
    have hnew : k ∉ v.keys := by
      intro hmem
      exact hheld (List.any_eq_true.mpr ⟨_, h.held ht hmem, by simp⟩)
    exact ⟨_, hd.2 hnew, h.acquires hwhole ht hfree (htimely k rfl)⟩
  | deleteKey k =>
    cases hserve
    exact ⟨_, hd.2, h.deletes hwhole ht hd.1⟩
  | publishMany events =>
    cases hserve
    exact ⟨v, hd, h.same hwhole ht h.aborted rfl rfl rfl rfl⟩

omit hwhole in
theorem accept (h : Duplicates command base s views) (ht : views t = none)
    (hr : ∃ draws, r = .transfer draws command) (haccept : Server.accept t r s = some s') :
    Duplicates command base s' (Function.update views t (some (r, .start))) := by
  simp only [Server.accept] at haccept
  split_ifs at haccept with hnew
  cases haccept
  exact
    { aborted := h.aborted
      unique := h.unique
      held := fun hview hk => by
        obtain ⟨rfl, hx⟩ | ⟨-, hview⟩ := update_eq_some hview
        · cases hx
          cases hk
        · exact h.held hview hk
      request := fun hview => by
        obtain ⟨rfl, hx⟩ | ⟨-, hview⟩ := update_eq_some hview
        · cases hx
          exact ⟨hr, h.ids hnew⟩
        · exact h.request hview
      ids := fun hid => h.ids fun hmem => hid (List.mem_cons_of_mem _ hmem)
      found := fun hview hsome => by
        obtain ⟨rfl, hx⟩ | ⟨-, hview⟩ := update_eq_some hview
        · cases hx
          cases hsome
        · exact h.found hview hsome
      progress := by
        cases h.progress with
        | nothing history db uncommitted =>
          refine .nothing history db fun hview => ?_
          obtain ⟨rfl, hx⟩ | ⟨-, hview⟩ := update_eq_some hview
          · cases hx
            rfl
          · exact uncommitted hview
        | settled history db before legal request others =>
          refine .settled history db before legal request fun hview => ?_
          obtain ⟨rfl, hx⟩ | ⟨-, hview⟩ := update_eq_some hview
          · cases hx
            refine ⟨fun hdone => (by cases hdone), fun hholds => ?_⟩
            obtain ⟨k, -, hk⟩ := hholds.last
            cases hk
          · exact others hview }

end Duplicates

/-- The key of the command is stored. -/
def TransferCommand.Stored (command : TransferCommand) (db : Database) : Prop :=
  db.findByKey command.idempotencyKey ≠ none

/-- As long as nobody gets the lock of a database that stores the key, duplicates keep the
invariant. -/
def duplicateDiscipline (command : TransferCommand) (base : Server) (hwhole : base.db.Whole) :
    Discipline Server.host (duplicatePolicy command command.Stored) Duplicate where
  contract r := duplicateContract command r base.db
  post r outcome v := Duplicate.Ends r base.db outcome.1 v
  inv := Duplicates command base
  accept h ht hr haccept := by
    have haccepted := h.accept ht hr haccept
    obtain ⟨draws, rfl⟩ := hr
    exact ⟨.start, duplicate_program, haccepted⟩
  answer {t r c o s res s' views v Q} h ht hok hanswer hd := by
    obtain rfl | ⟨rfl, htimely⟩ := hok
    · cases o with
      | acquireKey k =>
        change Server.answer t r .timeout (.acquireKey k) s = some (res, s') at hanswer
        simp only [Server.answer] at hanswer
        split_ifs at hanswer
        cases hanswer
        exact ⟨v, hd.1, h.same hwhole ht h.aborted rfl rfl rfl rfl⟩
      | _ => cases hanswer
    · exact h.serve hwhole ht (fun k ho hlast => not_not.mp (htimely k ho hlast)) hanswer hd
  disturb _ hok := hok.elim

/-! ## Runs of duplicates -/

/-- The server when no request is in flight and no lock key is set. -/
def Server.resting (s : Server) : Server := { s with rowLocks := [], aborted := [], lockKeys := [] }

theorem SystemReachable.resting {p : System} (h : SystemReachable p) :
    Consistent p.shared.resting fun _ => none where
  history := h.serial
  locked h := nomatch h
  exclusive h := nomatch h
  issued h := nomatch h
  distinct h := nomatch h
  unused h := nomatch h
  ids hid := h.unused hid

theorem duplicates_resting {p : System} (h : SystemReachable p) (command : TransferCommand) :
    Duplicates command p.shared.resting p.shared.resting fun _ => none where
  aborted := rfl
  unique h := nomatch h
  held h := nomatch h
  request h := nomatch h
  ids hid := (h.unused hid).2
  found h := nomatch h
  progress := .nothing rfl rfl fun h => nomatch h

namespace Commit.Legal

variable {c : Commit} {draws : TransferDraws} {command : TransferCommand}

/-- Whether a transfer commits does not depend on what it draws. -/
theorem written_of_draws (h : c.Legal) (hwhole : c.before.Whole)
    (hrequest : c.request = .transfer draws command) {draws' : TransferDraws}
    (hnew : c.before.findTransaction draws'.tx.id = none) :
    (command.serial draws' c.before).written ≠ [] := by
  obtain ⟨amount, sender, receiver, stored, _, _, _, _, hfinds, -⟩ := finds_of_legal h hrequest
  have hreaches : command.Reaches c.before amount sender receiver :=
    ⟨hfinds.unused, hfinds.money, hfinds.positive, hfinds.distinct, hfinds.findsSender,
      hfinds.findsReceiver⟩
  have hwritten : (command.serial draws c.before).written = [c.written] := by
    have hserial := h.serial.2
    rw [hrequest] at hserial
    exact hserial
  obtain ⟨_, _, _, _, _, -, -, hrefused⟩ := hreaches.serial hwhole hfinds.new
  have hfits : command.Fits amount sender receiver := by
    by_contra hfits
    rw [hrefused hfits] at hwritten
    cases hwritten
  obtain ⟨_, _, _, _, _, -, hcommits, -⟩ := hreaches.serial hwhole hnew
  obtain ⟨db', hserial, -⟩ := hcommits hfits
  rw [hserial, SerialRun.committed_written]
  exact List.cons_ne_nil _ _

/-- A commit that succeeds stores the row of a completed transfer. -/
theorem completed_of_succeeds (h : c.Legal) (hwhole : c.before.Whole)
    (hrequest : c.request = .transfer draws command) (hsucceeds : c.Succeeds) :
    ∃ amount stored, stored.IsCents amount.cents ∧
      c.after.findByKey command.idempotencyKey =
        some (command.completedRow draws amount stored) := by
  obtain ⟨amount, _, _, stored, _, _, _, _, hc⟩ | ⟨amount, _, _, stored, e, hf⟩ :=
    legal_transfer h hwhole hrequest
  · exact ⟨amount, stored, hc.cents, TransferCommand.found_inserted
      (command.completedRow draws amount stored) hc.unused hc.transactions⟩
  · obtain ⟨row, hrow, hid, hstatus⟩ := hsucceeds
    rw [hf.transactions, List.mem_append, List.mem_singleton] at hrow
    rw [hrequest] at hid
    obtain hrow | rfl := hrow
    · have hmem : draws.tx.id ∈ c.before.transactions.map (·.id) := by
        rw [← show row.id = draws.tx.id from hid]
        exact List.mem_map_of_mem hrow
      exact absurd hmem (Database.findTransaction_eq_none.mp hf.new)
    · cases hstatus

end Commit.Legal

/-- All requests are duplicates, and so are those that have committed since `before`. -/
structure OnlyDuplicates (command : TransferCommand) (before : List Commit) (p : System) :
    Prop where
  threads : ∀ {t r prog}, p.threads t = some (r, prog) → ∃ draws, r = .transfer draws command
  commits : ∃ commits, p.shared.history = before ++ commits ∧
    ∀ c ∈ commits, ∃ draws, c.request = .transfer draws command

namespace OnlyDuplicates

variable {command : TransferCommand} {before : List Commit} {late : Database → Prop}
  {p p' : System} {l : Label RequestId Request Choice Disturbance}

theorem step (h : OnlyDuplicates command before p) (hok : (duplicatePolicy command late).ok p l)
    (hstep : Server.host.step p l = some p') : OnlyDuplicates command before p' where
  threads {t r prog} hthread := by
    cases l with
    | spawn t' r' =>
      simp only [Host.step] at hstep
      split at hstep
      · cases hstep
      · simp only [Option.map_eq_some_iff] at hstep
        obtain ⟨s, -, rfl⟩ := hstep
        obtain ⟨-, hx⟩ | ⟨-, hthread⟩ := update_eq_some hthread
        · cases hx
          exact hok
        · exact h.threads hthread
    | resume t' choice =>
      simp only [Host.step] at hstep
      split at hstep
      · rename_i r' o k hcall
        simp only [Option.map_eq_some_iff] at hstep
        obtain ⟨⟨res, s⟩, -, rfl⟩ := hstep
        obtain ⟨-, hx⟩ | ⟨-, hthread⟩ := update_eq_some hthread
        · cases hx
          exact h.threads hcall
        · exact h.threads hthread
      · cases hstep
    | disturb e => exact absurd hok id
  commits := by
    obtain ⟨commits, hhistory, hcommits⟩ := h.commits
    rcases Server.step_grows hstep with ⟨-, hsame⟩ | ⟨c, _, prog, -, hthread, -, -, hone⟩
    · exact ⟨commits, hsame.trans hhistory, hcommits⟩
    · refine ⟨commits ++ [c], by rw [hone, hhistory, List.append_assoc], fun c' hc' => ?_⟩
      rcases List.mem_append.mp hc' with hc' | hc'
      · exact hcommits c' hc'
      · rw [List.mem_singleton.mp hc']
        exact h.threads hthread

theorem of_run {s : Server} {ls : List (Label RequestId Request Choice Disturbance)}
    (hrun : Run Server.host.step (duplicatePolicy command late).ok (Pool.empty s) ls p) :
    OnlyDuplicates command s.history p := by
  refine hrun.invariant (I := OnlyDuplicates command s.history)
    (fun _ _ _ h hok hstep => h.step hok hstep) ⟨fun hthread => ?_, [], ?_, ?_⟩
  · cases hthread
  · exact (List.append_nil _).symm
  · exact fun c hc => absurd hc List.not_mem_nil

end OnlyDuplicates

/-- A run of duplicates whose key ends up in a COMPLETED transaction has never stored another
one under the key, so that nobody gets the lock of a database that stores the key. -/
theorem run_unstored {p₀ p : System} (h₀ : SystemReachable p₀) {command : TransferCommand}
    {ls : List (Label RequestId Request Choice Disturbance)}
    (hrun : Run Server.host.step (duplicatePolicy command command.Completed).ok
      (Pool.empty p₀.shared.resting) ls p) (hcompleted : command.Completed p.shared.db) :
    Run Server.host.step (duplicatePolicy command command.Stored).ok
      (Pool.empty p₀.shared.resting) ls p := by
  let I := fun p : System => ∃ views, Consistent p.shared views ∧
    rowDiscipline.Tracks p.threads views
  let F := fun p : System => ∀ row, p.shared.db.findByKey command.idempotencyKey = some row →
    row.status = .completed
  have hI : I (Pool.empty p₀.shared.resting) := ⟨_, h₀.resting, fun _ => rfl⟩
  have hF : F p := by
    obtain ⟨row, hrow, hstatus⟩ := hcompleted
    intro row' hrow'
    obtain rfl := Option.some.inj (hrow.symm.trans hrow')
    exact hstatus
  have hstep : ∀ q l q', I q → (duplicatePolicy command command.Completed).ok q l →
      Server.host.step q l = some q' → I q' ∧ (F q' → F q) := by
    intro q l q' hq _ hstep
    obtain ⟨views, hconsistent, htracks⟩ :=
      rowDiscipline.step_sound (Policy.any_ok q l) hstep hq
    exact ⟨⟨views, hconsistent, htracks⟩, fun hF row hrow => hF row
      (Database.findByKey_of_prefix (hconsistent.transactions_prefix hstep) hrow)⟩
  refine (hrun.backwards hstep hI hF).1.mono fun q l h => ?_
  obtain ⟨hok, hcompleted⟩ := h
  cases l with
  | spawn t r => exact hok
  | disturb e => exact hok
  | resume t choice =>
    intro r o k hcall
    obtain htimeout | ⟨hproceed, htimely⟩ := hok r o k hcall
    · exact .inl htimeout
    · refine .inr ⟨hproceed, fun key ho hlast hstored => htimely key ho hlast ?_⟩
      obtain ⟨row, hrow⟩ := Option.ne_none_iff_exists'.mp hstored
      exact ⟨row, hrow, hcompleted row hrow⟩

/-- Duplicates are told the COMPLETED transaction that one of them has committed, or that the
lock is taken, as long as no duplicate gets the lock after the commit. -/
theorem duplicates_answered {p₀ p : System} (h₀ : SystemReachable p₀) {command : TransferCommand}
    {ls : List (Label RequestId Request Choice Disturbance)}
    (hrun : Run Server.host.step (duplicatePolicy command command.Completed).ok
      (Pool.empty p₀.shared.resting) ls p)
    {commits : List Commit} (hhistory : p.shared.history = p₀.shared.history ++ commits)
    {c : Commit} (hc : c ∈ commits) (hsucceeds : c.Succeeds) :
    ∃ row tx, p.shared.db.findByKey command.idempotencyKey = some row ∧
      row.id = c.request.newId ∧ row.status = .completed ∧
      TransactionMapper.toDomain row.load = .ok tx ∧
      ∀ t outcome, t ≠ c.requestId → p.result t = some outcome →
        outcome.1 = .ok (.transaction (TransactionDTO.fromAggregate tx)) ∨
          ∃ k, outcome.1 = .error (Server.lockTimeout k) := by
  have hserial : SerialHistory p₀.shared.db commits p.shared.db := by
    obtain ⟨views, hconsistent, -⟩ := rowDiscipline.sound h₀.resting
      (hrun.mono fun p l _ => Policy.any_ok p l)
    exact SerialHistory.continues (hhistory ▸ hconsistent.history) h₀.serial
  obtain ⟨hlegal, hwhole⟩ := hserial.legal h₀.whole c hc
  obtain ⟨draws, hrequest⟩ : ∃ draws, c.request = .transfer draws command := by
    obtain ⟨commits', hhistory', hduplicates⟩ := (OnlyDuplicates.of_run hrun).commits
    obtain rfl := List.append_cancel_left (hhistory.symm.trans hhistory')
    exact hduplicates c hc
  obtain ⟨amount, stored, hstored, hafter⟩ :=
    hlegal.completed_of_succeeds hwhole hrequest hsucceeds
  have hrow := Database.findByKey_of_prefix (hserial.transactions_prefix h₀.whole hc) hafter
  have hread := TransactionMapper.toDomain_load (r := command.completedRow draws amount stored)
    hstored
  refine ⟨_, _, hrow, by rw [hrequest]; rfl, rfl, hread, fun t outcome hother hresult => ?_⟩
  obtain ⟨views, hduplicates, htracks⟩ :=
    (duplicateDiscipline command p₀.shared.resting h₀.whole).sound (duplicates_resting h₀ command)
      (run_unstored h₀ hrun ⟨_, hrow, rfl⟩)
  obtain ⟨r, v, hview, hends⟩ := htracks.post_of_result hresult
  cases hduplicates.progress with
  | nothing hnone _ _ =>
    have hempty : commits = [] := List.append_cancel_left
      (hhistory.symm.trans (hnone.trans (List.append_nil _).symm))
    rw [hempty] at hc
    cases hc
  | @settled c' hone _ hbefore _ _ hothers =>
    obtain rfl : c = c' := by
      have hsingle : commits = [c'] := List.append_cancel_left (hhistory.symm.trans hone)
      rw [hsingle] at hc
      exact List.mem_singleton.mp hc
    obtain ⟨⟨draws', rfl⟩, hnew⟩ := hduplicates.request hview
    obtain ⟨row, hfound, houtcome⟩ | htimeout | hcommitted | hwritten := hends
    · obtain rfl := Option.some.inj (hrow.symm.trans (hduplicates.found hview hfound))
      rw [houtcome, hread]
      exact .inl rfl
    · exact .inr htimeout
    · exact absurd ((hothers hview).1 hcommitted) hother
    · rw [← hbefore] at hnew hwritten
      exact absurd hwritten (hlegal.written_of_draws hwhole hrequest hnew)

instance (command : TransferCommand) (db : Database) : Decidable (command.Completed db) :=
  decidable_of_iff ((db.findByKey command.idempotencyKey).any fun row => row.status = .completed)
    (by simp [TransferCommand.Completed, Option.any_eq_true])

namespace Sample

/-- `duplicatePolicy`, evaluated. -/
def isDuplicate (command : TransferCommand) (late : Database → Prop) [DecidablePred late]
    (p : System) : Label RequestId Request Choice Disturbance → Bool
  | .spawn _ (.transfer _ c) => c = command
  | .resume _ .timeout => true
  | .resume t .proceed =>
    match p.threads t with
    | some (_, .call (.acquireKey k) _) => command.lastKey ≠ some k || !decide (late p.shared.db)
    | _ => true
  | _ => false

theorem isDuplicate_sound {command : TransferCommand} {late : Database → Prop}
    [DecidablePred late] (p : System) (l : Label RequestId Request Choice Disturbance)
    (h : isDuplicate command late p l = true) : (duplicatePolicy command late).ok p l := by
  unfold isDuplicate at h
  split at h
  · exact ⟨_, by rw [of_decide_eq_true h]⟩
  · exact fun _ _ _ _ => .inl rfl
  · rename_i t
    intro r o next hthread
    refine .inr ⟨rfl, ?_⟩
    rintro k rfl hlast hlate
    simp [hthread, hlast, hlate] at h
  · cases h

/-- `n` operations of a request. -/
def resumes (t : RequestId) (n : ℕ) : List (Label RequestId Request Choice Disturbance) :=
  List.replicate n (.resume t .proceed)

/-- Three requests with the same command arrive. -/
def duplicates : List (Label RequestId Request Choice Disturbance) :=
  [.spawn 0 (.transfer (draws 3) command), .spawn 1 (.transfer (draws 4) command),
    .spawn 2 (.transfer (draws 5) command)]

/-- Request 0 transfers. Meanwhile request 1 is refused the lock, and request 2 comes later. -/
def inTurn : List (Label RequestId Request Choice Disturbance) :=
  duplicates ++ resumes 1 2 ++ resumes 0 3 ++ [.resume 1 .timeout] ++ resumes 0 11 ++ resumes 2 2

def answered : System :=
  replay (checked (isDuplicate command command.Completed) Server.host.step)
    (Pool.empty opened.shared.resting) inTurn (by decide +kernel)

theorem answered_run :
    Run Server.host.step (duplicatePolicy command command.Completed).ok
      (Pool.empty opened.shared.resting) inTurn answered := run_replay isDuplicate_sound _

/-- Request 1 looks the key up before request 0 transfers, and gets the lock afterwards. -/
def tooLate : List (Label RequestId Request Choice Disturbance) :=
  duplicates ++ resumes 1 2 ++ resumes 0 14 ++ resumes 1 13

def overtaken : System :=
  replay (checked (isDuplicate command fun _ => False) Server.host.step)
    (Pool.empty opened.shared.resting) tooLate (by decide +kernel)

theorem overtaken_run :
    Run Server.host.step (duplicatePolicy command fun _ => False).ok
      (Pool.empty opened.shared.resting) tooLate overtaken := run_replay isDuplicate_sound _

theorem one_commit {ok : System → Label RequestId Request Choice Disturbance → Prop}
    {ls : List (Label RequestId Request Choice Disturbance)} {p : System}
    (hrun : Run Server.host.step ok (Pool.empty opened.shared.resting) ls p)
    (hlength : p.shared.history.length = opened.shared.history.length + 1)
    (hmade : ∀ c ∈ p.shared.history.drop opened.shared.history.length,
      c.Succeeds ∧ c.requestId = 0) :
    ∃ c, p.shared.history = opened.shared.history ++ [c] ∧ c.Succeeds ∧ c.requestId = 0 := by
  obtain ⟨commits, hhistory, -⟩ := history_of_run hrun
  change p.shared.history = opened.shared.history ++ commits at hhistory
  rw [hhistory, List.length_append] at hlength
  rw [hhistory, List.drop_left] at hmade
  obtain ⟨c, rfl⟩ := List.length_eq_one_iff.mp (Nat.add_left_cancel hlength)
  exact ⟨c, hhistory, hmade c (List.mem_singleton_self c)⟩

end Sample

theorem duplicates_answered_sample :
    ∃ c, Sample.answered.shared.history = Sample.opened.shared.history ++ [c] ∧
      c.requestId = 0 ∧ ∃ row tx,
        Sample.answered.shared.db.findByKey Sample.command.idempotencyKey = some row ∧
        row.id = c.request.newId ∧ row.status = .completed ∧
        TransactionMapper.toDomain row.load = .ok tx ∧
        ∀ t outcome, t ≠ c.requestId → Sample.answered.result t = some outcome →
          outcome.1 = .ok (.transaction (TransactionDTO.fromAggregate tx)) ∨
            ∃ k, outcome.1 = .error (Server.lockTimeout k) := by
  obtain ⟨c, hhistory, hsucceeds, ht⟩ :=
    Sample.one_commit Sample.answered_run (by decide +kernel) (by decide +kernel)
  exact ⟨c, hhistory, ht, duplicates_answered Sample.opened_reachable Sample.answered_run hhistory
    (List.mem_singleton_self c) hsucceeds⟩

/-- A duplicate that gets the lock too late ends in an exception of the database. -/
theorem overtaken_duplicate :
    Run Server.host.step (duplicatePolicy Sample.command fun _ => False).ok
        (Pool.empty Sample.opened.shared.resting) Sample.tooLate Sample.overtaken ∧
      (∃ c, Sample.overtaken.shared.history = Sample.opened.shared.history ++ [c] ∧
        c.Succeeds ∧ c.requestId = 0) ∧
      (Sample.overtaken.result 1).map (·.1) = some (.error .integrityError) :=
  ⟨Sample.overtaken_run, Sample.one_commit Sample.overtaken_run (by decide +kernel)
    (by decide +kernel), by decide +kernel⟩

end BankingTransactions
