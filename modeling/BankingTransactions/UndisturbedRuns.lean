import BankingTransactions.DuplicateRequests
import BankingTransactions.LockGrips
import BankingTransactions.RequestBudgets
import BankingTransactions.RowDeadlocks

/-!
# Undisturbed runs

No operation fails, no key expires and nothing is aborted. Then the row locks are never waited
for, because whoever has locked a row has also set the key of its account; a key is waited for
only while a request that is not finished has set it, and for no longer than the request cares
to; and a finished request has left nothing behind. The other two waits, of an INSERT for an open
transaction with an equal key and of a request for a free connection, are not told of: they
leave out runs, and what is shown here is shown of every run.
-/
namespace BankingTransactions
open DecimalArithmetic InteractionPrograms ThreadPools

/-- Every operation is performed, or a request gives up on a key. -/
def undisturbed : Policy RequestId Server Request Choice Disturbance IoOp where
  accept _ _ _ := True
  answer _ _ c _ _ := c = .proceed ∨ c = .timeout
  disturb _ _ := False

/-- The keys that are set are those in the grips of the requests, each in one grip only, and the
rows that are locked are those of requests that have set the keys of both their accounts. -/
structure Gripped (s : Server) (views : RequestId → Option (Request × Grip)) : Prop where
  aborted : s.aborted = []
  keys : ∀ {k t}, (k, t) ∈ s.lockKeys ↔ ∃ r v, views t = some (r, v) ∧ k ∈ v.keys
  unique : ∀ {k t t'}, (k, t) ∈ s.lockKeys → (k, t') ∈ s.lockKeys → t = t'
  rows : ∀ {id t}, (id, t) ∈ s.rowLocks →
    ∃ r v, views t = some (r, v) ∧ v.inside = true ∧ r.Names id
  guarded : ∀ {t r v}, views t = some (r, v) → v.inside = true → ∀ k ∈ r.keys, k ∈ v.keys

namespace Gripped

variable {s s' : Server} {views : RequestId → Option (Request × Grip)} {t : RequestId}
  {r : Request} {v w : Grip}

theorem resting (s : Server) : Gripped s.resting fun _ => none where
  aborted := rfl
  keys := by simp [Server.resting]
  unique h := by cases h
  rows h := by cases h
  guarded h := by cases h

theorem mem_keys (h : Gripped s views) (ht : views t = some (r, v)) {k : String} :
    (k, t) ∈ s.lockKeys ↔ k ∈ v.keys := by
  rw [h.keys]
  constructor
  · rintro ⟨r', v', hview, hk⟩
    rw [ht] at hview
    cases hview
    exact hk
  · exact fun hk => ⟨r, v, ht, hk⟩

theorem mem_rows (h : Gripped s views) (ht : views t = some (r, v)) {id : AccountId}
    (hmem : (id, t) ∈ s.rowLocks) : v.inside = true ∧ r.Names id := by
  obtain ⟨r', v', hview, hrest⟩ := h.rows hmem
  rw [ht] at hview
  cases hview
  exact hrest

/-- Whoever has set the key of an account locks its row at once. -/
theorem lockedByOther_eq_false (h : Gripped s views) (ht : views t = some (r, v))
    {id : AccountId} (hkey : RedisLockManager.lockKey id.str ∈ v.keys) :
    s.lockedByOther t id = false := by
  rw [Server.lockedByOther, List.any_eq_false]
  rintro ⟨id', t'⟩ hmem hother
  obtain ⟨rfl, hne⟩ : id' = id ∧ t' ≠ t := by simpa using hother
  obtain ⟨r', v', hview, hinside, hnames⟩ := h.rows hmem
  have hheld := (h.mem_keys hview).mpr (h.guarded hview hinside _ hnames.mem_keys)
  exact hne (h.unique hheld ((h.mem_keys ht).mpr hkey))

/-- The grip of one request changes, and with it what that request holds. -/
theorem view (h : Gripped s views) (ht : views t = some (r, v)) (haborted : s'.aborted = [])
    (hothers : ∀ {k t'}, t' ≠ t → ((k, t') ∈ s'.lockKeys ↔ (k, t') ∈ s.lockKeys))
    (hkeys : ∀ {k}, (k, t) ∈ s'.lockKeys ↔ k ∈ w.keys)
    (hfree : ∀ {k t'}, k ∈ w.keys → (k, t') ∈ s.lockKeys → t' = t)
    (hrows : ∀ {id t'}, t' ≠ t → (id, t') ∈ s'.rowLocks → (id, t') ∈ s.rowLocks)
    (hown : ∀ {id}, (id, t) ∈ s'.rowLocks → w.inside = true ∧ r.Names id)
    (hguarded : w.inside = true → ∀ k ∈ r.keys, k ∈ w.keys) :
    Gripped s' (Function.update views t (some (r, w))) where
  aborted := haborted
  keys {k t'} := by
    by_cases hne : t' = t
    · subst hne
      simp [hkeys]
    · rw [Function.update_of_ne hne, hothers hne, h.keys]
  unique {k t₁ t₂} h₁ h₂ := by
    by_cases hne₁ : t₁ = t <;> by_cases hne₂ : t₂ = t
    · rw [hne₁, hne₂]
    · subst hne₁
      exact (hfree (hkeys.mp h₁) ((hothers hne₂).mp h₂)).symm
    · subst hne₂
      exact hfree (hkeys.mp h₂) ((hothers hne₁).mp h₁)
    · exact h.unique ((hothers hne₁).mp h₁) ((hothers hne₂).mp h₂)
  rows {id t'} hmem := by
    by_cases hne : t' = t
    · subst hne
      exact ⟨r, w, Function.update_self .., hown hmem⟩
    · rw [Function.update_of_ne hne]
      exact h.rows (hrows hne hmem)
  guarded hview hinside := by
    obtain ⟨rfl, hx⟩ | ⟨-, hview⟩ := update_eq_some hview
    · cases hx
      exact hguarded hinside
    · exact h.guarded hview hinside

/-- What the request holds stays as it is. -/
theorem unchanged (h : Gripped s views) (ht : views t = some (r, v)) (haborted : s'.aborted = [])
    (hkeys : s'.lockKeys = s.lockKeys) (hrows : s'.rowLocks = s.rowLocks) :
    Gripped s' (Function.update views t (some (r, v))) := by
  refine h.view ht haborted (fun _ => by rw [hkeys]) ?_ (fun hk hmem => ?_)
    (fun _ hmem => hrows ▸ hmem) (fun hmem => h.mem_rows ht (hrows ▸ hmem)) (h.guarded ht)
  · rw [hkeys]
    exact h.mem_keys ht
  · exact h.unique hmem ((h.mem_keys ht).mpr hk)

/-- The database transaction ends. -/
theorem leave (h : Gripped s views) (ht : views t = some (r, v)) (haborted : s'.aborted = [])
    (hkeys : s'.lockKeys = s.lockKeys)
    (hrows : s'.rowLocks = s.rowLocks.filter fun l => l.2 ≠ t) :
    Gripped s' (Function.update views t (some (r, v.leave))) := by
  refine h.view ht haborted (fun _ => by rw [hkeys]) ?_ (fun hk hmem => ?_) (fun _ hmem => ?_)
    (fun hmem => ?_) fun h => by cases h
  · rw [hkeys]
    exact h.mem_keys ht
  · exact h.unique hmem ((h.mem_keys ht).mpr hk)
  · rw [hrows] at hmem
    exact (List.mem_filter.mp hmem).1
  · simp [hrows] at hmem

/-- A row is locked. -/
theorem enter (h : Gripped s views) (ht : views t = some (r, v)) {id : AccountId}
    (hid : r.Names id) (hheld : ∀ k ∈ r.keys, k ∈ v.keys) :
    Gripped { s with rowLocks := (id, t) :: s.rowLocks }
      (Function.update views t (some (r, v.enter))) := by
  refine h.view ht h.aborted (fun _ => .rfl) (h.mem_keys ht) (fun hk hmem => ?_)
    (fun hne hmem => ?_) (fun hmem => ⟨rfl, ?_⟩) fun _ => hheld
  · exact h.unique hmem ((h.mem_keys ht).mpr hk)
  · rcases List.mem_cons.mp hmem with heq | hmem
    · cases heq
      exact absurd rfl hne
    · exact hmem
  · rcases List.mem_cons.mp hmem with heq | hmem
    · cases heq
      exact hid
    · exact (h.mem_rows ht hmem).2

theorem acquire (h : Gripped s views) (ht : views t = some (r, v)) {k : String}
    (hfree : s.keyHeld k = false) :
    Gripped { s with lockKeys := (k, t) :: s.lockKeys }
      (Function.update views t (some (r, { v with keys := insert k v.keys }))) := by
  have hnew : ∀ t', (k, t') ∉ s.lockKeys := by
    intro t' hmem
    have := List.any_eq_false.mp hfree _ hmem
    simp at this
  refine h.view ht h.aborted (fun hne => by simp [hne]) ?_ (fun hk hmem => ?_)
    (fun _ hmem => hmem) (h.mem_rows ht) fun hinside k' hk' => ?_
  · intro k'
    rw [List.mem_cons, Prod.mk.injEq, Finset.mem_insert, ← h.mem_keys ht]
    simp
  · rcases Finset.mem_insert.mp hk with rfl | hk
    · exact absurd hmem (hnew _)
    · exact h.unique hmem ((h.mem_keys ht).mpr hk)
  · exact Finset.mem_insert_of_mem (h.guarded ht hinside k' hk')

/-- A request deletes a key that it has set. -/
theorem delete (h : Gripped s views) (ht : views t = some (r, v)) {k : String} (hk : k ∈ v.keys)
    (hv : v.inside = false) :
    Gripped { s with lockKeys := s.lockKeys.filter fun l => l.1 ≠ k }
      (Function.update views t (some (r, { v with keys := v.keys.erase k }))) := by
  have hmine := (h.mem_keys ht).mpr hk
  refine h.view ht h.aborted (fun {k' t'} hne => ?_) ?_ (fun hk' hmem => ?_)
    (fun _ hmem => hmem) (h.mem_rows ht) fun hinside => ?_
  · simp only [List.mem_filter, decide_eq_true_eq, and_iff_left_iff_imp]
    rintro hmem rfl
    exact hne (h.unique hmem hmine)
  · intro k'
    rw [List.mem_filter, h.mem_keys ht, Finset.mem_erase, decide_eq_true_eq, and_comm]
  · exact h.unique hmem ((h.mem_keys ht).mpr (Finset.mem_of_mem_erase hk'))
  · rw [hv] at hinside
    cases hinside

/-- A request that arrives holds nothing. -/
theorem accept (h : Gripped s views) (ht : views t = none)
    (haccept : Server.accept t r s = some s') :
    Gripped s' (Function.update views t (some (r, .empty))) := by
  simp only [Server.accept] at haccept
  split_ifs at haccept
  cases haccept
  have hnokey : ∀ k, (k, t) ∉ s.lockKeys := by
    intro k hmem
    obtain ⟨_, _, hview, -⟩ := h.keys.mp hmem
    rw [ht] at hview
    cases hview
  have hnorow : ∀ id, (id, t) ∉ s.rowLocks := by
    intro id hmem
    obtain ⟨_, _, hview, -⟩ := h.rows hmem
    rw [ht] at hview
    cases hview
  refine ⟨h.aborted, fun {k t'} => ?_, h.unique, fun {id t'} hmem => ?_, fun hview hinside => ?_⟩
  · by_cases hne : t' = t
    · subst hne
      simp [hnokey, Grip.empty]
    · rw [Function.update_of_ne hne]
      exact h.keys
  · have hne : t' ≠ t := by
      rintro rfl
      exact hnorow id hmem
    rw [Function.update_of_ne hne]
    exact h.rows hmem
  · obtain ⟨-, hx⟩ | ⟨-, hview⟩ := update_eq_some hview
    · cases hx
      cases hinside
    · exact h.guarded hview hinside

/-- An operation that is performed is performed within the grip of its request. -/
theorem serve {o : IoOp} {res : o.Res} {Q : o.Res → Grip → Prop} (h : Gripped s views)
    (ht : views t = some (r, v)) (hserve : Server.serve t r o s = some (res, s'))
    (hnames : NamesRows r v o) (hd : (gripContract r).demand v o Q) :
    ∃ w, Q res w ∧ Gripped s' (Function.update views t (some (r, w))) := by
  have hab : t ∉ s.aborted := by simp [h.aborted]
  have hreleased : (s.release t).aborted = [] := by simp [Server.release, h.aborted]
  cases o with
  | selectAccount id =>
    simp only [Server.serve, if_neg hab] at hserve
    cases hserve
    exact ⟨v, hd _, h.unchanged ht h.aborted rfl rfl⟩
  | selectTransaction id =>
    simp only [Server.serve, if_neg hab] at hserve
    cases hserve
    exact ⟨v, hd _, h.unchanged ht h.aborted rfl rfl⟩
  | selectTransactionByKey key =>
    simp only [Server.serve, if_neg hab] at hserve
    cases hserve
    exact ⟨v, hd _, h.unchanged ht h.aborted rfl rfl⟩
  | selectAccountForUpdate id =>
    obtain ⟨hheld, hnone, hsome⟩ := hd
    simp only [Server.serve, if_neg hab] at hserve
    split at hserve
    · cases hserve
      exact ⟨v, hnone, h.unchanged ht h.aborted rfl rfl⟩
    · rename_i row hrow
      split_ifs at hserve
      cases hserve
      exact ⟨v.enter, hsome row (Database.findAccount_eq_some.mp hrow).2,
        h.enter ht (hnames id rfl) hheld⟩
  | commit w =>
    simp only [Server.serve, if_neg hab] at hserve
    split at hserve
    · cases hserve
      exact ⟨v, hd.1 _, h.unchanged ht h.aborted rfl rfl⟩
    · cases hserve
      exact ⟨v.leave, hd.2, h.leave ht hreleased rfl rfl⟩
  | rollback =>
    cases hserve
    exact ⟨v.leave, hd, h.leave ht hreleased rfl rfl⟩
  | close =>
    cases hserve
    exact ⟨v.leave, hd, h.leave ht hreleased rfl rfl⟩
  | acquireKey k =>
    simp only [Server.serve] at hserve
    split_ifs at hserve with hheld
    cases hserve
    have hfree : s.keyHeld k = false := by simpa using hheld
    have hk : k ∉ v.keys := by
      intro hk
      have := List.any_eq_false.mp hfree _ ((h.mem_keys ht).mpr hk)
      simp at this
    exact ⟨_, hd.2 hk, h.acquire ht hfree⟩
  | deleteKey k =>
    cases hserve
    exact ⟨_, hd.2.2, h.delete ht hd.1 hd.2.1⟩
  | publishMany events =>
    cases hserve
    exact ⟨v, hd, h.unchanged ht h.aborted rfl rfl⟩

theorem answer {choice : Choice} {o : IoOp} {res : o.Res} {Q : o.Res → Grip → Prop}
    (h : Gripped s views) (ht : views t = some (r, v))
    (hchoice : choice = .proceed ∨ choice = .timeout)
    (hanswer : Server.answer t r choice o s = some (res, s'))
    (hd : ((gripContract r).requiring (NamesRows r)).demand v o Q) :
    ∃ w, Q res w ∧ Gripped s' (Function.update views t (some (r, w))) := by
  obtain ⟨hnames, hd⟩ := hd
  rcases hchoice with rfl | rfl
  · exact h.serve ht hanswer hnames hd
  · cases o with
    | acquireKey k =>
      simp only [Server.answer] at hanswer
      split_ifs at hanswer
      cases hanswer
      exact ⟨v, hd.1, h.unchanged ht h.aborted rfl rfl⟩
    | _ => cases hanswer

end Gripped

def gripDiscipline : Discipline Server.host undisturbed Grip where
  contract r := (gripContract r).requiring (NamesRows r)
  post _ _ v := v = .empty
  inv := Gripped
  accept h ht _ haccept := ⟨.empty, grip_names _, h.accept ht haccept⟩
  answer h ht hchoice hanswer hd := h.answer ht hchoice hanswer hd
  disturb _ hok := hok.elim

/-! ## Who waits, and for how long -/

/-- The request has arrived and is not finished. -/
def Unfinished (p : System) (t : RequestId) : Prop := p.threads t ≠ none ∧ p.result t = none

/-- Nobody waits for a row lock, a key is refused only while a request that is not finished has
set it, nobody makes more than twenty steps, and who is finished owns nothing. -/
structure Orderly (ls : List (Label RequestId Request Choice Disturbance)) (p : System) :
    Prop where
  rows : ∀ t id, ¬ WaitsRow p t id
  keys : ∀ t k, Refused p t k → ∃ holder, OwnsKey p k holder ∧ Unfinished p holder
  steps : ∀ t, stepsOf t ls ≤ 20
  clean : ∀ t, p.result t ≠ none → (∀ id, ¬ OwnsRow p id t) ∧ ∀ k, ¬ OwnsKey p k t

namespace Gripped

variable {p : System} {views : RequestId → Option (Request × Grip)}
  (h : Gripped p.shared views) (htracks : gripDiscipline.Tracks p.threads views)
include h htracks

/-- A row that a request asks for is locked at once. -/
theorem not_waitsRow (t : RequestId) (id : AccountId) : ¬ WaitsRow p t id := by
  rintro ⟨r, next, hthread, hwaits⟩
  have ht := htracks t
  rw [hthread] at ht
  obtain ⟨v, hview, hnames, hd⟩ := ht
  have hab : t ∉ p.shared.aborted := by simp [h.aborted]
  have hkey := hd.1 _ (hnames id rfl).mem_keys
  simp only [Server.serve, if_neg hab, h.lockedByOther_eq_false hview hkey] at hwaits
  split at hwaits <;> cases hwaits

/-- Who has set a key is not finished. -/
theorem holder {k : String} (hheld : p.shared.keyHeld k = true) :
    ∃ holder, OwnsKey p k holder ∧ Unfinished p holder := by
  obtain ⟨⟨k', holder⟩, hmem, hk⟩ := List.any_eq_true.mp hheld
  obtain rfl : k' = k := by simpa using hk
  obtain ⟨r, v, hview, hkey⟩ := h.keys.mp hmem
  obtain ⟨program, hthread⟩ := htracks.thread hview
  refine ⟨holder, hmem, by simp [hthread], ?_⟩
  rw [Option.eq_none_iff_forall_ne_some]
  intro out hout
  obtain ⟨r', v', hview', rfl⟩ := htracks.post_of_result hout
  rw [hview] at hview'
  cases hview'
  exact absurd hkey (Finset.notMem_empty _)

theorem clean {t : RequestId} (ht : p.result t ≠ none) :
    (∀ id, ¬ OwnsRow p id t) ∧ ∀ k, ¬ OwnsKey p k t := by
  obtain ⟨out, hout⟩ := Option.ne_none_iff_exists'.mp ht
  obtain ⟨r, v, hview, rfl⟩ := htracks.post_of_result hout
  constructor
  · intro id howns
    exact absurd (h.mem_rows hview howns).1 (by simp [Grip.empty])
  · intro k howns
    exact absurd ((h.mem_keys hview).mp howns) (Finset.notMem_empty _)

end Gripped

/-- When nothing fails the keys keep the rows from being waited for, however many requests there
are, whatever they ask for and however they are interleaved. -/
theorem undisturbed_orderly {s : Server}
    {ls : List (Label RequestId Request Choice Disturbance)} {p : System}
    (hrun : Run Server.host.step undisturbed.ok (Pool.empty s.resting) ls p) : Orderly ls p := by
  obtain ⟨views, hgripped, htracks⟩ := gripDiscipline.sound (Gripped.resting s) hrun
  constructor
  · exact hgripped.not_waitsRow htracks
  · rintro t k ⟨hheld, -⟩
    exact hgripped.holder htracks hheld
  · exact fun t => hrun.steps_le Request.within t
  · exact fun t => hgripped.clean htracks

/-- A step in which nothing is given up. -/
def proceeds : Label RequestId Request Choice Disturbance → Bool
  | .spawn _ _ => true
  | .resume _ .proceed => true
  | _ => false

theorem undisturbed_of_proceeds {l : Label RequestId Request Choice Disturbance}
    (h : proceeds l = true) (p : System) : undisturbed.ok p l := by
  cases l with
  | spawn t r => exact trivial
  | resume t choice =>
    cases choice with
    | proceed => exact fun _ _ _ _ => .inl rfl
    | _ => cases h
  | disturb d => cases h

/-- One request is refused on a key of another one. -/
theorem undisturbed_orderly_sample :
    Refused Sample.contended 3 (RedisLockManager.lockKey (UUID.str 1)) ∧
      Orderly (Sample.openings "EUR" ++
        Sample.served 2 (.transfer (Sample.draws 3) Sample.command) 4 ++
        Sample.served 3 (.transfer (Sample.draws 4) Sample.reply) 2) Sample.contended := by
  have hproceeds : (Sample.openings "EUR" ++
      Sample.served 2 (.transfer (Sample.draws 3) Sample.command) 4 ++
      Sample.served 3 (.transfer (Sample.draws 4) Sample.reply) 2).all proceeds = true := rfl
  refine ⟨refused_sound (by decide +kernel), undisturbed_orderly (s := .quiet .empty) ?_⟩
  exact (run_of_replay _).of_labels fun l hl p =>
    undisturbed_of_proceeds (List.all_eq_true.mp hproceeds l hl) p

end BankingTransactions
