import BankingTransactions.SteadyCode
import BankingTransactions.Server
import BankingTransactions.WaitGraphs
import Mathlib.Data.String.Basic

/-!
# The order of the lock keys

What a request has set in Redis and not yet deleted, followed through every failure.
`keyContract` demands that a request asks for its keys in ascending order. Everything
else that a request does leaves the keys alone, so only the lock manager has to be
looked at. The owners of keys are then ranked by what they wait for, and no cycle of
waiting requests can form.
-/
namespace BankingTransactions
open DecimalArithmetic InteractionPrograms ThreadPools WaitGraphs

/-- Code that performs no operation of the lock manager and keeps its list of keys. -/
abbrev KeepsKeys {α : Type} (x : SqlTask α) : Prop :=
  Steady (fun o => o.isLockOp = false) (fun p p' => p'.adapters.acquired = p.adapters.acquired) x

instance : Neutral (fun o => o.isLockOp = false)
    (fun p p' : Process SqlState => p'.adapters.acquired = p.adapters.acquired) where
  refl _ := rfl
  trans _ _ _ h h' := h'.trans h
  operation h _ := h
  change := id

/-! ## The keys of a request -/

/-- What a request may do with lock keys. The view holds every key that it may have set and
not deleted. When Redis is `faulty` a failing SET may have taken effect and a deletion may
not have been executed. -/
def keyContract (faulty : Prop) : Contract IoOp IoOp.Res (List String) where
  demand v
    | .acquireKey k, Q => (∀ k' ∈ v, k' ≤ k) ∧ Q (.ok ()) (k :: v) ∧
        ∀ e, Q (.error e) v ∧ (faulty → Q (.error e) (k :: v))
    | .deleteKey k, Q => Q (.ok ()) (v.filter (· ≠ k)) ∧
        ∀ e, (faulty ∨ e.isException = true → Q (.error e) (v.filter (· ≠ k))) ∧
          (faulty → Q (.error e) v)
    | _, Q => ∀ r, Q r v
  mono {v o Q Q'} h hQ := by
    cases o with
    | acquireKey k =>
      exact ⟨hQ.1, h _ _ hQ.2.1, fun e =>
        ⟨h _ _ (hQ.2.2 e).1, fun hf => h _ _ ((hQ.2.2 e).2 hf)⟩⟩
    | deleteKey k =>
      exact ⟨h _ _ hQ.1, fun e =>
        ⟨fun hf => h _ _ ((hQ.2 e).1 hf), fun hf => h _ _ ((hQ.2 e).2 hf)⟩⟩
    | _ => exact fun r => h _ _ (hQ r)

section Keys

variable {faulty : Prop} {α : Type}

theorem keyContract_ignores (v : List String) :
    (keyContract faulty).Ignores v fun o => o.isLockOp = false := by
  intro o Q ho hQ
  cases o with
  | acquireKey k => cases ho
  | deleteKey k => cases ho
  | _ => exact hQ

/-- Steady code changes neither the keys nor what is known of them. -/
theorem wp_steady {x : SqlTask α} (hx : KeepsKeys x)
    {Q : Except Exn α → Process SqlState → List String → Prop} {p : Process SqlState}
    {v : List String} (hQ : ∀ r p', p'.adapters.acquired = p.adapters.acquired → Q r p' v) :
    Task.wp (keyContract faulty) x Q p v := by
  refine Task.wp_mono (fun r p' v' h => ?_) (Task.wp_of_ignores (keyContract_ignores v) (hx p))
  obtain ⟨hacquired, rfl⟩ := h
  exact hQ r p' hacquired

/-- Every key in the view is known to the process. -/
def KeysKnown (faulty : Prop) (p : Process SqlState) (v : List String) : Prop :=
  ¬ faulty → ∀ k ∈ v, k ∈ p.adapters.acquired

/-- Ascending keys that are not below the keys already set are acquired in order. -/
theorem wp_acquireAll {keys : List String} (hsorted : keys.Pairwise fun k k' =>
      RedisLockManager.lockKey k ≤ RedisLockManager.lockKey k')
    {Q : Except Exn Unit → Process SqlState → List String → Prop} {p : Process SqlState}
    {v : List String} (hbelow : ∀ k' ∈ v, ∀ k ∈ keys, k' ≤ RedisLockManager.lockKey k)
    (hknown : KeysKnown faulty p v)
    (hQ : ∀ r p' v', KeysKnown faulty p' v' → Q r p' v') :
    Task.wp (keyContract faulty) (RedisLockManager.acquireAll keys) Q p v := by
  induction keys generalizing p v with
  | nil =>
    rw [RedisLockManager.acquireAll, Task.wp_pure]
    exact hQ _ _ _ hknown
  | cons key keys ih =>
    obtain ⟨hkey, hsorted⟩ := List.pairwise_cons.mp hsorted
    rw [RedisLockManager.acquireAll, Task.wp_bind, wp_exec]
    refine ⟨fun k' hk' => hbelow k' hk' key List.mem_cons_self, ?_, fun e => ⟨?_, fun hf => ?_⟩⟩
    · simp only
      rw [Task.wp_bind, wp_modifyAdapters]
      refine ih hsorted (fun k' hk' k hk => ?_) (fun hf k' hk' => ?_)
      · rcases List.mem_cons.mp hk' with rfl | hk'
        · exact hkey k hk
        · exact hbelow k' hk' k (List.mem_cons_of_mem _ hk)
      · rcases List.mem_cons.mp hk' with rfl | hk'
        · simp
        · simp [hknown hf k' hk']
    · exact hQ _ _ _ hknown
    · exact hQ _ _ _ fun hnot => absurd hf hnot

theorem wp_releaseAll (keys : List String)
    {Q : Except Exn Unit → Process SqlState → List String → Prop} {p : Process SqlState}
    {v : List String}
    (hQ : ∀ r v', (¬ faulty → r = .ok () ∧ ∀ k ∈ v', k ∈ v ∧ k ∉ keys) → Q r p v') :
    Task.wp (keyContract faulty) (RedisLockManager.releaseAll keys) Q p v := by
  induction keys generalizing v with
  | nil =>
    rw [RedisLockManager.releaseAll, Task.wp_pure]
    exact hQ _ _ fun _ => ⟨rfl, fun k hk => ⟨hk, List.not_mem_nil⟩⟩
  | cons key keys ih =>
    have hnext : ∀ v', (¬ faulty → ∀ k ∈ v', k ∈ v ∧ k ≠ key) →
        Task.wp (keyContract faulty) (RedisLockManager.releaseAll keys) Q p v' := by
      intro v' hv'
      refine ih fun r v'' h => hQ r v'' fun hf => ?_
      obtain ⟨hr, hv''⟩ := h hf
      refine ⟨hr, fun k hk => ?_⟩
      obtain ⟨hmem, hrest⟩ := hv'' k hk
      obtain ⟨hmem, hne⟩ := hv' hf k hmem
      exact ⟨hmem, by simp [hne, hrest]⟩
    have hdeleted : ∀ k ∈ v.filter (· ≠ key), k ∈ v ∧ k ≠ key := by simp
    rw [RedisLockManager.releaseAll, Task.wp_bind, wp_safeRelease]
    refine ⟨hnext _ fun _ => hdeleted, fun e => ⟨fun hok => ?_, fun hf => ?_⟩⟩
    · cases he : e.isException with
      | true => simpa [he] using hnext _ fun _ => hdeleted
      | false =>
        have hf : faulty := hok.resolve_right (by simp [he])
        simpa [he] using hQ _ _ fun hnot => absurd hf hnot
    · cases he : e.isException with
      | true => simpa [he] using hnext _ fun hnot => absurd hf hnot
      | false => simpa [he] using hQ _ _ fun hnot => absurd hf hnot

theorem wp_release {Q : Except Exn Unit → Process SqlState → List String → Prop}
    {p : Process SqlState} {v : List String} (hknown : KeysKnown faulty p v)
    (hQ : ∀ r v', (¬ faulty → r = .ok () ∧ v' = []) → Q r p v') :
    Task.wp (keyContract faulty) RedisLockManager.release Q p v := by
  rw [RedisLockManager.release, Task.wp_bind, wp_getAdapters]
  refine wp_releaseAll _ fun r v' h => hQ r v' fun hf => ?_
  obtain ⟨hr, hv'⟩ := h hf
  refine ⟨hr, List.eq_nil_iff_forall_not_mem.mpr fun k hk => ?_⟩
  obtain ⟨hmem, hnot⟩ := hv' k hk
  exact hnot (List.mem_reverse.mpr (hknown hf k hmem))

/-- The two ends of the lock: the keys are set in order, or those that were set are
deleted again. -/
theorem wp_enter {keys : List String} (hsorted : keys.Pairwise fun k k' =>
      RedisLockManager.lockKey k ≤ RedisLockManager.lockKey k')
    {Q : Except Exn Unit → Process SqlState → List String → Prop} {p : Process SqlState}
    (hok : ∀ p' v', KeysKnown faulty p' v' → Q (.ok ()) p' v')
    (herror : ∀ e p' v', (¬ faulty → v' = []) → Q (.error e) p' v') :
    Task.wp (keyContract faulty) (RedisLockManager.enter keys) Q p [] := by
  rw [RedisLockManager.enter, Task.wp_bind, wp_modifyAdapters]
  simp only
  rw [Task.wp_tryCatch]
  refine wp_acquireAll hsorted (by simp) (by simp [KeysKnown]) fun r p' v' hknown => ?_
  cases r with
  | ok _ => exact hok p' v' hknown
  | error e =>
    simp only
    rw [Task.wp_bind]
    refine wp_release hknown fun r v'' h => ?_
    cases r with
    | ok _ =>
      simp only
      rw [Task.wp_throw]
      exact herror _ _ _ fun hf => (h hf).2
    | error e' => exact herror _ _ _ fun hf => (h hf).2

theorem append_le_append {s k k' : String} (h : k ≤ k') : s ++ k ≤ s ++ k' := by
  rcases h.eq_or_lt with rfl | hlt
  · exact le_rfl
  · apply le_of_lt
    rw [String.lt_iff] at hlt ⊢
    rw [String.toList_append, String.toList_append]
    exact List.append_left_lt hlt

theorem lockKey_mono {k k' : String} (h : k ≤ k') :
    RedisLockManager.lockKey k ≤ RedisLockManager.lockKey k' :=
  append_le_append h

/-- `sorted` puts the keys in ascending order, equal ones included. -/
theorem lockKeys_sorted (fromId toId : AccountId) :
    (TransferService.lockKeys fromId toId).Pairwise fun k k' =>
      RedisLockManager.lockKey k ≤ RedisLockManager.lockKey k' :=
  (List.pairwise_insertionSort (· ≤ ·) [fromId.str, toId.str]).imp lockKey_mono

theorem wp_locked {keys : List String} (hsorted : keys.Pairwise fun k k' =>
      RedisLockManager.lockKey k ≤ RedisLockManager.lockKey k') {body : SqlTask α}
    (hbody : KeepsKeys body) {Q : Except Exn α → Process SqlState → List String → Prop}
    {p : Process SqlState} (hQ : ∀ r p' v', (¬ faulty → v' = []) → Q r p' v') :
    Task.wp (keyContract faulty) (withLock redisLock keys body) Q p [] := by
  rw [wp_withLock]
  refine wp_enter hsorted (fun p' v' hknown => ?_) fun e p' v' h => hQ _ _ _ h
  refine wp_steady hbody fun r p'' hacquired => ?_
  have hknown' : KeysKnown faulty p'' v' := fun hf k hk => hacquired ▸ hknown hf k hk
  refine wp_release hknown' fun r' v'' h => ?_
  cases r' <;> exact hQ _ _ _ fun hf => (h hf).2

theorem wp_initiate_keys (draws : TransferDraws) (command : TransferCommand) :
    Task.wp (keyContract faulty) (TransferService.initiate sqlUow redisLock sqlBus draws command)
      (fun _ _ v => ¬ faulty → v = []) .init [] := by
  rw [TransferService.initiate, Task.wp_bind]
  refine wp_steady (steady_withUow (steady_getByIdempotencyKey _)) fun r p _ => ?_
  obtain e | _ | ref := r
  · exact fun _ => rfl
  · simp only
    rw [Task.wp_bind, Task.wp_ofExcept]
    cases Currency.ofValue command.currency with
    | error e => exact fun _ => rfl
    | ok currency =>
      simp only
      rw [Task.wp_bind, Task.wp_ofExcept]
      cases Money.new command.amount currency with
      | error e => exact fun _ => rfl
      | ok amount =>
        simp only
        rw [Task.wp_bind]
        refine wp_locked (lockKeys_sorted _ _)
          (steady_withUow (steady_transferUnit (fun _ => rfl) _ _ _ _ _))
          fun r p v hv => ?_
        cases r with
        | error e => exact hv
        | ok refs => exact wp_steady (steady_publishRemaining _ _ _) fun _ _ _ => hv
  · exact wp_steady (steady_bind (steady_callTransaction _ _) fun _ => steady_pure _)
      fun _ _ _ _ => rfl

/-- Every request keeps to the contract, and in the end it has deleted its keys. -/
theorem keys_program (faulty : Prop) (r : Request) :
    r.program.wp (keyContract faulty) (fun _ v => ¬ faulty → v = []) [] := by
  have h : Task.wp (keyContract faulty) r.task (fun _ _ v => ¬ faulty → v = []) .init [] := by
    cases r with
    | create draws command =>
      exact wp_steady (steady_bind (steady_create draws command) fun _ => steady_pure _)
        fun _ _ _ _ => rfl
    | transfer draws command =>
      rw [Request.task, Task.wp_bind]
      refine Task.wp_mono (fun r p v hv => ?_) (wp_initiate_keys draws command)
      cases r with
      | error e => exact hv
      | ok dto =>
        simp only
        rw [Task.wp_pure]
        exact hv
  rw [Task.wp_def] at h
  exact h

end Keys

/-! ## Owners of keys in a system -/

/-- A key has one owner, and is in the view of its owner. -/
structure KeysOwned (s : Server) (views : RequestId → Option (Request × List String)) : Prop where
  unique : ∀ {k t t'}, (k, t) ∈ s.lockKeys → (k, t') ∈ s.lockKeys → t = t'
  viewed : ∀ {k t}, (k, t) ∈ s.lockKeys → ∃ r v, views t = some (r, v) ∧ k ∈ v

namespace KeysOwned

variable {s s' : Server} {views : RequestId → Option (Request × List String)} {t : RequestId}
  {r : Request} {v w : List String} {keys : List (String × RequestId)}

/-- The view of a request changes, and keys are lost or gained by that request alone. -/
theorem view (h : KeysOwned s views) (ht : views t = some (r, v))
    (hkept : ∀ {k t'}, (k, t') ∈ s'.lockKeys → t' ≠ t → (k, t') ∈ s.lockKeys)
    (hown : ∀ {k}, (k, t) ∈ s'.lockKeys → k ∈ w)
    (hunique : ∀ {k t₁ t₂}, (k, t₁) ∈ s'.lockKeys → (k, t₂) ∈ s'.lockKeys → t₁ = t₂) :
    KeysOwned s' (Function.update views t (some (r, w))) where
  unique := hunique
  viewed {k t'} hmem := by
    by_cases hne : t' = t
    · subst hne
      exact ⟨r, w, Function.update_self .., hown hmem⟩
    · rw [Function.update_of_ne hne]
      exact h.viewed (hkept hmem hne)

/-- Some keys are lost, and with them nothing else. -/
theorem lose (h : KeysOwned s views) (hkeys : ∀ l ∈ s'.lockKeys, l ∈ s.lockKeys) :
    KeysOwned s' views where
  unique h₁ h₂ := h.unique (hkeys _ h₁) (hkeys _ h₂)
  viewed hmem := h.viewed (hkeys _ hmem)

theorem mem_view (h : KeysOwned s views) (ht : views t = some (r, v)) {k : String}
    (hk : (k, t) ∈ s.lockKeys) : k ∈ v := by
  obtain ⟨r', v', hview, hmem⟩ := h.viewed hk
  rw [ht] at hview
  cases hview
  exact hmem

theorem unchanged (h : KeysOwned s views) (ht : views t = some (r, v))
    (hkeys : s'.lockKeys = s.lockKeys) :
    KeysOwned s' (Function.update views t (some (r, v))) :=
  h.view ht (fun hmem _ => hkeys ▸ hmem) (fun hmem => h.mem_view ht (hkeys ▸ hmem))
    fun h₁ h₂ => h.unique (hkeys ▸ h₁) (hkeys ▸ h₂)

theorem acquire (h : KeysOwned s views) (ht : views t = some (r, v)) {k : String}
    (hfree : s.keyHeld k = false) :
    KeysOwned { s with lockKeys := (k, t) :: s.lockKeys }
      (Function.update views t (some (r, k :: v))) := by
  have hnew : ∀ t', (k, t') ∉ s.lockKeys := by
    intro t' hmem
    have := List.any_eq_false.mp hfree _ hmem
    simp at this
  refine h.view ht (fun hmem hne => ?_) (fun hmem => ?_) fun h₁ h₂ => ?_
  · rcases List.mem_cons.mp hmem with heq | hmem
    · cases heq
      exact absurd rfl hne
    · exact hmem
  · rcases List.mem_cons.mp hmem with heq | hmem
    · cases heq
      exact List.mem_cons_self
    · exact List.mem_cons_of_mem _ (h.mem_view ht hmem)
  · rcases List.mem_cons.mp h₁ with h₁ | h₁ <;> rcases List.mem_cons.mp h₂ with h₂ | h₂
    · cases h₁
      cases h₂
      rfl
    · cases h₁
      exact absurd h₂ (hnew _)
    · cases h₂
      exact absurd h₁ (hnew _)
    · exact h.unique h₁ h₂

/-- A key is deleted, whoever set it. -/
theorem delete (h : KeysOwned s views) (ht : views t = some (r, v)) (k : String) :
    KeysOwned { s with lockKeys := s.lockKeys.filter fun l => l.1 ≠ k }
      (Function.update views t (some (r, v.filter (· ≠ k)))) := by
  refine h.view ht (fun hmem _ => (List.mem_filter.mp hmem).1) (fun hmem => ?_) fun h₁ h₂ => ?_
  · obtain ⟨hmem, hne⟩ := List.mem_filter.mp hmem
    exact List.mem_filter.mpr ⟨h.mem_view ht hmem, by simpa using hne⟩
  · exact h.unique (List.mem_filter.mp h₁).1 (List.mem_filter.mp h₂).1

end KeysOwned

/-- When Redis is not faulty: what fails there has no effect if it is a SET, and is done all
the same if it is a deletion. -/
def RedisSound (faulty : Prop) (c : Choice) (o : IoOp) : Prop :=
  ¬ faulty → match o, c with
    | .acquireKey _, .faultAfter _ => False
    | .deleteKey _, .fault _ => False
    | .deleteKey _, .faultAfter e => e.isException = true
    | _, _ => True

namespace KeysOwned

variable {s s' : Server} {views : RequestId → Option (Request × List String)} {t : RequestId}
  {r : Request} {v : List String} {o : IoOp} {res : o.Res} {Q : o.Res → List String → Prop}
  {faulty : Prop}

/-- An operation outside the lock manager leaves the keys alone. -/
theorem serve_lockKeys (ho : o.isLockOp = false) (h : Server.serve t r o s = some (res, s')) :
    s'.lockKeys = s.lockKeys := by
  cases o with
  | acquireKey k => cases ho
  | deleteKey k => cases ho
  | selectAccountForUpdate id =>
    by_cases hab : t ∈ s.aborted
    · simp only [Server.serve, if_pos hab] at h
      cases h
      rfl
    · simp only [Server.serve, if_neg hab] at h
      cases hfind : s.db.findAccount id with
      | none =>
        simp only [hfind] at h
        cases h
        rfl
      | some row =>
        simp only [hfind] at h
        split_ifs at h
        cases h
        rfl
  | commit w =>
    simp only [Server.serve] at h
    split_ifs at h
    · cases h
      rfl
    · split at h <;> cases h <;> rfl
  | rollback => cases h; rfl
  | close => cases h; rfl
  | publishMany events => cases h; rfl
  | _ =>
    simp only [Server.serve] at h
    split_ifs at h <;> cases h <;> rfl

theorem serve (h : KeysOwned s views) (ht : views t = some (r, v))
    (hserve : Server.serve t r o s = some (res, s')) (hd : (keyContract faulty).demand v o Q) :
    ∃ v', Q res v' ∧ KeysOwned s' (Function.update views t (some (r, v'))) := by
  cases o with
  | acquireKey k =>
    simp only [Server.serve] at hserve
    split_ifs at hserve with hheld
    cases hserve
    exact ⟨_, hd.2.1, h.acquire ht (by simpa using hheld)⟩
  | deleteKey k =>
    cases hserve
    exact ⟨_, hd.1, h.delete ht k⟩
  | _ => exact ⟨v, hd _, h.unchanged ht (serve_lockKeys rfl hserve)⟩

theorem answer {choice : Choice} (h : KeysOwned s views) (ht : views t = some (r, v))
    (hsound : RedisSound faulty choice o)
    (hanswer : Server.answer t r choice o s = some (res, s'))
    (hd : (keyContract faulty).demand v o Q) :
    ∃ v', Q res v' ∧ KeysOwned s' (Function.update views t (some (r, v'))) := by
  cases choice with
  | proceed => exact h.serve ht hanswer hd
  | timeout =>
    cases o with
    | acquireKey k =>
      simp only [Server.answer] at hanswer
      split_ifs at hanswer
      cases hanswer
      exact ⟨v, (hd.2.2 _).1, h.unchanged ht rfl⟩
    | _ => cases hanswer
  | fault e =>
    cases hanswer
    cases o with
    | acquireKey k => exact ⟨v, (hd.2.2 e).1, h.unchanged ht rfl⟩
    | deleteKey k =>
      have hf : faulty := by
        by_contra hf
        exact hsound hf
      exact ⟨v, (hd.2 e).2 hf, h.unchanged ht rfl⟩
    | _ => exact ⟨v, hd _, h.unchanged ht rfl⟩
  | faultAfter e =>
    simp only [Server.answer, Option.map_eq_some_iff] at hanswer
    obtain ⟨⟨res', s''⟩, hserve, hres⟩ := hanswer
    cases hres
    cases o with
    | acquireKey k =>
      have hf : faulty := by
        by_contra hf
        exact hsound hf
      simp only [Server.serve] at hserve
      split_ifs at hserve with hheld
      cases hserve
      exact ⟨_, (hd.2.2 e).2 hf, h.acquire ht (by simpa using hheld)⟩
    | deleteKey k =>
      have hexecuted : faulty ∨ e.isException = true := by
        by_cases hf : faulty
        · exact .inl hf
        · exact .inr (hsound hf)
      cases hserve
      exact ⟨_, (hd.2 e).1 hexecuted, h.delete ht k⟩
    | _ => exact ⟨v, hd _, h.unchanged ht (serve_lockKeys rfl hserve)⟩

theorem accept (h : KeysOwned s views) (ht : views t = none)
    (haccept : Server.accept t r s = some s') :
    KeysOwned s' (Function.update views t (some (r, []))) := by
  simp only [Server.accept] at haccept
  split_ifs at haccept
  cases haccept
  refine ⟨h.unique, fun {k t'} hmem => ?_⟩
  obtain ⟨r', v', hview, hk⟩ := h.viewed hmem
  have hne : t' ≠ t := by
    rintro rfl
    rw [ht] at hview
    cases hview
  exact ⟨r', v', by rw [Function.update_of_ne hne, hview], hk⟩

theorem disturb {d : Disturbance} (h : KeysOwned s views)
    (hdisturb : Server.disturb d s = some s') : KeysOwned s' views := by
  cases d with
  | expireKey k =>
    cases hdisturb
    exact h.lose fun l hl => (List.mem_filter.mp hl).1
  | abort t =>
    cases hdisturb
    exact h.lose fun _ => id

end KeysOwned

/-- The steps that a Redis which is not faulty allows. -/
def redisPolicy (faulty : Prop) : Policy RequestId Server Request Choice Disturbance IoOp where
  accept _ _ _ := True
  answer _ _ c o _ := RedisSound faulty c o
  disturb _ _ := True

def keyDiscipline (faulty : Prop) :
    Discipline Server.host (redisPolicy faulty) (List String) where
  contract _ := keyContract faulty
  post _ _ v := ¬ faulty → v = []
  inv := KeysOwned
  accept h ht _ haccept := ⟨[], keys_program faulty _, h.accept ht haccept⟩
  answer h ht hsound hanswer hd := h.answer ht hsound hanswer hd
  disturb h _ hdisturb := h.disturb hdisturb

/-! ## No deadlock on lock keys -/

/-- A request is refused on a lock key that is set. -/
def Refused (p : System) (t : RequestId) (k : String) : Prop :=
  p.shared.keyHeld k = true ∧ ∃ r next, p.threads t = some (r, .call (.acquireKey k) next)

/-- The request that has set the key last owns it. -/
def OwnsKey (p : System) (k : String) (t : RequestId) : Prop := (k, t) ∈ p.shared.lockKeys

theorem keysOwned_quiet (db : Database) : KeysOwned (.quiet db) fun _ => none := by
  constructor <;> simp [Server.quiet]

/-- Whatever fails or expires, requests never wait for each other's lock keys in a cycle. -/
theorem lock_keys_never_deadlock {p : System} (h : SystemReachable p) :
    ¬ Deadlock (Refused p) (OwnsKey p) := by
  obtain ⟨ls, hrun⟩ := h
  have hrun' : Run Server.host.step (redisPolicy True).ok (.empty (.quiet .empty)) ls p := by
    refine hrun.mono fun p l _ => ?_
    cases l <;> simp [redisPolicy, Policy.ok, RedisSound]
  obtain ⟨views, hinv, htracks⟩ := (keyDiscipline True).sound (keysOwned_quiet .empty) hrun'
  refine not_deadlock_of_ranked (fun {t k k'} hrefused howns => ?_) fun h₁ h₂ => hinv.unique h₁ h₂
  obtain ⟨-, r, next, hthread⟩ := hrefused
  have ht := htracks t
  rw [hthread] at ht
  obtain ⟨v, hview, hwp⟩ := ht
  exact hwp.1 k' (hinv.mem_view hview howns)

/-- `Refused`, evaluated. -/
def refused (p : System) (t : RequestId) (k : String) : Bool :=
  match p.threads t with
  | some (_, .call (.acquireKey k') _) => k' = k && p.shared.keyHeld k
  | _ => false

theorem refused_sound {p : System} {t : RequestId} {k : String} (h : refused p t k = true) :
    Refused p t k := by
  unfold refused at h
  split at h
  · rename_i r k' next hthread
    simp only [Bool.and_eq_true, decide_eq_true_eq] at h
    obtain ⟨rfl, hheld⟩ := h
    exact ⟨hheld, r, next, hthread⟩
  · cases h

/-- Two opposite transfers: the first has set both keys, the second asks for one of them. -/
def Sample.contended : System :=
  replay Server.host.step (Pool.empty (Server.quiet .empty))
    (openings "EUR" ++ served 2 (.transfer (draws 3) command) 4 ++
      served 3 (.transfer (draws 4) reply) 2) (by decide +kernel)

theorem lock_keys_never_deadlock_sample :
    Refused Sample.contended 3 (RedisLockManager.lockKey (UUID.str 1)) ∧
      OwnsKey Sample.contended (RedisLockManager.lockKey (UUID.str 1)) 2 ∧
      ¬ Deadlock (Refused Sample.contended) (OwnsKey Sample.contended) :=
  ⟨refused_sound (by decide +kernel), by unfold OwnsKey; decide +kernel,
    lock_keys_never_deadlock (reachable_replay _)⟩

end BankingTransactions
