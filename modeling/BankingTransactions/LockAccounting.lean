import BankingTransactions.KeyedLocks
import BankingTransactions.LockOrder
import BankingTransactions.InMemoryExecution

/-!
# The accounts of the two lock managers

Any number of clients enter the lock with any keys, leave it in any way, and take turns at
single operations. Redis is one that expires no key and executes every SET and DEL; what
else a client does under the lock is answered in any way. The in-memory manager is taken
apart into its attempts and its discards, so that other clients may come between them.

Both keep the books: a client in its body owns all that it asked for, and one that asks for
a key twice is refused the second time by itself, and gives back the first.
-/
namespace BankingTransactions
open DecimalArithmetic InteractionPrograms ThreadPools KeyedLocks

/-! ## Redis -/

namespace RedisLockManager

/-- A client of the lock: its keys, and code that leaves the lock manager alone. -/
structure Client where
  keys : List String
  body : SqlTask Unit
  keeps : KeepsKeys body

def Client.program (c : Client) : Program IoOp IoOp.Res (Except Exn Unit × Process SqlState) :=
  (withLock redisLock c.keys c.body).run.run .init

/-- What the environment decides: that a command is executed, that a client gives up on a
key or is interrupted while it waits for it, or what anything else answers. -/
inductive Turn where
  | proceed
  | giveUp
  | interrupt (e : Exn)
  | reply (f : (o : IoOp) → o.Res)

/-- The keys that are set. A refused attempt that is made again later is no step. -/
def answer (turn : Turn) (o : IoOp) (held : Finset String) : Option (o.Res × Finset String) :=
  match o, turn with
  | .acquireKey k, .proceed => if k ∈ held then none else some (.ok (), insert k held)
  | .acquireKey k, .giveUp =>
    if k ∈ held then some (.error (Server.lockTimeout k), held) else none
  | .acquireKey k, .interrupt e => if k ∈ held then some (.error e, held) else none
  | .acquireKey _, .reply _ => none
  | .deleteKey k, .proceed => some (.ok (), held.erase k)
  | .deleteKey _, _ => none
  | o, .reply f => some (f o, held)
  | _, _ => none

/-- Clients of the lock over one Redis. -/
def host (T : Type) :
    Host T (Finset String) Client Turn Empty IoOp IoOp.Res (Except Exn Unit × Process SqlState) :=
  { program := Client.program, accept := fun _ _ held => some held
    answer := fun _ _ => answer, disturb := fun e _ => e.elim }

/-- What an operation has done to the keys. -/
def effect : (o : IoOp) → o.Res → Effect String
  | .acquireKey k, .ok _ => .take k
  | .deleteKey k, _ => .drop k
  | _, _ => .none

/-- No deletion fails. -/
def Answers : (o : IoOp) → o.Res → Prop
  | .deleteKey _, res => res = .ok ()
  | _, _ => True

theorem effect_none {o : IoOp} (ho : o.isLockOp = false) (res : o.Res) : effect o res = .none := by
  cases o with
  | acquireKey k => cases ho
  | deleteKey k => cases ho
  | _ => rfl

theorem keepsAccounts {T : Type} [DecidableEq T] :
    KeepsAccounts (host T) id effect Answers where
  accept h := by
    cases h
    rfl
  disturb {e} := e.elim
  answer {t r turn o held res held'} h := by
    change answer turn o held = some (res, held') at h
    cases o with
    | acquireKey k =>
      cases turn with
      | proceed =>
        simp only [answer] at h
        split_ifs at h with hk
        cases h
        exact ⟨trivial, fun k' hk' => by cases hk'; exact hk, rfl⟩
      | giveUp =>
        simp only [answer] at h
        split_ifs at h
        cases h
        exact ⟨trivial, by simp [effect], rfl⟩
      | interrupt e =>
        simp only [answer] at h
        split_ifs at h
        cases h
        exact ⟨trivial, by simp [effect], rfl⟩
      | reply f => cases h
    | deleteKey k =>
      cases turn with
      | proceed =>
        cases h
        exact ⟨rfl, by simp [effect], rfl⟩
      | _ => cases h
    | _ =>
      cases turn with
      | reply f =>
        cases h
        exact ⟨trivial, fun k hk => (by cases hk), rfl⟩
      | _ => cases h

/-- An operation of the code under the lock. -/
def InBody (o : IoOp) : Prop := o.isLockOp = false

/-- The keys that a client asks for. -/
def Client.lockKeys (c : Client) : Finset String := (c.keys.map lockKey).toFinset

section Tidy

variable {p : Process SqlState} {v : Finset String} (asked : Finset String)

/-- Keys are acquired one at a time, all of them or until one is refused. -/
theorem wp_acquireAll_tidy (keys : List String) (hown : Lists p.adapters.acquired v) :
    Task.wp (tidy effect Answers InBody asked) (acquireAll keys)
      (fun res p' v' => Lists p'.adapters.acquired v' ∧
        (res = .ok () → v' = v ∪ (keys.map lockKey).toFinset)) p v := by
  induction keys generalizing p v with
  | nil =>
    rw [acquireAll, Task.wp_pure]
    exact ⟨hown, by simp⟩
  | cons key keys ih =>
    rw [acquireAll, Task.wp_bind, wp_exec]
    refine ⟨fun h => (by cases h), fun res _ htake => ?_⟩
    cases res with
    | error e => exact ⟨by simp [effect], hown, fun h => (by cases h)⟩
    | ok u =>
      refine ⟨by simp [effect], ?_⟩
      simp only
      rw [Task.wp_bind, wp_modifyAdapters]
      have hmore := hown.append (htake (lockKey key) rfl)
      refine Task.wp_mono (fun res p' v' h => ?_) (ih (v := insert (lockKey key) v) hmore)
      obtain ⟨hown', hall⟩ := h
      refine ⟨hown', fun hres => ?_⟩
      rw [hall hres, List.map_cons, List.toFinset_cons, Finset.insert_union, Finset.union_insert]

/-- The deletions of a list of keys. -/
theorem wp_releaseAll_tidy {lockKeys : List String} (hown : Lists lockKeys v) :
    Task.wp (tidy effect Answers InBody asked) (releaseAll lockKeys) (fun _ _ v => v = ∅) p v := by
  induction lockKeys generalizing v with
  | nil =>
    rw [releaseAll, Task.wp_pure]
    exact hown.eq_empty
  | cons key rest ih =>
    rw [releaseAll, Task.wp_bind, wp_safeRelease]
    refine ⟨fun h => (by cases h), ?_⟩
    rintro res rfl -
    refine ⟨fun k hk => ?_, ih hown.tail⟩
    obtain rfl : key = k := by simpa [effect] using hk
    exact hown.mem_head

theorem wp_release_tidy (hown : Lists p.adapters.acquired v) :
    Task.wp (tidy effect Answers InBody asked) release (fun _ _ v => v = ∅) p v := by
  rw [release, Task.wp_bind, wp_getAdapters]
  exact wp_releaseAll_tidy _ hown.reverse

/-- A client enters its body with all of its keys, and gives back what it has taken, whatever
happens to it. -/
theorem tidy_client (c : Client) :
    c.program.wp (tidy effect Answers InBody c.lockKeys) (fun _ v => v = ∅) ∅ := by
  have h : Task.wp (tidy effect Answers InBody c.lockKeys) (withLock redisLock c.keys c.body)
      (fun _ _ v => v = ∅) .init ∅ := by
    rw [withLock, Task.wp_bind]
    change Task.wp (tidy effect Answers InBody c.lockKeys) (enter c.keys) _ _ _
    rw [enter, Task.wp_bind, wp_modifyAdapters]
    have htake := wp_acquireAll_tidy (p := ⟨.empty, { SqlState.init with acquired := [] }⟩)
      c.lockKeys c.keys Lists.nil
    simp only [Finset.empty_union] at htake
    refine Task.wp_mono (fun r p v hend => ?_)
      (wp_take_or_release htake fun p v => wp_release_tidy _)
    cases r with
    | error e => exact hend
    | ok _ =>
      obtain ⟨hown, rfl⟩ := hend
      refine wp_release_after (Task.wp_mono (fun r p' v' hbody => ?_)
        (Task.wp_of_ignores (tidy_ignores (fun o ho => effect_none ho)) (c.keeps p)))
        fun p v => wp_release_tidy _
      obtain ⟨hacquired, rfl⟩ := hbody
      rw [hacquired]
      exact hown
  rw [Task.wp_def] at h
  exact h

end Tidy

end RedisLockManager

/-! ## In memory -/

namespace InMemoryLockManager

/-- The steps of a client between which others may run: the test of a key, which adds it
when it is absent and raises when it is not, the discard of a key, and all that is done
under the lock. -/
inductive SetOp where
  | attempt (key : String)
  | discard (key : String)
  | body

abbrev SetOp.Res (_ : SetOp) : Type := Except Exn Unit

/-- The local state is the list of acquired keys. -/
abbrev SetTask : Type → Type := Task (Program SetOp SetOp.Res) Exn (List String)

namespace Stepwise

def acquireAll : List String → SetTask Unit
  | [] => return ()
  | key :: keys => do
    Task.perform (.attempt key) id
    Task.modifyState (· ++ [key])
    acquireAll keys

def releaseAll : List String → SetTask Unit
  | [] => return ()
  | key :: rest => do
    Task.perform (.discard key) id
    releaseAll rest

/-- The `finally` block: the keys in the order of acquisition. -/
def release : SetTask Unit := do
  let acquired ← Task.getState
  releaseAll acquired

def enter (keys : List String) : SetTask Unit := do
  Task.modifyState fun _ => []
  try acquireAll keys
  catch e =>
    release
    throw e

def acquire (keys : List String) : SetTask Unit := do
  enter keys
  Task.withExit (Task.perform .body id) fun _ => release

end Stepwise

/-- The environment decides how the code under the lock ends. -/
def answer (ending : Except Exn Unit) (o : SetOp) (held : Finset String) :
    Except Exn Unit × Finset String :=
  match o with
  | .attempt key =>
    if key ∈ held then (.error (.concurrencyConflict key), held) else (.ok (), insert key held)
  | .discard key => (.ok (), held.erase key)
  | .body => (ending, held)

/-- Clients of the lock over one set of held keys. -/
def host (T : Type) :
    Host T (Finset String) (List String) (Except Exn Unit) Empty SetOp SetOp.Res
      (Except Exn Unit × List String) :=
  { program := fun keys => (Stepwise.acquire keys).run.run []
    accept := fun _ _ held => some held
    answer := fun _ _ ending o held => some (answer ending o held)
    disturb := fun e _ => e.elim }

def effect : SetOp → Except Exn Unit → Effect String
  | .attempt key, .ok _ => .take key
  | .discard key, _ => .drop key
  | _, _ => .none

/-- No discard fails. -/
def Answers : SetOp → Except Exn Unit → Prop
  | .discard _, res => res = .ok ()
  | _, _ => True

theorem keepsAccounts {T : Type} [DecidableEq T] :
    KeepsAccounts (host T) id effect Answers where
  accept h := by
    cases h
    rfl
  disturb {e} := e.elim
  answer {t r ending o held res held'} h := by
    obtain ⟨rfl, rfl⟩ := Prod.mk.inj (Option.some.inj h)
    cases o with
    | attempt key =>
      by_cases hkey : key ∈ held
      · simp [effect, Answers, hkey]
      · simp [effect, Answers, hkey]
    | discard key => simp [effect, Answers]
    | body => simp [effect, Answers]

/-! With nothing in between, the steps are the code of the manager. -/

section Alone

variable (ending : Except Exn Unit)

/-- A client that is alone ends like a task over the store. -/
def RunsAs (ending : Except Exn Unit) (x : SetTask Unit) (y : MemoryTask Unit)
    (p : Process MemoryState) : Prop :=
  ∀ Q : Except Exn Unit → List String → Finset String → Prop,
    Task.wp (.ofService (answer ending)) x Q p.adapters.acquired p.adapters.held.toFinset =
      Q (y.eval p).1 (y.eval p).2.adapters.acquired (y.eval p).2.adapters.held.toFinset

theorem acquireAll_runsAs (keys : List String) (p : Process MemoryState) :
    RunsAs ending (Stepwise.acquireAll keys) (acquireAll keys) p := by
  intro Q
  induction keys generalizing p with
  | nil => rw [Stepwise.acquireAll, Task.wp_pure, acquireAll, Task.eval_pure]
  | cons key keys ih =>
    rw [Stepwise.acquireAll, Task.wp_bind, Task.wp_perform]
    by_cases hkey : key ∈ p.adapters.held
    · simp [Contract.ofService, answer, acquireAll, hkey]
    · have hnext := ih ⟨p.heap, { p.adapters with
        held := key :: p.adapters.held, acquired := p.adapters.acquired ++ [key] }⟩
      simpa [Contract.ofService, answer, acquireAll, hkey, Task.wp_bind, Task.wp_modifyState]
        using hnext

theorem releaseAll_alone (keys : List String) (acquired : List String) (held : Finset String)
    (Q : Except Exn Unit → List String → Finset String → Prop) :
    Task.wp (.ofService (answer ending)) (Stepwise.releaseAll keys) Q acquired held =
      Q (.ok ()) acquired (held.filter fun key => key ∉ keys) := by
  induction keys generalizing held with
  | nil => simp [Stepwise.releaseAll, Task.wp_pure]
  | cons key rest ih =>
    rw [Stepwise.releaseAll, Task.wp_bind, Task.wp_perform]
    have hrest : (held.erase key).filter (fun k => k ∉ rest) =
        held.filter fun k => k ∉ key :: rest := by
      ext k
      simp only [Finset.mem_filter, Finset.mem_erase, List.mem_cons, not_or]
      tauto
    rw [← hrest, ← ih]
    rfl

theorem release_runsAs (p : Process MemoryState) : RunsAs ending Stepwise.release release p := by
  intro Q
  rw [Stepwise.release, Task.wp_bind, Task.wp_getState]
  simp only
  have hfilter : (p.adapters.held.toFinset.filter fun key => key ∉ p.adapters.acquired) =
      (p.adapters.held.filter fun key => key ∉ p.adapters.acquired).toFinset := by
    ext key
    simp
  rw [releaseAll_alone, hfilter]
  rfl

/-- The two ends of the manager, with no other client in between. -/
theorem enter_runsAs (keys : List String) (p : Process MemoryState) :
    RunsAs ending (Stepwise.enter keys) (enter keys) p := by
  intro Q
  rw [Stepwise.enter, Task.wp_bind, Task.wp_modifyState]
  simp only
  rw [Task.wp_tryCatch]
  have hacquire := acquireAll_runsAs ending keys ⟨p.heap, { p.adapters with acquired := [] }⟩
  rw [enter, Task.eval_bind, eval_modifyAdapters]
  simp only
  rw [Task.eval_tryCatch]
  refine (hacquire _).trans ?_
  obtain ⟨r, p'⟩ := (acquireAll keys).eval ⟨p.heap, { p.adapters with acquired := [] }⟩
  cases r with
  | ok u => rfl
  | error e =>
    simp only
    rw [Task.wp_bind, release_runsAs ending p', Task.eval_bind]
    simp only [release, eval_modifyAdapters, Task.eval_throw]
    rw [Task.wp_throw]

/-- A client that enters, ends its body in any way and leaves. -/
theorem acquire_runsAs (keys : List String)
    (p : Process MemoryState) :
    RunsAs ending (Stepwise.acquire keys) (withLock memoryLock keys (Task.ofExcept ending)) p := by
  intro Q
  rw [Stepwise.acquire, Task.wp_bind, enter_runsAs ending keys p]
  simp only [withLock, memoryLock, Task.eval_bind]
  obtain ⟨r, p'⟩ := (enter keys).eval p
  cases r with
  | error e => rfl
  | ok _ =>
    simp only [Task.eval_withExit, Task.eval_ofExcept]
    rw [Task.wp_withExit, Task.wp_perform]
    cases ending with
    | ok a => exact release_runsAs _ p' _
    | error e => exact release_runsAs _ p' _

end Alone

section Tidy

variable {acquired : List String} {v : Finset String} (asked : Finset String)

theorem wp_acquireAll_tidy (keys : List String) (hown : Lists acquired v) :
    Task.wp (tidy effect Answers (· = .body) asked) (Stepwise.acquireAll keys)
      (fun res acquired' v' => Lists acquired' v' ∧ (res = .ok () → v' = v ∪ keys.toFinset))
      acquired v := by
  induction keys generalizing acquired v with
  | nil =>
    rw [Stepwise.acquireAll, Task.wp_pure]
    exact ⟨hown, by simp⟩
  | cons key keys ih =>
    rw [Stepwise.acquireAll, Task.wp_bind, Task.wp_perform]
    refine ⟨fun h => (by cases h), fun res _ htake => ?_⟩
    cases res with
    | error e => exact ⟨by simp [effect], hown, fun h => (by cases h)⟩
    | ok u =>
      refine ⟨by simp [effect], ?_⟩
      simp only [id]
      rw [Task.wp_bind, Task.wp_modifyState]
      have hmore := ih (hown.append (htake key rfl))
      refine Task.wp_mono (fun res p' v' h => ?_) hmore
      obtain ⟨hown', hall⟩ := h
      refine ⟨hown', fun hres => ?_⟩
      rw [hall hres, List.toFinset_cons, Finset.insert_union, Finset.union_insert]

theorem wp_releaseAll_tidy {keys : List String} (hown : Lists keys v) :
    Task.wp (tidy effect Answers (· = .body) asked) (Stepwise.releaseAll keys)
      (fun _ _ v => v = ∅) acquired v := by
  induction keys generalizing v with
  | nil =>
    rw [Stepwise.releaseAll, Task.wp_pure]
    exact hown.eq_empty
  | cons key rest ih =>
    rw [Stepwise.releaseAll, Task.wp_bind, Task.wp_perform]
    refine ⟨fun h => (by cases h), ?_⟩
    rintro res rfl -
    refine ⟨fun k hk => ?_, ih hown.tail⟩
    obtain rfl : key = k := by simpa [effect] using hk
    exact hown.mem_head

theorem wp_release_tidy (hown : Lists acquired v) :
    Task.wp (tidy effect Answers (· = .body) asked) Stepwise.release (fun _ _ v => v = ∅)
      acquired v := by
  rw [Stepwise.release, Task.wp_bind, Task.wp_getState]
  exact wp_releaseAll_tidy _ hown

theorem tidy_client (keys : List String) :
    ((Stepwise.acquire keys).run.run []).wp (tidy effect Answers (· = .body) keys.toFinset)
      (fun _ v => v = ∅) ∅ := by
  have h : Task.wp (tidy effect Answers (· = .body) keys.toFinset) (Stepwise.acquire keys)
      (fun _ _ v => v = ∅) [] ∅ := by
    rw [Stepwise.acquire, Task.wp_bind, Stepwise.enter, Task.wp_bind, Task.wp_modifyState]
    have htake := wp_acquireAll_tidy keys.toFinset keys Lists.nil
    simp only [Finset.empty_union] at htake
    refine Task.wp_mono (fun r p v hend => ?_)
      (wp_take_or_release htake fun p v => wp_release_tidy _)
    cases r with
    | error e => exact hend
    | ok _ =>
      obtain ⟨hown, rfl⟩ := hend
      refine wp_release_after (I := Lists) ?_ fun p v => wp_release_tidy _
      rw [Task.wp_perform]
      exact ⟨fun _ => rfl, fun res _ _ => ⟨by simp [effect], hown⟩⟩
  rw [Task.wp_def] at h
  exact h

end Tidy

end InMemoryLockManager

/-- Both lock managers keep the accounts of any number of clients, and let a client into its body
with the keys that it asked for. The steps of the in-memory manager are its code. -/
theorem lock_accounting (T : Type) [DecidableEq T] :
    Accounted (RedisLockManager.host T) id RedisLockManager.effect ∅ RedisLockManager.InBody
        RedisLockManager.Client.lockKeys ∧
      Accounted (InMemoryLockManager.host T) id InMemoryLockManager.effect ∅ (· = .body)
        List.toFinset ∧
      ∀ ending keys p, InMemoryLockManager.RunsAs ending
        (InMemoryLockManager.Stepwise.acquire keys)
        (withLock memoryLock keys (Task.ofExcept ending)) p :=
  ⟨accounted RedisLockManager.keepsAccounts RedisLockManager.tidy_client rfl,
    accounted InMemoryLockManager.keepsAccounts InMemoryLockManager.tidy_client rfl,
    InMemoryLockManager.acquire_runsAs⟩

end BankingTransactions
