import BankingTransactions.PollingLoops
import BankingTransactions.Server

/-!
# Waiting for a Redis lock

`RedisLockManager._acquire_single`, with its SET commands, its readings of the clock and its
sleeps as operations of their own. Redis replies as it likes and every operation takes as
long as it likes. The loop ends after a number of attempts that the wait timeout bounds, with
what its last attempt was answered.
-/
namespace BankingTransactions
open InteractionPrograms PollingLoops

namespace RedisLockManager

/-! ## The loop -/

inductive WaitOp where
  | time
  | set (lockKey value : String) (ex : ℕ)
  | sleep (seconds : ℚ)

/-- What a SET NX comes back with: true, nothing, or an exception of the client library. -/
inductive SetReply where
  | granted
  | refused
  | failed (kind message : String)
  deriving DecidableEq

def WaitOp.Res : WaitOp → Type
  | time => ℚ
  | set _ _ _ => SetReply
  | sleep _ => Unit

abbrev WaitProgram : Type → Type := Program WaitOp WaitOp.Res

def readTime : WaitProgram ℚ := .perform WaitOp.time

def redisSet (lockKey value : String) (ex : ℕ) : WaitProgram SetReply :=
  .perform (WaitOp.set lockKey value ex)

def asyncioSleep (seconds : ℚ) : WaitProgram Unit := .perform (WaitOp.sleep seconds)

/-- A number of seconds, with what Python prints for it. -/
structure WaitTimeout where
  seconds : ℚ
  str : String

def WaitTimeout.default : WaitTimeout := ⟨5, "5.0"⟩

def retryIntervalSeconds : ℚ := 1 / 20

/-- What `_acquire_single` raises when it gives up. -/
def couldNotAcquire (waitTimeout : WaitTimeout) (lockKey : String) : Exn :=
  .concurrencyConflict ("Could not acquire lock '" ++ lockKey ++ "' within " ++
    waitTimeout.str ++ "s — " ++ "another transfer is processing the same account.")

theorem couldNotAcquire_default (lockKey : String) :
    couldNotAcquire .default lockKey = Server.lockTimeout lockKey := by
  simp only [couldNotAcquire, Server.lockTimeout, WaitTimeout.default, String.append_assoc]
  rfl

/-- One round of the loop, with a result when it returns or raises. -/
def attempt (waitTimeout : WaitTimeout) (lockKey : String) (ttlSeconds : ℕ) (deadline : ℚ) :
    WaitProgram (Option (Except Exn Unit)) := do
  match ← redisSet lockKey "1" ttlSeconds with
  | .granted => return some (.ok ())
  | .failed kind message => return some (.error (.failure kind message))
  | .refused =>
    let now ← readTime
    let remaining := deadline - now
    if remaining ≤ 0 then
      return some (.error (couldNotAcquire waitTimeout lockKey))
    else
      asyncioSleep (min retryIntervalSeconds remaining)
      return none

/-- The loop has no bound of its own: without a result in `fuel` rounds this is `none`. -/
def acquireSingle (waitTimeout : WaitTimeout) (lockKey : String) (ttlSeconds fuel : ℕ) :
    WaitProgram (Option (Except Exn Unit)) := do
  let start ← readTime
  poll (attempt waitTimeout lockKey ttlSeconds (start + waitTimeout.seconds)) fuel

/-! ## Redis and the clock -/

/-- The replies to the SET commands in turn, and how long each operation takes beyond what
it is asked for. -/
structure Surroundings where
  reply : ℕ → SetReply
  delay : ℕ → ℚ
  nonneg : ∀ n, 0 ≤ delay n

structure Waiting where
  now : ℚ
  operations : ℕ
  /-- What the SET commands were replied so far. -/
  replies : List SetReply

namespace Surroundings

def pass (env : Surroundings) (seconds : ℚ) (w : Waiting) : Waiting :=
  { w with now := w.now + seconds + env.delay w.operations, operations := w.operations + 1 }

/-- Redis replies to the next SET. -/
def hear (env : Surroundings) (w : Waiting) : Waiting :=
  { env.pass 0 w with replies := w.replies ++ [env.reply w.replies.length] }

def serve (env : Surroundings) : (o : WaitOp) → Waiting → o.Res × Waiting
  | .time, w => ((env.pass 0 w).now, env.pass 0 w)
  | .set _ _ _, w => (env.reply w.replies.length, env.hear w)
  | .sleep seconds, w => ((), env.pass (max 0 seconds) w)

variable (env : Surroundings) (seconds : ℚ) (w : Waiting)

@[simp] theorem pass_replies : (env.pass seconds w).replies = w.replies := rfl

@[simp] theorem hear_replies :
    (env.hear w).replies = w.replies ++ [env.reply w.replies.length] := rfl

theorem le_pass : w.now + seconds ≤ (env.pass seconds w).now := by
  have hdelay := env.nonneg w.operations
  show w.now + seconds ≤ w.now + seconds + env.delay w.operations
  linarith

theorem le_pass_zero : w.now ≤ (env.pass 0 w).now := by
  have hle := env.le_pass 0 w
  linarith

theorem le_hear : w.now ≤ (env.hear w).now := env.le_pass_zero w

theorem wp_readTime (Q : ℚ → Waiting → Prop) :
    readTime.wp (.ofService env.serve) Q w = Q (env.pass 0 w).now (env.pass 0 w) := rfl

theorem wp_redisSet (lockKey value : String) (ex : ℕ) (Q : SetReply → Waiting → Prop) :
    (redisSet lockKey value ex).wp (.ofService env.serve) Q w =
      Q (env.reply w.replies.length) (env.hear w) := rfl

end Surroundings

/-! ## Every attempt and the whole loop -/

/-- What an attempt comes to when the loop ends with it. -/
def SetReply.outcome (waitTimeout : WaitTimeout) (lockKey : String) : SetReply → Except Exn Unit
  | .granted => .ok ()
  | .refused => .error (couldNotAcquire waitTimeout lockKey)
  | .failed kind message => .error (.failure kind message)

/-- Before a round that leaves `rounds` to come at most. -/
structure Polling (deadline : ℚ) (bound rounds : ℕ) (w : Waiting) : Prop where
  within : Within retryIntervalSeconds deadline rounds w.now
  attempts : w.replies.length + rounds ≤ bound
  refused : ∀ reply ∈ w.replies, reply = .refused

/-- The last attempt decided the outcome, and was the first not to be refused unless the
deadline is over. -/
structure Polled (waitTimeout : WaitTimeout) (lockKey : String) (deadline : ℚ) (bound : ℕ)
    (earlier : List SetReply) (last : SetReply) (outcome : Except Exn Unit) (w : Waiting) :
    Prop where
  replies : w.replies = earlier ++ [last]
  attempts : w.replies.length ≤ bound + 1
  refused : ∀ reply ∈ earlier, reply = .refused
  outcome : outcome = last.outcome waitTimeout lockKey
  overdue : last = .refused → deadline ≤ w.now

section Rounds

variable {waitTimeout : WaitTimeout} {lockKey : String} {deadline : ℚ} {bound : ℕ}

theorem attempt_wp (env : Surroundings) (ttlSeconds rounds : ℕ) (w : Waiting)
    (h : Polling deadline bound rounds w) :
    (attempt waitTimeout lockKey ttlSeconds deadline).wp (.ofService env.serve)
      (fun result w' => result.elim (∃ m < rounds, Polling deadline bound m w')
        fun outcome => ∃ earlier last,
          Polled waitTimeout lockKey deadline bound earlier last outcome w') w := by
  have hattempts := h.attempts
  have hheard := env.hear_replies w
  simp only [attempt, Program.wp_bind, Surroundings.wp_redisSet]
  generalize env.reply w.replies.length = reply at hheard ⊢
  have hcount : (env.hear w).replies.length ≤ bound + 1 := by simp; omega
  cases reply with
  | granted => exact ⟨_, _, hheard, hcount, h.refused, rfl, fun hlast => by cases hlast⟩
  | failed kind message => exact ⟨_, _, hheard, hcount, h.refused, rfl, fun hlast => by cases hlast⟩
  | refused =>
    simp only [Program.wp_bind, Surroundings.wp_readTime]
    have hlater : w.now ≤ (env.pass 0 (env.hear w)).now :=
      (env.le_hear w).trans (env.le_pass_zero _)
    rw [← env.pass_replies 0] at hheard hcount
    generalize env.pass 0 (env.hear w) = read at hheard hcount hlater ⊢
    split_ifs with hover
    · exact ⟨_, _, hheard, hcount, h.refused, rfl, fun _ => sub_nonpos.mp hover⟩
    · have hpos : 0 < deadline - read.now := lt_of_not_ge hover
      have hslept : read.now + min retryIntervalSeconds (deadline - read.now) ≤
          (env.pass (max 0 (min retryIntervalSeconds (deadline - read.now))) read).now :=
        (add_le_add_right (le_max_right 0 _) _).trans (env.le_pass _ read)
      obtain ⟨m, hm, hwithin⟩ := (h.within.later hlater).sleep (sub_pos.mp hpos) hslept
      show ∃ m < rounds, Polling deadline bound m (env.pass _ read)
      refine ⟨m, hm, hwithin, ?_, ?_⟩
      · simp only [Surroundings.pass_replies, hheard, List.length_append, List.length_singleton]
        omega
      · intro reply hmem
        simp only [Surroundings.pass_replies, hheard, List.mem_append, List.mem_singleton] at hmem
        exact hmem.elim (h.refused reply) id

theorem acquireSingle_wp (env : Surroundings) (waitTimeout : WaitTimeout) (lockKey : String)
    (ttlSeconds fuel : ℕ) {w : Waiting}
    (hbound : waitTimeout.seconds / retryIntervalSeconds ≤ bound) (hfuel : bound < fuel)
    (hw : w.replies = []) :
    (acquireSingle waitTimeout lockKey ttlSeconds fuel).wp (.ofService env.serve)
      (fun result w' => ∃ outcome, result = some outcome ∧ ∃ deadline earlier last,
        w.now + waitTimeout.seconds ≤ deadline ∧
        Polled waitTimeout lockKey deadline bound earlier last outcome w') w := by
  have hinterval : (0 : ℚ) < retryIntervalSeconds := by norm_num [retryIntervalSeconds]
  have hstart := env.le_pass 0 w
  rw [add_zero] at hstart
  simp only [acquireSingle, Program.wp_bind, Surroundings.wp_readTime]
  have hbefore : Polling ((env.pass 0 w).now + waitTimeout.seconds) bound bound (env.pass 0 w) := by
    constructor
    · rw [div_le_iff₀ hinterval] at hbound
      simpa [Within] using hbound
    · simp [hw]
    · simp [hw]
  apply Program.wp_mono _ (wp_poll (attempt_wp env ttlSeconds) hfuel hbefore)
  intro result w' hresult
  obtain ⟨outcome, hsome, earlier, last, hpolled⟩ := hresult
  exact ⟨outcome, hsome, _, earlier, last, by linarith, hpolled⟩

/-- What was heard so far are the first replies that Redis has. -/
def Surroundings.Heard (env : Surroundings) (w : Waiting) : Prop :=
  w.replies = (List.range w.replies.length).map env.reply

theorem Surroundings.heard_serve (env : Surroundings) (o : WaitOp) (w : Waiting)
    (h : env.Heard w) : env.Heard (env.serve o w).2 := by
  cases o with
  | time => exact h
  | sleep seconds => exact h
  | set lockKey value ex =>
    show w.replies ++ [env.reply w.replies.length] = _
    rw [serve, hear_replies, List.length_append, List.length_singleton, List.range_succ,
      List.map_append, ← h]
    simp

theorem Polled.reply {env : Surroundings} {earlier : List SetReply} {last : SetReply}
    {outcome : Except Exn Unit} {w : Waiting}
    (h : Polled waitTimeout lockKey deadline bound earlier last outcome w)
    (hheard : env.Heard w) {n : ℕ}
    (hn : n < w.replies.length) :
    n + 1 < w.replies.length ∧ env.reply n = .refused ∨
      n + 1 = w.replies.length ∧ env.reply n = last := by
  have hreply : w.replies[n]? = some (env.reply n) := by
    rw [show w.replies = _ from hheard, List.getElem?_map, List.getElem?_range hn, Option.map_some]
  have hlength : w.replies.length = earlier.length + 1 := by simp [h.replies]
  rw [h.replies] at hreply
  by_cases hlast : n < earlier.length
  · rw [List.getElem?_append_left hlast] at hreply
    exact .inl ⟨by omega, h.refused _ (List.mem_of_getElem? hreply)⟩
  · have hn' : n = earlier.length := by omega
    rw [hn', List.getElem?_concat_length, Option.some.injEq] at hreply
    exact .inr ⟨by omega, by rw [hn', hreply]⟩

section Ended

variable {env : Surroundings} {earlier : List SetReply} {last : SetReply}
  {outcome : Except Exn Unit} {w : Waiting}

theorem Polled.last_reply (h : Polled waitTimeout lockKey deadline bound earlier last outcome w)
    (hheard : env.Heard w) : env.reply earlier.length = last := by
  have hlength : w.replies.length = earlier.length + 1 := by simp [h.replies]
  rcases h.reply hheard (n := earlier.length) (by omega) with ⟨hn, -⟩ | ⟨-, hreply⟩
  · omega
  · exact hreply

/-- The answer is that of the last reply; before it there were refusals only. -/
theorem Polled.ends (h : Polled waitTimeout lockKey deadline bound earlier last outcome w)
    (hheard : env.Heard w) :
    ∃ refusals, w.replies.length = refusals + 1 ∧ (∀ n < refusals, env.reply n = .refused) ∧
      outcome = (env.reply refusals).outcome waitTimeout lockKey := by
  have hlength : w.replies.length = earlier.length + 1 := by simp [h.replies]
  refine ⟨earlier.length, hlength, fun n hn => ?_, ?_⟩
  · rcases h.reply hheard (n := n) (by omega) with ⟨-, hrefused⟩ | ⟨hlast, -⟩
    · exact hrefused
    · omega
  · rw [h.last_reply hheard]
    exact h.outcome

theorem Polled.granted_last
    (h : Polled waitTimeout lockKey deadline bound earlier last outcome w)
    (hheard : env.Heard w) {n : ℕ} (hn : n < w.replies.length) (hgranted : env.reply n = .granted) :
    n + 1 = w.replies.length ∧ last = .granted := by
  rcases h.reply hheard hn with ⟨-, hrefused⟩ | ⟨hends, hlast⟩
  · rw [hrefused] at hgranted
    cases hgranted
  · exact ⟨hends, hlast.symm.trans hgranted⟩

theorem Polled.granted_iff (h : Polled waitTimeout lockKey deadline bound earlier last outcome w)
    (hheard : env.Heard w) :
    outcome = .ok () ↔ ∃ n < w.replies.length, env.reply n = .granted := by
  have hlength : w.replies.length = earlier.length + 1 := by simp [h.replies]
  constructor
  · intro hok
    refine ⟨earlier.length, by omega, ?_⟩
    rw [h.last_reply hheard]
    cases last with
    | granted => rfl
    | _ => cases h.outcome.symm.trans hok
  · intro hgranted
    obtain ⟨n, hn, hreply⟩ := hgranted
    rw [h.outcome, (h.granted_last hheard hn hreply).2]
    rfl

theorem Polled.conflict (h : Polled waitTimeout lockKey deadline bound earlier last outcome w)
    (hheard : env.Heard w) {message : String}
    (hconflict : outcome = .error (.concurrencyConflict message)) :
    (∀ n < w.replies.length, env.reply n = .refused) ∧ deadline ≤ w.now := by
  have hrefused : last = .refused := by
    cases last with
    | refused => rfl
    | _ => cases h.outcome.symm.trans hconflict
  constructor
  · intro n hn
    rcases h.reply hheard hn with ⟨-, hreply⟩ | ⟨-, hreply⟩
    · exact hreply
    · rw [hreply, hrefused]
  · exact h.overdue hrefused

end Ended

end Rounds

/-- The loop makes at least one attempt and ends after a bounded number of them, at the first that
is not refused, with the answer that the last reply stands for; it gives up on a refusal only when
the wait timeout is over. -/
theorem acquireSingle_bounded (env : Surroundings) (waitTimeout : WaitTimeout) (lockKey : String)
    (ttlSeconds extra : ℕ) (now : ℚ) :
    ∃ outcome w, (acquireSingle waitTimeout lockKey ttlSeconds
        (⌈waitTimeout.seconds / retryIntervalSeconds⌉₊ + 1 + extra)).run env.serve ⟨now, 0, []⟩ =
          (some outcome, w) ∧
      w.replies.length ≤ ⌈waitTimeout.seconds / retryIntervalSeconds⌉₊ + 1 ∧
      (∃ refusals, w.replies.length = refusals + 1 ∧ (∀ n < refusals, env.reply n = .refused) ∧
        outcome = (env.reply refusals).outcome waitTimeout lockKey) ∧
      (outcome = .ok () ↔ ∃ n < w.replies.length, env.reply n = .granted) ∧
      (∀ n < w.replies.length, env.reply n = .granted → n + 1 = w.replies.length) ∧
      ∀ message, outcome = .error (.concurrencyConflict message) →
        (∀ n < w.replies.length, env.reply n = .refused) ∧ now + waitTimeout.seconds ≤ w.now := by
  have hrun := acquireSingle_wp env waitTimeout lockKey ttlSeconds
    (⌈waitTimeout.seconds / retryIntervalSeconds⌉₊ + 1 + extra) (w := ⟨now, 0, []⟩)
    (Nat.le_ceil _) (by omega) rfl
  rw [Contract.wp_ofService] at hrun
  have hheard := Program.run_invariant (I := env.Heard) env.heard_serve (acquireSingle waitTimeout
    lockKey ttlSeconds (⌈waitTimeout.seconds / retryIntervalSeconds⌉₊ + 1 + extra))
    (s := ⟨now, 0, []⟩) rfl
  generalize Program.run env.serve _ _ = ended at hrun hheard ⊢
  obtain ⟨result, w⟩ := ended
  dsimp only at hrun hheard
  obtain ⟨outcome, rfl, deadline, earlier, last, hdeadline, h⟩ := hrun
  refine ⟨outcome, w, rfl, h.attempts, h.ends hheard, h.granted_iff hheard, ?_, ?_⟩
  · intro n hn hgranted
    exact (h.granted_last hheard hn hgranted).1
  · intro message hconflict
    obtain ⟨hrefused, hoverdue⟩ := h.conflict hheard hconflict
    exact ⟨hrefused, le_trans hdeadline hoverdue⟩

/-! ## One operation for the whole loop -/

/-- What a SET NX is replied while the server holds its keys. -/
def setReply (s : Server) (lockKey : String) : SetReply :=
  if s.keyHeld lockKey then .refused else .granted

/-- With the default timeout, the loop comes to an answer that `acquireKey` may give in the
state of the server at the last attempt. -/
theorem acquireSingle_answered (env : Surroundings) (lockKey : String) (ttlSeconds extra : ℕ)
    (now : ℚ) (t : RequestId) (r : Request) :
    ∃ outcome w last, (acquireSingle .default lockKey ttlSeconds
        (⌈WaitTimeout.default.seconds / retryIntervalSeconds⌉₊ + 1 + extra)).run env.serve
          ⟨now, 0, []⟩ = (some outcome, w) ∧ w.replies.getLast? = some last ∧
      ∀ s : Server, last = setReply s lockKey ∨ (∃ kind message, last = .failed kind message) →
        ∃ choice s', Server.answer t r choice (.acquireKey lockKey) s = some (outcome, s') := by
  have hrun := acquireSingle_wp env .default lockKey ttlSeconds
    (⌈WaitTimeout.default.seconds / retryIntervalSeconds⌉₊ + 1 + extra) (w := ⟨now, 0, []⟩)
    (Nat.le_ceil _) (by omega) rfl
  rw [Contract.wp_ofService] at hrun
  generalize Program.run env.serve _ _ = ended at hrun ⊢
  obtain ⟨result, w⟩ := ended
  dsimp only at hrun
  obtain ⟨outcome, rfl, deadline, earlier, last, -, h⟩ := hrun
  refine ⟨outcome, w, last, rfl, by rw [h.replies, List.getLast?_concat], fun s hlast => ?_⟩
  rw [h.outcome]
  rcases hlast with hlast | ⟨kind, message, hlast⟩
  · rw [hlast, setReply]
    by_cases hheld : s.keyHeld lockKey = true
    · refine ⟨.timeout, s, ?_⟩
      simp [Server.answer, SetReply.outcome, hheld, couldNotAcquire_default]
      rfl
    · refine ⟨.proceed, { s with lockKeys := (lockKey, t) :: s.lockKeys }, ?_⟩
      simp [Server.answer, Server.serve, SetReply.outcome, hheld]
      rfl
  · rw [hlast]
    exact ⟨.fault (.failure kind message), s, rfl⟩

end RedisLockManager

end BankingTransactions
