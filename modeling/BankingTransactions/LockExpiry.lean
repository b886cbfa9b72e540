import BankingTransactions.LockAccounting
import BankingTransactions.TimedLocks
import Mathlib.Data.Rat.Defs
import Mathlib.Algebra.Order.Ring.Unbundled.Rat

/-!
# Redis locks that expire

The clients of one Redis again, now with a clock: a key that is set expires when its time to
live is over, and any time may pass between two steps. A client that is late still deletes its
keys, whoever has set them since. As long as every client deletes its keys before they
expire, or while they are not set, a key has one owner at a time.
-/
namespace BankingTransactions
open InteractionPrograms ThreadPools TimedLocks

namespace RedisLockManager

/-- A client with the time to live that it gives its keys. -/
structure TimedClient extends Client where
  ttlSeconds : ℕ
  pos : 0 < ttlSeconds

/-- Times are in seconds. -/
abbrev Clock (T : Type) : Type := Leases T String ℚ

variable {T : Type} [DecidableEq T]

/-- SET NX EX, DEL, and whatever else a client asks for. -/
def timedAnswer (t : T) (client : TimedClient) (turn : Turn) (o : IoOp) (s : Clock T) :
    Option (o.Res × Clock T) :=
  match o, turn with
  | .acquireKey k, .proceed =>
    if s.isLive k then none else some (.ok (), s.grant t k (s.now + client.ttlSeconds))
  | .acquireKey k, .giveUp => if s.isLive k then some (.error (Server.lockTimeout k), s) else none
  | .acquireKey k, .interrupt e => if s.isLive k then some (.error e, s) else none
  | .acquireKey _, .reply _ => none
  | .deleteKey k, .proceed => some (.ok (), s.giveBack t k)
  | .deleteKey _, _ => none
  | o, .reply f => some (f o, s)
  | _, _ => none

/-- Time passes between the steps. -/
def timedHost (T : Type) [DecidableEq T] :
    Host T (Clock T) TimedClient Turn ℚ IoOp IoOp.Res (Except Exn Unit × Process SqlState) :=
  { program := fun client => client.program, accept := fun _ _ s => some s, answer := timedAnswer
    disturb := fun seconds s => if 0 ≤ seconds then some (s.wait (s.now + seconds)) else none }

/-- A key is deleted before its time to live is over, or else while it is not set. -/
def punctual : Policy T (Clock T) TimedClient Turn ℚ IoOp where
  accept _ _ _ := True
  answer t _ _ o s := ∀ k, o = .deleteKey k → s.InTime t k
  disturb _ _ := True

/-- What single steps preserve. -/
structure Kept (s : Clock T) : Prop where
  sound : s.Sound
  backed : s.Backed

omit [DecidableEq T] in
theorem kept_idle : Kept (Leases.idle 0 : Clock T) := ⟨Leases.sound_idle 0, Leases.backed_idle 0⟩

theorem Kept.answer {t : T} {client : TimedClient} {turn : Turn} {o : IoOp} {s s' : Clock T}
    {res : o.Res} (h : Kept s) (hok : ∀ k, o = .deleteKey k → s.InTime t k)
    (hs : timedAnswer t client turn o s = some (res, s')) : Kept s' := by
  cases o with
  | acquireKey k =>
    cases turn with
    | proceed =>
      simp only [timedAnswer] at hs
      split_ifs at hs with hlive
      cases hs
      exact ⟨h.sound.grant (eq_false_of_ne_true hlive), h.backed.grant⟩
    | giveUp =>
      simp only [timedAnswer] at hs
      split_ifs at hs
      cases hs
      exact h
    | interrupt e =>
      simp only [timedAnswer] at hs
      split_ifs at hs
      cases hs
      exact h
    | reply f => cases hs
  | deleteKey k =>
    cases turn with
    | proceed =>
      cases hs
      exact ⟨h.sound.giveBack h.backed (hok k rfl), h.backed.giveBack⟩
    | _ => cases hs
  | _ =>
    cases turn with
    | reply f =>
      cases hs
      exact h
    | _ => cases hs

theorem Kept.disturb {seconds : ℚ} {s s' : Clock T} (h : Kept s)
    (hs : (timedHost T).disturb seconds s = some s') : Kept s' := by
  simp only [timedHost] at hs
  split_ifs at hs with hseconds
  cases hs
  exact ⟨h.sound.wait (by linarith), h.backed.wait _⟩

abbrev TimedPool (T : Type) : Type :=
  Pool T (Clock T) TimedClient IoOp IoOp.Res (Except Exn Unit × Process SqlState)

theorem Kept.step {p p' : TimedPool T} {l : Label T TimedClient Turn ℚ} (h : Kept p.shared)
    (hok : punctual.ok p l) (hstep : (timedHost T).step p l = some p') : Kept p'.shared := by
  cases l with
  | spawn t client =>
    simp only [Host.step] at hstep
    split at hstep
    · cases hstep
    · cases hstep
      exact h
  | resume t turn =>
    simp only [Host.step] at hstep
    split at hstep
    · rename_i client o next hthread
      simp only [Option.map_eq_some_iff] at hstep
      obtain ⟨⟨res, s⟩, hs, rfl⟩ := hstep
      exact h.answer (hok client o next hthread) hs
    · cases hstep
  | disturb seconds =>
    simp only [Host.step, Option.map_eq_some_iff] at hstep
    obtain ⟨s, hs, rfl⟩ := hstep
    exact h.disturb hs

end RedisLockManager

open RedisLockManager

/-- While all clients are punctual, a key has one owner at a time, and the next deletion takes
a key from another client exactly when it is the first that comes late. -/
theorem locks_owned_once {T : Type} [DecidableEq T] {ls : List (Label T TimedClient Turn ℚ)}
    {p : TimedPool T} (hrun : Run (timedHost T).step punctual.ok (Pool.empty (.idle 0)) ls p) :
    p.shared.Exclusive ∧
      ∀ t k, p.shared.InTime t k ↔ ∀ t', p.shared.Owns t' k → t' = t := by
  have h := hrun.invariant (I := fun p => Kept p.shared)
    (fun _ _ _ h hok hstep => h.step hok hstep) kept_idle
  exact ⟨h.sound.exclusive, fun t k => Leases.inTime_iff h.sound h.backed⟩

namespace Sample

theorem keeps_idle : KeepsKeys (pure () : SqlTask Unit) := steady_pure ()

theorem seconds_pos : 0 < 30 := by decide

/-- A transfer of account 1, with the usual time to live. -/
def client : TimedClient :=
  { keys := ["1"], body := pure (), keeps := keeps_idle, ttlSeconds := 30, pos := seconds_pos }

/-- Client 0 deletes its key after 40 seconds. By then client 1 has set it. -/
def overrun : List (Label ℕ TimedClient Turn ℚ) :=
  [.spawn 0 client, .spawn 1 client, .spawn 2 client, .resume 0 .proceed, .disturb 35,
    .resume 1 .proceed, .disturb 5, .resume 0 .proceed, .resume 2 .proceed]

def collided : TimedPool ℕ :=
  replay (timedHost ℕ).step (Pool.empty (.idle 0)) overrun (by decide +kernel)

/-- Client 0 deletes its key after 5 seconds. -/
def handover : List (Label ℕ TimedClient Turn ℚ) :=
  [.spawn 0 client, .spawn 1 client, .resume 0 .proceed, .disturb 5, .resume 0 .proceed,
    .resume 1 .proceed]

/-- `punctual`, evaluated. -/
def isPunctual (p : TimedPool ℕ) : Label ℕ TimedClient Turn ℚ → Bool
  | .resume t _ =>
    match p.threads t with
    | some (_, .call (.deleteKey k) _) =>
      (p.shared.lease t k).any (fun d => p.shared.now < d) || !p.shared.isLive k
    | _ => true
  | _ => true

theorem isPunctual_sound (p : TimedPool ℕ) (l : Label ℕ TimedClient Turn ℚ)
    (h : isPunctual p l = true) : punctual.ok p l := by
  cases l with
  | spawn t client => trivial
  | disturb seconds => trivial
  | resume t turn =>
    rintro client o next hthread k rfl
    simp only [isPunctual, hthread, Bool.or_eq_true, Option.any_eq_true, decide_eq_true_eq,
      Bool.not_eq_true'] at h
    obtain ⟨d, hd, hlt⟩ | hdead := h
    · exact .inl ⟨d, hd, hlt⟩
    · exact .inr hdead

end Sample

theorem locks_owned_once_sample :
    (replay (checked Sample.isPunctual (timedHost ℕ).step) (Pool.empty (.idle 0)) Sample.handover
      (by decide +kernel)).shared.Exclusive :=
  (locks_owned_once (run_replay Sample.isPunctual_sound _)).1

/-- Client 0 is late and unsets the key of client 1, so that client 2 sets it as well. -/
theorem late_deletion :
    Reachable (timedHost ℕ).step (Pool.empty (.idle 0)) Sample.collided ∧
      ¬ Sample.collided.shared.Exclusive := by
  refine ⟨reachable_replay _, fun h => ?_⟩
  have hsame : 1 = 2 := h (lockKey "1") 1 2 ⟨65, by decide +kernel, by decide +kernel⟩
    ⟨70, by decide +kernel, by decide +kernel⟩
  omega

end BankingTransactions
