import Mathlib.Logic.Function.Basic
import Mathlib.Order.Lattice

/-!
# Locks that are keys with a deadline

A service sets keys until their deadlines. A client that has set a key leases it until the
same deadline, or until it gives the key back; giving back unsets the key, whoever has set
it. The leases are kept for the proof only: no client can read them.

As long as clients give back what is still their own, or nobody's, a key has at most one
owner. What is given back later is somebody else's whenever it is set at all.
-/
namespace BankingTransactions.TimedLocks

variable {T K τ : Type}

structure Leases (T K τ : Type) where
  now : τ
  deadline : K → Option τ
  lease : T → K → Option τ

namespace Leases

def idle (now : τ) : Leases T K τ := ⟨now, fun _ => none, fun _ _ => none⟩

def wait (s : Leases T K τ) (now : τ) : Leases T K τ := { s with now }

/-- Who has set a key last leases it until its deadline. -/
def Backed (s : Leases T K τ) : Prop := ∀ k d, s.deadline k = some d → ∃ t, s.lease t k = some d

theorem backed_idle (now : τ) : (idle now : Leases T K τ).Backed := by
  intro k d h
  cases h

theorem Backed.wait {s : Leases T K τ} (h : s.Backed) (now : τ) : (s.wait now).Backed := h

section Operations

variable [DecidableEq T] [DecidableEq K]

/-- A client sets a key until `d`. -/
def grant (s : Leases T K τ) (t : T) (k : K) (d : τ) : Leases T K τ :=
  { s with
    deadline := Function.update s.deadline k (some d)
    lease := Function.update s.lease t (Function.update (s.lease t) k (some d)) }

/-- A client gives a key back. -/
def giveBack (s : Leases T K τ) (t : T) (k : K) : Leases T K τ :=
  { s with
    deadline := Function.update s.deadline k none
    lease := Function.update s.lease t (Function.update (s.lease t) k none) }

variable (s : Leases T K τ) (t t' : T) (k k' : K) (d : τ)

@[simp] theorem grant_now : (s.grant t k d).now = s.now := rfl

@[simp] theorem giveBack_now : (s.giveBack t k).now = s.now := rfl

@[simp] theorem grant_deadline :
    (s.grant t k d).deadline k' = if k' = k then some d else s.deadline k' := by
  simp [grant, Function.update_apply]

@[simp] theorem giveBack_deadline :
    (s.giveBack t k).deadline k' = if k' = k then none else s.deadline k' := by
  simp [giveBack, Function.update_apply]

@[simp] theorem grant_lease :
    (s.grant t k d).lease t' k' = if t' = t ∧ k' = k then some d else s.lease t' k' := by
  by_cases ht : t' = t
  · subst ht
    simp [grant, Function.update_apply]
  · simp [grant, ht]

@[simp] theorem giveBack_lease :
    (s.giveBack t k).lease t' k' = if t' = t ∧ k' = k then none else s.lease t' k' := by
  by_cases ht : t' = t
  · subst ht
    simp [giveBack, Function.update_apply]
  · simp [giveBack, ht]

variable {s t k d}

theorem Backed.grant (h : s.Backed) : (s.grant t k d).Backed := by
  intro k' d' hd
  rw [grant_deadline] at hd
  split_ifs at hd with hk
  · exact ⟨t, by simp [hk, ← hd]⟩
  · obtain ⟨t', ht'⟩ := h k' d' hd
    exact ⟨t', by simp [hk, ht']⟩

theorem Backed.giveBack (h : s.Backed) : (s.giveBack t k).Backed := by
  intro k' d' hd
  rw [giveBack_deadline] at hd
  split_ifs at hd with hk
  obtain ⟨t', ht'⟩ := h k' d' hd
  exact ⟨t', by simp [hk, ht']⟩

end Operations

/-! ## Owners -/

variable [LinearOrder τ] {s : Leases T K τ} {t : T} {k : K} {d : τ}

/-- The key is set, and its deadline has not come. -/
def isLive (s : Leases T K τ) (k : K) : Bool := (s.deadline k).any fun d => s.now < d

/-- The client has set the key, for a time that is not over, and has not given it back. -/
def Owns (s : Leases T K τ) (t : T) (k : K) : Prop := ∃ d, s.lease t k = some d ∧ s.now < d

/-- A key has at most one owner. -/
def Exclusive (s : Leases T K τ) : Prop := ∀ k t t', s.Owns t k → s.Owns t' k → t = t'

/-- What the client gives back is its own, or nobody's. -/
def InTime (s : Leases T K τ) (t : T) (k : K) : Prop := s.Owns t k ∨ s.isLive k = false

theorem isLive_iff : s.isLive k = true ↔ ∃ d, s.deadline k = some d ∧ s.now < d := by
  simp [isLive, Option.any_eq_true]

/-- A lease that is not over is that of the key as it is set, and the only one. -/
structure Sound (s : Leases T K τ) : Prop where
  deadline : ∀ t k d, s.lease t k = some d → s.now < d → s.deadline k = some d
  exclusive : s.Exclusive

theorem sound_idle (now : τ) : (idle now : Leases T K τ).Sound where
  deadline t k d h := by cases h
  exclusive k t t' h := by
    obtain ⟨d, hd, -⟩ := h
    cases hd

theorem Sound.live (hs : s.Sound) (h : s.Owns t k) : s.isLive k = true := by
  obtain ⟨d, hd, hlt⟩ := h
  exact isLive_iff.mpr ⟨d, hs.deadline t k d hd hlt, hlt⟩

theorem Sound.wait (hs : s.Sound) {now : τ} (hle : s.now ≤ now) : (s.wait now).Sound where
  deadline t k d hd hlt := hs.deadline t k d hd (lt_of_le_of_lt hle hlt)
  exclusive k t t' h h' := by
    obtain ⟨d, hd, hlt⟩ := h
    obtain ⟨d', hd', hlt'⟩ := h'
    exact hs.exclusive k t t' ⟨d, hd, lt_of_le_of_lt hle hlt⟩ ⟨d', hd', lt_of_le_of_lt hle hlt'⟩

/-- A key that is live is owned by somebody, so that giving it back takes it from another
client exactly when it is late. -/
theorem inTime_iff (hs : s.Sound) (hbacked : s.Backed) :
    s.InTime t k ↔ ∀ t', s.Owns t' k → t' = t := by
  constructor
  · rintro (hown | hdead) t' ht'
    · exact hs.exclusive k t' t ht' hown
    · rw [hs.live ht'] at hdead
      cases hdead
  · intro honly
    by_cases hlive : s.isLive k = true
    · obtain ⟨d, hd, hlt⟩ := isLive_iff.mp hlive
      obtain ⟨t', ht'⟩ := hbacked k d hd
      have hown : s.Owns t' k := ⟨d, ht', hlt⟩
      exact .inl (honly t' hown ▸ hown)
    · exact .inr (eq_false_of_ne_true hlive)

variable [DecidableEq T] [DecidableEq K]

/-- A key is set only when it is not live, so that nobody owns it. -/
theorem Sound.grant (hs : s.Sound) (hfree : s.isLive k = false) : (s.grant t k d).Sound := by
  have hnone : ∀ t' d', s.lease t' k = some d' → ¬ s.now < d' := by
    intro t' d' hd' hlt
    rw [hs.live ⟨d', hd', hlt⟩] at hfree
    cases hfree
  constructor
  · intro t' k' d' hd' hlt
    rw [grant_lease] at hd'
    rw [grant_deadline]
    split_ifs at hd' with hsame
    · rw [if_pos hsame.2, hd']
    · by_cases hk : k' = k
      · subst hk
        exact absurd hlt (hnone t' d' hd')
      · rw [if_neg hk]
        exact hs.deadline t' k' d' hd' hlt
  · have howner : ∀ t', (s.grant t k d).Owns t' k → t' = t := by
      rintro t' ⟨d', hd', hlt⟩
      by_contra hne
      rw [grant_lease, if_neg fun h => hne h.1] at hd'
      exact hnone t' d' hd' hlt
    intro k' t₁ t₂ h₁ h₂
    by_cases hk : k' = k
    · subst hk
      rw [howner t₁ h₁, howner t₂ h₂]
    · obtain ⟨d₁, hd₁, hlt₁⟩ := h₁
      obtain ⟨d₂, hd₂, hlt₂⟩ := h₂
      rw [grant_lease, if_neg fun h => hk h.2] at hd₁ hd₂
      exact hs.exclusive k' t₁ t₂ ⟨d₁, hd₁, hlt₁⟩ ⟨d₂, hd₂, hlt₂⟩

theorem Owns.of_giveBack {t' : T} {k' : K} (h : (s.giveBack t k).Owns t' k') :
    s.Owns t' k' ∧ ¬ (t' = t ∧ k' = k) := by
  obtain ⟨d', hd', hlt⟩ := h
  rw [giveBack_lease] at hd'
  split_ifs at hd' with hsame
  exact ⟨⟨d', hd', hlt⟩, hsame⟩

/-- Giving back in time takes nothing from another client. -/
theorem Sound.giveBack (hs : s.Sound) (hbacked : s.Backed) (h : s.InTime t k) :
    (s.giveBack t k).Sound := by
  have honly := (inTime_iff hs hbacked).mp h
  constructor
  · intro t' k' d' hd' hlt
    obtain ⟨hown, hother⟩ := Owns.of_giveBack ⟨d', hd', hlt⟩
    have hk : k' ≠ k := by
      rintro rfl
      exact hother ⟨honly t' hown, rfl⟩
    rw [giveBack_lease, if_neg hother] at hd'
    rw [giveBack_deadline, if_neg hk]
    exact hs.deadline t' k' d' hd' hlt
  · intro k' t₁ t₂ h₁ h₂
    exact hs.exclusive k' t₁ t₂ h₁.of_giveBack.1 h₂.of_giveBack.1

end Leases

end BankingTransactions.TimedLocks
