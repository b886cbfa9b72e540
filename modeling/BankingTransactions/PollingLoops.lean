import BankingTransactions.InteractionPrograms

/-!
# Polling until a deadline

A loop repeats a body until a round of it has a result. Where every other round leaves fewer
rounds to come, the loop ends with a result. A body that sleeps at the end of a round, for an
interval or for what is left until its deadline, leaves fewer, whatever time passes besides.
-/
namespace BankingTransactions.PollingLoops
open InteractionPrograms

/-! ## Loops that end -/

section Loops

variable {Op : Type} {Res : Op → Type} {α V : Type}

/-- Repeat `body` until a round has a result, for `fuel` rounds at most. -/
def poll (body : Program Op Res (Option α)) : ℕ → Program Op Res (Option α)
  | 0 => .ret none
  | fuel + 1 => body >>= fun result => result.elim (poll body fuel) fun a => .ret (some a)

/-- `I n` holds before a round that leaves `n` rounds to come at most. -/
theorem wp_poll {C : Contract Op Res V} {body : Program Op Res (Option α)} {I : ℕ → V → Prop}
    {Q : α → V → Prop}
    (hround : ∀ n v, I n v →
      body.wp C (fun result v' => result.elim (∃ m < n, I m v') fun a => Q a v') v)
    {fuel n : ℕ} (hfuel : n < fuel) {v : V} (hv : I n v) :
    (poll body fuel).wp C (fun result v' => ∃ a, result = some a ∧ Q a v') v := by
  induction fuel generalizing n v with
  | zero => omega
  | succ fuel ih =>
    simp only [poll, Program.wp_bind]
    apply Program.wp_mono _ (hround n v hv)
    intro result v' hresult
    cases result with
    | none =>
      obtain ⟨m, hm, hv'⟩ := hresult
      exact ih (by omega) hv'
    | some a => exact ⟨a, rfl, hresult⟩

end Loops

/-! ## Rounds until a deadline -/

section Deadlines

variable {τ : Type} [AddCommGroup τ] [LinearOrder τ] [IsOrderedAddMonoid τ]
  {interval deadline now now' : τ} {rounds : ℕ}

/-- The deadline comes within so many intervals. -/
def Within (interval deadline : τ) (rounds : ℕ) (now : τ) : Prop :=
  deadline ≤ now + rounds • interval

theorem Within.later (h : Within interval deadline rounds now) (hle : now ≤ now') :
    Within interval deadline rounds now' := by
  have hadd : now + rounds • interval ≤ now' + rounds • interval := by gcongr
  exact h.trans hadd

/-- A sleep leaves a round less, whether it lasts for the interval or until the deadline. -/
theorem Within.sleep (h : Within interval deadline rounds now) (hnow : now < deadline)
    (hsleep : now + min interval (deadline - now) ≤ now') :
    ∃ m < rounds, Within interval deadline m now' := by
  cases rounds with
  | zero =>
    have hle : deadline ≤ now := by simpa [Within] using h
    exact absurd hle (not_le.mpr hnow)
  | succ m =>
    refine ⟨m, by omega, ?_⟩
    by_cases hlong : interval ≤ deadline - now
    · rw [min_eq_left hlong] at hsleep
      calc
        deadline ≤ now + (m + 1) • interval := h
        _ = now + interval + m • interval := by rw [succ_nsmul']; abel
        _ ≤ now' + m • interval := by gcongr
    · have hshort : deadline - now ≤ interval := le_of_not_ge hlong
      have hpos : 0 ≤ interval := (sub_pos.mpr hnow).le.trans hshort
      rw [min_eq_right hshort, add_sub_cancel] at hsleep
      calc
        deadline ≤ now' := hsleep
        _ ≤ now' + m • interval := le_add_of_nonneg_right (nsmul_nonneg hpos m)

end Deadlines

end BankingTransactions.PollingLoops
