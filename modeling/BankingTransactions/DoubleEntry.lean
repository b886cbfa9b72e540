import Mathlib.Algebra.BigOperators.Group.List.Basic
import Mathlib.Tactic.Abel

/-!
# Double-entry books

A book keeps a balance for every account, the balance it was opened with, and the
postings made since; each posting takes an amount from one account and adds it to
another. A book reconciles when every balance is the opening balance plus what was
credited minus what was debited. Opening an account and posting keep this.
-/
namespace BankingTransactions.DoubleEntry

structure Posting (A M : Type) where
  source : A
  target : A
  amount : M

variable {A M : Type} [DecidableEq A] [AddCommGroup M]

/-- What a posting changes on an account. -/
def Posting.effect (p : Posting A M) (a : A) : M :=
  (if p.target = a then p.amount else 0) - (if p.source = a then p.amount else 0)

/-- All that was added to an account. -/
def credited (ps : List (Posting A M)) (a : A) : M :=
  ((ps.filter fun p => p.target = a).map (·.amount)).sum

/-- All that was taken from an account. -/
def debited (ps : List (Posting A M)) (a : A) : M :=
  ((ps.filter fun p => p.source = a).map (·.amount)).sum

@[simp] theorem credited_append (ps qs : List (Posting A M)) (a : A) :
    credited (ps ++ qs) a = credited ps a + credited qs a := by
  simp [credited]

@[simp] theorem debited_append (ps qs : List (Posting A M)) (a : A) :
    debited (ps ++ qs) a = debited ps a + debited qs a := by
  simp [debited]

theorem credited_sub_debited_singleton (p : Posting A M) (a : A) :
    credited [p] a - debited [p] a = p.effect a := by
  by_cases ht : p.target = a <;> by_cases hs : p.source = a <;>
    simp [credited, debited, Posting.effect, ht, hs]

theorem credited_eq_zero {ps : List (Posting A M)} {a : A} (h : ∀ p ∈ ps, p.target ≠ a) :
    credited ps a = 0 := by
  have hnil : ps.filter (fun p => p.target = a) = [] := by simpa [List.filter_eq_nil_iff] using h
  simp [credited, hnil]

theorem debited_eq_zero {ps : List (Posting A M)} {a : A} (h : ∀ p ∈ ps, p.source ≠ a) :
    debited ps a = 0 := by
  have hnil : ps.filter (fun p => p.source = a) = [] := by simpa [List.filter_eq_nil_iff] using h
  simp [debited, hnil]

structure Book (A M : Type) where
  opening : A → Option M
  balance : A → Option M
  postings : List (Posting A M)

namespace Book

/-- Every balance is accounted for, and no posting names an account that is not open. -/
structure Reconciled (b : Book A M) : Prop where
  balance : ∀ a, b.balance a =
    (b.opening a).map fun m => m + credited b.postings a - debited b.postings a
  source : ∀ p ∈ b.postings, b.opening p.source ≠ none
  target : ∀ p ∈ b.postings, b.opening p.target ≠ none

/-- The steps of a book. -/
inductive Step (b b' : Book A M) : Prop
  | keep (opening : b'.opening = b.opening) (balance : b'.balance = b.balance)
      (postings : b'.postings = b.postings)
  | enter (a : A) (m : M) (new : b.opening a = none)
      (opening : ∀ x, b'.opening x = if x = a then some m else b.opening x)
      (balance : ∀ x, b'.balance x = if x = a then some m else b.balance x)
      (postings : b'.postings = b.postings)
  | post (p : Posting A M) (source : b.opening p.source ≠ none) (target : b.opening p.target ≠ none)
      (opening : b'.opening = b.opening)
      (balance : ∀ x, b'.balance x = (b.balance x).map fun m => m + p.effect x)
      (postings : b'.postings = b.postings ++ [p])

theorem Step.reconciled {b b' : Book A M} (h : Step b b') (hb : b.Reconciled) : b'.Reconciled := by
  obtain ⟨hbalance, hsource, htarget⟩ := hb
  cases h with
  | keep ho hbal hp => exact ⟨by rw [ho, hbal, hp]; exact hbalance, by rw [ho, hp]; exact hsource,
      by rw [ho, hp]; exact htarget⟩
  | enter a m hnew ho hbal hp =>
    have hopen (x : A) (hx : b.opening x ≠ none) : b'.opening x ≠ none := by
      rw [ho]
      split_ifs
      · simp
      · exact hx
    refine ⟨fun x => ?_, fun p hmem => ?_, fun p hmem => ?_⟩
    · rw [ho, hbal, hp]
      split_ifs with hx
      · subst hx
        rw [credited_eq_zero fun p hmem heq => htarget p hmem (heq ▸ hnew),
          debited_eq_zero fun p hmem heq => hsource p hmem (heq ▸ hnew)]
        simp
      · exact hbalance x
    · exact hopen _ (hsource p (hp ▸ hmem))
    · exact hopen _ (htarget p (hp ▸ hmem))
  | post p hs ht ho hbal hp =>
    refine ⟨fun x => ?_, fun q hmem => ?_, fun q hmem => ?_⟩
    · rw [ho, hbal, hp, hbalance, Option.map_map]
      refine congrArg (fun f => (b.opening x).map f) (funext fun m => ?_)
      simp only [Function.comp_apply, credited_append, debited_append,
        ← credited_sub_debited_singleton p x]
      abel
    · rw [ho]
      rw [hp, List.mem_append, List.mem_singleton] at hmem
      rcases hmem with hmem | rfl
      · exact hsource q hmem
      · exact hs
    · rw [ho]
      rw [hp, List.mem_append, List.mem_singleton] at hmem
      rcases hmem with hmem | rfl
      · exact htarget q hmem
      · exact ht

end Book

end BankingTransactions.DoubleEntry
