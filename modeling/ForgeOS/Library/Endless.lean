import Mathlib.Data.Nat.Notation
import Mathlib.Order.Basic
import Mathlib.Tactic.Push

/-! A machine that goes on with an endless sequence of answers, and its end by a measure that never
rises and falls as long as it has not ended. -/

namespace ForgeOS.Library.Endless

variable {σ ε : Type*} (step : σ → ε → σ) (s : σ) (answers : ℕ → ε)

/-- The state after so many answers. -/
def after : ℕ → σ
  | 0 => s
  | n + 1 => step (after n) (answers n)

variable {step s answers}

theorem after_invariant {I : σ → Prop} (hs : I s)
    (hstep : ∀ n, I (after step s answers n) →
      I (step (after step s answers n) (answers n))) (n : ℕ) : I (after step s answers n) := by
  induction n with
  | zero => exact hs
  | succ n ih => exact hstep n ih

/-- What holds from some time on stays. -/
theorem after_stays {I : σ → Prop} (hstep : ∀ s a, I s → I (step s a)) {n : ℕ}
    (hn : I (after step s answers n)) {m : ℕ} (hm : n ≤ m) : I (after step s answers m) := by
  induction hm with
  | refl => exact hn
  | step _ ih => exact hstep _ _ ih

/-- A measure that never rises, and that falls later on as long as the end is not reached. -/
theorem ends_of_measure {ended : σ → Prop} (measure : σ → ℕ)
    (hle : ∀ n, measure (after step s answers (n + 1)) ≤ measure (after step s answers n))
    (hfalls : ∀ n, ¬ended (after step s answers n) → ∃ m, n ≤ m ∧
      (ended (after step s answers m) ∨
        measure (after step s answers (m + 1)) < measure (after step s answers m))) :
    ∃ n, ended (after step s answers n) := by
  by_contra hnever
  push Not at hnever
  have hmono : ∀ n m, n ≤ m →
      measure (after step s answers m) ≤ measure (after step s answers n) := by
    intro n m hnm
    induction hnm with
    | refl => exact Nat.le_refl _
    | step _ ih => exact Nat.le_trans (hle _) ih
  -- the measure is as far below its first value as one likes
  have hbelow : ∀ k, ∃ n, measure (after step s answers n) + k ≤ measure s := by
    intro k
    induction k with
    | zero => exact ⟨0, Nat.le_refl _⟩
    | succ k ih =>
      obtain ⟨n, hn⟩ := ih
      obtain ⟨m, hnm, hend | hfall⟩ := hfalls n (hnever n)
      · exact absurd hend (hnever m)
      · refine ⟨m + 1, ?_⟩
        have hle := hmono n m hnm
        omega
  obtain ⟨n, hn⟩ := hbelow (measure s + 1)
  omega

/-- How many of the first answers are marked. -/
def marked (p : ℕ → Bool) (n : ℕ) : ℕ := ((List.range n).filter p).length

theorem marked_succ (p : ℕ → Bool) (n : ℕ) :
    marked p (n + 1) = marked p n + if p n then 1 else 0 := by
  rw [marked, marked, List.range_succ, List.filter_append, List.length_append]
  cases hp : p n <;> simp [hp]

end ForgeOS.Library.Endless
