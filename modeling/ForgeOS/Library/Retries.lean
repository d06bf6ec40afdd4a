import Mathlib.Data.List.Basic
import Mathlib.Tactic.SplitIfs

/-! Rounds of retries: every item that is left is tried once in a round, those whose try fails are
left for the next round, and the rounds end when nothing is left or no round is allowed any more.
Tries and successes are counted over all rounds, so the counts agree only if no try fails. -/

namespace ForgeOS.Library.Retries

variable {α : Type*}

structure Tally (α : Type*) where
  tried : ℕ := 0
  succeeded : ℕ := 0
  left : List α

-- an item as it is tried in a round, and whether the try succeeds
variable (again : ℕ → α → α) (succeeds : ℕ → α → Bool)

/-- The items that a round leaves. -/
def leftBy (r : ℕ) (items : List α) : List α := (items.map (again r)).filter fun x => !succeeds r x

def round (r : ℕ) (l : Tally α) : Tally α where
  tried := l.tried + l.left.length
  succeeded := l.succeeded + (l.left.length - (leftBy again succeeds r l.left).length)
  left := leftBy again succeeds r l.left

/-- The rounds from `r` on, as far as they are allowed. -/
def rounds : ℕ → ℕ → Tally α → Tally α
  | 0, _, l => l
  | allowed + 1, r, l =>
    if (round again succeeds r l).left = [] then round again succeeds r l
    else rounds allowed (r + 1) (round again succeeds r l)

/-- What is tried for an item `k` rounds after the round `r`. -/
def nthTry (r : ℕ) : ℕ → α → α
  | 0, x => again r x
  | k + 1, x => nthTry (r + 1) k (again r x)

variable {again succeeds}

theorem leftBy_eq_nil {r : ℕ} {items : List α} :
    leftBy again succeeds r items = [] ↔ ∀ x ∈ items, succeeds r (again r x) = true := by
  simp [leftBy, List.filter_eq_nil_iff]

theorem length_leftBy_le (r : ℕ) (items : List α) :
    (leftBy again succeeds r items).length ≤ items.length := by
  have h := List.length_filter_le (fun x => !succeeds r x) (items.map (again r))
  rwa [List.length_map] at h

/-- Nothing is left in the end exactly when each item has a try that succeeds. -/
theorem left_rounds_eq_nil (allowed r : ℕ) (l : Tally α) :
    (rounds again succeeds allowed r l).left = [] ↔
      ∀ x ∈ l.left, ∃ k < allowed, succeeds (r + k) (nthTry again r k x) = true := by
  induction allowed generalizing r l with
  | zero => simp [rounds, List.eq_nil_iff_forall_not_mem]
  | succ allowed ih =>
    have hsplit : ∀ x, (∃ k < allowed + 1, succeeds (r + k) (nthTry again r k x) = true) ↔
        succeeds r (again r x) = true ∨
          ∃ k < allowed, succeeds (r + 1 + k) (nthTry again (r + 1) k (again r x)) = true := by
      intro x
      rw [Nat.exists_lt_succ_left]
      simp [nthTry, Nat.add_assoc, Nat.add_comm 1]
    have hleft : (round again succeeds r l).left = leftBy again succeeds r l.left := rfl
    rw [rounds]
    split_ifs with hnone
    · rw [hleft, leftBy_eq_nil] at hnone
      refine iff_of_true (by rw [hleft, leftBy_eq_nil]; exact hnone) fun x hx => ?_
      exact (hsplit x).mpr (.inl (hnone x hx))
    · rw [ih, hleft]
      simp only [leftBy, List.mem_filter, List.mem_map, hsplit]
      constructor
      · intro h x hx
        by_cases hsucceeds : succeeds r (again r x) = true
        · exact .inl hsucceeds
        · exact .inr (h _ ⟨⟨x, hx, rfl⟩, by simp [hsucceeds]⟩)
      · rintro h _ ⟨⟨x, hx, rfl⟩, hfails⟩
        exact (h x hx).resolve_left (by simpa using hfails)

/-- Counts that differ never meet again. -/
theorem succeeded_rounds_lt (allowed r : ℕ) {l : Tally α} (h : l.succeeded < l.tried) :
    (rounds again succeeds allowed r l).succeeded < (rounds again succeeds allowed r l).tried := by
  induction allowed generalizing r l with
  | zero => exact h
  | succ allowed ih =>
    have hround : (round again succeeds r l).succeeded < (round again succeeds r l).tried := by
      simp only [round]
      omega
    rw [rounds]
    split_ifs
    · exact hround
    · exact ih (r + 1) hround

/-- The counts agree exactly when every first try succeeds. -/
theorem succeeded_rounds_eq (allowed r : ℕ) (items : List α) :
    (rounds again succeeds (allowed + 1) r { left := items }).succeeded =
        (rounds again succeeds (allowed + 1) r { left := items }).tried ↔
      ∀ x ∈ items, succeeds r (again r x) = true := by
  have hle := @length_leftBy_le α again succeeds r items
  rw [← leftBy_eq_nil, rounds]
  split_ifs with hnone
  · refine iff_of_true ?_ hnone
    have hlength := congrArg List.length hnone
    simp only [round, List.length_nil] at hlength ⊢
    omega
  · refine iff_of_false (Nat.ne_of_lt ?_) hnone
    refine succeeded_rounds_lt allowed (r + 1) ?_
    have hpos := List.length_pos_iff.mpr hnone
    simp only [round] at hpos ⊢
    omega

theorem le_tried_rounds (allowed r : ℕ) (l : Tally α) :
    l.tried ≤ (rounds again succeeds allowed r l).tried := by
  induction allowed generalizing r l with
  | zero => exact Nat.le_refl _
  | succ allowed ih =>
    have hround : l.tried ≤ (round again succeeds r l).tried := Nat.le_add_right _ _
    rw [rounds]
    split_ifs
    · exact hround
    · exact Nat.le_trans hround (ih (r + 1) _)

/-- Something is tried exactly when there is something to try. -/
theorem tried_rounds_eq_zero (allowed r : ℕ) (items : List α) :
    (rounds again succeeds (allowed + 1) r { left := items }).tried = 0 ↔ items = [] := by
  constructor
  · intro h
    have hfirst : items.length ≤
        (rounds again succeeds (allowed + 1) r { left := items }).tried := by
      rw [rounds]
      split_ifs
      · simp [round]
      · refine Nat.le_trans ?_ (le_tried_rounds allowed (r + 1) _)
        simp [round]
    exact List.length_eq_zero_iff.mp (by omega)
  · rintro rfl
    rfl

end ForgeOS.Library.Retries
