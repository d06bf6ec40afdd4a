import Mathlib.Algebra.Order.Group.Defs
import Mathlib.Algebra.Order.Sub.Defs
import Mathlib.Data.List.Basic

/-! A limit on what happens in a window of time that slides. The times of what has been admitted are
kept until the window has passed over them, and no more is admitted while as many are kept as the
limit says. -/

namespace ForgeOS.Library.SlidingWindow

variable {α : Type*} [AddCommGroup α] [LinearOrder α] [IsOrderedAddMonoid α]

/-- What is kept of the times, from a moment on. -/
def recent (width now : α) (times : List α) : List α := times.filter (now - width < ·)

/-- The times in the half-open window that ends at a moment. -/
def inWindow (width t : α) (times : List α) : List α := times.filter fun u => t - width < u ∧ u ≤ t

/-- What is kept, and all that has been admitted. -/
structure Limiter (α : Type*) where
  kept : List α
  admitted : List α

/-- The limiter after an attempt. -/
def Limiter.attempt (limit : ℕ) (width : α) (l : Limiter α) (now : α) : Limiter α :=
  if (recent width now l.kept).length ≥ limit then { l with kept := recent width now l.kept }
  else ⟨recent width now l.kept ++ [now], l.admitted ++ [now]⟩

variable {limit : ℕ} {width now : α} {l : Limiter α} {times : List α}

omit [IsOrderedAddMonoid α] in
theorem recent_append (width now : α) (times times' : List α) :
    recent width now (times ++ times') = recent width now times ++ recent width now times' :=
  List.filter_append times times'

theorem recent_recent {before : α} (h : before ≤ now) (times : List α) :
    recent width now (recent width before times) = recent width now times := by
  rw [recent, recent, recent, List.filter_filter]
  apply List.filter_congr
  intro u _
  have hle : before - width ≤ now - width := sub_le_sub_right h width
  by_cases hu : now - width < u
  · simp [hu, lt_of_le_of_lt hle hu]
  · simp [hu]

/-- A window that ends later holds at most what is recent now. -/
theorem length_inWindow_le {t : α} (h : now ≤ t) (times : List α) :
    (inWindow width t times).length ≤ (recent width now times).length := by
  apply List.Sublist.length_le
  apply List.monotone_filter_right
  intro u hu
  simp only [decide_eq_true_eq] at hu ⊢
  exact lt_of_le_of_lt (sub_le_sub_right h width) hu.1

/-- What is kept is what has been admitted in the window that ends now, and no window holds more
than the limit. -/
structure Limiter.Fits (limit : ℕ) (width now : α) (l : Limiter α) : Prop where
  kept : l.kept = recent width now l.admitted
  past : ∀ u ∈ l.admitted, u ≤ now
  bound : ∀ t, (inWindow width t l.admitted).length ≤ limit

theorem Limiter.Fits.attempt {before : α} (h : l.Fits limit width before) (hwidth : 0 < width)
    (hnow : before ≤ now) : (l.attempt limit width now).Fits limit width now := by
  have hkept : recent width now l.kept = recent width now l.admitted := by
    rw [h.kept, recent_recent hnow]
  have hpast : ∀ u ∈ l.admitted, u ≤ now := fun u hu => (h.past u hu).trans hnow
  rw [Limiter.attempt]
  split_ifs with hfull
  · exact ⟨hkept, hpast, h.bound⟩
  · refine ⟨?_, ?_, fun t => ?_⟩
    · have hself : recent width now [now] = [now] := by simp [recent, hwidth]
      change recent width now l.kept ++ [now] = recent width now (l.admitted ++ [now])
      rw [recent_append, hself, hkept]
    · intro u hu
      rcases List.mem_append.mp hu with hu | hu
      · exact hpast u hu
      · exact le_of_eq (List.mem_singleton.mp hu)
    · change (inWindow width t (l.admitted ++ [now])).length ≤ limit
      rw [inWindow, List.filter_append, List.length_append, ← inWindow]
      by_cases hin : t - width < now ∧ now ≤ t
      · -- what the window holds beside this attempt is recent now
        have hle : (inWindow width t l.admitted).length ≤ (recent width now l.admitted).length :=
          length_inWindow_le hin.2 l.admitted
        rw [← hkept] at hle
        simp [hin]
        omega
      · simpa [hin] using h.bound t

omit [IsOrderedAddMonoid α] in
theorem Limiter.fits_empty (limit : ℕ) (width now : α) :
    (⟨[], []⟩ : Limiter α).Fits limit width now where
  kept := rfl
  past := fun _ hu => absurd hu List.not_mem_nil
  bound := fun _ => Nat.zero_le _

/-- At nondecreasing times, no window holds more than the limit. -/
theorem Limiter.Fits.attempts {before : α} (h : l.Fits limit width before) (hwidth : 0 < width)
    (htimes : (before :: times).Pairwise (· ≤ ·)) (t : α) :
    (inWindow width t (times.foldl (Limiter.attempt limit width) l).admitted).length ≤ limit := by
  induction times generalizing before l with
  | nil => exact h.bound t
  | cons now times ih =>
    obtain ⟨hhead, htail⟩ := List.pairwise_cons.mp htimes
    exact ih (h.attempt hwidth (hhead now List.mem_cons_self)) htail

end ForgeOS.Library.SlidingWindow
