import Mathlib.Data.List.TakeWhile

/-! The streak at the end of a list: how many of its last elements have a property,
counted from the end up to the first that has not. -/

namespace ForgeOS.Library.Streak

variable {α : Type*} (p : α → Bool)

def streak (l : List α) : ℕ := (l.reverse.takeWhile p).length

@[simp] theorem streak_nil : streak p [] = 0 := rfl

theorem streak_snoc (l : List α) (a : α) :
    streak p (l ++ [a]) = if p a then streak p l + 1 else 0 := by
  rw [streak, List.reverse_append, List.reverse_singleton, List.singleton_append,
    List.takeWhile_cons]
  split_ifs
  · rfl
  · rfl

end ForgeOS.Library.Streak
