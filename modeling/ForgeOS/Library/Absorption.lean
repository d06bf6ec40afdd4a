import Mathlib.Data.Nat.Notation
import Mathlib.Data.List.Basic

/-! Folding a function over the blocks of a message that comes in pieces. What does not fill a block
is kept until more comes, so that only the whole message matters and not how it was cut. -/

namespace ForgeOS.Library.Absorption

variable {α σ : Type*} {size : ℕ} {compress : σ → List α → σ}

/-- What came of the blocks so far, and what came behind them. -/
structure Absorber (α σ : Type*) where
  state : σ
  pending : List α

/-- One more element. -/
def absorb (size : ℕ) (compress : σ → List α → σ) (a : Absorber α σ) (x : α) : Absorber α σ :=
  if a.pending.length + 1 = size then ⟨compress a.state (a.pending ++ [x]), []⟩
  else ⟨a.state, a.pending ++ [x]⟩

def absorbAll (size : ℕ) (compress : σ → List α → σ) (a : Absorber α σ) (xs : List α) :
    Absorber α σ :=
  xs.foldl (absorb size compress) a

theorem absorbAll_append (a : Absorber α σ) (xs ys : List α) :
    absorbAll size compress a (xs ++ ys) =
      absorbAll size compress (absorbAll size compress a xs) ys :=
  List.foldl_append

/-- What leaves the block unfilled is kept. -/
theorem absorbAll_short (s : σ) (pending : List α) {xs : List α}
    (h : pending.length + xs.length < size) :
    absorbAll size compress ⟨s, pending⟩ xs = ⟨s, pending ++ xs⟩ := by
  induction xs generalizing pending with
  | nil => simp [absorbAll]
  | cons x xs ih =>
    rw [List.length_cons] at h
    have hx : absorb size compress ⟨s, pending⟩ x = ⟨s, pending ++ [x]⟩ := by
      rw [absorb, if_neg (by dsimp only; omega)]
    have hxs := ih (pending ++ [x]) (by rw [List.length_append, List.length_singleton]; omega)
    rw [List.append_assoc] at hxs
    rw [absorbAll, List.foldl_cons, hx]
    exact hxs

/-- What fills the block is compressed with it. -/
theorem absorbAll_full (s : σ) (pending : List α) {xs : List α} (hne : xs ≠ [])
    (h : pending.length + xs.length = size) :
    absorbAll size compress ⟨s, pending⟩ xs = ⟨compress s (pending ++ xs), []⟩ := by
  obtain ⟨ys, x, rfl⟩ := List.eq_nil_or_concat xs |>.resolve_left hne
  rw [List.concat_eq_append, List.length_append, List.length_singleton] at h
  rw [List.concat_eq_append, absorbAll_append, absorbAll_short s pending (by omega)]
  rw [absorbAll, List.foldl_cons, List.foldl_nil, absorb]
  rw [if_pos (by rw [List.length_append]; omega), List.append_assoc]

variable (compress)

/-- A message that is a row of blocks. -/
theorem absorbAll_blocks (s : σ) {blocks : List (List α)} (hsize : 0 < size)
    (h : ∀ b ∈ blocks, b.length = size) :
    absorbAll size compress ⟨s, []⟩ blocks.flatten = ⟨blocks.foldl compress s, []⟩ := by
  induction blocks generalizing s with
  | nil => rfl
  | cons b blocks ih =>
    have hb : b.length = size := h b (List.mem_cons_self ..)
    have hne : b ≠ [] := by
      rintro rfl
      rw [List.length_nil] at hb
      omega
    rw [List.flatten_cons, absorbAll_append, absorbAll_full s [] hne (by simpa using hb)]
    exact ih _ fun b' hb' => h b' (List.mem_cons_of_mem _ hb')

/-- How much is kept depends only on how much has come. -/
theorem length_pending (a : Absorber α σ) (h : a.pending.length < size) (xs : List α) :
    (absorbAll size compress a xs).pending.length = (a.pending.length + xs.length) % size := by
  induction xs generalizing a with
  | nil => exact (Nat.mod_eq_of_lt h).symm
  | cons x xs ih =>
    rw [absorbAll, List.foldl_cons, ← absorbAll, List.length_cons]
    by_cases hfull : a.pending.length + 1 = size
    · have ha : absorb size compress a x = ⟨compress a.state (a.pending ++ [x]), []⟩ := if_pos hfull
      rw [ha, ih _ (by dsimp only [List.length_nil]; omega), ← Nat.add_assoc,
        Nat.add_right_comm, hfull, Nat.add_mod_left, List.length_nil, Nat.zero_add]
    · have ha : absorb size compress a x = ⟨a.state, a.pending ++ [x]⟩ := if_neg hfull
      have hlen : (a.pending ++ [x]).length = a.pending.length + 1 := by simp
      rw [ha, ih _ (by dsimp only; omega), hlen]
      congr 1
      omega

end ForgeOS.Library.Absorption
