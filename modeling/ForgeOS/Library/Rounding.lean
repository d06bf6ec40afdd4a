import Mathlib.Algebra.Order.Floor.Ring
import Mathlib.Algebra.Order.Field.Basic
import Mathlib.Tactic.Linarith
import Mathlib.Tactic.NormNum

/-! Rounding to a number of decimal places. Of two numbers that are equally near, the one
with the even last digit is taken. -/

namespace ForgeOS.Library.Rounding

variable {K : Type*} [Field K] [LinearOrder K] [FloorRing K]

/-- The nearest integer, the even one of two. -/
def nearestEven (x : K) : ℤ :=
  if 2 * Int.fract x < 1 ∨ 2 * Int.fract x = 1 ∧ ⌊x⌋ % 2 = 0 then ⌊x⌋ else ⌊x⌋ + 1

/-- The nearest number with so many places. -/
def roundPlaces (places : ℕ) (x : K) : K := nearestEven (x * 10 ^ places) / 10 ^ places

theorem floor_le_nearestEven (x : K) : ⌊x⌋ ≤ nearestEven x := by
  unfold nearestEven
  split_ifs
  · exact le_rfl
  · omega

theorem nearestEven_le_floor_add_one (x : K) : nearestEven x ≤ ⌊x⌋ + 1 := by
  unfold nearestEven
  split_ifs
  · omega
  · exact le_rfl

variable [IsStrictOrderedRing K]

@[simp] theorem nearestEven_intCast (n : ℤ) : nearestEven (n : K) = n := by
  simp [nearestEven]

theorem nearestEven_mono {x y : K} (hxy : x ≤ y) : nearestEven x ≤ nearestEven y := by
  rcases (Int.floor_le_floor hxy).lt_or_eq with hlt | heq
  · calc
      nearestEven x ≤ ⌊x⌋ + 1 := nearestEven_le_floor_add_one x
      _ ≤ ⌊y⌋ := hlt
      _ ≤ nearestEven y := floor_le_nearestEven y
  · -- between the same two integers only the fractional parts differ
    have hfract : Int.fract x ≤ Int.fract y := by
      rw [Int.fract, Int.fract, heq]
      linarith
    by_cases hy : 2 * Int.fract y < 1 ∨ 2 * Int.fract y = 1 ∧ ⌊y⌋ % 2 = 0
    · have hx : 2 * Int.fract x < 1 ∨ 2 * Int.fract x = 1 ∧ ⌊x⌋ % 2 = 0 := by
        rcases hy with hy | ⟨hy, heven⟩
        · left
          linarith
        · rcases lt_or_eq_of_le (show 2 * Int.fract x ≤ 1 by linarith) with hlt | hhalf
          · exact .inl hlt
          · exact .inr ⟨hhalf, heq ▸ heven⟩
      rw [nearestEven, nearestEven, if_pos hx, if_pos hy, heq]
    · rw [nearestEven.eq_def y, if_neg hy, ← heq]
      exact nearestEven_le_floor_add_one x

variable {places : ℕ}

theorem roundPlaces_mono (places : ℕ) : Monotone (roundPlaces places : K → K) := by
  intro x y hxy
  have hpos : (0 : K) < 10 ^ places := by positivity
  have hscaled : x * 10 ^ places ≤ y * 10 ^ places := mul_le_mul_of_nonneg_right hxy hpos.le
  exact div_le_div_of_nonneg_right (Int.cast_le.mpr (nearestEven_mono hscaled)) hpos.le

/-- A number with so many places stays as it is. -/
theorem roundPlaces_eq_self {x : K} {n : ℤ} (h : x * 10 ^ places = n) :
    roundPlaces places x = x := by
  have hne : (10 : K) ^ places ≠ 0 := by positivity
  rw [roundPlaces, h, nearestEven_intCast, ← h, mul_div_cancel_right₀ x hne]

/-- Rounding does not leave an interval whose ends have so many places. -/
theorem roundPlaces_mem_Icc {x a b : K} {m n : ℤ} (ha : a * 10 ^ places = m)
    (hb : b * 10 ^ places = n) (hx : x ∈ Set.Icc a b) : roundPlaces places x ∈ Set.Icc a b := by
  constructor
  · rw [← roundPlaces_eq_self ha]
    exact roundPlaces_mono places hx.1
  · rw [← roundPlaces_eq_self hb]
    exact roundPlaces_mono places hx.2

end ForgeOS.Library.Rounding
