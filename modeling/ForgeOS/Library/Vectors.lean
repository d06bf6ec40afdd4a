import Mathlib.Algebra.BigOperators.Group.Finset.Basic
import Mathlib.Algebra.Order.BigOperators.Group.Finset
import Mathlib.Algebra.BigOperators.Ring.Finset
import Mathlib.Tactic.Linarith
import Mathlib.Tactic.Ring

/-! Vectors of natural numbers: their inner product, quotients of square roots rounded to
the nearest integer, and counts of a list by classes. Normalizing counts and rounding
loses nothing as long as the counts are small. -/

namespace ForgeOS.Library.Vectors

open Finset

/-! ### Inner products -/

def dot (a b : List ℕ) : ℕ := (List.zipWith (· * ·) a b).sum

@[simp] theorem dot_nil_left (b : List ℕ) : dot [] b = 0 := rfl

@[simp] theorem dot_nil_right (a : List ℕ) : dot a [] = 0 := by
  cases a <;> rfl

@[simp] theorem dot_cons (x y : ℕ) (a b : List ℕ) : dot (x :: a) (y :: b) = x * y + dot a b := by
  rw [dot, List.zipWith_cons_cons, List.sum_cons]
  rfl

/-- The inner product is at most the product of the norms. -/
theorem dot_sq_le (a b : List ℕ) : dot a b ^ 2 ≤ dot a a * dot b b := by
  induction a generalizing b with
  | nil => simp
  | cons x a ih =>
    cases b with
    | nil => simp
    | cons y b =>
      have h := ih b
      rw [dot_cons, dot_cons, dot_cons]
      have hcross : (2 * (x * y) * dot a b) ^ 2 ≤ (x ^ 2 * dot b b + y ^ 2 * dot a a) ^ 2 := by
        have hprod : x ^ 2 * y ^ 2 * dot a b ^ 2 ≤ x ^ 2 * y ^ 2 * (dot a a * dot b b) :=
          Nat.mul_le_mul_left _ h
        nlinarith [sq_nonneg ((x : ℤ) ^ 2 * dot b b - (y : ℤ) ^ 2 * dot a a), hprod]
      have hle : 2 * (x * y) * dot a b ≤ x ^ 2 * dot b b + y ^ 2 * dot a a :=
        (Nat.pow_le_pow_iff_left two_ne_zero).mp hcross
      nlinarith [h, hle]

theorem mul_self_le_dot {a : List ℕ} {x : ℕ} (hx : x ∈ a) : x * x ≤ dot a a := by
  induction a with
  | nil => simp at hx
  | cons y a ih =>
    rw [dot_cons]
    rcases List.mem_cons.mp hx with rfl | hx
    · exact Nat.le_add_right _ _
    · exact (ih hx).trans (Nat.le_add_left _ _)

/-! ### Rounded roots -/

/-- The integer next to the square root of `num / den`. -/
def roundRoot (num den : ℕ) : ℕ := (Nat.sqrt (4 * num / den) + 1) / 2

theorem roundRoot_bounds (num : ℕ) {den : ℕ} (hden : 0 < den) :
    (2 * roundRoot num den - 1) ^ 2 * den ≤ 4 * num ∧
      4 * num < (2 * roundRoot num den + 1) ^ 2 * den := by
  have hlo : 2 * roundRoot num den - 1 ≤ Nat.sqrt (4 * num / den) := by
    rw [roundRoot]
    omega
  have hhi : Nat.sqrt (4 * num / den) < 2 * roundRoot num den + 1 := by
    rw [roundRoot]
    omega
  constructor
  · have hsq : (2 * roundRoot num den - 1) ^ 2 ≤ 4 * num / den :=
      (Nat.pow_le_pow_left hlo 2).trans (Nat.sqrt_le' _)
    exact (Nat.mul_le_mul_right den hsq).trans (Nat.div_mul_le_self _ _)
  · have hsq : 4 * num / den < (2 * roundRoot num den + 1) ^ 2 := Nat.sqrt_lt'.mp hhi
    exact (Nat.div_lt_iff_lt_mul hden).mp hsq

theorem roundRoot_mono {num num' den : ℕ} (h : num ≤ num') : roundRoot num den ≤ roundRoot num' den := by
  have hdiv : 4 * num / den ≤ 4 * num' / den := Nat.div_le_div_right (Nat.mul_le_mul_left 4 h)
  have hsqrt := Nat.sqrt_le_sqrt hdiv
  rw [roundRoot, roundRoot]
  omega

/-- The root of a square is not rounded. -/
theorem roundRoot_sq_mul (k : ℕ) {den : ℕ} (hden : 0 < den) : roundRoot (k ^ 2 * den) den = k := by
  have hfour : 4 * (k ^ 2 * den) = (2 * k) * (2 * k) * den := by ring
  rw [roundRoot, hfour, Nat.mul_div_cancel _ hden, Nat.sqrt_eq]
  omega

/-- A root that is not too small is not rounded to zero. -/
theorem roundRoot_pos {num den : ℕ} (hden : 0 < den) (h : den ≤ 4 * num) : 0 < roundRoot num den := by
  by_contra hzero
  have hupper := (roundRoot_bounds num hden).2
  have hk : roundRoot num den = 0 := by omega
  rw [hk] at hupper
  omega

/-- A root of at most one, in millionths. -/
theorem roundRoot_le {n N : ℕ} (hN : 0 < N) (hn : n ^ 2 ≤ N) :
    roundRoot (10 ^ 12 * n ^ 2) N ≤ 10 ^ 6 := by
  by_contra hlarge
  have hbound := (roundRoot_bounds (10 ^ 12 * n ^ 2) hN).1
  have hroot : 2 * 10 ^ 6 + 1 ≤ 2 * roundRoot (10 ^ 12 * n ^ 2) N - 1 := by omega
  have hsq := Nat.mul_le_mul_right N (Nat.pow_le_pow_left hroot 2)
  have hsmall : 4 * (10 ^ 12 * n ^ 2) ≤ 4 * 10 ^ 12 * N := by
    calc 4 * (10 ^ 12 * n ^ 2) = 4 * 10 ^ 12 * n ^ 2 := by ring
      _ ≤ 4 * 10 ^ 12 * N := Nat.mul_le_mul_left _ hn
  have hchain := (hsq.trans hbound).trans hsmall
  have hconst : (2 * 10 ^ 6 + 1) ^ 2 * N > 4 * 10 ^ 12 * N :=
    Nat.mul_lt_mul_of_pos_right (by norm_num) hN
  omega

/-- Roots that agree to the millionth have quotients that agree, while the radicands are small. -/
theorem le_of_roundRoot_le {n m N M : ℕ} (hN : 0 < N) (hM : 0 < M) (hn : n ^ 2 ≤ N)
    (hsize : N * M ≤ 10 ^ 5) (h : roundRoot (10 ^ 12 * n ^ 2) N = roundRoot (10 ^ 12 * m ^ 2) M) :
    n ^ 2 * M ≤ m ^ 2 * N := by
  have hk := roundRoot_le hN hn
  have hupper := (roundRoot_bounds (10 ^ 12 * n ^ 2) hN).2
  have hlower := (roundRoot_bounds (10 ^ 12 * m ^ 2) hM).1
  rw [← h] at hlower
  generalize roundRoot (10 ^ 12 * n ^ 2) N = k at hk hupper hlower
  by_contra hlt
  have hgap : m ^ 2 * N + 1 ≤ n ^ 2 * M := by omega
  -- the two bounds on the root leave less room than the gap
  have hup : 4 * 10 ^ 12 * (n ^ 2 * M) ≤ (2 * k + 1) ^ 2 * (N * M) := by nlinarith
  have hlow : (2 * k - 1) ^ 2 * (N * M) ≤ 4 * 10 ^ 12 * (m ^ 2 * N) := by nlinarith
  have hroom : (2 * k + 1) ^ 2 * (N * M) ≤ (2 * k - 1) ^ 2 * (N * M) + (8 * k + 1) * (N * M) := by
    rw [← Nat.add_mul]
    refine Nat.mul_le_mul_right _ ?_
    cases k with
    | zero => norm_num
    | succ k =>
      have hpred : 2 * (k + 1) - 1 = 2 * k + 1 := by omega
      rw [hpred]
      nlinarith
  have hspace : (8 * k + 1) * (N * M) ≤ (8 * 10 ^ 6 + 1) * 10 ^ 5 :=
    Nat.mul_le_mul (by omega) hsize
  nlinarith

/-! ### Counts by class -/

/-- Each element is in one class. -/
theorem sum_countP {α : Type*} (cls : α → ℕ) (d : ℕ) {l : List α} (h : ∀ a ∈ l, cls a < d) :
    ∑ i ∈ range d, l.countP (fun a => cls a = i) = l.length := by
  induction l with
  | nil => simp
  | cons a l ih =>
    have ha : cls a < d := h a List.mem_cons_self
    have hsplit : ∀ i, (a :: l).countP (fun a => cls a = i) =
        l.countP (fun a => cls a = i) + if cls a = i then 1 else 0 := by
      intro i
      simp [List.countP_cons]
    rw [sum_congr rfl fun i _ => hsplit i, sum_add_distrib,
      ih fun b hb => h b (List.mem_cons_of_mem _ hb), sum_ite_eq, if_pos (mem_range.mpr ha),
      List.length_cons]

/-- Counts with the same sum whose squares are in one proportion are the same. -/
theorem eq_of_proportional {d N M : ℕ} {f g : ℕ → ℕ} (hsum : ∑ i ∈ range d, f i = ∑ i ∈ range d, g i)
    (h : ∀ i < d, f i ^ 2 * M = g i ^ 2 * N) (hN : 0 < N) : ∀ i < d, f i = g i := by
  have hpair : ∀ i < d, ∀ j < d, f i * f j * M = g i * g j * N := by
    intro i hi j hj
    refine Nat.pow_left_injective (n := 2) two_ne_zero ?_
    calc (f i * f j * M) ^ 2 = (f i ^ 2 * M) * (f j ^ 2 * M) := by ring
      _ = (g i ^ 2 * N) * (g j ^ 2 * N) := by rw [h i hi, h j hj]
      _ = (g i * g j * N) ^ 2 := by ring
  have hsquare : ∀ (u : ℕ → ℕ) (K : ℕ), ∑ i ∈ range d, ∑ j ∈ range d, u i * u j * K =
      (∑ i ∈ range d, u i) * (∑ j ∈ range d, u j) * K := by
    intro u K
    rw [sum_mul_sum, sum_mul]
    exact sum_congr rfl fun i _ => (sum_mul _ _ _).symm
  have htotal : (∑ i ∈ range d, f i) * (∑ i ∈ range d, f i) * M =
      (∑ i ∈ range d, f i) * (∑ i ∈ range d, f i) * N := by
    have hsums := sum_congr rfl fun i hi => sum_congr rfl fun j hj =>
      hpair i (mem_range.mp hi) j (mem_range.mp hj)
    rw [hsquare f M, hsquare g N, ← hsum] at hsums
    exact hsums
  intro i hi
  by_cases hzero : ∑ i ∈ range d, f i = 0
  · have hf : f i = 0 := sum_eq_zero_iff.mp hzero i (mem_range.mpr hi)
    have hg : g i = 0 := sum_eq_zero_iff.mp (hsum ▸ hzero) i (mem_range.mpr hi)
    rw [hf, hg]
  · have hMN : M = N := Nat.eq_of_mul_eq_mul_left
      (Nat.mul_pos (Nat.pos_of_ne_zero hzero) (Nat.pos_of_ne_zero hzero)) htotal
    have hsq := h i hi
    rw [hMN] at hsq
    exact Nat.pow_left_injective (n := 2) two_ne_zero (Nat.eq_of_mul_eq_mul_right hN hsq)

end ForgeOS.Library.Vectors
