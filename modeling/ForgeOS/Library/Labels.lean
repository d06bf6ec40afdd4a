import Mathlib.Data.List.Nodup

/-! Texts that are told apart by how they begin: each begins with a label, and none begins with two
labels. -/

namespace ForgeOS.Library.Labels

variable {α ι : Type*}

/-- No text begins with two of the labels. -/
def Apart (label : ι → List α) : Prop := ∀ j k x, label j <+: x → label k <+: x → j = k

theorem Apart.prepend {label : ι → List α} (h : Apart label) (base : List α) :
    Apart fun k => base ++ label k := by
  intro j k x hj hk
  obtain ⟨y, rfl⟩ := hj
  rw [List.append_assoc] at hk
  exact h j k (label j ++ y) (List.prefix_append _ _) ((List.prefix_append_right_inj base).mp hk)

/-- A code without the separator is what stands before the separator. -/
theorem takeWhile_of_prefix [DecidableEq α] {sep : α} {code x : List α} (hsep : sep ∉ code)
    (h : code ++ [sep] <+: x) : x.takeWhile (· != sep) = code := by
  obtain ⟨y, rfl⟩ := h
  rw [List.append_assoc, List.takeWhile_append_of_pos]
  · simp
  · intro a ha
    have hne : a ≠ sep := by
      rintro rfl
      exact hsep ha
    simpa using hne

/-- Codes with a separator after them, which is in none of them. -/
theorem apart_of_separator [DecidableEq α] {code : ι → List α} (sep : α)
    (hcode : Function.Injective code) (hsep : ∀ k, sep ∉ code k) : Apart fun k => code k ++ [sep] := by
  intro j k x hj hk
  apply hcode
  rw [← takeWhile_of_prefix (hsep j) hj, takeWhile_of_prefix (hsep k) hk]

/-- Where every text of a group begins with the label of the group, a text that stands twice stands
twice in one group. -/
theorem Apart.nodup_flatMap_iff {κ : Type*} {label : ι → List α} (h : Apart label) {key : κ → ι}
    {names : κ → List (List α)} {ks : List κ}
    (hnames : ∀ k ∈ ks, ∀ x ∈ names k, label (key k) <+: x) (hks : (ks.map key).Nodup) :
    (ks.flatMap names).Nodup ↔ ∀ k ∈ ks, (names k).Nodup := by
  rw [List.nodup_flatMap, and_iff_left]
  refine (List.pairwise_map.mp hks).imp_of_mem fun {j k} hj hk hne => ?_
  intro x hxj hxk
  exact hne (h (key j) (key k) x (hnames j hj x hxj) (hnames k hk x hxk))

/-! ### Numbers -/

theorem toDigits_injective : Function.Injective (Nat.toDigits 10) := by
  intro m n h
  rw [← Nat.ofDigitChars_ten_toDigits (n := m), h, Nat.ofDigitChars_ten_toDigits]

/-- Zeros before a number do not change it. -/
theorem leftpad_toDigits_injective (width : ℕ) :
    Function.Injective fun n => (Nat.toDigits 10 n).leftpad width '0' := by
  have hvalue : ∀ n, Nat.ofDigitChars 10 ((Nat.toDigits 10 n).leftpad width '0') 0 = n := by
    intro n
    rw [List.leftpad, Nat.ofDigitChars_append, Nat.ofDigitChars_replicate_zero, Nat.mul_zero,
      Nat.ofDigitChars_ten_toDigits]
  intro m n h
  rw [← hvalue m, ← hvalue n]
  exact congrArg (Nat.ofDigitChars 10 · 0) h

theorem not_mem_toDigits {c : Char} (hc : c.isDigit = false) (n : ℕ) : c ∉ Nat.toDigits 10 n := by
  intro hmem
  have hdigit := Nat.isDigit_of_mem_toDigits (by decide) (by decide) hmem
  simp [hc] at hdigit

theorem not_mem_leftpad {c : Char} (hc : c.isDigit = false) (width n : ℕ) :
    c ∉ (Nat.toDigits 10 n).leftpad width '0' := by
  intro hmem
  rcases List.mem_append.mp hmem with hzero | hdigit
  · rw [List.eq_of_mem_replicate hzero] at hc
    cases hc
  · exact not_mem_toDigits hc n hdigit

end ForgeOS.Library.Labels
