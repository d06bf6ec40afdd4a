import Mathlib.Logic.Function.Basic
import ForgeOS.Native.Scalars

/-! Stores into a buffer of bytes, one by one, so that it can be said where they go. A text that is
stored from a place on stands there, and one that goes on at its end stands there with it. -/

namespace ForgeOS.Native

/-- A byte that is stored at a place of `out`. -/
abbrev Store := ℕ × UInt8

/-- Bytes from a place on. -/
def storeFrom : ℕ → Bytes → List Store
  | _, [] => []
  | n, c :: cs => (n, c) :: storeFrom (n + 1) cs

/-- What is in `out` after the stores. -/
def storeAll (stores : List Store) (out : ℕ → UInt8) : ℕ → UInt8 :=
  stores.foldl (fun out w => Function.update out w.1 w.2) out

/-- A text that stands in `out` from a place on. -/
def put (out : ℕ → UInt8) (n : ℕ) (text : Bytes) (i : ℕ) : UInt8 :=
  if n ≤ i then (text[i - n]?).getD (out i) else out i

/-- The result of a function that writes into `out`, with its stores in their order. -/
structure Written where
  result : ℤ
  stores : List Store
  deriving DecidableEq, Repr

/-- The stores of before come first. -/
def Written.after (w : Written) (stores : List Store) : Written :=
  { w with stores := stores ++ w.stores }

theorem mem_storeFrom {n : ℕ} {text : Bytes} {w : Store} (h : w ∈ storeFrom n text) :
    w.1 < n + text.length := by
  induction text generalizing n with
  | nil => cases h
  | cons c cs ih =>
    rw [List.length_cons]
    rcases List.mem_cons.mp h with rfl | h
    · dsimp only
      omega
    · have hrest := ih h
      omega

theorem storeAll_append (xs ys : List Store) (out : ℕ → UInt8) :
    storeAll (xs ++ ys) out = storeAll ys (storeAll xs out) := List.foldl_append

theorem put_nil (out : ℕ → UInt8) (n : ℕ) : put out n [] = out := by
  funext i
  simp [put]

theorem storeAll_storeFrom (text : Bytes) : ∀ (n : ℕ) (out : ℕ → UInt8),
    storeAll (storeFrom n text) out = put out n text := by
  induction text with
  | nil => exact fun n out => (put_nil out n).symm
  | cons c cs ih =>
    intro n out
    rw [storeFrom]
    change storeAll (storeFrom (n + 1) cs) (Function.update out n c) = _
    rw [ih]
    funext i
    rcases Nat.lt_trichotomy i n with h | rfl | h
    · have hni : ¬n ≤ i := by omega
      have hni' : ¬n + 1 ≤ i := by omega
      rw [put, put, if_neg hni, if_neg hni', Function.update_of_ne (by omega)]
    · have hni : ¬i + 1 ≤ i := by omega
      rw [put, put, if_neg hni, if_pos le_rfl, Function.update_self, Nat.sub_self]
      rfl
    · obtain ⟨k, hk⟩ : ∃ k, i - n = k + 1 := ⟨i - n - 1, by omega⟩
      have hk' : i - (n + 1) = k := by omega
      rw [put, put, if_pos (by omega), if_pos (by omega), hk, hk', List.getElem?_cons_succ,
        Function.update_of_ne (by omega)]

/-- A zero behind a text is written over by the text that goes on there. -/
theorem put_put (out : ℕ → UInt8) (n : ℕ) (text : Bytes) (c : UInt8) (rest zero : Bytes)
    (hzero : zero.length ≤ 1) :
    put (put out n (text ++ zero)) (n + text.length) (c :: rest) = put out n (text ++ c :: rest) := by
  funext i
  by_cases h : n + text.length ≤ i
  · have hsub : i - n - text.length = i - (n + text.length) := by omega
    rw [put, put, put, if_pos h, if_pos (by omega), if_pos (by omega),
      List.getElem?_append_right (by omega), List.getElem?_append_right (by omega), hsub]
    cases hi : i - (n + text.length) with
    | zero => rfl
    | succ k =>
      have hnone : zero[k + 1]? = none := List.getElem?_eq_none (by omega)
      rw [hnone]
      rfl
  · rw [put, put, put, if_neg h]
    by_cases hn : n ≤ i
    · rw [if_pos hn, if_pos hn, List.getElem?_append_left (by omega),
        List.getElem?_append_left (by omega)]
    · rw [if_neg hn, if_neg hn]

end ForgeOS.Native
