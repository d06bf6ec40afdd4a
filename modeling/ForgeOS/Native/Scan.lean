import Mathlib.Data.Nat.Digits.Lemmas
import ForgeOS.Native.Scalars

/-! Text as the programs in C read and write it: `sscanf` with the conversions `%llu`, `%u`,
`%15s` and `%c`, and `printf` with `%llu` and `%u`. A number that is written is read back, whatever
follows it, as long as that is not a digit. -/

namespace ForgeOS.Native

/-- The bytes of a text in ASCII. -/
def ascii (text : String) : Bytes := text.toList.map fun c => .ofNat c.toNat

/-- The characters before the terminating zero. -/
def cstr (buffer : Bytes) : Bytes := buffer.takeWhile (· != 0)

def isspace (c : UInt8) : Bool := c == 32 || (9 ≤ c && c ≤ 13)

/-- A blank in a format, which also begins every conversion but `%c`. -/
def skipSpace (text : Bytes) : Bytes := text.dropWhile isspace

def digitsValue (digits : Bytes) : ℕ := digits.foldl (fun v c => 10 * v + (c.toNat - 48)) 0

/-- `strtoull` in base ten behind blanks: a number out of range becomes the greatest one, a minus
sign negates modulo 2^64. -/
def strtoull (text : Bytes) : Option (UInt64 × Bytes) :=
  let text := skipSpace text
  let negative := text.head? == some 45
  let unsigned := if negative || text.head? == some 43 then text.drop 1 else text
  let digits := unsigned.takeWhile isdigit
  if digits = [] then none
  else
    let value := digitsValue digits
    some (if 2 ^ 64 ≤ value then .ofNat (2 ^ 64 - 1)
      else if negative then -.ofNat value else .ofNat value, unsigned.dropWhile isdigit)

/-- `%llu` -/
def scanLongLong (text : Bytes) : Option (UInt64 × Bytes) := strtoull text

/-- `%u`, which keeps the low 32 bits. -/
def scanUnsigned (text : Bytes) : Option (UInt32 × Bytes) :=
  (strtoull text).map fun (value, rest) => (value.toUInt32, rest)

/-- `%15s`, for another width than 15 too. -/
def scanWord (width : ℕ) (text : Bytes) : Option (Bytes × Bytes) :=
  let text := skipSpace text
  let word := (text.take width).takeWhile fun c => !isspace c
  if word = [] then none else some (word, text.drop word.length)

/-- The characters of a format that stand for themselves. -/
def scanLiteral (word text : Bytes) : Option Bytes :=
  if word <+: text then some (text.drop word.length) else none

/-- `%llu` and `%u` in `printf`. -/
def decimal (n : ℕ) : Bytes :=
  if n = 0 then [48] else (Nat.digits 10 n).reverse.map fun d => .ofNat (48 + d)

/-! ### Numbers -/

theorem digit_toNat {d : ℕ} (hd : d < 10) : (UInt8.ofNat (48 + d)).toNat = 48 + d := by
  rw [UInt8.toNat_ofNat']
  omega

theorem isdigit_ofNat {d : ℕ} (hd : d < 10) : isdigit (.ofNat (48 + d)) = true := by
  have hnat := digit_toNat hd
  simp only [isdigit, Bool.and_eq_true, decide_eq_true_eq, UInt8.le_iff_toNat_le, hnat]
  exact ⟨Nat.le_add_right 48 d, by change 48 + d ≤ 57; omega⟩

theorem decimal_isdigit (n : ℕ) : ∀ c ∈ decimal n, isdigit c = true := by
  intro c hc
  unfold decimal at hc
  split_ifs at hc with hn
  · rw [List.mem_singleton.mp hc]
    rfl
  · obtain ⟨d, hd, rfl⟩ := List.mem_map.mp hc
    exact isdigit_ofNat (Nat.digits_lt_base (by omega) (List.mem_reverse.mp hd))

theorem decimal_ne_nil (n : ℕ) : decimal n ≠ [] := by
  unfold decimal
  split_ifs with hn
  · exact List.cons_ne_nil _ _
  · rw [ne_eq, List.map_eq_nil_iff, List.reverse_eq_nil_iff]
    exact Nat.digits_ne_nil_iff_ne_zero.mpr hn

theorem digitsValue_snoc (digits : Bytes) (c : UInt8) :
    digitsValue (digits ++ [c]) = 10 * digitsValue digits + (c.toNat - 48) := by
  simp only [digitsValue, List.foldl_append, List.foldl_cons, List.foldl_nil]

theorem digitsValue_reverse {ds : List ℕ} (hds : ∀ d ∈ ds, d < 10) :
    digitsValue (ds.reverse.map fun d => .ofNat (48 + d)) = Nat.ofDigits 10 ds := by
  induction ds with
  | nil => rfl
  | cons d ds ih =>
    rw [List.reverse_cons, List.map_append, List.map_singleton, digitsValue_snoc,
      ih fun d hd => hds d (List.mem_cons_of_mem _ hd), digit_toNat (hds d List.mem_cons_self),
      Nat.ofDigits_cons]
    exact Nat.add_comm _ _ |>.trans (by omega)

theorem digitsValue_decimal (n : ℕ) : digitsValue (decimal n) = n := by
  unfold decimal
  split_ifs with hn
  · rw [hn]
    rfl
  · rw [digitsValue_reverse fun d hd => Nat.digits_lt_base (by omega) hd, Nat.ofDigits_digits]

/-- How many digits a number has at most. -/
theorem decimal_length {n k : ℕ} (hk : 0 < k) (hn : n < 10 ^ k) : (decimal n).length ≤ k := by
  unfold decimal
  split_ifs with h0
  · exact hk
  · rw [List.length_map, List.length_reverse]
    exact (Nat.digits_length_le_iff (by omega) n).mpr hn

/-- What does not go on with a number before it. -/
def EndsNumber (rest : Bytes) : Prop := ∀ c ∈ rest.head?, isdigit c = false

theorem endsNumber_cons {c : UInt8} {rest : Bytes} (h : isdigit c = false) :
    EndsNumber (c :: rest) := by
  intro d hd
  cases hd
  exact h

theorem takeWhile_digits {digits rest : Bytes} (hdigits : ∀ c ∈ digits, isdigit c = true)
    (hrest : EndsNumber rest) :
    (digits ++ rest).takeWhile isdigit = digits ∧ (digits ++ rest).dropWhile isdigit = rest := by
  induction digits with
  | nil =>
    cases rest with
    | nil => exact ⟨rfl, rfl⟩
    | cons c rest =>
      have hc := hrest c rfl
      exact ⟨List.takeWhile_cons_of_neg (by simp [hc]), List.dropWhile_cons_of_neg (by simp [hc])⟩
  | cons d digits ih =>
    have hd := hdigits d List.mem_cons_self
    obtain ⟨htake, hdrop⟩ := ih fun c hc => hdigits c (List.mem_cons_of_mem _ hc)
    rw [List.cons_append, List.takeWhile_cons_of_pos hd, List.dropWhile_cons_of_pos hd, htake]
    exact ⟨rfl, hdrop⟩

theorem isdigit_begins {c : UInt8} (h : isdigit c = true) : isspace c = false ∧ c ≠ 45 ∧ c ≠ 43 := by
  simp only [isdigit, Bool.and_eq_true, decide_eq_true_eq] at h
  refine ⟨?_, ?_, ?_⟩
  · simp only [isspace, Bool.or_eq_false_iff, beq_eq_false_iff_ne, Bool.and_eq_false_iff,
      decide_eq_false_iff_not]
    refine ⟨?_, .inr ?_⟩
    · rintro rfl
      exact absurd h.1 (by decide)
    · intro hle
      exact absurd (UInt8.le_trans h.1 hle) (by decide)
  · rintro rfl
    exact absurd h.1 (by decide)
  · rintro rfl
    exact absurd h.1 (by decide)

theorem skipSpace_of_head {c : UInt8} {text : Bytes} (h : isspace c = false) :
    skipSpace (c :: text) = c :: text :=
  List.dropWhile_cons_of_neg (by simp [h])

theorem skipSpace_blank (text : Bytes) : skipSpace (32 :: text) = skipSpace text :=
  List.dropWhile_cons_of_pos rfl

/-- A number that is written is read back, with what follows it. -/
theorem strtoull_decimal (n : UInt64) {rest : Bytes} (hrest : EndsNumber rest) :
    strtoull (decimal n.toNat ++ rest) = some (n, rest) := by
  obtain ⟨c, cs, hcs⟩ := List.exists_cons_of_ne_nil (decimal_ne_nil n.toNat)
  have hdigits : ∀ d ∈ c :: cs, isdigit d = true := hcs ▸ decimal_isdigit n.toNat
  have hvalue : digitsValue (c :: cs) = n.toNat := hcs ▸ digitsValue_decimal n.toNat
  obtain ⟨htake, hdrop⟩ := takeWhile_digits hdigits hrest
  obtain ⟨hspace, hminus, hplus⟩ := isdigit_begins (hdigits c List.mem_cons_self)
  rw [hcs]
  simp only [List.cons_append] at htake hdrop ⊢
  have hlt : ¬2 ^ 64 ≤ n.toNat := Nat.not_le.mpr n.toNat_lt
  simp only [strtoull, skipSpace_of_head hspace, List.head?_cons, beq_iff_eq, Option.some.injEq,
    hminus, hplus, Bool.or_eq_true, or_self, if_false, htake, hdrop,
    reduceCtorEq, hvalue, hlt, UInt64.ofNat_toNat]

theorem strtoull_blank (text : Bytes) : strtoull (32 :: text) = strtoull text := by
  simp only [strtoull, skipSpace_blank]

theorem scanUnsigned_decimal {n : ℕ} (hn : n < 2 ^ 32) {rest : Bytes} (hrest : EndsNumber rest) :
    scanUnsigned (decimal n ++ rest) = some (.ofNat n, rest) := by
  have hnat : (UInt64.ofNat n).toNat = n := UInt64.toNat_ofNat_of_lt' (hn.trans (by decide))
  have h := strtoull_decimal (.ofNat n) hrest
  rw [hnat] at h
  rw [scanUnsigned, h]
  simp

/-! ### Words -/

/-- A word that is written is read back before a blank. -/
theorem scanWord_append {width : ℕ} {word rest : Bytes} (hword : word ≠ []) (hlen : word.length ≤ width)
    (hspace : ∀ c ∈ word, isspace c = false) :
    scanWord width (word ++ 32 :: rest) = some (word, 32 :: rest) := by
  have hall : ∀ c ∈ word, (!isspace c) = true := fun c hc => by rw [hspace c hc]; rfl
  have hskip : skipSpace (word ++ 32 :: rest) = word ++ 32 :: rest := by
    cases word with
    | nil => exact absurd rfl hword
    | cons c cs => exact skipSpace_of_head (hspace c List.mem_cons_self)
  have htake : ((word ++ 32 :: rest).take width).takeWhile (fun c => !isspace c) = word := by
    rw [List.take_append, List.take_of_length_le hlen, List.takeWhile_append_of_pos hall]
    cases width - word.length with
    | zero => exact List.append_nil word
    | succ n =>
      rw [List.take_succ_cons, List.takeWhile_cons_of_neg (by decide), List.append_nil]
  simp only [scanWord, hskip, htake, if_neg hword, List.drop_left]

end ForgeOS.Native
