import Mathlib.Data.List.Basic
import Mathlib.Data.Int.Basic
import Mathlib.Data.Nat.Digits.Lemmas

/-! `int(text, 16)` on bytes. Beside digits it reads blanks around the number, a sign, the
prefix `0x` and single underscores between the digits. The format `08x` writes a number that
fits in 32 bits in eight digits. -/

namespace ForgeOS.Python

abbrev Bytes := List UInt8

instance lawfulBEq_bytes : LawfulBEq Bytes := inferInstance

def isBlank (b : UInt8) : Bool := (9 ≤ b && b ≤ 13) || b == 32

def hexDigit? (b : UInt8) : Option ℕ :=
  if 48 ≤ b ∧ b ≤ 57 then some (b.toNat - 48)
  else if 97 ≤ b ∧ b ≤ 102 then some (b.toNat - 87)
  else if 65 ≤ b ∧ b ≤ 70 then some (b.toNat - 55)
  else none

def isHexDigit (b : UInt8) : Bool := (hexDigit? b).isSome

/-- The digits from here on and what follows them. An underscore must stand between digits. -/
def scanDigits : ℕ → Bool → Bytes → Option (ℕ × Bytes)
  | acc, afterUnderscore, [] => if afterUnderscore then none else some (acc, [])
  | acc, afterUnderscore, b :: bs =>
    match hexDigit? b with
    | some d => scanDigits (acc * 16 + d) false bs
    | none =>
      if b = 95 then if afterUnderscore then none else scanDigits acc true bs
      else if afterUnderscore then none
      else some (acc, b :: bs)

/-- A sign, and the text behind it. -/
def scanSign : Bytes → Bool × Bytes
  | 43 :: bs => (false, bs)
  | 45 :: bs => (true, bs)
  | bs => (false, bs)

/-- The text behind a prefix `0x`, which one underscore may follow. -/
def skipPrefix : Bytes → Bytes
  | 48 :: x :: bs =>
    if x = 120 ∨ x = 88 then
      match bs with
      | 95 :: bs => bs
      | bs => bs
    else 48 :: x :: bs
  | bs => bs

/-- `int(text, 16)`; `none` is a `ValueError`. -/
def int16 (text : Bytes) : Option ℤ :=
  let (negative, unsigned) := scanSign (text.dropWhile isBlank)
  let digits := skipPrefix unsigned
  match digits with
  | [] => none
  | b :: _ =>
    if isHexDigit b then
      match scanDigits 0 false digits with
      | some (n, rest) =>
        if rest.all isBlank then some (if negative then -(n : ℤ) else n) else none
      | none => none
    else none

/-- The number that hexadecimal digits alone spell. -/
def hexNumber (text : Bytes) : ℕ := text.foldl (fun acc b => acc * 16 + (hexDigit? b).getD 0) 0

/-- `int(text, 16)` for eight hexadecimal digits and nothing else. -/
def strictHex (text : Bytes) : Option ℤ :=
  if text.length = 8 ∧ text.all isHexDigit then some (hexNumber text) else none

theorem scanDigits_of_all {text : Bytes} (h : text.all isHexDigit) (acc : ℕ) :
    scanDigits acc false text =
      some (text.foldl (fun acc b => acc * 16 + (hexDigit? b).getD 0) acc, []) := by
  induction text generalizing acc with
  | nil => rfl
  | cons b bs ih =>
    rw [List.all_cons, Bool.and_eq_true] at h
    obtain ⟨d, hd⟩ := Option.isSome_iff_exists.mp h.1
    rw [scanDigits, hd]
    dsimp only
    rw [ih h.2, List.foldl_cons, hd, Option.getD_some]

theorem isHexDigit_iff {b : UInt8} :
    isHexDigit b = true ↔ 48 ≤ b ∧ b ≤ 57 ∨ 97 ≤ b ∧ b ≤ 102 ∨ 65 ≤ b ∧ b ≤ 70 := by
  rw [isHexDigit, hexDigit?]
  split_ifs <;> simp_all

/-- No digit begins a blank, a sign or an underscore. -/
theorem isHexDigit_begins {b : UInt8} (h : isHexDigit b = true) :
    isBlank b = false ∧ b ≠ 43 ∧ b ≠ 45 ∧ b ≠ 120 ∧ b ≠ 88 := by
  rw [isHexDigit_iff] at h
  refine ⟨?_, ?_, ?_, ?_, ?_⟩
  · simp only [UInt8.le_iff_toNat_le, UInt8.reduceToNat] at h
    simp only [isBlank, Bool.or_eq_false_iff, Bool.and_eq_false_iff, decide_eq_false_iff_not,
      beq_eq_false_iff_ne, ne_eq, UInt8.le_iff_toNat_le, ← UInt8.toNat_inj, UInt8.reduceToNat]
    omega
  all_goals
    rintro rfl
    revert h
    decide

/-- Eight digits are read as what they spell. -/
theorem int16_of_strictHex {text : Bytes} {n : ℤ} (h : strictHex text = some n) :
    int16 text = some n := by
  rw [strictHex] at h
  split_ifs at h with hdigits
  obtain ⟨hlength, hall⟩ := hdigits
  obtain ⟨a, b, rest, rfl⟩ : ∃ a b rest, text = a :: b :: rest := by
    match text, hlength with
    | a :: b :: rest, _ => exact ⟨a, b, rest, rfl⟩
  have hall' := hall
  simp only [List.all_cons, Bool.and_eq_true] at hall'
  obtain ⟨hablank, haplus, haminus, -, -⟩ := isHexDigit_begins hall'.1
  obtain ⟨-, -, -, hbx, hbX⟩ := isHexDigit_begins hall'.2.1
  have hdrop : (a :: b :: rest).dropWhile isBlank = a :: b :: rest := by
    rw [List.dropWhile_cons_of_neg (by simp [hablank])]
  have hsign : scanSign (a :: b :: rest) = (false, a :: b :: rest) := by
    rw [scanSign]
    · exact fun bs h => haplus (List.cons.inj h).1
    · exact fun bs h => haminus (List.cons.inj h).1
  have hskip : skipPrefix (a :: b :: rest) = a :: b :: rest := by
    by_cases ha : a = 48
    · subst ha
      simp [skipPrefix, hbx, hbX]
    · rw [skipPrefix]
      exact fun x bs h => absurd (List.cons.inj h).1 ha
  rw [int16, hdrop, hsign]
  dsimp only
  rw [hskip]
  dsimp only
  rw [if_pos hall'.1, scanDigits_of_all hall]
  rw [← h]
  rfl

example : int16 "0x0081a4".toUTF8.toList = some 33188 ∧ int16 " +1_0a \t".toUTF8.toList = some 266 ∧
    int16 "1__00000".toUTF8.toList = none := by decide_cbv

/-! ### Writing -/

def hexDigit (d : ℕ) : UInt8 := UInt8.ofNat (if d < 10 then 48 + d else 87 + d)

/-- `f"{n:08x}"` -/
def format08x (n : ℕ) : Bytes :=
  let digits := (Nat.digits 16 n).reverse.map hexDigit
  List.replicate (8 - digits.length) 48 ++ digits

theorem hexDigit?_hexDigit : ∀ d < 16, hexDigit? (hexDigit d) = some d := by decide

theorem length_digits {n : ℕ} (h : n < 2 ^ 32) : (Nat.digits 16 n).length ≤ 8 := by
  rw [Nat.digits_length_le_iff (by omega)]
  omega

theorem length_format08x {n : ℕ} (h : n < 2 ^ 32) : (format08x n).length = 8 := by
  have hlength := length_digits h
  rw [format08x, List.length_append, List.length_replicate, List.length_map, List.length_reverse]
  omega

theorem isHexDigit_format08x (n : ℕ) : (format08x n).all isHexDigit = true := by
  rw [List.all_eq_true]
  intro b hb
  rcases List.mem_append.mp hb with hb | hb
  · rw [List.eq_of_mem_replicate hb]
    rfl
  · obtain ⟨d, hd, rfl⟩ := List.mem_map.mp hb
    have hlt : d < 16 := Nat.digits_lt_base (by omega) (List.mem_reverse.mp hd)
    rw [isHexDigit, hexDigit?_hexDigit d hlt]
    rfl

theorem hexNumber_format08x (n : ℕ) : hexNumber (format08x n) = n := by
  have hzeros : ∀ count, (List.replicate count (48 : UInt8)).foldl
      (fun acc b => acc * 16 + (hexDigit? b).getD 0) 0 = 0 := by
    intro count
    induction count with
    | zero => rfl
    | succ count ih =>
      rw [List.replicate_succ, List.foldl_cons]
      exact ih
  have hdigits : ∀ ds : List ℕ, (∀ d ∈ ds, d < 16) →
      (ds.reverse.map hexDigit).foldl (fun acc b => acc * 16 + (hexDigit? b).getD 0) 0 =
        Nat.ofDigits 16 ds := by
    intro ds hds
    induction ds with
    | nil => rfl
    | cons d ds ih =>
      obtain ⟨hd, hds⟩ := List.forall_mem_cons.mp hds
      rw [List.reverse_cons, List.map_append, List.foldl_append, ih hds, Nat.ofDigits_cons]
      simp only [List.map_cons, List.map_nil, List.foldl_cons, List.foldl_nil,
        hexDigit?_hexDigit d hd, Option.getD_some]
      omega
  rw [hexNumber, format08x, List.foldl_append, hzeros,
    hdigits _ fun d hd => Nat.digits_lt_base (by omega) hd, Nat.ofDigits_digits]

theorem strictHex_format08x {n : ℕ} (h : n < 2 ^ 32) : strictHex (format08x n) = some (n : ℤ) := by
  rw [strictHex, if_pos ⟨length_format08x h, isHexDigit_format08x n⟩, hexNumber_format08x]

/-! ### Four bytes -/

/-- `struct.pack("<I", n)`, for a number below `2^32`. -/
def pack32 (n : ℕ) : Bytes :=
  [UInt8.ofNat n, UInt8.ofNat (n / 2 ^ 8), UInt8.ofNat (n / 2 ^ 16), UInt8.ofNat (n / 2 ^ 24)]

/-- `struct.unpack("<I", word)[0]`, for a word of four bytes. -/
def unpack32 (word : Bytes) : ℕ := word.foldr (fun b acc => b.toNat + 2 ^ 8 * acc) 0

theorem length_pack32 (n : ℕ) : (pack32 n).length = 4 := rfl

theorem unpack32_pack32 {n : ℕ} (h : n < 2 ^ 32) : unpack32 (pack32 n) = n := by
  simp only [unpack32, pack32, List.foldr_cons, List.foldr_nil, UInt8.toNat_ofNat']
  omega

theorem pack32_unpack32 {word : Bytes} (h : word.length = 4) : pack32 (unpack32 word) = word := by
  obtain ⟨a, b, c, d, rfl⟩ : ∃ a b c d, word = [a, b, c, d] := by
    match word, h with
    | [a, b, c, d], _ => exact ⟨a, b, c, d, rfl⟩
  have ha := a.toNat_lt
  have hb := b.toNat_lt
  have hc := c.toNat_lt
  have hd := d.toNat_lt
  simp only [pack32, unpack32, List.foldr_cons, List.foldr_nil, List.cons.injEq, and_true,
    ← UInt8.toNat_inj, UInt8.toNat_ofNat']
  omega

end ForgeOS.Python
