import Mathlib.Algebra.Group.Nat.Defs
import Mathlib.Data.List.Basic
import Mathlib.Data.List.TakeWhile
import Mathlib.Data.Int.Basic

/-! The parts of a JSON text without structure of their own: blanks, strings, numbers and the
three words. A scanner takes one of them off the front of the text, and a predicate says which
byte strings they are. Of a number the scanner takes as much as it can, so what follows must
not go on with it. -/

namespace ForgeOS.Native

abbrev Bytes := List UInt8

instance lawfulBEq_bytes : LawfulBEq Bytes := inferInstance

/-! ### Characters -/

/-- `strchr`, which finds the zero behind the characters too. -/
def strchr (chars : Bytes) (c : UInt8) : Bool := c == 0 || chars.contains c

/-- `" \r\n\t"` -/
def blanks : Bytes := [32, 13, 10, 9]

/-- `"\"\\/bfnrt"` -/
def escapes : Bytes := [34, 92, 47, 98, 102, 110, 114, 116]

def isdigit (c : UInt8) : Bool := 48 ≤ c && c ≤ 57

def isxdigit (c : UInt8) : Bool := isdigit c || (97 ≤ c && c ≤ 102) || (65 ≤ c && c ≤ 70)

theorem strchr_iff {chars : Bytes} {c : UInt8} (hc : c ≠ 0) : strchr chars c = true ↔ c ∈ chars := by
  rw [strchr, beq_false_of_ne hc, Bool.false_or, List.contains_iff_mem]

/-! ### Scanners -/

/-- The text behind the closing quotation mark. -/
def skipString : Bytes → Option Bytes
  | [] => none
  | c :: cs =>
    if c = 34 then some cs
    else if c < 32 then none
    else if c = 92 then
      match cs with
      | [] => none
      | c :: cs =>
        if c = 117 then
          match cs with
          | h₁ :: h₂ :: h₃ :: h₄ :: cs =>
            if isxdigit h₁ && isxdigit h₂ && isxdigit h₃ && isxdigit h₄ then skipString cs else none
          | _ => none
        else if strchr escapes c then skipString cs
        else none
    else skipString cs

def skipWord (word text : Bytes) : Option Bytes :=
  if word <+: text then some (text.drop word.length) else none

/-- The text behind a run of digits, of which there must be one. -/
def skipDigits (text : Bytes) : Option Bytes :=
  let rest := text.dropWhile isdigit
  if rest.length = text.length then none else some rest

def skipMinus : Bytes → Bytes
  | 45 :: rest => rest
  | rest => rest

def skipInteger : Bytes → Option Bytes
  | 48 :: rest => some rest
  | rest => skipDigits rest

def skipFraction : Bytes → Option Bytes
  | 46 :: rest => skipDigits rest
  | rest => some rest

def skipSign : Bytes → Bytes
  | 43 :: rest => rest
  | 45 :: rest => rest
  | rest => rest

def skipExponent : Bytes → Option Bytes
  | 101 :: rest => skipDigits (skipSign rest)
  | 69 :: rest => skipDigits (skipSign rest)
  | rest => some rest

def skipNumber (text : Bytes) : Option Bytes := do
  let rest ← skipInteger (skipMinus text)
  let rest ← skipFraction rest
  skipExponent rest

def wordTrue : Bytes := [116, 114, 117, 101]

def wordFalse : Bytes := [102, 97, 108, 115, 101]

def wordNull : Bytes := [110, 117, 108, 108]

/-- The word that begins with this byte. -/
def word (kind : UInt8) : Option Bytes :=
  if kind = 116 then some wordTrue
  else if kind = 102 then some wordFalse
  else if kind = 110 then some wordNull
  else none

/-- The text behind a word or a number, from its first byte on. -/
def skipPlain (text : Bytes) : Option Bytes :=
  match text with
  | [] => none
  | kind :: _ =>
    match word kind with
    | some w => skipWord w text
    | none => skipNumber text

/-! ### What they take -/

/-- Blanks, as they may stand between the parts of a text. -/
def IsBlank (text : Bytes) : Prop := ∀ c ∈ text, c ∈ blanks

/-- The characters of a string, between its quotation marks. -/
inductive IsChars : Bytes → Prop
  | nil : IsChars []
  | plain {c : UInt8} {cs : Bytes} (hc : 32 ≤ c ∧ c ≠ 34 ∧ c ≠ 92) (hcs : IsChars cs) :
    IsChars (c :: cs)
  | escape {c : UInt8} {cs : Bytes} (hc : c ∈ escapes) (hcs : IsChars cs) :
    IsChars (92 :: c :: cs)
  | unicode {h₁ h₂ h₃ h₄ : UInt8} {cs : Bytes}
    (hh : isxdigit h₁ ∧ isxdigit h₂ ∧ isxdigit h₃ ∧ isxdigit h₄) (hcs : IsChars cs) :
    IsChars (92 :: 117 :: h₁ :: h₂ :: h₃ :: h₄ :: cs)

def IsDigits (text : Bytes) : Prop := text ≠ [] ∧ ∀ c ∈ text, isdigit c = true

/-- `int`: zero, or digits of which the first is not zero. -/
def IsInteger (text : Bytes) : Prop := text = [48] ∨ IsDigits text ∧ text.head? ≠ some 48

/-- `frac` -/
def IsFraction (text : Bytes) : Prop := text = [] ∨ ∃ digits, IsDigits digits ∧ text = 46 :: digits

/-- `exp` -/
def IsExponent (text : Bytes) : Prop :=
  text = [] ∨ ∃ e sign digits, (e = 101 ∨ e = 69) ∧ (sign = [] ∨ sign = [43] ∨ sign = [45]) ∧
    IsDigits digits ∧ text = e :: (sign ++ digits)

/-- `number` -/
def IsNumber (text : Bytes) : Prop :=
  ∃ minus integer fraction exponent, (minus = [] ∨ minus = [45]) ∧ IsInteger integer ∧
    IsFraction fraction ∧ IsExponent exponent ∧
    text = minus ++ (integer ++ (fraction ++ exponent))

def IsWord (text : Bytes) : Prop := text = wordTrue ∨ text = wordFalse ∨ text = wordNull

/-- A word, a number or a string. -/
def IsScalar (text : Bytes) : Prop :=
  IsWord text ∨ IsNumber text ∨ ∃ cs, IsChars cs ∧ text = 34 :: (cs ++ [34])

/-- What stands behind a number must not go on with it. -/
def Ends (text : Bytes) : Prop :=
  ∀ c ∈ text.head?, isdigit c = false ∧ c ≠ 46 ∧ c ≠ 101 ∧ c ≠ 69

/-! ### Strings -/

theorem skipString_quote (rest : Bytes) : skipString (34 :: rest) = some rest := by
  rw [skipString.eq_def]
  rfl

theorem skipString_plain {c : UInt8} (hc : 32 ≤ c ∧ c ≠ 34 ∧ c ≠ 92) (cs : Bytes) :
    skipString (c :: cs) = skipString cs := by
  rw [skipString.eq_def]
  dsimp only
  rw [if_neg hc.2.1, if_neg (UInt8.not_lt.mpr hc.1), if_neg hc.2.2]

theorem skipString_escape {c : UInt8} (hc : c ∈ escapes) (cs : Bytes) :
    skipString (92 :: c :: cs) = skipString cs := by
  have hu : c ≠ 117 := by
    rintro rfl
    revert hc
    decide
  have hstrchr : strchr escapes c = true := by
    rw [strchr, Bool.or_eq_true, List.contains_iff_mem]
    exact .inr hc
  rw [skipString.eq_def]
  simp only [hu, hstrchr, if_true, if_false]
  rfl

theorem skipString_unicode (h₁ h₂ h₃ h₄ : UInt8) (cs : Bytes) :
    skipString (92 :: 117 :: h₁ :: h₂ :: h₃ :: h₄ :: cs) =
      if isxdigit h₁ && isxdigit h₂ && isxdigit h₃ && isxdigit h₄ then skipString cs else none := by
  rw [skipString.eq_def]
  rfl

theorem skipString_of_chars {cs : Bytes} (h : IsChars cs) (rest : Bytes) :
    skipString (cs ++ 34 :: rest) = some rest := by
  induction h with
  | nil => exact skipString_quote rest
  | @plain c cs hc hcs ih => rw [List.cons_append, skipString_plain hc, ih]
  | @escape c cs hc hcs ih => rw [List.cons_append, List.cons_append, skipString_escape hc, ih]
  | @unicode h₁ h₂ h₃ h₄ cs hh hcs ih =>
    simp only [List.cons_append]
    rw [skipString_unicode, hh.1, hh.2.1, hh.2.2.1, hh.2.2.2, ih]
    rfl

theorem chars_of_skipString {text rest : Bytes} (hzero : 0 ∉ text)
    (h : skipString text = some rest) : ∃ cs, IsChars cs ∧ text = cs ++ 34 :: rest := by
  fun_induction skipString text with
  | case1 => cases h
  | case2 cs =>
    obtain rfl := Option.some.inj h
    exact ⟨[], .nil, rfl⟩
  | case3 c cs => cases h
  | case4 => cases h
  | case5 h₁ h₂ h₃ h₄ cs hh _ _ ih =>
    simp only [List.mem_cons, not_or] at hzero
    obtain ⟨chars, hchars, rfl⟩ := ih hzero.2.2.2.2.2.2 h
    simp only [Bool.and_eq_true] at hh
    exact ⟨_, .unicode ⟨hh.1.1.1, hh.1.1.2, hh.1.2, hh.2⟩ hchars, rfl⟩
  | case6 => cases h
  | case7 => cases h
  | case8 c cs hu hc _ _ ih =>
    simp only [List.mem_cons, not_or] at hzero
    obtain ⟨chars, hchars, rfl⟩ := ih hzero.2.2 h
    exact ⟨_, .escape ((strchr_iff (Ne.symm hzero.2.1)).mp hc) hchars, rfl⟩
  | case9 => cases h
  | case10 c cs hquote hlow hslash ih =>
    simp only [List.mem_cons, not_or] at hzero
    obtain ⟨chars, hchars, rfl⟩ := ih hzero.2 h
    exact ⟨_, .plain ⟨UInt8.not_lt.mp hlow, hquote, hslash⟩ hchars, rfl⟩

/-! ### Digits -/

/-- No digit stands at the front. -/
def NoDigit (text : Bytes) : Prop := ∀ c ∈ text.head?, isdigit c = false

theorem skipDigits_append {digits rest : Bytes} (h : IsDigits digits) (hrest : NoDigit rest) :
    skipDigits (digits ++ rest) = some rest := by
  have hdrop : (digits ++ rest).dropWhile isdigit = rest := by
    rw [List.dropWhile_append_of_pos h.2]
    cases rest with
    | nil => rfl
    | cons c rest => rw [List.dropWhile_cons_of_neg (by simp [hrest c rfl])]
  have hlength : 0 < digits.length := List.length_pos_iff.mpr h.1
  rw [skipDigits, hdrop, if_neg]
  rw [List.length_append]
  omega

theorem digits_of_skipDigits {text rest : Bytes} (h : skipDigits text = some rest) :
    ∃ digits, IsDigits digits ∧ text = digits ++ rest := by
  rw [skipDigits] at h
  split_ifs at h with hlength
  obtain rfl := Option.some.inj h
  refine ⟨text.takeWhile isdigit, ⟨?_, fun c hc => List.mem_takeWhile_imp hc⟩,
    List.takeWhile_append_dropWhile.symm⟩
  intro hnil
  have hsplit := congrArg List.length (List.takeWhile_append_dropWhile (p := isdigit) (l := text))
  rw [hnil, List.nil_append] at hsplit
  exact hlength hsplit

/-- Digits begin with a digit. -/
theorem IsDigits.head {digits : Bytes} (h : IsDigits digits) :
    ∃ c cs, digits = c :: cs ∧ isdigit c = true := by
  obtain ⟨c, cs, rfl⟩ := List.exists_cons_of_ne_nil h.1
  exact ⟨c, cs, rfl, h.2 c List.mem_cons_self⟩

theorem ne_of_isdigit {c : UInt8} (h : isdigit c = true) :
    c ≠ 43 ∧ c ≠ 45 ∧ c ≠ 46 ∧ c ≠ 101 ∧ c ≠ 69 := by
  refine ⟨?_, ?_, ?_, ?_, ?_⟩
  all_goals
    rintro rfl
    revert h
    decide

/-! ### Numbers -/

theorem skipMinus_of_ne {c : UInt8} (h : c ≠ 45) (rest : Bytes) :
    skipMinus (c :: rest) = c :: rest := by
  rw [skipMinus]
  exact fun r hr => h (List.cons.inj hr).1

theorem skipMinus_append {minus text : Bytes} (h : minus = [] ∨ minus = [45])
    (htext : ∀ c ∈ text.head?, c ≠ 45) : skipMinus (minus ++ text) = text := by
  rcases h with rfl | rfl
  · cases text with
    | nil => rfl
    | cons c text => exact skipMinus_of_ne (htext c rfl) text
  · rfl

theorem skipSign_append {sign digits : Bytes} (h : sign = [] ∨ sign = [43] ∨ sign = [45])
    (hdigits : IsDigits digits) (rest : Bytes) : skipSign (sign ++ digits ++ rest) = digits ++ rest := by
  rcases h with rfl | rfl | rfl
  · obtain ⟨c, cs, rfl, hc⟩ := hdigits.head
    obtain ⟨hplus, hminus, -⟩ := ne_of_isdigit hc
    rw [List.nil_append, List.cons_append, skipSign]
    · exact fun r hr => hplus (List.cons.inj hr).1
    · exact fun r hr => hminus (List.cons.inj hr).1
  · rfl
  · rfl

theorem skipExponent_append {exponent rest : Bytes} (h : IsExponent exponent) (hrest : Ends rest) :
    skipExponent (exponent ++ rest) = some rest := by
  have hnoDigit : NoDigit rest := fun c hc => (hrest c hc).1
  rcases h with rfl | ⟨e, sign, digits, he, hsign, hdigits, rfl⟩
  · cases rest with
    | nil => rfl
    | cons c rest =>
      obtain ⟨-, -, hlower, hupper⟩ := hrest c rfl
      rw [List.nil_append, skipExponent]
      · exact fun r hr => hlower (List.cons.inj hr).1
      · exact fun r hr => hupper (List.cons.inj hr).1
  · have hskip : skipDigits (skipSign (sign ++ digits ++ rest)) = some rest := by
      rw [skipSign_append hsign hdigits, skipDigits_append hdigits hnoDigit]
    rcases he with rfl | rfl
    · exact hskip
    · exact hskip

theorem IsExponent.noDigit {exponent rest : Bytes} (h : IsExponent exponent) (hrest : Ends rest) :
    ∀ c ∈ (exponent ++ rest).head?, isdigit c = false ∧ c ≠ 46 := by
  rcases h with rfl | ⟨e, sign, digits, he, -, -, rfl⟩
  · exact fun c hc => ⟨(hrest c hc).1, (hrest c hc).2.1⟩
  · intro c hc
    obtain rfl : e = c := Option.some.inj hc
    rcases he with rfl | rfl
    · decide
    · decide

theorem skipFraction_append {fraction rest : Bytes} (h : IsFraction fraction)
    (hrest : ∀ c ∈ rest.head?, isdigit c = false ∧ c ≠ 46) :
    skipFraction (fraction ++ rest) = some rest := by
  rcases h with rfl | ⟨digits, hdigits, rfl⟩
  · cases rest with
    | nil => rfl
    | cons c rest =>
      rw [List.nil_append, skipFraction]
      exact fun r hr => (hrest c rfl).2 (List.cons.inj hr).1
  · exact skipDigits_append hdigits fun c hc => (hrest c hc).1

theorem IsFraction.noDigit {fraction rest : Bytes} (h : IsFraction fraction)
    (hrest : NoDigit rest) : NoDigit (fraction ++ rest) := by
  rcases h with rfl | ⟨digits, -, rfl⟩
  · exact hrest
  · intro c hc
    obtain rfl : 46 = c := Option.some.inj hc
    decide

theorem skipInteger_append {integer rest : Bytes} (h : IsInteger integer) (hrest : NoDigit rest) :
    skipInteger (integer ++ rest) = some rest := by
  rcases h with rfl | ⟨hdigits, hzero⟩
  · rfl
  · rw [← skipDigits_append hdigits hrest]
    obtain ⟨c, cs, rfl, -⟩ := hdigits.head
    rw [List.cons_append, skipInteger]
    rintro r hr
    exact hzero (congrArg some (List.cons.inj hr).1)

theorem IsInteger.head {integer : Bytes} (h : IsInteger integer) :
    ∃ c cs, integer = c :: cs ∧ isdigit c = true := by
  rcases h with rfl | ⟨hdigits, -⟩
  · exact ⟨48, [], rfl, by decide⟩
  · exact hdigits.head

/-- Of a number all is taken. -/
theorem skipNumber_append {text rest : Bytes} (h : IsNumber text) (hrest : Ends rest) :
    skipNumber (text ++ rest) = some rest := by
  obtain ⟨minus, integer, fraction, exponent, hminus, hinteger, hfraction, hexponent, rfl⟩ := h
  have hafter := hexponent.noDigit hrest
  have hdigit : NoDigit (exponent ++ rest) := fun c hc => (hafter c hc).1
  have hhead : ∀ c ∈ (integer ++ (fraction ++ (exponent ++ rest))).head?, c ≠ 45 := by
    obtain ⟨c, cs, rfl, hc⟩ := hinteger.head
    intro c' hc'
    obtain rfl : c = c' := Option.some.inj hc'
    exact (ne_of_isdigit hc).2.1
  simp only [List.append_assoc]
  rw [skipNumber, skipMinus_append hminus hhead,
    skipInteger_append hinteger (hfraction.noDigit hdigit)]
  simp only [Option.bind_eq_bind, Option.bind_some]
  rw [skipFraction_append hfraction hafter, Option.bind_some, skipExponent_append hexponent hrest]

theorem minus_of_skipMinus (text : Bytes) :
    ∃ minus, (minus = [] ∨ minus = [45]) ∧ text = minus ++ skipMinus text := by
  fun_cases skipMinus text with
  | case1 rest => exact ⟨[45], .inr rfl, rfl⟩
  | case2 => exact ⟨[], .inl rfl, rfl⟩

theorem integer_of_skipInteger {text rest : Bytes} (h : skipInteger text = some rest) :
    ∃ integer, IsInteger integer ∧ text = integer ++ rest := by
  fun_cases skipInteger text with
  | case1 rest' =>
    obtain rfl := Option.some.inj h
    exact ⟨[48], .inl rfl, rfl⟩
  | case2 _ hzero =>
    rw [skipInteger] at h
    · obtain ⟨digits, hdigits, rfl⟩ := digits_of_skipDigits h
      refine ⟨digits, .inr ⟨hdigits, fun hhead => ?_⟩, rfl⟩
      obtain ⟨c, cs, rfl, -⟩ := hdigits.head
      obtain rfl : c = 48 := Option.some.inj hhead
      exact hzero _ rfl
    · exact hzero

theorem fraction_of_skipFraction {text rest : Bytes} (h : skipFraction text = some rest) :
    ∃ fraction, IsFraction fraction ∧ text = fraction ++ rest := by
  fun_cases skipFraction text with
  | case1 rest' =>
    obtain ⟨digits, hdigits, rfl⟩ := digits_of_skipDigits h
    exact ⟨46 :: digits, .inr ⟨digits, hdigits, rfl⟩, rfl⟩
  | case2 _ hpoint =>
    rw [skipFraction] at h
    · obtain rfl := Option.some.inj h
      exact ⟨[], .inl rfl, rfl⟩
    · exact hpoint

theorem sign_of_skipSign (text : Bytes) :
    ∃ sign, (sign = [] ∨ sign = [43] ∨ sign = [45]) ∧ text = sign ++ skipSign text := by
  fun_cases skipSign text with
  | case1 rest => exact ⟨[43], .inr (.inl rfl), rfl⟩
  | case2 rest => exact ⟨[45], .inr (.inr rfl), rfl⟩
  | case3 => exact ⟨[], .inl rfl, rfl⟩

theorem exponent_of_skipExponent {text rest : Bytes} (h : skipExponent text = some rest) :
    ∃ exponent, IsExponent exponent ∧ text = exponent ++ rest := by
  have hmarked : ∀ (e : UInt8) (text : Bytes), (e = 101 ∨ e = 69) →
      skipDigits (skipSign text) = some rest →
      ∃ exponent, IsExponent exponent ∧ e :: text = exponent ++ rest := by
    intro e text he hdigits
    obtain ⟨sign, hsign, htext⟩ := sign_of_skipSign text
    obtain ⟨digits, hdigits, hrest⟩ := digits_of_skipDigits hdigits
    refine ⟨e :: (sign ++ digits), .inr ⟨e, sign, digits, he, hsign, hdigits, rfl⟩, ?_⟩
    rw [htext, hrest, List.cons_append, List.append_assoc]
  fun_cases skipExponent text with
  | case1 text => exact hmarked 101 text (.inl rfl) h
  | case2 text => exact hmarked 69 text (.inr rfl) h
  | case3 _ hlower hupper =>
    rw [skipExponent] at h
    · obtain rfl := Option.some.inj h
      exact ⟨[], .inl rfl, rfl⟩
    · exact hlower
    · exact hupper

theorem number_of_skipNumber {text rest : Bytes} (h : skipNumber text = some rest) :
    ∃ number, IsNumber number ∧ text = number ++ rest := by
  rw [skipNumber] at h
  simp only [Option.bind_eq_bind, Option.bind_eq_some_iff] at h
  obtain ⟨afterInteger, hinteger, afterFraction, hfraction, hexponent⟩ := h
  obtain ⟨minus, hminus, htext⟩ := minus_of_skipMinus text
  obtain ⟨integer, isInteger, htext'⟩ := integer_of_skipInteger hinteger
  obtain ⟨fraction, isFraction, rfl⟩ := fraction_of_skipFraction hfraction
  obtain ⟨exponent, isExponent, rfl⟩ := exponent_of_skipExponent hexponent
  refine ⟨_, ⟨minus, integer, fraction, exponent, hminus, isInteger, isFraction, isExponent, rfl⟩, ?_⟩
  rw [htext, htext']
  simp only [List.append_assoc]

/-! ### Words and numbers -/

theorem skipWord_eq_some {w text rest : Bytes} : skipWord w text = some rest ↔ text = w ++ rest := by
  rw [skipWord]
  constructor
  · intro h
    split_ifs at h with hprefix
    obtain ⟨behind, rfl⟩ := hprefix
    rw [List.drop_left, Option.some.injEq] at h
    rw [h]
  · rintro rfl
    rw [if_pos (List.prefix_append w rest), List.drop_left]

theorem word_eq_some {kind : UInt8} {w : Bytes} (h : word kind = some w) :
    IsWord w ∧ w.head? = some kind := by
  rw [word] at h
  split_ifs at h with ht hf hn
  · obtain rfl := Option.some.inj h
    exact ⟨.inl rfl, by rw [ht]; rfl⟩
  · obtain rfl := Option.some.inj h
    exact ⟨.inr (.inl rfl), by rw [hf]; rfl⟩
  · obtain rfl := Option.some.inj h
    exact ⟨.inr (.inr rfl), by rw [hn]; rfl⟩

theorem IsNumber.head {text : Bytes} (h : IsNumber text) :
    ∃ c cs, text = c :: cs ∧ (c = 45 ∨ isdigit c = true) := by
  obtain ⟨minus, integer, fraction, exponent, hminus, hinteger, -, -, rfl⟩ := h
  obtain ⟨c, cs, rfl, hc⟩ := hinteger.head
  rcases hminus with rfl | rfl
  · exact ⟨c, _, rfl, .inr hc⟩
  · exact ⟨45, _, rfl, .inl rfl⟩

/-- A word or a number is not a string, and opens no object or array. -/
theorem plain_head {text : Bytes} (h : IsWord text ∨ IsNumber text) :
    ∃ c cs, text = c :: cs ∧ c ≠ 34 ∧ c ≠ 123 ∧ c ≠ 91 := by
  rcases h with (rfl | rfl | rfl) | hnumber
  · exact ⟨_, _, rfl, by decide⟩
  · exact ⟨_, _, rfl, by decide⟩
  · exact ⟨_, _, rfl, by decide⟩
  · obtain ⟨c, cs, rfl, hc⟩ := hnumber.head
    refine ⟨c, cs, rfl, ?_, ?_, ?_⟩
    all_goals
      rintro rfl
      revert hc
      decide

theorem skipPlain_append {text rest : Bytes} (h : IsWord text ∨ IsNumber text) (hrest : Ends rest) :
    skipPlain (text ++ rest) = some rest := by
  rcases h with (rfl | rfl | rfl) | hnumber
  · exact skipWord_eq_some.mpr rfl
  · exact skipWord_eq_some.mpr rfl
  · exact skipWord_eq_some.mpr rfl
  · have hskip := skipNumber_append hnumber hrest
    obtain ⟨c, cs, rfl, hc⟩ := hnumber.head
    have hword : word c = none := by
      rw [word, if_neg, if_neg, if_neg]
      all_goals
        rintro rfl
        revert hc
        decide
    rw [List.cons_append] at hskip ⊢
    rw [skipPlain, hword]
    exact hskip

theorem plain_of_skipPlain {text rest : Bytes} (h : skipPlain text = some rest) :
    ∃ plain, (IsWord plain ∨ IsNumber plain) ∧ text = plain ++ rest := by
  cases text with
  | nil => cases h
  | cons kind text =>
    rw [skipPlain] at h
    cases hword : word kind with
    | some w =>
      rw [hword] at h
      exact ⟨w, .inl (word_eq_some hword).1, skipWord_eq_some.mp h⟩
    | none =>
      rw [hword] at h
      obtain ⟨number, hnumber, htext⟩ := number_of_skipNumber h
      exact ⟨number, .inr hnumber, htext⟩

end ForgeOS.Native
