import ForgeOS.Native.JsonStrings
import ForgeOS.Native.MusicView

/-! Decimal digits read with words of 64 bits: `number` for the arguments of the music bridge and
`juint` for the numbers of a JSON text. Both look before a digit whether there is room for it.
Beside what they compute stands what each of their operations would give without a limit. -/

namespace ForgeOS.Native.Numbers

open ForgeOS.Library.Slices

/-! ### Words -/

/-- What is computed, and the exact results of the operations on the way. -/
structure Computed (α : Type) where
  value : α
  results : List ℤ
  deriving DecidableEq, Repr

namespace Computed

instance : Monad Computed where
  pure a := ⟨a, []⟩
  bind x f := ⟨(f x.value).value, x.results ++ (f x.value).results⟩

variable {α β : Type}

@[simp] theorem value_pure (a : α) : (pure a : Computed α).value = a := rfl

@[simp] theorem results_pure (a : α) : (pure a : Computed α).results = [] := rfl

@[simp] theorem value_bind (x : Computed α) (f : α → Computed β) :
    (x >>= f).value = (f x.value).value := rfl

@[simp] theorem results_bind (x : Computed α) (f : α → Computed β) :
    (x >>= f).results = x.results ++ (f x.value).results := rfl

end Computed

def add (x y : UInt64) : Computed UInt64 := ⟨x + y, [x.toNat + y.toNat]⟩

def sub (x y : UInt64) : Computed UInt64 := ⟨x - y, [x.toNat - y.toNat]⟩

def mul (x y : UInt64) : Computed UInt64 := ⟨x * y, [x.toNat * y.toNat]⟩

/-- A result that does not wrap. -/
def Fits (x : ℤ) : Prop := 0 ≤ x ∧ x < 2 ^ 64

instance (x : ℤ) : Decidable (Fits x) := inferInstanceAs (Decidable (_ ∧ _))

/-! ### The two readers -/

/-- `c - '0'`, for a digit -/
def digit (c : UInt8) : UInt64 := (c - 48).toUInt64

/-- The loop of `number`. -/
def numberLoop (max : UInt64) : UInt64 → Bytes → Computed (Option UInt64)
  | v, [] => pure (some v)
  | v, c :: cs => do
    if c < 48 ∨ c > 57 then return none
    let room ← sub max (digit c)
    if v > room / 10 ∨ digit c > max then return none
    let tens ← mul v 10
    let next ← add tens (digit c)
    numberLoop max next cs

/-- `number`, for the bytes in front of the zero. -/
def number (s : Bytes) (max : UInt64) : Computed (Option UInt64) :=
  if s = [] then pure none else numberLoop max 0 s

/-- `UINT64_MAX` -/
def uint64Max : UInt64 := 18446744073709551615

/-- The loop of `juint`. Nothing is returned where it would read outside of the text. -/
def juintLoop (s : Bytes) (stop : ℤ) : ℕ → ℤ → UInt64 → Computed (Option (Option UInt64))
  | 0, _, _ => pure none
  | rounds + 1, p, v =>
    if p < stop then
      match byte s p with
      | none => pure none
      | some c => do
        if c < 48 ∨ c > 57 then return some none
        let room ← sub uint64Max (digit c)
        if v > room / 10 then return some none
        let tens ← mul v 10
        let sum ← add tens c.toUInt64
        let next ← sub sum 48
        juintLoop s stop rounds (p + 1) next
    else pure (some (some v))

/-- `juint`. Nothing is returned where it would read outside of the text or of the parsed tokens. -/
def juint (s : Bytes) (t : List JsonToken) (index : ℤ) : Computed (Option (Option UInt64)) :=
  if index < 0 then pure (some none)
  else
    match token t index with
    | none => pure none
    | some n =>
      if n.kind < 48 ∨ n.kind > 57 then pure (some none)
      else juintLoop s n.stop ((n.stop - n.start).toNat + 1) n.start 0

/-! ### What digits say -/

/-- What a row of digits says behind others that say `v`. -/
def valueFrom (v : ℕ) (digits : Bytes) : ℕ := digits.foldl (fun v c => v * 10 + (c.toNat - 48)) v

def value (digits : Bytes) : ℕ := valueFrom 0 digits

theorem le_valueFrom (v : ℕ) (digits : Bytes) : v ≤ valueFrom v digits := by
  induction digits generalizing v with
  | nil => exact le_refl v
  | cons c cs ih =>
    have hle : v * 10 + (c.toNat - 48) ≤ valueFrom v (c :: cs) := ih _
    omega

theorem isdigit_iff (c : UInt8) : isdigit c = true ↔ ¬(c < 48 ∨ c > 57) := by
  simp only [isdigit, Bool.and_eq_true, decide_eq_true_eq, UInt8.le_iff_toNat_le,
    UInt8.lt_iff_toNat_lt, gt_iff_lt]
  omega

theorem toNat_digit {c : UInt8} (hc : isdigit c = true) : (digit c).toNat = c.toNat - 48 := by
  simp only [isdigit, Bool.and_eq_true, decide_eq_true_eq] at hc
  rw [digit, UInt8.toNat_toUInt64, UInt8.toNat_sub_of_le _ _ hc.1]
  rfl

theorem digit_le {c : UInt8} (hc : isdigit c = true) : c.toNat - 48 ≤ 9 ∧ 48 ≤ c.toNat := by
  simp only [isdigit, Bool.and_eq_true, decide_eq_true_eq, UInt8.le_iff_toNat_le] at hc
  obtain ⟨hlow, hhigh⟩ := hc
  change 48 ≤ c.toNat at hlow
  change c.toNat ≤ 57 at hhigh
  omega

/-- There is room for a digit exactly if the digits with it say at most the limit. -/
theorem room_iff {max v d : UInt64} :
    ¬(v > (max - d) / 10 ∨ d > max) ↔ v.toNat * 10 + d.toNat ≤ max.toNat := by
  by_cases hd : d ≤ max
  · have hsub : ((max - d) / 10).toNat = (max.toNat - d.toNat) / 10 := by
      rw [UInt64.toNat_div, UInt64.toNat_sub_of_le _ _ hd]
      rfl
    rw [UInt64.le_iff_toNat_le] at hd
    simp only [gt_iff_lt, UInt64.lt_iff_toNat_lt, hsub]
    omega
  · rw [UInt64.le_iff_toNat_le] at hd
    simp only [gt_iff_lt, UInt64.lt_iff_toNat_lt]
    omega

/-- The reader without words accepts the rows of digits that say at most the limit. -/
theorem numberFrom_eq_some {max v n : ℕ} {s : Bytes} (hv : v ≤ max) :
    Music.numberFrom max v s = some n ↔
      (∀ c ∈ s, isdigit c = true) ∧ valueFrom v s = n ∧ n ≤ max := by
  induction s generalizing v with
  | nil =>
    rw [Music.numberFrom, Option.some_inj]
    constructor
    · rintro rfl
      exact ⟨fun c hc => absurd hc List.not_mem_nil, rfl, hv⟩
    · exact fun h => h.2.1
  | cons c cs ih =>
    rw [Music.numberFrom]
    split_ifs with hbad
    · constructor
      · exact fun h => absurd h (by simp)
      · rintro ⟨hdigits, hn, hle⟩
        have hc := hdigits c List.mem_cons_self
        have hnext : v * 10 + (c.toNat - 48) ≤ valueFrom v (c :: cs) := le_valueFrom _ cs
        simp only [hc, Bool.true_eq_false, false_or] at hbad
        omega
    · rw [not_or, not_or, Bool.not_eq_false] at hbad
      rw [ih (by omega), List.forall_mem_cons]
      exact ⟨fun h => ⟨⟨hbad.1, h.1⟩, h.2⟩, fun h => ⟨h.1.2, h.2⟩⟩

/-! ### `number` -/

section Number

variable {max v : UInt64} {c : UInt8} {cs s : Bytes}

theorem numberLoop_other (hc : ¬isdigit c = true) : numberLoop max v (c :: cs) = ⟨none, []⟩ := by
  have hother : c < 48 ∨ c > 57 := by
    rw [isdigit_iff, not_not] at hc
    exact hc
  rw [numberLoop, if_pos hother]
  rfl

theorem numberLoop_full (hc : isdigit c = true) (hroom : v > (max - digit c) / 10 ∨ digit c > max) :
    numberLoop max v (c :: cs) = ⟨none, [max.toNat - (digit c).toNat]⟩ := by
  rw [numberLoop, if_neg ((isdigit_iff c).mp hc)]
  simp only [sub, bind, hroom, if_true]
  rfl

theorem numberLoop_room (hc : isdigit c = true)
    (hroom : ¬(v > (max - digit c) / 10 ∨ digit c > max)) :
    numberLoop max v (c :: cs) =
      ⟨(numberLoop max (v * 10 + digit c) cs).value,
        [(max.toNat : ℤ) - (digit c).toNat, v.toNat * 10, (v * 10).toNat + (digit c).toNat] ++
          (numberLoop max (v * 10 + digit c) cs).results⟩ := by
  rw [numberLoop, if_neg ((isdigit_iff c).mp hc)]
  simp only [sub, mul, add, bind, hroom, if_false]
  rfl

/-- The next value, where there is room for the digit. -/
theorem toNat_next (hroom : ¬(v > (max - digit c) / 10 ∨ digit c > max)) :
    (v * 10).toNat = v.toNat * 10 ∧ (v * 10 + digit c).toNat = v.toNat * 10 + (digit c).toNat := by
  rw [room_iff] at hroom
  have hmax := max.toNat_lt
  have htens : (v * 10).toNat = v.toNat * 10 := by
    rw [UInt64.toNat_mul]
    exact Nat.mod_eq_of_lt (show v.toNat * 10 < 2 ^ 64 by omega)
  rw [UInt64.toNat_add, htens]
  exact ⟨rfl, Nat.mod_eq_of_lt (by omega)⟩

/-- The loop computes what the reader without words does. -/
theorem numberLoop_value (max v : UInt64) (s : Bytes) :
    (numberLoop max v s).value.map UInt64.toNat = Music.numberFrom max.toNat v.toNat s := by
  induction s generalizing v with
  | nil => rfl
  | cons c cs ih =>
    rw [Music.numberFrom]
    by_cases hc : isdigit c = true
    · have hd := toNat_digit hc
      by_cases hfull : v > (max - digit c) / 10 ∨ digit c > max
      · rw [numberLoop_full hc hfull, if_pos]
        · rfl
        · have hover : ¬v.toNat * 10 + (digit c).toNat ≤ max.toNat := fun hle =>
            room_iff.mpr hle hfull
          omega
      · have hle := room_iff.mp hfull
        rw [numberLoop_room hc hfull, if_neg]
        · rw [← hd, ← (toNat_next hfull).2]
          exact ih _
        · simp only [hc, Bool.true_eq_false, false_or]
          omega
    · rw [numberLoop_other hc, if_pos (.inl (by simpa using hc))]
      rfl

/-- Only the difference for a digit over the limit wraps, and then nothing is read. -/
theorem numberLoop_results (hv : v ≤ max) : ∀ x ∈ (numberLoop max v s).results,
    Fits x ∨ (numberLoop max v s).value = none ∧
      ∃ c ∈ s, isdigit c = true ∧ x < 0 ∧ x = max.toNat - ((c.toNat - 48 : ℕ) : ℤ) := by
  induction s generalizing v with
  | nil => exact fun x hx => absurd hx List.not_mem_nil
  | cons c cs ih =>
    intro x hx
    by_cases hc : isdigit c = true
    · have hd := toNat_digit hc
      have hmax := max.toNat_lt
      by_cases hfull : v > (max - digit c) / 10 ∨ digit c > max
      · rw [numberLoop_full hc hfull] at hx ⊢
        obtain rfl := List.mem_singleton.mp hx
        by_cases hneg : max.toNat < (digit c).toNat
        · refine .inr ⟨rfl, c, List.mem_cons_self, hc, by omega, by rw [hd]⟩
        · exact .inl ⟨by omega, by omega⟩
      · obtain ⟨htens, hnext⟩ := toNat_next hfull
        have hle := room_iff.mp hfull
        have hv' : v * 10 + digit c ≤ max := by
          rw [UInt64.le_iff_toNat_le]
          omega
        rw [numberLoop_room hc hfull] at hx ⊢
        rcases List.mem_append.mp hx with hx | hx
        · left
          simp only [List.mem_cons, List.not_mem_nil, or_false] at hx
          rw [Fits]
          omega
        · rcases ih hv' x hx with hfits | ⟨hnone, c', hc', hwrap⟩
          · exact .inl hfits
          · exact .inr ⟨hnone, c', List.mem_cons_of_mem c hc', hwrap⟩
    · rw [numberLoop_other hc] at hx
      exact absurd hx List.not_mem_nil

theorem number_value (s : Bytes) (max : UInt64) :
    (number s max).value.map UInt64.toNat = Music.number s max.toNat := by
  rw [number, Music.number]
  split_ifs
  · rfl
  · exact numberLoop_value max 0 s

end Number

/-! ### `juint` -/

section Juint

variable {v : UInt64} {c : UInt8} {before cs behind : Bytes} {stop : ℤ} {rounds : ℕ}

theorem room_uint64Max {d : UInt64} (hd : d.toNat ≤ 9) :
    ¬v > (uint64Max - d) / 10 ↔ v.toNat * 10 + d.toNat < 2 ^ 64 := by
  have hmax : uint64Max.toNat = 2 ^ 64 - 1 := rfl
  have hle : ¬d > uint64Max := by
    rw [gt_iff_lt, UInt64.lt_iff_toNat_lt]
    omega
  have hroom : ¬(v > (uint64Max - d) / 10 ∨ d > uint64Max) ↔ _ := room_iff
  rw [or_iff_left hle] at hroom
  rw [hroom, hmax]
  omega

theorem juintLoop_other (hp : (before.length : ℤ) < stop) (hc : ¬isdigit c = true) :
    juintLoop (before ++ c :: cs) stop (rounds + 1) before.length v = ⟨some none, []⟩ := by
  have hother : c < 48 ∨ c > 57 := by
    rw [isdigit_iff, not_not] at hc
    exact hc
  rw [juintLoop, if_pos hp, byte_here]
  dsimp only
  rw [if_pos hother]
  rfl

theorem juintLoop_full (hp : (before.length : ℤ) < stop) (hc : isdigit c = true)
    (hroom : v > (uint64Max - digit c) / 10) :
    juintLoop (before ++ c :: cs) stop (rounds + 1) before.length v =
      ⟨some none, [uint64Max.toNat - (digit c).toNat]⟩ := by
  rw [juintLoop, if_pos hp, byte_here]
  dsimp only
  rw [if_neg ((isdigit_iff c).mp hc)]
  simp only [sub, bind, hroom, if_true]
  rfl

theorem juintLoop_room (hp : (before.length : ℤ) < stop) (hc : isdigit c = true)
    (hroom : ¬v > (uint64Max - digit c) / 10) :
    juintLoop (before ++ c :: cs) stop (rounds + 1) before.length v =
      ⟨(juintLoop (before ++ c :: cs) stop rounds (before.length + 1)
          (v * 10 + c.toUInt64 - 48)).value,
        [(uint64Max.toNat : ℤ) - (digit c).toNat, v.toNat * 10, (v * 10).toNat + c.toNat,
            (v * 10 + c.toUInt64).toNat - 48] ++
          (juintLoop (before ++ c :: cs) stop rounds (before.length + 1)
            (v * 10 + c.toUInt64 - 48)).results⟩ := by
  rw [juintLoop, if_pos hp, byte_here]
  dsimp only
  rw [if_neg ((isdigit_iff c).mp hc)]
  simp only [sub, mul, add, bind, hroom, if_false]
  rfl

/-- The sum may wrap; the difference then wraps back. -/
theorem toNat_sum (hc : isdigit c = true) (hle : v.toNat * 10 + (digit c).toNat < 2 ^ 64) :
    (v * 10).toNat = v.toNat * 10 ∧
      (v * 10 + c.toUInt64).toNat = (v.toNat * 10 + c.toNat) % 2 ^ 64 ∧
        (v * 10 + c.toUInt64 - 48).toNat = v.toNat * 10 + (digit c).toNat := by
  have hd := toNat_digit hc
  obtain ⟨-, hlow⟩ := digit_le hc
  have htens : (v * 10).toNat = v.toNat * 10 := by
    rw [UInt64.toNat_mul]
    exact Nat.mod_eq_of_lt (show v.toNat * 10 < 2 ^ 64 by omega)
  have hsum : (v * 10 + c.toUInt64).toNat = (v.toNat * 10 + c.toNat) % 2 ^ 64 := by
    rw [UInt64.toNat_add, htens, UInt8.toNat_toUInt64]
  have h48 : (48 : UInt64).toNat = 48 := rfl
  refine ⟨htens, hsum, ?_⟩
  rw [UInt64.toNat_sub, hsum, h48]
  omega

/-- Behind what has been read, the loop computes what the reader without words does. -/
theorem juintLoop_value (hstop : stop = before.length + cs.length) (hrounds : cs.length < rounds) :
    ∃ out, (juintLoop (before ++ (cs ++ behind)) stop rounds before.length v).value = some out ∧
      out.map UInt64.toNat = Music.numberFrom uint64Max.toNat v.toNat cs := by
  induction cs generalizing before v rounds with
  | nil =>
    obtain ⟨rounds, rfl⟩ := Nat.exists_eq_add_one.mpr (Nat.zero_lt_of_lt hrounds)
    have hend : ¬(before.length : ℤ) < stop := by simp [hstop]
    rw [juintLoop, if_neg hend]
    exact ⟨some v, rfl, rfl⟩
  | cons c cs ih =>
    obtain ⟨rounds, rfl⟩ := Nat.exists_eq_add_one.mpr (Nat.zero_lt_of_lt hrounds)
    rw [List.length_cons] at hstop hrounds
    have hp : (before.length : ℤ) < stop := by omega
    rw [Music.numberFrom, List.cons_append]
    by_cases hc : isdigit c = true
    · have hd := toNat_digit hc
      obtain ⟨hd9, -⟩ := digit_le hc
      have hmax : uint64Max.toNat = 2 ^ 64 - 1 := rfl
      by_cases hfull : v > (uint64Max - digit c) / 10
      · have hover : ¬v.toNat * 10 + (digit c).toNat < 2 ^ 64 := fun hlt =>
          (room_uint64Max (by omega)).mpr hlt hfull
        rw [juintLoop_full hp hc hfull, if_pos (by omega)]
        exact ⟨none, rfl, rfl⟩
      · have hlt := (room_uint64Max (by omega)).mp hfull
        obtain ⟨-, -, hnext⟩ := toNat_sum hc hlt
        have hread : ¬(isdigit c = false ∨ (uint64Max.toNat - (c.toNat - 48)) / 10 < v.toNat ∨
            uint64Max.toNat < c.toNat - 48) := by
          simp only [hc, Bool.true_eq_false, false_or]
          omega
        rw [juintLoop_room hp hc hfull, if_neg hread, ← hd, ← hnext]
        have hbefore : before ++ c :: (cs ++ behind) = (before ++ [c]) ++ (cs ++ behind) := by simp
        have hlength : (before.length : ℤ) + 1 = (before ++ [c]).length := by simp
        rw [hbefore, hlength]
        exact ih (by simp [hstop]; omega) (by omega)
    · rw [juintLoop_other hp hc, if_pos (.inl (by simpa using hc))]
      exact ⟨none, rfl, rfl⟩

/-- Where the digits read so far say a number less than 48 below the end of the words, the sum and
the difference wrap. -/
theorem juintLoop_results (hstop : stop = before.length + cs.length)
    (hrounds : cs.length < rounds) :
    ∀ x ∈ (juintLoop (before ++ (cs ++ behind)) stop rounds before.length v).results,
      Fits x ∨ ∃ w, w <+: cs ∧ valueFrom v.toNat w < 2 ^ 64 ∧ 2 ^ 64 ≤ valueFrom v.toNat w + 48 ∧
        (x = valueFrom v.toNat w + 48 ∨ x = valueFrom v.toNat w - 2 ^ 64) := by
  induction cs generalizing before v rounds with
  | nil =>
    obtain ⟨rounds, rfl⟩ := Nat.exists_eq_add_one.mpr (Nat.zero_lt_of_lt hrounds)
    have hend : ¬(before.length : ℤ) < stop := by simp [hstop]
    rw [juintLoop, if_neg hend]
    exact fun x hx => absurd hx List.not_mem_nil
  | cons c cs ih =>
    obtain ⟨rounds, rfl⟩ := Nat.exists_eq_add_one.mpr (Nat.zero_lt_of_lt hrounds)
    rw [List.length_cons] at hstop hrounds
    have hp : (before.length : ℤ) < stop := by omega
    rw [List.cons_append]
    intro x hx
    by_cases hc : isdigit c = true
    · have hd := toNat_digit hc
      obtain ⟨hd9, hlow⟩ := digit_le hc
      have hmax : uint64Max.toNat = 2 ^ 64 - 1 := rfl
      by_cases hfull : v > (uint64Max - digit c) / 10
      · rw [juintLoop_full hp hc hfull] at hx
        obtain rfl := List.mem_singleton.mp hx
        exact .inl ⟨by omega, by omega⟩
      · have hlt := (room_uint64Max (by omega)).mp hfull
        obtain ⟨htens, hsum, hnext⟩ := toNat_sum hc hlt
        have hfrom : ∀ w, valueFrom v.toNat (c :: w) =
            valueFrom (v * 10 + c.toUInt64 - 48).toNat w := by
          intro w
          rw [hnext, hd]
          rfl
        rw [juintLoop_room hp hc hfull] at hx
        rcases List.mem_append.mp hx with hx | hx
        · by_cases hfits : Fits x
          · exact .inl hfits
          · -- the digits up to this one
            have hone : valueFrom v.toNat [c] = v.toNat * 10 + (c.toNat - 48) := rfl
            refine .inr ⟨[c], List.prefix_append [c] cs, ?_⟩
            rw [hone]
            rw [Fits] at hfits
            simp only [List.mem_cons, List.not_mem_nil, or_false] at hx
            omega
        · have hbefore : before ++ c :: (cs ++ behind) = (before ++ [c]) ++ (cs ++ behind) := by
            simp
          have hlength : (before.length : ℤ) + 1 = (before ++ [c]).length := by simp
          rw [hbefore, hlength] at hx
          rcases ih (by simp [hstop]; omega) (by omega) x hx with hfits | ⟨w, hw, hwrap⟩
          · exact .inl hfits
          · refine .inr ⟨c :: w, ?_, ?_⟩
            · rw [List.cons_prefix_cons]
              exact ⟨rfl, hw⟩
            · rw [hfrom]
              exact hwrap
    · rw [juintLoop_other hp hc] at hx
      exact absurd hx List.not_mem_nil

end Juint

/-! ### What is read -/

/-- Exactly the rows of digits that say at most the limit are read, as what they say. -/
def Reads (out : Option UInt64) (max : ℕ) (digits : Bytes) : Prop :=
  ∀ n, out = some n ↔ IsDigits digits ∧ value digits ≤ max ∧ n.toNat = value digits

theorem reads_of_numberFrom {out : Option UInt64} {max : ℕ} {digits : Bytes} (hne : digits ≠ [])
    (h : out.map UInt64.toNat = Music.numberFrom max 0 digits) : Reads out max digits := by
  intro n
  have hread : out = some n ↔ Music.numberFrom max 0 digits = some n.toNat := by
    rw [← h]
    cases out with
    | none => simp
    | some m => simp [UInt64.toNat_inj]
  rw [hread, numberFrom_eq_some (Nat.zero_le max)]
  constructor
  · rintro ⟨hdigits, hn, hle⟩
    exact ⟨⟨hne, hdigits⟩, hn.trans_le hle, hn.symm⟩
  · rintro ⟨⟨-, hdigits⟩, hle, hn⟩
    exact ⟨hdigits, hn.symm, hn.trans_le hle⟩

theorem number_reads (s : Bytes) (max : UInt64) : Reads (number s max).value max.toNat s := by
  by_cases hne : s = []
  · subst hne
    exact fun n => ⟨fun h => absurd h (by simp [number]), fun h => absurd rfl h.1.1⟩
  · apply reads_of_numberFrom hne
    rw [number_value, Music.number, if_neg hne]

/-- `juint` on the token of a value. -/
theorem juint_here {s : Bytes} {t : List JsonToken} {index i : ℕ} {span : Span} {v : Value}
    (htoken : t[index]? = some span.token) (h : span.Belongs s i v)
    (hstart : span.token.start = span.start) (hstop : span.token.stop = span.stop) :
    (∃ out, (juint s t index).value = some out ∧ Reads out (2 ^ 64 - 1) v.render) ∧
      ∀ x ∈ (juint s t index).results, Fits x ∨ ∃ w, w <+: v.render ∧ value w < 2 ^ 64 ∧
        2 ^ 64 ≤ value w + 48 ∧ (x = value w + 48 ∨ x = value w - 2 ^ 64) := by
  have hindex : ¬(index : ℤ) < 0 := by omega
  have hat : token t index = some span.token := by
    rw [token, if_pos (by omega), Int.toNat_natCast]
    exact htoken
  obtain ⟨cs, hcs, -⟩ := v.head
  have hkind : span.token.kind = v.kind := h.kind
  rw [juint, if_neg hindex, hat]
  dsimp only
  rw [hkind]
  split_ifs with hother
  · refine ⟨⟨none, rfl, fun n => ⟨fun hn => absurd hn (by simp), fun hn => ?_⟩⟩,
      fun x hx => absurd hx List.not_mem_nil⟩
    have hhead := hn.1.2 v.kind (by simp [hcs])
    exact absurd hother ((isdigit_iff v.kind).mp hhead)
  · -- the text up to the value, the value, and what is behind it
    have hlength : (s.take span.start).length = span.start := by
      have hbound := h.bound
      rw [h.stop] at hbound
      rw [List.length_take]
      omega
    have htext : s = s.take span.start ++ (v.render ++ s.drop (span.start + v.render.length)) := by
      have hrange := h.range
      rw [h.stop, Nat.add_sub_cancel_left, slice] at hrange
      have hvalue : v.render ++ s.drop (span.start + v.render.length) = s.drop span.start := by
        rw [← List.drop_drop]
        nth_rewrite 1 [← hrange]
        exact List.take_append_drop _ _
      rw [hvalue, List.take_append_drop]
    have hend : span.token.stop = ((s.take span.start).length : ℤ) + v.render.length := by
      rw [hstop, hlength, h.stop]
      exact Nat.cast_add _ _
    have hbegin : span.token.start = (s.take span.start).length := by rw [hstart, hlength]
    have hrounds : v.render.length < (span.token.stop - span.token.start).toNat + 1 := by omega
    rw [hbegin] at hrounds ⊢
    generalize s.take span.start = before at htext hend hrounds ⊢
    rw [htext]
    constructor
    · obtain ⟨out, hout, hread⟩ := juintLoop_value (v := 0) hend hrounds
      refine ⟨out, hout, reads_of_numberFrom ?_ hread⟩
      rw [hcs]
      exact List.cons_ne_nil _ _
    · exact juintLoop_results hend hrounds

/-- `number` and `juint` read exactly the rows of digits, and the numbers of a JSON text, that say
at most the limit. Two operations may wrap: the difference between the limit and a digit over it,
which `number` then refuses, and the sum with a digit of `juint`, which taking the zero off wraps
back. -/
theorem digits_read :
    (∀ (s : Bytes) (max : UInt64), Reads (number s max).value max.toNat s ∧
      ∀ x ∈ (number s max).results, Fits x ∨ (number s max).value = none ∧
        ∃ c ∈ s, isdigit c = true ∧ x < 0 ∧ x = max.toNat - ((c.toNat - 48 : ℕ) : ℤ)) ∧
    ∀ (s : Bytes) (tokens : List JsonToken), 0 ∉ s → s.length < 2 ^ 31 → jparse s = some tokens →
      (∀ index < 0, juint s tokens index = ⟨some none, []⟩) ∧
      ∃ text : JsonText, text.render = s ∧ tokens = text.spans.map Span.token ∧
        ∀ (index : ℕ) (v : Value), text.value.nodes[index]? = some v →
          (∃ out, (juint s tokens index).value = some out ∧ Reads out (2 ^ 64 - 1) v.render) ∧
          ∀ x ∈ (juint s tokens index).results, Fits x ∨ ∃ w, w <+: v.render ∧ value w < 2 ^ 64 ∧
            2 ^ 64 ≤ value w + 48 ∧ (x = value w + 48 ∨ x = value w - 2 ^ 64) := by
  refine ⟨fun s max => ⟨number_reads s max, ?_⟩, fun s tokens hzero hlength htokens => ⟨?_, ?_⟩⟩
  · rw [number]
    split_ifs
    · exact fun x hx => absurd hx List.not_mem_nil
    · exact numberLoop_results (UInt64.le_iff_toNat_le.mpr (Nat.zero_le _))
  · intro index hindex
    rw [juint, if_pos hindex]
    rfl
  · obtain ⟨text, htext, htokens, hbelong, hexact⟩ := (jparse_spec hzero).2 tokens htokens
    refine ⟨text, htext, htokens, fun index v hv => ?_⟩
    have hcount : text.spans.length = text.value.nodes.length := by
      rw [JsonText.spans, Value.length_spans, Value.length_nodes]
    obtain ⟨hlt, -⟩ := List.getElem?_eq_some_iff.mp hv
    obtain ⟨span, hspan⟩ : ∃ span, text.spans[index]? = some span :=
      ⟨_, List.getElem?_eq_getElem (hcount ▸ hlt)⟩
    obtain ⟨hstart, hstop⟩ := hexact hlength span (List.mem_of_getElem? hspan)
    have htoken : tokens[index]? = some span.token := by rw [htokens, List.getElem?_map, hspan]; rfl
    exact juint_here htoken (hbelong.get hspan hv) hstart hstop

/-- `18446744073709551615` -/
def largest : Bytes :=
  [49, 56, 52, 52, 54, 55, 52, 52, 48, 55, 51, 55, 48, 57, 53, 53, 49, 54, 49, 53]

theorem digits_wrap :
    (∃ x ∈ (number [55] 3).results, ¬Fits x) ∧ jparse largest = some [⟨0, 20, 1, 49⟩] ∧
      (juint largest [⟨0, 20, 1, 49⟩] 0).value = some (some 18446744073709551615) ∧
        ∃ x ∈ (juint largest [⟨0, 20, 1, 49⟩] 0).results, ¬Fits x := by
  decide

theorem small_read :
    ∃ text : JsonText, text.render = smallText ∧ ∀ v, text.value.nodes[3]? = some v →
      ∃ out, (juint smallText
          [⟨0, 16, 5, 123⟩, ⟨1, 4, 2, 34⟩, ⟨6, 15, 5, 91⟩, ⟨7, 8, 4, 49⟩, ⟨10, 14, 5, 116⟩]
          (3 : ℕ)).value = some out ∧ Reads out (2 ^ 64 - 1) v.render := by
  obtain ⟨-, text, htext, -, hread⟩ := digits_read.2 smallText
    [⟨0, 16, 5, 123⟩, ⟨1, 4, 2, 34⟩, ⟨6, 15, 5, 91⟩, ⟨7, 8, 4, 49⟩, ⟨10, 14, 5, 116⟩]
    (by decide) (by decide) (by decide)
  exact ⟨text, htext, fun v hv => (hread 3 v hv).1⟩

end ForgeOS.Native.Numbers
