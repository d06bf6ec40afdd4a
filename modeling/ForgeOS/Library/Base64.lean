import Mathlib.Data.Nat.Notation
import Mathlib.Data.List.Basic
import Mathlib.Data.UInt

/-! Base64 over any alphabet of sixty-four letters. Three octets become four letters; where the
octets end between, the letters that would say nothing are replaced by a pad. -/

namespace ForgeOS.Library.Base64

/-- Sixty-four letters, what they stand for, and a pad that is none of them. -/
structure Alphabet (α : Type*) where
  letter : ℕ → α
  value : α → Option ℕ
  pad : α
  value_letter : ∀ d < 64, value (letter d) = some d
  value_pad : value pad = none

variable {α : Type*}

def encode (A : Alphabet α) : List UInt8 → List α
  | [] => []
  | [x] => [A.letter (x.toNat / 4), A.letter (x.toNat % 4 * 16), A.pad, A.pad]
  | [x, y] =>
    [A.letter (x.toNat / 4), A.letter (x.toNat % 4 * 16 + y.toNat / 16),
      A.letter (y.toNat % 16 * 4), A.pad]
  | x :: y :: z :: rest =>
    A.letter (x.toNat / 4) :: A.letter (x.toNat % 4 * 16 + y.toNat / 16) ::
      A.letter (y.toNat % 16 * 4 + z.toNat / 64) :: A.letter (z.toNat % 64) :: encode A rest

/-- Four letters. What is none, at the end, is taken for a pad. -/
def quantum (A : Alphabet α) (a b c d : α) : Option (List UInt8) :=
  match A.value a, A.value b, A.value c, A.value d with
  | some p, some q, none, none => some [.ofNat (p * 4 + q / 16)]
  | some p, some q, some r, none => some [.ofNat (p * 4 + q / 16), .ofNat (q % 16 * 16 + r / 4)]
  | some p, some q, some r, some s =>
    some [.ofNat (p * 4 + q / 16), .ofNat (q % 16 * 16 + r / 4), .ofNat (r % 4 * 64 + s)]
  | _, _, _, _ => none

def decode (A : Alphabet α) : List α → Option (List UInt8)
  | [] => some []
  | a :: b :: c :: d :: rest => do
    let octets ← quantum A a b c d
    let more ← decode A rest
    return octets ++ more
  | _ => none

variable (A : Alphabet α)

theorem mem_encode {octets : List UInt8} {a : α} (h : a ∈ encode A octets) :
    a = A.pad ∨ ∃ d < 64, a = A.letter d := by
  induction octets using encode.induct with
  | case1 => cases h
  | case2 x =>
    have hx := x.toNat_lt
    simp only [encode, List.mem_cons, List.not_mem_nil, or_false] at h
    rcases h with rfl | rfl | rfl | rfl
    · exact .inr ⟨_, by omega, rfl⟩
    · exact .inr ⟨_, by omega, rfl⟩
    · exact .inl rfl
    · exact .inl rfl
  | case3 x y =>
    have hx := x.toNat_lt
    have hy := y.toNat_lt
    simp only [encode, List.mem_cons, List.not_mem_nil, or_false] at h
    rcases h with rfl | rfl | rfl | rfl
    · exact .inr ⟨_, by omega, rfl⟩
    · exact .inr ⟨_, by omega, rfl⟩
    · exact .inr ⟨_, by omega, rfl⟩
    · exact .inl rfl
  | case4 x y z rest ih =>
    have hx := x.toNat_lt
    have hy := y.toNat_lt
    have hz := z.toNat_lt
    simp only [encode, List.mem_cons] at h
    rcases h with rfl | rfl | rfl | rfl | h
    · exact .inr ⟨_, by omega, rfl⟩
    · exact .inr ⟨_, by omega, rfl⟩
    · exact .inr ⟨_, by omega, rfl⟩
    · exact .inr ⟨_, by omega, rfl⟩
    · exact ih h

theorem ofNat_eq {n : ℕ} {x : UInt8} (h : n = x.toNat) : UInt8.ofNat n = x := by
  rw [h, UInt8.ofNat_toNat]

theorem quantum_one (x : UInt8) :
    quantum A (A.letter (x.toNat / 4)) (A.letter (x.toNat % 4 * 16)) A.pad A.pad = some [x] := by
  have hx := x.toNat_lt
  have hback : UInt8.ofNat (x.toNat / 4 * 4 + x.toNat % 4 * 16 / 16) = x := ofNat_eq (by omega)
  simp only [quantum, A.value_letter (x.toNat / 4) (by omega),
    A.value_letter (x.toNat % 4 * 16) (by omega), A.value_pad, hback]

theorem quantum_two (x y : UInt8) :
    quantum A (A.letter (x.toNat / 4)) (A.letter (x.toNat % 4 * 16 + y.toNat / 16))
      (A.letter (y.toNat % 16 * 4)) A.pad = some [x, y] := by
  have hx := x.toNat_lt
  have hy := y.toNat_lt
  have hback : UInt8.ofNat (x.toNat / 4 * 4 + (x.toNat % 4 * 16 + y.toNat / 16) / 16) = x :=
    ofNat_eq (by omega)
  have hback' : UInt8.ofNat
      ((x.toNat % 4 * 16 + y.toNat / 16) % 16 * 16 + y.toNat % 16 * 4 / 4) = y :=
    ofNat_eq (by omega)
  simp only [quantum, A.value_letter (x.toNat / 4) (by omega),
    A.value_letter (x.toNat % 4 * 16 + y.toNat / 16) (by omega),
    A.value_letter (y.toNat % 16 * 4) (by omega), A.value_pad, hback, hback']

theorem quantum_three (x y z : UInt8) :
    quantum A (A.letter (x.toNat / 4)) (A.letter (x.toNat % 4 * 16 + y.toNat / 16))
      (A.letter (y.toNat % 16 * 4 + z.toNat / 64)) (A.letter (z.toNat % 64)) = some [x, y, z] := by
  have hx := x.toNat_lt
  have hy := y.toNat_lt
  have hz := z.toNat_lt
  have hback : UInt8.ofNat (x.toNat / 4 * 4 + (x.toNat % 4 * 16 + y.toNat / 16) / 16) = x :=
    ofNat_eq (by omega)
  have hback' : UInt8.ofNat ((x.toNat % 4 * 16 + y.toNat / 16) % 16 * 16 +
      (y.toNat % 16 * 4 + z.toNat / 64) / 4) = y :=
    ofNat_eq (by omega)
  have hback'' : UInt8.ofNat
      ((y.toNat % 16 * 4 + z.toNat / 64) % 4 * 64 + z.toNat % 64) = z :=
    ofNat_eq (by omega)
  simp only [quantum, A.value_letter (x.toNat / 4) (by omega),
    A.value_letter (x.toNat % 4 * 16 + y.toNat / 16) (by omega),
    A.value_letter (y.toNat % 16 * 4 + z.toNat / 64) (by omega),
    A.value_letter (z.toNat % 64) (by omega), hback, hback', hback'']

theorem decode_encode (octets : List UInt8) : decode A (encode A octets) = some octets := by
  induction octets using encode.induct with
  | case1 => rfl
  | case2 x =>
    rw [encode, decode, quantum_one]
    rfl
  | case3 x y =>
    rw [encode, decode, quantum_two]
    rfl
  | case4 x y z rest ih =>
    rw [encode, decode, quantum_three, ih]
    rfl

theorem length_encode (octets : List UInt8) :
    (encode A octets).length = 4 * ((octets.length + 2) / 3) := by
  induction octets using encode.induct with
  | case1 => rfl
  | case2 x => simp [encode]
  | case3 x y => simp [encode]
  | case4 x y z rest ih =>
    simp only [encode, List.length_cons, ih]
    omega

end ForgeOS.Library.Base64
