import Mathlib.Data.UInt
import ForgeOS.Library.Absorption
import ForgeOS.Native.Scan

/-! The digest by which the music bridge tells the answer to its handshake. The message comes in
pieces, blocks are compressed in place, and the padding is added by the same function as the
message. What comes out is the digest of FIPS 180-4. -/

namespace ForgeOS.Native.Sha1

open Library.Absorption

/-! ### The standard -/

/-- Five words. -/
structure Words where
  a : UInt32
  b : UInt32
  c : UInt32
  d : UInt32
  e : UInt32
  deriving DecidableEq, Repr

def Words.toList (w : Words) : List UInt32 := [w.a, w.b, w.c, w.d, w.e]

/-- Rotation to the left. -/
def rotl (n : UInt32) (x : UInt32) : UInt32 := (x <<< n) ||| (x >>> (32 - n))

def ch (x y z : UInt32) : UInt32 := (x &&& y) ^^^ (~~~x &&& z)

def parity (x y z : UInt32) : UInt32 := x ^^^ y ^^^ z

def maj (x y z : UInt32) : UInt32 := (x &&& y) ^^^ (x &&& z) ^^^ (y &&& z)

/-- The function of a round, and its constant. -/
def roundFunction (t : ℕ) : UInt32 → UInt32 → UInt32 → UInt32 :=
  if t < 20 then ch else if t < 40 then parity else if t < 60 then maj else parity

def roundConstant (t : ℕ) : UInt32 :=
  if t < 20 then 0x5a827999 else if t < 40 then 0x6ed9eba1
  else if t < 60 then 0x8f1bbcdc else 0xca62c1d6

/-- Four bytes as a word, the most significant first. -/
def word (b : Bytes) (i : ℕ) : UInt32 :=
  .ofNat ((b.getD (4 * i) 0).toNat * 0x1000000 + (b.getD (4 * i + 1) 0).toNat * 0x10000 +
    (b.getD (4 * i + 2) 0).toNat * 0x100 + (b.getD (4 * i + 3) 0).toNat)

/-- The message schedule: the words of the block, and those that follow from the sixteen before
them. -/
def scheduled (b : Bytes) (t : ℕ) : UInt32 :=
  if t < 16 then word b t
  else rotl 1 (scheduled b (t - 3) ^^^ scheduled b (t - 8) ^^^ scheduled b (t - 14) ^^^
    scheduled b (t - 16))

def round (b : Bytes) (v : Words) (t : ℕ) : Words where
  a := rotl 5 v.a + roundFunction t v.b v.c v.d + v.e + roundConstant t + scheduled b t
  b := v.a
  c := rotl 30 v.b
  d := v.c
  e := v.d

def Words.add (v w : Words) : Words := ⟨v.a + w.a, v.b + w.b, v.c + w.c, v.d + w.d, v.e + w.e⟩

def compress (h : Words) (b : Bytes) : Words := h.add ((List.range 80).foldl (round b) h)

/-- The number of bits in eight bytes. -/
def lengthBytes (n : ℕ) : Bytes := (List.range 8).map fun i => .ofNat (8 * n / 256 ^ (7 - i))

/-- A message behind which stand a one bit, the fewest zeros that are possible, and its length. -/
def padded (p : Bytes) : Bytes :=
  p ++ 0x80 :: List.replicate ((119 - p.length % 64) % 64) 0 ++ lengthBytes p.length

def initialWords : Words := ⟨0x67452301, 0xefcdab89, 0x98badcfe, 0x10325476, 0xc3d2e1f0⟩

def wordBytes (x : UInt32) : Bytes :=
  (List.range 4).map fun j => (x >>> .ofNat (24 - 8 * j)).toUInt8

/-- The blocks of a message, of sixty-four bytes each. -/
def blocks : ℕ → Bytes → List Bytes
  | 0, _ => []
  | k + 1, p => p.take 64 :: blocks k (p.drop 64)

def sha1 (p : Bytes) : Bytes :=
  let h := (blocks ((padded p).length / 64) (padded p)).foldl compress initialWords
  h.toList.flatMap wordBytes

/-! ### The program -/

/-- `struct sha`, where `n` is the length of `b`. -/
structure Sha where
  h : Words
  bits : UInt64
  b : Bytes
  n_lt : b.length < 64

/-- `rol` -/
def rol (x n : UInt32) : UInt32 := (x <<< n) ||| (x >>> (32 - n))

/-- The array `w` of `sha_block`, filled from the front. -/
def fillWords (b : Bytes) : List UInt32 :=
  let w := (List.range 16).map fun i =>
    (b.getD (4 * i) 0).toUInt32 <<< 24 ||| (b.getD (4 * i + 1) 0).toUInt32 <<< 16 |||
      (b.getD (4 * i + 2) 0).toUInt32 <<< 8 ||| (b.getD (4 * i + 3) 0).toUInt32
  (List.range' 16 64).foldl (fun w i =>
    w ++ [rol (w.getD (i - 3) 0 ^^^ w.getD (i - 8) 0 ^^^ w.getD (i - 14) 0 ^^^
      w.getD (i - 16) 0) 1]) w

/-- A turn of the second loop of `sha_block`. -/
def turn (w : List UInt32) (v : Words) (i : ℕ) : Words :=
  let (f, k) :=
    if i < 20 then ((v.b &&& v.c) ||| (~~~v.b &&& v.d), 0x5a827999)
    else if i < 40 then (v.b ^^^ v.c ^^^ v.d, 0x6ed9eba1)
    else if i < 60 then ((v.b &&& v.c) ||| (v.b &&& v.d) ||| (v.c &&& v.d), 0x8f1bbcdc)
    else (v.b ^^^ v.c ^^^ v.d, 0xca62c1d6)
  let t := rol v.a 5 + f + v.e + k + w.getD i 0
  ⟨t, v.a, rol v.b 30, v.c, v.d⟩

/-- `sha_block` -/
def shaBlock (h : Words) (b : Bytes) : Words :=
  let v := (List.range 80).foldl (turn (fillWords b)) h
  ⟨h.a + v.a, h.b + v.b, h.c + v.c, h.d + v.d, h.e + v.e⟩

/-- The loop of `sha_add`. -/
def addLoop (s : Sha) (q : Bytes) : Sha :=
  if hq : q = [] then s
  else
    let z := min (64 - s.b.length) q.length
    if hfull : (s.b ++ q.take z).length = 64 then
      addLoop ⟨shaBlock s.h (s.b ++ q.take z), s.bits, [], by decide⟩ (q.drop z)
    else
      addLoop ⟨s.h, s.bits, s.b ++ q.take z, by
        have := s.n_lt
        simp only [List.length_append, List.length_take] at hfull ⊢
        omega⟩ (q.drop z)
termination_by q.length
decreasing_by
  all_goals
    have := s.n_lt
    have := List.length_pos_iff.mpr hq
    rw [List.length_drop]
    omega

/-- `sha_add` -/
def shaAdd (s : Sha) (q : Bytes) : Sha :=
  addLoop { s with bits := s.bits + .ofNat q.length * 8 } q

/-- `while (s.n != 56) sha_add(&s, &zero, 1)`, for so many turns at most. -/
def zeroLoop : ℕ → Sha → Option Sha
  | 0, _ => none
  | turns + 1, s => if s.b.length = 56 then some s else zeroLoop turns (shaAdd s [0])

/-- `sha_digest` -/
def shaDigest (p : Bytes) : Option Bytes :=
  let s : Sha := ⟨initialWords, 0, [], by decide⟩
  let bits : UInt64 := .ofNat p.length * 8
  (zeroLoop 64 (shaAdd (shaAdd s p) [0x80])).map fun s =>
    let tail := (List.range 8).map fun i => (bits >>> .ofNat (8 * (7 - i))).toUInt8
    (shaAdd s tail).h.toList.flatMap fun x =>
      (List.range 4).map fun j => (x >>> .ofNat (24 - 8 * j)).toUInt8

/-! ### A block -/

theorem shiftLeft_or {b i : ℕ} (hb : b < 2 ^ i) (a : ℕ) : a <<< i ||| b = a * 2 ^ i + b := by
  rw [← Nat.shiftLeft_add_eq_or_of_lt hb, Nat.shiftLeft_eq]

theorem word_eq (a b c d : UInt8) :
    a.toUInt32 <<< 24 ||| b.toUInt32 <<< 16 ||| c.toUInt32 <<< 8 ||| d.toUInt32 =
      .ofNat (a.toNat * 0x1000000 + b.toNat * 0x10000 + c.toNat * 0x100 + d.toNat) := by
  have ha := a.toNat_lt
  have hb := b.toNat_lt
  have hc := c.toNat_lt
  have hd := d.toNat_lt
  have hshift : ∀ (x : UInt8) (n : ℕ), n ≤ 24 →
      (x.toUInt32 <<< UInt32.ofNat n).toNat = x.toNat <<< n := by
    intro x n hn
    have hx := x.toNat_lt
    have hpow : 2 ^ n ≤ 2 ^ 24 := Nat.pow_le_pow_right (by omega) hn
    rw [UInt32.toNat_shiftLeft, UInt8.toNat_toUInt32,
      UInt32.toNat_ofNat_of_lt' (by simp [UInt32.size]; omega),
      Nat.mod_eq_of_lt (show n < 32 by omega), Nat.mod_eq_of_lt]
    rw [Nat.shiftLeft_eq]
    calc x.toNat * 2 ^ n ≤ x.toNat * 2 ^ 24 := Nat.mul_le_mul_left _ hpow
      _ < 2 ^ 32 := by omega
  have ha' : (a.toUInt32 <<< 24).toNat = a.toNat <<< 24 := hshift a 24 (by omega)
  have hb' : (b.toUInt32 <<< 16).toNat = b.toNat <<< 16 := hshift b 16 (by omega)
  have hc' : (c.toUInt32 <<< 8).toNat = c.toNat <<< 8 := hshift c 8 (by omega)
  apply UInt32.toNat_inj.mp
  rw [UInt32.toNat_or, UInt32.toNat_or, UInt32.toNat_or, ha', hb', hc', UInt8.toNat_toUInt32,
    Nat.or_assoc, Nat.or_assoc, shiftLeft_or (by omega) c.toNat, shiftLeft_or (by omega) b.toNat,
    shiftLeft_or (by omega) a.toNat, UInt32.toNat_ofNat_of_lt' (by simp [UInt32.size]; omega)]
  omega

theorem or_eq_ch (x y z : UInt32) : (x &&& y) ||| (~~~x &&& z) = ch x y z := by
  apply UInt32.toBitVec_inj.mp
  ext i hi
  simp only [ch, UInt32.toBitVec_or, UInt32.toBitVec_and, UInt32.toBitVec_not, UInt32.toBitVec_xor,
    BitVec.getElem_or, BitVec.getElem_and, BitVec.getElem_not, BitVec.getElem_xor]
  cases x.toBitVec[i] <;> simp

theorem or_eq_maj (x y z : UInt32) : (x &&& y) ||| (x &&& z) ||| (y &&& z) = maj x y z := by
  apply UInt32.toBitVec_inj.mp
  ext i hi
  simp only [maj, UInt32.toBitVec_or, UInt32.toBitVec_and, UInt32.toBitVec_xor,
    BitVec.getElem_or, BitVec.getElem_and, BitVec.getElem_xor]
  cases x.toBitVec[i] <;> cases y.toBitVec[i] <;> simp

theorem rol_eq (x n : UInt32) : rol x n = rotl n x := rfl

theorem scheduled_of_lt {t : ℕ} (b : Bytes) (h : t < 16) : scheduled b t = word b t := by
  rw [scheduled, if_pos h]

theorem scheduled_of_ge {t : ℕ} (b : Bytes) (h : 16 ≤ t) :
    scheduled b t = rotl 1 (scheduled b (t - 3) ^^^ scheduled b (t - 8) ^^^ scheduled b (t - 14) ^^^
      scheduled b (t - 16)) := by
  rw [scheduled, if_neg (by omega)]

/-- The array holds the schedule, as far as it is filled. -/
theorem fillWords_eq (b : Bytes) : fillWords b = (List.range 80).map (scheduled b) := by
  have hfill : ∀ k, (List.range' 16 k).foldl (fun w i =>
      w ++ [rol (w.getD (i - 3) 0 ^^^ w.getD (i - 8) 0 ^^^ w.getD (i - 14) 0 ^^^
        w.getD (i - 16) 0) 1]) ((List.range 16).map (scheduled b)) =
      (List.range (16 + k)).map (scheduled b) := by
    intro k
    induction k with
    | zero => rfl
    | succ k ih =>
      have hget : ∀ i < 16 + k,
          ((List.range (16 + k)).map (scheduled b)).getD i 0 = scheduled b i := by
        intro i hi
        simp [List.getD_eq_getElem?_getD, hi]
      rw [List.range'_concat, List.foldl_append, ih, List.foldl_cons, List.foldl_nil,
        ← Nat.add_assoc, List.range_succ, List.map_append, Nat.one_mul, hget _ (by omega),
        hget _ (by omega), hget _ (by omega), hget _ (by omega)]
      rw [List.map_singleton, scheduled_of_ge b (t := 16 + k) (by omega)]
      rfl
  rw [fillWords, ← hfill 64]
  congr 1
  apply List.map_congr_left
  intro i hi
  rw [scheduled_of_lt b (List.mem_range.mp hi), word, word_eq]

theorem turn_eq (b : Bytes) (v : Words) {i : ℕ} (hi : i < 80) :
    turn (fillWords b) v i = round b v i := by
  have hget : (fillWords b).getD i 0 = scheduled b i := by
    rw [fillWords_eq]
    simp [List.getD_eq_getElem?_getD, hi]
  simp only [turn, round, roundFunction, roundConstant, hget, or_eq_ch, or_eq_maj, rol_eq]
  by_cases h20 : i < 20
  · simp only [h20, if_true]
  by_cases h40 : i < 40
  · simp only [h20, h40, if_true, if_false, parity]
  by_cases h60 : i < 60
  · simp only [h20, h40, h60, if_true, if_false]
  simp only [h20, h40, h60, if_false, parity]

theorem shaBlock_eq : shaBlock = compress := by
  funext h b
  have hfold : ∀ (is : List ℕ) (v : Words), (∀ i ∈ is, i < 80) →
      is.foldl (turn (fillWords b)) v = is.foldl (round b) v := by
    intro is
    induction is with
    | nil =>
      intro v _
      rw [List.foldl_nil, List.foldl_nil]
    | cons i is ih =>
      intro v his
      rw [List.foldl_cons, List.foldl_cons, turn_eq b v (his i (List.mem_cons_self ..))]
      exact ih _ fun j hj => his j (List.mem_cons_of_mem _ hj)
  unfold shaBlock compress Words.add
  rw [hfold _ h fun i hi => List.mem_range.mp hi]

set_option maxRecDepth 4000 in
/-- The block of the message `abc`. -/
example : shaBlock initialWords ([0x61, 0x62, 0x63, 0x80] ++ List.replicate 59 0 ++ [24]) =
    ⟨0xa9993e36, 0x4706816a, 0xba3e2571, 0x7850c26c, 0x9cd0d89d⟩ := rfl

/-! ### Pieces -/

def Sha.view (s : Sha) : Absorber UInt8 Words := ⟨s.h, s.b⟩

/-- The loop takes as much as fits, and comes to the same as one byte after the other. -/
theorem view_addLoop (s : Sha) (q : Bytes) :
    (addLoop s q).view = absorbAll 64 compress s.view q := by
  induction s, q using addLoop.induct with
  | case1 s =>
    rw [addLoop, dif_pos rfl]
    rfl
  | case2 s q hq z hfull ih =>
    have hne : q.take z ≠ [] := by
      intro h
      rw [h, List.append_nil] at hfull
      exact absurd hfull (Nat.ne_of_lt s.n_lt)
    rw [addLoop, dif_neg hq, dif_pos hfull, ih, ← shaBlock_eq]
    conv_rhs => rw [← List.take_append_drop z q, absorbAll_append]
    rw [Sha.view, Sha.view, absorbAll_full _ _ hne (by rw [← List.length_append]; exact hfull)]
  | case3 s q hq z hfull ih =>
    have hshort : s.b.length + (q.take z).length < 64 := by
      have := s.n_lt
      rw [List.length_append] at hfull
      rw [List.length_take] at hfull ⊢
      omega
    rw [addLoop, dif_neg hq, dif_neg hfull, ih]
    conv_rhs => rw [← List.take_append_drop z q, absorbAll_append]
    rw [Sha.view, Sha.view, absorbAll_short _ _ hshort]

theorem view_shaAdd (s : Sha) (q : Bytes) : (shaAdd s q).view = absorbAll 64 compress s.view q :=
  view_addLoop _ q

theorem length_shaAdd (s : Sha) (q : Bytes) :
    (shaAdd s q).b.length = (s.b.length + q.length) % 64 := by
  have h := length_pending compress s.view s.n_lt q
  rwa [← view_shaAdd] at h

/-- As many zeros are added as there are to the end of the block but for eight bytes. -/
theorem zeroLoop_eq (s : Sha) (k turns : ℕ) (hk : (s.b.length + k) % 64 = 56) (hlt : k < 64)
    (hturns : k < turns) : ∃ s', zeroLoop turns s = some s' ∧ s'.b.length = 56 ∧
      s'.view = absorbAll 64 compress s.view (List.replicate k 0) := by
  have hn := s.n_lt
  induction turns generalizing s k with
  | zero => omega
  | succ turns ih =>
    by_cases h56 : s.b.length = 56
    · obtain rfl : k = 0 := by omega
      exact ⟨s, if_pos h56, h56, rfl⟩
    · obtain ⟨k, rfl⟩ : ∃ k', k = k' + 1 := ⟨k - 1, by omega⟩
      have hlen := length_shaAdd s [0]
      rw [List.length_singleton] at hlen
      obtain ⟨s', hs', hlen', hview⟩ := ih (shaAdd s [0]) k (by omega) (by omega) (by omega)
        (shaAdd s [0]).n_lt
      refine ⟨s', ?_, hlen', ?_⟩
      · rw [zeroLoop, if_neg h56, hs']
      · rw [hview, view_shaAdd, ← absorbAll_append]
        rfl

/-! ### The digest -/

theorem tail_eq (n : ℕ) : ((List.range 8).map fun i =>
    ((UInt64.ofNat n * 8) >>> UInt64.ofNat (8 * (7 - i))).toUInt8) = lengthBytes n := by
  apply List.map_congr_left
  intro i hi
  have hi := List.mem_range.mp hi
  have hpow : 256 ^ (7 - i) = 2 ^ (8 * (7 - i)) := by rw [Nat.pow_mul]
  -- what is shifted out of the sixty-four bits is a multiple of 256
  obtain ⟨j, hj⟩ : ∃ j, 2 ^ 64 = 2 ^ (8 * (7 - i)) * (256 * j) :=
    ⟨2 ^ (64 - 8 * (7 - i) - 8), by
      rw [show 256 = 2 ^ 8 from rfl, ← Nat.pow_add, ← Nat.pow_add]
      congr 1
      omega⟩
  apply UInt8.toNat_inj.mp
  rw [UInt64.toNat_toUInt8, UInt64.toNat_shiftRight, UInt64.toNat_mul, UInt64.toNat_ofNat',
    UInt8.toNat_ofNat', UInt64.toNat_ofNat_of_lt' (by simp [UInt64.size]; omega),
    Nat.mod_eq_of_lt (show 8 * (7 - i) < 64 by omega), Nat.shiftRight_eq_div_pow, hpow,
    Nat.mul_comm 8 n]
  change (n % 2 ^ 64 * 8 % 2 ^ 64) / 2 ^ (8 * (7 - i)) % 2 ^ 8 = _
  rw [Nat.mod_mul_mod, hj, Nat.mod_mul_right_div_self, Nat.mod_mul_right_mod]

theorem length_blocks (k : ℕ) (p : Bytes) (h : p.length = 64 * k) :
    (blocks k p).flatten = p ∧ ∀ b ∈ blocks k p, b.length = 64 := by
  induction k generalizing p with
  | zero =>
    have hp : p = [] := List.length_eq_zero_iff.mp (by omega)
    simp [blocks, hp]
  | succ k ih =>
    obtain ⟨hflat, hall⟩ := ih (p.drop 64) (by rw [List.length_drop]; omega)
    refine ⟨by rw [blocks, List.flatten_cons, hflat, List.take_append_drop], fun b hb => ?_⟩
    rcases List.mem_cons.mp hb with rfl | hb
    · rw [List.length_take]
      omega
    · exact hall b hb

theorem length_padded (p : Bytes) : (padded p).length % 64 = 0 := by
  simp only [padded, lengthBytes, List.length_append, List.length_cons, List.length_replicate,
    List.length_map, List.length_range]
  omega

/-- The loops of `sha_digest` end, and what they compute is the digest of the standard. -/
theorem shaDigest_eq (p : Bytes) : shaDigest p = some (sha1 p) := by
  set s : Sha := ⟨initialWords, 0, [], by decide⟩ with hs
  have hlen : (shaAdd (shaAdd s p) [0x80]).b.length = (p.length + 1) % 64 := by
    rw [length_shaAdd, length_shaAdd, hs, List.length_nil, List.length_singleton]
    omega
  obtain ⟨s', hzero, -, hview⟩ := zeroLoop_eq (shaAdd (shaAdd s p) [0x80])
    ((119 - p.length % 64) % 64) 64 (by omega) (by omega) (by omega)
  rw [view_shaAdd, view_shaAdd, ← absorbAll_append, ← absorbAll_append] at hview
  obtain ⟨hflat, hall⟩ := length_blocks ((padded p).length / 64) (padded p) (by
    have := length_padded p
    omega)
  have hend : (shaAdd s' (lengthBytes p.length)).view =
      absorbAll 64 compress s.view (padded p) := by
    rw [view_shaAdd, hview, ← absorbAll_append]
    simp [padded]
  have hblocks := absorbAll_blocks compress initialWords (by omega) hall
  rw [hflat] at hblocks
  have hh : (shaAdd s' (lengthBytes p.length)).h = _ :=
    congrArg Absorber.state (hend.trans hblocks)
  unfold shaDigest
  dsimp only
  rw [← hs, hzero, Option.map_some, tail_eq, hh]
  rfl

end ForgeOS.Native.Sha1
