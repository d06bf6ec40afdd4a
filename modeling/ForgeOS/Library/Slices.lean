import Mathlib.Data.List.Basic
import Mathlib.Data.Nat.Basic
import Mathlib.Algebra.Order.Group.Nat
import Mathlib.Algebra.BigOperators.Group.List.Basic
import Mathlib.Data.List.DropRight

/-! Slices of a list, and positions rounded up to the next block. A list that is a row of
pieces has each piece as a slice, and a list that is long enough is the row of its slices.
Pieces may be written over, padded up to a block, and cut off at the last nonzero element. -/

namespace ForgeOS.Library.Slices

/-! ### Slices -/

section Slices

variable {α : Type*}

/-- `xs[start : start + length]` -/
def slice (xs : List α) (start length : ℕ) : List α := (xs.drop start).take length

theorem length_slice {xs : List α} {start length : ℕ} (h : start + length ≤ xs.length) :
    (slice xs start length).length = length := by
  rw [slice, List.length_take, List.length_drop]
  omega

/-- A piece with others before and behind it. -/
theorem slice_append {before piece behind : List α} {start length : ℕ}
    (hstart : before.length = start) (hlength : piece.length = length) :
    slice (before ++ (piece ++ behind)) start length = piece := by
  rw [slice, List.drop_left' hstart, List.take_left' hlength]

theorem slice_drop (xs : List α) (skip start length : ℕ) :
    slice (xs.drop skip) start length = slice xs (skip + start) length := by
  rw [slice, slice, List.drop_drop]

/-- A piece somewhere behind a position. -/
theorem slice_of_drop {xs before piece behind : List α} {skip start length : ℕ}
    (h : xs.drop skip = before ++ (piece ++ behind)) (hstart : start = skip + before.length)
    (hlength : piece.length = length) : slice xs start length = piece := by
  rw [hstart, ← slice_drop, h]
  exact slice_append rfl hlength

theorem slice_zero (xs : List α) (length : ℕ) : slice xs 0 length = xs.take length := rfl

theorem slice_append_left {xs ys : List α} {start length : ℕ} (h : start + length ≤ xs.length) :
    slice (xs ++ ys) start length = slice xs start length := by
  rw [slice, slice, List.drop_append_of_le_length (by omega), List.take_append_of_le_length]
  rw [List.length_drop]
  omega

theorem slice_slice (xs : List α) (start : ℕ) {length start' length' : ℕ}
    (h : start' + length' ≤ length) :
    slice (slice xs start length) start' length' = slice xs (start + start') length' := by
  rw [slice, slice, slice, List.drop_take, List.take_take, List.drop_drop, min_eq_left (by omega)]

theorem slice_add (xs : List α) (start m n : ℕ) :
    slice xs start (m + n) = slice xs start m ++ slice xs (start + m) n := by
  rw [slice, slice, slice, List.take_add, List.drop_drop]

/-- A slice of two pieces is made up of a slice of each. -/
theorem slice_of_slice_append {xs first second : List α} {start length : ℕ}
    (h : slice xs start length = first ++ second) :
    slice xs start first.length = first ∧
      slice xs (start + first.length) second.length = second := by
  have hlength : first.length + second.length ≤ length := by
    have htake := List.length_take_le length (xs.drop start)
    rw [← List.length_append, ← h]
    exact htake
  have hfirst := slice_slice xs start (show 0 + first.length ≤ length by omega)
  have hsecond := slice_slice xs start hlength
  rw [h] at hfirst hsecond
  constructor
  · rw [Nat.add_zero, slice_zero, List.take_left] at hfirst
    exact hfirst.symm
  · rw [slice, List.drop_left, List.take_length] at hsecond
    exact hsecond.symm

/-- A list is a slice with what stands before and behind it. -/
theorem slice_split (xs : List α) (start length : ℕ) :
    xs = xs.take start ++ (slice xs start length ++ xs.drop (start + length)) := by
  rw [slice, ← List.drop_drop, List.take_append_drop, List.take_append_drop]

theorem drop_eq_slice_append (xs : List α) (start length : ℕ) :
    xs.drop start = slice xs start length ++ xs.drop (start + length) := by
  rw [slice, ← List.drop_drop, List.take_append_drop]

/-- Pieces of one length, laid in a row. -/
theorem slice_flatten {pieces : List (List α)} {n : ℕ} (hn : ∀ p ∈ pieces, p.length = n) {i : ℕ}
    {p : List α} (hp : pieces[i]? = some p) : slice pieces.flatten (n * i) n = p := by
  induction pieces generalizing i with
  | nil => simp at hp
  | cons q pieces ih =>
    have hq : q.length = n := hn q List.mem_cons_self
    cases i with
    | zero =>
      rw [List.getElem?_cons_zero, Option.some.injEq] at hp
      subst hp
      rw [List.flatten_cons, slice, Nat.mul_zero, List.drop_zero, List.take_left' hq]
    | succ i =>
      rw [List.getElem?_cons_succ] at hp
      rw [List.flatten_cons, slice, Nat.mul_succ, Nat.add_comm, ← List.drop_drop,
        List.drop_left' hq]
      exact ih (fun p hp => hn p (List.mem_cons_of_mem _ hp)) hp

/-- The pieces of one length that a list is a row of. -/
def pieces (xs : List α) (n count : ℕ) : List (List α) :=
  (List.range count).map fun i => slice xs (n * i) n

theorem length_pieces (xs : List α) (n count : ℕ) : (pieces xs n count).length = count := by
  rw [pieces, List.length_map, List.length_range]

theorem length_of_mem_pieces {xs : List α} {n count : ℕ} (h : xs.length = n * count) {p : List α}
    (hp : p ∈ pieces xs n count) : p.length = n := by
  obtain ⟨i, hi, rfl⟩ := List.mem_map.mp hp
  refine length_slice ?_
  rw [h, ← Nat.mul_succ]
  exact Nat.mul_le_mul_left n (List.mem_range.mp hi)

theorem flatten_pieces_take (xs : List α) (n count : ℕ) :
    (pieces xs n count).flatten = xs.take (n * count) := by
  induction count with
  | zero => simp [pieces]
  | succ count ih =>
    have hsucc : pieces xs n (count + 1) = pieces xs n count ++ [slice xs (n * count) n] := by
      rw [pieces, List.range_succ, List.map_append]
      rfl
    rw [hsucc, List.flatten_append, ih, Nat.mul_succ, List.take_add]
    simp [slice]

theorem flatten_pieces {xs : List α} {n count : ℕ} (h : xs.length = n * count) :
    (pieces xs n count).flatten = xs := by
  rw [flatten_pieces_take, ← h, List.take_length]

theorem getElem?_pieces {xs : List α} {n count i : ℕ} (hi : i < count) :
    (pieces xs n count)[i]? = some (slice xs (n * i) n) := by
  rw [pieces, List.getElem?_map, List.getElem?_range hi]
  rfl

/-! ### Writing over a piece -/

/-- `xs[start : start + len(piece)] = piece` -/
def patch (xs : List α) (start : ℕ) (piece : List α) : List α :=
  xs.take start ++ (piece ++ xs.drop (start + piece.length))

section Patch

variable {xs piece piece' : List α} {start start' length : ℕ}

theorem length_patch (h : start + piece.length ≤ xs.length) :
    (patch xs start piece).length = xs.length := by
  simp only [patch, List.length_append, List.length_take, List.length_drop]
  omega

theorem slice_patch (h : start ≤ xs.length) :
    slice (patch xs start piece) start piece.length = piece :=
  slice_append (List.length_take_of_le h) rfl

/-- Before the piece nothing changes. -/
theorem slice_patch_before (h : start' + length ≤ start) (hxs : start ≤ xs.length) :
    slice (patch xs start piece) start' length = slice xs start' length := by
  rw [patch, slice_append_left (by rw [List.length_take_of_le hxs]; exact h), slice, slice,
    List.drop_take, List.take_take, min_eq_left (by omega)]

/-- Behind the piece nothing changes. -/
theorem slice_patch_behind (h : start + piece.length ≤ start') (hxs : start ≤ xs.length) :
    slice (patch xs start piece) start' length = slice xs start' length := by
  have hdrop : (patch xs start piece).drop (start + piece.length) =
      xs.drop (start + piece.length) := by
    rw [patch, ← List.append_assoc, List.drop_left']
    rw [List.length_append, List.length_take_of_le hxs]
  obtain ⟨k, rfl⟩ := Nat.exists_eq_add_of_le h
  rw [← slice_drop, hdrop, slice_drop]

/-- To write what is there changes nothing. -/
theorem patch_self (h : slice xs start piece.length = piece) : patch xs start piece = xs := by
  have hsplit := slice_split xs start piece.length
  rw [h] at hsplit
  exact hsplit.symm

theorem getElem?_patch (hxs : start ≤ xs.length) (i : ℕ) :
    (patch xs start piece)[i]? =
      if start ≤ i ∧ i < start + piece.length then piece[i - start]? else xs[i]? := by
  have hlength : (xs.take start).length = start := List.length_take_of_le hxs
  rw [patch, List.getElem?_append, hlength]
  by_cases hbefore : i < start
  · rw [if_pos hbefore, if_neg (by omega), List.getElem?_take_of_lt hbefore]
  · rw [if_neg hbefore, List.getElem?_append]
    by_cases hbehind : i - start < piece.length
    · rw [if_pos hbehind, if_pos (by omega)]
    · rw [if_neg hbehind, if_neg (by omega), List.getElem?_drop]
      congr 1
      omega

/-- The later of two pieces in one place counts. -/
theorem patch_patch (hlength : piece.length = piece'.length)
    (hxs : start + piece.length ≤ xs.length) :
    patch (patch xs start piece) start piece' = patch xs start piece' := by
  refine List.ext_getElem? fun i => ?_
  rw [getElem?_patch (by rw [length_patch hxs]; omega), getElem?_patch (by omega),
    getElem?_patch (by omega), hlength]
  split_ifs <;> rfl

/-- Two pieces that do not overlap may be written in any order. -/
theorem patch_comm (h : start + piece.length ≤ start')
    (hxs : start' + piece'.length ≤ xs.length) :
    patch (patch xs start piece) start' piece' = patch (patch xs start' piece') start piece := by
  refine List.ext_getElem? fun i => ?_
  rw [getElem?_patch (by rw [length_patch (by omega)]; omega), getElem?_patch (by omega),
    getElem?_patch (by rw [length_patch hxs]; omega), getElem?_patch (by omega)]
  split_ifs with h₁ h₂
  · omega
  · rfl
  · rfl
  · rfl

/-- Two places written twice hold what was written last. -/
theorem patch_patches {first first' second second' : List α}
    (hfirst : first.length = first'.length) (hsecond : second.length = second'.length)
    (h : start + first.length ≤ start') (hxs : start' + second.length ≤ xs.length) :
    patch (patch (patch (patch xs start first) start' second) start first') start' second' =
      patch (patch xs start first') start' second' := by
  have hlength : (patch xs start first).length = xs.length := length_patch (by omega)
  have hlength' : (patch xs start first').length = xs.length := length_patch (by omega)
  have hcomm : patch (patch (patch xs start first) start first') start' second =
      patch (patch (patch xs start first) start' second) start first' :=
    patch_comm (by omega) (by omega)
  rw [← hcomm, patch_patch hfirst (by omega), patch_patch hsecond (by omega)]

end Patch

/-! ### Trailing elements -/

section Trailing

variable [DecidableEq α] (a : α)

/-- The list without the occurrences of `a` at its end. -/
def rstrip (xs : List α) : List α := xs.rdropWhile (· = a)

theorem rstrip_append_replicate (xs : List α) (n : ℕ) :
    rstrip a (xs ++ List.replicate n a) = rstrip a xs := by
  induction n with
  | zero => rw [List.replicate_zero, List.append_nil]
  | succ n ih =>
    rw [List.replicate_succ', ← List.append_assoc, rstrip, List.rdropWhile_concat_pos _ _ _ (by simp)]
    exact ih

/-- What is cut off consists of `a` alone. -/
theorem rstrip_append (xs : List α) :
    rstrip a xs ++ List.replicate (xs.length - (rstrip a xs).length) a = xs := by
  induction xs using List.reverseRecOn with
  | nil => rfl
  | append_singleton xs b ih =>
    by_cases hb : b = a
    · subst hb
      have hstrip : rstrip b (xs ++ [b]) = rstrip b xs := rstrip_append_replicate b xs 1
      have hlength : (rstrip b xs).length ≤ xs.length := (List.rdropWhile_prefix _ _).length_le
      rw [hstrip, List.length_append, List.length_singleton, Nat.sub_add_comm hlength,
        List.replicate_succ', ← List.append_assoc, ih]
    · have hstrip : rstrip a (xs ++ [b]) = xs ++ [b] :=
        List.rdropWhile_concat_neg _ _ _ (by simpa using hb)
      rw [hstrip, Nat.sub_self, List.replicate_zero, List.append_nil]

theorem rstrip_rstrip (xs : List α) : rstrip a (rstrip a xs) = rstrip a xs := by
  conv_rhs => rw [← rstrip_append a xs]
  rw [rstrip_append_replicate]

end Trailing

end Slices

/-! ### Blocks -/

/-- The first multiple of `page` from `value` on. -/
def align (value page : ℕ) : ℕ := (value + page - 1) / page * page

/-- What is missing up to the next multiple. -/
def padding (value page : ℕ) : ℕ := align value page - value

variable {page : ℕ}

theorem align_add (hpage : 0 < page) {k : ℕ} (hk : page ∣ k) (n : ℕ) :
    align (k + n) page = k + align n page := by
  obtain ⟨c, rfl⟩ := hk
  rw [align, align, show page * c + n + page - 1 = n + page - 1 + page * c by omega,
    Nat.add_mul_div_left _ _ hpage, Nat.add_mul, Nat.add_comm, Nat.mul_comm c]

theorem le_align (hpage : 0 < page) (n : ℕ) : n ≤ align n page := by
  have hdiv := Nat.div_add_mod (n + page - 1) page
  have hmod := Nat.mod_lt (n + page - 1) hpage
  rw [align, Nat.mul_comm]
  omega

theorem align_eq (hpage : 0 < page) (n : ℕ) : align n page = n + padding n page := by
  have h := le_align hpage n
  rw [padding]
  omega

theorem dvd_align (n page : ℕ) : page ∣ align n page := Nat.dvd_mul_left ..

theorem padding_add (hpage : 0 < page) {k : ℕ} (hk : page ∣ k) (n : ℕ) :
    padding (k + n) page = padding n page := by
  rw [padding, padding, align_add hpage hk]
  omega

section Filled

variable {α : Type*} (a : α)

/-- A piece filled up to the next block. -/
def block (page : ℕ) (piece : List α) : List α :=
  piece ++ List.replicate (padding piece.length page) a

variable {a}

theorem length_block (hpage : 0 < page) (piece : List α) :
    (block a page piece).length = align piece.length page := by
  rw [block, List.length_append, List.length_replicate, align_eq hpage]

/-- A slice with nothing but filling up to the next block. -/
theorem drop_eq_block {xs : List α} {start size : ℕ} (hpage : 0 < page)
    (hend : start + align size page ≤ xs.length)
    (hfill : ∀ b ∈ slice xs (start + size) (padding size page), b = a) :
    xs.drop start = block a page (slice xs start size) ++ xs.drop (start + align size page) := by
  have halign := align_eq hpage size
  have hlength : (slice xs start size).length = size := length_slice (by omega)
  have hfilling : slice xs (start + size) (padding size page) =
      List.replicate (padding size page) a := by
    refine List.eq_replicate_iff.mpr ⟨length_slice (by omega), hfill⟩
  rw [block, hlength, drop_eq_slice_append xs start size,
    drop_eq_slice_append xs (start + size) (padding size page), hfilling, halign,
    List.append_assoc, Nat.add_assoc]

section Behind

variable {xs piece behind : List α} {start : ℕ}

theorem slice_block (h : xs.drop start = block a page piece ++ behind) :
    slice xs start piece.length = piece := by
  rw [slice, h, block, List.append_assoc, List.take_left]

theorem slice_filling (h : xs.drop start = block a page piece ++ behind) :
    slice xs (start + piece.length) (padding piece.length page) =
      List.replicate (padding piece.length page) a := by
  have hrow : xs.drop start =
      piece ++ (List.replicate (padding piece.length page) a ++ behind) := by
    rw [h, block, List.append_assoc]
  exact slice_of_drop hrow rfl List.length_replicate

theorem drop_block (hpage : 0 < page) (h : xs.drop start = block a page piece ++ behind) :
    xs.drop (start + align piece.length page) = behind := by
  rw [← List.drop_drop, h, List.drop_left' (length_block hpage piece)]

theorem block_end (hpage : 0 < page) (hstart : start ≤ xs.length)
    (h : xs.drop start = block a page piece ++ behind) :
    start + align piece.length page + behind.length = xs.length := by
  have hlength := congrArg List.length h
  rw [List.length_drop, List.length_append, length_block hpage] at hlength
  omega

end Behind

end Filled

end ForgeOS.Library.Slices
