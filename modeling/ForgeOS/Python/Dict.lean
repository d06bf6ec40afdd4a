import Mathlib.Algebra.GroupWithZero.Nat
import Mathlib.Algebra.BigOperators.Group.List.Basic
import Mathlib.Data.List.Basic

/-! Dictionaries as the source uses them: association lists in insertion order.
Assigning to a key that is present keeps its place and replaces its value. -/

namespace ForgeOS.Python

variable {κ ν : Type*} [DecidableEq κ]

/-- `d[k] = v` -/
def dictSet : List (κ × ν) → κ → ν → List (κ × ν)
  | [], k, v => [(k, v)]
  | (k', v') :: d, k, v => if k' = k then (k, v) :: d else (k', v') :: dictSet d k v

theorem mem_dictSet {d : List (κ × ν)} {k : κ} {v : ν} {p : κ × ν} (h : p ∈ dictSet d k v) :
    p = (k, v) ∨ p ∈ d := by
  induction d with
  | nil => simpa [dictSet] using h
  | cons q d ih =>
    rw [dictSet] at h
    split_ifs at h
    · rcases List.mem_cons.mp h with h | h
      · exact .inl h
      · exact .inr (List.mem_cons_of_mem _ h)
    · rcases List.mem_cons.mp h with h | h
      · exact .inr (h ▸ List.mem_cons_self)
      · exact (ih h).imp_right (List.mem_cons_of_mem _)

/-- Assigning to a new key appends the pair. -/
theorem dictSet_of_notMem {d : List (κ × ν)} {k : κ} (v : ν) (h : k ∉ d.map Prod.fst) :
    dictSet d k v = d ++ [(k, v)] := by
  induction d with
  | nil => rfl
  | cons q d ih =>
    simp only [List.map_cons, List.mem_cons, not_or] at h
    rw [dictSet, if_neg (Ne.symm h.1), ih h.2, List.cons_append]

/-- `d.get(k)` -/
def dictGet (d : List (κ × ν)) (k : κ) : Option ν := d.lookup k

@[simp] theorem dictGet_nil (k : κ) : dictGet ([] : List (κ × ν)) k = none := rfl

theorem dictGet_cons (q : κ × ν) (d : List (κ × ν)) (k : κ) :
    dictGet (q :: d) k = if k = q.1 then some q.2 else dictGet d k := by
  rw [dictGet, List.lookup_cons]
  by_cases h : k = q.1
  · simp [h]
  · have hb : (k == q.1) = false := by simpa using h
    rw [hb, if_neg h]
    rfl

theorem dictGet_append (d e : List (κ × ν)) (k : κ) :
    dictGet (d ++ e) k = (dictGet d k).or (dictGet e k) := List.lookup_append

theorem dictGet_dictSet (d : List (κ × ν)) (k k' : κ) (v : ν) :
    dictGet (dictSet d k v) k' = if k' = k then some v else dictGet d k' := by
  induction d with
  | nil => rw [dictSet, dictGet_cons]
  | cons q d ih =>
    rw [dictSet]
    by_cases hq : q.1 = k
    · rw [if_pos hq, dictGet_cons, dictGet_cons, hq]
      by_cases h : k' = k <;> simp [h]
    · rw [if_neg hq, dictGet_cons, dictGet_cons, ih]
      by_cases h : k' = q.1
      · have hne : k' ≠ k := fun hk => hq (h.symm.trans hk)
        rw [if_pos h, if_neg hne, if_pos h]
      · rw [if_neg h, if_neg h]

theorem keys_dictSet (d : List (κ × ν)) (k : κ) (v : ν) :
    (dictSet d k v).map Prod.fst =
      if k ∈ d.map Prod.fst then d.map Prod.fst else d.map Prod.fst ++ [k] := by
  induction d with
  | nil => rfl
  | cons q d ih =>
    rw [dictSet]
    by_cases hq : q.1 = k
    · simp [hq]
    · rw [if_neg hq, List.map_cons, List.map_cons, ih]
      have hne : ¬k = q.1 := fun h => hq h.symm
      by_cases hmem : k ∈ d.map Prod.fst
      · rw [if_pos hmem, if_pos (List.mem_cons_of_mem _ hmem)]
      · rw [if_neg hmem, if_neg (by simpa [hne] using hmem), List.cons_append]

theorem nodup_dictSet {d : List (κ × ν)} (hd : (d.map Prod.fst).Nodup) (k : κ) (v : ν) :
    ((dictSet d k v).map Prod.fst).Nodup := by
  rw [keys_dictSet]
  split_ifs with h
  · exact hd
  · rw [List.nodup_append]
    refine ⟨hd, by simp, ?_⟩
    rintro a ha b hb rfl
    exact h (List.mem_singleton.mp hb ▸ ha)

/-- `d.update(ws)` -/
def dictUpdate (d ws : List (κ × ν)) : List (κ × ν) := ws.foldl (fun d w => dictSet d w.1 w.2) d

theorem dictUpdate_append (d ws us : List (κ × ν)) :
    dictUpdate d (ws ++ us) = dictUpdate (dictUpdate d ws) us := List.foldl_append

theorem mem_dictUpdate {d ws : List (κ × ν)} {p : κ × ν} (h : p ∈ dictUpdate d ws) :
    p ∈ d ∨ p ∈ ws := by
  induction ws generalizing d with
  | nil => exact .inl h
  | cons w ws ih =>
    rcases ih h with hset | hrest
    · rcases mem_dictSet hset with rfl | hd
      · exact .inr List.mem_cons_self
      · exact .inl hd
    · exact .inr (List.mem_cons_of_mem w hrest)

/-- The last assignment to a key counts, then what was there before. -/
theorem dictGet_dictUpdate (d ws : List (κ × ν)) (k : κ) :
    dictGet (dictUpdate d ws) k = (dictGet ws.reverse k).or (dictGet d k) := by
  induction ws generalizing d with
  | nil => simp [dictUpdate]
  | cons w ws ih =>
    have hstep : dictUpdate d (w :: ws) = dictUpdate (dictSet d w.1 w.2) ws := rfl
    rw [hstep, ih, dictGet_dictSet, List.reverse_cons, dictGet_append, dictGet_cons, dictGet_nil,
      Option.or_assoc]
    split_ifs <;> simp

theorem nodup_dictUpdate {d : List (κ × ν)} (hd : (d.map Prod.fst).Nodup) (ws : List (κ × ν)) :
    ((dictUpdate d ws).map Prod.fst).Nodup := by
  induction ws generalizing d with
  | nil => exact hd
  | cons w ws ih => exact ih (nodup_dictSet hd w.1 w.2)

theorem mem_of_dictGet {d : List (κ × ν)} {k : κ} {v : ν} (h : dictGet d k = some v) :
    (k, v) ∈ d := by
  induction d with
  | nil => simp at h
  | cons q d ih =>
    rw [dictGet_cons] at h
    split_ifs at h with hq
    · rw [hq, ← Option.some.inj h]
      exact List.mem_cons_self
    · exact List.mem_cons_of_mem _ (ih h)

theorem dictGet_eq_some_iff {d : List (κ × ν)} (hd : (d.map Prod.fst).Nodup) {k : κ} {v : ν} :
    dictGet d k = some v ↔ (k, v) ∈ d := by
  refine ⟨mem_of_dictGet, fun hmem => ?_⟩
  induction d with
  | nil => simp at hmem
  | cons q d ih =>
    rw [List.map_cons, List.nodup_cons] at hd
    rw [dictGet_cons]
    rcases List.mem_cons.mp hmem with h | h
    · simp [← h]
    · have hne : k ≠ q.1 := fun hk => hd.1 (hk ▸ List.mem_map.mpr ⟨_, h, rfl⟩)
      rw [if_neg hne]
      exact ih hd.2 h

/-- `d.pop(k)`, as to the dictionary. -/
def dictPop : List (κ × ν) → κ → List (κ × ν)
  | [], _ => []
  | (k', v') :: d, k => if k' = k then d else (k', v') :: dictPop d k

theorem mem_of_mem_dictPop {d : List (κ × ν)} {k : κ} {p : κ × ν} (h : p ∈ dictPop d k) : p ∈ d := by
  induction d with
  | nil => exact h
  | cons q d ih =>
    rw [dictPop] at h
    split_ifs at h
    · exact List.mem_cons_of_mem _ h
    · rcases List.mem_cons.mp h with h | h
      · exact h ▸ List.mem_cons_self
      · exact List.mem_cons_of_mem _ (ih h)

theorem keys_dictPop (d : List (κ × ν)) (k : κ) :
    (dictPop d k).map Prod.fst = (d.map Prod.fst).erase k := by
  induction d with
  | nil => rfl
  | cons q d ih =>
    rw [dictPop, List.map_cons, List.erase_cons]
    by_cases hq : q.1 = k
    · simp [hq]
    · simp [hq, ih]

theorem nodup_dictPop {d : List (κ × ν)} (hd : (d.map Prod.fst).Nodup) (k : κ) :
    ((dictPop d k).map Prod.fst).Nodup := by
  rw [keys_dictPop]
  exact hd.erase k

/-- After an assignment the key has the new value and the other keys have theirs. -/
theorem mem_dictSet_iff {d : List (κ × ν)} (hd : (d.map Prod.fst).Nodup) {k : κ} {v : ν}
    {p : κ × ν} : p ∈ dictSet d k v ↔ p = (k, v) ∨ p ∈ d ∧ p.1 ≠ k := by
  obtain ⟨k', v'⟩ := p
  rw [← dictGet_eq_some_iff (nodup_dictSet hd k v), dictGet_dictSet, ← dictGet_eq_some_iff hd]
  by_cases h : k' = k
  · simp [h, eq_comm]
  · simp [h]

theorem mem_dictPop_iff {d : List (κ × ν)} (hd : (d.map Prod.fst).Nodup) {k : κ} {p : κ × ν} :
    p ∈ dictPop d k ↔ p ∈ d ∧ p.1 ≠ k := by
  constructor
  · intro h
    refine ⟨mem_of_mem_dictPop h, ?_⟩
    have hkey : p.1 ∈ (d.map Prod.fst).erase k := by
      rw [← keys_dictPop]
      exact List.mem_map_of_mem h
    exact (hd.mem_erase_iff.mp hkey).1
  · rintro ⟨h, hne⟩
    have hkey : p.1 ∈ (dictPop d k).map Prod.fst := by
      rw [keys_dictPop]
      exact hd.mem_erase_iff.mpr ⟨hne, List.mem_map_of_mem h⟩
    obtain ⟨q, hq, hpq⟩ := List.mem_map.mp hkey
    have hval : q = p := by
      have hq' := (dictGet_eq_some_iff hd).mpr (mem_of_mem_dictPop hq : (q.1, q.2) ∈ d)
      have hp' := (dictGet_eq_some_iff hd).mpr (h : (p.1, p.2) ∈ d)
      rw [hpq, hp'] at hq'
      exact Prod.ext hpq (Option.some.inj hq').symm
    exact hval ▸ hq

/-! ### Totals -/

/-- The sum of a number taken from each value. -/
def dictTotal (f : ν → ℕ) (d : List (κ × ν)) : ℕ := (d.map fun p => f p.2).sum

omit [DecidableEq κ] in
@[simp] theorem dictTotal_nil (f : ν → ℕ) : dictTotal f ([] : List (κ × ν)) = 0 := rfl

omit [DecidableEq κ] in
@[simp] theorem dictTotal_cons (f : ν → ℕ) (k : κ) (v : ν) (d : List (κ × ν)) :
    dictTotal f ((k, v) :: d) = f v + dictTotal f d := by
  rw [dictTotal, List.map_cons, List.sum_cons]
  rfl

/-- What a key contributes to the total. -/
def share (f : ν → ℕ) (d : List (κ × ν)) (k : κ) : ℕ := ((dictGet d k).map f).getD 0

theorem share_cons (f : ν → ℕ) (k' : κ) (v : ν) (d : List (κ × ν)) (k : κ) :
    share f ((k', v) :: d) k = if k = k' then f v else share f d k := by
  rw [share, dictGet_cons]
  split_ifs
  · rfl
  · rfl

/-- An assignment replaces the share of its key. -/
theorem dictTotal_dictSet (f : ν → ℕ) (d : List (κ × ν)) (k : κ) (v : ν) :
    dictTotal f (dictSet d k v) + share f d k = dictTotal f d + f v := by
  induction d with
  | nil => simp [dictSet, share]
  | cons q d ih =>
    obtain ⟨k', v'⟩ := q
    rw [dictSet, share_cons]
    by_cases h : k' = k
    · rw [if_pos h, if_pos h.symm, dictTotal_cons, dictTotal_cons]
      omega
    · rw [if_neg h, if_neg (Ne.symm h), dictTotal_cons, dictTotal_cons]
      omega

/-- Taking a key out takes its share out. -/
theorem dictTotal_dictPop (f : ν → ℕ) (d : List (κ × ν)) (k : κ) :
    dictTotal f (dictPop d k) + share f d k = dictTotal f d := by
  induction d with
  | nil => rfl
  | cons q d ih =>
    obtain ⟨k', v'⟩ := q
    rw [dictPop, share_cons]
    by_cases h : k' = k
    · rw [if_pos h, if_pos h.symm, dictTotal_cons]
      omega
    · rw [if_neg h, if_neg (Ne.symm h), dictTotal_cons, dictTotal_cons]
      omega

theorem share_dictPop_of_ne (f : ν → ℕ) (d : List (κ × ν)) {k j : κ} (h : j ≠ k) :
    share f (dictPop d k) j = share f d j := by
  induction d with
  | nil => rfl
  | cons q d ih =>
    obtain ⟨k', v'⟩ := q
    rw [dictPop, share_cons]
    by_cases hq : k' = k
    · rw [if_pos hq, if_neg fun hk => h (hk.trans hq)]
    · rw [if_neg hq, share_cons, ih]

end ForgeOS.Python
