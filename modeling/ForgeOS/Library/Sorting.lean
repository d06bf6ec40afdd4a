import Mathlib.Data.List.Sort
import Mathlib.Data.List.Nodup

/-! Sorting a list whose elements the order tells apart. The result depends only
on which elements there are, and sorting commutes with leaving elements out. -/

namespace ForgeOS.Library.Sorting

variable {α : Type*} {r : α → α → Prop} [DecidableRel r]

/-- The relation is a total preorder that tells the elements of the list apart. -/
structure Sorts (r : α → α → Prop) (l : List α) : Prop where
  total : ∀ a b, r a b ∨ r b a
  trans : ∀ a b c, r a b → r b c → r a c
  anti : ∀ a ∈ l, ∀ b ∈ l, r a b → r b a → a = b

omit [DecidableRel r] in
theorem Sorts.sublist {l l' : List α} (h : Sorts r l) (hsub : ∀ a ∈ l', a ∈ l) : Sorts r l' :=
  ⟨h.total, h.trans, fun a ha b hb => h.anti a (hsub a ha) b (hsub b hb)⟩

theorem Sorts.pairwise {l : List α} (h : Sorts r l) : (l.insertionSort r).Pairwise r := by
  have htotal : Std.Total r := ⟨h.total⟩
  have htrans : IsTrans α r := ⟨h.trans⟩
  exact List.pairwise_insertionSort r l

/-- Leaving elements out before or after sorting is the same. -/
theorem filter_insertionSort {l : List α} (h : Sorts r l) (p : α → Bool) :
    (l.insertionSort r).filter p = (l.filter p).insertionSort r := by
  have hp : Sorts r (l.filter p) := h.sublist fun a ha => List.mem_of_mem_filter ha
  refine List.Perm.eq_of_pairwise (fun a b ha hb hab hba => ?_) (h.pairwise.filter p) hp.pairwise
    (((List.perm_insertionSort r l).filter p).trans (List.perm_insertionSort r _).symm)
  have ha' : a ∈ l := (List.mem_insertionSort r).mp (List.mem_of_mem_filter ha)
  have hb' : b ∈ l := List.mem_of_mem_filter ((List.mem_insertionSort r).mp hb)
  exact h.anti a ha' b hb' hab hba

omit [DecidableRel r] in
/-- The first element of a sorted list with a property is the least one that has it. -/
theorem find?_eq_some_iff_least {l : List α} (h : Sorts r l) (hsorted : l.Pairwise r)
    {p : α → Bool} {a : α} :
    l.find? p = some a ↔ a ∈ l ∧ p a = true ∧ ∀ b ∈ l, p b = true → r a b := by
  have hleast : ∀ c, l.find? p = some c → c ∈ l ∧ p c = true ∧ ∀ b ∈ l, p b = true → r c b := by
    intro c hc
    obtain ⟨hp, front, back, rfl, hfront⟩ := List.find?_eq_some_iff_append.mp hc
    refine ⟨List.mem_of_find?_eq_some hc, hp, fun b hb hpb => ?_⟩
    rcases List.mem_append.mp hb with hb | hb
    · exact absurd hpb (by simpa using hfront b hb)
    · rcases List.mem_cons.mp hb with rfl | hb
      · exact (h.total b b).elim id id
      · exact List.rel_of_pairwise_cons (List.pairwise_append.mp hsorted).2.1 hb
  refine ⟨hleast a, ?_⟩
  rintro ⟨hmem, hp, hle⟩
  cases hfind : l.find? p with
  | none => exact absurd hp (List.find?_eq_none.mp hfind a hmem)
  | some c =>
    obtain ⟨hc, hpc, hless⟩ := hleast c hfind
    exact congrArg some (h.anti c hc a hmem (hless a hmem hp) (hle c hc hpc))

/-- So is the first one behind a sort. -/
theorem find?_insertionSort_eq_some_iff {l : List α} (h : Sorts r l) {p : α → Bool} {a : α} :
    (l.insertionSort r).find? p = some a ↔ a ∈ l ∧ p a = true ∧ ∀ b ∈ l, p b = true → r a b := by
  have hsorts : Sorts r (l.insertionSort r) := h.sublist fun b hb => (List.mem_insertionSort r).mp hb
  simp only [find?_eq_some_iff_least hsorts h.pairwise, List.mem_insertionSort]

/-- A rank that tells the elements apart sorts them. -/
theorem Sorts.of_rank {rank : α → ℕ} {l : List α}
    (hinj : ∀ a ∈ l, ∀ b ∈ l, rank a = rank b → a = b) :
    Sorts (fun a b => rank a ≤ rank b) l where
  total _ _ := le_total _ _
  trans _ _ _ := le_trans
  anti a ha b hb hab hba := hinj a ha b hb (le_antisymm hab hba)

end ForgeOS.Library.Sorting
