import Mathlib.Data.List.Infix

/-! The first occurrence of a text in another one, as `strstr` finds it. Markers whose first sign stands
nowhere else in them do not overlap, so that a text is passed over piece by piece. -/

namespace ForgeOS.Library.Search

variable {α : Type*} [DecidableEq α]

/-- The text from the first place on at which the needle stands. -/
def search (needle : List α) : List α → Option (List α)
  | [] => if needle = [] then some [] else none
  | x :: xs => if needle <+: x :: xs then some (x :: xs) else search needle xs

theorem search_cons_of_not {needle : List α} {x : α} {xs : List α} (h : ¬needle <+: x :: xs) :
    search needle (x :: xs) = search needle xs := by
  rw [search, if_neg h]

/-- What stands at the front is found. -/
theorem search_append_self (needle b : List α) : search needle (needle ++ b) = some (needle ++ b) := by
  have hfront := List.prefix_append needle b
  cases htext : needle ++ b with
  | nil =>
    rw [search, if_pos (List.append_eq_nil_iff.mp htext).1]
  | cons x xs =>
    rw [htext] at hfront
    rw [search, if_pos hfront]

/-- What is found is what is left of the text, and begins with the needle. -/
theorem search_eq_some {needle xs p : List α} (h : search needle xs = some p) :
    p <:+ xs ∧ needle <+: p := by
  induction xs with
  | nil =>
    rw [search] at h
    split_ifs at h with hneedle
    cases h
    exact ⟨List.suffix_refl _, by rw [hneedle]⟩
  | cons x xs ih =>
    rw [search] at h
    split_ifs at h with hfront
    · cases h
      exact ⟨List.suffix_refl _, hfront⟩
    · obtain ⟨hsuffix, hneedle⟩ := ih h
      exact ⟨hsuffix.trans (List.suffix_cons x xs), hneedle⟩

theorem search_eq_none {needle xs : List α} (hneedle : needle ≠ []) (h : ¬needle <:+: xs) :
    search needle xs = none := by
  induction xs with
  | nil => rw [search, if_neg hneedle]
  | cons x xs ih =>
    rw [List.infix_cons_iff, not_or] at h
    rw [search_cons_of_not h.1]
    exact ih h.2

theorem not_infix_of_search {needle xs : List α} (h : search needle xs = none) :
    ¬needle <:+: xs := by
  induction xs with
  | nil =>
    rw [search] at h
    split_ifs at h with hneedle
    rwa [List.infix_nil]
  | cons x xs ih =>
    rw [search] at h
    split_ifs at h with hfront
    rw [List.infix_cons_iff, not_or]
    exact ⟨hfront, ih h⟩

/-- A marker, whose first sign stands nowhere else in it. -/
def Marker (x : α) (needle : List α) : Prop := ∃ t, needle = x :: t ∧ x ∉ t

section Marker

variable {x : α} {needle a b : List α}

/-- A text without the first sign of the needle is passed over. -/
theorem Marker.search_clean (h : Marker x needle) (ha : x ∉ a) (b : List α) :
    search needle (a ++ b) = search needle b := by
  obtain ⟨t, rfl, -⟩ := h
  induction a with
  | nil => rfl
  | cons y a ih =>
    rw [List.mem_cons, not_or] at ha
    rw [List.cons_append, search_cons_of_not, ih ha.2]
    rw [List.cons_prefix_cons]
    exact fun hfront => ha.1 hfront.1

/-- So is a text in which the needle does not stand, in front of one that begins with that sign: no
occurrence reaches from the one into the other. -/
theorem Marker.search_append (h : Marker x needle) (ha : ¬needle <:+: a)
    (hb : ∀ y ∈ b.head?, y = x) : search needle (a ++ b) = search needle b := by
  obtain ⟨t, rfl, hx⟩ := h
  induction a with
  | nil => rfl
  | cons y a ih =>
    rw [List.infix_cons_iff, not_or] at ha
    rw [List.cons_append, search_cons_of_not, ih ha.2]
    intro hfront
    obtain ⟨s, hs⟩ := hfront
    rw [← List.cons_append] at hs
    rcases List.append_eq_append_iff.mp hs with ⟨inside, hinside, -⟩ | ⟨across, hacross, hrest⟩
    · exact ha.1 ⟨inside, hinside.symm⟩
    · cases across with
      | nil => exact ha.1 ⟨[], by rw [List.append_nil, hacross, List.append_nil]⟩
      | cons z across =>
        have hz : z = x := hb z (by rw [hrest]; rfl)
        rw [List.cons_append, List.cons.injEq] at hacross
        rw [hacross.2, hz] at hx
        exact hx (by simp)

/-- So is another marker, where neither of the two begins with the other. -/
theorem Marker.search_marker (h : Marker x needle) (ha : Marker x a) (hne : ¬needle <+: a)
    (hne' : ¬a <+: needle) (b : List α) : search needle (a ++ b) = search needle b := by
  have hfront : ¬needle <+: a ++ b := by
    intro hfront
    rcases List.prefix_or_prefix_of_prefix hfront (List.prefix_append a b) with hin | hin
    · exact hne hin
    · exact hne' hin
  obtain ⟨t, rfl, hx⟩ := ha
  rw [List.cons_append] at hfront ⊢
  rw [search_cons_of_not hfront, h.search_clean hx]

omit [DecidableEq α] in
theorem Marker.ne_nil (h : Marker x needle) : needle ≠ [] := by
  obtain ⟨t, rfl, -⟩ := h
  exact List.cons_ne_nil x t

omit [DecidableEq α] in
/-- A marker, and what follows it, begins with its sign. -/
theorem Marker.head (h : Marker x needle) (b : List α) : ∀ y ∈ (needle ++ b).head?, y = x := by
  obtain ⟨t, rfl, -⟩ := h
  intro y hy
  exact (Option.some.inj hy).symm

end Marker

end ForgeOS.Library.Search
