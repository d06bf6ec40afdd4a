import ForgeOS.Library.Words

/-! Comparing lists of words by the text they make. Each word is written behind a
separator. One text then begins another exactly when its list begins the other one, or
when the lists part at its last word and that word only begins the other list's word. -/

namespace ForgeOS.Library.Containment

open Words

variable {α : Type*} {p : α → Bool}

/-- The words, each behind a separator. -/
def spell (sep : α) (ws : List (List α)) : List α := ws.flatMap fun w => sep :: w

/-- `us` parts from `ws` at the last word of `ws`, which begins the word of `us` there. -/
def Beside (ws us : List (List α)) : Prop :=
  ∃ front w u rest, ws = front ++ [w] ∧ us = front ++ u :: rest ∧ w ≠ u ∧ w <+: u

theorem spell_cons (sep : α) (w : List α) (ws : List (List α)) :
    spell sep (w :: ws) = sep :: (w ++ spell sep ws) := by
  rw [spell, List.flatMap_cons, List.cons_append]
  rfl

theorem spell_prefix {sep : α} {ws us : List (List α)} (h : ws <+: us) :
    spell sep ws <+: spell sep us := by
  obtain ⟨rest, rfl⟩ := h
  rw [spell, spell, List.flatMap_append]
  exact List.prefix_append _ _

theorem Beside.cons {ws us : List (List α)} (h : Beside ws us) (w : List α) :
    Beside (w :: ws) (w :: us) := by
  obtain ⟨front, v, u, rest, rfl, rfl, hne, hpre⟩ := h
  exact ⟨w :: front, v, u, rest, rfl, rfl, hne, hpre⟩

theorem Beside.spell_prefix {sep : α} {ws us : List (List α)} (h : Beside ws us) :
    spell sep ws <+: spell sep us := by
  obtain ⟨front, w, u, rest, rfl, rfl, -, tail, rfl⟩ := h
  refine ⟨tail ++ spell sep rest, ?_⟩
  simp [spell]

/-- Where a clean word meets a separator, it cannot be shorter. -/
theorem prefix_of_clean {sep : α} (hsep : p sep = true) {w u tail : List α}
    (hw : Clean p w) (h : w <+: u ++ tail) (htail : tail = [] ∨ tail.head? = some sep) :
    w <+: u := by
  by_cases hlen : w.length ≤ u.length
  · exact List.prefix_of_prefix_length_le h (List.prefix_append u tail) hlen
  · have hu : u <+: w := List.prefix_of_prefix_length_le (List.prefix_append u tail) h (by omega)
    obtain ⟨x, rfl⟩ := hu
    rw [List.prefix_append_right_inj] at h
    cases x with
    | nil => simp
    | cons a x =>
      rcases htail with rfl | htail
      · exact absurd (List.prefix_nil.mp h) (List.cons_ne_nil _ _)
      · obtain ⟨rest, rfl⟩ := h
        rw [List.cons_append, List.head?_cons, Option.some.injEq] at htail
        have ha := hw a (by simp)
        rw [htail, hsep] at ha
        exact absurd ha (by decide)

theorem head_spell (sep : α) (ws : List (List α)) :
    spell sep ws = [] ∨ (spell sep ws).head? = some sep := by
  cases ws with
  | nil => exact .inl rfl
  | cons w ws => exact .inr (by rw [spell_cons, List.head?_cons])

/-- The text of one list begins the text of another exactly when the list does, or lies beside it. -/
theorem spell_prefix_iff (sep : α) (hsep : p sep = true) {ws us : List (List α)}
    (hws : ∀ w ∈ ws, Clean p w) (hus : ∀ u ∈ us, Clean p u) :
    spell sep ws <+: spell sep us ↔ ws <+: us ∨ Beside ws us := by
  refine ⟨fun h => ?_, fun h => h.elim spell_prefix Beside.spell_prefix⟩
  induction ws generalizing us with
  | nil => exact .inl List.nil_prefix
  | cons w ws ih =>
    have hw : Clean p w := hws w List.mem_cons_self
    cases us with
    | nil =>
      rw [spell_cons] at h
      exact absurd (List.prefix_nil.mp h) (List.cons_ne_nil _ _)
    | cons u us =>
      have hu : Clean p u := hus u List.mem_cons_self
      rw [spell_cons, spell_cons, List.cons_prefix_cons] at h
      by_cases hwu : w = u
      · subst hwu
        rw [List.prefix_append_right_inj] at h
        rcases ih (fun v hv => hws v (List.mem_cons_of_mem _ hv))
          (fun v hv => hus v (List.mem_cons_of_mem _ hv)) h.2 with hpre | hbeside
        · exact .inl (List.cons_prefix_cons.mpr ⟨rfl, hpre⟩)
        · exact .inr (hbeside.cons w)
      · -- the lists part here, so `w` is the last word and begins `u`
        have hpre : w <+: u :=
          prefix_of_clean hsep hw ((List.prefix_append _ _).trans h.2) (head_spell sep us)
        cases ws with
        | nil => exact .inr ⟨[], w, u, us, rfl, rfl, hwu, hpre⟩
        | cons v vs =>
          obtain ⟨x, rfl⟩ := hpre
          have h2 := h.2
          rw [List.append_assoc, List.prefix_append_right_inj, spell_cons] at h2
          cases x with
          | nil => exact absurd (List.append_nil w).symm hwu
          | cons a x =>
            rw [List.cons_append, List.cons_prefix_cons] at h2
            have ha := hu a (by simp)
            rw [← h2.1, hsep] at ha
            exact absurd ha (by decide)

end ForgeOS.Library.Containment
