import Mathlib.Data.List.Nodup

/-! Locks with names, kept in a set that the handlers of a server look at before they take them. A
handler holds its locks from the step that takes them to the step with which it ends. -/

namespace ForgeOS.Library.NamedLocks

variable {τ κ : Type*} {holds : τ → List κ} {locks : List κ} {t u : τ} {ts l : List τ} {k : κ}

/-- What the handlers hold is in the set, and no two of them hold the same. -/
structure Held (holds : τ → List κ) (locks : List κ) (ts : List τ) : Prop where
  locked : ∀ t ∈ ts, ∀ k ∈ holds t, k ∈ locks
  nodup : (ts.flatMap holds).Nodup

theorem held_nil : Held holds locks [] := ⟨fun _ ht => absurd ht List.not_mem_nil, .nil⟩

theorem Held.perm (h : Held holds locks ts) (hp : ts.Perm l) : Held holds locks l :=
  ⟨fun t ht => h.locked t (hp.mem_iff.mpr ht), (hp.flatMap_right holds).nodup_iff.mp h.nodup⟩

/-- A lock that is not in the set is held by none. -/
theorem Held.free (h : Held holds locks ts) (hk : k ∉ locks) (ht : t ∈ ts) : k ∉ holds t :=
  fun hmem => hk (h.locked t ht k hmem)

/-- A lock that one holds is held by no other. -/
theorem Held.alone (h : Held holds locks (t :: ts)) (hk : k ∈ holds t) (hu : u ∈ ts) :
    k ∉ holds u := by
  have hn := h.nodup
  rw [List.flatMap_cons, List.nodup_append'] at hn
  exact fun hmem => hn.2.2 hk (List.mem_flatMap.mpr ⟨u, hu, hmem⟩)

/-- A handler takes locks that are not in the set. -/
theorem Held.take (h : Held holds locks ts) (hfree : ∀ k ∈ holds t, k ∉ locks)
    (hnodup : (holds t).Nodup) : Held holds (holds t ++ locks) (t :: ts) := by
  refine ⟨fun u hu k hk => ?_, ?_⟩
  · rcases List.mem_cons.mp hu with rfl | hu
    · exact List.mem_append_left _ hk
    · exact List.mem_append_right _ (h.locked u hu k hk)
  · rw [List.flatMap_cons, List.nodup_append']
    refine ⟨hnodup, h.nodup, fun k hk hmem => ?_⟩
    obtain ⟨u, hu, hku⟩ := List.mem_flatMap.mp hmem
    exact h.free (hfree k hk) hu hku

/-- A handler ends and gives its locks back. -/
theorem Held.release [DecidableEq κ] (h : Held holds locks (t :: ts)) :
    Held holds (locks.filter (· ∉ holds t)) ts := by
  refine ⟨fun u hu k hk => List.mem_filter.mpr ⟨h.locked u (List.mem_cons_of_mem _ hu) k hk, ?_⟩, ?_⟩
  · exact decide_eq_true fun hkt => h.alone hkt hu hk
  · have hn := h.nodup
    rw [List.flatMap_cons, List.nodup_append'] at hn
    exact hn.2.1

/-- A handler goes on with the locks it has. -/
theorem Held.goes (h : Held holds locks (t :: ts)) (hsame : holds u = holds t) :
    Held holds locks (u :: ts) := by
  refine ⟨fun v hv k hk => ?_, ?_⟩
  · rcases List.mem_cons.mp hv with rfl | hv
    · exact h.locked t List.mem_cons_self k (hsame ▸ hk)
    · exact h.locked v (List.mem_cons_of_mem _ hv) k hk
  · have hn := h.nodup
    rwa [List.flatMap_cons, ← hsame] at hn

/-- What the others hold does not depend on handlers that end. -/
theorem Held.rest (h : Held holds locks (l ++ ts)) : Held holds locks ts := by
  refine ⟨fun u hu => h.locked u (List.mem_append_right _ hu), ?_⟩
  have hn := h.nodup
  rw [List.flatMap_append, List.nodup_append'] at hn
  exact hn.2.1

theorem Held.tail (h : Held holds locks (t :: ts)) : Held holds locks ts := h.rest (l := [t])

/-- At most one has what only holders of the lock have. -/
theorem Held.countP_le_one (h : Held holds locks ts) {p : τ → Bool}
    (hp : ∀ t, p t = true → k ∈ holds t) : ts.countP p ≤ 1 := by
  induction ts with
  | nil => exact Nat.zero_le 1
  | cons t ts ih =>
    rw [List.countP_cons]
    split
    · next ht =>
      have hnone : ts.countP p = 0 := by
        rw [List.countP_eq_zero]
        intro u hu hpu
        exact h.alone (hp t ht) hu (hp u hpu)
      omega
    · exact ih h.tail

/-- Handlers begin that hold nothing. -/
theorem Held.more (h : Held holds locks ts) (hnone : ∀ u ∈ l, holds u = []) :
    Held holds locks (l ++ ts) := by
  refine ⟨fun u hu k hk => ?_, ?_⟩
  · rcases List.mem_append.mp hu with hu | hu
    · rw [hnone u hu] at hk
      cases hk
    · exact h.locked u hu k hk
  · rw [List.flatMap_append, List.flatMap_eq_nil_iff.mpr hnone]
    exact h.nodup

end ForgeOS.Library.NamedLocks
