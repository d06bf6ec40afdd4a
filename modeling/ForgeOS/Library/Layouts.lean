import Mathlib.Data.List.Nodup
import Mathlib.Logic.Function.Basic

/-! Two layouts of one record. Values are written to places one after the other, and a list of pairs
says which place of one layout is which place of the other. -/

namespace ForgeOS.Library.Layouts

variable {ι κ α : Type*} [DecidableEq ι]

/-- The writes are made in order. -/
def assign : List (ι × α) → (ι → α) → ι → α
  | [], dst => dst
  | w :: ws, dst => assign ws (Function.update dst w.1 w.2)

@[simp] theorem assign_nil (dst : ι → α) : assign [] dst = dst := rfl

theorem assign_cons (w : ι × α) (ws : List (ι × α)) (dst : ι → α) :
    assign (w :: ws) dst = assign ws (Function.update dst w.1 w.2) := rfl

/-- A place that is not written keeps its value. -/
theorem assign_other {ws : List (ι × α)} {i : ι} (h : i ∉ ws.map Prod.fst) (dst : ι → α) :
    assign ws dst i = dst i := by
  induction ws generalizing dst with
  | nil => rfl
  | cons w ws ih =>
    rw [List.map_cons, List.mem_cons, not_or] at h
    rw [assign_cons, ih h.2, Function.update_of_ne h.1]

/-- A place that is written once has the value written there. -/
theorem assign_mem {ws : List (ι × α)} (hn : (ws.map Prod.fst).Nodup) {i : ι} {v : α}
    (h : (i, v) ∈ ws) (dst : ι → α) : assign ws dst i = v := by
  induction ws generalizing dst with
  | nil => cases h
  | cons w ws ih =>
    rw [List.map_cons, List.nodup_cons] at hn
    rcases List.mem_cons.mp h with rfl | h
    · rw [assign_cons, assign_other hn.1, Function.update_self]
    · exact ih hn.2 h _

/-- The values of the second layout that the pairs bring to the first. -/
def carry (pairs : List (ι × κ)) (src : κ → α) : List (ι × α) := pairs.map fun p => (p.1, src p.2)

omit [DecidableEq ι] in
theorem map_fst_carry (pairs : List (ι × κ)) (src : κ → α) :
    (carry pairs src).map Prod.fst = pairs.map Prod.fst := by
  simp [carry, Function.comp_def]

/-- What has been carried over is read where the pairs say. -/
theorem assign_carry {pairs : List (ι × κ)} (hn : (pairs.map Prod.fst).Nodup) {p : ι × κ}
    (h : p ∈ pairs) (src : κ → α) (dst : ι → α) : assign (carry pairs src) dst p.1 = src p.2 := by
  have hmem : (p.1, src p.2) ∈ carry pairs src := List.mem_map.mpr ⟨p, h, rfl⟩
  refine assign_mem ?_ hmem dst
  rwa [map_fst_carry]

end ForgeOS.Library.Layouts
