import Mathlib.Data.List.Count

/-! Runs of a machine in which every step meets a condition on the state it is taken in. -/

namespace ForgeOS.Library.Conditions

variable {σ ε : Type*} {step : σ → ε → σ} {P Q : σ → ε → Prop}

/-- Every event of the run meets the condition in the state in which it happens. -/
def Along (step : σ → ε → σ) (P : σ → ε → Prop) : σ → List ε → Prop
  | _, [] => True
  | s, e :: es => P s e ∧ Along step P (step s e) es

instance Along.decidable [hP : ∀ s e, Decidable (P s e)] :
    (s : σ) → (es : List ε) → Decidable (Along step P s es)
  | _, [] => .isTrue trivial
  | s, e :: es =>
    match hP s e, Along.decidable (step s e) es with
    | .isTrue h, .isTrue h' => .isTrue ⟨h, h'⟩
    | .isFalse h, _ => .isFalse fun hes => h hes.1
    | _, .isFalse h => .isFalse fun hes => h hes.2

theorem along_append {s : σ} {es fs : List ε} :
    Along step P s (es ++ fs) ↔ Along step P s es ∧ Along step P (es.foldl step s) fs := by
  induction es generalizing s with
  | nil => simp [Along]
  | cons e es ih => rw [List.cons_append, Along, Along, ih, List.foldl_cons, and_assoc]

theorem Along.imp (hstep : ∀ s e, P s e → Q s e) {s : σ} {es : List ε} (h : Along step P s es) :
    Along step Q s es := by
  induction es generalizing s with
  | nil => trivial
  | cons e es ih => exact ⟨hstep s e h.1, ih h.2⟩

/-- Two conditions that all steps meet are met together. -/
theorem Along.and {s : σ} {es : List ε} (h : Along step P s es) (h' : Along step Q s es) :
    Along step (fun s e => P s e ∧ Q s e) s es := by
  induction es generalizing s with
  | nil => trivial
  | cons e es ih => exact ⟨⟨h.1, h'.1⟩, ih h.2 h'.2⟩

/-- A condition that the steps keep an invariant under, and that with it gives another condition,
gives it along the run. -/
theorem Along.of_invariant {I : σ → Prop} (hI : ∀ s e, I s → P s e → I (step s e))
    (hQ : ∀ s e, I s → P s e → Q s e) {s : σ} (hs : I s) {es : List ε} (h : Along step P s es) :
    Along step Q s es := by
  induction es generalizing s with
  | nil => trivial
  | cons e es ih => exact ⟨hQ s e hs h.1, ih (hI s e hs h.1) h.2⟩

/-- Where conditions agree in every state that an invariant allows, runs meet both or neither. -/
theorem along_congr {I : σ → Prop} (hI : ∀ s e, I s → I (step s e))
    (hstep : ∀ s e, I s → (P s e ↔ Q s e)) {s : σ} (hs : I s) (es : List ε) :
    Along step P s es ↔ Along step Q s es := by
  induction es generalizing s with
  | nil => exact Iff.rfl
  | cons e es ih => exact and_congr (hstep s e hs) (ih (hI s e hs))

/-- Where a condition on a step says exactly that the step keeps `J`, a run meets it exactly if `J`
holds in every state that it reaches. -/
theorem along_iff_kept {I J : σ → Prop} (hI : ∀ s e, I s → I (step s e))
    (hstep : ∀ s e, I s → J s → (P s e ↔ J (step s e))) {s : σ} (hs : I s) (hJ : J s)
    (es : List ε) : Along step P s es ↔ Along step (fun s e => J (step s e)) s es := by
  induction es generalizing s with
  | nil => exact Iff.rfl
  | cons e es ih =>
    rw [Along, Along, hstep s e hs hJ]
    exact and_congr_right fun hkept => ih (hI s e hs) hkept

/-- A measure that every marked event raises is at least the number of marked events. -/
theorem Along.le_measure {m : σ → ℕ} {marked : ε → Bool}
    (hstep : ∀ s e, P s e → m s + (if marked e then 1 else 0) ≤ m (step s e)) {s : σ} {es : List ε}
    (h : Along step P s es) : m s + es.countP marked ≤ m (es.foldl step s) := by
  induction es generalizing s with
  | nil => exact Nat.le_refl _
  | cons e es ih =>
    have hhead := hstep s e h.1
    have htail := ih h.2
    rw [List.countP_cons, List.foldl_cons]
    omega

end ForgeOS.Library.Conditions
