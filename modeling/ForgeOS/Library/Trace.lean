import Mathlib.Tactic.TypeStar

/-! Programs over a state, seen through the events they cause and through what they
do to a part of the state. An event relates the state before it to the state after
it; a run is a list of events, and the events of a program are those of its parts. -/

namespace ForgeOS.Library.Trace

/-! ### Runs -/

section Run

variable {σ ε : Type*} (step : ε → σ → σ → Prop)

/-- The events lead from the first state to the last. -/
inductive Run : List ε → σ → σ → Prop
  | nil (s : σ) : Run [] s s
  | cons {e : ε} {es : List ε} {s t u : σ} (head : step e s t) (tail : Run es t u) :
      Run (e :: es) s u

variable {step}

theorem Run.single {e : ε} {s t : σ} (h : step e s t) : Run step [e] s t := .cons h (.nil t)

theorem Run.append {es fs : List ε} {s t u : σ} (h : Run step es s t) (h' : Run step fs t u) :
    Run step (es ++ fs) s u := by
  induction h with
  | nil => exact h'
  | cons head _ ih => exact .cons head (ih h')

theorem Run.split {es fs : List ε} {s u : σ} (h : Run step (es ++ fs) s u) :
    ∃ t, Run step es s t ∧ Run step fs t u := by
  induction es generalizing s with
  | nil => exact ⟨s, .nil s, h⟩
  | cons e es ih =>
    cases h with
    | cons head tail =>
      obtain ⟨t, hfirst, hrest⟩ := ih tail
      exact ⟨t, .cons head hfirst, hrest⟩

end Run

/-! ### Programs -/

section Programs

variable {σ ε α β : Type} {step : ε → σ → σ → Prop}

/-- What a program answers, started in a state. -/
def answer (m : StateM σ α) (s : σ) : α := (m.run s).1

/-- The state a program ends in. -/
def final (m : StateM σ α) (s : σ) : σ := (m.run s).2

theorem answer_bind (m : StateM σ α) (k : α → StateM σ β) (s : σ) :
    answer (m >>= k) s = answer (k (answer m s)) (final m s) := rfl

theorem final_bind (m : StateM σ α) (k : α → StateM σ β) (s : σ) :
    final (m >>= k) s = final (k (answer m s)) (final m s) := rfl

/-- Started in a state, the program causes these events. -/
def Causes (step : ε → σ → σ → Prop) (m : StateM σ α) (s : σ) (es : List ε) : Prop :=
  Run step es s (final m s)

theorem causes_pure (a : α) (s : σ) : Causes step (pure a : StateM σ α) s [] := .nil s

theorem Causes.bind {m : StateM σ α} {k : α → StateM σ β} {s : σ} {es fs : List ε}
    (hm : Causes step m s es) (hk : Causes step (k (answer m s)) (final m s) fs) :
    Causes step (m >>= k) s (es ++ fs) := by
  rw [Causes, final_bind]
  exact hm.append hk

/-- What a program does to a part of the state. -/
def Maps {τ : Type} (view : σ → τ) (f : τ → τ) (m : StateM σ α) : Prop :=
  ∀ s, view (final m s) = f (view s)

theorem maps_pure {τ : Type} (view : σ → τ) (a : α) : Maps view id (pure a : StateM σ α) :=
  fun _ => rfl

theorem Maps.bind {τ : Type} {view : σ → τ} {f g : τ → τ} {m : StateM σ α} {k : α → StateM σ β}
    (hm : Maps view f m) (hk : ∀ a, Maps view g (k a)) : Maps view (g ∘ f) (m >>= k) :=
  fun s => (hk _ _).trans (congrArg g (hm s))

end Programs

end ForgeOS.Library.Trace
