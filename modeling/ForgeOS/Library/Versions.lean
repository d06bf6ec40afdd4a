import Mathlib.Data.Nat.Notation
import ForgeOS.Library.Conditions

/-! A machine whose state is seen together with a version. When every step either raises the
version or keeps both the version and what is seen, a version stands for what is seen over a
whole run, however often it is looked at. -/

namespace ForgeOS.Library.Versions

open ForgeOS.Library.Conditions

variable {σ ε ω ν : Type*} {step : σ → ε → σ} {version : σ → ℕ} {seen : σ → ν}

/-- Of two states, the later has a greater version or shows the same under the same version. -/
def Renews (version : σ → ℕ) (seen : σ → ν) (s t : σ) : Prop :=
  version s < version t ∨ version s = version t ∧ seen s = seen t

theorem Renews.refl (s : σ) : Renews version seen s s := .inr ⟨rfl, rfl⟩

theorem Renews.trans {s t u : σ} (h : Renews version seen s t) (h' : Renews version seen t u) :
    Renews version seen s u := by
  rcases h with h | ⟨hv, hs⟩
  · rcases h' with h' | ⟨hv', -⟩
    · exact .inl (by omega)
    · exact .inl (by omega)
  · rcases h' with h' | ⟨hv', hs'⟩
    · exact .inl (by omega)
    · exact .inr ⟨hv.trans hv', hs.trans hs'⟩

theorem Renews.agree {s t : σ} (h : Renews version seen s t) (hv : version s = version t) :
    seen s = seen t := by
  rcases h with h | ⟨-, hs⟩
  · omega
  · exact hs

/-- The states of a run, the first one included. -/
def states (step : σ → ε → σ) : σ → List ε → List σ
  | s, [] => [s]
  | s, e :: es => s :: states step (step s e) es

theorem self_mem_states (s : σ) (es : List ε) : s ∈ states step s es := by
  cases es with
  | nil => exact List.mem_singleton.mpr rfl
  | cons e es => exact List.mem_cons_self

/-- An invariant that every step keeps holds in all states of a run. -/
theorem forall_states {I : σ → Prop} (hstep : ∀ s e, I s → I (step s e)) {s : σ} (hs : I s)
    (es : List ε) : ∀ t ∈ states step s es, I t := by
  induction es generalizing s with
  | nil =>
    intro t ht
    rw [List.mem_singleton.mp ht]
    exact hs
  | cons e es ih =>
    intro t ht
    rcases List.mem_cons.mp ht with rfl | ht
    · exact hs
    · exact ih (hstep s e hs) t ht

theorem renews_states {s : σ} {es : List ε}
    (h : Along step (fun s e => Renews version seen s (step s e)) s es) :
    ∀ t ∈ states step s es, Renews version seen s t := by
  induction es generalizing s with
  | nil =>
    intro t ht
    rw [List.mem_singleton.mp ht]
    exact Renews.refl s
  | cons e es ih =>
    intro t ht
    rcases List.mem_cons.mp ht with rfl | ht
    · exact Renews.refl t
    · exact h.1.trans (ih h.2 t ht)

/-- Any two states of a run with one version show the same. -/
theorem states_agree {s : σ} {es : List ε}
    (h : Along step (fun s e => Renews version seen s (step s e)) s es) :
    ∀ t ∈ states step s es, ∀ u ∈ states step s es, version t = version u → seen t = seen u := by
  induction es generalizing s with
  | nil =>
    intro t ht u hu _
    rw [List.mem_singleton.mp ht, List.mem_singleton.mp hu]
  | cons e es ih =>
    intro t ht u hu hv
    rcases List.mem_cons.mp ht with rfl | htail
    · exact (renews_states h u hu).agree hv
    · rcases List.mem_cons.mp hu with rfl | hu
      · exact ((renews_states h t ht).agree hv.symm).symm
      · exact ih h.2 t htail u hu hv

/-! ### What a run puts out -/

/-- What the steps of a run put out, in order. -/
def outputs (step : σ → ε → σ) (out : σ → ε → List ω) : σ → List ε → List ω
  | _, [] => []
  | s, e :: es => out s e ++ outputs step out (step s e) es

/-- When every output shows the state that the step ends in, it shows a state of the run. -/
theorem exists_state_of_mem_outputs {out : σ → ε → List ω} {Shows : ω → σ → Prop}
    (hout : ∀ s e, ∀ o ∈ out s e, Shows o (step s e)) {s : σ} {es : List ε} :
    ∀ o ∈ outputs step out s es, ∃ t ∈ states step s es, Shows o t := by
  induction es generalizing s with
  | nil =>
    intro o ho
    cases ho
  | cons e es ih =>
    intro o ho
    rcases List.mem_append.mp ho with ho | ho
    · exact ⟨step s e, List.mem_cons_of_mem s (self_mem_states _ es), hout s e o ho⟩
    · obtain ⟨t, ht, hshows⟩ := ih o ho
      exact ⟨t, List.mem_cons_of_mem s ht, hshows⟩

/-! ### What has been said of versions -/

/-- What has been said is about earlier versions, or is what holds of the version now, and all of it
agrees. -/
structure Current (said : List (ℕ × ν)) (v : ℕ) (x : ν) : Prop where
  bounded : ∀ p ∈ said, p.1 < v ∨ p = (v, x)
  agree : ∀ p ∈ said, ∀ q ∈ said, p.1 = q.1 → p.2 = q.2

variable {said new : List (ℕ × ν)} {v w : ℕ} {x y : ν}

theorem current_nil (v : ℕ) (x : ν) : Current [] v x where
  bounded _ h := nomatch h
  agree _ h := nomatch h

/-- What holds now may be said, and what has been said may be said again. -/
theorem Current.append (h : Current said v x) (hnew : ∀ p ∈ new, p = (v, x) ∨ p ∈ said) :
    Current (said ++ new) v x := by
  obtain ⟨bounded, agree⟩ := h
  have hsaid : ∀ p ∈ said ++ new, p ∈ said ∨ p = (v, x) := by
    intro p hp
    rcases List.mem_append.mp hp with hp | hp
    · exact .inl hp
    · exact (hnew p hp).symm
  have hnow : ∀ p ∈ said, p.1 = v → p.2 = x := by
    intro p hp hv
    rcases bounded p hp with hlt | rfl
    · omega
    · rfl
  constructor
  · intro p hp
    rcases hsaid p hp with hp | rfl
    · exact bounded p hp
    · exact .inr rfl
  · intro p hp q hq hpq
    rcases hsaid p hp with hp | rfl
    · rcases hsaid q hq with hq | rfl
      · exact agree p hp q hq hpq
      · exact hnow p hp hpq
    · rcases hsaid q hq with hq | rfl
      · exact (hnow q hq hpq.symm).symm
      · rfl

theorem Current.raise (h : Current said v x) (hv : v < w) : Current said w y where
  bounded p hp := by
    rcases h.bounded p hp with hlt | rfl
    · exact .inl (Nat.lt_trans hlt hv)
    · exact .inl hv
  agree := h.agree

/-- A version that nothing has been said of may change what it stands for. -/
theorem Current.change (h : Current said v x) (hnone : ∀ p ∈ said, p.1 ≠ v) : Current said v y where
  bounded p hp := by
    rcases h.bounded p hp with hlt | rfl
    · exact .inl hlt
    · exact absurd rfl (hnone _ hp)
  agree := h.agree

end ForgeOS.Library.Versions
