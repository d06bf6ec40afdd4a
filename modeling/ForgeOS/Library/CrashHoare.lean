import Mathlib.Tactic.TypeStar

/-! Programs that are interrupted: between any two steps the world beside them moves on, and
between any two steps they may be lost and begin anew from what their state has left. A program is
safe when all its steps keep an invariant; rules prove this part by part, and a machine that runs
programs in turn keeps the invariant through every run. A program is watched when each of its steps
finds a state that is fit for it. -/

namespace ForgeOS.Library.CrashHoare

/-- A step changes the state by what the system answers, and goes on by what was there before. -/
inductive Prog (σ ι α : Type)
  | done (a : α)
  | step (effect : σ → ι → σ) (next : σ → ι → Prog σ ι α)

variable {σ ι ε π α β γ : Type}

namespace Prog

def bind : Prog σ ι α → (α → Prog σ ι β) → Prog σ ι β
  | .done a, k => k a
  | .step effect next, k => .step effect fun s i => (next s i).bind k

instance : Monad (Prog σ ι) where
  pure := .done
  bind := bind

/-- A single step with its result. -/
def act (effect : σ → ι → σ) (result : σ → ι → α) : Prog σ ι α :=
  .step effect fun s i => .done (result s i)

end Prog

/-! ### Safe programs -/

/-- What the world does between two steps, any number of times, keeps the invariant. -/
structure Rely (R : σ → σ → Prop) (I : σ → Prop) : Prop where
  refl : ∀ s, R s s
  trans : ∀ {s t u}, R s t → R t u → R s u
  keeps : ∀ {s t}, R s t → I s → I t

/-- A condition that the world does not disturb. -/
def Stable (R : σ → σ → Prop) (P : σ → Prop) : Prop := ∀ s t, R s t → P s → P t

/-- Whatever the world does in between, every step keeps the invariant, and the end is as said. -/
def Safe (R : σ → σ → Prop) (I : σ → Prop) (Q : α → σ → Prop) : Prog σ ι α → σ → Prop
  | .done a, s => ∀ t, R s t → Q a t
  | .step effect next, s =>
    ∀ t, R s t → ∀ i, I (effect t i) ∧ Safe R I Q (next t i) (effect t i)

def Triple (R : σ → σ → Prop) (I : σ → Prop) (P : σ → Prop) (p : Prog σ ι α)
    (Q : α → σ → Prop) : Prop :=
  ∀ s, I s → P s → Safe R I Q p s

section Rules

variable {R : σ → σ → Prop} {I P P' : σ → Prop} {Q Q' : α → σ → Prop}

theorem Safe.rely (hR : Rely R I) {p : Prog σ ι α} {s t : σ} (h : Safe R I Q p s) (hst : R s t) :
    Safe R I Q p t := by
  cases p with
  | done a => exact fun u htu => h u (hR.trans hst htu)
  | step effect next => exact fun u htu => h u (hR.trans hst htu)

theorem Safe.bind (hR : Rely R I) {p : Prog σ ι α} {k : α → Prog σ ι β} {Q' : β → σ → Prop} {s : σ}
    (h : Safe R I Q p s) (hs : I s) (hk : ∀ a, Triple R I (Q a) (k a) Q') :
    Safe R I Q' (p.bind k) s := by
  induction p generalizing s with
  | done a => exact hk a s hs (h s (hR.refl s))
  | step effect next ih =>
    intro t hst i
    obtain ⟨hinv, hnext⟩ := h t hst i
    exact ⟨hinv, ih t i hnext hinv⟩

theorem Triple.bind (hR : Rely R I) {p : Prog σ ι α} {k : α → Prog σ ι β} {Q' : β → σ → Prop}
    (h : Triple R I P p Q) (hk : ∀ a, Triple R I (Q a) (k a) Q') :
    Triple R I P (p >>= k) Q' :=
  fun s hs hP => (h s hs hP).bind hR hs hk

theorem Triple.pure (hR : Rely R I) {a : α} (hP : Stable R P) (h : ∀ s, I s → P s → Q a s) :
    Triple R I P (pure a : Prog σ ι α) Q :=
  fun s hs hPs t hst => h t (hR.keeps hst hs) (hP s t hst hPs)

theorem Triple.act (hR : Rely R I) {effect : σ → ι → σ} {result : σ → ι → α} (hP : Stable R P)
    (hQ : ∀ a, Stable R (Q a))
    (h : ∀ s i, I s → P s → I (effect s i) ∧ Q (result s i) (effect s i)) :
    Triple R I P (Prog.act effect result) Q := by
  intro s hs hPs t hst i
  obtain ⟨hinv, hend⟩ := h t i (hR.keeps hst hs) (hP s t hst hPs)
  exact ⟨hinv, fun u htu => hQ _ _ u htu hend⟩

theorem Triple.pre {p : Prog σ ι α} (h : Triple R I P' p Q) (hP : ∀ s, I s → P s → P' s) :
    Triple R I P p Q :=
  fun s hs hPs => h s hs (hP s hs hPs)

theorem Safe.post {p : Prog σ ι α} {s : σ} (h : Safe R I Q p s) (hQ : ∀ a s, Q a s → Q' a s) :
    Safe R I Q' p s := by
  induction p generalizing s with
  | done a => exact fun t hst => hQ a t (h t hst)
  | step effect next ih =>
    intro t hst i
    obtain ⟨hinv, hnext⟩ := h t hst i
    exact ⟨hinv, ih t i hnext⟩

theorem Triple.post {p : Prog σ ι α} (h : Triple R I P p Q) (hQ : ∀ a s, Q a s → Q' a s) :
    Triple R I P p Q' :=
  fun s hs hPs => (h s hs hPs).post hQ

end Rules

/-! ### Watched programs -/

/-- A program after some of its steps, each with what the system answers. -/
def Prog.steps : Prog σ ι α → σ → List ι → Prog σ ι α × σ
  | .done a, s, _ => (.done a, s)
  | .step effect next, s, [] => (.step effect next, s)
  | .step effect next, s, i :: answers => (next s i).steps (effect s i) answers

theorem Prog.act_bind (effect : σ → ι → σ) (result : σ → ι → α) (k : α → Prog σ ι β) :
    Prog.act effect result >>= k = .step effect fun s i => k (result s i) := rfl

theorem Prog.step_bind (effect : σ → ι → σ) (next : σ → ι → Prog σ ι α) (k : α → Prog σ ι β) :
    Prog.step effect next >>= k = .step effect fun s i => next s i >>= k := rfl

theorem Prog.pure_bind (a : α) (k : α → Prog σ ι β) : (pure a : Prog σ ι α) >>= k = k a := rfl

theorem Prog.bind_assoc (p : Prog σ ι α) (k : α → Prog σ ι β) (l : β → Prog σ ι γ) :
    p >>= k >>= l = p >>= fun a => k a >>= l := by
  induction p with
  | done a => rfl
  | step effect next ih =>
    rw [step_bind, step_bind, step_bind]
    congr 1
    funext s i
    exact ih s i

/-- Whatever the world does in between, every step is taken in a state that is fit for it, and the
end is as said. -/
def Watched (R : σ → σ → Prop) (C : (σ → ι → σ) → σ → Prop) (Q : α → σ → Prop) :
    Prog σ ι α → σ → Prop
  | .done a, s => ∀ t, R s t → Q a t
  | .step effect next, s =>
    ∀ t, R s t → C effect t ∧ ∀ i, Watched R C Q (next t i) (effect t i)

def Watch (R : σ → σ → Prop) (C : (σ → ι → σ) → σ → Prop) (P : σ → Prop) (p : Prog σ ι α)
    (Q : α → σ → Prop) : Prop :=
  ∀ s, P s → Watched R C Q p s

section Watches

variable {R : σ → σ → Prop} {C : (σ → ι → σ) → σ → Prop} {I P : σ → Prop} {Q : α → σ → Prop}

theorem Watched.rely (hR : Rely R I) {p : Prog σ ι α} {s t : σ} (h : Watched R C Q p s)
    (hst : R s t) : Watched R C Q p t := by
  cases p with
  | done a => exact fun u htu => h u (hR.trans hst htu)
  | step effect next => exact fun u htu => h u (hR.trans hst htu)

theorem Watched.bind (hR : Rely R I) {p : Prog σ ι α} {k : α → Prog σ ι β} {Q' : β → σ → Prop}
    {s : σ} (h : Watched R C Q p s) (hk : ∀ a, Watch R C (Q a) (k a) Q') :
    Watched R C Q' (p.bind k) s := by
  induction p generalizing s with
  | done a => exact hk a s (h s (hR.refl s))
  | step effect next ih =>
    intro t hst
    obtain ⟨hfit, hnext⟩ := h t hst
    exact ⟨hfit, fun i => ih t i (hnext i)⟩

theorem Watch.bind (hR : Rely R I) {p : Prog σ ι α} {k : α → Prog σ ι β} {Q' : β → σ → Prop}
    (h : Watch R C P p Q) (hk : ∀ a, Watch R C (Q a) (k a) Q') : Watch R C P (p >>= k) Q' :=
  fun s hP => (h s hP).bind hR hk

theorem Watch.pure {a : α} (hP : Stable R P) (h : ∀ s, P s → Q a s) :
    Watch R C P (pure a : Prog σ ι α) Q :=
  fun s hPs t hst => h t (hP s t hst hPs)

theorem Watch.act {effect : σ → ι → σ} {result : σ → ι → α} (hP : Stable R P)
    (hQ : ∀ a, Stable R (Q a))
    (h : ∀ s, P s → C effect s ∧ ∀ i, Q (result s i) (effect s i)) :
    Watch R C P (Prog.act effect result) Q := by
  intro s hPs t hst
  obtain ⟨hfit, hend⟩ := h t (hP s t hst hPs)
  exact ⟨hfit, fun i u htu => hQ _ _ u htu (hend i)⟩

end Watches

/-! ### Machines -/

/-- A machine runs the programs of its places in turn, each of which says where to go on. A crash
leaves what `restart` keeps, and begins at `boot`. -/
structure Machine (σ ι ε π : Type) where
  boot : π
  program : π → Prog σ ι π
  enter : π → σ → σ
  world : ε → σ → σ
  restart : σ → σ

structure Config (σ ι π : Type) where
  place : π
  prog : Prog σ ι π
  state : σ

inductive Event (ι ε : Type)
  | go (i : ι)
  | world (e : ε)
  | crash
  deriving DecidableEq, Repr

namespace Machine

variable (m : Machine σ ι ε π)

def start (s : σ) : Config σ ι π where
  place := m.boot
  prog := m.program m.boot
  state := s

def step (c : Config σ ι π) : Event ι ε → Config σ ι π
  | .go i =>
    match c.prog with
    | .done place => { place, prog := m.program place, state := m.enter place c.state }
    | .step effect next => { c with prog := next c.state i, state := effect c.state i }
  | .world e => { c with state := m.world e c.state }
  | .crash => m.start (m.restart c.state)

def run (c : Config σ ι π) (events : List (Event ι ε)) : Config σ ι π := events.foldl m.step c

variable {m} {R : σ → σ → Prop} {I P : π → σ → Prop}

/-- Where every program is safe in its place and hands over as the next one needs it, the invariant
holds in every state of every run, through crashes too. -/
theorem run_invariant (hR : ∀ place, Rely R (I place)) (hworld : ∀ e s, R s (m.world e s))
    (hprogram : ∀ place, Triple R (I place) (P place) (m.program place) fun next s =>
      I next (m.enter next s) ∧ P next (m.enter next s))
    (hcrash : ∀ place s, I place s → I m.boot (m.restart s) ∧ P m.boot (m.restart s)) {s : σ}
    (hs : I m.boot s) (hP : P m.boot s) (events : List (Event ι ε)) :
    I (m.run (m.start s) events).place (m.run (m.start s) events).state := by
  have hinvariant : ∀ c : Config σ ι π, I c.place c.state →
      Safe R (I c.place) (fun next s => I next (m.enter next s) ∧ P next (m.enter next s))
        c.prog c.state → I (m.run c events).place (m.run c events).state := by
    induction events with
    | nil => exact fun c hc _ => hc
    | cons event events ih =>
      intro c hc hsafe
      cases event with
      | go i =>
        cases hprog : c.prog with
        | done place =>
          rw [hprog] at hsafe
          obtain ⟨henter, hentry⟩ := hsafe c.state ((hR c.place).refl c.state)
          rw [run, List.foldl_cons, ← run, step, hprog]
          exact ih _ henter (hprogram place _ henter hentry)
        | step effect next =>
          rw [hprog] at hsafe
          obtain ⟨hkept, hnext⟩ := hsafe c.state ((hR c.place).refl c.state) i
          rw [run, List.foldl_cons, ← run, step, hprog]
          exact ih _ hkept hnext
      | world e =>
        have hst := hworld e c.state
        exact ih (m.step c (.world e)) ((hR c.place).keeps hst hc) (hsafe.rely (hR c.place) hst)
      | crash =>
        obtain ⟨hkept, hentry⟩ := hcrash c.place c.state hc
        exact ih (m.step c .crash) hkept (hprogram m.boot _ hkept hentry)
  exact hinvariant (m.start s) hs (hprogram m.boot s hs hP)

end Machine

end ForgeOS.Library.CrashHoare
