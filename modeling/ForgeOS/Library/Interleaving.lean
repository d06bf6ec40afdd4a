import Mathlib.Data.List.Perm.Basic
import ForgeOS.Library.Conditions

/-! A server with one thread. A handler runs until it waits; between two waits of one handler any
others may run, in any order, and a restart drops the handlers that live in the server. What holds
between the steps of every run follows from what one uninterrupted stretch of a handler keeps. -/

namespace ForgeOS.Library.Interleaving

open ForgeOS.Library.Conditions

variable {σ τ ρ ι : Type*}

/-- How a request begins and how a handler goes on from where it waits, each up to its next wait
(with the handlers that wait from then on); what a restart leaves of the shared state, and which of
those that wait are outside the server and survive it. -/
structure Server (σ τ ρ ι : Type*) where
  enter : ρ → σ → σ × List τ
  resume : τ → ι → σ → σ × List τ
  restart : σ → σ
  survives : τ → Bool

structure State (σ τ : Type*) where
  shared : σ
  waiting : List τ
  deriving DecidableEq, Repr

/-- What happens next: a request arrives, a handler is given what it waits for, the server is
started again. -/
inductive Event (ρ ι : Type*)
  | arrive (r : ρ)
  | wake (k : ℕ) (x : ι)
  | restart
  deriving DecidableEq, Repr

namespace Server

variable (srv : Server σ τ ρ ι)

def step (s : State σ τ) : Event ρ ι → State σ τ
  | .arrive r => ⟨(srv.enter r s.shared).1, (srv.enter r s.shared).2 ++ s.waiting⟩
  | .wake k x =>
    match s.waiting[k]? with
    | some t =>
      ⟨(srv.resume t x s.shared).1, (srv.resume t x s.shared).2 ++ s.waiting.eraseIdx k⟩
    | none => s
  | .restart => ⟨srv.restart s.shared, s.waiting.filter srv.survives⟩

def run (s : State σ τ) (es : List (Event ρ ι)) : State σ τ := es.foldl srv.step s

theorem run_append (s : State σ τ) (es fs : List (Event ρ ι)) :
    srv.run s (es ++ fs) = srv.run (srv.run s es) fs := List.foldl_append

/-- Where all that wait are in the server, nothing waits after a restart. -/
theorem filter_survives {srv : Server σ τ ρ ι} (h : ∀ t, srv.survives t = false) (ts : List τ) :
    ts.filter srv.survives = [] :=
  List.filter_eq_nil_iff.mpr fun t _ => by simp [h t]

end Server

/-- A condition on what begins and on what goes on, each with the shared state and the others that
wait. -/
structure Condition (σ τ ρ ι : Type*) where
  enter : ρ → σ → List τ → Prop
  resume : τ → ι → σ → List τ → Prop

/-- The condition on the step that the event makes. -/
def Condition.At (C : Condition σ τ ρ ι) (s : State σ τ) : Event ρ ι → Prop
  | .arrive r => C.enter r s.shared s.waiting
  | .wake k x =>
    match s.waiting[k]? with
    | some t => C.resume t x s.shared (s.waiting.eraseIdx k)
    | none => True
  | .restart => True

/-- No condition at all. -/
def always : Condition σ τ ρ ι where
  enter _ _ _ := True
  resume _ _ _ _ := True

theorem at_always (s : State σ τ) (e : Event ρ ι) : (always : Condition σ τ ρ ι).At s e := by
  cases e with
  | arrive r => trivial
  | wake k x =>
    simp only [Condition.At]
    split
    · trivial
    · trivial
  | restart => trivial

theorem along_always (srv : Server σ τ ρ ι) (s : State σ τ) (es : List (Event ρ ι)) :
    Along srv.step (always : Condition σ τ ρ ι).At s es := by
  induction es generalizing s with
  | nil => trivial
  | cons e es ih => exact ⟨at_always s e, ih _⟩

instance Condition.decidableAt (C : Condition σ τ ρ ι) [he : ∀ r s ts, Decidable (C.enter r s ts)]
    [hr : ∀ t x s ts, Decidable (C.resume t x s ts)] (s : State σ τ) :
    (e : Event ρ ι) → Decidable (C.At s e)
  | .arrive r => he r s.shared s.waiting
  | .wake k x =>
    match h : s.waiting[k]? with
    | some t =>
      decidable_of_iff (C.resume t x s.shared (s.waiting.eraseIdx k)) (by simp [Condition.At, h])
    | none => .isTrue (by simp [Condition.At, h])
  | .restart => .isTrue trivial

/-- What every uninterrupted stretch keeps under the condition. The order in which handlers wait
does not matter to it. -/
structure Invariant (srv : Server σ τ ρ ι) (C : Condition σ τ ρ ι) (I : σ → List τ → Prop) :
    Prop where
  perm : ∀ s ts us, ts.Perm us → I s ts → I s us
  enter : ∀ r s ts, I s ts → C.enter r s ts → I (srv.enter r s).1 ((srv.enter r s).2 ++ ts)
  resume : ∀ t x s ts, I s (t :: ts) → C.resume t x s ts →
    I (srv.resume t x s).1 ((srv.resume t x s).2 ++ ts)
  restart : ∀ s ts, I s ts → I (srv.restart s) (ts.filter srv.survives)

section Invariant

variable {srv : Server σ τ ρ ι} {C : Condition σ τ ρ ι} {I : σ → List τ → Prop}

/-- The handler that goes on may be taken to be the first of those that wait. -/
theorem perm_of_getElem? {ts : List τ} {k : ℕ} {t : τ} (h : ts[k]? = some t) :
    ts.Perm (t :: ts.eraseIdx k) := by
  induction ts generalizing k with
  | nil => simp at h
  | cons u us ih =>
    cases k with
    | zero =>
      rw [List.getElem?_cons_zero, Option.some.injEq] at h
      rw [h, List.eraseIdx_cons_zero]
    | succ k =>
      rw [List.getElem?_cons_succ] at h
      rw [List.eraseIdx_cons_succ]
      exact ((ih h).cons u).trans (.swap t u _)

theorem Invariant.step (hI : Invariant srv C I) {s : State σ τ} {e : Event ρ ι}
    (h : I s.shared s.waiting) (hC : C.At s e) :
    I (srv.step s e).shared (srv.step s e).waiting := by
  cases e with
  | arrive r => exact hI.enter r s.shared s.waiting h hC
  | restart => exact hI.restart s.shared s.waiting h
  | wake k x =>
    simp only [Server.step, Condition.At] at hC ⊢
    split at hC
    · next t ht =>
      exact hI.resume t x s.shared _ (hI.perm _ _ _ (perm_of_getElem? ht) h) hC
    · exact h

/-- The invariant holds after every run whose steps meet the condition. -/
theorem Invariant.run (hI : Invariant srv C I) {s : State σ τ} {es : List (Event ρ ι)}
    (h : I s.shared s.waiting) (hC : Along srv.step C.At s es) :
    I (srv.run s es).shared (srv.run s es).waiting := by
  induction es generalizing s with
  | nil => exact h
  | cons e es ih => exact ih (hI.step h hC.1) hC.2

/-- The invariant of a server that needs no condition holds after every run. -/
theorem Invariant.run_always (hI : Invariant srv always I) {s : State σ τ}
    (h : I s.shared s.waiting) (es : List (Event ρ ι)) :
    I (srv.run s es).shared (srv.run s es).waiting :=
  hI.run h (along_always srv s es)

/-- What a stretch keeps of the shared state, whatever waits, needs no word about the handlers. -/
theorem Invariant.of_shared {J : σ → Prop}
    (henter : ∀ r s ts, J s → C.enter r s ts → J (srv.enter r s).1)
    (hresume : ∀ t x s ts, J s → C.resume t x s ts → J (srv.resume t x s).1)
    (hrestart : ∀ s, J s → J (srv.restart s)) : Invariant srv C fun s _ => J s where
  perm _ _ _ _ h := h
  enter r s ts h hC := henter r s ts h hC
  resume t x s ts h hC := hresume t x s ts h hC
  restart s _ h := hrestart s h

end Invariant

end ForgeOS.Library.Interleaving
