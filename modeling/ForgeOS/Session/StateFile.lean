import Mathlib.Logic.Relation
import ForgeOS.Session.StateMachine

/-! The state file of a session, what one write may do to it and what holds of it
then. The file keeps every value that was ever persisted, for the statements only. -/

namespace ForgeOS.Session

open ForgeOS.Library.Journal

/-- `session-state.json`. `past` are the values it had before; nothing reads them. -/
structure StateFile where
  current : SessionState
  past : List SessionState := []
  deriving DecidableEq, Repr

def StateFile.persisted (f : StateFile) : List SessionState := f.past ++ [f.current]

def StateFile.write (f : StateFile) (s : SessionState) : StateFile := ⟨s, f.persisted⟩

/-! ### What may happen to a state file -/

/-- One write: fields beside the journal change, or an allowed move is recorded. -/
inductive StateFile.Step (f : StateFile) : StateFile → Prop
  | fields {s : SessionState} (hstate : s.state = f.current.state)
      (hhistory : s.history = f.current.history) : Step f (f.write s)
  | move {s : SessionState} {r : TransitionRecord} (hfrom : r.fromState = f.current.state)
      (hallowed : isTransitionAllowed f.current.state r.toState = true)
      (hstate : s.state = r.toState) (hhistory : s.history = f.current.history ++ [r]) :
      Step f (f.write s)

abbrev StateFile.Steps : StateFile → StateFile → Prop := Relation.ReflTransGen StateFile.Step

/-- The history of a state: it starts with the attachment of the device, every
record leads on from the one before by an allowed move, and the last one leads to
the state. -/
def Journaled (s : SessionState) : Prop :=
  Linked isTransitionAllowed TransitionRecord.fromState TransitionRecord.toState .idle .deviceAttached
    s.history s.state

/-- Every value ever persisted has a sound history, and none has lost a record of
a value before it. -/
structure StateFile.Sound (f : StateFile) : Prop where
  journaled : ∀ s ∈ f.persisted, Journaled s
  kept : f.persisted.Pairwise fun s s' => s.history <+: s'.history

theorem history_isPrefix_trans (a b c : SessionState) (hab : a.history <+: b.history)
    (hbc : b.history <+: c.history) : a.history <+: c.history := hab.trans hbc

theorem StateFile.Sound.write {f : StateFile} (h : f.Sound) {s : SessionState} (hs : Journaled s)
    (hkept : f.current.history <+: s.history) : (f.write s).Sound where
  journaled t ht := by
    rcases List.mem_append.mp ht with ht | ht
    · exact h.journaled t ht
    · rw [List.mem_singleton.mp ht]
      exact hs
  kept := pairwise_snoc history_isPrefix_trans h.kept hkept

theorem StateFile.Sound.step {f f' : StateFile} (h : f.Sound) (hstep : f.Step f') : f'.Sound := by
  have hcurrent : Journaled f.current := h.journaled f.current (by simp [StateFile.persisted])
  cases hstep with
  | fields hstate hhistory =>
    refine h.write ?_ ?_
    · rw [Journaled, hstate, hhistory]
      exact hcurrent
    · rw [hhistory]
  | @move s r hfrom hallowed hstate hhistory =>
    refine h.write ?_ ?_
    · rw [Journaled, hstate, hhistory]
      exact hcurrent.record hfrom hallowed
    · rw [hhistory]
      exact ⟨[r], rfl⟩

theorem StateFile.Sound.steps {f f' : StateFile} (h : f.Sound) (hsteps : f.Steps f') : f'.Sound := by
  induction hsteps with
  | refl => exact h
  | tail _ hstep ih => exact ih.step hstep

/-- What was persisted stays persisted. -/
theorem StateFile.Steps.persisted_isPrefix {f f' : StateFile} (h : f.Steps f') :
    f.persisted <+: f'.persisted := by
  induction h with
  | refl => exact List.prefix_refl _
  | @tail g g' _ hstep ih =>
    have hwrite : g.persisted <+: g'.persisted := by
      cases hstep <;> exact ⟨[_], rfl⟩
    exact ih.trans hwrite

end ForgeOS.Session
