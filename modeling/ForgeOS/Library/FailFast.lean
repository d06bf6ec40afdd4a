import Mathlib.Data.List.Basic
import Mathlib.Data.List.Infix

/-! Work through a list of items in order and stop at the first one that fails.
An item may send messages; how it ends may depend on every message sent before
it. The attempts form a prefix of the items, all but the last of them succeed,
and an attempt list shorter than the items ends in a failure. The messages of a
whole run are those of its attempts, in order. -/

namespace ForgeOS.Library.FailFast

variable {ι σ : Type*}

/-- An item that was tried, what it sent and whether it succeeded. -/
structure Attempt (ι σ : Type*) where
  item : ι
  sent : List σ
  ok : Bool
  deriving DecidableEq, Repr

/-- Try the items in order, after the messages of `log`, up to the first failure. -/
def attempts (act : List σ → ι → List σ × Bool) : List σ → List ι → List (Attempt ι σ)
  | _, [] => []
  | log, i :: is =>
    ⟨i, (act log i).1, (act log i).2⟩ ::
      if (act log i).2 then attempts act (log ++ (act log i).1) is else []

/-- All messages of a list of attempts. -/
def sentBy (as : List (Attempt ι σ)) : List σ := as.flatMap Attempt.sent

@[simp] theorem sentBy_nil : sentBy ([] : List (Attempt ι σ)) = [] := rfl

@[simp] theorem sentBy_cons (a : Attempt ι σ) (as : List (Attempt ι σ)) :
    sentBy (a :: as) = a.sent ++ sentBy as := rfl

variable (act : List σ → ι → List σ × Bool)

@[simp] theorem attempts_nil (log : List σ) : attempts act log ([] : List ι) = [] := rfl

theorem attempts_cons_ok {log : List σ} {i : ι} (h : (act log i).2 = true) (is : List ι) :
    attempts act log (i :: is) =
      ⟨i, (act log i).1, true⟩ :: attempts act (log ++ (act log i).1) is := by
  simp [attempts, h]

theorem attempts_cons_fail {log : List σ} {i : ι} (h : (act log i).2 = false) (is : List ι) :
    attempts act log (i :: is) = [⟨i, (act log i).1, false⟩] := by
  simp [attempts, h]

/-- The items tried are a prefix of the items given. -/
theorem attempts_items_isPrefix (log : List σ) (is : List ι) :
    (attempts act log is).map Attempt.item <+: is := by
  induction is generalizing log with
  | nil => simp
  | cons i is ih =>
    cases h : (act log i).2 with
    | true =>
      rw [attempts_cons_ok act h, List.map_cons]
      exact (List.cons_prefix_cons).mpr ⟨rfl, ih _⟩
    | false =>
      rw [attempts_cons_fail act h]
      exact ⟨is, rfl⟩

/-- Only the last attempt can fail. -/
theorem attempts_ok_of_mem_dropLast (log : List σ) (is : List ι) :
    ∀ a ∈ (attempts act log is).dropLast, a.ok = true := by
  induction is generalizing log with
  | nil => simp
  | cons i is ih =>
    cases h : (act log i).2 with
    | true =>
      rw [attempts_cons_ok act h]
      intro a ha
      cases hs : attempts act (log ++ (act log i).1) is with
      | nil => simp [hs] at ha
      | cons b bs =>
        rw [hs, List.dropLast_cons_of_ne_nil (by simp)] at ha
        rcases List.mem_cons.mp ha with rfl | ha
        · rfl
        · exact ih _ a (by rw [hs]; exact ha)
    | false =>
      rw [attempts_cons_fail act h]
      simp

/-- Items left untried mean that the last attempt failed. -/
theorem attempts_failed_of_lt (log : List σ) (is : List ι)
    (h : (attempts act log is).length < is.length) :
    ∃ a, (attempts act log is).getLast? = some a ∧ a.ok = false := by
  induction is generalizing log with
  | nil => simp at h
  | cons i is ih =>
    cases hi : (act log i).2 with
    | true =>
      rw [attempts_cons_ok act hi] at h ⊢
      obtain ⟨a, ha, hok⟩ := ih _ (by simpa using h)
      exact ⟨a, by rw [List.getLast?_cons, ha]; rfl, hok⟩
    | false =>
      rw [attempts_cons_fail act hi]
      exact ⟨_, rfl, rfl⟩

/-- Every attempt ends as the action does after the messages sent before it. -/
theorem attempts_acts (log : List σ) (is : List ι) :
    ∀ pre a post, attempts act log is = pre ++ a :: post →
      act (log ++ sentBy pre) a.item = (a.sent, a.ok) := by
  induction is generalizing log with
  | nil => intro pre a post h; simp at h
  | cons i is ih =>
    intro pre a post h
    cases hi : (act log i).2 with
    | true =>
      rw [attempts_cons_ok act hi] at h
      cases pre with
      | nil =>
        obtain ⟨rfl, -⟩ := List.cons.inj h
        simp [← hi]
      | cons b pre =>
        obtain ⟨hb, htail⟩ := List.cons.inj h
        subst hb
        simpa [List.append_assoc] using ih _ pre a post htail
    | false =>
      rw [attempts_cons_fail act hi] at h
      cases pre with
      | nil =>
        obtain ⟨rfl, -⟩ := List.cons.inj h
        simp [← hi]
      | cons b pre => simp at h

theorem mem_attempts_acts {log : List σ} {is : List ι} {a : Attempt ι σ}
    (ha : a ∈ attempts act log is) : ∃ log', act log' a.item = (a.sent, a.ok) := by
  obtain ⟨pre, post, h⟩ := List.append_of_mem ha
  exact ⟨_, attempts_acts act log is pre a post h⟩

end ForgeOS.Library.FailFast
