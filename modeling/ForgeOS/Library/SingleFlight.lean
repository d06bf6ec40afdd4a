import Mathlib.Data.List.Count
import ForgeOS.Library.Trace

/-! A service that takes requests under running numbers and works on one at a time. Between
taking a request and being done with it, the request is carried out at most once and answered to
its issuer only. What holds of whole logs follows from what each act is allowed in. -/

namespace ForgeOS.Library.SingleFlight

open ForgeOS.Library.Trace

variable {κ : Type*}

/-- What the service does, with the number of the request it does it for. -/
inductive Act (κ : Type*)
  | accept (t : ℕ) (c : κ)
  | run (t : ℕ)
  | answer (t : ℕ) (c : κ)
  | finish (t : ℕ)
  deriving DecidableEq, Repr

/-- The request the service works on, with its issuer and whether it has been carried out. -/
structure Held (κ : Type*) where
  ticket : ℕ
  issuer : κ
  ran : Bool
  deriving DecidableEq, Repr

/-- How many requests have been taken, and the one that is worked on. -/
structure Desk (κ : Type*) where
  issued : ℕ
  held : Option (Held κ)
  deriving DecidableEq, Repr

inductive Step : Act κ → Desk κ → Desk κ → Prop
  | accept (n : ℕ) (c : κ) : Step (.accept n c) ⟨n, none⟩ ⟨n + 1, some ⟨n, c, false⟩⟩
  | run (n t : ℕ) (c : κ) : Step (.run t) ⟨n, some ⟨t, c, false⟩⟩ ⟨n, some ⟨t, c, true⟩⟩
  | answer (n t : ℕ) (c : κ) (ran : Bool) :
      Step (.answer t c) ⟨n, some ⟨t, c, ran⟩⟩ ⟨n, some ⟨t, c, ran⟩⟩
  | finish (n t : ℕ) (c : κ) (ran : Bool) : Step (.finish t) ⟨n, some ⟨t, c, ran⟩⟩ ⟨n, none⟩

theorem mem_snoc {a b : Act κ} {log : List (Act κ)} : a ∈ log ++ [b] ↔ a ∈ log ∨ a = b := by
  rw [List.mem_append, List.mem_singleton]

/-- The issuer may be answered any number of times. -/
theorem run_answers {es : List (Act κ)} {n t : ℕ} {c : κ} {ran : Bool}
    (h : ∀ a ∈ es, a = .answer t c) :
    Run Step es ⟨n, some ⟨t, c, ran⟩⟩ ⟨n, some ⟨t, c, ran⟩⟩ := by
  induction es with
  | nil => exact .nil _
  | cons a es ih =>
    rw [h a List.mem_cons_self]
    exact .cons (.answer n t c ran) (ih fun b hb => h b (List.mem_cons_of_mem a hb))

variable [DecidableEq κ]

/-- What the log tells of the desk that it has led to. -/
structure Books (log : List (Act κ)) (d : Desk κ) : Prop where
  numbered : ∀ t c, .accept t c ∈ log → t < d.issued
  finished : ∀ t c, .accept t c ∈ log → .finish t ∈ log ∨ ∃ h, d.held = some h ∧ h.ticket = t
  held : ∀ h, d.held = some h → .accept h.ticket h.issuer ∈ log
  idle : ∀ h, d.held = some h → h.ran = false → log.count (.run h.ticket) = 0
  fresh : ∀ t, d.issued ≤ t → log.count (.run t) = 0
  once : ∀ t, log.count (.run t) ≤ 1
  ran : ∀ t, .run t ∈ log → ∃ c, .accept t c ∈ log
  answered : ∀ t c, .answer t c ∈ log → .accept t c ∈ log

theorem books_nil : Books ([] : List (Act κ)) ⟨0, none⟩ := by
  constructor <;> simp

theorem count_snoc (a b : Act κ) (log : List (Act κ)) :
    (log ++ [b]).count a = log.count a + if b = a then 1 else 0 := by
  rw [List.count_append, List.count_singleton]
  simp only [beq_iff_eq]

/-- Every act keeps the books: a request is taken under a number that none has had, and only the
one that is worked on is carried out, answered and finished. -/
theorem Books.snoc {log : List (Act κ)} {d d' : Desk κ} {a : Act κ} (h : Books log d)
    (hstep : Step a d d') : Books (log ++ [a]) d' := by
  obtain ⟨numbered, finished, held, idle, fresh, once, ran, answered⟩ := h
  cases hstep with
  | accept n c => constructor <;> simp only [mem_snoc, count_snoc] <;> grind
  | run n t c => constructor <;> simp only [mem_snoc, count_snoc] <;> grind
  | answer n t c ran => constructor <;> simp only [mem_snoc, count_snoc] <;> grind
  | finish n t c ran => constructor <;> simp only [mem_snoc, count_snoc] <;> grind

theorem Books.append {log es : List (Act κ)} {d d' : Desk κ} (h : Books log d)
    (hrun : Run Step es d d') : Books (log ++ es) d' := by
  induction hrun generalizing log with
  | nil d => rwa [List.append_nil]
  | @cons e es d t d' head tail ih =>
    have hsnoc := ih (h.snoc head)
    rwa [List.append_assoc] at hsnoc

theorem books_of_run {log : List (Act κ)} {d : Desk κ} (h : Run Step log ⟨0, none⟩ d) :
    Books log d := books_nil.append h

/-- A request is taken when all that were taken before are finished, under a number of its own. -/
theorem accepted_alone {es fs : List (Act κ)} {t : ℕ} {c : κ} {d : Desk κ}
    (h : Run Step (es ++ .accept t c :: fs) ⟨0, none⟩ d) :
    ∀ t' c', .accept t' c' ∈ es → t' ≠ t ∧ .finish t' ∈ es := by
  obtain ⟨m, hbefore, hafter⟩ := h.split
  cases hafter with
  | cons head _ =>
    cases head with
    | accept n c =>
      intro t' c' ht'
      obtain ⟨numbered, finished, -⟩ := books_of_run hbefore
      refine ⟨Nat.ne_of_lt (numbered t' c' ht'), ?_⟩
      rcases finished t' c' ht' with hfinish | ⟨h, hheld, -⟩
      · exact hfinish
      · cases hheld

end ForgeOS.Library.SingleFlight
