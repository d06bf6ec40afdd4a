import Mathlib.Data.List.Chain
import Mathlib.Data.List.Infix

/-! A state machine with a journal. A move that the table does not allow is
dropped without a trace; one that is made leaves a record. The records of a run
form a chain of allowed moves that ends in the current state, and what has been
recorded once is in every later journal, at its place. -/

namespace ForgeOS.Library.Journal

variable {σ ρ : Type*} (allowed : σ → σ → Bool)

/-! ### Moves that may be dropped -/

def tryMove (s t : σ) : σ := if allowed s t then t else s

def tryMoves (s : σ) (ts : List σ) : σ := ts.foldl (tryMove allowed) s

/-- The moves that are made, with where they lead from and to. -/
def madeMoves : σ → List σ → List (σ × σ)
  | _, [] => []
  | s, t :: ts => (if allowed s t then [(s, t)] else []) ++ madeMoves (tryMove allowed s t) ts

@[simp] theorem tryMoves_nil (s : σ) : tryMoves allowed s [] = s := rfl

@[simp] theorem tryMoves_cons (s t : σ) (ts : List σ) :
    tryMoves allowed s (t :: ts) = tryMoves allowed (tryMove allowed s t) ts := rfl

theorem tryMoves_append (s : σ) (ts us : List σ) :
    tryMoves allowed s (ts ++ us) = tryMoves allowed (tryMoves allowed s ts) us :=
  List.foldl_append

theorem madeMoves_append (s : σ) (ts us : List σ) :
    madeMoves allowed s (ts ++ us) =
      madeMoves allowed s ts ++ madeMoves allowed (tryMoves allowed s ts) us := by
  induction ts generalizing s with
  | nil => rfl
  | cons t ts ih => simp only [List.cons_append, madeMoves, tryMoves_cons, ih, List.append_assoc]

/-- A move that is made was tried. -/
theorem mem_of_mem_madeMoves {s : σ} {ts : List σ} {m : σ × σ} (h : m ∈ madeMoves allowed s ts) :
    m.2 ∈ ts := by
  induction ts generalizing s with
  | nil => exact absurd h List.not_mem_nil
  | cons t ts ih =>
    rw [madeMoves] at h
    rcases List.mem_append.mp h with h | h
    · split_ifs at h
      · rw [List.mem_singleton.mp h]
        exact List.mem_cons_self
      · exact absurd h List.not_mem_nil
    · exact List.mem_cons_of_mem t (ih h)

variable {allowed}

theorem tryMove_of_allowed {s t : σ} (h : allowed s t = true) : tryMove allowed s t = t := if_pos h

theorem tryMove_of_not {s t : σ} (h : allowed s t = false) : tryMove allowed s t = s := by
  simp [tryMove, h]

/-! ### Journals -/

variable {src dst : ρ → σ}

/-- The records start with a move from `a` to `b`, each leads on from the one before,
all behind the first are allowed, and the last one leads to `s`. -/
structure Linked (allowed : σ → σ → Bool) (src dst : ρ → σ) (a b : σ) (records : List ρ) (s : σ) :
    Prop where
  first : records.head?.map (fun r => (src r, dst r)) = some (a, b)
  chained : records.IsChain fun r r' => src r' = dst r
  allowed : ∀ r ∈ records.tail, allowed (src r) (dst r) = true
  last : records.getLast?.map dst = some s

theorem Linked.start {r : ρ} : Linked allowed src dst (src r) (dst r) [r] (dst r) where
  first := rfl
  chained := List.isChain_singleton r
  allowed := by simp
  last := rfl

theorem Linked.ne_nil {a b s : σ} {records : List ρ} (h : Linked allowed src dst a b records s) :
    records ≠ [] := by
  rintro rfl
  simpa using h.first

/-- A move that is allowed may be recorded behind the others. -/
theorem Linked.record {a b s : σ} {records : List ρ} (h : Linked allowed src dst a b records s)
    {r : ρ} (hsrc : src r = s) (hallowed : allowed s (dst r) = true) :
    Linked allowed src dst a b (records ++ [r]) (dst r) where
  first := by
    rw [List.head?_append_of_ne_nil _ h.ne_nil]
    exact h.first
  chained := by
    refine h.chained.append (List.isChain_singleton r) fun x hx y hy => ?_
    obtain rfl : r = y := by simpa using hy
    have hlast := h.last
    rw [Option.mem_def.mp hx] at hlast
    rw [hsrc]
    exact (Option.some.inj hlast).symm
  allowed := by
    intro x hx
    rw [List.tail_append_of_ne_nil h.ne_nil] at hx
    rcases List.mem_append.mp hx with hx | hx
    · exact h.allowed x hx
    · rw [List.mem_singleton.mp hx, hsrc]
      exact hallowed
  last := by simp

/-! ### What is kept -/

/-- A new value that extends the last one extends all before it. -/
theorem pairwise_snoc {ν : Type*} {R : ν → ν → Prop} (htrans : ∀ a b c, R a b → R b c → R a c)
    {kept : List ν} {last : ν} (h : (kept ++ [last]).Pairwise R) {new : ν} (hnew : R last new) :
    (kept ++ [last] ++ [new]).Pairwise R := by
  refine List.pairwise_append.mpr ⟨h, List.pairwise_singleton R new, fun a ha b hb => ?_⟩
  rw [List.mem_singleton.mp hb]
  rcases List.mem_append.mp ha with ha | ha
  · have hlast : R a last := (List.pairwise_append.mp h).2.2 a ha last (List.mem_singleton.mpr rfl)
    exact htrans a last new hlast hnew
  · rw [List.mem_singleton.mp ha]
    exact hnew

end ForgeOS.Library.Journal
