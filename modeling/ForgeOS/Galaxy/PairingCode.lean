import Mathlib.Algebra.Order.Ring.Int
import ForgeOS.Galaxy.Requests
import ForgeOS.Library.SlidingWindow

/-! `Auth.login`, by which a tablet is paired with a code. Wrong and right codes count alike against
a limit on the attempts of the last five minutes. -/

namespace ForgeOS.Galaxy.Auth

open ForgeOS.Library.SlidingWindow

/-- `attempts`, and the rows of the table `sessions`: the hash of a token and when it expires. -/
structure State where
  attempts : List ℤ
  sessions : List (String × ℤ)
  deriving DecidableEq, Repr

/-- A call of `login`: the clock when it begins and when the session is issued, the code, what is in
the pairing file unless it cannot be read, and the random token of the session. -/
structure Attempt where
  now : ℤ
  issued : ℤ
  code : String
  file : Option String
  token : String
  deriving DecidableEq, Repr

/-- `5 * 60_000` -/
def fiveMinutes : ℤ := 5 * 60000

/-- How many attempts may be kept. -/
def maxAttempts : ℕ := 10

inductive Outcome
  | tooMany
  /-- `readFileSync` has thrown -/
  | unreadable
  | mismatch
  | paired
  deriving DecidableEq, Repr

/-- Whether the code has been compared with the one in the file. -/
def Outcome.compared : Outcome → Bool
  | .mismatch | .paired => true
  | _ => false

variable (hash : String → String)

/-- `issueSession` -/
def issueSession (s : State) (now : ℤ) (token : String) : State :=
  { s with
    sessions := s.sessions.filter (fun row => ¬row.2 ≤ now) ++
      [(hash token, now + 7 * 24 * 60 * 60000)] }

/-- `login` -/
def login (s : State) (a : Attempt) : State × Outcome :=
  let s := { s with attempts := s.attempts.filter (· > a.now - fiveMinutes) }
  if s.attempts.length ≥ maxAttempts then (s, .tooMany)
  else
    let s := { s with attempts := s.attempts ++ [a.now] }
    match a.file with
    | none => (s, .unreadable)
    | some file =>
      if hash (trim a.code) ≠ hash (trim file) then (s, .mismatch)
      else (issueSession hash s a.issued a.token, .paired)

/-- The attempts of a server from its start on, with the times at which a code has been compared. -/
structure Log where
  state : State
  compared : List ℤ

def Log.login (l : Log) (a : Attempt) : Log :=
  let (s, outcome) := Auth.login hash l.state a
  ⟨s, if outcome.compared then l.compared ++ [a.now] else l.compared⟩

def start : Log := ⟨⟨[], []⟩, []⟩

def run (attempts : List Attempt) : Log := attempts.foldl (Log.login hash) start

/-! ### The limit -/

variable {hash} {l : Log} {limiter : Limiter ℤ} {a : Attempt}

/-- A log beside a limiter: both keep the same times, and only what has been admitted is
compared. -/
structure Log.Follows (l : Log) (limiter : Limiter ℤ) : Prop where
  kept : l.state.attempts = limiter.kept
  admitted : l.compared.Sublist limiter.admitted

theorem login_attempts (s : State) (a : Attempt) :
    (login hash s a).1.attempts =
        if (recent fiveMinutes a.now s.attempts).length ≥ maxAttempts then
          recent fiveMinutes a.now s.attempts
        else recent fiveMinutes a.now s.attempts ++ [a.now] := by
  have hrecent :
      s.attempts.filter (· > a.now - fiveMinutes) = recent fiveMinutes a.now s.attempts := rfl
  simp only [login, hrecent]
  by_cases hfull : (recent fiveMinutes a.now s.attempts).length ≥ maxAttempts
  · rw [if_pos hfull, if_pos hfull]
  · rw [if_neg hfull, if_neg hfull]
    cases a.file with
    | none => rfl
    | some file =>
      dsimp only
      split_ifs <;> rfl

theorem compared_of_login {s : State} (h : (login hash s a).2.compared = true) :
    ¬(recent fiveMinutes a.now s.attempts).length ≥ maxAttempts := by
  intro hfull
  have hlogin : (login hash s a).2 = .tooMany := by
    rw [login]
    exact congrArg Prod.snd (if_pos hfull)
  rw [hlogin] at h
  cases h

theorem Log.Follows.login (h : l.Follows limiter) (a : Attempt) :
    (l.login hash a).Follows (limiter.attempt maxAttempts fiveMinutes a.now) := by
  have hattempts : (l.login hash a).state.attempts = _ := login_attempts l.state a
  constructor
  · rw [hattempts, h.kept, Limiter.attempt]
    split_ifs <;> rfl
  · change List.Sublist (if (Auth.login hash l.state a).2.compared then l.compared ++ [a.now]
      else l.compared) _
    by_cases hcompared : (Auth.login hash l.state a).2.compared = true
    · have hroom := compared_of_login hcompared
      rw [h.kept] at hroom
      rw [if_pos hcompared, Limiter.attempt, if_neg hroom]
      exact h.admitted.append_right [a.now]
    · rw [if_neg hcompared, Limiter.attempt]
      split_ifs
      · exact h.admitted
      · exact h.admitted.trans (List.sublist_append_left _ _)

theorem Log.Follows.run (h : l.Follows limiter) (attempts : List Attempt) :
    (attempts.foldl (Log.login hash) l).Follows
      ((attempts.map Attempt.now).foldl (Limiter.attempt maxAttempts fiveMinutes) limiter) := by
  induction attempts generalizing l limiter with
  | nil => exact h
  | cons a attempts ih => exact ih (h.login a)

/-- In no window of five minutes are more than ten codes compared. -/
theorem compared_in_window (hash : String → String) (attempts : List Attempt)
    (htimes : (attempts.map Attempt.now).Pairwise (· ≤ ·)) (t : ℤ) :
    (inWindow fiveMinutes t (run hash attempts).compared).length ≤ maxAttempts := by
  have hfollows : (run hash attempts).Follows
      ((attempts.map Attempt.now).foldl (Limiter.attempt maxAttempts fiveMinutes) ⟨[], []⟩) :=
    Log.Follows.run ⟨rfl, List.Sublist.refl _⟩ attempts
  have hsub := hfollows.admitted.filter fun u => decide (t - fiveMinutes < u ∧ u ≤ t)
  refine hsub.length_le.trans ?_
  cases attempts with
  | nil => exact Nat.zero_le _
  | cons a attempts =>
    have hbefore : (a.now :: (a :: attempts).map Attempt.now).Pairwise (· ≤ ·) := by
      refine List.pairwise_cons.mpr ⟨fun u hu => ?_, htimes⟩
      rcases List.mem_cons.mp hu with rfl | hu
      · exact le_refl _
      · exact (List.pairwise_cons.mp htimes).1 u hu
    exact (Limiter.fits_empty maxAttempts fiveMinutes a.now).attempts (by decide) hbefore t

/-- Twelve wrong codes in twelve seconds. -/
def guesses : List Attempt :=
  (List.range 12).map fun k => ⟨1000 * k, 1000 * k, "guess", some "code", "token"⟩

theorem guesses_limited : (inWindow fiveMinutes 11000 (run id guesses).compared).length ≤ 10 :=
  compared_in_window id guesses (by decide) 11000

example : (run id guesses).compared.length = 10 := by decide

end ForgeOS.Galaxy.Auth
