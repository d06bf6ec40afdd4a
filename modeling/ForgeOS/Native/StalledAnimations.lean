import Mathlib.Algebra.Order.Ring.Rat
import Mathlib.Logic.Function.Basic
import Mathlib.Tactic.Linarith
import Mathlib.Tactic.NormNum

/-! Transitions of the player page that stand still. Each evaluation of the script looks at the
animations of the page and remembers of each that is running but pending what it has seen and since
when; one that has not changed for two seconds is finished, once. Numbers are exact, and one that is
not finite is none. A history of evaluations has the latest first. -/

namespace ForgeOS.Native.StalledAnimations

/-- Effects and their targets have numbers; `duration`, `iterations`, `endTime` and `currentTime`
are what `Number` makes of them. -/
structure Animation where
  effect : Option ℕ
  target : Option ℕ
  pending : Bool
  playState : String
  startTime : Option ℚ
  playbackRate : Option ℚ
  duration : Option ℚ
  iterations : Option ℚ
  endTime : Option ℚ
  currentTime : Option ℚ

/-- The page at an evaluation; `getAnimations` is none where there is no such function. -/
structure Page where
  home : Bool
  element : Option ℕ
  ui : Option String
  getAnimations : Option (List ℕ)
  performance : Bool
  animation : ℕ → Animation
  now : ℚ

/-- The fields of `signature`. -/
structure Signature where
  ui : String
  duration : ℚ
  iterations : ℚ
  endTime : ℚ
  playbackRate : ℚ
  startTime : Option ℚ
  deriving DecidableEq

structure Seen where
  current : ℚ
  effect : ℕ
  signature : Signature
  deriving DecidableEq

structure Entry extends Seen where
  seen : ℚ
  attempted : Bool

abbrev Cache := ℕ → Option Entry

/-- The animations that an evaluation goes through; there are none where it leaves the page. -/
def Page.listed (p : Page) : List ℕ :=
  if p.home ∧ p.element.isSome ∧ (p.ui = some "PLAYER_BAR_ONLY" ∨ p.ui = some "PLAYER_PAGE_OPEN") ∧
      p.performance then
    p.getAnimations.getD []
  else []

def between (x : Option ℚ) : Option ℚ := x.filter fun n => 0 < n ∧ n ≤ 1000

/-- What is seen of an animation that may be finished. -/
def observed (p : Page) (x : ℕ) : Option Seen :=
  let animation := p.animation x
  if animation.effect.isNone ∨ animation.target ≠ p.element ∨ !animation.pending ∨
      animation.playState ≠ "running" ∨ animation.startTime ≠ none then none
  else do
    let effect ← animation.effect
    let playbackRate ← animation.playbackRate.filter (0 < ·)
    let duration ← between animation.duration
    let iterations ← animation.iterations.filter (· = 1)
    let endTime ← between animation.endTime
    let current ← animation.currentTime
    let ui ← p.ui
    return ⟨current, effect, ⟨ui, duration, iterations, endTime, playbackRate, animation.startTime⟩⟩

/-- What is remembered of an animation after its turn, and whether it is finished. -/
def turn (p : Page) (x : ℕ) (prior : Option Entry) : Option Entry × Bool :=
  match observed p x with
  | none => (none, false)
  | some seen =>
    match prior with
    | none => (some ⟨seen, p.now, false⟩, false)
    | some prior =>
      if prior.toSeen ≠ seen then (some ⟨seen, p.now, false⟩, false)
      else if p.now - prior.seen < 2000 ∨ prior.attempted then (some prior, false)
      else (some { prior with attempted := true }, true)

def visit (p : Page) (x : ℕ) (cache : Cache) : Cache × Bool :=
  let r := turn p x (cache x)
  (Function.update cache x r.1, r.2)

/-- The loop goes on until an animation is finished. -/
def sweep (p : Page) : List ℕ → Cache → Cache × Option ℕ
  | [], cache => (cache, none)
  | x :: xs, cache =>
    let r := visit p x cache
    if r.2 then (r.1, some x) else sweep p xs r.1

/-- The animations that the loop comes to. -/
def visited (p : Page) : List ℕ → Cache → List ℕ
  | [], _ => []
  | x :: xs, cache =>
    let r := visit p x cache
    x :: if r.2 then [] else visited p xs r.1

def cache : List Page → Cache
  | [] => fun _ => none
  | p :: h => (sweep p p.listed (cache h)).1

/-- The animation that an evaluation after a history calls `finish` of. -/
def finished (p : Page) (h : List Page) : Option ℕ := (sweep p p.listed (cache h)).2

def looked (p : Page) (h : List Page) : List ℕ := visited p p.listed (cache h)

/-- Since an evaluation and what was before it, the animation has been seen as it is. -/
inductive Stood (x : ℕ) (seen : Seen) : List Page → Page → List Page → Prop
  | now {p : Page} {h : List Page} (hx : x ∈ looked p h) (hseen : observed p x = some seen) :
    Stood x seen (p :: h) p h
  | before {p q : Page} {h k : List Page} (hs : Stood x seen h q k)
    (hsame : x ∈ looked p h → observed p x = some seen) : Stood x seen (p :: h) q k

variable {p : Page} {x : ℕ} {h : List Page}

/-! ### One evaluation -/

/-- An animation that is listed twice is not finished at its second turn. -/
theorem turn_turn {prior : Option Entry} (hfalse : (turn p x prior).2 = false) :
    turn p x (turn p x prior).1 = ((turn p x prior).1, false) := by
  cases hseen : observed p x with
  | none => simp [turn, hseen]
  | some seen =>
    cases prior with
    | none => simp [turn, hseen]
    | some e =>
      by_cases hne : e.toSeen ≠ seen
      · simp [turn, hseen, hne]
      · by_cases hwait : p.now - e.seen < 2000 ∨ e.attempted
        · simp [turn, hseen, hne, hwait]
        · simp [turn, hseen, hne, hwait] at hfalse

theorem visit_other {y : ℕ} (hne : x ≠ y) (c : Cache) : (visit p y c).1 x = c x := by
  simp [visit, hne]

theorem sweep_settled {xs : List ℕ} {c : Cache} (hc : turn p x (c x) = (c x, false)) :
    (sweep p xs c).1 x = c x ∧ (sweep p xs c).2 ≠ some x := by
  induction xs generalizing c with
  | nil => simp [sweep]
  | cons y xs ih =>
    simp only [sweep]
    by_cases hxy : x = y
    · subst hxy
      have hvisit : visit p x c = (c, false) := by simp [visit, hc]
      simpa [hvisit] using ih hc
    · have hkeep := visit_other (p := p) hxy c
      split
      · exact ⟨hkeep, fun e => hxy (Option.some.inj e).symm⟩
      · rw [← hkeep]
        exact ih (by rw [hkeep]; exact hc)

/-- The loop gives each animation that it comes to one turn, and leaves the others alone. -/
theorem sweep_spec (xs : List ℕ) (c : Cache) :
    (x ∈ visited p xs c → (sweep p xs c).1 x = (turn p x (c x)).1 ∧
      ((sweep p xs c).2 = some x ↔ (turn p x (c x)).2 = true)) ∧
    (x ∉ visited p xs c → (sweep p xs c).1 x = c x ∧ (sweep p xs c).2 ≠ some x) := by
  induction xs generalizing c with
  | nil => simp [sweep, visited]
  | cons y xs ih =>
    simp only [sweep, visited]
    by_cases hxy : x = y
    · subst hxy
      refine ⟨fun _ => ?_, fun hn => absurd List.mem_cons_self hn⟩
      cases hturn : (turn p x (c x)).2 with
      | true => simp [visit, hturn]
      | false =>
        have hentry : (visit p x c).1 x = (turn p x (c x)).1 := by simp [visit]
        have hkept : turn p x ((visit p x c).1 x) = ((visit p x c).1 x, false) := by
          rw [hentry]
          exact turn_turn hturn
        have hsettled : (sweep p xs (visit p x c).1).1 x = (visit p x c).1 x ∧
            (sweep p xs (visit p x c).1).2 ≠ some x := sweep_settled hkept
        rw [hentry] at hsettled
        have hgo : (visit p x c).2 = false := hturn
        simp only [hgo, Bool.false_eq_true, if_false, iff_false]
        exact hsettled
    · have hkeep := visit_other (p := p) hxy c
      cases hgo : (visit p y c).2 with
      | true =>
        simp only [if_true, List.mem_cons, hxy, List.not_mem_nil, or_self, false_imp_iff,
          not_false_eq_true, true_imp_iff, true_and]
        exact ⟨hkeep, fun e => hxy (Option.some.inj e).symm⟩
      | false =>
        simp only [Bool.false_eq_true, if_false, List.mem_cons, hxy, false_or]
        rw [← hkeep]
        exact ih _

theorem cache_looked (hx : x ∈ looked p h) : cache (p :: h) x = (turn p x (cache h x)).1 :=
  ((sweep_spec p.listed (cache h)).1 hx).1

theorem cache_missed (hx : x ∉ looked p h) : cache (p :: h) x = cache h x :=
  ((sweep_spec p.listed (cache h)).2 hx).1

theorem finished_iff_turn :
    finished p h = some x ↔ x ∈ looked p h ∧ (turn p x (cache h x)).2 = true := by
  by_cases hx : x ∈ looked p h
  · simp only [hx, true_and]
    exact ((sweep_spec p.listed (cache h)).1 hx).2
  · simp only [hx, false_and, iff_false]
    exact ((sweep_spec p.listed (cache h)).2 hx).2

/-! ### Histories -/

theorem Stood.mem {seen : Seen} {q : Page} {k : List Page} (hs : Stood x seen h q k) : q ∈ h := by
  induction hs with
  | now => exact List.mem_cons_self
  | before _ _ ih => exact List.mem_cons_of_mem _ ih

theorem stood_missed (hx : x ∉ looked p h) {seen : Seen} {q : Page} {k : List Page} :
    Stood x seen (p :: h) q k ↔ Stood x seen h q k := by
  constructor
  · intro hs
    cases hs with
    | now hin => exact absurd hin hx
    | before hs => exact hs
  · exact fun hs => .before hs fun hin => absurd hin hx

theorem stood_looked (hx : x ∈ looked p h) {seen : Seen} {q : Page} {k : List Page} :
    Stood x seen (p :: h) q k ↔
      observed p x = some seen ∧ ((q = p ∧ k = h) ∨ Stood x seen h q k) := by
  constructor
  · intro hs
    cases hs with
    | now _ hseen => exact ⟨hseen, .inl ⟨rfl, rfl⟩⟩
    | before hs hsame => exact ⟨hsame hx, .inr hs⟩
  · rintro ⟨hseen, ⟨rfl, rfl⟩ | hs⟩
    · exact .now hx hseen
    · exact .before hs fun _ => hseen

/-- What is remembered of an animation is how it has stood, since when, and whether it has been
finished meanwhile. -/
def Remembers (x : ℕ) (h : List Page) : Option Entry → Prop
  | none => ∀ seen q k, ¬Stood x seen h q k
  | some e =>
    (∃ q k, Stood x e.toSeen h q k ∧ q.now = e.seen) ∧
      (∀ seen q k, Stood x seen h q k → seen = e.toSeen ∧ e.seen ≤ q.now) ∧
      (e.attempted = true ↔ ∃ q k, Stood x e.toSeen h q k ∧ finished q k = some x)

/-- The latest evaluation is the first that has seen it so. -/
theorem remembers_first (hx : x ∈ looked p h) {seen : Seen} (hseen : observed p x = some seen)
    (hnew : ∀ q k, ¬Stood x seen h q k) (hfinished : finished p h ≠ some x) :
    Remembers x (p :: h) (some ⟨seen, p.now, false⟩) := by
  refine ⟨⟨p, h, .now hx hseen, rfl⟩, ?_, ?_⟩
  · intro seen' q k hs
    obtain ⟨hseen', ⟨rfl, -⟩ | hs⟩ := (stood_looked hx).mp hs
    · rw [hseen, Option.some.injEq] at hseen'
      exact ⟨hseen'.symm, le_refl _⟩
    · rw [hseen, Option.some.injEq] at hseen'
      subst hseen'
      exact absurd hs (hnew q k)
  · refine ⟨fun e => absurd e Bool.false_ne_true, ?_⟩
    rintro ⟨q, k, hs, hq⟩
    obtain ⟨-, ⟨rfl, rfl⟩ | hs⟩ := (stood_looked hx).mp hs
    · exact absurd hq hfinished
    · exact absurd hs (hnew q k)

/-- The latest evaluation has seen it as those before it. -/
theorem remembers_same (hx : x ∈ looked p h) {e : Entry} (hseen : observed p x = some e.toSeen)
    (he : Remembers x h (some e)) (hnow : ∀ q ∈ h, q.now ≤ p.now) {attempted : Bool}
    (hattempted : attempted = true ↔ e.attempted = true ∨ finished p h = some x) :
    Remembers x (p :: h) (some { e with attempted := attempted }) := by
  obtain ⟨⟨q₀, k₀, hs₀, hq₀⟩, hall, htried⟩ := he
  refine ⟨⟨q₀, k₀, .before hs₀ fun _ => hseen, hq₀⟩, ?_, ?_⟩
  · intro seen q k hs
    obtain ⟨hseen', ⟨rfl, -⟩ | hs⟩ := (stood_looked hx).mp hs
    · rw [hseen, Option.some.injEq] at hseen'
      exact ⟨hseen'.symm, hq₀ ▸ hnow q₀ hs₀.mem⟩
    · exact hall seen q k hs
  · rw [hattempted, htried]
    constructor
    · rintro (⟨q, k, hs, hq⟩ | hp)
      · exact ⟨q, k, .before hs fun _ => hseen, hq⟩
      · exact ⟨p, h, .now hx hseen, hp⟩
    · rintro ⟨q, k, hs, hq⟩
      obtain ⟨-, ⟨rfl, rfl⟩ | hs⟩ := (stood_looked hx).mp hs
      · exact .inr hq
      · exact .inl ⟨q, k, hs, hq⟩

/-- The clock of the page does not go back. -/
def Clocked (h : List Page) : Prop := h.Pairwise fun later earlier => earlier.now ≤ later.now

theorem remembers (hclock : Clocked h) (x : ℕ) : Remembers x h (cache h x) := by
  induction h with
  | nil => exact fun seen q k hs => nomatch hs
  | cons p h ih =>
    obtain ⟨hnow, hclock⟩ := List.pairwise_cons.mp hclock
    have ih := ih hclock
    by_cases hx : x ∈ looked p h
    · have hfinished := finished_iff_turn (p := p) (h := h) (x := x)
      simp only [hx, true_and] at hfinished
      rw [cache_looked hx]
      cases hseen : observed p x with
      | none =>
        simp only [turn, hseen]
        intro seen q k hs
        have := ((stood_looked hx).mp hs).1
        rw [hseen] at this
        cases this
      | some seen =>
        cases hprior : cache h x with
        | none =>
          rw [hprior] at ih hfinished
          simp only [turn, hseen, Bool.false_eq_true, iff_false] at hfinished ⊢
          exact remembers_first hx hseen (ih seen) hfinished
        | some e =>
          rw [hprior] at ih hfinished
          by_cases hne : e.toSeen ≠ seen
          · simp only [turn, hseen, hne, if_true, ne_eq, not_false_eq_true, Bool.false_eq_true,
              iff_false] at hfinished ⊢
            exact remembers_first hx hseen
              (fun q k hs => hne (ih.2.1 seen q k hs).1.symm) hfinished
          · rw [ne_eq, not_not] at hne
            subst hne
            by_cases hwait : p.now - e.seen < 2000 ∨ e.attempted
            · simp only [turn, hseen, ne_eq, not_true_eq_false, if_false, hwait, if_true,
                Bool.false_eq_true, iff_false] at hfinished ⊢
              exact remembers_same hx hseen ih hnow (by simp [hfinished])
            · simp only [turn, hseen, ne_eq, not_true_eq_false, if_false, hwait, iff_true]
                at hfinished ⊢
              exact remembers_same hx hseen ih hnow (by simp [hfinished])
    · rw [cache_missed hx]
      cases hprior : cache h x with
      | none =>
        rw [hprior] at ih
        exact fun seen q k hs => ih seen q k ((stood_missed hx).mp hs)
      | some e =>
        rw [hprior] at ih
        simp only [Remembers, stood_missed hx] at ih ⊢
        exact ih

/-- An animation is finished exactly when the loop comes to it, it has been seen as it is for two
seconds, by every evaluation that came to it, and none of them has finished it already. -/
theorem finished_iff (hclock : Clocked (p :: h)) :
    finished p h = some x ↔ x ∈ looked p h ∧ ∃ seen, observed p x = some seen ∧
      (∃ q k, Stood x seen h q k ∧ 2000 ≤ p.now - q.now) ∧
      ∀ q k, Stood x seen h q k → finished q k ≠ some x := by
  have hrem := remembers (List.pairwise_cons.mp hclock).2 x
  rw [finished_iff_turn]
  refine and_congr_right fun hx => ?_
  constructor
  · intro hturn
    cases hseen : observed p x with
    | none => simp [turn, hseen] at hturn
    | some seen =>
      cases hprior : cache h x with
      | none => simp [turn, hseen, hprior] at hturn
      | some e =>
        rw [hprior] at hrem hturn
        by_cases hne : e.toSeen ≠ seen
        · simp [turn, hseen, hne] at hturn
        · rw [ne_eq, not_not] at hne
          subst hne
          by_cases hwait : p.now - e.seen < 2000 ∨ e.attempted
          · simp [turn, hseen, hwait] at hturn
          · rw [not_or, not_lt] at hwait
            obtain ⟨⟨q, k, hs, hq⟩, -, htried⟩ := hrem
            refine ⟨_, rfl, ⟨q, k, hs, hq ▸ hwait.1⟩, ?_⟩
            intro q' k' hs' hfinished
            exact hwait.2 (htried.mpr ⟨q', k', hs', hfinished⟩)
  · rintro ⟨seen, hseen, ⟨q, k, hs, hlong⟩, hnone⟩
    cases hprior : cache h x with
    | none =>
      rw [hprior] at hrem
      exact absurd hs (hrem seen q k)
    | some e =>
      rw [hprior] at hrem
      obtain ⟨-, hall, htried⟩ := hrem
      obtain ⟨rfl, hsince⟩ := hall seen q k hs
      have hwait : ¬(p.now - e.seen < 2000 ∨ e.attempted = true) := by
        rw [not_or, not_lt]
        refine ⟨by linarith, fun ht => ?_⟩
        obtain ⟨q', k', hs', hfinished⟩ := htried.mp ht
        exact hnone q' k' hs' hfinished
      simp [turn, hseen, hwait]

/-- One animation that is seen alike, at these times. -/
def still (now : ℚ) : Page where
  home := true
  element := some 0
  ui := some "PLAYER_PAGE_OPEN"
  getAnimations := some [7]
  performance := true
  animation _ := ⟨some 1, some 0, true, "running", none, some 1, some 300, some 1, some 300, some 0⟩
  now := now

theorem observed_still (n : ℚ) : observed (still n) 7 =
    some ⟨0, 1, "PLAYER_PAGE_OPEN", 300, 1, 300, 1, none⟩ := by
  have hshort : between (some 300) = some 300 := by
    simp only [between, Option.filter_some]
    norm_num
  simp [observed, still, hshort, Option.filter_some]

theorem listed_still (n : ℚ) : (still n).listed = [7] := by simp [Page.listed, still]

theorem still_finished : finished (still 2500) [still 0] = some 7 := by
  have hclock : Clocked [still 2500, still 0] := by simp [Clocked, still]
  have hlooked (n : ℚ) (h : List Page) : 7 ∈ looked (still n) h := by
    simp [looked, listed_still, visited]
  have hfirst : finished (still 0) [] ≠ some 7 := by
    simp [finished, listed_still, sweep, visit, turn, observed_still, cache]
  refine (finished_iff hclock).mpr ⟨hlooked _ _, _, observed_still _, ⟨still 0, [], ?_, ?_⟩, ?_⟩
  · exact .now (hlooked _ _) (observed_still _)
  · simp only [still]
    norm_num
  · intro q k hs
    cases hs with
    | now => exact hfirst
    | before hs => exact nomatch hs

end ForgeOS.Native.StalledAnimations
