import Mathlib.Data.Fintype.Card
import Mathlib.Data.Fin.Basic
import Mathlib.Data.Finset.Card
import Mathlib.Logic.Function.Basic

/-! The two buffers of the Samsung display. A frame that is submitted stays with the display until
a later one has taken its place on the screen; then the fence that came back with it signals. The
panel waits for the fence of a buffer before it draws into the buffer again. Memory and the rest of
the submitted configuration are left out. -/

namespace ForgeOS.Native.DisplayBuffers

/-- The index of a buffer. -/
abbrev Buffer := Fin 2

/-- `next ^ 1` -/
def other (i : Buffer) : Buffer := 1 - i

/-- Where the panel is: between two frames, drawing one, out of its loop, or done. -/
inductive Place
  | idle
  | drawing
  | stopped
  | closed
  deriving DecidableEq, Repr

/-- A fence has the number of the submission that it came back with. Beside `SamsungDisplay` stand
the submissions that the display has not released, the one on the screen first, how many there were,
and which fences have been handed out and closed. -/
structure State where
  fence : Buffer → Option ℕ
  next : Buffer
  place : Place
  queue : List (ℕ × Buffer)
  submissions : ℕ
  given : List ℕ
  closed : List ℕ

/-- What comes of the request to show a frame. -/
inductive Answer
  | failed
  | unfenced
  | fenced
  deriving DecidableEq, Repr

def signalled (s : State) (n : ℕ) : Bool := s.queue.all fun p => p.1 != n

/-- `samsung_begin`. A fence that has signalled is found at once or, when `poll` fails, not at
all. -/
def begin (found : Bool) (s : State) : State :=
  match s.fence s.next with
  | none => { s with place := .drawing }
  | some n =>
    { s with
      fence := Function.update s.fence s.next none
      closed := s.closed ++ [n]
      place := if found && signalled s n then .drawing else .stopped }

/-- `samsung_submit(.., 1)` -/
def submit (answer : Answer) (s : State) : State :=
  match answer with
  | .failed => { s with place := .stopped }
  | .unfenced =>
    { s with
      queue := s.queue ++ [(s.submissions, s.next)]
      submissions := s.submissions + 1
      place := .stopped }
  | .fenced =>
    { s with
      fence := Function.update s.fence s.next (some s.submissions)
      next := other s.next
      queue := s.queue ++ [(s.submissions, s.next)]
      submissions := s.submissions + 1
      given := s.given ++ [s.submissions]
      place := .idle }

/-- The fences that are open. -/
def opened (fence : Buffer → Option ℕ) : List ℕ := (fence 0).toList ++ (fence 1).toList

/-- `fb_close`: the windows are taken away, if there was a frame, and `samsung_release` closes the
fences that are open. -/
def close (answer : Answer) (s : State) : State :=
  let s :=
    if s.given ≠ [] ∧ answer = .fenced then
      { s with
        submissions := s.submissions + 1
        given := s.given ++ [s.submissions]
        closed := s.closed ++ [s.submissions] }
    else s
  { s with fence := fun _ => none, closed := s.closed ++ opened s.fence, place := .closed }

/-- The display shows the next frame and releases the one before it. -/
def present (s : State) : State :=
  match s.queue with
  | _ :: p :: queue => { s with queue := p :: queue }
  | _ => s

inductive Input
  | begin (found : Bool)
  | submit (answer : Answer)
  | present
  | close (answer : Answer)
  deriving DecidableEq, Repr

/-- `framebuffer_run`, with the display beside it. -/
def step (s : State) : Input → State
  | .begin found => if s.place = .idle then begin found s else s
  | .submit answer => if s.place = .drawing then submit answer s else s
  | .present => present s
  | .close answer => if s.place = .idle ∨ s.place = .stopped then close answer s else s

def run (s : State) (inputs : List Input) : State := inputs.foldl step s

/-- `samsung_init` -/
def initial : State where
  fence := fun _ => none
  next := 0
  place := .idle
  queue := []
  submissions := 0
  given := []
  closed := []

/-! ### Fences -/

variable {s : State}

theorem other_ne (i : Buffer) : other i ≠ i := by
  revert i
  decide

theorem eq_other {i j : Buffer} (h : j ≠ i) : j = other i := by
  revert i j
  decide

theorem opened_update (fence : Buffer → Option ℕ) (i : Buffer) (x : Option ℕ) :
    (opened (Function.update fence i x)).Perm (x.toList ++ (fence (other i)).toList) := by
  rcases Fin.exists_fin_two.mp ⟨i, rfl⟩ with h | h
  · subst h
    exact List.Perm.refl _
  · subst h
    exact List.perm_append_comm

theorem opened_perm (fence : Buffer → Option ℕ) (i : Buffer) :
    (opened fence).Perm ((fence i).toList ++ (fence (other i)).toList) := by
  have h := opened_update fence i (fence i)
  rwa [Function.update_eq_self] at h

/-- Every fence that was handed out is open or closed, and none is both or twice. -/
structure Fenced (s : State) : Prop where
  perm : s.given.Perm (s.closed ++ opened s.fence)
  nodup : s.given.Nodup
  lt : ∀ n ∈ s.given, n < s.submissions
  released : s.place = .closed → ∀ i, s.fence i = none

/-- A fence with the number of a new submission. -/
theorem Fenced.fresh (h : Fenced s) : (s.given ++ [s.submissions]).Nodup ∧
    ∀ n ∈ s.given ++ [s.submissions], n < s.submissions + 1 := by
  constructor
  · apply List.Nodup.append h.nodup (List.nodup_singleton _)
    simp only [List.disjoint_singleton]
    intro hm
    exact Nat.lt_irrefl _ (h.lt _ hm)
  · intro n hn
    rcases List.mem_append.mp hn with hn | hn
    · have := h.lt n hn
      omega
    · have := List.mem_singleton.mp hn
      omega

theorem Fenced.begin (h : Fenced s) (found : Bool) : Fenced (begin found s) := by
  unfold DisplayBuffers.begin
  split
  · exact ⟨h.perm, h.nodup, h.lt, by simp⟩
  · rename_i n hn
    refine ⟨?_, h.nodup, h.lt, by dsimp only; split <;> simp⟩
    have ho : (opened s.fence).Perm (n :: (s.fence (other s.next)).toList) := by
      simpa [hn] using opened_perm s.fence s.next
    have hu := opened_update s.fence s.next none
    apply (h.perm.trans (ho.append_left _)).trans
    rw [List.append_assoc]
    exact (hu.symm.cons n).append_left _

theorem Fenced.submit (h : Fenced s) (hs : s.fence s.next = none) (answer : Answer) :
    Fenced (submit answer s) := by
  cases answer with
  | failed => exact ⟨h.perm, h.nodup, h.lt, by simp [DisplayBuffers.submit]⟩
  | unfenced =>
    refine ⟨h.perm, h.nodup, fun n hn => ?_, by simp [DisplayBuffers.submit]⟩
    have := h.lt n hn
    simp only [DisplayBuffers.submit]
    omega
  | fenced =>
    refine ⟨?_, h.fresh.1, h.fresh.2, by simp [DisplayBuffers.submit]⟩
    have ho : (opened s.fence).Perm (s.fence (other s.next)).toList := by
      simpa [hs] using opened_perm s.fence s.next
    have hu := opened_update s.fence s.next (some s.submissions)
    have hp : (s.given ++ [s.submissions]).Perm
        (s.closed ++ (s.submissions :: (s.fence (other s.next)).toList)) := by
      apply List.perm_append_comm.trans
      apply ((h.perm.trans (ho.append_left _)).cons s.submissions).trans
      exact List.perm_middle.symm
    exact hp.trans (hu.symm.append_left _)

theorem Fenced.close (h : Fenced s) (answer : Answer) : Fenced (close answer s) := by
  unfold DisplayBuffers.close
  split
  · refine ⟨?_, h.fresh.1, h.fresh.2, fun _ _ => rfl⟩
    have hp := h.perm.append_right [s.submissions]
    have hc : (opened s.fence ++ [s.submissions]).Perm ([s.submissions] ++ opened s.fence) :=
      List.perm_append_comm
    rw [List.append_assoc] at hp
    simpa [opened] using hp.trans (hc.append_left s.closed)
  · refine ⟨?_, h.nodup, h.lt, fun _ _ => rfl⟩
    simpa [opened] using h.perm

/-! ### Buffers -/

/-- What holds of the buffers that the display has not released. -/
structure Guarded (s : State) : Prop where
  distinct : (s.queue.map Prod.snd).Nodup
  fenced : s.place = .idle ∨ s.place = .drawing → ∀ p ∈ s.queue, s.fence p.2 = some p.1
  cleared : s.place = .drawing → s.fence s.next = none
  last : s.place = .idle → ∀ p ∈ s.queue.getLast?, p.2 ≠ s.next

theorem Guarded.begin (h : Guarded s) (hp : s.place = .idle) (found : Bool) :
    Guarded (begin found s) := by
  unfold DisplayBuffers.begin
  split
  · rename_i hn
    exact ⟨h.distinct, fun _ => h.fenced (.inl hp), fun _ => hn, by simp⟩
  · rename_i n hn
    refine ⟨h.distinct, ?_, fun _ => by simp, by dsimp only; split <;> simp⟩
    intro hd p hq
    -- the fence has signalled, so the display holds no frame of this buffer
    have hs : signalled s n = true := by
      by_contra hc
      simp [hc] at hd
    have hf := h.fenced (.inl hp) p hq
    have hne : p.2 ≠ s.next := by
      intro he
      rw [he, hn] at hf
      have := List.all_eq_true.mp hs p hq
      simp_all
    simpa [Function.update_of_ne hne] using hf

theorem Guarded.submit (h : Guarded s) (hp : s.place = .drawing) (answer : Answer) :
    Guarded (submit answer s) := by
  have hfree : ∀ p ∈ s.queue, p.2 ≠ s.next := by
    intro p hq he
    have hf := h.fenced (.inr hp) p hq
    rw [he, h.cleared hp] at hf
    cases hf
  have hd : ((s.queue ++ [(s.submissions, s.next)]).map Prod.snd).Nodup := by
    rw [List.map_append]
    apply h.distinct.append (List.nodup_singleton _)
    simp only [List.disjoint_singleton, List.mem_map]
    rintro ⟨p, hq, he⟩
    exact hfree p hq he
  cases answer with
  | failed => exact ⟨h.distinct, by simp [DisplayBuffers.submit], by simp [DisplayBuffers.submit],
      by simp [DisplayBuffers.submit]⟩
  | unfenced => exact ⟨hd, by simp [DisplayBuffers.submit], by simp [DisplayBuffers.submit],
      by simp [DisplayBuffers.submit]⟩
  | fenced =>
    refine ⟨hd, fun _ p hq => ?_, by simp [DisplayBuffers.submit], fun _ p hq => ?_⟩
    · rcases List.mem_append.mp hq with hq | hq
      · simpa [DisplayBuffers.submit, Function.update_of_ne (hfree p hq)]
          using h.fenced (.inr hp) p hq
      · obtain rfl := List.mem_singleton.mp hq
        simp [DisplayBuffers.submit]
    · simp only [DisplayBuffers.submit, List.getLast?_append_of_ne_nil, ne_eq, List.cons_ne_nil,
        not_false_eq_true, List.getLast?_singleton, Option.mem_some_iff] at hq
      subst hq
      exact (other_ne s.next).symm

theorem Guarded.present (h : Guarded s) : Guarded (present s) := by
  unfold DisplayBuffers.present
  split
  · rename_i p q queue hq
    obtain ⟨hd, hf, hc, hl⟩ := h
    rw [hq] at hd hf hl
    refine ⟨(List.nodup_cons.mp hd).2, fun ho r hr => ?_, hc, fun ho => ?_⟩
    · exact hf ho r (List.mem_cons_of_mem _ hr)
    · simpa using hl ho
  · exact h

theorem Guarded.length (h : Guarded s) : s.queue.length ≤ 2 := by
  have := List.Nodup.length_le_card h.distinct
  simpa using this

theorem present_length (h : s.queue.length ≤ 2) : (present s).queue.length ≤ 1 := by
  unfold DisplayBuffers.present
  split
  · rename_i hq
    rw [hq] at h
    simp only [List.length_cons] at h ⊢
    omega
  · rename_i hq
    match hs : s.queue with
    | [] => simp
    | [p] => simp
    | p :: q :: queue => exact absurd hs (hq p q queue)

/-- An open fence is not closed, and is the fence of one buffer. -/
theorem Fenced.open_once (h : Fenced s) {i : Buffer} {n : ℕ} (hi : s.fence i = some n) :
    n ∉ s.closed ∧ s.fence (other i) ≠ some n := by
  have hp := h.perm.trans ((opened_perm s.fence i).append_left _)
  have hn := hp.nodup_iff.mp h.nodup
  rw [hi] at hn
  obtain ⟨-, hn, hd⟩ := List.nodup_append'.mp hn
  constructor
  · intro hc
    exact hd hc (by simp)
  · intro ho
    simp [ho] at hn

/-- Once the display has caught up, the fence of the next buffer has signalled. -/
theorem Fenced.begins (h : Fenced s) (hg : Guarded s) (hp : s.place = .idle)
    (hl : s.queue.length ≤ 1) : (DisplayBuffers.begin true s).place = .drawing := by
  unfold DisplayBuffers.begin
  split
  · rfl
  · rename_i n hn
    have hs : signalled s n = true := by
      apply List.all_eq_true.mpr
      intro p hq
      -- the one frame that is left is the last one submitted
      obtain ⟨q, hs⟩ := List.length_eq_one_iff.mp (by
        have := List.length_pos_of_mem hq
        omega : s.queue.length = 1)
      have hpq : p = q := by simpa [hs] using hq
      have hne := hg.last hp q (by simp [hs])
      have hf := hg.fenced (.inl hp) p hq
      rw [hpq, eq_other hne] at hf
      have ho := (h.open_once hn).2
      rw [hf] at ho
      simpa [hpq] using ho
    simp [hs]

/-- Both, in the states of the panel. -/
theorem step_safe (h : Fenced s ∧ Guarded s) (input : Input) :
    Fenced (step s input) ∧ Guarded (step s input) := by
  obtain ⟨hf, hg⟩ := h
  cases input with
  | begin found =>
    by_cases hp : s.place = .idle
    · simpa [step, hp] using And.intro (hf.begin found) (hg.begin hp found)
    · simpa [step, hp] using And.intro hf hg
  | submit answer =>
    by_cases hp : s.place = .drawing
    · simpa [step, hp] using And.intro (hf.submit (hg.cleared hp) answer) (hg.submit hp answer)
    · simpa [step, hp] using And.intro hf hg
  | present =>
    refine ⟨?_, hg.present⟩
    simp only [step, present]
    split
    · exact ⟨hf.perm, hf.nodup, hf.lt, hf.released⟩
    · exact hf
  | close answer =>
    by_cases hp : s.place = .idle ∨ s.place = .stopped
    · simp only [step, hp, if_true]
      refine ⟨hf.close answer, ?_⟩
      unfold DisplayBuffers.close
      split <;> exact ⟨hg.distinct, by simp, by simp, by simp⟩
    · simpa [step, hp] using And.intro hf hg

theorem run_safe (inputs : List Input) :
    Fenced (run initial inputs) ∧ Guarded (run initial inputs) := by
  have hrun : ∀ s, Fenced s ∧ Guarded s → Fenced (run s inputs) ∧ Guarded (run s inputs) := by
    induction inputs with
    | nil => exact fun _ h => h
    | cons input inputs ih => exact fun s h => ih _ (step_safe h input)
  apply hrun
  refine ⟨⟨List.Perm.refl _, List.nodup_nil, by simp [initial], by simp [initial]⟩, ?_⟩
  exact ⟨List.nodup_nil, by simp [initial], by simp [initial], by simp [initial]⟩

/-- The panel draws only into a buffer that the display has released. It never waits for the frame
that is on the screen while nothing follows it: once the display has caught up, the next frame
begins. -/
theorem draws_released (inputs : List Input) :
    ((run initial inputs).place = .drawing →
      ∀ p ∈ (run initial inputs).queue, p.2 ≠ (run initial inputs).next) ∧
    (run initial inputs).queue.length ≤ 2 ∧
    ((run initial inputs).place = .idle →
      (step (step (run initial inputs) .present) (.begin true)).place = .drawing) := by
  have h := run_safe inputs
  obtain ⟨hf, hg⟩ := step_safe h .present
  refine ⟨fun hp p hq he => ?_, h.2.length, fun hp => ?_⟩
  · have hd := h.2.fenced (.inr hp) p hq
    rw [he, h.2.cleared hp] at hd
    cases hd
  · have hi : (step (run initial inputs) .present).place = .idle := by
      rw [← hp]
      simp only [step, present]
      split <;> rfl
    rw [show step (step (run initial inputs) .present) (.begin true) = _ from if_pos hi]
    exact hf.begins hg hi (present_length h.2.length)

/-- Every fence is closed at most once, an open one is not closed, and all of them are once the
panel has let go. -/
theorem fences_closed (inputs : List Input) :
    (run initial inputs).closed.Nodup ∧
    (∀ n ∈ (run initial inputs).closed, n ∈ (run initial inputs).given) ∧
    (∀ i n, (run initial inputs).fence i = some n → n ∉ (run initial inputs).closed) ∧
    ((run initial inputs).place = .closed →
      (run initial inputs).given.Perm (run initial inputs).closed) := by
  obtain ⟨hf, _⟩ := run_safe inputs
  have hn := hf.perm.nodup_iff.mp hf.nodup
  refine ⟨(List.nodup_append.mp hn).1, fun n hc => ?_, fun i n hi => (hf.open_once hi).1, ?_⟩
  · exact hf.perm.mem_iff.mpr (List.mem_append_left _ hc)
  · intro hp
    have hr := hf.released hp
    simpa [opened, hr] using hf.perm

end ForgeOS.Native.DisplayBuffers
