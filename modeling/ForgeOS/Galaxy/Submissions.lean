import Mathlib.Data.List.Count
import ForgeOS.Galaxy.AgentHost

/-! What a host does with submissions and workers over a run: a submission is put to a worker at most
once, and every worker but the active one is finished. -/

namespace ForgeOS.Galaxy.AgentHost

open ForgeOS.Library.Interleaving

/-! ### Workers -/

/-- The stretch leaves `this.active` and the workers as they are but for open questions. -/
structure SameWorkers (s s' : Shared) : Prop where
  active : s'.active = s.active
  origin : ∀ w, s'.origin w = s.origin w
  next : s'.nextWorker = s.nextWorker

theorem SameWorkers.refl (s : Shared) : SameWorkers s s := ⟨rfl, fun _ => rfl, rfl⟩

theorem SameWorkers.trans {s t u : Shared} (h : SameWorkers s t) (h' : SameWorkers t u) :
    SameWorkers s u :=
  ⟨h'.active.trans h.active, fun w => (h'.origin w).trans (h.origin w), h'.next.trans h.next⟩

theorem origin_setWorker (s : Shared) (w v : ℕ) (f : Worker → Worker) :
    (s.setWorker w f).origin v =
      if v = w then (s.workers w).map fun worker => ((f worker).conversationId, (f worker).finished)
      else s.origin v := by
  by_cases h : v = w
  · subst h
    simp [Shared.origin, Shared.setWorker, Option.map_map, Function.comp_def]
  · simp [Shared.origin, Shared.setWorker, h]

theorem sameWorkers_approvals (s : Shared) (w : ℕ) (f : Worker → List String) :
    SameWorkers s (s.setWorker w fun worker => { worker with approvals := f worker }) where
  active := rfl
  origin v := by
    rw [origin_setWorker]
    split
    · next h => rw [h, Shared.origin]
    · rfl
  next := rfl

theorem sameWorkers_update (s : Shared) (id : String) (f : Conversation → Conversation) :
    SameWorkers s (s.update id f) := ⟨rfl, fun _ => rfl, rfl⟩

theorem sameWorkers_setSubmission (s : Shared) (id : String) (state : SubmissionState) :
    SameWorkers s (s.setSubmission id state) := ⟨rfl, fun _ => rfl, rfl⟩

theorem sameWorkers_reply (s : Shared) (id : String) (answer : Except String Answer) :
    SameWorkers s (s.reply id answer) := ⟨rfl, fun _ => rfl, rfl⟩

theorem sameWorkers_send (s : Shared) (m : Sent) : SameWorkers s (s.send m) :=
  ⟨rfl, fun _ => rfl, rfl⟩

/-- The worker that a waiting `finish` belongs to. -/
def Task.closes : Task → Option ℕ
  | .closing w => some w
  | _ => none

/-- What a stretch does to the workers, with the handlers that wait after it. -/
inductive Staffing (s s' : Shared) : List Task → Prop
  | same (ts : List Task) (h : SameWorkers s s') (hts : ∀ t ∈ ts, t.closes = none) :
      Staffing s s' ts
  | finished (w : ℕ) (id : String) (hactive : s.active = some w)
      (hopen : s.origin w = some (id, false)) (hsame : s'.active = s.active)
      (horigin : s'.origin = Function.update s.origin w (some (id, true)))
      (hnext : s'.nextWorker = s.nextWorker) : Staffing s s' [.closing w]
  | launched (t : Task) (id : String) (hfree : s.current = none)
      (hactive : s'.active = some s.nextWorker)
      (horigin : s'.origin = Function.update s.origin s.nextWorker (some (id, false)))
      (hnext : s'.nextWorker = s.nextWorker + 1) (ht : t.closes = none) : Staffing s s' [t]

theorem Staffing.of_same {s s' t : Shared} {ts : List Task} (h : SameWorkers s s')
    (hcurrent : s'.current = none → s.current = none) (hstaff : Staffing s' t ts) :
    Staffing s t ts := by
  have horigin : s'.origin = s.origin := funext h.origin
  cases hstaff with
  | same _ hsame hts => exact .same _ (h.trans hsame) hts
  | finished w id hactive hopen hsame horigin' hnext =>
    exact .finished w id (h.active ▸ hactive) (horigin ▸ hopen) (hsame.trans h.active)
      (horigin ▸ horigin') (hnext.trans h.next)
  | launched t' id hfree hactive horigin' hnext ht =>
    exact .launched t' id (hcurrent hfree) (h.next ▸ hactive) (h.next ▸ horigin ▸ horigin')
      (h.next ▸ hnext) ht

theorem current_eq_some {s : Shared} {w : ℕ} {worker : Worker}
    (h : s.current = some (w, worker)) : s.active = some w ∧ s.workers w = some worker := by
  rw [Shared.current] at h
  obtain ⟨v, hv, hworker⟩ := Option.bind_eq_some_iff.mp h
  obtain ⟨worker', hworker', heq⟩ := Option.map_eq_some_iff.mp hworker
  rw [Prod.mk.injEq] at heq
  exact ⟨heq.1 ▸ hv, heq.1 ▸ heq.2 ▸ hworker'⟩

theorem origin_of_current {s : Shared} {w : ℕ} {worker : Worker}
    (h : s.current = some (w, worker)) :
    s.origin w = some (worker.conversationId, worker.finished) := by
  rw [Shared.origin, (current_eq_some h).2, Option.map_some]

/-- `finish` does nothing, or it finishes the active worker, which is for the conversation. -/
theorem finish_cases (id status : String) (s : Shared) :
    (finish id status s = (s, []) ∧ s.serves id = false) ∨
      ∃ w worker, s.current = some (w, worker) ∧ worker.conversationId = id ∧
        worker.finished = false ∧
        finish id status s =
          ((s.setWorker w ({ · with finished := true })).update id
            ({ · with status := status, turnId := none }), [.closing w]) := by
  rw [finish, Shared.serves]
  cases hcurrent : s.current with
  | none => exact .inl ⟨rfl, rfl⟩
  | some pair =>
    obtain ⟨w, worker⟩ := pair
    dsimp only
    split
    · next h =>
      refine .inl ⟨rfl, ?_⟩
      by_cases hid : worker.conversationId = id
      · simpa [hid] using h
      · simp [hid]
    · next h =>
      rw [Bool.not_eq_true, Bool.or_eq_false_iff, decide_eq_false_iff_not, not_not] at h
      exact .inr ⟨w, worker, rfl, h.1, h.2, rfl⟩

theorem staffing_finish (id status : String) (s : Shared) :
    Staffing s (finish id status s).1 (finish id status s).2 := by
  rcases finish_cases id status s with ⟨h, -⟩ | ⟨w, worker, hcurrent, hid, hopen, h⟩
  · rw [h]
    exact .same _ (.refl s) fun _ ht => absurd ht List.not_mem_nil
  · rw [h]
    have horigin := origin_of_current hcurrent
    rw [hid, hopen] at horigin
    refine .finished w id (current_eq_some hcurrent).1 horigin rfl (funext fun v => ?_) rfl
    show (s.setWorker w _).origin v = _
    rw [origin_setWorker]
    by_cases hv : v = w
    · subst hv
      rw [if_pos rfl, (current_eq_some hcurrent).2, Option.map_some, Function.update_self, hid]
    · rw [if_neg hv, Function.update_of_ne hv]

/-- A stretch that leaves the workers alone and lets nothing wait. -/
theorem staffing_quiet {s s' : Shared} (h : SameWorkers s s') : Staffing s s' [] :=
  .same _ h fun _ ht => absurd ht List.not_mem_nil

theorem current_of_same {s s' : Shared} (h : SameWorkers s s') (hnone : s'.current = none) :
    s.current = none := by
  have hactive := h.active
  rw [Shared.current] at hnone ⊢
  rw [hactive] at hnone
  cases ha : s.active with
  | none => rfl
  | some w =>
    have horigin := h.origin w
    rw [ha, Option.bind_some, Option.map_eq_none_iff] at hnone
    rw [Shared.origin, Shared.origin, hnone, Option.map_none] at horigin
    rw [Option.bind_some, Option.map_eq_none_iff]
    exact Option.map_eq_none_iff.mp horigin.symm

theorem staffing_stop (id : String) (s : Shared) :
    Staffing s (stop id s).1 (stop id s).2 := by
  rw [stop]
  split
  · next w worker hcurrent =>
    split
    · exact staffing_quiet (.refl s)
    · have htold : SameWorkers s (if absent ((s.store.conversations id).bind (·.turnId)) ||
          absent ((s.store.conversations id).bind (·.threadId)) then
            s.update id ({ · with status := "stopping" })
          else (s.update id ({ · with status := "stopping" })).send (.interrupt w)) := by
        split
        · exact sameWorkers_update s id _
        · exact (sameWorkers_update s id _).trans (sameWorkers_send _ _)
      exact (staffing_finish id "interrupted" _).of_same htold (current_of_same htold)
  · exact staffing_quiet (.refl s)

theorem staffing_handle (id : String) (m : Message) (s : Shared) :
    Staffing s (handle id m s).1 (handle id m s).2 := by
  rw [handle]
  split
  · next w worker hcurrent =>
    split
    · exact staffing_quiet (.refl s)
    · cases m with
      | question requestId =>
        exact staffing_quiet ((sameWorkers_approvals s w _).trans (sameWorkers_update _ _ _))
      | otherRequest => exact staffing_quiet (.refl s)
      | otherNotice threadId => exact staffing_quiet (.refl s)
      | turnStarted threadId turnId =>
        dsimp only
        split
        · exact staffing_quiet (.refl s)
        · exact staffing_quiet (sameWorkers_update _ _ _)
      | resolved threadId requestId =>
        dsimp only
        split
        · exact staffing_quiet (.refl s)
        · have hsettled := sameWorkers_approvals s w fun _ => worker.approvals.erase requestId
          split
          · exact staffing_quiet (hsettled.trans (sameWorkers_update _ _ _))
          · exact staffing_quiet hsettled
      | turnCompleted threadId status =>
        dsimp only
        split
        · exact staffing_quiet (.refl s)
        · exact staffing_finish id _ s
  · exact staffing_quiet (.refl s)

theorem staffing_answer (id requestId : String) (complete : Bool) (s : Shared) :
    Staffing s (answer id requestId complete s).1 (answer id requestId complete s).2 := by
  rw [answer]
  split
  · next w worker hcurrent =>
    split
    · exact staffing_quiet (.refl s)
    · exact staffing_quiet (((sameWorkers_send s _).trans (sameWorkers_approvals _ w _)).trans
        (sameWorkers_update _ _ _))
  · exact staffing_quiet (.refl s)

theorem staffing_submitNew (id submissionId text request : String) (c : Conversation)
    (style : ReplyStyle) (s : Shared) :
    Staffing s (submitNew id submissionId text request c style s).1
      (submitNew id submissionId text request c style s).2 := by
  rw [submitNew]
  split
  · next w worker hcurrent =>
    split
    · exact staffing_quiet (sameWorkers_reply _ _ _)
    · exact .same _ ⟨rfl, fun _ => rfl, rfl⟩ (by simp [steer, Task.closes])
  · next hfree =>
    refine .launched _ id hfree rfl (funext fun v => ?_) rfl rfl
    by_cases hv : v = s.nextWorker
    · subst hv
      simp [launch, Shared.origin, Shared.send, Shared.reply, insertSubmission]
    · simp [launch, Shared.origin, Shared.send, Shared.reply, insertSubmission, hv]

/-- What `submit` does: it answers at once, or the submission is new. -/
theorem submit_cases (id submissionId text : String) (styleValue : Js) (s : Shared) :
    (∃ answer, submit id submissionId text styleValue s = (s.reply submissionId answer, [])) ∨
      (s.submissions submissionId = none ∧ ∃ request c style,
        submit id submissionId text styleValue s =
          submitNew id submissionId text request c style s) := by
  rw [submit]
  split
  · exact .inl ⟨_, rfl⟩
  · exact .inl ⟨_, rfl⟩
  · split
    · exact .inl ⟨_, rfl⟩
    · split
      · split
        · exact .inl ⟨_, rfl⟩
        · exact .inl ⟨_, rfl⟩
      · next hnew => exact .inr ⟨hnew, _, _, _, rfl⟩

theorem staffing_enter (r : Request) (s : Shared) : Staffing s (enter r s).1 (enter r s).2 := by
  cases r with
  | submit id submissionId text style =>
    rw [enter]
    rcases submit_cases id submissionId text style s with ⟨answer, h⟩ | ⟨-, request, c, st, h⟩
    · rw [h]
      exact staffing_quiet (sameWorkers_reply _ _ _)
    · rw [h]
      exact staffing_submitNew id submissionId text request c st s
  | answer id requestId complete => exact staffing_answer id requestId complete s
  | stop id => exact staffing_stop id s
  | move id projectId => exact staffing_quiet (sameWorkers_update _ _ _)
  | message w m =>
    rw [enter]
    split
    · exact staffing_handle _ m s
    · exact staffing_quiet (.refl s)
  | failure w m =>
    rw [enter]
    split
    · exact staffing_finish _ _ s
    · exact staffing_quiet (.refl s)
  | protocolError w m =>
    rw [enter]
    split
    · exact staffing_finish _ _ s
    · exact staffing_quiet (.refl s)
  | closed w =>
    rw [enter]
    split
    · exact staffing_finish _ _ s
    · exact staffing_quiet (.refl s)
  | timeout w =>
    rw [enter]
    split
    · exact staffing_stop _ s
    · exact staffing_quiet (.refl s)

/-- A handler other than a waiting `finish`. -/
theorem staffing_resume (t : Task) (x : Input) (s : Shared) (ht : t.closes = none) :
    Staffing s (resume t x s).1 (resume t x s).2 := by
  have hstay : Staffing s s [t] := .same _ (.refl s) (by simpa using ht)
  have hwait : ∀ (s' : Shared) (t' : Task), SameWorkers s s' → t'.closes = none →
      Staffing s s' [t'] := fun s' t' h ht' => .same _ h (by simpa using ht')
  cases t with
  | closing w => cases ht
  | initializing st =>
    cases x with
    | turn => exact hstay
    | answered result =>
      cases result with
      | ok _ => exact hwait _ _ (sameWorkers_send _ _) rfl
      | error m => exact hwait _ _ (.refl s) rfl
  | threading st =>
    cases x with
    | turn => exact hstay
    | answered result =>
      cases result with
      | error m => exact hwait _ _ (.refl s) rfl
      | ok threadId =>
        rw [resume]
        split
        · exact hwait _ _ ((sameWorkers_update _ _ _).trans (sameWorkers_send _ _)) rfl
        · exact staffing_quiet (.refl s)
  | turning st =>
    cases x with
    | turn => exact hstay
    | answered result =>
      cases result with
      | error m => exact hwait _ _ (.refl s) rfl
      | ok turnId =>
        rw [resume]
        split
        · exact staffing_quiet ((sameWorkers_setSubmission _ _ _).trans (sameWorkers_update _ _ _))
        · exact staffing_quiet (sameWorkers_setSubmission _ _ _)
  | failing st m =>
    cases x with
    | answered result => exact hstay
    | turn =>
      have hmark := sameWorkers_setSubmission s st.submissionId .uncertain
      exact (staffing_finish st.conversationId "failed" _).of_same hmark (current_of_same hmark)
  | steering w submissionId =>
    cases x with
    | turn => exact hstay
    | answered result =>
      cases result with
      | ok _ =>
        exact staffing_quiet ((sameWorkers_setSubmission _ _ _).trans (sameWorkers_reply _ _ _))
      | error m =>
        exact staffing_quiet ((sameWorkers_setSubmission _ _ _).trans (sameWorkers_reply _ _ _))

/-- Every worker but the active one is finished, and so is one that is being closed. -/
structure Staffed (s : Shared) (ts : List Task) : Prop where
  known : ∀ w, s.active = some w → (s.origin w).isSome
  single : ∀ w id, s.origin w = some (id, false) → s.active = some w
  bounded : ∀ w, (s.origin w).isSome → w < s.nextWorker
  closing : ∀ t ∈ ts, ∀ w, t.closes = some w → ∃ id, s.origin w = some (id, true)

theorem Staffed.none_of_current {s : Shared} {ts : List Task} (h : Staffed s ts)
    (hnone : s.current = none) : s.active = none := by
  cases hactive : s.active with
  | none => rfl
  | some w =>
    have hknown := h.known w hactive
    rw [Shared.current, hactive, Option.bind_some, Option.map_eq_none_iff] at hnone
    rw [Shared.origin, hnone] at hknown
    cases hknown

theorem Staffed.staffing {s s' : Shared} {ts new : List Task} (h : Staffed s ts)
    (hstaff : Staffing s s' new) : Staffed s' (new ++ ts) := by
  cases hstaff with
  | same _ hsame hnew =>
    refine ⟨fun w hw => ?_, fun w id hw => ?_, fun w hw => ?_, fun t ht w hw => ?_⟩
    · rw [hsame.origin]
      exact h.known w (hsame.active ▸ hw)
    · rw [hsame.active]
      exact h.single w id (by rw [← hsame.origin, hw])
    · rw [hsame.next]
      exact h.bounded w (by rw [← hsame.origin]; exact hw)
    · rw [hsame.origin]
      rcases List.mem_append.mp ht with ht | ht
      · rw [hnew t ht] at hw
        cases hw
      · exact h.closing t ht w hw
  | finished v id hactive hopen hsame horigin hnext =>
    have hclosed : ∃ id, s'.origin v = some (id, true) := ⟨id, by rw [horigin, Function.update_self]⟩
    refine ⟨fun w hw => ?_, fun w id' hw => ?_, fun w hw => ?_, fun t ht w hw => ?_⟩
    · rw [hsame, hactive, Option.some.injEq] at hw
      obtain ⟨id', hv⟩ := hclosed
      rw [← hw, hv]
      rfl
    · by_cases hv : w = v
      · rw [horigin, hv, Function.update_self, Option.some.injEq, Prod.mk.injEq] at hw
        exact absurd hw.2 (by decide)
      · rw [horigin, Function.update_of_ne hv] at hw
        rw [hsame]
        exact h.single w id' hw
    · rw [hnext]
      by_cases hv : w = v
      · exact hv ▸ h.bounded v (by rw [hopen]; rfl)
      · rw [horigin, Function.update_of_ne hv] at hw
        exact h.bounded w hw
    · rcases List.mem_append.mp ht with ht | ht
      · rw [List.mem_singleton.mp ht, Task.closes, Option.some.injEq] at hw
        exact hw ▸ hclosed
      · by_cases hv : w = v
        · exact hv ▸ hclosed
        · rw [horigin, Function.update_of_ne hv]
          exact h.closing t ht w hw
  | launched t id hfree hactive horigin hnext ht =>
    have hnone := h.none_of_current hfree
    have hne : ∀ w, (s.origin w).isSome → w ≠ s.nextWorker := fun w hw =>
      Nat.ne_of_lt (h.bounded w hw)
    refine ⟨fun w hw => ?_, fun w id' hw => ?_, fun w hw => ?_, fun t' ht' w hw => ?_⟩
    · rw [hactive, Option.some.injEq] at hw
      rw [horigin, ← hw, Function.update_self]
      rfl
    · by_cases hv : w = s.nextWorker
      · rw [hactive, hv]
      · rw [horigin, Function.update_of_ne hv] at hw
        have hold := h.single w id' hw
        rw [hnone] at hold
        cases hold
    · rw [hnext]
      by_cases hv : w = s.nextWorker
      · exact hv ▸ Nat.lt_succ_self _
      · rw [horigin, Function.update_of_ne hv] at hw
        exact Nat.lt_succ_of_lt (h.bounded w hw)
    · rcases List.mem_append.mp ht' with ht' | ht'
      · rw [List.mem_singleton.mp ht', ht] at hw
        cases hw
      · obtain ⟨id', hid'⟩ := h.closing t' ht' w hw
        rw [horigin, Function.update_of_ne (hne w (by rw [hid']; rfl))]
        exact ⟨id', hid'⟩

/-- The end of a worker that is finished. -/
theorem Staffed.close {s : Shared} {ts : List Task} {w : ℕ} (h : Staffed s (.closing w :: ts)) :
    Staffed { s with active := if s.active = some w then none else s.active } ts := by
  obtain ⟨id, hw⟩ := h.closing _ List.mem_cons_self w rfl
  refine ⟨fun v hv => ?_, fun v id' hv => ?_, h.bounded, fun t ht => h.closing t
    (List.mem_cons_of_mem _ ht)⟩
  · dsimp only at hv
    split at hv
    · cases hv
    · exact h.known v hv
  · have hold := h.single v id' hv
    have hne : v ≠ w := by
      rintro rfl
      rw [show s.origin v = some (id', false) from hv, Option.some.injEq, Prod.mk.injEq] at hw
      exact absurd hw.2 (by decide)
    show (if s.active = some w then none else s.active) = some v
    rw [hold, if_neg (by simpa using hne)]

theorem staffed_invariant : Invariant server always Staffed where
  perm s ts us hperm h :=
    ⟨h.known, h.single, h.bounded, fun t ht => h.closing t (hperm.mem_iff.mpr ht)⟩
  enter r s ts h _ := h.staffing (staffing_enter r s)
  resume t x s ts h _ := by
    have htail : Staffed s ts :=
      ⟨h.known, h.single, h.bounded, fun t' ht' => h.closing t' (List.mem_cons_of_mem t ht')⟩
    cases t with
    | closing w =>
      cases x with
      | turn => exact h.close
      | answered result => exact h
    | initializing st => exact htail.staffing (staffing_resume _ x s rfl)
    | threading st => exact htail.staffing (staffing_resume _ x s rfl)
    | turning st => exact htail.staffing (staffing_resume _ x s rfl)
    | failing st m => exact htail.staffing (staffing_resume _ x s rfl)
    | steering w submissionId => exact htail.staffing (staffing_resume _ x s rfl)
  restart s ts h := by
    rw [Server.filter_survives fun _ => rfl]
    exact ⟨fun _ hw => (nomatch hw), fun _ _ hw => (nomatch hw), fun _ hw => (nomatch hw),
      fun _ ht => absurd ht List.not_mem_nil⟩

/-! ### Submissions -/

/-- The message puts the submission to a worker. -/
def Sent.carries (submissionId : String) : Sent → Bool
  | .turnStart _ id _ | .turnSteer _ id _ => id = submissionId
  | _ => false

/-- The handler will put the submission to its worker, if it gets so far. -/
def Task.willStart (submissionId : String) : Task → Bool
  | .initializing st | .threading st => st.submissionId = submissionId
  | _ => false

/-- The content of a row stays what it was when the row was written. -/
def KeepsRows (s s' : Shared) : Prop :=
  ∀ id r, s.submissions id = some r →
    ∃ r', s'.submissions id = some r' ∧ r'.conversationId = r.conversationId ∧ r'.text = r.text

theorem KeepsRows.refl (s : Shared) : KeepsRows s s := fun _ r h => ⟨r, h, rfl, rfl⟩

theorem KeepsRows.trans {s t u : Shared} (h : KeepsRows s t) (h' : KeepsRows t u) :
    KeepsRows s u := by
  intro id r hr
  obtain ⟨r₁, hr₁, hid₁, htext₁⟩ := h id r hr
  obtain ⟨r₂, hr₂, hid₂, htext₂⟩ := h' id r₁ hr₁
  exact ⟨r₂, hr₂, hid₂.trans hid₁, htext₂.trans htext₁⟩

theorem KeepsRows.isSome {s s' : Shared} (h : KeepsRows s s') {id : String}
    (hsome : (s.submissions id).isSome) : (s'.submissions id).isSome := by
  obtain ⟨r, hr⟩ := Option.isSome_iff_exists.mp hsome
  obtain ⟨r', hr', -⟩ := h id r hr
  rw [hr']
  rfl

/-- The stretch takes no submission and puts none to a worker. -/
structure Idle (s s' : Shared) : Prop where
  rows : KeepsRows s s'
  fresh : ∀ id, s.submissions id = none → s'.submissions id = none
  sent : ∀ id, s'.sent.countP (Sent.carries id) = s.sent.countP (Sent.carries id)

theorem Idle.refl (s : Shared) : Idle s s := ⟨.refl s, fun _ h => h, fun _ => rfl⟩

theorem Idle.trans {s t u : Shared} (h : Idle s t) (h' : Idle t u) : Idle s u :=
  ⟨h.rows.trans h'.rows, fun id hid => h'.fresh id (h.fresh id hid),
    fun id => (h'.sent id).trans (h.sent id)⟩

theorem idle_setWorker (s : Shared) (w : ℕ) (f : Worker → Worker) : Idle s (s.setWorker w f) :=
  ⟨.refl s, fun _ h => h, fun _ => rfl⟩

theorem idle_update (s : Shared) (id : String) (f : Conversation → Conversation) :
    Idle s (s.update id f) := ⟨.refl s, fun _ h => h, fun _ => rfl⟩

theorem idle_reply (s : Shared) (id : String) (answer : Except String Answer) :
    Idle s (s.reply id answer) := ⟨.refl s, fun _ h => h, fun _ => rfl⟩

theorem idle_send (s : Shared) {m : Sent} (h : ∀ id, m.carries id = false) :
    Idle s (s.send m) := by
  refine ⟨.refl s, fun _ h => h, fun id => ?_⟩
  rw [Shared.send, List.countP_append, List.countP_singleton, h id]
  rfl

theorem idle_setSubmission (s : Shared) (id : String) (state : SubmissionState) :
    Idle s (s.setSubmission id state) := by
  refine ⟨fun other r hr => ?_, fun other hother => ?_, fun _ => rfl⟩
  swap
  · by_cases hid : other = id
    · subst hid
      simp [Shared.setSubmission, hother]
    · simp [Shared.setSubmission, hid, hother]
  by_cases hid : other = id
  · subst hid
    exact ⟨{ r with state := state }, by simp [Shared.setSubmission, hr], rfl, rfl⟩
  · exact ⟨r, by simp [Shared.setSubmission, hid, hr], rfl, rfl⟩

theorem idle_finish (id status : String) (s : Shared) : Idle s (finish id status s).1 := by
  rcases finish_cases id status s with ⟨h, -⟩ | ⟨w, worker, -, -, -, h⟩
  · rw [h]
    exact .refl s
  · rw [h]
    exact (idle_setWorker s w _).trans (idle_update _ _ _)

theorem idle_stop (id : String) (s : Shared) : Idle s (stop id s).1 := by
  rw [stop]
  split
  · split
    · exact .refl s
    · refine Idle.trans ?_ (idle_finish id _ _)
      split
      · exact idle_update _ _ _
      · exact (idle_update _ _ _).trans (idle_send _ fun _ => rfl)
  · exact .refl s

theorem idle_handle (id : String) (m : Message) (s : Shared) : Idle s (handle id m s).1 := by
  rw [handle]
  split
  · next w worker hcurrent =>
    split
    · exact .refl s
    · cases m with
      | question requestId => exact (idle_setWorker s w _).trans (idle_update _ _ _)
      | otherRequest => exact .refl s
      | otherNotice threadId => exact .refl s
      | turnStarted threadId turnId =>
        dsimp only
        split
        · exact .refl s
        · exact idle_update _ _ _
      | resolved threadId requestId =>
        dsimp only
        split
        · exact .refl s
        · split
          · exact (idle_setWorker s w _).trans (idle_update _ _ _)
          · exact idle_setWorker s w _
      | turnCompleted threadId status =>
        dsimp only
        split
        · exact .refl s
        · exact idle_finish id _ s
  · exact .refl s

theorem idle_answer (id requestId : String) (complete : Bool) (s : Shared) :
    Idle s (answer id requestId complete s).1 := by
  rw [answer]
  split
  · split
    · exact .refl s
    · exact ((idle_send s fun _ => rfl).trans (idle_setWorker _ _ _)).trans (idle_update _ _ _)
  · exact .refl s

/-- How often the submission has been put to a worker or still will be. -/
def uses (id : String) (s : Shared) (ts : List Task) : ℕ :=
  s.sent.countP (Sent.carries id) + ts.countP (Task.willStart id)

/-- Only a submission that was not in the table is put to a worker by the stretch, once; it is in
the table then. -/
structure Spends (s : Shared) (before : List Task) (s' : Shared) (after : List Task) : Prop where
  rows : KeepsRows s s'
  uses : ∀ id, uses id s' after ≤ uses id s before ∨
    s.submissions id = none ∧ (s'.submissions id).isSome ∧ uses id s' after ≤ uses id s before + 1

theorem Idle.spends {s s' : Shared} (h : Idle s s') {before after : List Task}
    (hle : ∀ id, after.countP (Task.willStart id) ≤ before.countP (Task.willStart id)) :
    Spends s before s' after :=
  ⟨h.rows, fun id => .inl (by rw [AgentHost.uses, AgentHost.uses, h.sent]; have := hle id; omega)⟩

/-- A worker that stops or ends is not going to be given anything. -/
theorem willStart_finish (id status : String) (s : Shared) (submissionId : String) :
    (finish id status s).2.countP (Task.willStart submissionId) = 0 := by
  rcases finish_cases id status s with ⟨h, -⟩ | ⟨w, worker, -, -, -, h⟩
  · rw [h]
    rfl
  · rw [h]
    rfl

theorem willStart_stop (id : String) (s : Shared) (submissionId : String) :
    (stop id s).2.countP (Task.willStart submissionId) = 0 := by
  rw [stop]
  split
  · split
    · rfl
    · exact willStart_finish _ _ _ _
  · rfl

theorem willStart_handle (id : String) (m : Message) (s : Shared) (submissionId : String) :
    (handle id m s).2.countP (Task.willStart submissionId) = 0 := by
  rw [handle]
  split
  · split
    · rfl
    · cases m with
      | question requestId => rfl
      | otherRequest => rfl
      | otherNotice threadId => rfl
      | turnStarted threadId turnId =>
        dsimp only
        split <;> rfl
      | resolved threadId requestId =>
        dsimp only
        split <;> rfl
      | turnCompleted threadId status =>
        dsimp only
        split
        · rfl
        · exact willStart_finish _ _ _ _
  · rfl

theorem willStart_answer (id requestId : String) (complete : Bool) (s : Shared)
    (submissionId : String) :
    (answer id requestId complete s).2.countP (Task.willStart submissionId) = 0 := by
  rw [answer]
  split
  · split <;> rfl
  · rfl

theorem insert_rows {s : Shared} {submissionId : String} (h : s.submissions submissionId = none)
    (id text : String) : KeepsRows s (insertSubmission id submissionId text s) := by
  intro other r hr
  have hne : other ≠ submissionId := by
    rintro rfl
    rw [h] at hr
    cases hr
  exact ⟨r, by simp [insertSubmission, hne, hr], rfl, rfl⟩

/-- A new submission is steered into the running turn, or a worker is started for it. -/
theorem spends_submitNew {s : Shared} {submissionId : String}
    (hnew : s.submissions submissionId = none) (id text request : String) (c : Conversation)
    (style : ReplyStyle) :
    Spends s [] (submitNew id submissionId text request c style s).1
      (submitNew id submissionId text request c style s).2 := by
  rw [submitNew]
  split
  · next w worker hcurrent =>
    split
    · exact (idle_reply s _ _).spends fun _ => Nat.le_refl _
    · refine ⟨insert_rows hnew id request, fun other => ?_⟩
      by_cases hid : submissionId = other
      · subst hid
        refine .inr ⟨hnew, by simp [steer, Shared.send, insertSubmission], ?_⟩
        simp [uses, steer, Shared.send, insertSubmission, Sent.carries, Task.willStart]
      · refine .inl ?_
        simp [uses, steer, Shared.send, insertSubmission, Sent.carries, Task.willStart, hid]
  · next hfree =>
    refine ⟨insert_rows hnew id request, fun other => ?_⟩
    by_cases hid : submissionId = other
    · subst hid
      refine .inr ⟨hnew, by simp [launch, Shared.send, Shared.reply, Shared.update,
        insertSubmission], ?_⟩
      simp [uses, launch, Shared.send, Shared.reply, Shared.update, insertSubmission, Sent.carries,
        Task.willStart]
    · refine .inl ?_
      simp [uses, launch, Shared.send, Shared.reply, Shared.update, insertSubmission, Sent.carries,
        Task.willStart, hid]

/-- Only `submit` takes submissions. -/
def Request.submits : Request → Option String
  | .submit _ submissionId _ _ => some submissionId
  | _ => none

theorem idle_enter {r : Request} (hr : r.submits = none) (s : Shared) :
    Idle s (enter r s).1 ∧ ∀ id, (enter r s).2.countP (Task.willStart id) = 0 := by
  cases r with
  | submit id submissionId text style => cases hr
  | answer id requestId complete =>
    exact ⟨idle_answer id requestId complete s, willStart_answer id requestId complete s⟩
  | stop id => exact ⟨idle_stop id s, willStart_stop id s⟩
  | move id projectId => exact ⟨idle_update s _ _, fun _ => rfl⟩
  | message w m =>
    rw [enter]
    split
    · exact ⟨idle_handle _ m s, willStart_handle _ m s⟩
    · exact ⟨.refl s, fun _ => rfl⟩
  | failure w m =>
    rw [enter]
    split
    · exact ⟨idle_finish _ _ s, willStart_finish _ _ s⟩
    · exact ⟨.refl s, fun _ => rfl⟩
  | protocolError w m =>
    rw [enter]
    split
    · exact ⟨idle_finish _ _ s, willStart_finish _ _ s⟩
    · exact ⟨.refl s, fun _ => rfl⟩
  | closed w =>
    rw [enter]
    split
    · exact ⟨idle_finish _ _ s, willStart_finish _ _ s⟩
    · exact ⟨.refl s, fun _ => rfl⟩
  | timeout w =>
    rw [enter]
    split
    · exact ⟨idle_stop _ s, willStart_stop _ s⟩
    · exact ⟨.refl s, fun _ => rfl⟩

theorem spends_enter (r : Request) (s : Shared) : Spends s [] (enter r s).1 (enter r s).2 := by
  cases hr : r.submits with
  | none =>
    obtain ⟨hidle, hts⟩ := idle_enter hr s
    exact hidle.spends fun id => Nat.le_of_eq (hts id)
  | some submissionId =>
    cases r with
    | submit id submissionId text style =>
      rw [enter]
      rcases submit_cases id submissionId text style s with
        ⟨answer, h⟩ | ⟨hnew, request, c, st, h⟩
      · rw [h]
        exact (idle_reply s _ _).spends fun _ => Nat.le_refl _
      · rw [h]
        exact spends_submitNew hnew id text request c st
    | _ => cases hr

/-- A submission that is not in the table does not get there by a message with another number. -/
theorem fresh_submit {s : Shared} {other : String} (hother : s.submissions other = none)
    {submissionId : String} (hne : other ≠ submissionId) (id text : String) (style : Js) :
    (submit id submissionId text style s).1.submissions other = none := by
  have hinsert : ∀ request, (insertSubmission id submissionId request s).submissions other = none :=
    fun request => by simp [insertSubmission, hne, hother]
  rcases submit_cases id submissionId text style s with ⟨answer, h⟩ | ⟨-, request, c, st, h⟩
  · rw [h]
    exact hother
  · rw [h, submitNew]
    split
    · split
      · exact hother
      · exact hinsert request
    · exact hinsert request

theorem spends_resume (t : Task) (x : Input) (s : Shared) :
    Spends s [t] (resume t x s).1 (resume t x s).2 := by
  have hstay : Spends s [t] s [t] := (Idle.refl s).spends fun _ => Nat.le_refl _
  have hend : ∀ {s' : Shared} {ts : List Task}, Idle s s' →
      (∀ id, ts.countP (Task.willStart id) = 0) → Spends s [t] s' ts :=
    fun h hts => h.spends fun id => by rw [hts id]; exact Nat.zero_le _
  cases t with
  | initializing st =>
    cases x with
    | turn => exact hstay
    | answered result =>
      cases result with
      | ok _ => exact (idle_send s fun _ => rfl).spends fun _ => Nat.le_refl _
      | error m => exact hend (.refl s) fun _ => rfl
  | threading st =>
    cases x with
    | turn => exact hstay
    | answered result =>
      cases result with
      | error m => exact hend (.refl s) fun _ => rfl
      | ok threadId =>
        rw [resume]
        split
        · -- the promise to start becomes the request that starts the turn
          refine ⟨.refl s, fun id => .inl ?_⟩
          simp [uses, Shared.send, Shared.update, Sent.carries, Task.willStart, List.countP_cons]
        · exact hend (.refl s) fun _ => rfl
  | turning st =>
    cases x with
    | turn => exact hstay
    | answered result =>
      cases result with
      | error m => exact hend (.refl s) fun _ => rfl
      | ok turnId =>
        rw [resume]
        split
        · exact hend ((idle_setSubmission s _ _).trans (idle_update _ _ _)) fun _ => rfl
        · exact hend (idle_setSubmission s _ _) fun _ => rfl
  | failing st m =>
    cases x with
    | answered result => exact hstay
    | turn =>
      exact hend ((idle_setSubmission s _ _).trans (idle_finish _ _ _))
        (willStart_finish _ _ _)
  | steering w submissionId =>
    cases x with
    | turn => exact hstay
    | answered result =>
      cases result with
      | ok _ => exact hend ((idle_setSubmission s _ _).trans (idle_reply _ _ _)) fun _ => rfl
      | error m => exact hend ((idle_setSubmission s _ _).trans (idle_reply _ _ _)) fun _ => rfl
  | closing w =>
    cases x with
    | answered result => exact hstay
    | turn =>
      have hidle : Idle s { s with active := if s.active = some w then none else s.active } :=
        ⟨.refl s, fun _ h => h, fun _ => rfl⟩
      exact hend hidle fun _ => rfl

/-- Handlers that go on take no submission. -/
theorem fresh_resume {s : Shared} {id : String} (h : s.submissions id = none) (t : Task)
    (x : Input) : (resume t x s).1.submissions id = none := by
  have hset : ∀ other state, (s.setSubmission other state).submissions id = none :=
    fun other state => (idle_setSubmission s other state).fresh id h
  cases t with
  | initializing st =>
    cases x with
    | turn => exact h
    | answered result => cases result <;> exact h
  | threading st =>
    cases x with
    | turn => exact h
    | answered result =>
      cases result with
      | error m => exact h
      | ok threadId =>
        rw [resume]
        split <;> exact h
  | turning st =>
    cases x with
    | turn => exact h
    | answered result =>
      cases result with
      | error m => exact h
      | ok turnId =>
        rw [resume]
        split <;> exact hset _ _
  | failing st m =>
    cases x with
    | answered result => exact h
    | turn => exact (idle_finish _ _ _).fresh id (hset _ _)
  | steering w submissionId =>
    cases x with
    | turn => exact h
    | answered result => cases result <;> exact hset _ _
  | closing w => cases x <;> exact h

/-- Every submission has been put to a worker at most once, counting what is on the way there, and
one that has is in the table. -/
def Once (s : Shared) (ts : List Task) : Prop :=
  ∀ id, uses id s ts ≤ 1 ∧ (0 < uses id s ts → (s.submissions id).isSome)

theorem uses_append (id : String) (s : Shared) (ts us : List Task) :
    uses id s (ts ++ us) = uses id s ts + us.countP (Task.willStart id) := by
  rw [uses, uses, List.countP_append]
  omega

theorem Once.spends {s s' : Shared} {after ts : List Task} (before : List Task)
    (h : Once s (before ++ ts)) (hspends : Spends s before s' after) : Once s' (after ++ ts) := by
  intro id
  obtain ⟨hone, hrow⟩ := h id
  rw [uses_append] at hone hrow ⊢
  rcases hspends.uses id with hle | ⟨hfree, hsome, hle⟩
  · exact ⟨by omega, fun hpos => hspends.rows.isSome (hrow (by omega))⟩
  · have hzero : ¬0 < uses id s before + ts.countP (Task.willStart id) := fun hpos => by
      have hsome := hrow hpos
      rw [hfree] at hsome
      cases hsome
    exact ⟨by omega, fun _ => hsome⟩

theorem once_invariant : Invariant server always Once where
  perm s ts us hperm h id := by
    rw [uses, ← hperm.countP_eq]
    exact h id
  enter r s ts h _ := Once.spends [] h (spends_enter r s)
  resume t x s ts h _ := Once.spends [t] h (spends_resume t x s)
  restart s ts h id := by
    obtain ⟨hone, hrow⟩ := h id
    rw [uses] at hone hrow
    rw [Server.filter_survives fun _ => rfl]
    show s.sent.countP (Sent.carries id) + 0 ≤ 1 ∧ (0 < s.sent.countP (Sent.carries id) + 0 → _)
    refine ⟨by omega, fun hpos => ?_⟩
    show ((s.submissions id).map Submission.recovered).isSome
    rw [Option.isSome_map]
    exact hrow (by omega)

/-! ### Runs -/

theorem keepsRows_invariant (s₀ : Shared) : Invariant server always fun s _ => KeepsRows s₀ s :=
  Invariant.of_shared (fun r s _ h _ => h.trans (spends_enter r s).rows)
    (fun t x s _ h _ => h.trans (spends_resume t x s).rows)
    (fun s h => h.trans fun id r hr => ⟨r.recovered, by simp [server, restart, hr], by
      rw [Submission.recovered]
      split
      · exact ⟨rfl, rfl⟩
      · exact ⟨rfl, rfl⟩⟩)

/-- The content that a repeated submission must have. -/
def Shared.SameContent (s : Shared) (r : Submission) (id text : String) (style : Js) : Prop :=
  ∃ st c project, replyStyle style = .ok st ∧ s.store.conversations id = some c ∧
    s.store.projects c.projectId = some project ∧
    r.conversationId = id ∧ r.text = input project.kind text st

/-- A submission that is in the table with other content is refused, and nothing else happens. -/
theorem submit_reused {s : Shared} {submissionId : String} {r : Submission}
    (hr : s.submissions submissionId = some r) {id text : String} {style : Js}
    (hother : ¬s.SameContent r id text style) :
    ∃ m, submit id submissionId text style s = (s.reply submissionId (.error m), []) := by
  rw [submit]
  split
  · exact ⟨_, rfl⟩
  · exact ⟨_, rfl⟩
  · next st c hstyle hc =>
    split
    · exact ⟨_, rfl⟩
    · next project hproject =>
      rw [hr]
      dsimp only
      split
      · exact ⟨_, rfl⟩
      · next hsame =>
        rw [not_or, not_not, not_not] at hsame
        exact absurd ⟨st, c, project, hstyle, hc, hproject, hsame.1, hsame.2⟩ hother

/-- Over every run: a submission is put to a worker by at most one request; its row keeps its content
and every later message under its number with other content is refused; and no two workers are
unfinished, of one conversation or of two. -/
theorem submissions_once (store : Store) (table : String → Option Submission)
    (es fs : List (Event Request Input)) (submissionId : String) :
    let s := (server.run (initial store table) es).shared
    let later := (server.run (initial store table) (es ++ fs)).shared
    s.sent.countP (Sent.carries submissionId) ≤ 1 ∧
      (∀ r, s.submissions submissionId = some r → ∃ r', later.submissions submissionId = some r' ∧
        r'.conversationId = r.conversationId ∧ r'.text = r.text ∧
        ∀ id text style, ¬later.SameContent r' id text style →
          ∃ m, enter (.submit id submissionId text style) later =
            (later.reply submissionId (.error m), [])) ∧
      (∀ v w id id', s.origin v = some (id, false) → s.origin w = some (id', false) → v = w) := by
  intro s later
  refine ⟨?_, fun r hr => ?_, fun v w id id' hv hw => ?_⟩
  · have honce := once_invariant.run_always (s := initial store table)
      (fun id => by simp [uses, initial]) es submissionId
    exact Nat.le_trans (Nat.le_add_right _ _) honce.1
  · have hkeeps : KeepsRows s later := by
      show KeepsRows s (server.run _ (es ++ fs)).shared
      rw [server.run_append]
      exact (keepsRows_invariant s).run_always (KeepsRows.refl s) fs
    obtain ⟨r', hr', hid, htext⟩ := hkeeps submissionId r hr
    exact ⟨r', hr', hid, htext, fun id text style hother => submit_reused hr' hother⟩
  · have hstaffed := staffed_invariant.run_always (s := initial store table)
      ⟨fun _ h => (nomatch h), fun _ _ h => (nomatch h), fun _ h => (nomatch h),
        fun _ h => absurd h List.not_mem_nil⟩ es
    have hactive := hstaffed.single v id hv
    rw [hstaffed.single w id' hw, Option.some.injEq] at hactive
    exact hactive.symm

end ForgeOS.Galaxy.AgentHost
