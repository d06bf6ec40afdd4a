import ForgeOS.Galaxy.LateEvents

/-! What a conversation shows while its worker runs a turn: whether a question of the worker is
open. -/

namespace ForgeOS.Galaxy.AgentHost

open ForgeOS.Library.Conditions ForgeOS.Library.Interleaving

/-! ### What is shown -/

/-- The active worker while it is unfinished: the questions of it that are open, and the status of
its conversation. -/
structure View where
  worker : ℕ
  conversationId : String
  questions : List String
  status : String
  deriving DecidableEq, Repr

def Shared.viewOf (s : Shared) (w : ℕ) (worker : Worker) : Option View :=
  if worker.finished then none
  else (s.store.conversations worker.conversationId).map fun c =>
    ⟨w, worker.conversationId, worker.approvals, c.status⟩

def Shared.view (s : Shared) : Option View := s.current.bind fun p => s.viewOf p.1 p.2

/-- The status is `waiting` exactly while a question is open, and `running` otherwise. -/
def View.Fits (v : View) : Prop :=
  (v.status = "waiting" ↔ v.questions ≠ []) ∧ (v.questions = [] → v.status = "running")

theorem View.fits_iff (v : View) :
    v.Fits ↔ v.status = if v.questions = [] then "running" else "waiting" := by
  unfold Fits
  by_cases h : v.questions = []
  · simp only [h, ne_eq, not_true_eq_false, iff_false, true_imp_iff, if_true]
    constructor
    · exact fun h => h.2
    · intro hstatus
      simp [hstatus]
  · simp [h]

/-- Which worker's turn an event announces: the notification that a turn has started, where `handle`
takes it, and the answer to the request for one, where `start` does. -/
def announced (s : State Shared Task) : Event Request Input → Option View
  | .arrive (.message w (.turnStarted threadId _)) =>
    (s.shared.origin w).bind fun origin => s.shared.view.filter fun v =>
      v.conversationId = origin.1 && !foreign threadId (s.shared.store.conversations origin.1)
  | .wake k (.answered (.ok _)) =>
    match s.waiting[k]? with
    | some (.turning st) => s.shared.view.filter (·.conversationId = st.conversationId)
    | _ => none
  | _ => none

/-- A host, with the workers whose turns have been announced. -/
structure Observed where
  state : State Shared Task
  turns : List ℕ

def observe (o : Observed) (e : Event Request Input) : Observed :=
  ⟨server.step o.state e, ((announced o.state e).map View.worker).toList ++ o.turns⟩

/-- While the active worker runs a turn, its conversation shows whether a question is open. -/
def Observed.Shown (o : Observed) : Prop :=
  ∀ v ∈ o.state.shared.view, v.worker ∈ o.turns → v.Fits

/-- A turn is announced while no question is open, and the question that is answered during a turn is
the last one that is open. -/
structure Unhiding (o : Observed) (e : Event Request Input) : Prop where
  announced : ∀ v ∈ announced o.state e, v.questions = []
  answered : ∀ v ∈ o.state.shared.view, v.worker ∈ o.turns → ∀ requestId ∈ v.questions,
    e = .arrive (.answer v.conversationId requestId true) → v.questions.erase requestId = []

/-! ### What the handlers do to it -/

theorem viewOf_update (s : Shared) (id : String) {f : Conversation → Conversation}
    {g : String → String} (h : ∀ c, (f c).status = g c.status) (w : ℕ) (worker : Worker) :
    (s.update id f).viewOf w worker = (s.viewOf w worker).map fun v =>
      if v.conversationId = id then { v with status := g v.status } else v := by
  unfold Shared.viewOf
  split
  · rfl
  · by_cases hid : worker.conversationId = id
    · subst hid
      rw [show (s.update worker.conversationId f).store.conversations worker.conversationId =
        (s.store.conversations worker.conversationId).map f from s.store.update_self _ f]
      simp [Function.comp_def, h]
    · rw [show (s.update id f).store.conversations worker.conversationId =
        s.store.conversations worker.conversationId from s.store.update_other hid f]
      simp [Function.comp_def, hid]

theorem view_update (s : Shared) (id : String) {f : Conversation → Conversation}
    {g : String → String} (h : ∀ c, (f c).status = g c.status) :
    (s.update id f).view = s.view.map fun v =>
      if v.conversationId = id then { v with status := g v.status } else v := by
  unfold Shared.view
  rw [Option.map_bind]
  exact congrArg (Option.bind s.current) (funext fun p => viewOf_update s id h p.1 p.2)

/-- An update that keeps the status is not seen. -/
theorem view_update_same (s : Shared) (id : String) {f : Conversation → Conversation}
    (h : ∀ c, (f c).status = c.status) : (s.update id f).view = s.view := by
  rw [view_update s id (g := fun status => status) h]
  simp

theorem current_setWorker (s : Shared) {w : ℕ} {worker : Worker}
    (hcurrent : s.current = some (w, worker)) (f : Worker → Worker) :
    (s.setWorker w f).current = some (w, f worker) := by
  obtain ⟨hactive, hworker⟩ := current_eq_some hcurrent
  simp [Shared.current, Shared.setWorker, hactive, hworker]

theorem view_of_current {s : Shared} {w : ℕ} {worker : Worker}
    (hcurrent : s.current = some (w, worker)) : s.view = s.viewOf w worker := by
  rw [Shared.view, hcurrent, Option.bind_some]

theorem view_finished {s : Shared} {w : ℕ} {worker : Worker}
    (hcurrent : s.current = some (w, worker)) (h : worker.finished = true) : s.view = none := by
  rw [view_of_current hcurrent, Shared.viewOf, if_pos h]

theorem view_idle {s : Shared} (hcurrent : s.current = none) : s.view = none := by
  rw [Shared.view, hcurrent, Option.bind_none]

/-- What is seen of the active worker is about its conversation, and its questions. -/
theorem view_spec {s : Shared} {w : ℕ} {worker : Worker} (hcurrent : s.current = some (w, worker))
    {v : View} (hv : v ∈ s.view) :
    v.worker = w ∧ v.conversationId = worker.conversationId ∧ v.questions = worker.approvals ∧
      worker.finished = false := by
  rw [view_of_current hcurrent, Shared.viewOf] at hv
  split at hv
  · cases hv
  · next hopen =>
    obtain ⟨c, -, rfl⟩ := Option.map_eq_some_iff.mp hv
    exact ⟨rfl, rfl, rfl, by simpa using hopen⟩

theorem view_setApprovals {s : Shared} {w : ℕ} {worker : Worker}
    (hcurrent : s.current = some (w, worker)) (approvals : List String) :
    (s.setWorker w ({ · with approvals := approvals })).view =
      s.view.map ({ · with questions := approvals }) := by
  rw [view_of_current (current_setWorker s hcurrent _), view_of_current hcurrent]
  unfold Shared.viewOf
  by_cases hfinished : worker.finished = true
  · simp [hfinished]
  · simp [hfinished, Function.comp_def, Shared.setWorker]

theorem view_finish (id status : String) (s : Shared) :
    (finish id status s).1.view = s.view.filter (·.conversationId ≠ id) := by
  rcases finish_cases id status s with ⟨h, hserves⟩ | ⟨w, worker, hcurrent, hid, -, h⟩
  · rw [h]
    cases hv : s.view with
    | none => rfl
    | some v =>
      cases hcurrent : s.current with
      | none => simp [view_idle hcurrent] at hv
      | some p =>
        obtain ⟨w, worker⟩ := p
        obtain ⟨-, hconv, -, hopen⟩ := view_spec hcurrent hv
        rw [Shared.serves, hcurrent] at hserves
        have hne : v.conversationId ≠ id := by simpa [hopen, hconv] using hserves
        simp [hne, Option.filter_some]
  · have hset := current_setWorker s hcurrent ({ · with finished := true })
    rw [h]
    refine Eq.trans (view_finished hset rfl) ?_
    refine (Option.filter_eq_none_iff.mpr fun v hv => ?_).symm
    simp [(view_spec hcurrent hv).2.1, hid]

theorem view_stop (id : String) (s : Shared) :
    (stop id s).1.view = s.view.filter (·.conversationId ≠ id) := by
  have hstopping : (s.update id ({ · with status := "stopping" })).view.filter
      (·.conversationId ≠ id) = s.view.filter (·.conversationId ≠ id) := by
    rw [view_update s id (g := fun _ => "stopping") fun _ => rfl]
    cases s.view with
    | none => rfl
    | some v => by_cases hid : v.conversationId = id <;> simp [hid, Option.filter_some]
  rw [stop]
  split
  · next w worker hcurrent =>
    split
    · next hid =>
      cases hv : s.view with
      | none => rfl
      | some v => simp [(view_spec hcurrent hv).2.1, hid, Option.filter_some]
    · dsimp only
      rw [view_finish]
      split
      · exact hstopping
      · exact hstopping
  · next hcurrent => rw [view_idle hcurrent, Option.filter_none]

/-- What a message of a worker of the conversation `c` does to what is seen of it. -/
def View.hear (c : Option Conversation) (v : View) : Message → Option View
  | .question requestId =>
    some { v with questions := v.questions.insert requestId, status := "waiting" }
  | .turnStarted threadId _ => some (if foreign threadId c then v else { v with status := "running" })
  | .resolved threadId requestId =>
    some (if foreign threadId c then v
      else { v with
        questions := v.questions.erase requestId
        status := if v.questions.erase requestId = [] then "running" else v.status })
  | .turnCompleted threadId _ => if foreign threadId c then some v else none
  | .otherRequest | .otherNotice _ => some v

theorem view_handle (id : String) (m : Message) (s : Shared) :
    (handle id m s).1.view = s.view.bind fun v =>
      if v.conversationId = id then v.hear (s.store.conversations id) m else some v := by
  rw [handle]
  split
  · next w worker hcurrent =>
    split
    · next hguard =>
      cases hv : s.view with
      | none => rfl
      | some v =>
        obtain ⟨-, hconv, -, hopen⟩ := view_spec hcurrent hv
        have hne : v.conversationId ≠ id := by simpa [hopen, hconv] using hguard
        simp [hne]
    · next hguard =>
      have hid : worker.conversationId = id := by
        by_contra hne
        simp [hne] at hguard
      have hown : ∀ v ∈ s.view, v.conversationId = id ∧ v.questions = worker.approvals :=
        fun v hv => ⟨(view_spec hcurrent hv).2.1.trans hid, (view_spec hcurrent hv).2.2.1⟩
      have hkept : s.view = s.view.bind fun v => if v.conversationId = id then some v else some v := by
        simp
      cases m with
      | otherRequest => exact hkept
      | otherNotice threadId => exact hkept
      | question requestId =>
        rw [view_update _ id (g := fun _ => "waiting") fun _ => rfl, view_setApprovals hcurrent]
        cases hv : s.view with
        | none => rfl
        | some v => simp [hown v hv, View.hear]
      | turnStarted threadId turnId =>
        by_cases hforeign : foreign threadId (s.store.conversations id) = true
        · simpa only [View.hear, hforeign, if_true] using hkept
        · simp only [View.hear, hforeign, Bool.false_eq_true, if_false]
          rw [view_update _ id (g := fun _ => "running") fun _ => rfl]
          cases hv : s.view with
          | none => rfl
          | some v => simp [hown v hv]
      | resolved threadId requestId =>
        by_cases hforeign : foreign threadId (s.store.conversations id) = true
        · simpa only [View.hear, hforeign, if_true] using hkept
        · simp only [View.hear, hforeign, Bool.false_eq_true, if_false]
          split
          · next hempty =>
            rw [view_update _ id (g := fun _ => "running") fun _ => rfl, view_setApprovals hcurrent]
            cases hv : s.view with
            | none => rfl
            | some v => simp [hown v hv, hempty, -List.erase_eq_nil_iff]
          · next hmore =>
            rw [view_setApprovals hcurrent]
            cases hv : s.view with
            | none => rfl
            | some v => simp [hown v hv, hmore, -List.erase_eq_nil_iff]
      | turnCompleted threadId status =>
        by_cases hforeign : foreign threadId (s.store.conversations id) = true
        · simpa only [View.hear, hforeign, if_true] using hkept
        · simp only [View.hear, hforeign, Bool.false_eq_true, if_false]
          rw [view_finish]
          cases hv : s.view with
          | none => rfl
          | some v => simp [hown v hv, Option.filter_some]
  · next hcurrent => rw [view_idle hcurrent, Option.bind_none]

theorem view_answer (id requestId : String) (complete : Bool) (s : Shared) :
    (answer id requestId complete s).1.view = s.view.map fun v =>
      if v.conversationId = id ∧ requestId ∈ v.questions ∧ complete = true then
        { v with questions := v.questions.erase requestId, status := "running" }
      else v := by
  rw [answer]
  split
  · next w worker hcurrent =>
    have hsent : (s.send (.answer w requestId)).current = some (w, worker) := hcurrent
    cases hv : s.view with
    | none =>
      split
      · exact hv
      · rw [view_update _ id (g := fun _ => "running") fun _ => rfl, view_setApprovals hsent]
        rw [show (s.send (.answer w requestId)).view = none from hv]
        rfl
    | some v =>
      obtain ⟨-, hconv, hquestions, -⟩ := view_spec hcurrent hv
      split
      · next hguard =>
        rw [hv, Option.map_some, if_neg]
        rintro ⟨hid, hmem, hcomplete⟩
        simp [← hconv, ← hquestions, hid, hmem, hcomplete] at hguard
      · next hguard =>
        have hall : worker.conversationId = id ∧ requestId ∈ worker.approvals ∧
            complete = true := by simpa [and_assoc] using hguard
        rw [view_update _ id (g := fun _ => "running") fun _ => rfl, view_setApprovals hsent]
        rw [show (s.send (.answer w requestId)).view = some v from hv]
        simp [hconv, hquestions, hall]
  · next hcurrent => rw [view_idle hcurrent, Option.map_none]

/-- A new message is steered into the turn or makes a new worker. -/
theorem view_submit (id submissionId text : String) (style : Js) (s : Shared) :
    ∀ v ∈ (submit id submissionId text style s).1.view, v ∈ s.view ∨ v.worker = s.nextWorker := by
  intro v hv
  rcases submit_cases id submissionId text style s with ⟨answer, h⟩ | ⟨-, request, c, st, h⟩
  · rw [h] at hv
    exact .inl hv
  · rw [h, submitNew] at hv
    split at hv
    · split at hv
      · exact .inl hv
      · exact .inl hv
    · have hcurrent : (launch id c request submissionId st
          (insertSubmission id submissionId request s)).1.current =
            some (s.nextWorker, ⟨id, false, st == ReplyStyle.standard, []⟩) := by
        simp [launch, Shared.current, Shared.send, Shared.reply, insertSubmission]
      exact .inr (view_spec hcurrent hv).1

/-! ### Steps -/

/-- Nothing is seen afterwards but what was there before or is of a new worker. -/
def Calm (s s' : Shared) : Prop := ∀ v ∈ s'.view, v ∈ s.view ∨ v.worker = s.nextWorker

theorem Calm.of_view {s s' : Shared} (h : s'.view = s.view) : Calm s s' := by
  intro v hv
  rw [h] at hv
  exact .inl hv

theorem Calm.of_filter {s s' : Shared} {p : View → Bool} (h : s'.view = s.view.filter p) :
    Calm s s' := by
  intro v hv
  rw [h] at hv
  exact .inl (Option.mem_filter_iff.mp hv).1

/-- The host and what has been announced of it. -/
structure Observed.Sound (o : Observed) : Prop where
  staffed : Staffed o.state.shared o.state.waiting
  known : ∀ w ∈ o.turns, w < o.state.shared.nextWorker

theorem Observed.Sound.view_lt {o : Observed} (h : o.Sound) {v : View}
    (hv : v ∈ o.state.shared.view) : v.worker < o.state.shared.nextWorker := by
  cases hcurrent : o.state.shared.current with
  | none =>
    rw [view_idle hcurrent] at hv
    cases hv
  | some p =>
    obtain ⟨w, worker⟩ := p
    rw [(view_spec hcurrent hv).1]
    exact h.staffed.bounded w (by rw [origin_of_current hcurrent]; rfl)

theorem announced_mem {s : State Shared Task} {e : Event Request Input} {v : View}
    (hv : v ∈ announced s e) : v ∈ s.shared.view := by
  unfold announced at hv
  split at hv
  · obtain ⟨origin, -, hv⟩ := Option.bind_eq_some_iff.mp hv
    exact (Option.mem_filter_iff.mp hv).1
  · split at hv
    · exact (Option.mem_filter_iff.mp hv).1
    · cases hv
  · cases hv

theorem mem_turns {o : Observed} {e : Event Request Input} {w : ℕ} :
    w ∈ (observe o e).turns ↔ (∃ v ∈ announced o.state e, v.worker = w) ∨ w ∈ o.turns := by
  simp [observe]

theorem nextWorker_le {s s' : Shared} {ts : List Task} (h : Staffing s s' ts) :
    s.nextWorker ≤ s'.nextWorker := by
  cases h with
  | same _ hsame _ => exact Nat.le_of_eq hsame.next.symm
  | finished w id _ _ _ _ hnext => exact Nat.le_of_eq hnext.symm
  | launched t id _ _ _ hnext _ => omega

theorem nextWorker_step (s : State Shared Task) (e : Event Request Input) :
    s.shared.nextWorker ≤ (server.step s e).shared.nextWorker := by
  cases e with
  | arrive r => exact nextWorker_le (staffing_enter r s.shared)
  | restart => exact Nat.le_refl _
  | wake k x =>
    rw [Server.step]
    split
    · next t ht =>
      cases hcloses : t.closes with
      | none => exact nextWorker_le (staffing_resume t x s.shared hcloses)
      | some w =>
        cases t with
        | closing w' => cases x <;> exact Nat.le_refl _
        | _ => cases hcloses
    · exact Nat.le_refl _

theorem Observed.Sound.observe {o : Observed} (h : o.Sound) (e : Event Request Input) :
    (observe o e).Sound where
  staffed := staffed_invariant.step h.staffed (at_always _ e)
  known := by
    intro w hw
    refine Nat.lt_of_lt_of_le ?_ (nextWorker_step o.state e)
    rcases mem_turns.mp hw with ⟨v, hv, rfl⟩ | hw
    · exact h.view_lt (announced_mem hv)
    · exact h.known w hw

/-- A step that is not seen keeps what is shown. -/
theorem shown_of_calm {o : Observed} {e : Event Request Input} (hsound : o.Sound) (h : o.Shown)
    (hquiet : announced o.state e = none) (hcalm : Calm o.state.shared (observe o e).state.shared) :
    (observe o e).Shown := by
  intro v hv hturn
  rw [mem_turns, hquiet] at hturn
  have hold : v.worker ∈ o.turns := by simpa using hturn
  rcases hcalm v hv with hv | hnew
  · exact h v hv hold
  · have := hsound.known v.worker hold
    omega

theorem unhiding_of_quiet {o : Observed} {e : Event Request Input}
    (hquiet : announced o.state e = none)
    (hanswer : ∀ id requestId, e ≠ .arrive (.answer id requestId true)) : Unhiding o e where
  announced := by simp [hquiet]
  answered _ _ _ requestId _ he := absurd he (hanswer _ requestId)

/-- A turn that is announced shows that no question is open. -/
theorem announcing_iff {o : Observed} {e : Event Request Input} (hsound : o.Sound) (h : o.Shown)
    {p : View → Bool} (hannounced : announced o.state e = o.state.shared.view.filter p)
    (hview : (observe o e).state.shared.view =
      o.state.shared.view.map fun v => if p v then { v with status := "running" } else v)
    (hanswer : ∀ id requestId, e ≠ .arrive (.answer id requestId true)) :
    Unhiding o e ↔ (observe o e).Shown := by
  cases hv : o.state.shared.view with
  | none =>
    rw [hv] at hannounced hview
    refine iff_of_true (unhiding_of_quiet hannounced hanswer) (shown_of_calm hsound h hannounced ?_)
    exact Calm.of_view (hview.trans hv.symm)
  | some v =>
    rw [hv, Option.filter_some] at hannounced
    rw [hv, Option.map_some] at hview
    cases hp : p v with
    | false =>
      simp only [hp, Bool.false_eq_true, if_false] at hannounced hview
      refine iff_of_true (unhiding_of_quiet hannounced hanswer)
        (shown_of_calm hsound h hannounced ?_)
      exact Calm.of_view (hview.trans hv.symm)
    | true =>
      simp only [hp, if_true] at hannounced hview
      have hturn : v.worker ∈ (observe o e).turns := by
        rw [mem_turns, hannounced]
        exact .inl ⟨v, rfl, rfl⟩
      have hshown : (observe o e).Shown ↔ v.questions = [] := by
        rw [Observed.Shown, hview]
        simp [hturn, View.fits_iff]
      rw [hshown]
      constructor
      · intro hunhiding
        exact hunhiding.announced v hannounced
      · intro hnone
        refine ⟨fun v' hv' => ?_, fun _ _ _ requestId _ he => absurd he (hanswer _ requestId)⟩
        rw [hannounced, Option.mem_some_iff] at hv'
        rw [← hv', hnone]

/-- An answer during a turn shows that no question is open. -/
theorem answering_iff {o : Observed} (h : o.Shown) (id requestId : String) :
    Unhiding o (.arrive (.answer id requestId true)) ↔
      (observe o (.arrive (.answer id requestId true))).Shown := by
  have hview := view_answer id requestId true o.state.shared
  have hturns : (observe o (.arrive (.answer id requestId true))).turns = o.turns := rfl
  rw [Observed.Shown, hturns]
  rw [show (observe o (.arrive (.answer id requestId true))).state.shared.view = _ from hview]
  constructor
  · rintro ⟨-, hlast⟩ v' hv' hturn
    obtain ⟨v, hv, rfl⟩ := Option.map_eq_some_iff.mp hv'
    split at hturn
    · next hall =>
      have hnone := hlast v hv hturn requestId hall.2.1 (by rw [hall.1])
      rw [if_pos hall, View.fits_iff, hnone, if_pos rfl]
    · next hother =>
      rw [if_neg hother]
      exact h v hv hturn
  · intro hshown
    refine ⟨by simp [announced], fun v hv hturn r hmem he => ?_⟩
    simp only [Event.arrive.injEq, Request.answer.injEq, and_true] at he
    have hfits := hshown _ (Option.mem_map_of_mem _ hv)
    rw [if_pos ⟨he.1.symm, he.2 ▸ hmem, rfl⟩] at hfits
    have hstatus := (View.fits_iff _).mp (hfits hturn)
    rw [he.2] at hstatus
    by_contra hmore
    simp [hmore] at hstatus

theorem serves_of_view {s : Shared} {v : View} (hv : v ∈ s.view) :
    s.serves v.conversationId = true := by
  cases hcurrent : s.current with
  | none =>
    rw [view_idle hcurrent] at hv
    cases hv
  | some p =>
    obtain ⟨w, worker⟩ := p
    obtain ⟨-, hconv, -, hopen⟩ := view_spec hcurrent hv
    rw [Shared.serves, hcurrent]
    simp [hconv, hopen]

/-- A step that announces nothing, answers nothing and is not seen. -/
theorem calm_iff {o : Observed} {e : Event Request Input} (hsound : o.Sound) (h : o.Shown)
    (hquiet : announced o.state e = none)
    (hanswer : ∀ id requestId, e ≠ .arrive (.answer id requestId true))
    (hcalm : Calm o.state.shared (observe o e).state.shared) :
    Unhiding o e ↔ (observe o e).Shown :=
  iff_of_true (unhiding_of_quiet hquiet hanswer) (shown_of_calm hsound h hquiet hcalm)

theorem message_iff {o : Observed} (hsound : o.Sound) (h : o.Shown) (w : ℕ) (m : Message) :
    Unhiding o (.arrive (.message w m)) ↔ (observe o (.arrive (.message w m))).Shown := by
  have hanswer : ∀ id requestId, (.arrive (.message w m) : Event Request Input) ≠
      .arrive (.answer id requestId true) := by simp
  cases horigin : o.state.shared.origin w with
  | none =>
    have hstay : (observe o (.arrive (.message w m))).state.shared = o.state.shared := by
      simp [observe, Server.step, server, enter, horigin]
    refine calm_iff hsound h ?_ hanswer (Calm.of_view (by rw [hstay]))
    cases m <;> simp [announced, horigin]
  | some origin =>
    obtain ⟨id, finished⟩ := origin
    have hview : (observe o (.arrive (.message w m))).state.shared.view =
        o.state.shared.view.bind fun v => if v.conversationId = id then
          v.hear (o.state.shared.store.conversations id) m else some v := by
      rw [← view_handle]
      simp [observe, Server.step, server, enter, horigin]
    have hkept : (o.state.shared.view.bind fun v =>
        if v.conversationId = id then some v else some v) = o.state.shared.view := by simp
    cases m with
    | otherRequest => exact calm_iff hsound h rfl hanswer (Calm.of_view (hview.trans hkept))
    | otherNotice threadId =>
      exact calm_iff hsound h rfl hanswer (Calm.of_view (hview.trans hkept))
    | turnStarted threadId turnId =>
      refine announcing_iff hsound h
        (p := fun v => v.conversationId = id &&
          !foreign threadId (o.state.shared.store.conversations id)) ?_ ?_ hanswer
      · simp [announced, horigin]
      · rw [hview]
        cases o.state.shared.view with
        | none => rfl
        | some v =>
          by_cases hid : v.conversationId = id
          · by_cases hforeign : foreign threadId (o.state.shared.store.conversations id) = true
            · simp [View.hear, hforeign]
            · simp [hid, View.hear, hforeign]
          · simp [hid]
    | turnCompleted threadId status =>
      refine calm_iff hsound h rfl hanswer fun v' hv' => .inl ?_
      rw [hview] at hv'
      obtain ⟨v, hv, hv'⟩ := Option.bind_eq_some_iff.mp hv'
      split at hv'
      · rw [View.hear] at hv'
        split at hv'
        · exact Option.some.inj hv' ▸ hv
        · cases hv'
      · exact Option.some.inj hv' ▸ hv
    | question requestId =>
      refine iff_of_true (unhiding_of_quiet rfl hanswer) fun v' hv' hturn => ?_
      rw [hview] at hv'
      obtain ⟨v, hv, hv'⟩ := Option.bind_eq_some_iff.mp hv'
      split at hv'
      · -- a question that is asked is open
        rw [View.hear, Option.some.injEq] at hv'
        subst hv'
        have hopen : v.questions.insert requestId ≠ [] :=
          List.ne_nil_of_mem List.mem_insert_self
        rw [View.fits_iff, if_neg hopen]
      · exact h v' (Option.some.inj hv' ▸ hv) hturn
    | resolved threadId requestId =>
      refine iff_of_true (unhiding_of_quiet rfl hanswer) fun v' hv' hturn => ?_
      rw [hview] at hv'
      obtain ⟨v, hv, hv'⟩ := Option.bind_eq_some_iff.mp hv'
      split at hv'
      · rw [View.hear, Option.some.injEq] at hv'
        split at hv'
        · exact h v' (hv' ▸ hv) hturn
        · subst hv'
          rw [View.fits_iff]
          by_cases hlast : v.questions.erase requestId = []
          · rw [if_pos hlast, if_pos hlast]
          · have hopen : v.questions ≠ [] := by
              intro hnone
              simp [hnone] at hlast
            rw [if_neg hlast, if_neg hlast, (View.fits_iff v).mp (h v hv hturn), if_neg hopen]
      · exact h v' (Option.some.inj hv' ▸ hv) hturn

/-- A handler that goes on, other than `start` with the answer to `turn/start`, is not seen. -/
theorem calm_resume (t : Task) (x : Input) (s : Shared)
    (ht : ∀ st turnId, t = .turning st → x ≠ .answered (.ok turnId)) :
    Calm s (resume t x s).1 := by
  have hstay : Calm s s := Calm.of_view rfl
  cases t with
  | initializing st =>
    cases x with
    | turn => exact hstay
    | answered result => cases result <;> exact hstay
  | threading st =>
    cases x with
    | turn => exact hstay
    | answered result =>
      cases result with
      | error m => exact hstay
      | ok threadId =>
        rw [resume]
        split
        · exact Calm.of_view (view_update_same s _ fun _ => rfl)
        · exact hstay
  | turning st =>
    cases x with
    | turn => exact hstay
    | answered result =>
      cases result with
      | error m => exact hstay
      | ok turnId => exact absurd rfl (ht st turnId rfl)
  | failing st m =>
    cases x with
    | answered result => exact hstay
    | turn => exact Calm.of_filter (view_finish st.conversationId "failed" _)
  | steering w submissionId =>
    cases x with
    | turn => exact hstay
    | answered result => cases result <;> exact hstay
  | closing w =>
    cases x with
    | answered result => exact hstay
    | turn =>
      by_cases hactive : s.active = some w
      · simp [Calm, resume, hactive, Shared.view, Shared.current]
      · refine Calm.of_view ?_
        rw [resume, if_neg hactive]

theorem shown_step {o : Observed} (hsound : o.Sound) (h : o.Shown) (e : Event Request Input) :
    Unhiding o e ↔ (observe o e).Shown := by
  have hstay : Calm o.state.shared o.state.shared := Calm.of_view rfl
  cases e with
  | restart => exact calm_iff hsound h rfl (by simp) fun v hv => nomatch hv
  | wake k x =>
    have hanswer : ∀ id requestId, (.wake k x : Event Request Input) ≠
        .arrive (.answer id requestId true) := by simp
    cases hk : o.state.waiting[k]? with
    | none =>
      refine calm_iff hsound h ?_ hanswer ?_
      · unfold announced
        split <;> simp_all
      · simp [observe, Server.step, hk, hstay]
    | some t =>
      have hshared : (observe o (.wake k x)).state.shared = (resume t x o.state.shared).1 := by
        simp [observe, Server.step, server, hk]
      by_cases hturning : ∃ st turnId, t = .turning st ∧ x = .answered (.ok turnId)
      · obtain ⟨st, turnId, rfl, rfl⟩ := hturning
        refine announcing_iff hsound h (p := fun v => v.conversationId = st.conversationId) ?_ ?_
          hanswer
        · simp [announced, hk]
        · rw [hshared, resume]
          split
          · exact (view_update _ st.conversationId (g := fun _ => "running") fun _ => rfl).trans
              (by simp; rfl)
          · next hserves =>
            show o.state.shared.view = _
            cases hv : o.state.shared.view with
            | none => rfl
            | some v =>
              have hne : v.conversationId ≠ st.conversationId := by
                intro hid
                exact hserves (hid ▸ serves_of_view hv)
              simp [hne]
      · refine calm_iff hsound h ?_ hanswer ?_
        · unfold announced
          split <;> simp_all
        · rw [hshared]
          refine calm_resume t x _ fun st turnId ht hx => hturning ⟨st, turnId, ht, hx⟩
  | arrive r =>
    cases r with
    | submit id submissionId text style =>
      exact calm_iff hsound h rfl (by simp) (view_submit id submissionId text style o.state.shared)
    | message w m => exact message_iff hsound h w m
    | stop id =>
      exact calm_iff hsound h rfl (by simp) (Calm.of_filter (view_stop id o.state.shared))
    | move id projectId =>
      exact calm_iff hsound h rfl (by simp)
        (Calm.of_view (view_update_same o.state.shared id fun _ => rfl))
    | answer id requestId complete =>
      cases complete with
      | true => exact answering_iff h id requestId
      | false =>
        refine calm_iff hsound h rfl (by simp) (Calm.of_view ?_)
        exact (view_answer id requestId false o.state.shared).trans (by simp)
    | failure w m =>
      refine calm_iff hsound h rfl (by simp) ?_
      show Calm _ (enter (.failure w m) o.state.shared).1
      rw [enter]
      split
      · exact Calm.of_filter (view_finish _ _ _)
      · exact hstay
    | protocolError w m =>
      refine calm_iff hsound h rfl (by simp) ?_
      show Calm _ (enter (.protocolError w m) o.state.shared).1
      rw [enter]
      split
      · exact Calm.of_filter (view_finish _ _ _)
      · exact hstay
    | closed w =>
      refine calm_iff hsound h rfl (by simp) ?_
      show Calm _ (enter (.closed w) o.state.shared).1
      rw [enter]
      split
      · exact Calm.of_filter (view_finish _ _ _)
      · exact hstay
    | timeout w =>
      refine calm_iff hsound h rfl (by simp) ?_
      show Calm _ (enter (.timeout w) o.state.shared).1
      rw [enter]
      split
      · exact Calm.of_filter (view_stop _ _)
      · exact hstay

/-- In every run, the conversation of a worker that runs a turn always shows whether a question is
open, exactly when turns are announced while no question is open and the questions that are answered
during a turn are the last open ones. -/
theorem status_shown_iff (store : Store) (table : String → Option Submission)
    (es : List (Event Request Input)) :
    Along observe Unhiding ⟨initial store table, []⟩ es ↔
      Along observe (fun o e => (observe o e).Shown) ⟨initial store table, []⟩ es := by
  have hsound : Observed.Sound ⟨initial store table, []⟩ :=
    ⟨⟨fun _ h => (nomatch h), fun _ _ h => (nomatch h), fun _ h => (nomatch h),
      fun _ h => absurd h List.not_mem_nil⟩, fun _ h => absurd h List.not_mem_nil⟩
  exact along_iff_kept (I := Observed.Sound) (J := Observed.Shown) (fun o e h => h.observe e)
    (fun o e hs h => shown_step hs h e) hsound (fun _ hv => nomatch hv) es

/-- A turn in which the worker asks two questions, the first of which is answered. -/
def twoQuestions : List (Event Request Input) :=
  [.arrive (.submit "talk" "first" "Plan the trip." .undefined), .wake 0 (.answered (.ok "")),
    .wake 0 (.answered (.ok "thread")), .wake 0 (.answered (.ok "turn")),
    .arrive (.message 0 (.question "1")), .arrive (.message 0 (.question "2")),
    .arrive (.answer "talk" "1" true)]

/-- The conversation shows that the worker runs on, while the second question is open. -/
theorem second_question_hidden :
    ¬Along observe (fun o e => (observe o e).Shown) ⟨initial oneConversation fun _ => none, []⟩
      twoQuestions := by
  intro h
  have hlast := h.2.2.2.2.2.2.1 ⟨0, "talk", ["2"], "running"⟩ rfl (by decide)
  exact absurd (hlast.1.mpr (by decide)) (by decide)

end ForgeOS.Galaxy.AgentHost
