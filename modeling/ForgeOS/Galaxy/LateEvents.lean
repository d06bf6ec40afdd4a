import ForgeOS.Galaxy.Submissions

/-! What reaches the host from a worker that is no longer the active one, while a later worker of the
same conversation is: which of it the later worker notices. -/

namespace ForgeOS.Galaxy.AgentHost

open ForgeOS.Library.Conditions ForgeOS.Library.Interleaving

/-! ### Late events -/

/-- The worker that a request to the host comes from, with its conversation. -/
def Request.source (s : Shared) : Request → Option (ℕ × String)
  | .message w _ | .failure w _ | .protocolError w _ | .closed w | .timeout w =>
    (s.origin w).map fun origin => (w, origin.1)
  | .submit _ _ _ _ | .answer _ _ _ | .stop _ | .move _ _ => none

/-- The worker that a waiting handler is about, with its conversation. -/
def Task.source (s : Shared) : Task → Option (ℕ × String)
  | .initializing st | .threading st | .turning st | .failing st _ =>
    some (st.worker, st.conversationId)
  | .steering w _ | .closing w => (s.origin w).map fun origin => (w, origin.1)

/-- `P` holds of the later worker, where there is one: another one than the source, active,
unfinished and of the same conversation. -/
def WhenLate (s : Shared) (source : Option (ℕ × String)) (P : String → ℕ → Worker → Prop) : Prop :=
  ∀ w id v worker, source = some (w, id) → s.current = some (v, worker) →
    worker.conversationId = id → worker.finished = false → v ≠ w → P id v worker

/-- The worker is still the active one, with its flags and its open questions as they were, and its
conversation has kept its status, its thread and its turn. -/
def Kept (s s' : Shared) (id : String) (v : ℕ) (worker : Worker) : Prop :=
  s'.active = some v ∧ s'.workers v = some worker ∧
    s'.store.conversations id = s.store.conversations id

/-- What comes from an earlier worker leaves the later one alone. -/
def Spares (s : State Shared Task) (e : Event Request Input) : Prop :=
  let s' := (server.step s e).shared
  match e with
  | .arrive r => WhenLate s.shared (r.source s.shared) (Kept s.shared s')
  | .wake k _ =>
    ∀ t, s.waiting[k]? = some t → WhenLate s.shared (t.source s.shared) (Kept s.shared s')
  | .restart => True

/-! ### Which of them are harmless -/

/-- Messages that change nothing: `handle` has no branch for them, they name another thread, or what
they set is set already. -/
def Message.harmless (c : Option Conversation) (worker : Worker) : Message → Prop
  | .question requestId => requestId ∈ worker.approvals ∧ ∀ x ∈ c, x.status = "waiting"
  | .turnStarted threadId turnId =>
    foreign threadId c = true ∨ ∀ x ∈ c, x.status = "running" ∧ x.turnId = some turnId
  | .resolved threadId requestId =>
    foreign threadId c = true ∨
      requestId ∉ worker.approvals ∧ (worker.approvals = [] → ∀ x ∈ c, x.status = "running")
  | .turnCompleted threadId _ => foreign threadId c = true
  | .otherRequest | .otherNotice _ => True

def Request.harmless (s : Shared) (id : String) (worker : Worker) : Request → Prop
  | .message _ m => m.harmless (s.store.conversations id) worker
  | .failure _ _ | .protocolError _ _ => False
  | _ => True

def Task.harmless (s : Shared) (id : String) : Task → Input → Prop
  | .threading _, .answered (.ok threadId) =>
    ∀ x ∈ s.store.conversations id, x.threadId = some threadId
  | .turning _, .answered (.ok turnId) =>
    ∀ x ∈ s.store.conversations id, x.status = "running" ∧ x.turnId = some turnId
  | .failing _ _, .turn => False
  | _, _ => True

/-- What comes from an earlier worker is harmless to the later one. -/
def LateHarmless : Condition Shared Task Request Input where
  enter r s _ := WhenLate s (r.source s) fun id _ worker => r.harmless s id worker
  resume t x s _ := WhenLate s (t.source s) fun id _ _ => t.harmless s id x

/-! ### The later worker notices the rest -/

theorem map_eq_self_iff {c : Option Conversation} {f : Conversation → Conversation} :
    c.map f = c ↔ ∀ x ∈ c, f x = x := by
  cases c <;> simp

theorem status_eq_iff {c : Conversation} {status : String} :
    ({ c with status := status } : Conversation) = c ↔ c.status = status := by
  constructor
  · intro h
    exact (congrArg Conversation.status h).symm
  · intro h
    rw [← h]

theorem turn_eq_iff {c : Conversation} {turnId : String} :
    ({ c with status := "running", turnId := some turnId } : Conversation) = c ↔
      c.status = "running" ∧ c.turnId = some turnId := by
  constructor
  · intro h
    exact ⟨(congrArg Conversation.status h).symm, (congrArg Conversation.turnId h).symm⟩
  · rintro ⟨hstatus, hturn⟩
    rw [← hstatus, ← hturn]

theorem thread_eq_iff {c : Conversation} {threadId : String} :
    ({ c with threadId := some threadId } : Conversation) = c ↔ c.threadId = some threadId := by
  constructor
  · intro h
    exact (congrArg Conversation.threadId h).symm
  · intro h
    rw [← h]

theorem kept_refl {s : Shared} {id : String} {v : ℕ} {worker : Worker}
    (hcurrent : s.current = some (v, worker)) : Kept s s id v worker :=
  ⟨(current_eq_some hcurrent).1, (current_eq_some hcurrent).2, rfl⟩

/-- An update of the conversation is noticed unless it sets what is set. -/
theorem kept_update {s : Shared} {id : String} {v : ℕ} {worker : Worker}
    (hcurrent : s.current = some (v, worker)) (f : Conversation → Conversation) :
    Kept s (s.update id f) id v worker ↔ ∀ x ∈ s.store.conversations id, f x = x := by
  obtain ⟨hactive, hworker⟩ := current_eq_some hcurrent
  have hstore : (s.update id f).store.conversations id = (s.store.conversations id).map f :=
    s.store.update_self id f
  rw [Kept, hstore, map_eq_self_iff]
  exact ⟨fun h => h.2.2, fun h => ⟨hactive, hworker, h⟩⟩

theorem workers_setWorker {s : Shared} {v : ℕ} {worker : Worker}
    (hcurrent : s.current = some (v, worker)) (f : Worker → Worker) :
    (s.setWorker v f).workers v = some (f worker) := by
  simp [Shared.setWorker, (current_eq_some hcurrent).2]

/-- A worker that is finished notices it. -/
theorem not_kept_finish (s s' : Shared) {id status : String} {v : ℕ} {worker : Worker}
    (hcurrent : s'.current = some (v, worker)) (hid : worker.conversationId = id)
    (hopen : worker.finished = false) : ¬Kept s (finish id status s').1 id v worker := by
  rcases finish_cases id status s' with ⟨-, hserves⟩ | ⟨w, other, hother, -, -, h⟩
  · rw [Shared.serves, hcurrent] at hserves
    simp [hid, hopen] at hserves
  · rw [hcurrent, Option.some.injEq, Prod.mk.injEq] at hother
    obtain ⟨rfl, rfl⟩ := hother
    rw [h]
    rintro ⟨-, hworker, -⟩
    have hfinished : (s'.setWorker v ({ · with finished := true })).workers v = some worker :=
      hworker
    rw [workers_setWorker hcurrent, Option.some.injEq] at hfinished
    have hflag := congrArg Worker.finished hfinished
    rw [hopen] at hflag
    cases hflag

theorem kept_handle {s : Shared} {id : String} {v : ℕ} {worker : Worker}
    (hcurrent : s.current = some (v, worker)) (hid : worker.conversationId = id)
    (hopen : worker.finished = false) (m : Message) :
    Kept s (handle id m s).1 id v worker ↔ m.harmless (s.store.conversations id) worker := by
  obtain ⟨hactive, hworker⟩ := current_eq_some hcurrent
  have hguard : (decide (worker.conversationId ≠ id) || worker.finished) = false := by
    simp [hid, hopen]
  have happrovals : ∀ approvals, ({ worker with approvals := approvals } : Worker) = worker ↔
      approvals = worker.approvals := by
    intro approvals
    constructor
    · exact congrArg Worker.approvals
    · rintro rfl
      rfl
  have hsetWorker : ∀ approvals (f : Conversation → Conversation),
      Kept s ((s.setWorker v ({ · with approvals := approvals })).update id f) id v worker ↔
        approvals = worker.approvals ∧ ∀ x ∈ s.store.conversations id, f x = x := by
    intro approvals f
    have hworkers : ((s.setWorker v ({ · with approvals := approvals })).update id f).workers v =
        some { worker with approvals := approvals } := workers_setWorker hcurrent _
    have hstore : ((s.setWorker v ({ · with approvals := approvals })).update id
        f).store.conversations id = (s.store.conversations id).map f := s.store.update_self id f
    rw [Kept, hworkers, hstore, Option.some.injEq, happrovals, map_eq_self_iff]
    exact ⟨fun h => h.2, fun h => ⟨hactive, h⟩⟩
  rw [handle, hcurrent]
  dsimp only
  rw [hguard]
  cases m with
  | otherRequest => exact iff_of_true (kept_refl hcurrent) trivial
  | otherNotice threadId => exact iff_of_true (kept_refl hcurrent) trivial
  | question requestId =>
    refine (hsetWorker _ _).trans (and_congr ?_ (forall₂_congr fun _ _ => status_eq_iff))
    by_cases hmem : requestId ∈ worker.approvals
    · simp [hmem]
    · refine iff_of_false (fun h => ?_) hmem
      have hlength := congrArg List.length h
      rw [List.length_insert_of_not_mem hmem] at hlength
      omega
  | turnStarted threadId turnId =>
    simp only [Bool.false_eq_true, if_false]
    split
    · next hforeign => exact iff_of_true (kept_refl hcurrent) (.inl hforeign)
    · next hown =>
      rw [Message.harmless, or_iff_right hown]
      exact (kept_update hcurrent _).trans (forall₂_congr fun _ _ => turn_eq_iff)
  | turnCompleted threadId status =>
    simp only [Bool.false_eq_true, if_false]
    split
    · next hforeign => exact iff_of_true (kept_refl hcurrent) hforeign
    · next hown => exact iff_of_false (not_kept_finish s s hcurrent hid hopen) hown
  | resolved threadId requestId =>
    simp only [Bool.false_eq_true, if_false]
    split
    · next hforeign => exact iff_of_true (kept_refl hcurrent) (.inl hforeign)
    · next hown =>
      rw [Message.harmless, or_iff_right hown]
      have herase : worker.approvals.erase requestId = worker.approvals ↔
          requestId ∉ worker.approvals := List.erase_eq_self_iff
      split
      · next hempty =>
        rw [hsetWorker, herase]
        refine and_congr_right fun hmem => ?_
        rw [herase.mpr hmem] at hempty
        simp only [hempty, true_imp_iff]
        exact forall₂_congr fun _ _ => status_eq_iff
      · next hsome =>
        have hkept : Kept s (s.setWorker v
            ({ · with approvals := worker.approvals.erase requestId })) id v worker ↔
              worker.approvals.erase requestId = worker.approvals := by
          rw [Kept, workers_setWorker hcurrent, Option.some.injEq, happrovals]
          exact ⟨fun h => h.2.1, fun h => ⟨hactive, h, rfl⟩⟩
        rw [hkept, herase]
        refine ⟨fun hmem => ⟨hmem, fun hempty => ?_⟩, fun h => h.1⟩
        rw [hempty] at hsome
        exact absurd rfl hsome

/-- An earlier worker is finished. -/
theorem Staffed.earlier {s : Shared} {ts : List Task} (h : Staffed s ts) {w v : ℕ} {worker : Worker}
    {origin : String × Bool} (hcurrent : s.current = some (v, worker)) (hne : v ≠ w)
    (horigin : s.origin w = some origin) : origin.2 = true := by
  obtain ⟨id, finished⟩ := origin
  cases finished with
  | true => rfl
  | false =>
    have hactive := h.single w id horigin
    rw [(current_eq_some hcurrent).1, Option.some.injEq] at hactive
    exact absurd hactive hne

theorem spares_arrive {s : Shared} {ts : List Task} (h : Staffed s ts) (r : Request) :
    WhenLate s (r.source s) (fun id _ worker => r.harmless s id worker) ↔
      WhenLate s (r.source s) (Kept s (enter r s).1) := by
  refine forall₄_congr fun w id v worker => ?_
  refine forall_congr' fun hsource => forall_congr' fun hcurrent => forall_congr' fun hid =>
    forall₂_congr fun hopen hne => ?_
  have horigin : ∀ {w' : ℕ}, (s.origin w').map (fun origin => (w', origin.1)) = some (w, id) →
      w' = w ∧ s.origin w' = some (id, true) := by
    intro w' hmap
    obtain ⟨origin, ho, hpair⟩ := Option.map_eq_some_iff.mp hmap
    rw [Prod.mk.injEq] at hpair
    obtain ⟨rfl, rfl⟩ := hpair
    exact ⟨rfl, by rw [ho, ← h.earlier hcurrent hne ho]⟩
  cases r with
  | submit id submissionId text style => cases hsource
  | answer id requestId complete => cases hsource
  | stop id => cases hsource
  | move id projectId => cases hsource
  | message w' m =>
    rw [enter, (horigin hsource).2]
    exact (kept_handle hcurrent hid hopen m).symm
  | failure w' m =>
    rw [enter, (horigin hsource).2]
    exact iff_of_false (fun h => h) (not_kept_finish s s hcurrent hid hopen)
  | protocolError w' m =>
    rw [enter, (horigin hsource).2]
    exact iff_of_false (fun h => h) (not_kept_finish s s hcurrent hid hopen)
  | closed w' =>
    rw [enter, (horigin hsource).2]
    exact iff_of_true trivial (kept_refl hcurrent)
  | timeout w' =>
    rw [enter, (horigin hsource).2]
    exact iff_of_true trivial (kept_refl hcurrent)

theorem spares_wake {s : Shared} (t : Task) (x : Input) :
    WhenLate s (t.source s) (fun id _ _ => t.harmless s id x) ↔
      WhenLate s (t.source s) (Kept s (resume t x s).1) := by
  refine forall₄_congr fun w id v worker => ?_
  refine forall_congr' fun hsource => forall_congr' fun hcurrent => forall_congr' fun hid =>
    forall₂_congr fun hopen hne => ?_
  have hstay : Kept s s id v worker := kept_refl hcurrent
  have hserves : s.serves id = true := by
    rw [Shared.serves, hcurrent]
    simp [hid, hopen]
  cases t with
  | initializing st =>
    cases x with
    | turn => exact iff_of_true trivial hstay
    | answered result => cases result <;> exact iff_of_true trivial hstay
  | threading st =>
    cases x with
    | turn => exact iff_of_true trivial hstay
    | answered result =>
      cases result with
      | error m => exact iff_of_true trivial hstay
      | ok threadId =>
        rw [Task.source, Option.some.injEq, Prod.mk.injEq] at hsource
        rw [resume, hsource.2, if_pos hserves]
        exact ((kept_update hcurrent _).trans (forall₂_congr fun _ _ => thread_eq_iff)).symm
  | turning st =>
    cases x with
    | turn => exact iff_of_true trivial hstay
    | answered result =>
      cases result with
      | error m => exact iff_of_true trivial hstay
      | ok turnId =>
        rw [Task.source, Option.some.injEq, Prod.mk.injEq] at hsource
        rw [resume, hsource.2, if_pos hserves]
        refine ((kept_update hcurrent _).trans (forall₂_congr fun _ _ => ?_)).symm
        exact turn_eq_iff
  | failing st m =>
    cases x with
    | answered result => exact iff_of_true trivial hstay
    | turn =>
      rw [Task.source, Option.some.injEq, Prod.mk.injEq] at hsource
      rw [resume, hsource.2]
      exact iff_of_false (fun h => h) (not_kept_finish s
        (s.setSubmission st.submissionId .uncertain) hcurrent hid hopen)
  | steering w' submissionId =>
    cases x with
    | turn => exact iff_of_true trivial hstay
    | answered result => cases result <;> exact iff_of_true trivial hstay
  | closing w' =>
    cases x with
    | answered result => exact iff_of_true trivial hstay
    | turn =>
      obtain ⟨origin, -, hpair⟩ := Option.map_eq_some_iff.mp hsource
      rw [Prod.mk.injEq] at hpair
      have hactive := (current_eq_some hcurrent).1
      refine iff_of_true trivial ⟨?_, hstay.2⟩
      show (if s.active = some w' then none else s.active) = some v
      rw [hactive, if_neg (by rw [hpair.1, Option.some.injEq]; exact hne)]

/-- In every run: nothing that comes from an earlier worker touches a later worker of the same
conversation, exactly when all that comes from an earlier worker while a later one is unfinished is
harmless. -/
theorem late_events_spare (store : Store) (table : String → Option Submission)
    (es : List (Event Request Input)) :
    Along server.step LateHarmless.At (initial store table) es ↔
      Along server.step Spares (initial store table) es := by
  have hinit : Staffed (initial store table).shared (initial store table).waiting :=
    ⟨fun _ h => (nomatch h), fun _ _ h => (nomatch h), fun _ h => (nomatch h),
      fun _ h => absurd h List.not_mem_nil⟩
  refine along_congr (I := fun s => Staffed s.shared s.waiting)
    (fun s e h => staffed_invariant.step h (at_always s e)) (fun s e h => ?_) hinit es
  cases e with
  | arrive r => exact spares_arrive h r
  | restart => exact Iff.rfl
  | wake k x =>
    simp only [Condition.At, Spares, Server.step]
    cases hk : s.waiting[k]? with
    | none => simp
    | some t =>
      simp only [Option.some.injEq, forall_eq']
      exact spares_wake t x

/-- A first message, its worker stopped while it starts, and a second message; then the first
worker's request to initialize is rejected since its process has ended. -/
def stoppedWhileStarting : List (Event Request Input) :=
  [.arrive (.submit "talk" "first" "What is this?" .undefined), .arrive (.stop "talk"),
    .wake 0 .turn, .arrive (.submit "talk" "second" "And this?" .undefined),
    .wake 1 (.answered (.error "Codex connection closed.")), .wake 0 .turn]

/-- The rejection finishes the worker of the second message. -/
theorem late_rejection_finishes :
    ¬Along server.step Spares (initial oneConversation fun _ => none) stoppedWhileStarting := by
  intro h
  have hlast := h.2.2.2.2.2.1 (.failing ⟨0, "talk",
    ⟨"notes", none, "/notes", .explore, "idle", none⟩, "What is this?", "first"⟩
    "Codex connection closed.") (by decide) 0 "talk" 1 ⟨"talk", false, true, []⟩ rfl (by decide) rfl
    rfl (by decide)
  exact absurd hlast.2.1 (by decide)

end ForgeOS.Galaxy.AgentHost
