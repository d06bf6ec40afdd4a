import Mathlib.Data.List.Count
import ForgeOS.Galaxy.ImportLocks

/-! The move of a conversation into a draft: by the draft route, by the report route and by the tool of
a worker. Each asks for the mode, waits while the folder is copied and writes workspace and mode after
that. -/

namespace ForgeOS.Galaxy.Drafts

open ForgeOS.Library.Conditions ForgeOS.Library.Interleaving ForgeOS.Library.NamedLocks
open ImportLocks (Lock)

/-! ### State -/

/-- The routes with their host and locks, and `busy` of the document tools. -/
structure Shared where
  routes : ImportLocks.Shared
  busy : Bool

/-- A handler of the other routes; the draft or the report route before its body, with the conversation
and the kind of the project it has read; `createDraft` for a route; `createDraft` for
`workspace_prepare_report`; `workspace_read`. -/
inductive Task
  | routes (t : ImportLocks.Task)
  | action (id : String) (c : Conversation) (kind : ProjectKind)
  | drafting (id root : String)
  | preparing (id root : String)
  | reading

/-- The directory that `createDraft` is going to make. -/
inductive Action
  | draft (root : String)
  | report (root : String)
  deriving DecidableEq, Repr

inductive Input
  | routes (x : ImportLocks.Input)
  | action (a : Action)
  | committed
  | failed
  deriving DecidableEq, Repr

inductive Request
  | routes (r : ImportLocks.Request)
  | action (id : String)
  | prepare (id root : String)
  | read (id : String)
  deriving DecidableEq, Repr

def Shared.host (s : Shared) : AgentHost.Shared := s.routes.host

def Shared.conversation (s : Shared) (id : String) : Option Conversation :=
  s.host.store.conversations id

/-- What a handler holds from the step that takes it to its end. -/
def Task.holds : Task → List Lock
  | .routes t => t.holds
  | .drafting id _ => [.conversation id]
  | _ => []

/-! ### Handlers -/

def Shared.onRoutes (s : Shared) (out : ImportLocks.Shared × List ImportLocks.Task) :
    Shared × List Task := ({ s with routes := out.1 }, out.2.map .routes)

/-- The conversation moves into its draft. -/
def Shared.enterDraft (s : Shared) (id root : String) : Shared :=
  { s with routes := { s.routes with
    host := s.host.update id ({ · with workspace := root, mode := .draft }) } }

/-- The lock of the conversation is taken, and `createDraft` runs up to its wait. -/
def createDraft (id root : String) (s : Shared) : Shared × List Task :=
  ({ s with routes := { s.routes with locks := .conversation id :: s.routes.locks } },
    [.drafting id root])

def Shared.release (s : Shared) (t : Task) : Shared :=
  { s with routes := { s.routes with locks := s.routes.locks.filter (· ∉ t.holds) } }

/-- What the routes of a conversation ask before they change its workspace: no worker of it, none of
its locks. -/
def idle (s : Shared) (id projectId : String) : Bool :=
  !s.host.current.any (fun active => active.2.conversationId = id) &&
    !s.routes.locks.contains (.conversation id) &&
    !s.routes.locks.contains (.project (some projectId))

/-- The draft route asks the conversation it has read before its body, the report route reads it
again. -/
def action (id : String) (c : Conversation) (kind : ProjectKind) (a : Action) (s : Shared) :
    Shared × List Task :=
  if kind = .system ∨ !idle s id c.projectId then (s, [])
  else
    match a with
    | .draft root => if kind.assisted ∨ c.mode = .draft then (s, []) else createDraft id root s
    | .report root =>
      match s.conversation id with
      | some now => if now.mode = .draft then (s, []) else createDraft id root s
      | none => (s, [])

/-- The document tools take a call of the active worker, one at a time. -/
def admits (s : Shared) (id : String) : Bool :=
  !s.busy && s.host.serves id &&
    ((s.conversation id).bind fun c => s.host.store.projects c.projectId).any fun p =>
      p.kind == .folder || p.kind == .onedrive

/-- `prepareReport` for a tool, which holds no lock. -/
def prepare (id root : String) (s : Shared) : Shared × List Task :=
  if admits s id && s.host.current.any (·.2.documentWrites) then
    match s.conversation id with
    | some c => if c.mode = .draft then (s, []) else ({ s with busy := true }, [.preparing id root])
    | none => (s, [])
  else (s, [])

def enter : Request → Shared → Shared × List Task
  | .routes r, s => s.onRoutes (ImportLocks.enter r s.routes)
  | .action id, s =>
    match s.conversation id with
    | none => (s, [])
    | some c =>
      match s.host.store.projects c.projectId with
      | none => (s, [])
      | some p => (s, [.action id c p.kind])
  | .prepare id root, s => prepare id root s
  | .read id, s => if admits s id then ({ s with busy := true }, [.reading]) else (s, [])

/-- A handler that is given something else than it waits for goes on waiting. -/
def resume : Task → Input → Shared → Shared × List Task
  | .routes t, .routes x, s => s.onRoutes (ImportLocks.resume t x s.routes)
  | .action id c kind, .action a, s => action id c kind a s
  | .action _ _ _, .failed, s => (s, [])
  | .drafting id root, .committed, s =>
    ((s.enterDraft id root).release (.drafting id root), [])
  | .drafting id root, .failed, s => (s.release (.drafting id root), [])
  | .preparing id root, .committed, s => ({ s.enterDraft id root with busy := false }, [])
  | .preparing _ _, .failed, s | .reading, .committed, s | .reading, .failed, s =>
    ({ s with busy := false }, [])
  | task, _, s => (s, [task])

def restart (s : Shared) : Shared := ⟨ImportLocks.restart s.routes, false⟩

def server : Server Shared Task Request Input := ⟨enter, resume, restart, fun _ => false⟩

/-- A server that has just been started, with the tables as it finds them. -/
def initial (store : Store) (table : String → Option AgentHost.Submission) : State Shared Task :=
  ⟨⟨(ImportLocks.initial store table).shared, false⟩, []⟩

/-! ### What the host leaves alone -/

section Host

open AgentHost (Message SameWorkers sameWorkers_update sameWorkers_reply sameWorkers_send
  sameWorkers_setSubmission sameWorkers_approvals)

/-- The workspace of a conversation and its mode. -/
def place (s : AgentHost.Shared) (id : String) : Option (String × Mode) :=
  (s.store.conversations id).map fun c => (c.workspace, c.mode)

/-- Conversations stay where they are, and no other worker is active afterwards. -/
structure Leaves (s s' : AgentHost.Shared) : Prop where
  place : ∀ id, place s' id = place s id
  serves : ∀ id, s'.serves id → s.serves id

variable {s s' t : AgentHost.Shared}

theorem Leaves.refl (s : AgentHost.Shared) : Leaves s s := ⟨fun _ => rfl, fun _ h => h⟩

theorem Leaves.trans (h : Leaves s s') (h' : Leaves s' t) : Leaves s t :=
  ⟨fun id => (h'.place id).trans (h.place id), fun id hid => h.serves id (h'.serves id hid)⟩

theorem serves_iff (s : AgentHost.Shared) (id : String) :
    s.serves id ↔ ∃ w, s.active = some w ∧ s.origin w = some (id, false) := by
  constructor
  · intro h
    rw [AgentHost.Shared.serves] at h
    split at h
    · next w worker hcurrent =>
      rw [Bool.and_eq_true, decide_eq_true_eq, Bool.not_eq_true'] at h
      refine ⟨w, (AgentHost.current_eq_some hcurrent).1, ?_⟩
      rw [AgentHost.origin_of_current hcurrent, h.1, h.2]
    · cases h
  · rintro ⟨w, hactive, horigin⟩
    obtain ⟨worker, hworker, heq⟩ := Option.map_eq_some_iff.mp horigin
    rw [Prod.mk.injEq] at heq
    simp [AgentHost.Shared.serves, AgentHost.Shared.current, hactive, hworker, heq]

theorem serves_of_same (h : SameWorkers s s') (id : String) : s'.serves id ↔ s.serves id := by
  rw [serves_iff, serves_iff, h.active]
  simp only [h.origin]

theorem leaves_of_same (hstore : s'.store = s.store) (h : SameWorkers s s') : Leaves s s' :=
  ⟨fun id => by rw [place, place, hstore], fun id => (serves_of_same h id).mp⟩

theorem place_update (s : AgentHost.Shared) (id : String) {f : Conversation → Conversation}
    (hf : ∀ c, (f c).workspace = c.workspace ∧ (f c).mode = c.mode) (other : String) :
    place (s.update id f) other = place s other := by
  by_cases h : other = id
  · rw [h, place, AgentHost.Shared.update, Store.update_self, Option.map_map, place]
    congr 1
    funext c
    rw [Function.comp_apply, (hf c).1, (hf c).2]
  · rw [place, AgentHost.Shared.update, Store.update_other _ h, place]

theorem leaves_update (s : AgentHost.Shared) (id : String) {f : Conversation → Conversation}
    (hf : ∀ c, (f c).workspace = c.workspace ∧ (f c).mode = c.mode) : Leaves s (s.update id f) :=
  ⟨place_update s id hf, fun other => (serves_of_same (sameWorkers_update s id f) other).mp⟩

theorem leaves_approvals (s : AgentHost.Shared) (w : ℕ) (f : AgentHost.Worker → List String) :
    Leaves s (s.setWorker w fun worker => { worker with approvals := f worker }) :=
  leaves_of_same rfl (sameWorkers_approvals s w f)

theorem leaves_send (s : AgentHost.Shared) (m : AgentHost.Sent) : Leaves s (s.send m) :=
  leaves_of_same rfl (sameWorkers_send s m)

theorem leaves_reply (s : AgentHost.Shared) (id : String)
    (answer : Except String AgentHost.Answer) : Leaves s (s.reply id answer) :=
  leaves_of_same rfl (sameWorkers_reply s id answer)

theorem leaves_setSubmission (s : AgentHost.Shared) (id : String)
    (state : AgentHost.SubmissionState) : Leaves s (s.setSubmission id state) :=
  leaves_of_same rfl (sameWorkers_setSubmission s id state)

theorem leaves_finish (id status : String) (s : AgentHost.Shared) :
    Leaves s (AgentHost.finish id status s).1 := by
  rcases AgentHost.finish_cases id status s with ⟨h, -⟩ | ⟨w, worker, hcurrent, -, -, h⟩
  · rw [h]
    exact .refl s
  · rw [h]
    refine ⟨place_update (s.setWorker w _) id
      (f := ({ · with status := status, turnId := none })) fun _ => ⟨rfl, rfl⟩,
      fun other hserves => ?_⟩
    -- the active worker is finished now, so nobody is served
    obtain ⟨v, hactive, horigin⟩ := (serves_iff _ _).mp hserves
    have hv : v = w := Option.some.inj (hactive.symm.trans (AgentHost.current_eq_some hcurrent).1)
    have hfinished : (s.setWorker w ({ · with finished := true })).origin v = some (other, false) :=
      horigin
    rw [AgentHost.origin_setWorker, if_pos hv, (AgentHost.current_eq_some hcurrent).2] at hfinished
    cases hfinished

theorem leaves_stop (id : String) (s : AgentHost.Shared) : Leaves s (AgentHost.stop id s).1 := by
  rw [AgentHost.stop]
  split
  · split
    · exact .refl s
    · refine Leaves.trans ?_ (leaves_finish id "interrupted" _)
      have hstopping := leaves_update s id (f := ({ · with status := "stopping" }))
        fun _ => ⟨rfl, rfl⟩
      split
      · exact hstopping
      · exact hstopping.trans (leaves_send _ _)
  · exact .refl s

theorem leaves_handle (id : String) (m : Message) (s : AgentHost.Shared) :
    Leaves s (AgentHost.handle id m s).1 := by
  rw [AgentHost.handle]
  split
  · next w worker _ =>
    split
    · exact .refl s
    · cases m with
      | question requestId =>
        exact (leaves_approvals s w _).trans (leaves_update _ id fun _ => ⟨rfl, rfl⟩)
      | otherRequest => exact .refl s
      | otherNotice threadId => exact .refl s
      | turnStarted threadId turnId =>
        dsimp only
        split
        · exact .refl s
        · exact leaves_update s id fun _ => ⟨rfl, rfl⟩
      | resolved threadId requestId =>
        dsimp only
        split
        · exact .refl s
        · have hsettled := leaves_approvals s w fun _ => worker.approvals.erase requestId
          split
          · exact hsettled.trans (leaves_update _ id fun _ => ⟨rfl, rfl⟩)
          · exact hsettled
      | turnCompleted threadId status =>
        dsimp only
        split
        · exact .refl s
        · exact leaves_finish id _ s
  · exact .refl s

theorem leaves_answer (id requestId : String) (complete : Bool) (s : AgentHost.Shared) :
    Leaves s (AgentHost.answer id requestId complete s).1 := by
  rw [AgentHost.answer]
  split
  · next w worker _ =>
    split
    · exact .refl s
    · have hsettled := (leaves_send s (.answer w requestId)).trans
        (leaves_approvals _ w fun _ => worker.approvals.erase requestId)
      exact hsettled.trans (leaves_update _ id fun _ => ⟨rfl, rfl⟩)
  · exact .refl s

/-- The host is asked for anything but a message. -/
theorem leaves_enter {r : AgentHost.Request} (hr : ImportLocks.routed r) (s : AgentHost.Shared) :
    Leaves s (AgentHost.enter r s).1 := by
  cases r with
  | submit id submissionId text style => cases hr
  | move id projectId => cases hr
  | answer id requestId complete => exact leaves_answer id requestId complete s
  | stop id => exact leaves_stop id s
  | message w m =>
    rw [AgentHost.enter]
    split
    · exact leaves_handle _ m s
    · exact .refl s
  | failure w m =>
    rw [AgentHost.enter]
    split
    · exact leaves_finish _ _ s
    · exact .refl s
  | protocolError w m =>
    rw [AgentHost.enter]
    split
    · exact leaves_finish _ _ s
    · exact .refl s
  | closed w =>
    rw [AgentHost.enter]
    split
    · exact leaves_finish _ _ s
    · exact .refl s
  | timeout w =>
    rw [AgentHost.enter]
    split
    · exact leaves_stop _ s
    · exact .refl s

theorem leaves_resume (t : AgentHost.Task) (x : AgentHost.Input) (s : AgentHost.Shared) :
    Leaves s (AgentHost.resume t x s).1 := by
  unfold AgentHost.resume
  split
  · exact leaves_send s _
  · exact .refl s
  · next st threadId =>
    split
    · have hthread := leaves_update s st.conversationId (f := ({ · with threadId := some threadId }))
        fun _ => ⟨rfl, rfl⟩
      exact hthread.trans (leaves_send _ _)
    · exact .refl s
  · exact .refl s
  · next st turnId =>
    have haccepted := leaves_setSubmission s st.submissionId .accepted
    dsimp only
    split
    · exact haccepted.trans (leaves_update _ _ fun _ => ⟨rfl, rfl⟩)
    · exact haccepted
  · exact .refl s
  · exact (leaves_setSubmission s _ _).trans (leaves_finish _ _ _)
  · exact (leaves_setSubmission s _ _).trans (leaves_reply _ _ _)
  · exact (leaves_setSubmission s _ _).trans (leaves_reply _ _ _)
  · next w =>
    -- the worker is no longer the active one
    refine ⟨fun _ => rfl, fun id hid => ?_⟩
    obtain ⟨v, hactive, horigin⟩ := (serves_iff _ _).mp hid
    refine (serves_iff _ _).mpr ⟨v, ?_, horigin⟩
    dsimp only at hactive
    split at hactive
    · cases hactive
    · exact hactive
  · exact .refl s

/-- A message makes a worker active for its own conversation at most. -/
theorem leaves_submit (id submissionId text : String) (style : Js) (s : AgentHost.Shared) :
    (∀ other, place (AgentHost.submit id submissionId text style s).1 other = place s other) ∧
      ∀ other, (AgentHost.submit id submissionId text style s).1.serves other →
        s.serves other ∨ other = id := by
  have hleaves : ∀ {s'}, Leaves s s' → (∀ other, place s' other = place s other) ∧
      ∀ other, s'.serves other → s.serves other ∨ other = id :=
    fun h => ⟨h.place, fun other hother => .inl (h.serves other hother)⟩
  rcases AgentHost.submit_cases id submissionId text style s with
    ⟨answer, h⟩ | ⟨-, request, c, st, h⟩
  · rw [h]
    exact hleaves (leaves_reply _ _ _)
  · rw [h, AgentHost.submitNew]
    split
    · split
      · exact hleaves (leaves_reply _ _ _)
      · exact hleaves (leaves_of_same rfl ⟨rfl, fun _ => rfl, rfl⟩)
    · refine ⟨place_update _ _ fun _ => ⟨rfl, rfl⟩, fun other hserves => .inr ?_⟩
      obtain ⟨v, hactive, horigin⟩ := (serves_iff _ _).mp hserves
      have hv : v = s.nextWorker := (Option.some.inj hactive).symm
      rw [hv] at horigin
      simp [AgentHost.launch, AgentHost.Shared.origin, AgentHost.Shared.send,
        AgentHost.Shared.reply, AgentHost.insertSubmission] at horigin
      exact horigin.symm

theorem leaves_restart (s : AgentHost.Shared) : Leaves s (AgentHost.restart s) := by
  refine ⟨fun id => ?_, fun id hid => ?_⟩
  · show ((s.store.conversations id).map Store.interrupted).map _ = _
    rw [Option.map_map, place]
    congr 1
    funext c
    rw [Function.comp_apply, Store.interrupted]
    split <;> rfl
  · obtain ⟨w, hactive, -⟩ := (serves_iff _ _).mp hid
    cases hactive

end Host

theorem addMeeting_conversations {st st' : Store} {pid path : String}
    (h : st.addMeeting pid path = some st') : st'.conversations = st.conversations := by
  rw [Store.addMeeting] at h
  split at h
  · split at h
    · cases h
      rfl
    · cases h
  · cases h
    rfl

theorem leaves_brief (id pid : String) (s : ImportLocks.Shared) :
    Leaves s.host (ImportLocks.brief id pid s).host := by
  rw [ImportLocks.brief]
  split
  · exact .refl _
  · split
    · exact .refl _
    · split
      · split
        · next st hst =>
          have hstore : Leaves s.host { s.host with store := st } :=
            ⟨fun other => by rw [place, place, addMeeting_conversations hst],
              fun other => (serves_of_same ⟨rfl, fun _ => rfl, rfl⟩ other).mp⟩
          exact hstore.trans (leaves_update _ id (f := ({ · with projectId := pid }))
            fun _ => ⟨rfl, rfl⟩)
        · exact .refl _
      · exact .refl _

theorem leaves_routes_enter (r : ImportLocks.Request) (s : ImportLocks.Shared) :
    Leaves s.host (ImportLocks.enter r s).1.host := by
  cases r with
  | message id =>
    simp only [ImportLocks.enter]
    split
    · exact .refl _
    · split <;> exact .refl _
  | collect target =>
    rw [ImportLocks.enter, ImportLocks.collect]
    split <;> exact .refl _
  | work key =>
    rw [ImportLocks.enter, ImportLocks.work]
    split <;> exact .refl _
  | brief id pid => exact leaves_brief id pid s
  | host r =>
    simp only [ImportLocks.enter]
    split
    · next hr => exact leaves_enter hr s.host
    · exact .refl _

/-- A message goes to the host only while the lock of its conversation is free. -/
theorem leaves_routes_resume (t : ImportLocks.Task) (x : ImportLocks.Input)
    (s : ImportLocks.Shared) :
    (∀ id, place (ImportLocks.resume t x s).1.host id = place s.host id) ∧
      ∀ id, (ImportLocks.resume t x s).1.host.serves id →
        s.host.serves id ∨ Lock.conversation id ∉ s.locks := by
  have hleaves : ∀ {s' : ImportLocks.Shared}, Leaves s.host s'.host →
      (∀ id, place s'.host id = place s.host id) ∧
        ∀ id, s'.host.serves id → s.host.serves id ∨ Lock.conversation id ∉ s.locks :=
    fun h => ⟨h.place, fun id hid => .inl (h.serves id hid)⟩
  unfold ImportLocks.resume
  split
  · split
    · split <;> exact hleaves (.refl _)
    · exact hleaves (.refl _)
  · next id projectId kind text submissionId style compatible =>
    split
    · next hclear =>
      have hsubmit := leaves_submit (s := s.host) id submissionId text style
      refine ⟨hsubmit.1, fun other hother => (hsubmit.2 other hother).imp_right fun hid => ?_⟩
      rw [hid]
      simp only [ImportLocks.clear, Bool.and_eq_true, Bool.not_eq_true'] at hclear
      simpa using hclear.1.1.2
    · exact hleaves (.refl _)
  · exact hleaves (.refl _)
  · exact hleaves (.refl _)
  · exact hleaves (leaves_resume _ _ _)
  · exact hleaves (.refl _)

/-! ### Drafts that are being made -/

/-- The conversation that a `createDraft` is for. -/
def Task.drafts : Task → Option String
  | .drafting id _ | .preparing id _ => some id
  | _ => none

/-- The call of a document tool. -/
def Task.tool : Task → Bool
  | .preparing _ _ | .reading => true
  | _ => false

/-- Drafts are made of different conversations that have none yet, by a route only while its
conversation has no worker, and by one tool at most. -/
structure Calm (s : Shared) (ts : List Task) : Prop where
  locked : Held Task.holds s.routes.locks ts
  explores : ∀ t ∈ ts, ∀ id ∈ t.drafts, ∀ w, place s.host id ≠ some (w, .draft)
  nodup : (ts.filterMap Task.drafts).Nodup
  unserved : ∀ id root, .drafting id root ∈ ts → ¬s.host.serves id
  tools : ts.countP Task.tool ≤ if s.busy then 1 else 0

theorem Calm.perm {s : Shared} {ts l : List Task} (h : Calm s ts) (hp : ts.Perm l) : Calm s l where
  locked := Held.perm h.locked hp
  explores t ht := h.explores t (hp.mem_iff.mpr ht)
  nodup := (hp.filterMap Task.drafts).nodup_iff.mp h.nodup
  unserved id root ht := h.unserved id root (hp.mem_iff.mpr ht)
  tools := hp.countP_eq Task.tool ▸ h.tools

/-- Handlers end or go on, and none of those that go on makes a draft. -/
theorem Calm.goes {s s' : Shared} {l m ts : List Task} (h : Calm s (l ++ ts))
    (hlocked : Held Task.holds s'.routes.locks (m ++ ts))
    (hplace : ∀ id, place s'.host id = place s.host id)
    (hserves : ∀ id root, .drafting id root ∈ ts → s'.host.serves id → s.host.serves id)
    (hm : ∀ t ∈ m, t.drafts = none) (htools : (m ++ ts).countP Task.tool ≤ if s'.busy then 1 else 0) :
    Calm s' (m ++ ts) := by
  have hrest : ∀ t ∈ m ++ ts, ∀ id ∈ t.drafts, t ∈ ts := by
    intro t ht id hid
    rcases List.mem_append.mp ht with ht | ht
    · rw [hm t ht] at hid
      cases hid
    · exact ht
  refine ⟨hlocked, fun t ht id hid w => ?_, ?_, fun id root ht hs => ?_, htools⟩
  · rw [hplace]
    exact h.explores t (List.mem_append_right _ (hrest t ht id hid)) id hid w
  · have hnodup := h.nodup
    rw [List.filterMap_append, List.nodup_append'] at hnodup
    rw [List.filterMap_append, List.filterMap_eq_nil_iff.mpr hm]
    exact hnodup.2.1
  · have ht' := hrest _ ht id rfl
    exact h.unserved id root (List.mem_append_right _ ht') (hserves id root ht' hs)

/-- A draft of another conversation begins. -/
theorem Calm.begins {s s' : Shared} {ts : List Task} {t : Task} {id : String} (h : Calm s ts)
    (ht : t.drafts = some id) (hlocked : Held Task.holds s'.routes.locks (t :: ts))
    (hhost : s'.host = s.host) (hfree : ∀ u ∈ ts, u.drafts ≠ some id)
    (hexplores : ∀ w, place s.host id ≠ some (w, .draft))
    (hunserved : ∀ other root, t = .drafting other root → ¬s.host.serves other)
    (htools : (t :: ts).countP Task.tool ≤ if s'.busy then 1 else 0) : Calm s' (t :: ts) := by
  refine ⟨hlocked, fun u hu other hother w => ?_, ?_, fun other root hu => ?_, htools⟩
  · rw [hhost]
    rcases List.mem_cons.mp hu with rfl | hu
    · rw [ht, Option.mem_some_iff] at hother
      exact hother ▸ hexplores w
    · exact h.explores u hu other hother w
  · rw [List.filterMap_cons_some ht, List.nodup_cons]
    refine ⟨fun hmem => ?_, h.nodup⟩
    obtain ⟨u, hu, hid⟩ := List.mem_filterMap.mp hmem
    exact hfree u hu hid
  · rw [hhost]
    rcases List.mem_cons.mp hu with rfl | hu
    · exact hunserved other root rfl
    · exact h.unserved other root hu

theorem sameWorkers_enterDraft (s : Shared) (id root : String) :
    AgentHost.SameWorkers s.host (s.enterDraft id root).host := AgentHost.sameWorkers_update _ _ _

theorem place_enterDraft (s : Shared) {id other : String} (h : other ≠ id) (root : String) :
    place (s.enterDraft id root).host other = place s.host other :=
  congrArg _ (Store.update_other _ h _)

/-- A draft is written into the table, and its handler ends. -/
theorem Calm.commits {s s' : Shared} {ts : List Task} {t : Task} {id root : String}
    (h : Calm s (t :: ts)) (ht : t.drafts = some id) (hlocked : Held Task.holds s'.routes.locks ts)
    (hhost : s'.host = (s.enterDraft id root).host)
    (htools : ts.countP Task.tool ≤ if s'.busy then 1 else 0) : Calm s' ts := by
  have hnodup := h.nodup
  rw [List.filterMap_cons_some ht, List.nodup_cons] at hnodup
  refine ⟨hlocked, fun u hu other hother w => ?_, hnodup.2, fun other dir hu hs => ?_, htools⟩
  · have hne : other ≠ id := fun heq =>
      hnodup.1 (List.mem_filterMap.mpr ⟨u, hu, heq ▸ hother⟩)
    rw [hhost, place_enterDraft s hne]
    exact h.explores u (List.mem_cons_of_mem _ hu) other hother w
  · refine h.unserved other dir (List.mem_cons_of_mem _ hu) ?_
    rw [hhost] at hs
    exact (serves_of_same (sameWorkers_enterDraft s id root) other).mp hs

/-- The route has passed all its checks and makes a draft. -/
def passes (id : String) (c : Conversation) (kind : ProjectKind) (a : Action) (s : Shared) : Bool :=
  kind != .system && idle s id c.projectId &&
    match a with
    | .draft _ => !kind.assisted && c.mode != .draft
    | .report _ => (s.conversation id).any (·.mode != .draft)

def Action.root : Action → String
  | .draft root | .report root => root

theorem action_eq (id : String) (c : Conversation) (kind : ProjectKind) (a : Action) (s : Shared) :
    action id c kind a s = if passes id c kind a s then createDraft id a.root s else (s, []) := by
  unfold action
  by_cases hguard : kind = .system ∨ !idle s id c.projectId
  · rw [if_pos hguard, if_neg]
    rcases hguard with hkind | hidle
    · simp [passes, hkind]
    · simp [passes, Bool.not_eq_true' _ ▸ hidle]
  · rw [if_neg hguard]
    simp only [not_or, Bool.not_eq_true', Bool.not_eq_false] at hguard
    cases a with
    | draft root => by_cases hassisted : kind.assisted <;> by_cases hmode : c.mode = .draft <;>
        simp [passes, hguard, hassisted, hmode, Action.root]
    | report root =>
      cases hc : s.conversation id with
      | none => simp [passes, hguard, hc]
      | some now => by_cases hmode : now.mode = .draft <;> simp [passes, hguard, hc, hmode, Action.root]

/-- When a route makes a draft, the conversation is not in one, whatever the route has read before, and
no tool of an earlier turn is making one. -/
def Current : Condition Shared Task Request Input where
  enter _ _ _ := True
  resume
    | .action id c kind, .action a, s, ts => passes id c kind a s →
        (∀ now ∈ s.conversation id, now.mode ≠ .draft) ∧ ∀ t ∈ ts, t.tool → t.drafts ≠ some id
    | _, _, _, _ => True

theorem countP_routes (m : List ImportLocks.Task) : (m.map Task.routes).countP Task.tool = 0 :=
  List.countP_eq_zero.mpr fun t ht => by
    obtain ⟨u, -, rfl⟩ := List.mem_map.mp ht
    exact Bool.false_ne_true

/-- The other routes leave drafts alone. -/
theorem Calm.onRoutes {s : Shared} {l ts : List Task} (h : Calm s (l ++ ts))
    {out : ImportLocks.Shared × List ImportLocks.Task}
    (hlocked : Held Task.holds out.1.locks (out.2.map .routes ++ ts))
    (hplace : ∀ id, place out.1.host id = place s.host id)
    (hserves : ∀ id root, .drafting id root ∈ ts → out.1.host.serves id → s.host.serves id) :
    Calm (s.onRoutes out).1 ((s.onRoutes out).2 ++ ts) := by
  refine h.goes hlocked hplace hserves (fun t ht => ?_) ?_
  · obtain ⟨u, -, rfl⟩ := List.mem_map.mp ht
    rfl
  · have htools := h.tools
    rw [List.countP_append] at htools ⊢
    rw [Shared.onRoutes, countP_routes]
    dsimp only
    omega

theorem not_serves_of_idle {s : Shared} {id projectId : String} (h : idle s id projectId) :
    ¬s.host.serves id := by
  intro hs
  simp only [idle, Bool.and_eq_true, Bool.not_eq_true', Option.any_eq_false] at h
  rw [AgentHost.Shared.serves] at hs
  split at hs
  · next w worker hcurrent =>
    have hother := h.1.1 _ hcurrent
    simp [hother] at hs
  · cases hs

theorem not_draft_iff {s : Shared} {id : String} :
    (∀ now ∈ s.conversation id, now.mode ≠ .draft) ↔ ∀ w, place s.host id ≠ some (w, .draft) := by
  rw [place]
  show (∀ now ∈ s.host.store.conversations id, _) ↔ _
  cases s.host.store.conversations id with
  | none => simp
  | some c => simp [Prod.ext_iff]

theorem admits_iff {s : Shared} {id : String} (h : admits s id) :
    s.busy = false ∧ s.host.serves id := by
  simp only [admits, Bool.and_eq_true, Bool.not_eq_true'] at h
  exact h.1

/-- While no tool is busy, none waits. -/
theorem Calm.no_tool {s : Shared} {ts : List Task} (h : Calm s ts) (hbusy : s.busy = false) :
    ∀ t ∈ ts, ¬t.tool := by
  have htools := h.tools
  rw [hbusy, if_neg Bool.false_ne_true, Nat.le_zero] at htools
  exact List.countP_eq_zero.mp htools

theorem countP_tool {ts : List Task} {t : Task} (ht : t.tool) (hnone : ∀ u ∈ ts, ¬u.tool) :
    (t :: ts).countP Task.tool = 1 := by
  rw [List.countP_cons_of_pos ht, List.countP_eq_zero.mpr hnone]

theorem Calm.enter {s : Shared} {ts : List Task} (h : Calm s ts) (r : Request) :
    Calm (enter r s).1 ((enter r s).2 ++ ts) := by
  cases r with
  | routes r =>
    have hleaves := leaves_routes_enter r s.routes
    exact h.onRoutes (l := []) (ImportLocks.held_enter (f := .routes) (fun _ => rfl) r h.locked)
      hleaves.place
      fun id _ _ => hleaves.serves id
  | action id =>
    simp only [Drafts.enter]
    split
    · exact h
    · split
      · exact h
      · exact h.goes (l := []) (m := [_]) (h.locked.more (l := [_]) (by simp [Task.holds]))
          (fun _ => rfl) (fun _ _ _ hs => hs) (by simp [Task.drafts]) h.tools
  | prepare id root =>
    rw [Drafts.enter, prepare]
    split
    · next hadmits =>
      obtain ⟨hbusy, hserves⟩ := admits_iff (Bool.and_eq_true_iff.mp hadmits).1
      split
      · next c hc =>
        split
        · exact h
        · next hmode =>
          have hnone := h.no_tool hbusy
          refine h.begins (t := .preparing id root) rfl
            (h.locked.more (l := [_]) (by simp [Task.holds])) rfl (fun t ht hid => ?_)
            (not_draft_iff.mp fun now hnow => ?_) nofun ?_
          · cases t with
            | drafting other dir =>
              cases hid
              exact h.unserved id dir ht hserves
            | preparing other dir => exact hnone _ ht rfl
            | _ => cases hid
          · rw [hc, Option.mem_some_iff] at hnow
            exact hnow ▸ hmode
          · exact Nat.le_of_eq (countP_tool (t := .preparing id root) rfl hnone)
      · exact h
    · exact h
  | read id =>
    rw [Drafts.enter]
    split
    · next hadmits =>
      refine h.goes (l := []) (m := [_]) (h.locked.more (l := [_]) (by simp [Task.holds]))
        (fun _ => rfl) (fun _ _ _ hs => hs) (by simp [Task.drafts]) ?_
      exact Nat.le_of_eq (countP_tool (t := .reading) rfl (h.no_tool (admits_iff hadmits).1))
    · exact h

/-- A tool that ends was the only one. -/
theorem Calm.last_tool {s : Shared} {ts : List Task} {t : Task} (h : Calm s (t :: ts)) (ht : t.tool) :
    ts.countP Task.tool = 0 := by
  have htools := h.tools
  rw [List.countP_cons_of_pos ht] at htools
  split at htools
  · omega
  · omega

/-- A handler ends that leaves the table alone. -/
theorem Calm.ends {s s' : Shared} {ts : List Task} {t : Task} (h : Calm s (t :: ts))
    (hlocked : Held Task.holds s'.routes.locks ts) (hhost : s'.host = s.host)
    (htools : ts.countP Task.tool ≤ if s'.busy then 1 else 0) : Calm s' ts :=
  h.goes (l := [t]) (m := []) hlocked (fun id => by rw [hhost])
    (fun _ _ _ hs => by rwa [hhost] at hs) (List.forall_mem_nil _) htools

theorem Calm.other_tools {s : Shared} {ts : List Task} {t : Task} (h : Calm s (t :: ts)) :
    ts.countP Task.tool ≤ if s.busy then 1 else 0 :=
  Nat.le_trans ((List.sublist_cons_self t ts).countP_le (p := Task.tool)) h.tools

theorem Calm.resume {s : Shared} {ts : List Task} {t : Task} (h : Calm s (t :: ts)) {x : Input}
    (hcurrent : Current.resume t x s ts) : Calm (resume t x s).1 ((resume t x s).2 ++ ts) := by
  unfold Drafts.resume
  split
  · next t x =>
    obtain ⟨hplace, hserves⟩ := leaves_routes_resume t x s.routes
    refine h.onRoutes (l := [_]) (ImportLocks.held_resume (f := Task.routes) (fun _ => rfl) t x
      h.locked) hplace fun id root ht hs => (hserves id hs).resolve_right fun hfree => ?_
    exact hfree (h.locked.locked _ (List.mem_cons_of_mem _ ht) _ List.mem_cons_self)
  · next id c kind a =>
    rw [action_eq]
    split
    · next hpasses =>
      obtain ⟨hmode, htools⟩ := hcurrent hpasses
      simp only [passes, Bool.and_eq_true] at hpasses
      have hidle := hpasses.1.2
      have hfree : Lock.conversation id ∉ s.routes.locks := by
        simp only [idle, Bool.and_eq_true, Bool.not_eq_true'] at hidle
        simpa using hidle.1.2
      have hrest : Calm s ts := h.ends h.locked.tail rfl h.other_tools
      refine hrest.begins (t := .drafting id a.root) rfl ?_ rfl (fun u hu hid => ?_)
        (not_draft_iff.mp hmode) (fun other root heq => ?_) hrest.tools
      · refine hrest.locked.take (t := Task.drafting id a.root) (fun k hk => ?_)
          (List.nodup_singleton _)
        rw [List.mem_singleton.mp hk]
        exact hfree
      · cases u with
        | drafting other dir =>
          cases hid
          exact hfree (hrest.locked.locked _ hu _ List.mem_cons_self)
        | preparing other dir => exact htools _ hu rfl hid
        | _ => cases hid
      · cases heq
        exact not_serves_of_idle hidle
    · exact h.ends h.locked.tail rfl h.other_tools
  · exact h.ends h.locked.tail rfl h.other_tools
  · exact h.commits rfl h.locked.release rfl h.other_tools
  · exact h.ends h.locked.release rfl h.other_tools
  · exact h.commits rfl h.locked.tail rfl (Nat.le_of_eq (h.last_tool rfl))
  · exact h.ends h.locked.tail rfl (Nat.le_of_eq (h.last_tool rfl))
  · exact h.ends h.locked.tail rfl (Nat.le_of_eq (h.last_tool rfl))
  · exact h.ends h.locked.tail rfl (Nat.le_of_eq (h.last_tool rfl))
  · exact h

/-- A draft that the table has stays the draft of its conversation. -/
theorem Calm.draft_stays {s : Shared} {ts : List Task} {t : Task} (h : Calm s (t :: ts)) (x : Input)
    {id w : String} (hid : place s.host id = some (w, .draft)) :
    place (Drafts.resume t x s).1.host id = some (w, .draft) := by
  have hcommits : ∀ {other root : String}, t.drafts = some other →
      place (s.enterDraft other root).host id = some (w, .draft) := by
    intro other root ht
    have hne : id ≠ other := fun heq =>
      h.explores t List.mem_cons_self other ht w (heq ▸ hid)
    rw [place_enterDraft s hne, hid]
  unfold Drafts.resume
  split
  · next t x => exact ((leaves_routes_resume t x s.routes).1 id).trans hid
  · rw [action_eq]
    split <;> exact hid
  · exact hid
  · exact hcommits rfl
  · exact hid
  · exact hcommits rfl
  · exact hid
  · exact hid
  · exact hid
  · exact hid

theorem place_enter (r : Request) (s : Shared) (id : String) :
    place (enter r s).1.host id = place s.host id := by
  cases r with
  | routes r => exact (leaves_routes_enter r s.routes).place id
  | action other =>
    simp only [enter]
    split
    · rfl
    · split <;> rfl
  | prepare other root =>
    rw [enter, prepare]
    split
    · split
      · split <;> rfl
      · rfl
    · rfl
  | read other =>
    rw [enter]
    split <;> rfl

/-- Nothing waits. -/
theorem calm_nil {s : Shared} (hlocked : Held Task.holds s.routes.locks []) : Calm s [] where
  locked := hlocked
  explores := List.forall_mem_nil _
  nodup := .nil
  unserved _ _ ht := absurd ht List.not_mem_nil
  tools := Nat.zero_le _

/-- What is so once a conversation is in draft mode. -/
theorem settled_invariant (id w : String) : Invariant server Current fun s ts =>
    Calm s ts ∧ place s.host id = some (w, .draft) where
  perm _ _ _ hp h := ⟨h.1.perm hp, h.2⟩
  enter r s _ h _ := ⟨h.1.enter r, (place_enter r s id).trans h.2⟩
  resume _ x _ _ h hcurrent := ⟨h.1.resume hcurrent, h.1.draft_stays x h.2⟩
  restart s ts h := by
    rw [server.filter_survives (fun _ => rfl) ts]
    exact ⟨calm_nil held_nil, ((leaves_restart s.host).place id).trans h.2⟩

theorem calm_invariant : Invariant server Current Calm where
  perm _ _ _ hp h := h.perm hp
  enter r _ _ h _ := h.enter r
  resume _ _ _ _ h hcurrent := h.resume hcurrent
  restart s ts _ := by
    rw [server.filter_survives (fun _ => rfl) ts]
    exact calm_nil held_nil

/-- In every run: a conversation that is in draft mode keeps its workspace ever after, as long as no
route makes a draft for a conversation that has one since the route read it, or while a tool of an
earlier turn is making one. -/
theorem draft_workspace_settled (store : Store) (table : String → Option AgentHost.Submission)
    (es fs : List (Event Request Input))
    (h : Along server.step Current.At (initial store table) (es ++ fs)) {id : String}
    {c : Conversation}
    (hc : (server.run (initial store table) es).shared.conversation id = some c)
    (hmode : c.mode = .draft) :
    ∃ c', (server.run (initial store table) (es ++ fs)).shared.conversation id = some c' ∧
      c'.mode = .draft ∧ c'.workspace = c.workspace := by
  obtain ⟨hes, hfs⟩ := along_append.mp h
  have hinit : Calm (initial store table).shared [] := calm_nil held_nil
  have hcalm := calm_invariant.run (s := initial store table) hinit hes
  have hplace : place (server.run (initial store table) es).shared.host id =
      some (c.workspace, .draft) := by
    rw [place, ← hmode]
    exact congrArg _ hc
  have hend := ((settled_invariant id c.workspace).run ⟨hcalm, hplace⟩ hfs).2
  rw [Server.run_append]
  obtain ⟨c', hc', heq⟩ := Option.map_eq_some_iff.mp hend
  rw [Prod.mk.injEq] at heq
  exact ⟨c', hc', heq.2, heq.1⟩

/-- A conversation that explores a folder. -/
def folderStore : Store where
  projects := Function.update (fun _ => none) "folder" (some ⟨.folder, "/folder"⟩)
  conversations := Function.update (fun _ => none) "talk"
    (some ⟨"folder", none, "/folder", .explore, "idle", none⟩)

/-- A draft, and one that is asked for after it. -/
theorem draft_workspace_settled_twice :
    ∃ c', (server.run (initial folderStore fun _ => none)
        ([.arrive (.action "talk"), .wake 0 (.action (.draft "/drafts/1")), .wake 0 .committed] ++
          [.arrive (.action "talk"), .wake 0 (.action (.draft "/drafts/2"))])).shared.conversation
        "talk" = some c' ∧ c'.mode = .draft ∧ c'.workspace = "/drafts/1" := by
  refine draft_workspace_settled folderStore (fun _ => none) _ _ ?_
    (c := ⟨"folder", none, "/drafts/1", .draft, "idle", none⟩) rfl rfl
  refine ⟨trivial, fun _ => ⟨fun now hnow => ?_, List.forall_mem_nil _⟩, trivial, trivial,
    fun hpasses => absurd hpasses (by decide), trivial⟩
  cases hnow
  decide

/-- Two requests read the conversation before their bodies; the second makes a draft of its own after
the first has made one, which the conversation leaves. -/
theorem second_draft_abandons_first :
    ∃ c c', (server.run (initial folderStore fun _ => none)
        [.arrive (.action "talk"), .arrive (.action "talk"), .wake 1 (.action (.draft "/drafts/1")),
          .wake 0 .committed]).shared.conversation "talk" = some c ∧ c.mode = .draft ∧
      (server.run (initial folderStore fun _ => none)
        ([.arrive (.action "talk"), .arrive (.action "talk"), .wake 1 (.action (.draft "/drafts/1")),
          .wake 0 .committed] ++
          [.wake 0 (.action (.draft "/drafts/2")), .wake 0 .committed])).shared.conversation
        "talk" = some c' ∧ c'.workspace ≠ c.workspace :=
  ⟨_, _, rfl, rfl, rfl, by decide⟩

/-- A tool that outlives its turn does the same to a draft of the route. -/
example : ((server.run (initial folderStore fun _ => none)
    [.arrive (.routes (.message "talk")),
      .wake 0 (.routes (.body (.string "Write a report.") (.string "1") .undefined)),
      .wake 0 (.routes (.status true)), .arrive (.prepare "talk" "/drafts/1"),
      .arrive (.routes (.host (.stop "talk"))), .wake 0 (.routes (.host .turn)),
      .arrive (.action "talk"), .wake 0 (.action (.draft "/drafts/2")), .wake 0 .committed,
      .wake 0 .committed]).shared.conversation "talk").map (·.workspace) = some "/drafts/1" := by
  decide

end ForgeOS.Galaxy.Drafts
