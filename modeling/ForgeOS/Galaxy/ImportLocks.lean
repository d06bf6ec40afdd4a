import ForgeOS.Library.NamedLocks
import ForgeOS.Galaxy.Submissions

/-! Imports of material and messages. An import holds a lock on its project and asks whether the
project is busy; a message asks for the lock of the project that its conversation belonged to when
the request began. -/

namespace ForgeOS.Galaxy.ImportLocks

open ForgeOS.Library.Conditions ForgeOS.Library.Interleaving ForgeOS.Library.NamedLocks

/-! ### State -/

/-- The names in `locks`; `project none` is `project:new`. -/
inductive Lock
  | importing
  | exporting
  | tabletChange
  | project (id : Option String)
  | conversation (id : String)
  deriving DecidableEq, Repr

def Lock.ofProject : Lock → Bool
  | .project _ => true
  | _ => false

structure Shared where
  host : AgentHost.Shared
  locks : List Lock

/-- `MaterialTarget`, without its name. -/
structure Target where
  projectId : Option String
  conversationId : Option String
  deriving DecidableEq, Repr

/-- The messages route before its body and before the health check, with the project it has read; one
that imports and has its locks; another route that has a lock. -/
inductive Task
  | body (id projectId : String) (kind : ProjectKind)
  | health (id projectId : String) (kind : ProjectKind) (text submissionId : String) (style : Js)
  | collecting (target : Target)
  | working (key : Lock)
  | host (t : AgentHost.Task)
  deriving DecidableEq, Repr

inductive Input
  | body (text submissionId style : Js)
  | status (compatible : Bool)
  | done
  | host (x : AgentHost.Input)
  deriving DecidableEq, Repr

/-- A message comes; the body of an import (of uploads or from OneDrive) has come; another route takes
a lock; the assistant saves a brief, which moves the conversation; the host is reached by its other
routes and by its workers. -/
inductive Request
  | message (id : String)
  | collect (target : Target)
  | work (key : Lock)
  | brief (id pid : String)
  | host (r : AgentHost.Request)
  deriving DecidableEq, Repr

/-- What a handler holds from the step that takes it to its end. -/
def Task.holds : Task → List Lock
  | .collecting target => [.project target.projectId, .importing]
  | .working key => [key]
  | _ => []

/-! ### Routes -/

/-- The host does something on behalf of a handler. -/
def Shared.onHost (s : Shared) (out : AgentHost.Shared × List AgentHost.Task) :
    Shared × List Task := ({ s with host := out.1 }, out.2.map .host)

/-- `projectBusy` -/
def projectBusy (s : Shared) (projectId : String) : Bool :=
  match s.host.current with
  | some (_, worker) =>
    (s.host.store.conversations worker.conversationId).any (·.projectId = projectId)
  | none => false

/-- `targetOf`: the project exists and takes material, and the conversation belongs to it. -/
def targetOf (projects : String → Option Project) (projectOf : String → Option String)
    (target : Target) : Bool :=
  (match target.projectId with
    | some pid => (projects pid).any fun p => p.kind != .system && p.kind != .assistant
    | none => true) &&
  match target.conversationId with
  | some id => (projectOf id).any fun pid => some pid == target.projectId
  | none => true

/-- The locks behind the materials and the collections route after their bodies, unless it refuses. -/
def takeImport (known busy : Bool) (target : Target) (locks : List Lock) : Option (List Lock) :=
  if !known || locks.contains .importing || locks.contains .exporting ||
      locks.contains (.project target.projectId) ||
      target.conversationId.any (fun id => locks.contains (.conversation id)) || busy then none
  else some (.project target.projectId :: .importing :: locks)

/-- The materials and the collections route after their bodies. -/
def collect (target : Target) (s : Shared) : Shared × List Task :=
  let known := targetOf s.host.store.projects
    (fun id => (s.host.store.conversations id).map (·.projectId)) target
  match takeImport known (target.projectId.any (projectBusy s)) target s.locks with
  | some locks => ({ s with locks }, [.collecting target])
  | none => (s, [])

/-- Another route takes a lock (a preview, an export, a change of the tablet, a draft), none of those
of projects. -/
def work (key : Lock) (s : Shared) : Shared × List Task :=
  if key.ofProject || s.locks.contains key then (s, [])
  else ({ s with locks := key :: s.locks }, [.working key])

/-- A handler gives its locks back. -/
def Shared.release (s : Shared) (t : Task) : Shared :=
  { s with locks := s.locks.filter (· ∉ t.holds) }

/-- `meeting_save_brief`, as far as it concerns the tables, called by the worker of the conversation. -/
def brief (id pid : String) (s : Shared) : Shared :=
  if !s.host.serves id then s
  else
    match s.host.store.conversations id with
    | none => s
    | some c =>
      if (s.host.store.projects c.projectId).any (·.kind.assisted) then
        match s.host.store.addMeeting pid c.workspace with
        | some st =>
          { s with host := { s.host with
            store := st.update id ({ · with projectId := pid }) } }
        | none => s
      else s

/-- What the messages route asks of the locks, twice. -/
def clear (s : Shared) (id projectId : String) (kind : ProjectKind) : Bool :=
  !(s.locks.contains .tabletChange && kind == .system) && !s.locks.contains (.conversation id) &&
    !s.locks.contains (.project (some projectId))

/-- The host is asked for something that no other request stands for. -/
def routed : AgentHost.Request → Bool
  | .submit _ _ _ _ | .move _ _ => false
  | _ => true

def enter : Request → Shared → Shared × List Task
  | .message id, s =>
    match s.host.store.conversations id with
    | none => (s, [])
    | some c =>
      match s.host.store.projects c.projectId with
      | none => (s, [])
      | some p => (s, [.body id c.projectId p.kind])
  | .collect target, s => collect target s
  | .work key, s => work key s
  | .brief id pid, s => (brief id pid s, [])
  | .host r, s => if routed r then s.onHost (AgentHost.enter r s.host) else (s, [])

/-- A handler that is given something else than it waits for goes on waiting. -/
def resume : Task → Input → Shared → Shared × List Task
  | .body id projectId kind, .body text submissionId style, s =>
    if clear s id projectId kind then
      match string text defaultLength, string submissionId 100 with
      | .ok text, .ok sid => (s, [.health id projectId kind text sid style])
      | _, _ => (s, [])
    else (s, [])
  | .health id projectId kind text submissionId style, .status compatible, s =>
    if clear s id projectId kind && compatible then
      s.onHost (AgentHost.submit id submissionId text style s.host)
    else (s, [])
  | .collecting target, .done, s => (s.release (.collecting target), [])
  | .working key, .done, s => (s.release (.working key), [])
  | .host t, .host x, s => s.onHost (AgentHost.resume t x s.host)
  | task, _, s => (s, [task])

def restart (s : Shared) : Shared := ⟨AgentHost.restart s.host, []⟩

def server : Server Shared Task Request Input := ⟨enter, resume, restart, fun _ => false⟩

/-- A host that has just been started, with the tables as it finds them. -/
def initial (store : Store) (table : String → Option AgentHost.Submission) : State Shared Task :=
  ⟨⟨(AgentHost.initial store table).shared, []⟩, []⟩

/-! ### Workers that are started or steered -/

section Begun

open AgentHost (Sent Message Start)

/-- The worker that is started or steered. -/
def begins : Sent → Option ℕ
  | .init w | .turnSteer w _ _ => some w
  | _ => none

/-- The conversations in which a worker has been started or steered from one state to another. -/
def begun (s s' : AgentHost.Shared) : List String :=
  ((s'.sent.drop s.sent.length).filterMap begins).filterMap fun w =>
    (s'.workers w).map (·.conversationId)

/-- Nothing has been sent but what leaves the workers as they are. -/
def Quiet (s s' : AgentHost.Shared) : Prop :=
  ∃ l, s'.sent = s.sent ++ l ∧ ∀ m ∈ l, begins m = none

variable {s s' t : AgentHost.Shared}

theorem quiet_of_eq (h : s'.sent = s.sent) : Quiet s s' :=
  ⟨[], by rw [h, List.append_nil], fun _ hm => absurd hm List.not_mem_nil⟩

theorem quiet_send (s : AgentHost.Shared) {m : Sent} (hm : begins m = none) : Quiet s (s.send m) :=
  ⟨[m], rfl, fun m' hm' => by rw [List.mem_singleton.mp hm', hm]⟩

theorem Quiet.congr (h : Quiet s s') (hsent : t.sent = s'.sent) : Quiet s t := by
  obtain ⟨l, hl, hnone⟩ := h
  exact ⟨l, hsent.trans hl, hnone⟩

theorem Quiet.trans (h : Quiet s s') (h' : Quiet s' t) : Quiet s t := by
  obtain ⟨l, hl, hnone⟩ := h
  obtain ⟨l', hl', hnone'⟩ := h'
  refine ⟨l ++ l', by rw [hl', hl, List.append_assoc], fun m hm => ?_⟩
  rcases List.mem_append.mp hm with hm | hm
  · exact hnone m hm
  · exact hnone' m hm

theorem begun_of_sent {l : List Sent} (h : s'.sent = s.sent ++ l) :
    begun s s' = (l.filterMap begins).filterMap fun w => (s'.workers w).map (·.conversationId) := by
  rw [begun, h, List.drop_left]

theorem Quiet.begun (h : Quiet s s') : begun s s' = [] := by
  obtain ⟨l, hl, hnone⟩ := h
  rw [begun_of_sent hl, List.filterMap_eq_nil_iff.mpr hnone]
  rfl

theorem quiet_finish (id status : String) (s : AgentHost.Shared) :
    Quiet s (AgentHost.finish id status s).1 := by
  rcases AgentHost.finish_cases id status s with ⟨h, -⟩ | ⟨w, worker, -, -, -, h⟩
  · rw [h]
    exact quiet_of_eq rfl
  · rw [h]
    exact quiet_of_eq rfl

theorem quiet_stop (id : String) (s : AgentHost.Shared) : Quiet s (AgentHost.stop id s).1 := by
  rw [AgentHost.stop]
  split
  · split
    · exact quiet_of_eq rfl
    · refine Quiet.trans ?_ (quiet_finish id "interrupted" _)
      split
      · exact quiet_of_eq rfl
      · exact (quiet_send _ rfl).congr rfl
  · exact quiet_of_eq rfl

theorem quiet_handle (id : String) (m : Message) (s : AgentHost.Shared) :
    Quiet s (AgentHost.handle id m s).1 := by
  rw [AgentHost.handle]
  split
  · split
    · exact quiet_of_eq rfl
    · cases m with
      | question requestId => exact quiet_of_eq rfl
      | otherRequest => exact quiet_of_eq rfl
      | otherNotice threadId => exact quiet_of_eq rfl
      | turnStarted threadId turnId =>
        dsimp only
        split
        · exact quiet_of_eq rfl
        · exact quiet_of_eq rfl
      | resolved threadId requestId =>
        dsimp only
        split
        · exact quiet_of_eq rfl
        · refine quiet_of_eq ?_
          split <;> rfl
      | turnCompleted threadId status =>
        dsimp only
        split
        · exact quiet_of_eq rfl
        · exact quiet_finish _ _ _
  · exact quiet_of_eq rfl

theorem quiet_answer (id requestId : String) (complete : Bool) (s : AgentHost.Shared) :
    Quiet s (AgentHost.answer id requestId complete s).1 := by
  rw [AgentHost.answer]
  split
  · split
    · exact quiet_of_eq rfl
    · exact (quiet_send s rfl).congr rfl
  · exact quiet_of_eq rfl

/-- Only a message starts or steers a worker. -/
theorem quiet_enter {r : AgentHost.Request} (hr : routed r) (s : AgentHost.Shared) :
    Quiet s (AgentHost.enter r s).1 := by
  cases r with
  | submit id submissionId text style => cases hr
  | move id projectId => cases hr
  | answer id requestId complete => exact quiet_answer id requestId complete s
  | stop id => exact quiet_stop id s
  | message w m =>
    rw [AgentHost.enter]
    split
    · exact quiet_handle _ m s
    · exact quiet_of_eq rfl
  | failure w m =>
    rw [AgentHost.enter]
    split
    · exact quiet_finish _ _ s
    · exact quiet_of_eq rfl
  | protocolError w m =>
    rw [AgentHost.enter]
    split
    · exact quiet_finish _ _ s
    · exact quiet_of_eq rfl
  | closed w =>
    rw [AgentHost.enter]
    split
    · exact quiet_finish _ _ s
    · exact quiet_of_eq rfl
  | timeout w =>
    rw [AgentHost.enter]
    split
    · exact quiet_stop _ s
    · exact quiet_of_eq rfl

theorem quiet_resume (t : AgentHost.Task) (x : AgentHost.Input) (s : AgentHost.Shared) :
    Quiet s (AgentHost.resume t x s).1 := by
  unfold AgentHost.resume
  split
  · exact quiet_send s rfl
  · exact quiet_of_eq rfl
  · split
    · exact (quiet_send s rfl).congr rfl
    · exact quiet_of_eq rfl
  · exact quiet_of_eq rfl
  · refine quiet_of_eq ?_
    dsimp only
    split <;> rfl
  · exact quiet_of_eq rfl
  · exact Quiet.trans (quiet_of_eq rfl) (quiet_finish _ _ _)
  · exact quiet_of_eq rfl
  · exact quiet_of_eq rfl
  · exact quiet_of_eq rfl
  · exact quiet_of_eq rfl

/-- What `submit` starts a worker or steers it for. -/
def accepts (s : AgentHost.Shared) (id submissionId : String) (style : Js) : Bool :=
  match AgentHost.replyStyle style, s.store.conversations id with
  | .ok st, some c =>
    (s.store.projects c.projectId).isSome && (s.submissions submissionId).isNone &&
      match s.current with
      | some (_, worker) => (AgentHost.refusal id c st worker).isNone
      | none => true
  | _, _ => false

theorem begun_reply (s : AgentHost.Shared) (id : String) (answer : Except String AgentHost.Answer) :
    begun s (s.reply id answer) = [] := (quiet_of_eq rfl : Quiet s (s.reply id answer)).begun

/-- A message starts or steers a worker of its own conversation. -/
theorem begun_submit (s : AgentHost.Shared) (id submissionId text : String) (style : Js) :
    begun s (AgentHost.submit id submissionId text style s).1 =
      if accepts s id submissionId style then [id] else [] := by
  cases hstyle : AgentHost.replyStyle style with
  | error m => simp [AgentHost.submit, accepts, hstyle, begun_reply]
  | ok st =>
    cases hc : s.store.conversations id with
    | none => simp [AgentHost.submit, accepts, hstyle, hc, begun_reply]
    | some c =>
      cases hproject : s.store.projects c.projectId with
      | none => simp [AgentHost.submit, accepts, hstyle, hc, hproject, begun_reply]
      | some project =>
        simp only [AgentHost.submit, accepts, hstyle, hc, hproject]
        cases hprior : s.submissions submissionId with
        | some prior =>
          dsimp only
          split <;> simp [begun_reply]
        | none =>
          dsimp only
          rw [AgentHost.submitNew]
          cases hcurrent : s.current with
          | none =>
            rw [begun_of_sent (l := [.init s.nextWorker]) rfl]
            simp [begins, AgentHost.launch, AgentHost.Shared.send, AgentHost.Shared.reply,
              AgentHost.insertSubmission]
          | some pair =>
            obtain ⟨w, worker⟩ := pair
            dsimp only
            split
            · next m hm => simp [hm, begun_reply]
            · next hm =>
              have hid : worker.conversationId = id := by
                by_contra hne
                rw [AgentHost.refusal, if_pos hne] at hm
                cases hm
              rw [begun_of_sent (l := [.turnSteer w submissionId text]) rfl]
              simp [hm, begins, AgentHost.steer, AgentHost.insertSubmission, AgentHost.Shared.send,
                (AgentHost.current_eq_some hcurrent).2, hid]

end Begun

/-! ### Exclusion -/

/-- The project that an import has taken its locks for. -/
def Task.into : Task → Option String
  | .collecting target => target.projectId
  | _ => none

/-- An import into the project has taken its locks and not released them. -/
def Importing (projectId : String) (ts : List Task) : Prop := ∃ t ∈ ts, t.into = some projectId

/-- No worker is started or steered in a conversation of a project that is being imported into. -/
def Excludes (s : State Shared Task) (e : Event Request Input) : Prop :=
  ∀ id ∈ begun s.shared.host (server.step s e).shared.host,
    ∀ c ∈ s.shared.host.store.conversations id, ¬Importing c.projectId s.waiting

/-- When a message goes to the host and is accepted there, its conversation still belongs to the
project that the request has read, or to one that nothing is being imported into. -/
def Unmoved : Condition Shared Task Request Input where
  enter _ _ _ := True
  resume
    | .health id projectId kind _ submissionId style, .status true, s, ts =>
      clear s id projectId kind → accepts s.host id submissionId style →
        ∀ c ∈ s.host.store.conversations id,
          c.projectId = projectId ∨ ¬Importing c.projectId ts
    | _, _, _, _ => True

theorem holds_of_into {t : Task} {projectId : String} (h : t.into = some projectId) :
    Lock.project (some projectId) ∈ t.holds := by
  cases t with
  | collecting target =>
    rw [Task.into] at h
    rw [Task.holds, h]
    exact List.mem_cons_self
  | _ => cases h

/-- What is held is in `locks` once. -/
def Locked (s : Shared) (ts : List Task) : Prop := Held Task.holds s.locks ts

/-- An import takes its locks when they are free, and so is that of its conversation. -/
theorem takeImport_eq_some {known busy : Bool} {target : Target} {locks locks' : List Lock}
    (h : takeImport known busy target locks = some locks') :
    known = true ∧ (∀ k ∈ [Lock.project target.projectId, .importing], k ∉ locks) ∧
      (∀ id, target.conversationId = some id → Lock.conversation id ∉ locks) ∧
      locks' = [.project target.projectId, .importing] ++ locks := by
  rw [takeImport] at h
  split_ifs at h with hguard
  simp only [Bool.or_eq_true, not_or, List.contains_iff_mem, Bool.not_eq_true', Bool.not_eq_false]
    at hguard
  obtain ⟨⟨⟨⟨⟨hknown, himporting⟩, -⟩, hproject⟩, hconversation⟩, -⟩ := hguard
  refine ⟨hknown, ?_, fun id hid hmem => ?_, (Option.some.inj h).symm⟩
  · intro k hk
    rcases List.mem_cons.mp hk with rfl | hk
    · exact hproject
    · rw [List.mem_singleton.mp hk]
      exact himporting
  · rw [hid] at hconversation
    exact hconversation (List.contains_iff_mem.mpr hmem)

section Locking

variable {τ : Type*} {holds : τ → List Lock} {f : Task → τ} (hf : ∀ t, holds (f t) = t.holds)

include hf

theorem holds_hosts (ts : List AgentHost.Task) : ∀ t ∈ (ts.map Task.host).map f, holds t = [] := by
  intro t ht
  obtain ⟨u, hu, rfl⟩ := List.mem_map.mp ht
  obtain ⟨v, -, rfl⟩ := List.mem_map.mp hu
  exact hf _

/-- Routes take and give back their locks also among other handlers. -/
theorem held_enter (r : Request) {s : Shared} {ts : List τ} (h : Held holds s.locks ts) :
    Held holds (enter r s).1.locks ((enter r s).2.map f ++ ts) := by
  cases r with
  | message id =>
    simp only [enter]
    split
    · exact h
    · split
      · exact h
      · exact h.more (l := [f (.body _ _ _)]) (by simp [hf, Task.holds])
  | collect target =>
    rw [enter, collect]
    split
    · next locks htaken =>
      obtain ⟨-, hfree, -, rfl⟩ := takeImport_eq_some htaken
      have htake := h.take (t := f (.collecting target)) (fun k hk => hfree k (by rwa [hf] at hk))
        (by simp [hf, Task.holds])
      rwa [hf] at htake
    · exact h
  | work key =>
    rw [enter, work]
    split
    · exact h
    · next hfree =>
      simp only [Bool.or_eq_true, not_or, List.contains_iff_mem] at hfree
      have htake := h.take (t := f (.working key)) (fun k hk => ?_) (by simp [hf, Task.holds])
      · rwa [hf] at htake
      · rw [hf] at hk
        rw [List.mem_singleton.mp hk]
        exact hfree.2
  | brief id pid =>
    have hlocks : (brief id pid s).locks = s.locks := by
      unfold brief
      split
      · rfl
      · split
        · rfl
        · split
          · split <;> rfl
          · rfl
    show Held holds (brief id pid s).locks ts
    rw [hlocks]
    exact h
  | host r =>
    simp only [enter]
    split
    · exact h.more (holds_hosts hf _)
    · exact h

theorem held_release {t : Task} {s : Shared} {ts : List τ} (h : Held holds s.locks (f t :: ts)) :
    Held holds (s.release t).locks ts := by
  have hrelease := h.release
  rwa [hf] at hrelease

theorem held_resume (t : Task) (x : Input) {s : Shared} {ts : List τ}
    (h : Held holds s.locks (f t :: ts)) :
    Held holds (resume t x s).1.locks ((resume t x s).2.map f ++ ts) := by
  unfold resume
  split
  · split
    · split
      · exact h.goes (by rw [hf, hf]; rfl)
      · exact h.tail
    · exact h.tail
  · split
    · exact (Held.tail h).more (holds_hosts hf _)
    · exact h.tail
  · exact held_release hf h
  · exact held_release hf h
  · exact (Held.tail h).more (holds_hosts hf _)
  · exact h

end Locking

theorem locked_invariant : Invariant server always Locked where
  perm _ _ _ hp h := Held.perm h hp
  enter r s ts h _ := by
    have hheld := held_enter (f := id) (fun _ => rfl) r h
    rwa [List.map_id] at hheld
  resume t x s ts h _ := by
    have hheld := held_resume (f := id) (fun _ => rfl) t x h
    rwa [List.map_id] at hheld
  restart s ts _ := by
    rw [server.filter_survives (fun _ => rfl) ts]
    exact held_nil

/-- Only a message that has passed its checks starts or steers a worker. -/
theorem begun_enter (r : Request) (s : Shared) : begun s.host (enter r s).1.host = [] := by
  cases r with
  | host r =>
    simp only [enter]
    split
    · next hr => exact (quiet_enter hr s.host).begun
    · exact (quiet_of_eq rfl).begun
  | message id =>
    simp only [enter]
    split
    · exact (quiet_of_eq rfl).begun
    · split
      · exact (quiet_of_eq rfl).begun
      · exact (quiet_of_eq rfl).begun
  | collect target =>
    rw [enter, collect]
    split
    · exact (quiet_of_eq rfl).begun
    · exact (quiet_of_eq rfl).begun
  | work key =>
    rw [enter, work]
    split
    · exact (quiet_of_eq rfl).begun
    · exact (quiet_of_eq rfl).begun
  | brief id pid =>
    refine (quiet_of_eq ?_).begun
    simp only [enter, brief]
    split
    · rfl
    · split
      · rfl
      · split
        · split <;> rfl
        · rfl

theorem begun_health (id projectId : String) (kind : ProjectKind) (text submissionId : String)
    (style : Js) (s : Shared) :
    begun s.host (resume (.health id projectId kind text submissionId style) (.status true) s).1.host =
      if clear s id projectId kind ∧ accepts s.host id submissionId style then [id] else [] := by
  rw [resume, Bool.and_true]
  by_cases hclear : clear s id projectId kind
  · rw [if_pos hclear]
    refine (begun_submit s.host id submissionId text style).trans ?_
    simp [hclear]
  · rw [if_neg hclear, if_neg fun h => hclear h.1]
    exact (quiet_of_eq rfl).begun

/-- The message has passed the checks of the messages route. -/
def Passes (t : Task) (x : Input) : Prop :=
  ∃ id projectId kind text submissionId style,
    t = .health id projectId kind text submissionId style ∧ x = .status true

theorem begun_resume {t : Task} {x : Input} (h : ¬Passes t x) (s : Shared) :
    begun s.host (resume t x s).1.host = [] := by
  unfold resume
  split
  · split
    · split
      · exact (quiet_of_eq rfl).begun
      · exact (quiet_of_eq rfl).begun
    · exact (quiet_of_eq rfl).begun
  · next compatible =>
    cases compatible with
    | true => exact absurd ⟨_, _, _, _, _, _, rfl, rfl⟩ h
    | false =>
      rw [Bool.and_false, if_neg (by decide)]
      exact (quiet_of_eq rfl).begun
  · exact (quiet_of_eq rfl).begun
  · exact (quiet_of_eq rfl).begun
  · exact (quiet_resume _ _ _).begun
  · exact (quiet_of_eq rfl).begun

theorem unmoved_resume {t : Task} {x : Input} (h : ¬Passes t x) (s : Shared) (ts : List Task) :
    Unmoved.resume t x s ts := by
  unfold Unmoved
  dsimp only
  split
  · exact absurd ⟨_, _, _, _, _, _, rfl, rfl⟩ h
  · trivial

/-- A step excludes imports exactly when the message that it lets through has not been left behind. -/
theorem excludes_iff {s : State Shared Task} (h : Locked s.shared s.waiting)
    (e : Event Request Input) : Unmoved.At s e ↔ Excludes s e := by
  cases e with
  | arrive r =>
    refine iff_of_true trivial fun id hid => ?_
    rw [show (server.step s (.arrive r)).shared = (enter r s.shared).1 from rfl, begun_enter] at hid
    cases hid
  | restart =>
    refine iff_of_true trivial fun id hid => ?_
    have hquiet : Quiet s.shared.host (AgentHost.restart s.shared.host) := quiet_of_eq rfl
    rw [show (server.step s .restart).shared.host = AgentHost.restart s.shared.host from rfl,
      hquiet.begun] at hid
    cases hid
  | wake k x =>
    simp only [Condition.At, Excludes, Server.step]
    split
    · next t ht =>
      have hp := perm_of_getElem? ht
      have hlocked : Locked s.shared (t :: s.waiting.eraseIdx k) := Held.perm h hp
      by_cases hpasses : Passes t x
      · obtain ⟨id, projectId, kind, text, submissionId, style, rfl, rfl⟩ := hpasses
        have himporting : ∀ p, Importing p s.waiting ↔ Importing p (s.waiting.eraseIdx k) := by
          intro p
          constructor
          · rintro ⟨u, hu, hinto⟩
            rcases List.mem_cons.mp (hp.mem_iff.mp hu) with rfl | hu
            · cases hinto
            · exact ⟨u, hu, hinto⟩
          · rintro ⟨u, hu, hinto⟩
            exact ⟨u, hp.mem_iff.mpr (List.mem_cons_of_mem _ hu), hinto⟩
        -- the lock of the project that the request has read keeps imports into it away
        have hown : clear s.shared id projectId kind → ¬Importing projectId s.waiting := by
          rintro hclear ⟨u, hu, hinto⟩
          have hmem := h.locked u hu _ (holds_of_into hinto)
          simp [clear, hmem] at hclear
        rw [show server.resume = resume from rfl, begun_health]
        constructor
        · intro hunmoved id' hid c hc
          split at hid
          · next hgo =>
            rw [List.mem_singleton.mp hid] at hc
            rcases hunmoved hgo.1 hgo.2 c hc with hsame | hnot
            · rw [hsame]
              exact hown hgo.1
            · rwa [himporting]
          · cases hid
        · intro hexcludes hclear haccepts c hc
          refine .inr ?_
          rw [← himporting]
          exact hexcludes id (by rw [if_pos ⟨hclear, haccepts⟩]; exact List.mem_cons_self) c hc
      · refine iff_of_true (unmoved_resume hpasses s.shared _) fun id hid => ?_
        rw [show server.resume = resume from rfl, begun_resume hpasses] at hid
        cases hid
    · next hnone =>
      refine iff_of_true trivial fun id hid => ?_
      rw [(quiet_of_eq rfl).begun] at hid
      cases hid

/-- In every run: while a project is being imported into no worker is started or steered in one of its
conversations, exactly when no message goes to the host for a conversation that has been moved into
such a project since the request read it. -/
theorem import_excludes_workers (store : Store) (table : String → Option AgentHost.Submission)
    (es : List (Event Request Input)) :
    Along server.step Unmoved.At (initial store table) es ↔
      Along server.step Excludes (initial store table) es := by
  have hinit : Locked (initial store table).shared (initial store table).waiting := held_nil
  exact along_congr (I := fun s => Locked s.shared s.waiting)
    (fun s e h => locked_invariant.step h (at_always s e)) (fun _ e h => excludes_iff h e) hinit es

instance (projectId : String) (ts : List Task) : Decidable (Importing projectId ts) :=
  inferInstanceAs (Decidable (∃ t ∈ ts, t.into = some projectId))

instance (s : State Shared Task) (e : Event Request Input) : Decidable (Excludes s e) :=
  inferInstanceAs (Decidable (∀ id ∈ begun s.shared.host (server.step s e).shared.host,
    ∀ c ∈ s.shared.host.store.conversations id, ¬Importing c.projectId s.waiting))

/-- A conversation of the assistant. -/
def assistantStore : Store where
  projects := Function.update (fun _ => none) "assistant" (some ⟨.assistant, "/assistant"⟩)
  conversations := Function.update (fun _ => none) "talk"
    (some ⟨"assistant", none, "/meetings/talk", .draft, "idle", none⟩)

/-- A second message waits for its body while the brief moves the conversation, the turn ends and
files are imported into the new project. -/
theorem message_left_behind :
    ¬Along server.step Excludes (initial assistantStore fun _ => none)
      [.arrive (.message "talk"), .wake 0 (.body (.string "Prepare the meeting.") (.string "1") .undefined),
        .wake 0 (.status true), .wake 0 (.host (.answered (.ok ""))),
        .wake 0 (.host (.answered (.ok "thread"))), .wake 0 (.host (.answered (.ok "turn"))),
        .arrive (.message "talk"), .arrive (.brief "talk" "meeting"),
        .arrive (.host (.message 0 (.turnCompleted (some "thread") "completed"))),
        .wake 0 (.host .turn), .arrive (.collect ⟨some "meeting", none⟩),
        .wake 1 (.body (.string "Use the new material.") (.string "2") .undefined),
        .wake 0 (.status true)] := by
  decide

end ForgeOS.Galaxy.ImportLocks
