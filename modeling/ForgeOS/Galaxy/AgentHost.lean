import Mathlib.Logic.Function.Basic
import ForgeOS.Galaxy.Requests
import ForgeOS.Galaxy.Store
import ForgeOS.Library.Interleaving

/-! The host of the Codex workers. At most one worker is active; a message starts one or is steered
into the turn that is running. What comes from a worker comes at any time, also after it was told
to stop: messages, failures, answers and rejections of requests, the end of its process. -/

namespace ForgeOS.Galaxy.AgentHost

open ForgeOS.Library.Interleaving

/-! ### The text of a request -/

inductive ReplyStyle
  | standard
  | quick
  | brief
  | explain
  deriving DecidableEq, Repr

def replyStyle : Js → Except String ReplyStyle
  | .undefined => .ok .standard
  | .string "standard" => .ok .standard
  | .string "quick" => .ok .quick
  | .string "brief" => .ok .brief
  | .string "explain" => .ok .explain
  | _ => .error "Choose quick answers or a full conversation."

def meetingFormat : ReplyStyle → String
  | .standard => ""
  | .quick =>
    "Answer the specific question first, in at most three short sentences (about 100 words maximum), plus a short supporting quotation when useful. Do not give a general folder audit unless asked."
  | .brief =>
    "Give a one-minute briefing, aiming for 180 words and no more than 250. Use these four headings in order: What this is about; Decisions needed; Key numbers and commitments; Three questions to ask. Include exactly three useful questions. If no decision is documented, say so. Do not include a preamble or a full document-by-document audit."
  | .explain =>
    "Explain the selected answer in more depth, with the supporting evidence, assumptions, conflicts and information still needed. Keep it focused on that answer."

def meetingRequest (text : String) (style : ReplyStyle) : String :=
  if style = .standard then text
  else
    text ++ ("\n\nMeeting answer guidance:\n" ++ meetingFormat style ++
      " Read the relevant source files and SOURCE_INDEX.md before answering. Search only this workspace (or the selected files, if provided); describe the actual sources checked in a short final 'Sources checked' line with clickable, workspace-relative Markdown links. Cite factual claims using the source filename and document date when available; do not mistake a file modification date for a document date. Quote accurately and sparingly. If the sources do not answer the question, say 'I couldn't find that in these sources' and identify what is missing. Distinguish documented facts from your analysis. State conflicts and unreadable or truncated sources. Do not infer approval, ownership, dates or completion from missing evidence. This is a read-only question: answer in chat, without writing or editing any files.")

def tabletGuidance : ReplyStyle → String
  | .quick => "Answer in a few sentences with the evidence or next step."
  | .brief =>
    "Use tablet_snapshot. Give a short overview of battery, storage and memory, then at most three worthwhile suggestions. Do not propose changes unless the person requested a specific change."
  | .explain =>
    "Explain the selected tablet finding in more depth, checking current evidence where relevant."
  | .standard => "Discuss the tablet and use the supplied tablet tools when useful."

def tabletRequest (text : String) (style : ReplyStyle) : String :=
  text ++ ("\n\nTablet workspace guidance: " ++ tabletGuidance style ++
    " This concerns the Samsung tablet, not the Linux workstation. A setting proposal requires the user's review card; never claim it has already been applied.")

def assistantGuidance : ReplyStyle → String
  | .quick => "Keep the chat answer short; a requested saved briefing can be fuller."
  | .brief =>
    "Give a concise briefing using the current meeting's gathered sources. If no meeting is established, look at tomorrow's calendar first."
  | .standard | .explain => "Discuss and refine the meeting preparation as requested."

def assistantRequest (text : String) (style : ReplyStyle) : String :=
  text ++ ("\n\nAssistant response style: " ++ assistantGuidance style)

/-- The text that is put to the worker and stored with the submission. -/
def input (kind : ProjectKind) (text : String) (style : ReplyStyle) : String :=
  match kind with
  | .system => tabletRequest text style
  | .assistant | .meeting => assistantRequest text style
  | .folder | .onedrive => meetingRequest text style

/-! ### State -/

inductive SubmissionState
  | pending
  | accepted
  | uncertain
  | interrupted
  deriving DecidableEq, Repr

structure Submission where
  conversationId : String
  text : String
  state : SubmissionState
  deriving DecidableEq, Repr

/-- An `active` record: the conversation, the flags, and the identifiers of the questions that are
open. The record outlives its time as `this.active` in the handlers that hold it; here workers have
numbers. -/
structure Worker where
  conversationId : String
  finished : Bool
  documentWrites : Bool
  approvals : List String
  deriving DecidableEq, Repr

/-- A request or notification that was written to a worker; `init` is the one that starts it. -/
inductive Sent
  | init (worker : ℕ)
  | thread (worker : ℕ) (threadId : Option String)
  | turnStart (worker : ℕ) (submissionId text : String)
  | turnSteer (worker : ℕ) (submissionId text : String)
  | interrupt (worker : ℕ)
  | answer (worker : ℕ) (requestId : String)
  deriving DecidableEq, Repr

inductive Answer
  | duplicate (state : SubmissionState)
  | accepted
  deriving DecidableEq, Repr

structure Shared where
  store : Store
  submissions : String → Option Submission
  active : Option ℕ
  workers : ℕ → Option Worker
  nextWorker : ℕ
  sent : List Sent
  replies : List (String × Except String Answer)

/-- What `start` holds: the conversation as `submit` has read it, and the arguments. -/
structure Start where
  worker : ℕ
  conversationId : String
  conversation : Conversation
  text : String
  submissionId : String
  deriving DecidableEq, Repr

/-- Where a handler waits: `start` for its three requests, its caller for the rejection, `submit` for
the answer to a steering, `finish` for the end of the process and of the reader. -/
inductive Task
  | initializing (start : Start)
  | threading (start : Start)
  | turning (start : Start)
  | failing (start : Start) (message : String)
  | steering (worker : ℕ) (submissionId : String)
  | closing (worker : ℕ)
  deriving DecidableEq, Repr

inductive Input
  | answered (result : Except String String)
  | turn
  deriving DecidableEq, Repr

/-- A message of a worker, as far as it concerns the state: with the thread it names, if any. -/
inductive Message
  | question (requestId : String)
  | otherRequest
  | turnStarted (threadId : Option String) (turnId : String)
  | resolved (threadId : Option String) (requestId : String)
  | turnCompleted (threadId : Option String) (status : String)
  | otherNotice (threadId : Option String)
  deriving DecidableEq, Repr

/-- What arrives at the host, from its routes and from its workers. A conversation can be moved to
another project by the assistant. -/
inductive Request
  | submit (id submissionId text : String) (style : Js)
  | answer (id requestId : String) (complete : Bool)
  | stop (id : String)
  | move (id projectId : String)
  | message (worker : ℕ) (m : Message)
  | failure (worker : ℕ) (message : String)
  | protocolError (worker : ℕ) (message : String)
  | closed (worker : ℕ)
  | timeout (worker : ℕ)
  deriving DecidableEq, Repr

namespace Shared

def reply (s : Shared) (id : String) (answer : Except String Answer) : Shared :=
  { s with replies := s.replies ++ [(id, answer)] }

def send (s : Shared) (m : Sent) : Shared := { s with sent := s.sent ++ [m] }

def setWorker (s : Shared) (w : ℕ) (f : Worker → Worker) : Shared :=
  { s with workers := Function.update s.workers w ((s.workers w).map f) }

def setSubmission (s : Shared) (id : String) (state : SubmissionState) : Shared :=
  { s with
    submissions := Function.update s.submissions id
      ((s.submissions id).map ({ · with state := state })) }

def update (s : Shared) (id : String) (f : Conversation → Conversation) : Shared :=
  { s with store := s.store.update id f }

/-- `this.active` -/
def current (s : Shared) : Option (ℕ × Worker) :=
  s.active.bind fun w => (s.workers w).map (w, ·)

end Shared

/-- An identifier that is empty or not there. -/
def absent (id : Option String) : Bool := id.getD "" = ""

/-! ### Finishing -/

/-- `finish` up to its first wait. -/
def finish (id status : String) (s : Shared) : Shared × List Task :=
  match s.current with
  | some (w, worker) =>
    if worker.conversationId ≠ id || worker.finished then (s, [])
    else
      ((s.setWorker w ({ · with finished := true })).update id
        ({ · with status := status, turnId := none }), [.closing w])
  | none => (s, [])

/-- `stop` up to its first wait. -/
def stop (id : String) (s : Shared) : Shared × List Task :=
  match s.current with
  | some (w, worker) =>
    if worker.conversationId ≠ id then (s, [])
    else
      let stopping := s.update id ({ · with status := "stopping" })
      let c := s.store.conversations id
      let told :=
        if absent (c.bind (·.turnId)) || absent (c.bind (·.threadId)) then stopping
        else stopping.send (.interrupt w)
      finish id "interrupted" told
  | none => (s, [])

/-! ### Submitting -/

def insertSubmission (id submissionId text : String) (s : Shared) : Shared :=
  { s with
    submissions := Function.update s.submissions submissionId (some ⟨id, text, .pending⟩) }

/-- The message goes into the running turn of the active worker. -/
def steer (w : ℕ) (submissionId text : String) (s : Shared) : Shared × List Task :=
  (s.send (.turnSteer w submissionId text), [.steering w submissionId])

/-- A worker is made and becomes the active one; `start` runs up to its first wait. -/
def launch (id : String) (c : Conversation) (text submissionId : String) (style : ReplyStyle)
    (s : Shared) : Shared × List Task :=
  let starting := s.update id ({ · with status := "starting" })
  let started := { starting with
    workers := Function.update s.workers s.nextWorker (some ⟨id, false, style == ReplyStyle.standard, []⟩)
    active := some s.nextWorker
    nextWorker := s.nextWorker + 1 }
  ((started.send (.init s.nextWorker)).reply submissionId (.ok .accepted),
    [.initializing ⟨s.nextWorker, id, c, text, submissionId⟩])

/-- What keeps a new message from the active worker. -/
def refusal (id : String) (c : Conversation) (style : ReplyStyle) (worker : Worker) :
    Option String :=
  if worker.conversationId ≠ id then
    some "Another conversation is using Codex. Let it finish or stop it first."
  else if style ≠ .standard then
    some "Let the current answer finish before asking another meeting question."
  else if absent c.turnId then
    some "The current request is still starting. Send your follow-up once it is running."
  else if worker.finished then some "The previous worker is closing. Try again shortly."
  else none

/-- `submit` for a submission that is not in the table; `request` is the text composed from `text`. -/
def submitNew (id submissionId text request : String) (c : Conversation) (style : ReplyStyle)
    (s : Shared) : Shared × List Task :=
  match s.current with
  | some (w, worker) =>
    match refusal id c style worker with
    | some m => (s.reply submissionId (.error m), [])
    | none => steer w submissionId text (insertSubmission id submissionId request s)
  | none => launch id c request submissionId style (insertSubmission id submissionId request s)

def submit (id submissionId text : String) (styleValue : Js) (s : Shared) : Shared × List Task :=
  match replyStyle styleValue, s.store.conversations id with
  | .error m, _ => (s.reply submissionId (.error m), [])
  | .ok _, none => (s.reply submissionId (.error "Conversation not found."), [])
  | .ok style, some c =>
    match s.store.projects c.projectId with
    | none => (s.reply submissionId (.error "Workspace not found."), [])
    | some project =>
      match s.submissions submissionId with
      | some prior =>
        if prior.conversationId ≠ id ∨ prior.text ≠ input project.kind text style then
          (s.reply submissionId
            (.error "A message identifier was reused for different content."), [])
        else (s.reply submissionId (.ok (.duplicate prior.state)), [])
      | none => submitNew id submissionId text (input project.kind text style) c style s

/-! ### Workers -/

/-- The thread that a notification names is another one than that of the conversation. -/
def foreign (threadId : Option String) (c : Option Conversation) : Bool :=
  !absent threadId && !absent (c.bind (·.threadId)) && threadId != c.bind (·.threadId)

/-- `handle`, which knows the conversation of the worker but not the worker. -/
def handle (id : String) (m : Message) (s : Shared) : Shared × List Task :=
  match s.current with
  | some (w, worker) =>
    if worker.conversationId ≠ id || worker.finished then (s, [])
    else
      let c := s.store.conversations id
      match m with
      | .question requestId =>
        ((s.setWorker w ({ · with approvals := worker.approvals.insert requestId })).update id
          ({ · with status := "waiting" }), [])
      | .otherRequest => (s, [])
      | .turnStarted threadId turnId =>
        if foreign threadId c then (s, [])
        else (s.update id ({ · with status := "running", turnId := some turnId }), [])
      | .resolved threadId requestId =>
        if foreign threadId c then (s, [])
        else
          let open_ := worker.approvals.erase requestId
          let settled := s.setWorker w ({ · with approvals := open_ })
          (if open_ = [] then settled.update id ({ · with status := "running" }) else settled, [])
      | .turnCompleted threadId status =>
        if foreign threadId c then (s, [])
        else finish id (if status = "completed" then "complete" else status) s
      | .otherNotice _ => (s, [])
  | none => (s, [])

/-- `answer`; `complete` says whether every question has been answered. -/
def answer (id requestId : String) (complete : Bool) (s : Shared) : Shared × List Task :=
  match s.current with
  | some (w, worker) =>
    if worker.conversationId ≠ id || !worker.approvals.contains requestId || !complete then (s, [])
    else
      (((s.send (.answer w requestId)).setWorker w
        ({ · with approvals := worker.approvals.erase requestId })).update id
        ({ · with status := "running" }), [])
  | none => (s, [])

/-! ### The server -/

/-- The conversation of a worker, and whether it is finished. -/
def Shared.origin (s : Shared) (w : ℕ) : Option (String × Bool) :=
  (s.workers w).map fun worker => (worker.conversationId, worker.finished)

def enter : Request → Shared → Shared × List Task
  | .submit id submissionId text style, s => submit id submissionId text style s
  | .answer id requestId complete, s => answer id requestId complete s
  | .stop id, s => stop id s
  | .move id projectId, s => (s.update id ({ · with projectId := projectId }), [])
  | .message w m, s =>
    match s.origin w with
    | some (id, _) => handle id m s
    | none => (s, [])
  | .failure w _, s | .protocolError w _, s =>
    match s.origin w with
    | some (id, _) => finish id "failed" s
    | none => (s, [])
  | .closed w, s =>
    match s.origin w with
    | some (id, false) => finish id "interrupted" s
    | _ => (s, [])
  | .timeout w, s =>
    -- `finish` clears the timer of the worker
    match s.origin w with
    | some (id, false) => stop id s
    | _ => (s, [])

/-- The active worker is for the conversation and not finished. -/
def Shared.serves (s : Shared) (id : String) : Bool :=
  match s.current with
  | some (_, worker) => worker.conversationId = id && !worker.finished
  | none => false

/-- A handler that is given something else than it waits for goes on waiting. -/
def resume : Task → Input → Shared → Shared × List Task
  | .initializing st, .answered (.ok _), s =>
    (s.send (.thread st.worker st.conversation.threadId), [.threading st])
  | .initializing st, .answered (.error m), s => (s, [.failing st m])
  | .threading st, .answered (.ok threadId), s =>
    if s.serves st.conversationId then
      ((s.update st.conversationId ({ · with threadId := some threadId })).send
        (.turnStart st.worker st.submissionId st.text), [.turning st])
    else (s, [])
  | .threading st, .answered (.error m), s => (s, [.failing st m])
  | .turning st, .answered (.ok turnId), s =>
    let accepted := s.setSubmission st.submissionId .accepted
    if s.serves st.conversationId then
      (accepted.update st.conversationId ({ · with turnId := some turnId, status := "running" }),
        [])
    else (accepted, [])
  | .turning st, .answered (.error m), s => (s, [.failing st m])
  | .failing st _, .turn, s =>
    finish st.conversationId "failed" (s.setSubmission st.submissionId .uncertain)
  | .steering _ submissionId, .answered (.ok _), s =>
    ((s.setSubmission submissionId .accepted).reply submissionId (.ok .accepted), [])
  | .steering _ submissionId, .answered (.error m), s =>
    ((s.setSubmission submissionId .uncertain).reply submissionId (.error m), [])
  | .closing w, .turn, s => ({ s with active := if s.active = some w then none else s.active }, [])
  | task, _, s => (s, [task])

def Submission.recovered (r : Submission) : Submission :=
  if r.state = .pending then { r with state := .interrupted } else r

/-- `recover`, and a host that has no worker. -/
def restart (s : Shared) : Shared :=
  { s with
    store := s.store.recover
    submissions := fun id => (s.submissions id).map Submission.recovered
    active := none
    workers := fun _ => none }

def server : Server Shared Task Request Input := ⟨enter, resume, restart, fun _ => false⟩

/-- The host before its first request, with the tables as it finds them. -/
def initial (store : Store) (submissions : String → Option Submission) : State Shared Task :=
  ⟨⟨store, submissions, none, fun _ => none, 0, [], []⟩, []⟩

/-- A local project with one conversation in it. -/
def oneConversation : Store where
  projects := Function.update (fun _ => none) "notes" (some ⟨.folder, "/notes"⟩)
  conversations := Function.update (fun _ => none) "talk"
    (some ⟨"notes", none, "/notes", .explore, "idle", none⟩)

end ForgeOS.Galaxy.AgentHost
