import Mathlib.Logic.Function.Basic

/-! The tables of projects and conversations that the handlers share. -/

namespace ForgeOS.Galaxy

/-- `kind` of a project; `folder` is the kind `local`. -/
inductive ProjectKind
  | folder
  | onedrive
  | system
  | assistant
  | meeting
  deriving DecidableEq, Repr

/-- `assistantKind` -/
def ProjectKind.assisted : ProjectKind → Bool
  | .assistant | .meeting => true
  | .folder | .onedrive | .system => false

structure Project where
  kind : ProjectKind
  path : String
  deriving DecidableEq, Repr

inductive Mode
  | explore
  | draft
  deriving DecidableEq, Repr

/-- A conversation without its title and its times. -/
structure Conversation where
  projectId : String
  threadId : Option String
  workspace : String
  mode : Mode
  status : String
  turnId : Option String
  deriving DecidableEq, Repr

structure Store where
  projects : String → Option Project
  conversations : String → Option Conversation

namespace Store

/-- `update`, for a conversation that exists. -/
def update (st : Store) (id : String) (f : Conversation → Conversation) : Store :=
  { st with conversations := Function.update st.conversations id ((st.conversations id).map f) }

theorem update_other (st : Store) {id other : String} (h : other ≠ id)
    (f : Conversation → Conversation) :
    (st.update id f).conversations other = st.conversations other :=
  Function.update_of_ne h _ _

theorem update_self (st : Store) (id : String) (f : Conversation → Conversation) :
    (st.update id f).conversations id = (st.conversations id).map f :=
  Function.update_self _ _ _

/-- `addProject` for a meeting. `pid` is the project that has the path, and a new one if none has. -/
def addMeeting (st : Store) (pid path : String) : Option Store :=
  match st.projects pid with
  | some p => if p.path = path then some st else none
  | none => some { st with projects := Function.update st.projects pid (some ⟨.meeting, path⟩) }

/-- The conversation of a worker whose host has gone: `recover`. -/
def interrupted (c : Conversation) : Conversation :=
  if c.status ∈ ["running", "starting", "stopping", "waiting"] then
    { c with status := "interrupted", turnId := none }
  else c

def recover (st : Store) : Store :=
  { st with conversations := fun id => (st.conversations id).map interrupted }

end Store

end ForgeOS.Galaxy
