import ForgeOS.Galaxy.Requests
import ForgeOS.Galaxy.Store
import ForgeOS.Library.Interleaving
import ForgeOS.Library.NamedLocks

/-! Requests that bring documents into a workspace. A batch is staged, published by one rename and
recorded under the id of its request, in this order: what is cut between the last two has been
published and is not on record, so that the same request publishes it again. -/

namespace ForgeOS.Galaxy.Materials

open ForgeOS.Library.Interleaving ForgeOS.Library.NamedLocks

/-! ### State -/

/-- A row of the table of projects. -/
structure Row where
  id : String
  name : String
  path : String
  kind : ProjectKind
  description : String
  deriving DecidableEq, Repr

/-- What the rest of the server keeps: the tables, and the conversation that has a worker. -/
structure Tables where
  projects : List Row
  conversations : String → Option Conversation
  active : Option String

inductive Route
  | materials
  | collections
  deriving DecidableEq, Repr

/-- The body of a request. `items` is true of items that are checked as they should be, and
`fingerprint` is the digest of the whole body. -/
structure Data where
  id : Js
  projectId : Js
  conversationId : Js
  name : Js
  items : Bool
  fingerprint : String
  deriving DecidableEq, Repr

structure Target where
  projectId : Option String
  conversationId : Option String
  name : String
  deriving DecidableEq, Repr

/-- An import from its locks on, with the id under which it is to be recorded. -/
structure Job where
  data : Data
  target : Target
  record : Option String
  kind : ProjectKind
  deriving DecidableEq, Repr

/-- The stage is being filled; it is complete; it has been renamed, with the project if there was
one; the project has it; the batch is on record. -/
inductive Phase
  | staging
  | staged
  | published (project : Option Row)
  | installed (project : Row)
  | recorded (project : Row)
  deriving DecidableEq, Repr

/-- A route before its body, an import, another route that has a lock. -/
inductive Task
  | body (route : Route)
  | importing (job : Job) (phase : Phase)
  | working (key : String)
  deriving DecidableEq, Repr

structure Answer where
  id : Js
  fingerprint : String
  result : Except String Row
  deriving DecidableEq, Repr

/-- The last three are kept for what is stated: the ids of all batches that have been renamed, of
those that are not recorded yet, and of those whose request ended before it recorded them. -/
structure Shared where
  tables : Tables
  locks : List String
  batches : String → Option (String × Row)
  answers : List Answer
  published : List String
  exposed : List String
  lost : List String

/-- A step of an import succeeds, or throws; `finished` has what is drawn at random for a new
project. -/
inductive Input
  | body (data : Data)
  | done
  | finished (id path : String)
  | failed (message : String)
  deriving DecidableEq, Repr

/-- A request of one of the two routes comes; another route takes a lock; the rest of the server
changes its tables. -/
inductive Request
  | send (route : Route)
  | work (key : String)
  | elsewhere (tables : Tables)

/-! ### Routes -/

def Tables.project (tables : Tables) (id : String) : Option Row :=
  tables.projects.find? (·.id = id)

/-- `projectBusy` -/
def Tables.busy (tables : Tables) (projectId : String) : Bool :=
  tables.active.any fun id =>
    (tables.conversations id).any (·.projectId = projectId)

/-- `data.projectId ? string(data.projectId, 100) : undefined` -/
def optional (value : Js) : Except String (Option String) :=
  if value.truthy then (string value 100).map some else .ok none

/-- The project of a target, which takes material. -/
def takes (tables : Tables) : Option String → Except String (Option Row)
  | none => .ok none
  | some id =>
    match tables.project id with
    | none => .error "Workspace not found."
    | some project =>
      match project.kind with
      | .system =>
        .error "Use a document workspace to gather material. System is for the tablet."
      | .assistant =>
        .error ("Ask Assistant to save a named meeting brief first, then add material to that " ++
          "meeting workspace.")
      | _ => .ok (some project)

def targetOf (tables : Tables) (data : Data) : Except String Target := do
  let projectId ← optional data.projectId
  let project ← takes tables projectId
  let conversationId ← optional data.conversationId
  match conversationId with
  | none => pure ()
  | some id =>
    match tables.conversations id with
    | none => throw "Conversation not found."
    | some c =>
      if some c.projectId ≠ projectId then throw "Choose a conversation in this workspace."
  match project with
  | some project => pure ⟨projectId, conversationId, project.name⟩
  | none => return ⟨projectId, conversationId, ← string data.name 80⟩

/-- `/^[0-9a-f-]{36}$/i` -/
def requestId (id : String) : Bool :=
  id.toList.length = 36 && id.toList.all fun c =>
    ('0' ≤ c && c ≤ '9') || ('a' ≤ c && c ≤ 'f') || ('A' ≤ c && c ≤ 'F') || c == '-'

def materialReplay (s : Shared) (id fingerprint : String) : Except String (Option Row) :=
  if !requestId id then .error "A valid import request ID is required."
  else
    match s.batches id with
    | none => .ok none
    | some (earlier, project) =>
      if earlier ≠ fingerprint then
        .error "This import request was already used for different material."
      else .ok (some project)

/-- The text of a value that is one. -/
def textOf : Js → String
  | .string s => s
  | _ => ""

/-- The id under which an earlier batch is looked for, and the one under which this one is recorded.
OneDrive files may come without an id, and their id is recorded as it has been sent. -/
def idsOf (data : Data) : Route → Except String (Option (String × String))
  | .materials => (string data.id 100).map fun id => some (id, id)
  | .collections =>
    if data.id.truthy then (string data.id 100).map fun id => some (id, textOf data.id)
    else .ok none

def replayOf (s : Shared) (fingerprint : String) :
    Option (String × String) → Except String (Option Row)
  | none => .ok none
  | some (id, _) => materialReplay s id fingerprint

/-- `project:${target.projectId || "new"}` -/
def Target.key (target : Target) : String := "project:" ++ target.projectId.getD "new"

def Shared.locked (s : Shared) (target : Target) : Bool :=
  s.locks.contains "import" || s.locks.contains "export" || s.locks.contains target.key ||
    target.conversationId.any (fun id => s.locks.contains id) ||
    target.projectId.any s.tables.busy

def Shared.answer (s : Shared) (data : Data) (result : Except String Row) : Shared :=
  { s with answers := s.answers ++ [⟨data.id, data.fingerprint, result⟩] }

def kindOf : Route → ProjectKind
  | .materials => .folder
  | .collections => .onedrive

/-- A route from its body to the first of its awaits. -/
def start (route : Route) (data : Data) (s : Shared) : Shared × List Task :=
  if route = .collections ∧ !data.items then
    (s.answer data (.error "Select valid OneDrive files."), [])
  else
    match targetOf s.tables data with
    | .error m => (s.answer data (.error m), [])
    | .ok target =>
      match idsOf data route with
      | .error m => (s.answer data (.error m), [])
      | .ok ids =>
        match replayOf s data.fingerprint ids with
        | .error m => (s.answer data (.error m), [])
        | .ok (some project) => (s.answer data (.ok project), [])
        | .ok none =>
          if s.locked target then
            (s.answer data
              (.error "Let the current operation finish before adding material."), [])
          else
            ({ s with locks := target.key :: "import" :: s.locks },
              [.importing ⟨data, target, ids.map (·.2), kindOf route⟩ .staging])

/-- What a handler holds from the step that takes it to its end. -/
def Task.holds : Task → List String
  | .importing job _ => [job.target.key, "import"]
  | .working key => [key]
  | .body _ => []

/-- A handler gives its locks back. -/
def Shared.release (s : Shared) (t : Task) : Shared :=
  { s with locks := s.locks.filter (· ∉ t.holds) }

/-- The rename has been done and the batch is not on record. -/
def Phase.unrecorded : Phase → Bool
  | .published _ | .installed _ => true
  | _ => false

/-- A step of an import throws: the stage is removed, and what has been renamed stays. -/
def fail (job : Job) (phase : Phase) (message : String) (s : Shared) : Shared × List Task :=
  let left := if phase.unrecorded then job.record.toList else []
  ((({ s with exposed := s.exposed.diff left, lost := left ++ s.lost }).answer job.data
    (.error message)).release (.importing job phase), [])

/-- `installMaterials` up to its rename. -/
def publish (job : Job) (project : Option Row) (s : Shared) : Shared × List Task :=
  ({ s with published := job.record.toList ++ s.published,
            exposed := job.record.toList ++ s.exposed },
    [.importing job (.published project)])

/-- `addProject`, with the id and the folder of the new project. -/
def addProject (job : Job) (id path : String) (s : Shared) : Shared × Row :=
  match s.tables.projects.find? (·.path = path) with
  | some project => (s, project)
  | none =>
    let project : Row := ⟨id, job.target.name, path, job.kind,
      "Gathered documents and emails · source references retained"⟩
    ({ s with tables := { s.tables with projects := s.tables.projects ++ [project] } }, project)

/-- `INSERT INTO material_batches`; the id is its primary key. -/
def record (job : Job) (project : Row) (s : Shared) : Shared × List Task :=
  match job.record with
  | none => (s, [.importing job (.recorded project)])
  | some id =>
    match s.batches id with
    | some _ =>
      fail job (.installed project) "UNIQUE constraint failed: material_batches.id" s
    | none =>
      ({ s with batches := Function.update s.batches id (some (job.data.fingerprint, project)),
                exposed := s.exposed.erase id },
        [.importing job (.recorded project)])

def enter : Request → Shared → Shared × List Task
  | .send .materials, s => (s, [.body .materials])
  | .send .collections, s =>
    -- without a body there is nothing to answer by: the refusal is left out
    if s.locks.contains "import" then (s, []) else (s, [.body .collections])
  | .work key, s =>
    if s.locks.contains key then (s, []) else ({ s with locks := key :: s.locks }, [.working key])
  | .elsewhere tables, s => ({ s with tables := tables }, [])

/-- Other handlers may run between any two steps of an import, which is more than its awaits allow.
A handler that is given something else than it waits for goes on waiting. -/
def resume : Task → Input → Shared → Shared × List Task
  | .body route, .body data, s => start route data s
  | .importing job .staging, .done, s => (s, [.importing job .staged])
  | .importing job .staged, .done, s =>
    match job.target.projectId with
    | none => publish job none s
    | some id =>
      match s.tables.project id with
      | none => fail job .staged "Workspace not found." s
      | some project => publish job (some project) s
  | .importing job (.published (some project)), .finished _ _, s =>
    (s, [.importing job (.installed project)])
  | .importing job (.published none), .finished id path, s =>
    ((addProject job id path s).1, [.importing job (.installed (addProject job id path s).2)])
  | .importing job (.installed project), .done, s => record job project s
  | .importing job (.recorded project), .done, s =>
    ((s.answer job.data (.ok project)).release (.importing job (.recorded project)), [])
  | .importing job .staging, .failed m, s => fail job .staging m s
  | .importing job .staged, .failed m, s => fail job .staged m s
  | .importing job (.published project), .failed m, s => fail job (.published project) m s
  | .importing job (.installed project), .failed m, s => fail job (.installed project) m s
  | .working key, .done, s => (s.release (.working key), [])
  | task, _, s => (s, [task])

/-- What was on its way is cut off; locks are not kept. -/
def restart (s : Shared) : Shared :=
  { s with locks := [], exposed := [], lost := s.exposed ++ s.lost }

def server : Server Shared Task Request Input := ⟨enter, resume, restart, fun _ => false⟩

/-- Before the first request. -/
def initial (tables : Tables) : State Shared Task :=
  ⟨⟨tables, [], fun _ => none, [], [], [], []⟩, []⟩

/-! ### Request ids -/

variable {id : String}

theorem plain_of_requestId (h : requestId id = true) :
    id.toList.length = 36 ∧ ∀ c ∈ id.toList, isWhiteSpace c = false ∧ c.toNat < 0x10000 := by
  simp only [requestId, Bool.and_eq_true, decide_eq_true_eq, List.all_eq_true] at h
  refine ⟨h.1, fun c hc => ?_⟩
  have hlt : 0x2D ≤ c.toNat ∧ c.toNat ≤ 0x66 := by
    have hchar := h.2 c hc
    simp only [Bool.or_eq_true, Bool.and_eq_true, decide_eq_true_eq, beq_iff_eq] at hchar
    rcases hchar with ((⟨hl, hu⟩ | ⟨hl, hu⟩) | ⟨hl, hu⟩) | rfl
    · exact ⟨Nat.le_trans (by decide) hl, Nat.le_trans hu (by decide)⟩
    · exact ⟨Nat.le_trans (by decide) hl, Nat.le_trans hu (by decide)⟩
    · exact ⟨Nat.le_trans (by decide) hl, Nat.le_trans hu (by decide)⟩
    · decide
  constructor
  · simp [isWhiteSpace]
    omega
  · omega

theorem trim_of_plain (h : ∀ c ∈ id.toList, isWhiteSpace c = false) : trim id = id := by
  have hfront : ∀ {l : List Char}, (∀ c ∈ l, isWhiteSpace c = false) →
      l.dropWhile isWhiteSpace = l := by
    intro l hl
    cases l with
    | nil => rfl
    | cons c l => rw [List.dropWhile_cons, if_neg (by simp [hl c List.mem_cons_self])]
  rw [trim, hfront h, hfront fun c hc => h c (List.mem_reverse.mp hc), List.reverse_reverse,
    String.ofList_toList]

theorem utf16Length_of_plain (h : ∀ c ∈ id.toList, c.toNat < 0x10000) :
    utf16Length id = id.toList.length := by
  rw [utf16Length]
  generalize id.toList = l at h
  induction l with
  | nil => rfl
  | cons c l ih =>
    rw [List.map_cons, List.sum_cons, if_pos (h c List.mem_cons_self),
      ih fun d hd => h d (List.mem_cons_of_mem _ hd), List.length_cons, Nat.add_comm]

/-- A request id is taken as it is. -/
theorem string_of_requestId (h : requestId id = true) : string (.string id) 100 = .ok id := by
  obtain ⟨hlength, hchars⟩ := plain_of_requestId h
  have htrim : trim id = id := trim_of_plain fun c hc => (hchars c hc).1
  have hutf16 : utf16Length id = 36 :=
    (utf16Length_of_plain fun c hc => (hchars c hc).2).trans hlength
  rw [string, htrim, hutf16, if_neg]
  rintro (rfl | hlong)
  · cases hlength
  · omega

theorem idsOf_of_requestId (h : requestId id = true) {data : Data} (hid : data.id = .string id)
    (route : Route) : idsOf data route = .ok (some (id, id)) := by
  have hstring := string_of_requestId h
  cases route with
  | materials => rw [idsOf, hid, hstring]; rfl
  | collections =>
    have htruthy : data.id.truthy = true := by
      rw [hid, Js.truthy, bne_iff_ne]
      rintro rfl
      cases h
    rw [idsOf, if_pos htruthy, hid, hstring]
    rfl

/-! ### Steps -/

/-- The import is not over for this id. -/
def Task.pending (id : String) : Task → Bool
  | .importing job phase =>
    job.record = some id && match phase with
      | .recorded _ => false
      | _ => true
  | _ => false

/-- The import has renamed a batch of this id and not recorded it. -/
def Task.exposes (id : String) : Task → Bool
  | .importing job phase => job.record = some id && phase.unrecorded
  | _ => false

theorem pending_of_exposes {t : Task} (h : t.exposes id = true) : t.pending id = true := by
  cases t with
  | importing job phase =>
    cases phase with
    | published project => simpa [Task.exposes, Task.pending, Phase.unrecorded] using h
    | installed project => simpa [Task.exposes, Task.pending, Phase.unrecorded] using h
    | _ => simp [Task.exposes, Phase.unrecorded] at h
  | body route => cases h
  | working key => cases h

/-- How a route begins: it answers, or takes its locks when nothing is on record. -/
theorem start_cases (route : Route) (data : Data) (s : Shared) :
    (∃ result, start route data s = (s.answer data result, []) ∧
      ∀ project, result = .ok project → ∃ ids, idsOf data route = .ok ids ∧
        replayOf s data.fingerprint ids = .ok (some project)) ∨
    ∃ target ids, idsOf data route = .ok ids ∧ replayOf s data.fingerprint ids = .ok none ∧
      s.locked target = false ∧
      start route data s = ({ s with locks := target.key :: "import" :: s.locks },
        [.importing ⟨data, target, ids.map (·.2), kindOf route⟩ .staging]) := by
  rw [start]
  split
  · exact .inl ⟨_, rfl, by simp⟩
  · split
    · exact .inl ⟨_, rfl, by simp⟩
    · next target htarget =>
      split
      · exact .inl ⟨_, rfl, by simp⟩
      · next ids hids =>
        split
        · exact .inl ⟨_, rfl, by simp⟩
        · next project hreplay =>
          refine .inl ⟨_, rfl, fun p hp => ?_⟩
          exact ⟨ids, hids, hreplay.trans (congrArg _ (congrArg _ (Except.ok.inj hp)))⟩
        · next hreplay =>
          split
          · exact .inl ⟨_, rfl, by simp⟩
          · next hfree => exact .inr ⟨target, ids, hids, hreplay, by simpa using hfree, rfl⟩

/-- What a step does that goes on from where a handler waits. -/
inductive Goes (s : Shared) : Task → Shared × List Task → Prop
  | waits (t : Task) : Goes s t (s, [t])
  | starts (route : Route) (data : Data) : Goes s (.body route) (start route data s)
  | stages (job : Job) : Goes s (.importing job .staging) (s, [.importing job .staged])
  | publishes (job : Job) (project : Option Row) :
      Goes s (.importing job .staged) (publish job project s)
  | installs (job : Job) (project : Option Row) (installed : Row) (tables : Tables) :
      Goes s (.importing job (.published project))
        ({ s with tables := tables }, [.importing job (.installed installed)])
  | records (job : Job) (project : Row) :
      Goes s (.importing job (.installed project)) (record job project s)
  | fails (job : Job) (phase : Phase) (message : String) :
      Goes s (.importing job phase) (fail job phase message s)
  | replies (job : Job) (project : Row) :
      Goes s (.importing job (.recorded project))
        ((s.answer job.data (.ok project)).release (.importing job (.recorded project)), [])
  | ends (key : String) : Goes s (.working key) (s.release (.working key), [])

theorem goes_resume (t : Task) (x : Input) (s : Shared) : Goes s t (resume t x s) := by
  unfold resume
  split
  · exact .starts _ _
  · exact .stages _
  · split
    · exact .publishes _ _
    · split
      · exact .fails _ _ _
      · exact .publishes _ _
  · exact .installs _ _ _ s.tables
  · next job id path =>
    rw [addProject]
    split
    · exact .installs _ _ _ s.tables
    · exact .installs _ _ _ _
  · exact .records _ _
  · exact .replies _ _
  · exact .fails _ _ _
  · exact .fails _ _ _
  · exact .fails _ _ _
  · exact .fails _ _ _
  · exact .ends _
  · exact .waits _

/-! ### What is published and recorded -/

/-- What holds of a task with regard to one request id. -/
structure Good (id : String) (s : Shared) (t : Task) : Prop where
  fresh : t.pending id = true → s.batches id = none
  known : ∀ job phase, t = .importing job phase → job.data.id = .string id →
    job.record = some id
  recorded : ∀ job project, t = .importing job (.recorded project) → job.record = some id →
    s.batches id = some (job.data.fingerprint, project)

/-- A batch that has been renamed is on record, on its way there or lost. -/
structure Sound (id : String) (s : Shared) (ts : List Task) : Prop where
  held : Held Task.holds s.locks ts
  exposed : s.exposed.count id = ts.countP (Task.exposes id)
  count : s.published.count id =
    s.lost.count id + s.exposed.count id + if (s.batches id).isSome then 1 else 0
  tasks : ∀ t ∈ ts, Good id s t
  answered : ∀ a ∈ s.answers, a.id = .string id → ∀ project, a.result = .ok project →
    s.batches id = some (a.fingerprint, project)

variable {s s' : Shared} {t : Task} {ts : List Task}

theorem Good.congr (h : Good id s t) (hbatches : s'.batches id = s.batches id) : Good id s' t where
  fresh ht := hbatches.trans (h.fresh ht)
  known := h.known
  recorded job project ht hrecord := hbatches.trans (h.recorded job project ht hrecord)

theorem good_of_not_importing (h : ∀ job phase, t ≠ .importing job phase) : Good id s t where
  fresh ht := by
    cases t with
    | importing job phase => exact absurd rfl (h job phase)
    | body route => cases ht
    | working key => cases ht
  known job phase ht := absurd ht (h job phase)
  recorded job project ht := absurd ht (h job _)

theorem import_mem_holds (job : Job) (phase : Phase) :
    "import" ∈ (Task.importing job phase).holds :=
  List.mem_cons_of_mem _ List.mem_cons_self

/-- While one imports no other does. -/
theorem Sound.alone {job : Job} {phase : Phase} (h : Sound id s (.importing job phase :: ts)) :
    ∀ u ∈ ts, ∀ job' phase', u ≠ .importing job' phase' := by
  rintro u hu job' phase' rfl
  exact h.held.alone (import_mem_holds job phase) hu (import_mem_holds job' phase')

theorem nodup_holds (t : Task) : t.holds.Nodup := by
  cases t with
  | importing job phase =>
    have hne : job.target.key ≠ "import" := by
      intro h
      have hchars := congrArg String.toList h
      rw [Target.key, String.toList_append] at hchars
      cases hchars
    simpa [Task.holds] using hne
  | body route => exact .nil
  | working key => exact List.nodup_singleton key

/-- Nothing of what is published or recorded changes, and the handlers go on with what they hold. -/
theorem Sound.goes {us : List Task} (h : Sound id s ts) (hheld : Held Task.holds s'.locks us)
    (hbatches : s'.batches = s.batches) (hpublished : s'.published = s.published)
    (hexposed : s'.exposed = s.exposed) (hlost : s'.lost = s.lost)
    (hcount : us.countP (Task.exposes id) = ts.countP (Task.exposes id))
    (htasks : ∀ t ∈ us, Good id s t)
    (hanswered : ∀ a ∈ s'.answers, a.id = .string id → ∀ project, a.result = .ok project →
      s.batches id = some (a.fingerprint, project)) : Sound id s' us where
  held := hheld
  exposed := by rw [hexposed, h.exposed, hcount]
  count := by rw [hpublished, hlost, hexposed, hbatches, h.count]
  tasks t ht := (htasks t ht).congr (congrFun hbatches id)
  answered a ha hid project hresult :=
    (congrFun hbatches id).trans (hanswered a ha hid project hresult)

/-- A handler that imports nothing ends, or one that has nothing exposed, with an answer that is on
record if it is a project. -/
theorem Sound.answer {data : Data} {result : Except String Row} (h : Sound id s (t :: ts))
    (hexposes : t.exposes id = false)
    (hresult : data.id = .string id → ∀ project, result = .ok project →
      s.batches id = some (data.fingerprint, project)) : Sound id (s.answer data result) ts := by
  refine h.goes h.held.tail rfl rfl rfl rfl ?_ ?_ ?_
  · simp [hexposes]
  · exact fun u hu => h.tasks u (List.mem_cons_of_mem _ hu)
  · intro a ha hid project hproject
    rcases List.mem_append.mp ha with ha | ha
    · exact h.answered a ha hid project hproject
    · rw [List.mem_singleton.mp ha] at hid hproject ⊢
      exact hresult hid project hproject

theorem replayOf_some {fingerprint a b : String} {project : Option Row}
    (h : replayOf s fingerprint (some (a, b)) = .ok project) :
    s.batches a = project.map (fingerprint, ·) := by
  rw [replayOf, materialReplay] at h
  split at h
  · cases h
  · split at h
    · next hnone =>
      cases h
      exact hnone
    · next earlier row hsome =>
      split at h
      · cases h
      · next hsame =>
        cases h
        rw [hsome, not_not.mp hsame]
        rfl

/-- What is recorded under a request id has been looked for under it. -/
theorem fst_of_idsOf (hvalid : requestId id = true) {data : Data} {route : Route} {a : String}
    (h : idsOf data route = .ok (some (a, id))) : a = id := by
  cases route with
  | materials =>
    rw [idsOf] at h
    cases hstring : string data.id 100 with
    | error m => rw [hstring] at h; cases h
    | ok b =>
      rw [hstring] at h
      cases h
      rfl
  | collections =>
    rw [idsOf] at h
    split at h
    · cases hstring : string data.id 100 with
      | error m => rw [hstring] at h; cases h
      | ok b =>
        rw [hstring] at h
        simp only [Except.map, Except.ok.injEq, Option.some.injEq, Prod.mk.injEq] at h
        obtain ⟨rfl, htext⟩ := h
        cases hid : data.id with
        | string raw =>
          rw [hid, textOf] at htext
          rw [hid, htext, string_of_requestId hvalid] at hstring
          exact (Except.ok.inj hstring).symm
        | _ =>
          rw [hid] at hstring
          cases hstring
    · cases h

theorem sound_start (hvalid : requestId id = true) {route : Route} {data : Data}
    (h : Sound id s (.body route :: ts)) :
    Sound id (start route data s).1 ((start route data s).2 ++ ts) := by
  rcases start_cases route data s with
    ⟨result, hstart, hresult⟩ | ⟨target, ids, hids, hreplay, hfree, hstart⟩
  · rw [hstart]
    refine h.answer rfl fun hid project hproject => ?_
    obtain ⟨ids, hids, hreplay⟩ := hresult project hproject
    rw [idsOf_of_requestId hvalid hid] at hids
    cases hids
    exact replayOf_some hreplay
  · rw [hstart]
    have hlocks : target.key ∉ s.locks ∧ "import" ∉ s.locks := by
      simp only [Shared.locked, Bool.or_eq_false_iff] at hfree
      constructor
      · simpa using hfree.1.1.2
      · simpa using hfree.1.1.1.1
    have hgood : Good id s
        (.importing ⟨data, target, ids.map (·.2), kindOf route⟩ .staging) := by
      refine ⟨fun hpending => ?_, fun job phase ht hid => ?_, fun job project ht => by cases ht⟩
      · simp only [Task.pending, Bool.and_true, decide_eq_true_eq, Option.map_eq_some_iff]
          at hpending
        obtain ⟨⟨a, b⟩, rfl, rfl⟩ := hpending
        obtain rfl := fst_of_idsOf hvalid hids
        exact replayOf_some hreplay
      · cases ht
        rw [idsOf_of_requestId hvalid hid] at hids
        cases hids
        rfl
    refine h.goes ?_ rfl rfl rfl rfl ?_ ?_ h.answered
    · refine h.held.tail.take
        (t := .importing ⟨data, target, ids.map (·.2), kindOf route⟩ .staging) (fun k hk => ?_)
        (nodup_holds _)
      rcases List.mem_cons.mp hk with rfl | hk
      · exact hlocks.1
      · rw [List.mem_singleton.mp hk]
        exact hlocks.2
    · simp [Task.exposes, Phase.unrecorded]
    · intro u hu
      rcases List.mem_cons.mp hu with rfl | hu
      · exact hgood
      · exact h.tasks u (List.mem_cons_of_mem _ hu)

variable {job : Job} {phase phase' : Phase}

/-- An import goes on to another phase with what it has. -/
theorem Good.next (h : Good id s (.importing job phase))
    (hpending : ∀ project, phase' ≠ .recorded project)
    (hphase : ∀ project, phase ≠ .recorded project) :
    Good id s (.importing job phase') where
  fresh ht := by
    apply h.fresh
    cases phase with
    | recorded project => exact absurd rfl (hphase project)
    | _ =>
      cases phase' with
      | recorded project => exact absurd rfl (hpending project)
      | _ => exact ht
  known j _ ht := by
    cases ht
    exact h.known job phase rfl
  recorded j project ht := by
    cases ht
    exact absurd rfl (hpending project)

theorem count_record (job : Job) :
    job.record.toList.count id = if job.record = some id then 1 else 0 := by
  cases hrecord : job.record with
  | none => rfl
  | some a => simp [List.count_singleton]

/-- What an import has exposed of this id. -/
theorem count_left (job : Job) (phase : Phase) :
    (if phase.unrecorded then job.record.toList else []).count id =
      if (Task.importing job phase).exposes id then 1 else 0 := by
  cases hphase : phase.unrecorded with
  | false => simp [Task.exposes, hphase]
  | true => simp [Task.exposes, hphase, count_record]

theorem Sound.count_exposed (h : Sound id s (.importing job phase :: ts)) :
    s.exposed.count id =
      ts.countP (Task.exposes id) + if (Task.importing job phase).exposes id then 1 else 0 := by
  rw [h.exposed, List.countP_cons]

/-- An import ends, and what it had exposed is lost. -/
theorem sound_fail (h : Sound id s (.importing job phase :: ts)) (message : String) :
    Sound id (fail job phase message s).1 ((fail job phase message s).2 ++ ts) where
  held := h.held.release
  exposed := by
    show (s.exposed.diff _).count id = _
    rw [List.count_diff, count_left, h.count_exposed, Nat.add_sub_cancel]
    rfl
  count := by
    have hcount := h.count
    have hexposed := h.count_exposed
    show s.published.count id = (_ ++ s.lost).count id + (s.exposed.diff _).count id + _
    rw [List.count_append, List.count_diff, count_left, hcount]
    show _ = _ + _ + if (s.batches id).isSome then 1 else 0
    omega
  tasks u hu := (h.tasks u (List.mem_cons_of_mem _ hu)).congr rfl
  answered a ha hid project hproject := by
    rcases List.mem_append.mp ha with ha | ha
    · exact h.answered a ha hid project hproject
    · rw [List.mem_singleton.mp ha] at hproject
      cases hproject

theorem sound_publish (h : Sound id s (.importing job .staged :: ts)) (project : Option Row) :
    Sound id (publish job project s).1 ((publish job project s).2 ++ ts) where
  held := h.held.goes rfl
  exposed := by
    have hexposed := h.count_exposed
    show (job.record.toList ++ s.exposed).count id = _
    rw [List.count_append, count_record, hexposed]
    simp [publish, Task.exposes, Phase.unrecorded, List.countP_cons, Nat.add_comm]
  count := by
    have hcount := h.count
    show (job.record.toList ++ s.published).count id =
      s.lost.count id + (job.record.toList ++ s.exposed).count id + _
    rw [List.count_append, List.count_append, hcount]
    show _ = _ + _ + if (s.batches id).isSome then 1 else 0
    omega
  tasks u hu := by
    rcases List.mem_cons.mp hu with rfl | hu
    · exact ((h.tasks _ List.mem_cons_self).next (by simp) (by simp)).congr rfl
    · exact (h.tasks u (List.mem_cons_of_mem _ hu)).congr rfl
  answered := h.answered

/-- The last phase of an import whose batch is on record, if it has an id. -/
theorem Good.recorded_of {project : Row} (h : Good id s (.importing job phase))
    (hrecord : job.record = some id → s'.batches id = some (job.data.fingerprint, project)) :
    Good id s' (.importing job (.recorded project)) where
  fresh ht := by simp [Task.pending] at ht
  known j _ ht := by
    cases ht
    exact h.known job phase rfl
  recorded j p ht hj := by
    cases ht
    exact hrecord hj

theorem sound_record {project : Row} (h : Sound id s (.importing job (.installed project) :: ts)) :
    Sound id (record job project s).1 ((record job project s).2 ++ ts) := by
  have hgood := h.tasks _ List.mem_cons_self
  rw [record]
  split
  · next hnone =>
    refine h.goes (h.held.goes rfl) rfl rfl rfl rfl ?_ ?_ h.answered
    · simp [Task.exposes, hnone]
    · intro u hu
      rcases List.mem_cons.mp hu with rfl | hu
      · exact hgood.recorded_of fun hrecord => by rw [hnone] at hrecord; cases hrecord
      · exact h.tasks u (List.mem_cons_of_mem _ hu)
  · next a ha =>
    split
    · exact sound_fail h _
    · next hbatches =>
      have hexposed := h.count_exposed
      have hcount := h.count
      by_cases hsame : a = id
      · subst hsame
        have hself : (Function.update s.batches a (some (job.data.fingerprint, project))) a =
            some (job.data.fingerprint, project) := Function.update_self _ _ _
        have hone : s.exposed.count a = ts.countP (Task.exposes a) + 1 := by
          rw [hexposed]
          simp [Task.exposes, Phase.unrecorded, ha]
        refine ⟨h.held.goes rfl, ?_, ?_, ?_, ?_⟩
        · show (s.exposed.erase a).count a = _
          rw [List.count_erase_self, hone]
          simp [Task.exposes, Phase.unrecorded]
        · show s.published.count a = s.lost.count a + (s.exposed.erase a).count a + _
          rw [List.count_erase_self, hcount, hone, hbatches]
          simp
          omega
        · intro u hu
          rcases List.mem_cons.mp hu with rfl | hu
          · exact hgood.recorded_of fun _ => hself
          · exact good_of_not_importing (h.alone u hu)
        · intro b hb hid p hproject
          have hsome := h.answered b hb hid p hproject
          rw [hbatches] at hsome
          cases hsome
      · have hother : (Function.update s.batches a (some (job.data.fingerprint, project))) id =
            s.batches id := Function.update_of_ne (Ne.symm hsame) _ _
        have herase : (s.exposed.erase a).count id = s.exposed.count id :=
          List.count_erase_of_ne (Ne.symm hsame)
        have hrecord : job.record ≠ some id := by
          rw [ha]
          exact fun heq => hsame (Option.some.inj heq)
        refine ⟨h.held.goes rfl, ?_, ?_, ?_, ?_⟩
        · show (s.exposed.erase a).count id = _
          rw [herase, hexposed]
          simp [Task.exposes, hrecord]
        · show s.published.count id = s.lost.count id + (s.exposed.erase a).count id + _
          rw [herase, hcount]
          simp [hother]
        · intro u hu
          rcases List.mem_cons.mp hu with rfl | hu
          · exact hgood.recorded_of fun heq => absurd heq hrecord
          · exact (h.tasks u (List.mem_cons_of_mem _ hu)).congr hother
        · intro b hb hid p hproject
          exact hother.trans (h.answered b hb hid p hproject)

theorem sound_goes (hvalid : requestId id = true) {out : Shared × List Task} (hgoes : Goes s t out)
    (h : Sound id s (t :: ts)) : Sound id out.1 (out.2 ++ ts) := by
  have htail : ∀ us : List Task, (∀ u ∈ us, Good id s u) → ∀ u ∈ us ++ ts, Good id s u := by
    intro us hus u hu
    rcases List.mem_append.mp hu with hu | hu
    · exact hus u hu
    · exact h.tasks u (List.mem_cons_of_mem _ hu)
  have hgood := h.tasks _ List.mem_cons_self
  cases hgoes with
  | waits => exact h
  | starts route data => exact sound_start hvalid h
  | stages job =>
    refine h.goes (h.held.goes rfl) rfl rfl rfl rfl ?_ (htail [_] ?_) h.answered
    · simp [Task.exposes, Phase.unrecorded]
    · exact List.forall_mem_singleton.mpr (hgood.next (by simp) (by simp))
  | publishes job project => exact sound_publish h project
  | installs job project installed tables =>
    refine h.goes (h.held.goes rfl) rfl rfl rfl rfl ?_ (htail [_] ?_) h.answered
    · simp [Task.exposes, Phase.unrecorded, List.countP_cons]
    · exact List.forall_mem_singleton.mpr (hgood.next (by simp) (by simp))
  | records job project => exact sound_record h
  | fails job phase message => exact sound_fail h message
  | replies job project =>
    refine h.goes h.held.release rfl rfl rfl rfl ?_ (htail [] (by simp)) ?_
    · simp [Task.exposes, Phase.unrecorded]
    · intro a ha hid p hproject
      rcases List.mem_append.mp ha with ha | ha
      · exact h.answered a ha hid p hproject
      · rw [List.mem_singleton.mp ha] at hid hproject ⊢
        cases hproject
        exact hgood.recorded job project rfl (hgood.known job _ rfl hid)
  | ends key =>
    refine h.goes h.held.release rfl rfl rfl rfl ?_ (htail [] (by simp)) h.answered
    simp [Task.exposes]

theorem sound_invariant (hvalid : requestId id = true) : Invariant server always (Sound id) where
  perm _ _ _ hp h :=
    ⟨h.held.perm hp, h.exposed.trans (hp.countP_eq _), h.count,
      fun t ht => h.tasks t (hp.mem_iff.mpr ht), h.answered⟩
  enter r s ts h _ := by
    have hmore : ∀ {l : List Task}, (∀ t ∈ l, ∀ job phase, t ≠ .importing job phase) →
        ∀ t ∈ l ++ ts, Good id s t := by
      intro l hl t ht
      rcases List.mem_append.mp ht with ht | ht
      · exact good_of_not_importing (hl t ht)
      · exact h.tasks t ht
    cases r with
    | send route =>
      have hheld : Held Task.holds s.locks ([Task.body route] ++ ts) :=
        h.held.more (by simp [Task.holds])
      have hbody : Sound id s (.body route :: ts) :=
        h.goes hheld rfl rfl rfl rfl (by simp [Task.exposes])
          (hmore (l := [.body route]) (by simp)) h.answered
      cases route with
      | materials => exact hbody
      | collections =>
        show Sound id (enter (.send .collections) s).1 ((enter (.send .collections) s).2 ++ ts)
        rw [enter]
        split
        · exact h
        · exact hbody
    | work key =>
      show Sound id (enter (.work key) s).1 ((enter (.work key) s).2 ++ ts)
      rw [enter]
      split
      · exact h
      · next hfree =>
        have hkey : key ∉ s.locks := by simpa using hfree
        refine h.goes ?_ rfl rfl rfl rfl (by simp [Task.exposes])
          (hmore (l := [.working key]) (by simp)) h.answered
        exact h.held.take (t := .working key)
          (fun k hk => by rw [List.mem_singleton.mp hk]; exact hkey) (nodup_holds _)
    | elsewhere tables => exact h.goes h.held rfl rfl rfl rfl rfl h.tasks h.answered
  resume t x s ts h _ := sound_goes hvalid (goes_resume t x s) h
  restart s ts h := by
    rw [server.filter_survives (fun _ => rfl) ts]
    refine ⟨held_nil, rfl, ?_, by simp, h.answered⟩
    show s.published.count id = (s.exposed ++ s.lost).count id + 0 + _
    rw [List.count_append, h.count]
    show _ = _ + if (s.batches id).isSome then 1 else 0
    omega

/-! ### Repeated requests -/

/-- The batch is on record, and none of the handlers is to publish one under its id. -/
structure Settled (id : String) (batch : String × Row) (n : ℕ) (s : Shared) (ts : List Task) :
    Prop where
  batches : s.batches id = some batch
  count : s.published.count id = n
  tasks : ∀ t ∈ ts, t.pending id = false

variable {batch : String × Row} {n : ℕ}

theorem Sound.settled (h : Sound id s ts) (hbatch : s.batches id = some batch) :
    Settled id batch (s.published.count id) s ts where
  batches := hbatch
  count := rfl
  tasks t ht := by
    rw [← Bool.not_eq_true]
    intro hpending
    rw [(h.tasks t ht).fresh hpending] at hbatch
    cases hbatch

theorem Settled.goes {us : List Task} (h : Settled id batch n s (t :: ts))
    (hbatches : s'.batches id = s.batches id)
    (hpublished : s'.published.count id = s.published.count id)
    (hus : ∀ u ∈ us, u.pending id = false) : Settled id batch n s' (us ++ ts) where
  batches := hbatches.trans h.batches
  count := hpublished.trans h.count
  tasks u hu := by
    rcases List.mem_append.mp hu with hu | hu
    · exact hus u hu
    · exact h.tasks u (List.mem_cons_of_mem _ hu)

theorem record_ne (h : Task.pending id (.importing job phase) = false)
    (hphase : ∀ project, phase ≠ .recorded project) : job.record ≠ some id := by
  intro hrecord
  cases phase with
  | recorded project => exact hphase project rfl
  | _ => simp [Task.pending, hrecord] at h

theorem settled_goes (hvalid : requestId id = true) {out : Shared × List Task}
    (hgoes : Goes s t out) (h : Settled id batch n s (t :: ts)) :
    Settled id batch n out.1 (out.2 ++ ts) := by
  have hpending := h.tasks _ List.mem_cons_self
  cases hgoes with
  | waits => exact h
  | starts route data =>
    rcases start_cases route data s with
      ⟨result, hstart, -⟩ | ⟨target, ids, hids, hreplay, -, hstart⟩
    · rw [hstart]
      exact h.goes rfl rfl (by simp)
    · rw [hstart]
      refine h.goes rfl rfl (List.forall_mem_singleton.mpr ?_)
      simp only [Task.pending, Bool.and_true, decide_eq_false_iff_not]
      intro hrecord
      obtain ⟨⟨a, b⟩, rfl, rfl⟩ := Option.map_eq_some_iff.mp hrecord
      obtain rfl := fst_of_idsOf hvalid hids
      have hnone := h.batches.symm.trans (replayOf_some hreplay)
      cases hnone
  | stages job => exact h.goes rfl rfl (List.forall_mem_singleton.mpr hpending)
  | publishes job project =>
    refine h.goes rfl ?_ (List.forall_mem_singleton.mpr hpending)
    show (job.record.toList ++ s.published).count id = _
    rw [List.count_append, count_record, if_neg (record_ne hpending (by simp)), Nat.zero_add]
  | installs job project installed tables =>
    exact h.goes rfl rfl (List.forall_mem_singleton.mpr hpending)
  | records job project =>
    have hother := record_ne hpending (by simp)
    rw [record]
    split
    · exact h.goes rfl rfl (by simp [Task.pending])
    · next a ha =>
      split
      · exact h.goes rfl rfl (by simp [fail])
      · refine h.goes ?_ rfl (by simp [Task.pending])
        exact Function.update_of_ne (fun heq => hother (ha.trans (congrArg _ heq.symm))) _ _
  | fails job phase message => exact h.goes rfl rfl (by simp [fail])
  | replies job project => exact h.goes rfl rfl (by simp)
  | ends key => exact h.goes rfl rfl (by simp)

theorem settled_invariant (hvalid : requestId id = true) :
    Invariant server always (Settled id batch n) where
  perm _ _ _ hp h := ⟨h.batches, h.count, fun t ht => h.tasks t (hp.mem_iff.mpr ht)⟩
  enter r s ts h _ := by
    have hbegin : ∀ {u : Task}, u.pending id = false → ∀ t ∈ u :: ts, t.pending id = false :=
      fun hu => List.forall_mem_cons.mpr ⟨hu, h.tasks⟩
    cases r with
    | send route =>
      cases route with
      | materials => exact ⟨h.batches, h.count, hbegin rfl⟩
      | collections =>
        show Settled id batch n (enter (.send .collections) s).1
          ((enter (.send .collections) s).2 ++ ts)
        rw [enter]
        split
        · exact h
        · exact ⟨h.batches, h.count, hbegin rfl⟩
    | work key =>
      show Settled id batch n (enter (.work key) s).1 ((enter (.work key) s).2 ++ ts)
      rw [enter]
      split
      · exact h
      · exact ⟨h.batches, h.count, hbegin rfl⟩
    | elsewhere tables => exact ⟨h.batches, h.count, h.tasks⟩
  resume t x s ts h _ := settled_goes hvalid (goes_resume t x s) h
  restart s ts h := by
    rw [server.filter_survives (fun _ => rfl) ts]
    exact ⟨h.batches, h.count, by simp⟩

/-- What a request is answered whose id is on record. -/
def repetition (tables : Tables) (route : Route) (data : Data) (batch : String × Row) :
    Except String Row :=
  if route = .collections ∧ !data.items then .error "Select valid OneDrive files."
  else (targetOf tables data).bind fun _ =>
    if batch.1 ≠ data.fingerprint then
      .error "This import request was already used for different material."
    else .ok batch.2

theorem start_of_recorded (hvalid : requestId id = true) (hbatch : s.batches id = some batch)
    {data : Data} (hid : data.id = .string id) (route : Route) :
    start route data s = (s.answer data (repetition s.tables route data batch), []) := by
  have hreplay : replayOf s data.fingerprint (some (id, id)) =
      if batch.1 ≠ data.fingerprint then
        .error "This import request was already used for different material."
      else .ok (some batch.2) := by
    rw [replayOf, materialReplay, hvalid, hbatch]
    rfl
  rw [start, repetition]
  split
  · rfl
  · cases htarget : targetOf s.tables data with
    | error m => rfl
    | ok target =>
      simp only [idsOf_of_requestId hvalid hid, hreplay]
      by_cases hsame : batch.1 = data.fingerprint
      · simp [hsame, Except.bind]
      · simp [hsame, Except.bind]

/-- A run from the first start of the server. -/
abbrev after (tables : Tables) (es : List (Event Request Input)) : State Shared Task :=
  server.run (initial tables) es

theorem sound_after (hvalid : requestId id = true) (tables : Tables)
    (es : List (Event Request Input)) :
    Sound id (after tables es).shared (after tables es).waiting := by
  apply (sound_invariant hvalid).run_always
  exact ⟨held_nil, rfl, rfl, by simp [initial], by simp [initial]⟩

/-- Of all renames under a request id only one is not of a request that was cut off before its batch
was recorded. -/
theorem published_le (hvalid : requestId id = true) (tables : Tables)
    (es : List (Event Request Input)) :
    (after tables es).shared.published.count id ≤ (after tables es).shared.lost.count id + 1 := by
  have h := sound_after hvalid tables es
  have hone : (after tables es).shared.exposed.count id ≤ 1 := by
    rw [h.exposed]
    apply h.held.countP_le_one (k := "import")
    intro t ht
    cases t with
    | importing job phase => exact import_mem_holds job phase
    | body route => cases ht
    | working key => cases ht
  have hcount := h.count
  split at hcount
  · next hsome =>
    obtain ⟨batch, hbatch⟩ := Option.isSome_iff_exists.mp hsome
    have hnone : (after tables es).shared.exposed.count id = 0 := by
      rw [h.exposed, List.countP_eq_zero]
      intro t ht hexposes
      have hsettled := (h.settled hbatch).tasks t ht
      rw [pending_of_exposes hexposes] at hsettled
      cases hsettled
    omega
  · omega

/-- In every run and for every request id: of the renames under it at most one more than were lost
to a failure or a restart before their record; and once a request has been answered with a project
nothing is renamed under its id, and a request that repeats it is answered with that project unless
its body is refused as any other would be. -/
theorem published_once (hvalid : requestId id = true) (tables : Tables)
    (es fs : List (Event Request Input)) :
    (after tables es).shared.published.count id ≤ (after tables es).shared.lost.count id + 1 ∧
      ∀ a ∈ (after tables es).shared.answers, a.id = .string id →
        ∀ project, a.result = .ok project →
          (after tables (es ++ fs)).shared.published.count id =
              (after tables es).shared.published.count id ∧
            ∀ k route data, (after tables (es ++ fs)).waiting[k]? = some (.body route) →
              data.id = .string id →
                server.step (after tables (es ++ fs)) (.wake k (.body data)) =
                  ⟨(after tables (es ++ fs)).shared.answer data
                      (repetition (after tables (es ++ fs)).shared.tables route data
                        (a.fingerprint, project)),
                    (after tables (es ++ fs)).waiting.eraseIdx k⟩ := by
  refine ⟨published_le hvalid tables es, fun a ha hid project hproject => ?_⟩
  have h := sound_after hvalid tables es
  have hsettled := (settled_invariant hvalid).run_always
    (h.settled (h.answered a ha hid project hproject)) fs
  have hrun : after tables (es ++ fs) = server.run (after tables es) fs := server.run_append _ _ _
  rw [hrun]
  refine ⟨hsettled.count, fun k route data hk hdata => ?_⟩
  have hstart := start_of_recorded hvalid hsettled.batches hdata route
  simp only [Server.step, hk]
  show State.mk (start route data _).1 ((start route data _).2 ++ _) = _
  rw [hstart]
  rfl

/-- A new workspace for pasted notes. -/
def notes : Data where
  id := .string "00000000-0000-4000-8000-000000000001"
  projectId := .undefined
  conversationId := .undefined
  name := .string "Notes"
  items := false
  fingerprint := "digest"

def noTables : Tables := ⟨[], fun _ => none, none⟩

def notesProject : Row :=
  ⟨"p1", "Notes", "/collections/1", .folder,
    "Gathered documents and emails · source references retained"⟩

/-- The steps of an import up to its rename, and those after it. -/
def untilRename : List (Event Request Input) :=
  [.arrive (.send .materials), .wake 0 (.body notes), .wake 0 .done, .wake 0 .done]

def fromRename : List (Event Request Input) :=
  [.wake 0 (.finished "p1" "/collections/1"), .wake 0 .done, .wake 0 .done]

/-- The request is sent again after it has been answered. -/
theorem notes_repeated :
    server.step (after noTables (untilRename ++ fromRename ++ [.arrive (.send .materials)]))
        (.wake 0 (.body notes)) =
      ⟨(after noTables (untilRename ++ fromRename ++ [.arrive (.send .materials)])).shared.answer
        notes (.ok notesProject), []⟩ := by
  have hvalid : requestId "00000000-0000-4000-8000-000000000001" = true := by decide
  have hanswered : (⟨notes.id, "digest", .ok notesProject⟩ : Answer) ∈
      (after noTables (untilRename ++ fromRename)).shared.answers := by decide
  have hrepeated := ((published_once hvalid noTables (untilRename ++ fromRename)
    [.arrive (.send .materials)]).2 _ hanswered rfl notesProject rfl).2
  exact hrepeated 0 .materials notes rfl rfl

/-- The server stops after the rename, and the request is sent again. -/
theorem renamed_twice :
    ¬∀ (tables : Tables) (es : List (Event Request Input)) (id : String), requestId id = true →
      (after tables es).shared.published.count id ≤ 1 := by
  intro h
  have htwice := h noTables (untilRename ++ .restart :: untilRename)
    "00000000-0000-4000-8000-000000000001" (by decide)
  revert htwice
  decide

end ForgeOS.Galaxy.Materials
