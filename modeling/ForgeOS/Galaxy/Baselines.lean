import ForgeOS.Galaxy.ImportLocks

/-! The baseline of a draft: the digests of the files as they were copied, or as they were when they
were last saved or imported. Saves and imports read the whole file, wait for git and write the whole
file back. -/

namespace ForgeOS.Galaxy.Baselines

open ForgeOS.Library.Interleaving ForgeOS.Library.NamedLocks
open ImportLocks (Lock Target targetOf takeImport takeImport_eq_some)

/-! ### State -/

/-- A folder of the user or of the host, or a directory that `createDraft` has made, which is named
after its conversation and a random identifier. -/
inductive Workspace
  | folder (path : String)
  | draft (id uuid : String)
  deriving DecidableEq, Repr

/-- A conversation, as far as drafts are concerned. One that is not the assistant's stays in its
project. -/
structure Conversation where
  projectId : String
  workspace : Workspace
  mode : Mode
  deriving DecidableEq, Repr

/-- The digests by path. -/
abbrev Baseline := String → Option String

/-- Paths and digests that are put into a baseline. -/
abbrev Entries := List (String × String)

def Baseline.set (b : Baseline) (entries : Entries) : Baseline :=
  entries.foldl (fun b e => Function.update b e.1 (some e.2)) b

/-- The tables, the locks, the baseline files, the random identifiers given so far, and what has been
put into baselines: by `createDraft`, by a checkpoint or by an import, the last first. -/
structure Shared where
  projects : String → Option Project
  conversations : String → Option Conversation
  locks : List Lock
  baselines : Workspace → Option Baseline
  given : List String
  log : List (Workspace × Entries)

/-- A route of a conversation before its body, with the conversation it has read; an apply or a save
before its checkpoint, and in it while git runs; an import before it installs its files, and in it
while git runs; `createDraft`, with or without the lock of the conversation; another route with a
lock. -/
inductive Task
  | body (id : String) (c : Conversation) (kind : ProjectKind)
  | acting (id : String) (w : Workspace)
  | checkpointing (id : String) (w : Workspace) (manifest : Baseline) (entries : Entries)
  | staging (target : Target)
  | committing (target : Target) (w : Workspace) (manifest : Baseline) (entries : Entries)
  | drafting (id uuid : String) (entries : Entries) (locked : Bool)
  | working (key : Lock)

/-- `act` is an apply or a save. -/
inductive Action
  | draft (uuid : String) (entries : Entries)
  | report (uuid : String) (entries : Entries)
  | act
  deriving DecidableEq, Repr

/-- `busy` says that the worker of the conversation is active. -/
inductive Input
  | route (busy : Bool) (action : Action)
  | checkpoint (path hash : String)
  | install (entries : Entries)
  | committed
  | failed
  deriving DecidableEq, Repr

/-- A route of a conversation begins; the body of an import has come (`busy` is `projectBusy`); another
route takes a lock; a tool prepares a report. -/
inductive Request
  | action (id : String)
  | collect (target : Target) (busy : Bool)
  | work (key : Lock)
  | tool (id uuid : String) (entries : Entries)
  deriving DecidableEq, Repr

/-! ### Handlers -/

/-- What a handler holds from the step that takes it to its end. -/
def Task.holds : Task → List Lock
  | .acting id _ | .checkpointing id _ _ _ | .drafting id _ _ true => [.conversation id]
  | .staging target | .committing target _ _ _ => [.project target.projectId, .importing]
  | .working key => [key]
  | _ => []

/-- A handler gives its locks back. -/
def Shared.release (s : Shared) (t : Task) : Shared :=
  { s with locks := s.locks.filter (· ∉ t.holds) }

/-- A baseline file is written. -/
def Shared.write (s : Shared) (w : Workspace) (manifest : Baseline) (entries : Entries) : Shared :=
  { s with
    baselines := Function.update s.baselines w (some manifest)
    log := (w, entries) :: s.log }

/-- `createDraft` up to its wait, for a conversation that is not in a draft as far as its caller
knows. -/
def createDraft (id uuid : String) (entries : Entries) (locked : Bool) (s : Shared) :
    Shared × List Task :=
  if s.given.contains uuid then (s, [])
  else
    ({ s with
        given := uuid :: s.given
        locks := (if locked then [.conversation id] else []) ++ s.locks },
      [.drafting id uuid entries locked])

/-- `prepareReport` reads the conversation afresh. -/
def prepareReport (id uuid : String) (entries : Entries) (locked : Bool) (s : Shared) :
    Shared × List Task :=
  match s.conversations id with
  | some c => if c.mode = .draft then (s, []) else createDraft id uuid entries locked s
  | none => (s, [])

/-- The routes of a conversation after their body, with the conversation as it was before. -/
def route (id : String) (c : Conversation) (kind : ProjectKind) (busy : Bool) (action : Action)
    (s : Shared) : Shared × List Task :=
  if kind = .system ∨ busy ∨ s.locks.contains (.conversation id) ∨
      s.locks.contains (.project (some c.projectId)) then (s, [])
  else
    match action with
    | .report uuid entries => prepareReport id uuid entries true s
    | .draft uuid entries =>
      if kind.assisted ∨ c.mode = .draft then (s, []) else createDraft id uuid entries true s
    | .act =>
      if kind.assisted ∨ c.mode ≠ .draft then (s, [])
      else ({ s with locks := .conversation id :: s.locks }, [.acting id c.workspace])

/-- `checkpointDraft` up to its wait. -/
def checkpoint (id : String) (w : Workspace) (path hash : String) (s : Shared) :
    Shared × List Task :=
  match s.baselines w with
  | some b => (s, [.checkpointing id w (b.set [(path, hash)]) [(path, hash)]])
  | none => (s.release (.acting id w), [])

/-- The materials and the collections route after their bodies. -/
def collect (target : Target) (busy : Bool) (s : Shared) : Shared × List Task :=
  let known := targetOf s.projects (fun id => (s.conversations id).map (·.projectId)) target
  match takeImport known busy target s.locks with
  | some locks => ({ s with locks }, [.staging target])
  | none => (s, [])

/-- `installMaterials` up to its wait, or to its end where no draft takes the files. -/
def install (target : Target) (entries : Entries) (s : Shared) : Shared × List Task :=
  let ends : Shared × List Task := (s.release (.staging target), [])
  match target.conversationId.bind s.conversations, target.projectId.bind s.projects with
  | some c, some p =>
    if target.projectId = some c.projectId ∧ c.mode = .draft ∧ c.workspace ≠ .folder p.path then
      match s.baselines c.workspace with
      | some b => (s, [.committing target c.workspace (b.set entries) entries])
      | none => ends
    else ends
  | _, _ => ends

def enter : Request → Shared → Shared × List Task
  | .action id, s =>
    match s.conversations id with
    | none => (s, [])
    | some c =>
      match s.projects c.projectId with
      | none => (s, [])
      | some p => (s, [.body id c p.kind])
  | .collect target busy, s => collect target busy s
  | .work key, s =>
    if key.ofProject || s.locks.contains key then (s, [])
    else ({ s with locks := key :: s.locks }, [.working key])
  | .tool id uuid entries, s => prepareReport id uuid entries false s

/-- The conversation moves into its draft. -/
def Shared.enterDraft (s : Shared) (id uuid : String) : Shared :=
  { s with
    conversations := Function.update s.conversations id
      ((s.conversations id).map ({ · with workspace := .draft id uuid, mode := .draft })) }

/-- A handler that is given something else than it waits for goes on waiting. -/
def resume : Task → Input → Shared → Shared × List Task
  | .body id c kind, .route busy action, s => route id c kind busy action s
  | .acting id w, .checkpoint path hash, s => checkpoint id w path hash s
  | .checkpointing id w manifest entries, .committed, s =>
    ((s.write w manifest entries).release (.acting id w), [])
  | .staging target, .install entries, s => install target entries s
  | .committing target w manifest entries, .committed, s =>
    ((s.write w manifest entries).release (.staging target), [])
  | .drafting id uuid entries locked, .committed, s =>
    (((s.write (.draft id uuid) (Baseline.set (fun _ => none) entries) entries).enterDraft id
      uuid).release (.drafting id uuid entries locked), [])
  | .body _ _ _, .failed, s => (s, [])
  | task, .failed, s => (s.release task, [])
  | task, _, s => (s, [task])

def restart (s : Shared) : Shared := { s with locks := [] }

def server : Server Shared Task Request Input := ⟨enter, resume, restart, fun _ => false⟩

/-- Any projects, and conversations in folders (with their projects, folders and modes), before the
first draft. -/
def initial (projects : String → Option Project)
    (conversations : String → Option (String × String × Mode)) : State Shared Task :=
  ⟨⟨projects, fun id => (conversations id).map fun c => ⟨c.1, .folder c.2.1, c.2.2⟩, [],
    fun _ => none, [], []⟩, []⟩

/-! ### What the baselines should hold -/

/-- The entries of a draft put together in the order in which they were completed. -/
def replay : List (Workspace × Entries) → Workspace → Option Baseline
  | [], _ => none
  | e :: log, w =>
    if e.1 = w then some (((replay log w).getD fun _ => none).set e.2) else replay log w

theorem isSome_set {b : Baseline} {entries : Entries} {path : String}
    (h : (b path).isSome ∨ ∃ hash, (path, hash) ∈ entries) : ((b.set entries) path).isSome := by
  induction entries generalizing b with
  | nil =>
    rcases h with h | ⟨hash, h⟩
    · exact h
    · cases h
  | cons e es ih =>
    refine ih ?_
    show (Function.update b e.1 (some e.2) path).isSome ∨ _
    by_cases hpath : path = e.1
    · refine .inl ?_
      rw [hpath, Function.update_self]
      rfl
    · rw [Function.update_of_ne hpath]
      rcases h with h | ⟨hash, h⟩
      · exact .inl h
      · rcases List.mem_cons.mp h with heq | h
        · exact absurd (congrArg Prod.fst heq) hpath
        · exact .inr ⟨hash, h⟩

/-- No entry that was completed is lost later. -/
theorem replay_keeps {log : List (Workspace × Entries)} {w : Workspace} {entries : Entries}
    (h : (w, entries) ∈ log) {path hash : String} (hentry : (path, hash) ∈ entries) :
    ∃ b, replay log w = some b ∧ (b path).isSome := by
  induction log with
  | nil => cases h
  | cons e log ih =>
    rw [replay]
    split
    · next hw =>
      refine ⟨_, rfl, isSome_set ?_⟩
      rcases List.mem_cons.mp h with rfl | h
      · exact .inr ⟨hash, hentry⟩
      · obtain ⟨b, hb, hpath⟩ := ih h
        rw [hb]
        exact .inl hpath
    · next hw =>
      rcases List.mem_cons.mp h with rfl | h
      · exact absurd rfl hw
      · exact ih h

/-! ### Exclusion -/

/-- The conversation in whose draft an apply or a save is at work. -/
def Task.acts : Task → Option String
  | .acting id _ | .checkpointing id _ _ _ => some id
  | _ => none

/-- The conversation whose draft takes the files of an import. -/
def Task.importsFor : Task → Option String
  | .staging target | .committing target _ _ _ => target.conversationId
  | _ => none

def Task.uuid : Task → Option String
  | .drafting _ uuid _ _ => some uuid
  | _ => none

/-- If the workspace is a draft, it is this conversation's. -/
def Workspace.OwnedBy (w : Workspace) (id : String) : Prop := ∀ o u, w = .draft o u → o = id

/-- The manifest is what the file holds, with the new entries. -/
def Current (s : Shared) (w : Workspace) (manifest : Baseline) (entries : Entries) : Prop :=
  ∃ b, s.baselines w = some b ∧ manifest = b.set entries

/-- The conversation that takes the files belongs to the project. -/
def Fits (s : Shared) (target : Target) : Prop :=
  ∀ id, target.conversationId = some id →
    ∃ c, s.conversations id = some c ∧ target.projectId = some c.projectId

/-- What a handler relies on while it waits. -/
def Task.Sound (s : Shared) : Task → Prop
  | .body id c _ =>
    (∃ c', s.conversations id = some c' ∧ c'.projectId = c.projectId) ∧ c.workspace.OwnedBy id
  | .acting id w => w.OwnedBy id
  | .checkpointing id w manifest entries => w.OwnedBy id ∧ Current s w manifest entries
  | .staging target => Fits s target
  | .committing target w manifest entries =>
    Fits s target ∧ (∃ id, target.conversationId = some id ∧ w.OwnedBy id) ∧
      Current s w manifest entries
  | .drafting id uuid _ _ => uuid ∈ s.given ∧ s.baselines (.draft id uuid) = none
  | .working _ => True

structure Sound (s : Shared) (ts : List Task) : Prop where
  locked : Held Task.holds s.locks ts
  replay : ∀ w, s.baselines w = replay s.log w
  owner : ∀ id c, s.conversations id = some c → c.workspace.OwnedBy id
  drafts : ∀ w b, s.baselines w = some b → ∃ id u, w = .draft id u ∧ u ∈ s.given
  tasks : ∀ t ∈ ts, t.Sound s
  apart : ∀ t ∈ ts, ∀ u ∈ ts, ∀ id, t.acts = some id → u.importsFor ≠ some id
  uuids : (ts.filterMap Task.uuid).Nodup

/-- Conversations stay in their projects, and baselines are as they were. -/
structure Keeps (s s' : Shared) : Prop where
  conversations : ∀ id c, s.conversations id = some c →
    ∃ c', s'.conversations id = some c' ∧ c'.projectId = c.projectId
  baselines : s'.baselines = s.baselines
  given : ∀ u ∈ s.given, u ∈ s'.given

theorem Keeps.fits {s s' : Shared} (h : Keeps s s') {target : Target} (hf : Fits s target) :
    Fits s' target := by
  intro id hid
  obtain ⟨c, hc, hproject⟩ := hf id hid
  obtain ⟨c', hc', hsame⟩ := h.conversations id c hc
  exact ⟨c', hc', by rw [hsame]; exact hproject⟩

theorem Keeps.sound {s s' : Shared} (h : Keeps s s') {t : Task} (ht : t.Sound s) : t.Sound s' := by
  cases t with
  | body id c kind =>
    obtain ⟨⟨c', hc', hsame⟩, hown⟩ := ht
    obtain ⟨c'', hc'', hsame'⟩ := h.conversations id c' hc'
    exact ⟨⟨c'', hc'', hsame'.trans hsame⟩, hown⟩
  | acting id w => exact ht
  | checkpointing id w manifest entries =>
    obtain ⟨hown, b, hb, hm⟩ := ht
    exact ⟨hown, b, by rw [h.baselines]; exact hb, hm⟩
  | staging target => exact h.fits ht
  | committing target w manifest entries =>
    obtain ⟨hfits, hid, b, hb, hm⟩ := ht
    exact ⟨h.fits hfits, hid, b, by rw [h.baselines]; exact hb, hm⟩
  | drafting id uuid entries locked =>
    exact ⟨h.given uuid ht.1, by rw [h.baselines]; exact ht.2⟩
  | working key => trivial

theorem Keeps.of_eq {s s' : Shared} (hconversations : s'.conversations = s.conversations)
    (hbaselines : s'.baselines = s.baselines) (hgiven : ∀ u ∈ s.given, u ∈ s'.given) :
    Keeps s s' :=
  ⟨fun _ c hc => ⟨c, by rw [hconversations]; exact hc, rfl⟩, hbaselines, hgiven⟩

theorem Keeps.drafts {s s' : Shared} (h : Keeps s s') {w : Workspace} {b : Baseline}
    (hd : ∀ w b, s.baselines w = some b → ∃ id u, w = .draft id u ∧ u ∈ s.given)
    (hb : s'.baselines w = some b) : ∃ id u, w = .draft id u ∧ u ∈ s'.given := by
  rw [h.baselines] at hb
  obtain ⟨id, u, hw, hu⟩ := hd w b hb
  exact ⟨id, u, hw, h.given u hu⟩

/-- A handler ends, and no baseline has changed. -/
theorem Sound.ends {s s' : Shared} {l ts : List Task} (h : Sound s (l ++ ts))
    (hlocked : Held Task.holds s'.locks ts) (hkeeps : Keeps s s') (hlog : s'.log = s.log)
    (howner : ∀ id c, s'.conversations id = some c → c.workspace.OwnedBy id) : Sound s' ts := by
  have hmem : ∀ t ∈ ts, t ∈ l ++ ts := fun t ht => List.mem_append_right _ ht
  refine ⟨hlocked, fun w => by rw [hkeeps.baselines, hlog]; exact h.replay w, howner,
    fun w b hb => hkeeps.drafts h.drafts hb, fun t ht => hkeeps.sound (h.tasks t (hmem t ht)),
    fun t ht u hu => h.apart t (hmem t ht) u (hmem u hu), ?_⟩
  have huuids := h.uuids
  rw [List.filterMap_append] at huuids
  exact (List.nodup_append'.mp huuids).2.1

theorem importsFor_of_acts {t : Task} {id : String} (h : t.acts = some id) : t.importsFor = none := by
  cases t with
  | staging target => cases h
  | committing target w manifest entries => cases h
  | _ => rfl

/-- A handler begins or goes on, and no baseline has changed. -/
theorem Sound.goes {s s' : Shared} {l ts : List Task} (h : Sound s (l ++ ts)) (u : Task)
    (hlocked : Held Task.holds s'.locks (u :: ts)) (hkeeps : Keeps s s') (hlog : s'.log = s.log)
    (howner : ∀ id c, s'.conversations id = some c → c.workspace.OwnedBy id) (hu : u.Sound s')
    (hacts : ∀ id, u.acts = some id → ∀ v ∈ ts, v.importsFor ≠ some id)
    (himports : ∀ id, u.importsFor = some id → ∀ v ∈ ts, v.acts ≠ some id)
    (huuid : ∀ x ∈ u.uuid, x ∉ s.given) : Sound s' (u :: ts) := by
  have hrest := h.ends hlocked.tail hkeeps hlog howner
  refine ⟨hlocked, hrest.replay, howner, hrest.drafts, fun t ht => ?_, fun t ht v hv id hid => ?_, ?_⟩
  · rcases List.mem_cons.mp ht with rfl | ht
    · exact hu
    · exact hrest.tasks t ht
  · rcases List.mem_cons.mp ht with ht | ht
    · rcases List.mem_cons.mp hv with hv | hv
      · rw [hv, importsFor_of_acts (ht ▸ hid)]
        exact nofun
      · exact hacts id (ht ▸ hid) v hv
    · rcases List.mem_cons.mp hv with hv | hv
      · exact fun hid' => himports id (hv ▸ hid') t ht hid
      · exact hrest.apart t ht v hv id hid
  · rw [List.filterMap_cons]
    split
    · exact hrest.uuids
    · next x hx =>
      refine List.nodup_cons.mpr ⟨fun hmem => huuid x hx ?_, hrest.uuids⟩
      obtain ⟨t, ht, htx⟩ := List.mem_filterMap.mp hmem
      have hsound := h.tasks t (List.mem_append_right _ ht)
      cases t with
      | drafting id uuid entries locked =>
        cases htx
        exact hsound.1
      | _ => cases htx

theorem Sound.createDraft {s : Shared} {l ts : List Task} (h : Sound s (l ++ ts))
    {id uuid : String} {entries : Entries} {locked : Bool}
    (hfree : locked = true → Lock.conversation id ∉ s.locks) :
    Sound (createDraft id uuid entries locked s).1
      ((createDraft id uuid entries locked s).2 ++ ts) := by
  unfold Baselines.createDraft
  split
  · exact h.ends h.locked.rest (.of_eq rfl rfl fun _ hu => hu) rfl h.owner
  · next hnew =>
    have hnew : uuid ∉ s.given := by simpa using hnew
    refine h.goes (.drafting id uuid entries locked) ?_
      (.of_eq rfl rfl fun _ hu => List.mem_cons_of_mem _ hu) rfl h.owner
      ⟨List.mem_cons_self, ?_⟩ nofun nofun fun x hx => ?_
    · cases locked with
      | true =>
        refine h.locked.rest.take (t := Task.drafting id uuid entries true) (fun k hk => ?_)
          (List.nodup_singleton _)
        rw [List.mem_singleton.mp hk]
        exact hfree rfl
      | false => exact h.locked.rest.more (l := [_]) (by simp [Task.holds])
    · show s.baselines _ = none
      by_contra hne
      obtain ⟨b, hb⟩ := Option.ne_none_iff_exists'.mp hne
      obtain ⟨id', u, hw, hu⟩ := h.drafts _ b hb
      cases hw
      exact hnew hu
    · cases hx
      exact hnew

theorem Sound.prepareReport {s : Shared} {l ts : List Task} (h : Sound s (l ++ ts))
    {id uuid : String} {entries : Entries} {locked : Bool}
    (hfree : locked = true → Lock.conversation id ∉ s.locks) :
    Sound (prepareReport id uuid entries locked s).1
      ((prepareReport id uuid entries locked s).2 ++ ts) := by
  have hends : Sound s ts := h.ends h.locked.rest (.of_eq rfl rfl fun _ hu => hu) rfl h.owner
  unfold Baselines.prepareReport
  split
  · split
    · exact hends
    · exact h.createDraft hfree
  · exact hends

/-- An apply or a save begins only when no import into the draft is under way. -/
theorem Sound.route {s : Shared} {id : String} {c : Conversation} {kind : ProjectKind}
    {ts : List Task} (h : Sound s (.body id c kind :: ts)) (busy : Bool) (action : Action) :
    Sound (route id c kind busy action s).1 ((route id c kind busy action s).2 ++ ts) := by
  have hends : Sound s ts :=
    h.ends (l := [_]) h.locked.tail (.of_eq rfl rfl fun _ hu => hu) rfl h.owner
  obtain ⟨⟨c', hc', hproject⟩, hown⟩ := h.tasks _ List.mem_cons_self
  unfold Baselines.route
  split
  · exact hends
  · next hguard =>
    simp only [not_or, List.contains_iff_mem] at hguard
    have hfree : Lock.conversation id ∉ s.locks := by simpa using hguard.2.2.1
    have hfree' : Lock.project (some c.projectId) ∉ s.locks := by simpa using hguard.2.2.2
    cases action with
    | report uuid entries => exact h.prepareReport (l := [_]) fun _ => hfree
    | draft uuid entries =>
      dsimp only
      split
      · exact hends
      · exact h.createDraft (l := [_]) fun _ => hfree
    | act =>
      dsimp only
      split
      · exact hends
      · refine h.goes (l := [_]) (.acting id c.workspace) ?_ (.of_eq rfl rfl fun _ hu => hu) rfl
          h.owner hown (fun id' hid v hv hfor => ?_) nofun nofun
        · refine h.locked.tail.take (t := Task.acting id c.workspace) (fun k hk => ?_)
            (List.nodup_singleton _)
          rw [List.mem_singleton.mp hk]
          exact hfree
        · cases hid
          -- the import holds the lock of the project that the conversation belongs to
          have hheld : ∀ target, v.holds = [.project target.projectId, .importing] →
              Fits s target → target.conversationId = some id → False := by
            intro target hholds hfits hid
            obtain ⟨c'', hc'', hinto⟩ := hfits id hid
            rw [hc', Option.some.injEq] at hc''
            refine hfree' (h.locked.locked v (List.mem_cons_of_mem _ hv) _ ?_)
            rw [hholds, hinto, ← hc'', hproject]
            exact List.mem_cons_self
          have hsound := h.tasks v (List.mem_cons_of_mem _ hv)
          cases v with
          | staging target => exact hheld target rfl hsound hfor
          | committing target w manifest entries => exact hheld target rfl hsound.1 hfor
          | _ => cases hfor

/-- The baseline that a handler is going to write. -/
def Task.target : Task → Option Workspace
  | .checkpointing _ w _ _ | .committing _ w _ _ => some w
  | .drafting id uuid _ _ => some (.draft id uuid)
  | _ => none

theorem sound_write {s : Shared} {t : Task} (ht : t.Sound s) {w : Workspace} {m : Baseline}
    {entries : Entries} (hne : t.target ≠ some w) : t.Sound (s.write w m entries) := by
  have hother : ∀ {v}, t.target = some v → (s.write w m entries).baselines v = s.baselines v := by
    intro v hv
    refine Function.update_of_ne (fun heq => hne ?_) _ _
    rw [hv, heq]
  cases t with
  | checkpointing id v manifest es =>
    obtain ⟨hown, b, hb, hm⟩ := ht
    exact ⟨hown, b, (hother rfl).trans hb, hm⟩
  | committing target v manifest es =>
    obtain ⟨hfits, hid, b, hb, hm⟩ := ht
    exact ⟨hfits, hid, b, (hother rfl).trans hb, hm⟩
  | drafting id uuid es locked => exact ⟨ht.1, (hother rfl).trans ht.2⟩
  | body id c kind => exact ht
  | acting id v => exact ht
  | staging target => exact ht
  | working key => trivial

/-- A baseline is written that nobody else is going to write. -/
theorem Sound.write {s : Shared} {t : Task} {ts : List Task} (h : Sound s (t :: ts))
    {w : Workspace} {m : Baseline} {e : Entries}
    (hm : m = ((s.baselines w).getD fun _ => none).set e)
    (hw : ∃ id u, w = .draft id u ∧ u ∈ s.given) (hothers : ∀ v ∈ ts, v.target ≠ some w) :
    Sound (s.write w m e) ts := by
  have hrest : Sound s ts :=
    h.ends (l := [t]) h.locked.tail (.of_eq rfl rfl fun _ hu => hu) rfl h.owner
  refine ⟨hrest.locked, fun v => ?_, hrest.owner, fun v b hb => ?_,
    fun u hu => sound_write (hrest.tasks u hu) (hothers u hu), hrest.apart, hrest.uuids⟩
  · show Function.update s.baselines w (some m) v = _
    by_cases hv : v = w
    · rw [hv, Function.update_self, hm, h.replay w]
      exact (if_pos rfl).symm
    · rw [Function.update_of_ne hv, h.replay v]
      exact (if_neg (Ne.symm hv)).symm
  · by_cases hv : v = w
    · rw [hv]
      exact hw
    · exact h.drafts v b ((Function.update_of_ne hv _ _).symm.trans hb)

/-- Two that are going to write one baseline, of which one has read it, exclude each other. -/
theorem Sound.alone {s : Shared} {t : Task} {ts : List Task} (h : Sound s (t :: ts)) {w : Workspace}
    (ht : t.target = some w) : ∀ v ∈ ts, v.target ≠ some w := by
  intro v hv hvw
  have hts := h.tasks t List.mem_cons_self
  have hvs := h.tasks v (List.mem_cons_of_mem _ hv)
  have happart := h.apart t List.mem_cons_self v (List.mem_cons_of_mem _ hv)
  have happart' := h.apart v (List.mem_cons_of_mem _ hv) t List.mem_cons_self
  -- who owns a draft that has a baseline
  have hdraft : ∀ {b}, s.baselines w = some b → ∃ id u, w = .draft id u := by
    intro b hb
    obtain ⟨id, u, hw, -⟩ := h.drafts w b hb
    exact ⟨id, u, hw⟩
  cases t with
  | checkpointing id x m es =>
    cases ht
    obtain ⟨hown, b, hb, -⟩ := hts
    obtain ⟨o, u, hw⟩ := hdraft hb
    cases v with
    | checkpointing id' x m' es' =>
      cases hvw
      have hsame : id' = id := (hvs.1 o u hw).symm.trans (hown o u hw)
      refine h.locked.alone (k := Lock.conversation id) List.mem_cons_self hv ?_
      rw [hsame]
      exact List.mem_cons_self
    | committing target x m' es' =>
      cases hvw
      obtain ⟨-, ⟨cid, hcid, hown'⟩, -⟩ := hvs
      have hsame : cid = id := (hown' o u hw).symm.trans (hown o u hw)
      exact happart id rfl (hcid.trans (congrArg some hsame))
    | drafting id' uuid es' locked =>
      cases hvw
      exact nomatch hvs.2.symm.trans hb
    | _ => cases hvw
  | committing target x m es =>
    cases ht
    obtain ⟨-, ⟨cid, hcid, hown⟩, b, hb, -⟩ := hts
    obtain ⟨o, u, hw⟩ := hdraft hb
    cases v with
    | checkpointing id' x m' es' =>
      cases hvw
      have hsame : cid = id' := (hown o u hw).symm.trans (hvs.1 o u hw)
      exact happart' id' rfl (hcid.trans (congrArg some hsame))
    | committing target' x m' es' =>
      exact h.locked.alone (k := Lock.importing) (List.mem_cons_of_mem _ List.mem_cons_self) hv
        (List.mem_cons_of_mem _ List.mem_cons_self)
    | drafting id' uuid es' locked =>
      cases hvw
      exact nomatch hvs.2.symm.trans hb
    | _ => cases hvw
  | drafting id uuid es locked =>
    cases ht
    cases v with
    | checkpointing id' x m' es' =>
      cases hvw
      obtain ⟨-, b, hb, -⟩ := hvs
      exact nomatch hts.2.symm.trans hb
    | committing target x m' es' =>
      cases hvw
      obtain ⟨-, -, b, hb, -⟩ := hvs
      exact nomatch hts.2.symm.trans hb
    | drafting id' uuid' es' locked' =>
      cases hvw
      exact (List.nodup_cons.mp h.uuids).1 (List.mem_filterMap.mpr ⟨_, hv, rfl⟩)
    | _ => cases hvw
  | _ => cases ht

theorem Sound.checkpoint {s : Shared} {id : String} {w : Workspace} {ts : List Task}
    (h : Sound s (.acting id w :: ts)) (path hash : String) :
    Sound (checkpoint id w path hash s).1 ((checkpoint id w path hash s).2 ++ ts) := by
  unfold Baselines.checkpoint
  split
  · next b hb =>
    exact h.goes (l := [_]) (.checkpointing id w (b.set [(path, hash)]) [(path, hash)])
      (h.locked.goes rfl) (.of_eq rfl rfl fun _ hu => hu) rfl h.owner
      ⟨h.tasks _ List.mem_cons_self, b, hb, rfl⟩
      (fun _ hid v hv => h.apart _ List.mem_cons_self v (List.mem_cons_of_mem _ hv) _ hid) nofun nofun
  · exact h.ends (l := [_]) h.locked.release (.of_eq rfl rfl fun _ hu => hu) rfl h.owner

theorem Sound.install {s : Shared} {target : Target} {ts : List Task}
    (h : Sound s (.staging target :: ts)) (entries : Entries) :
    Sound (install target entries s).1 ((install target entries s).2 ++ ts) := by
  have hends : Sound (s.release (.staging target)) ts :=
    h.ends (l := [_]) h.locked.release (.of_eq rfl rfl fun _ hu => hu) rfl h.owner
  unfold Baselines.install
  dsimp only
  split
  · next c p hc hp =>
    split
    · split
      · next b hb =>
        obtain ⟨cid, hcid, hcc⟩ := Option.bind_eq_some_iff.mp hc
        exact h.goes (l := [_]) (.committing target c.workspace (b.set entries) entries)
          (h.locked.goes rfl) (.of_eq rfl rfl fun _ hu => hu) rfl h.owner
          ⟨h.tasks _ List.mem_cons_self, ⟨cid, hcid, h.owner cid c hcc⟩, b, hb, rfl⟩ nofun
          (fun _ hid v hv hacts =>
            h.apart v (List.mem_cons_of_mem _ hv) _ List.mem_cons_self _ hacts hid) nofun
      · exact hends
    · exact hends
  · exact hends

/-- An import begins only when no apply or save in the draft is under way. -/
theorem Sound.collect {s : Shared} {ts : List Task} (h : Sound s ts) (target : Target) (busy : Bool) :
    Sound (collect target busy s).1 ((collect target busy s).2 ++ ts) := by
  dsimp only [Baselines.collect]
  split
  · next locks htaken =>
    obtain ⟨htarget, hfree, hconversation, rfl⟩ := takeImport_eq_some htaken
    refine h.goes (l := []) (.staging target) ?_ (.of_eq rfl rfl fun _ hu => hu) rfl h.owner ?_
      nofun (fun id hid v hv hacts => ?_) nofun
    · exact h.locked.take (t := Task.staging target) hfree (by simp [Task.holds])
    · intro id hid
      rw [targetOf, hid, Bool.and_eq_true] at htarget
      obtain ⟨pid, hpid, hinto⟩ := (Option.any_eq_true _ _).mp htarget.2
      obtain ⟨c, hc, rfl⟩ := Option.map_eq_some_iff.mp hpid
      exact ⟨c, hc, (eq_of_beq hinto).symm⟩
    · have hheld : Lock.conversation id ∈ v.holds := by
        cases v with
        | acting id' w =>
          cases hacts
          exact List.mem_cons_self
        | checkpointing id' w manifest es =>
          cases hacts
          exact List.mem_cons_self
        | _ => cases hacts
      exact hconversation id hid (by simpa using h.locked.locked v hv _ hheld)
  · exact h

/-! ### Runs -/

theorem sound_enter {s : Shared} {ts : List Task} (h : Sound s ts) (r : Request) :
    Sound (enter r s).1 ((enter r s).2 ++ ts) := by
  cases r with
  | collect target busy => exact h.collect target busy
  | tool id uuid entries => exact h.prepareReport (l := []) nofun
  | action id =>
    simp only [enter]
    split
    · exact h
    · next c hc =>
      split
      · exact h
      · exact h.goes (l := []) (.body id c _) (h.locked.more (l := [_]) (by simp [Task.holds]))
          (.of_eq rfl rfl fun _ hu => hu) rfl h.owner ⟨⟨c, hc, rfl⟩, h.owner id c hc⟩ nofun nofun nofun
  | work key =>
    simp only [enter]
    split
    · exact h
    · next hfree =>
      simp only [Bool.or_eq_true, not_or, List.contains_iff_mem] at hfree
      refine h.goes (l := []) (.working key) ?_ (.of_eq rfl rfl fun _ hu => hu) rfl h.owner
        trivial nofun nofun nofun
      refine h.locked.take (t := Task.working key) (fun k hk => ?_) (List.nodup_singleton _)
      rw [List.mem_singleton.mp hk]
      exact hfree.2

/-- `createDraft` has written the baseline, and the conversation moves into the draft. -/
theorem Sound.drafted {s : Shared} {id uuid : String} {entries : Entries} {locked : Bool}
    {ts : List Task} (h : Sound s (.drafting id uuid entries locked :: ts)) :
    Sound ((s.write (.draft id uuid) (Baseline.set (fun _ => none) entries) entries).enterDraft id
      uuid |>.release (.drafting id uuid entries locked)) ts := by
  obtain ⟨hgiven, hnone⟩ := h.tasks _ List.mem_cons_self
  have hwritten := h.write (w := .draft id uuid) (m := Baseline.set (fun _ => none) entries)
    (e := entries) (by rw [hnone]; rfl) ⟨id, uuid, rfl, hgiven⟩ (h.alone rfl)
  refine hwritten.ends (l := []) h.locked.release ⟨fun id' c hc => ?_, rfl, fun _ hu => hu⟩ rfl
    fun id' c hc => ?_
  · show ∃ c', Function.update s.conversations id _ id' = some c' ∧ _
    by_cases hid : id' = id
    · rw [hid] at hc ⊢
      rw [Function.update_self, hc]
      exact ⟨_, rfl, rfl⟩
    · rw [Function.update_of_ne hid]
      exact ⟨c, hc, rfl⟩
  · have hc' : Function.update s.conversations id _ id' = some c := hc
    by_cases hid : id' = id
    · rw [hid, Function.update_self] at hc'
      obtain ⟨c', -, rfl⟩ := Option.map_eq_some_iff.mp hc'
      rw [hid]
      intro o u hw
      cases hw
      rfl
    · rw [Function.update_of_ne hid] at hc'
      exact h.owner id' c hc'

theorem sound_resume {s : Shared} {t : Task} {ts : List Task} (h : Sound s (t :: ts)) (x : Input) :
    Sound (resume t x s).1 ((resume t x s).2 ++ ts) := by
  unfold resume
  split
  · exact h.route _ _
  · exact h.checkpoint _ _
  · next id w manifest entries =>
    obtain ⟨-, b, hb, hm⟩ := h.tasks _ List.mem_cons_self
    have hwritten := h.write (w := w) (m := manifest) (e := entries) (by rw [hb]; exact hm)
      (h.drafts w b hb) (h.alone rfl)
    exact hwritten.ends (l := []) h.locked.release (.of_eq rfl rfl fun _ hu => hu) rfl
      hwritten.owner
  · exact h.install _
  · next target w manifest entries =>
    obtain ⟨-, -, b, hb, hm⟩ := h.tasks _ List.mem_cons_self
    have hwritten := h.write (w := w) (m := manifest) (e := entries) (by rw [hb]; exact hm)
      (h.drafts w b hb) (h.alone rfl)
    exact hwritten.ends (l := []) h.locked.release (.of_eq rfl rfl fun _ hu => hu) rfl
      hwritten.owner
  · exact h.drafted
  · exact h.ends (l := [_]) h.locked.tail (.of_eq rfl rfl fun _ hu => hu) rfl h.owner
  · exact h.ends (l := [_]) h.locked.release (.of_eq rfl rfl fun _ hu => hu) rfl h.owner
  · exact h

theorem sound_invariant : Invariant server always Sound where
  perm s ts us hp h :=
    ⟨h.locked.perm hp, h.replay, h.owner, h.drafts, fun t ht => h.tasks t (hp.mem_iff.mpr ht),
      fun t ht u hu => h.apart t (hp.mem_iff.mpr ht) u (hp.mem_iff.mpr hu),
      (hp.filterMap Task.uuid).nodup_iff.mp h.uuids⟩
  enter r _ _ h _ := sound_enter h r
  resume _ x _ _ h _ := sound_resume h x
  restart s ts h := by
    rw [server.filter_survives (fun _ => rfl) ts]
    rw [← List.append_nil ts] at h
    exact Sound.ends h held_nil (.of_eq rfl rfl fun _ hu => hu) rfl h.owner

/-- In every run a baseline holds what `createDraft` put into it and then what the checkpoints and the
imports that completed did, in the order of completion; no path that was put into it gets lost. -/
theorem baseline_keeps_entries (projects : String → Option Project)
    (conversations : String → Option (String × String × Mode)) (es : List (Event Request Input)) :
    let s := (server.run (initial projects conversations) es).shared
    (∀ w, s.baselines w = replay s.log w) ∧
      ∀ w entries, (w, entries) ∈ s.log → ∀ e ∈ entries, ∃ b, s.baselines w = some b ∧ (b e.1).isSome := by
  intro s
  have hinit : Sound (initial projects conversations).shared (initial projects conversations).waiting :=
    ⟨held_nil, fun _ => rfl, fun id c hc => by
      obtain ⟨c', -, rfl⟩ := Option.map_eq_some_iff.mp hc
      exact nofun, nofun, fun _ ht => absurd ht List.not_mem_nil,
      fun _ ht => absurd ht List.not_mem_nil, .nil⟩
  have hs : Sound s _ := sound_invariant.run_always hinit es
  refine ⟨hs.replay, fun w entries hmem e he => ?_⟩
  rw [hs.replay w]
  exact replay_keeps hmem he

/-- While a save checkpoints a file, an import into the draft is refused; one after it keeps the file. -/
example :
    let s := (server.run (initial (fun id => if id = "notes" then some ⟨.folder, "/notes"⟩ else none)
        fun id => if id = "talk" then some ("notes", "/notes", .explore) else none)
      [.arrive (.tool "talk" "u" [("a.md", "1")]), .wake 0 .committed, .arrive (.action "talk"),
        .wake 0 (.route false .act), .wake 0 (.checkpoint "a.md" "2"),
        .arrive (.collect ⟨some "notes", some "talk"⟩ false), .wake 0 .committed,
        .arrive (.collect ⟨some "notes", some "talk"⟩ false), .wake 0 (.install [("b.md", "3")]),
        .wake 0 .committed]).shared
    s.log.length = 3 ∧ (s.baselines (.draft "talk" "u")).bind (· "a.md") = some "2" := by
  decide

end ForgeOS.Galaxy.Baselines
