import Mathlib.Logic.Function.Basic
import ForgeOS.Galaxy.Changes
import ForgeOS.Library.Interleaving
import ForgeOS.Library.NamedLocks

/-! Conversations that draft one project and save their changes to the documents in OneDrive that its
files were imported from. The route lists the changes; the save compares the version of the document
with the one that the project has recorded, and both are written back after the upload. -/

namespace ForgeOS.Galaxy.Saves

open ForgeOS.Library.Conditions ForgeOS.Library.Interleaving ForgeOS.Library.NamedLocks
open Changes

/-! ### State -/

/-- A document in the cloud. Its version grows with every change. -/
structure Document where
  content : Bytes
  etag : ℕ
  deriving DecidableEq, Repr

/-- The service, as to uploads: whether it opens an upload session for a document when `If-Match`
names a version, and the document when its content has been replaced. -/
structure Service where
  opens : Document → ℕ → Bool
  replace : Document → Bytes → Document

/-- What the service is documented to do: a version that is not the one of the document opens no
session, and a document has the content that it was given, in a later version. -/
structure Service.Documented (service : Service) : Prop where
  ifMatch : ∀ doc etag, service.opens doc etag = true → doc.etag = etag
  content : ∀ doc content, (service.replace doc content).content = content
  later : ∀ doc content, doc.etag < (service.replace doc content).etag

/-- A row of `imports`, by its local name. -/
structure Source where
  itemId : String
  etag : ℕ
  deriving DecidableEq, Repr

/-- A document that has been replaced: what it was, and what the baseline said of it. -/
structure Saved where
  id : String
  path : String
  before : Bytes
  entry : Option String
  after : Bytes
  deriving DecidableEq, Repr

/-- The folder of the project, its imports, the documents by item, the drafts by conversation, the
conversations that are locked, and what has been saved, the last first. -/
structure Shared where
  folder : Folder
  imports : String → Option Source
  cloud : String → Option Document
  drafts : String → Option Draft
  locks : List String
  saved : List Saved

/-- What `OneDrive.save` holds: the row and the content as it has read them. -/
structure Save where
  id : String
  path : String
  itemId : String
  etag : ℕ
  content : Bytes
  deriving DecidableEq, Repr

/-- The save route before its body and in its list of changes; `save` with its three requests, each
before and after the service has dealt with it; `checkpointDraft`. -/
inductive Task
  | body (id : String)
  | listing (id path : String) (l : Listing)
  | fetching (v : Save)
  | fetched (v : Save) (etag : ℕ)
  | opening (v : Save)
  | opened (v : Save)
  | putting (v : Save)
  | stored (v : Save) (etag : ℕ)
  | checkpointing (id : String) (m : Manifest)
  deriving DecidableEq, Repr

/-- The service deals with a request; its response comes. -/
inductive Input
  | body (path : String)
  | shown
  | served
  | arrived
  | committed
  | failed
  deriving DecidableEq, Repr

/-- A save begins; a document is changed or removed by somebody else; a draft is edited. -/
inductive Request
  | save (id : String)
  | edit (itemId : String) (content : Option Bytes)
  | write (id : String) (files : List (String × Bytes))
  deriving DecidableEq, Repr

/-- The conversation whose lock a handler holds. -/
def Task.owner : Task → Option String
  | .body _ => none
  | .listing id _ _ | .checkpointing id _ => some id
  | .fetching v | .fetched v _ | .opening v | .opened v | .putting v | .stored v _ => some v.id

def Task.holds (t : Task) : List String := t.owner.toList

/-- How the route goes on after its list of changes. -/
inductive Outcome
  | waits (l : Listing)
  | refused
  | saves
  deriving DecidableEq, Repr

/-! ### Handlers -/

def Shared.release (s : Shared) (id : String) : Shared :=
  { s with locks := s.locks.filter (· ∉ [id]) }

def Shared.writeManifest (s : Shared) (id : String) (m : Manifest) : Shared :=
  { s with drafts := Function.update s.drafts id ((s.drafts id).map ({ · with manifest := m })) }

/-- What the baseline of a conversation says of a file. -/
def Shared.entry (s : Shared) (id path : String) : Option String :=
  (s.drafts id).bind (·.manifest.get path)

/-- The route when it has its list. -/
def outcome (path : String) : Progress → Outcome
  | .shows l => .waits l
  | .listed result =>
    match result.find? (·.path = path) with
    | some ch => if ch.applicable then .saves else .refused
    | none => .refused

/-- `save` up to its first wait. -/
def save (id path : String) (d : Draft) (s : Shared) : Shared × List Task :=
  match s.imports path, d.read path with
  | some source, some content =>
    if content.contains 0 || content == [] || 500000 < content.length then (s.release id, [])
    else (s, [.fetching ⟨id, path, source.itemId, source.etag, content⟩])
  | _, _ => (s.release id, [])

def Outcome.run (id path : String) (d : Draft) (s : Shared) : Outcome → Shared × List Task
  | .waits l => (s, [.listing id path l])
  | .refused => (s.release id, [])
  | .saves => save id path d s

/-- The service replaces the document. -/
def Shared.put (s : Shared) (service : Service) (v : Save) (doc : Document) : Shared :=
  { s with
    cloud := Function.update s.cloud v.itemId (some (service.replace doc v.content))
    saved := ⟨v.id, v.path, doc.content, s.entry v.id v.path, v.content⟩ :: s.saved }

/-- The version is recorded and the file of the project written. -/
def Shared.record (s : Shared) (v : Save) (etag : ℕ) : Shared :=
  { s with
    imports := Function.update s.imports v.path ((s.imports v.path).map ({ · with etag := etag }))
    folder := Function.update s.folder v.path (some v.content) }

section Service

variable (service : Service)

def enter : Request → Shared → Shared × List Task
  | .save id, s => (s, [.body id])
  | .edit itemId content, s =>
    ({ s with
        cloud := Function.update s.cloud itemId
          ((s.cloud itemId).bind fun doc => content.map (service.replace doc)) }, [])
  | .write id files, s =>
    ({ s with
        drafts := Function.update s.drafts id ((s.drafts id).map ({ · with files := files })) }, [])

variable (digest : Bytes → String)

/-- A handler that is given something else than it waits for goes on waiting. -/
def resume : Task → Input → Shared → Shared × List Task
  | .body id, .body path, s =>
    match s.drafts id with
    | some d =>
      if s.locks.contains id then (s, [])
      else
        (outcome path (changes digest d s.folder)).run id path d { s with locks := id :: s.locks }
    | none => (s, [])
  | .listing id path l, .shown, s =>
    match s.drafts id with
    | some d => (outcome path (l.shown digest d s.folder)).run id path d s
    | none => (s.release id, [])
  | .fetching v, .served, s =>
    match s.cloud v.itemId with
    | some doc => (s, [.fetched v doc.etag])
    | none => (s.release v.id, [])
  | .fetched v etag, .arrived, s => if etag ≠ v.etag then (s.release v.id, []) else (s, [.opening v])
  | .opening v, .served, s =>
    -- `If-Match`
    match s.cloud v.itemId with
    | some doc => if service.opens doc v.etag then (s, [.opened v]) else (s.release v.id, [])
    | none => (s.release v.id, [])
  | .opened v, .arrived, s => (s, [.putting v])
  | .putting v, .served, s =>
    match s.cloud v.itemId with
    | some doc => (s.put service v doc, [.stored v (service.replace doc v.content).etag])
    | none => (s.release v.id, [])
  | .stored v etag, .arrived, s =>
    match (s.drafts v.id).bind fun d => (d.read v.path).map (checkpoint digest d v.path) with
    | some m => (s.record v etag, [.checkpointing v.id m])
    | none => ((s.record v etag).release v.id, [])
  | .checkpointing id m, .committed, s => ((s.writeManifest id m).release id, [])
  | task, .failed, s =>
    match task.owner with
    | some id => (s.release id, [])
    | none => (s, [])
  | task, _, s => (s, [task])

def server : Server Shared Task Request Input :=
  ⟨enter service, resume service digest, fun s => { s with locks := [] }, fun _ => false⟩

end Service

/-- A project after its imports: each imported file is what its document was, in the first version.
Other files, and the drafts, are any. -/
def initial (folder : Folder) (items : String → Option String) (cloud : String → Option Bytes)
    (drafts : String → Option Draft) : State Shared Task where
  shared :=
    { folder := fun path => ((items path).bind cloud).or (folder path)
      imports := fun path => (items path).map (⟨·, 0⟩)
      cloud := fun item => (cloud item).map (⟨·, 0⟩)
      drafts
      locks := []
      saved := [] }
  waiting := []

/-! ### The condition -/

/-- The route has compared the file, found no conflict, and waits for git to show others. -/
def Task.compared : Task → String → Bool
  | .listing _ path l, p => path == p && found l.result path
  | _, _ => false

/-- The document for which a save holds an upload session that has not been used. -/
def Task.session : Task → Option String
  | .opened v | .putting v => some v.itemId
  | _ => none

/-- The route is going to save a file in which its list has found a conflict. -/
def conflicting (path : String) : Progress → Bool
  | .shows _ => false
  | .listed result => (result.find? (·.path = path)).any fun ch => ch.applicable && ch.conflict

section Condition

variable (digest : Bytes → String)

/-- What apply asks and save does not: the change that is saved has no conflict. And no save ends, or
replaces a document, or anybody else does, in the middle of another save of the same. -/
def Checked : Condition Shared Task Request Input where
  enter
    | .edit itemId _, _, ts => ∀ t ∈ ts, t.session ≠ some itemId
    | _, _, _ => True
  resume
    | .body id, .body path, s, _ =>
      ∀ d ∈ s.drafts id, s.locks.contains id = false →
        conflicting path (changes digest d s.folder) = false
    | .listing id path l, .shown, s, _ =>
      ∀ d ∈ s.drafts id, conflicting path (l.shown digest d s.folder) = false
    | .putting v, .served, _, ts => ∀ u ∈ ts, u.session ≠ some v.itemId
    | .stored v _, .arrived, _, ts => ∀ u ∈ ts, ¬u.compared v.path
    | _, _, _, _ => True

end Condition

/-! ### What a save relies on -/

def Shared.manifest (s : Shared) (id : String) : Option Manifest := (s.drafts id).map (·.manifest)

theorem entry_eq (s : Shared) (id path : String) :
    s.entry id path = (s.manifest id).bind (·.get path) := by
  rw [Shared.entry, Shared.manifest]
  cases s.drafts id <;> rfl

/-- The document is the one that the baseline of the conversation knows. -/
def Based (digest : Bytes → String) (s : Shared) (v : Save) (doc : Document) : Prop :=
  some (digest doc.content) = s.entry v.id v.path

/-- The document that the save writes is that of the file. -/
def Fits (s : Shared) (v : Save) : Prop := ∀ source, s.imports v.path = some source →
  source.itemId = v.itemId

/-- A list works with the baseline of its draft, and what it has compared is still so. Until a session
is open, the document is as in the baseline if its version is the recorded one; from then on it is so.
A document that has been replaced is what the save has written, or it has a later version. -/
def Task.Sound (digest : Bytes → String) (s : Shared) : Task → Prop
  | .listing id path l =>
    s.manifest id = some l.manifest ∧
      (found l.result path → (s.folder path).map digest = l.manifest.get path)
  | .fetching v | .fetched v _ | .opening v =>
    Fits s v ∧ ∀ doc, s.cloud v.itemId = some doc →
      v.etag ≤ doc.etag ∧ (doc.etag = v.etag → Based digest s v doc)
  | .opened v | .putting v =>
    Fits s v ∧ ∀ doc, s.cloud v.itemId = some doc → Based digest s v doc
  | .stored v etag =>
    Fits s v ∧ ∀ doc, s.cloud v.itemId = some doc →
      etag ≤ doc.etag ∧ (doc.etag = etag → doc.content = v.content)
  | _ => True

/-- A file whose document has the recorded version is what the document is. -/
def Synced (s : Shared) : Prop :=
  ∀ path source, s.imports path = some source → ∀ doc, s.cloud source.itemId = some doc →
    source.etag ≤ doc.etag ∧ (doc.etag = source.etag → s.folder path = some doc.content)

structure Sound (digest : Bytes → String) (s : Shared) (ts : List Task) : Prop where
  locked : Held Task.holds s.locks ts
  synced : Synced s
  tasks : ∀ t ∈ ts, t.Sound digest s
  saved : ∀ a ∈ s.saved, some (digest a.before) = a.entry

variable {service : Service} (hservice : service.Documented) {digest : Bytes → String}

/-- What may happen to the state while a handler waits: the baseline of its conversation stays,
every import keeps its document, a document is replaced only by a later version and not during its
session, and a file that it has compared is not written. -/
structure Harmless (s s' : Shared) (t : Task) : Prop where
  manifest : ∀ id, t.owner = some id → s'.manifest id = s.manifest id
  imports : ∀ path source', s'.imports path = some source' →
    ∃ source, s.imports path = some source ∧ source.itemId = source'.itemId
  cloud : ∀ item doc', s'.cloud item = some doc' → s.cloud item = some doc' ∨
    t.session ≠ some item ∧ ∃ doc, s.cloud item = some doc ∧ doc.etag < doc'.etag
  folder : ∀ path, t.compared path → s'.folder path = s.folder path

theorem Harmless.fits {s s' : Shared} {t : Task} (h : Harmless s s' t) {v : Save} (hv : Fits s v) :
    Fits s' v := by
  intro source' hsource'
  obtain ⟨source, hsource, hitem⟩ := h.imports _ _ hsource'
  exact hitem ▸ hv source hsource

theorem Harmless.based {s s' : Shared} {t : Task} (h : Harmless s s' t) {v : Save}
    (hid : t.owner = some v.id) {doc : Document} (hdoc : Based digest s v doc) :
    Based digest s' v doc := by
  rw [Based, entry_eq, h.manifest v.id hid, ← entry_eq]
  exact hdoc

theorem Harmless.sound {s s' : Shared} {t : Task} (h : Harmless s s' t) (ht : t.Sound digest s) :
    t.Sound digest s' := by
  have hbefore : ∀ {v : Save}, t.owner = some v.id →
      (∀ doc, s.cloud v.itemId = some doc →
        v.etag ≤ doc.etag ∧ (doc.etag = v.etag → Based digest s v doc)) →
      ∀ doc, s'.cloud v.itemId = some doc →
        v.etag ≤ doc.etag ∧ (doc.etag = v.etag → Based digest s' v doc) := by
    intro v hid hv doc hdoc
    rcases h.cloud _ _ hdoc with hsame | ⟨-, old, hold, hlt⟩
    · exact ⟨(hv doc hsame).1, fun heq => h.based hid ((hv doc hsame).2 heq)⟩
    · have hle := (hv old hold).1
      exact ⟨by omega, fun heq => by omega⟩
  have hduring : ∀ {v : Save}, t.owner = some v.id → t.session = some v.itemId →
      (∀ doc, s.cloud v.itemId = some doc → Based digest s v doc) →
      ∀ doc, s'.cloud v.itemId = some doc → Based digest s' v doc := by
    intro v hid hsession hv doc hdoc
    rcases h.cloud _ _ hdoc with hsame | ⟨hno, -⟩
    · exact h.based hid (hv doc hsame)
    · exact absurd hsession hno
  cases t with
  | body id => trivial
  | checkpointing id m => trivial
  | listing id path l =>
    refine ⟨(h.manifest id rfl).trans ht.1, fun hfound => ?_⟩
    rw [h.folder path (by simp [Task.compared, hfound])]
    exact ht.2 hfound
  | fetching v => exact ⟨h.fits ht.1, hbefore rfl ht.2⟩
  | fetched v etag => exact ⟨h.fits ht.1, hbefore rfl ht.2⟩
  | opening v => exact ⟨h.fits ht.1, hbefore rfl ht.2⟩
  | opened v => exact ⟨h.fits ht.1, hduring rfl rfl ht.2⟩
  | putting v => exact ⟨h.fits ht.1, hduring rfl rfl ht.2⟩
  | stored v etag =>
    refine ⟨h.fits ht.1, fun doc hdoc => ?_⟩
    rcases h.cloud _ _ hdoc with hsame | ⟨-, old, hold, hlt⟩
    · exact ht.2 doc hsame
    · have hle := (ht.2 old hold).1
      exact ⟨by omega, fun heq => by omega⟩

theorem harmless_of_eq {s s' : Shared} {t : Task}
    (hmanifest : ∀ id, t.owner = some id → s'.manifest id = s.manifest id)
    (himports : s'.imports = s.imports) (hcloud : s'.cloud = s.cloud) (hfolder : s'.folder = s.folder) :
    Harmless s s' t where
  manifest := hmanifest
  imports _ source' h := ⟨source', himports ▸ h, rfl⟩
  cloud _ _ h := .inl (hcloud ▸ h)
  folder path _ := by rw [hfolder]

theorem manifest_write (s : Shared) (id : String) (files : List (String × Bytes)) (other : String) :
    (enter service (.write id files) s).1.manifest other = s.manifest other := by
  show (Function.update s.drafts id _ other).map _ = _
  by_cases h : other = id
  · rw [h, Function.update_self, Option.map_map]
    rfl
  · rw [Function.update_of_ne h]
    rfl

theorem manifest_writeManifest (s : Shared) {id other : String} (h : other ≠ id) (m : Manifest) :
    (s.writeManifest id m).manifest other = s.manifest other :=
  congrArg _ (Function.update_of_ne h _ _)

/-- A document is replaced by a later version, or removed. -/
structure Replaces (s s' : Shared) (item : String) : Prop where
  drafts : s'.drafts = s.drafts
  imports : s'.imports = s.imports
  folder : s'.folder = s.folder
  others : ∀ other, other ≠ item → s'.cloud other = s.cloud other
  later : ∀ doc', s'.cloud item = some doc' → ∃ doc, s.cloud item = some doc ∧ doc.etag < doc'.etag

include hservice in
theorem replaces_put {s : Shared} {v : Save} {doc : Document} (h : s.cloud v.itemId = some doc) :
    Replaces s (s.put service v doc) v.itemId where
  drafts := rfl
  imports := rfl
  folder := rfl
  others _ hother := Function.update_of_ne hother _ _
  later doc' hdoc' := by
    have hput : (s.put service v doc).cloud v.itemId = some (service.replace doc v.content) :=
      Function.update_self _ _ _
    cases hput.symm.trans hdoc'
    exact ⟨doc, h, hservice.later doc v.content⟩

include hservice in
theorem replaces_edit (s : Shared) (item : String) (content : Option Bytes) :
    Replaces s (enter service (.edit item content) s).1 item where
  drafts := rfl
  imports := rfl
  folder := rfl
  others _ hother := Function.update_of_ne hother _ _
  later doc' hdoc' := by
    have hnew := (Function.update_self _ _ _).symm.trans hdoc'
    obtain ⟨doc, hdoc, hmap⟩ := Option.bind_eq_some_iff.mp hnew
    obtain ⟨b, -, rfl⟩ := Option.map_eq_some_iff.mp hmap
    exact ⟨doc, hdoc, hservice.later doc b⟩

theorem Replaces.harmless {s s' : Shared} {item : String} (h : Replaces s s' item) {t : Task}
    (ht : t.session ≠ some item) : Harmless s s' t where
  manifest id _ := by rw [Shared.manifest, Shared.manifest, h.drafts]
  imports _ source' hs := ⟨source', h.imports ▸ hs, rfl⟩
  cloud other doc' hdoc' := by
    by_cases hother : other = item
    · rw [hother] at hdoc' ⊢
      exact .inr ⟨ht, h.later doc' hdoc'⟩
    · exact .inl (h.others other hother ▸ hdoc')
  folder path _ := by rw [h.folder]

theorem Replaces.synced {s s' : Shared} {item : String} (h : Replaces s s' item) (hs : Synced s) :
    Synced s' := by
  intro path source hsource doc' hdoc'
  rw [h.imports] at hsource
  by_cases hitem : source.itemId = item
  · obtain ⟨doc, hdoc, hlt⟩ := h.later doc' (hitem ▸ hdoc')
    have hle := (hs path source hsource doc (hitem ▸ hdoc)).1
    exact ⟨by omega, fun heq => by omega⟩
  · rw [h.others _ hitem] at hdoc'
    rw [h.folder]
    exact hs path source hsource doc' hdoc'

theorem record_imports {s : Shared} {v : Save} {etag : ℕ} {path : String} {source' : Source}
    (h : (s.record v etag).imports path = some source') :
    ∃ source, s.imports path = some source ∧ source.itemId = source'.itemId ∧
      (path = v.path ∧ source'.etag = etag ∨ path ≠ v.path ∧ source' = source) := by
  have h' : Function.update s.imports v.path _ path = some source' := h
  by_cases hpath : path = v.path
  · rw [hpath, Function.update_self] at h'
    obtain ⟨source, hsource, rfl⟩ := Option.map_eq_some_iff.mp h'
    exact ⟨source, hpath ▸ hsource, rfl, .inl ⟨hpath, rfl⟩⟩
  · rw [Function.update_of_ne hpath] at h'
    exact ⟨source', h', rfl, .inr ⟨hpath, rfl⟩⟩

theorem harmless_record {s : Shared} {v : Save} {etag : ℕ} {t : Task} (ht : ¬t.compared v.path) :
    Harmless s (s.record v etag) t where
  manifest _ _ := rfl
  imports path source' h := by
    obtain ⟨source, hsource, hitem, -⟩ := record_imports h
    exact ⟨source, hsource, hitem⟩
  cloud _ _ h := .inl h
  folder path hpath := Function.update_of_ne (fun heq : path = v.path => ht (heq ▸ hpath)) _ _

/-- What is recorded after an upload is what was uploaded, unless the document has changed again. -/
theorem synced_record {s : Shared} {v : Save} {etag : ℕ} (hs : Synced s)
    (ht : (Task.stored v etag).Sound digest s) : Synced (s.record v etag) := by
  intro path source' hsource' doc hdoc
  obtain ⟨source, hsource, hitem, hcase⟩ := record_imports hsource'
  rcases hcase with ⟨rfl, hetag⟩ | ⟨hpath, rfl⟩
  · rw [← hitem, ht.1 source hsource] at hdoc
    obtain ⟨hle, hcontent⟩ := ht.2 doc hdoc
    refine ⟨hetag ▸ hle, fun heq => ?_⟩
    rw [hcontent (heq.trans hetag)]
    exact Function.update_self _ _ _
  · have hfolder : (s.record v etag).folder path = s.folder path := Function.update_of_ne hpath _ _
    rw [hfolder]
    exact hs path source' hsource doc hdoc

/-! ### Runs -/

theorem outcome_saves {path : String} {p : Progress} (h : outcome path p = .saves)
    (hconflict : conflicting path p = false) : found p.result path := by
  cases p with
  | shows l => cases h
  | listed result =>
    rw [outcome] at h
    split at h
    · next ch hch =>
      split at h
      · next happlicable =>
        rw [conflicting, hch, Option.any_some, happlicable, Bool.true_and] at hconflict
        exact found_of_find? hch hconflict
      · cases h
    · cases h

theorem outcome_waits {path : String} {p : Progress} {l : Listing} (h : outcome path p = .waits l) :
    p = .shows l := by
  cases p with
  | shows l' =>
    cases h
    rfl
  | listed result =>
    rw [outcome] at h
    split at h
    · split at h <;> cases h
    · cases h

/-- A handler that has the lock of its conversation goes on after its list. -/
theorem sound_run {s : Shared} {ts : List Task} {id path : String} {d : Draft} {p : Progress}
    (hlocked : ∀ t : Task, t.owner = some id → Held Task.holds s.locks (t :: ts))
    (hsynced : Synced s) (htasks : ∀ t ∈ ts, t.Sound digest s)
    (hsaved : ∀ a ∈ s.saved, some (digest a.before) = a.entry) (hd : s.drafts id = some d)
    (hmanifest : ∀ l, p = .shows l → l.manifest = d.manifest)
    (hfound : found p.result path → (s.folder path).map digest = d.manifest.get path)
    (hconflict : conflicting path p = false) :
    Sound digest ((outcome path p).run id path d s).1 (((outcome path p).run id path d s).2 ++ ts) := by
  have hreleased : Sound digest (s.release id) ts :=
    ⟨(hlocked (.checkpointing id []) rfl).release, hsynced,
      fun t ht => (harmless_of_eq (fun _ _ => rfl) rfl rfl rfl).sound (htasks t ht), hsaved⟩
  have hgoes : ∀ {t : Task}, t.owner = some id → t.Sound digest s → Sound digest s (t :: ts) :=
    fun hid ht => ⟨hlocked _ hid, hsynced, List.forall_mem_cons.mpr ⟨ht, htasks⟩, hsaved⟩
  have hmd : s.manifest id = some d.manifest := by rw [Shared.manifest, hd, Option.map_some]
  cases ho : outcome path p with
  | refused => exact hreleased
  | waits l =>
    have hp := outcome_waits ho
    refine hgoes rfl ⟨?_, fun hf => ?_⟩
    · rw [hmd, hmanifest l hp]
    · rw [hmanifest l hp]
      exact hfound (by rw [hp]; exact hf)
  | saves =>
    rw [Outcome.run, save]
    split
    · next source content hsource _ =>
      split
      · exact hreleased
      · refine hgoes rfl ⟨fun source' hsource' => ?_, fun doc hdoc => ?_⟩
        · rw [Option.some.inj (hsource'.symm.trans hsource)]
        · obtain ⟨hle, hcontent⟩ := hsynced path source hsource doc hdoc
          refine ⟨hle, fun heq => ?_⟩
          have hsame := hfound (outcome_saves ho hconflict)
          rw [hcontent heq, Option.map_some] at hsame
          rw [Based, entry_eq, hmd]
          exact hsame
    · exact hreleased

include hservice in
theorem sound_enter {s : Shared} {ts : List Task} (h : Sound digest s ts) (r : Request)
    (hchecked : (Checked digest).enter r s ts) :
    Sound digest (enter service r s).1 ((enter service r s).2 ++ ts) := by
  cases r with
  | save id =>
    exact ⟨h.locked.more (l := [_]) (by simp [Task.holds, Task.owner]), h.synced,
      List.forall_mem_cons.mpr ⟨trivial, h.tasks⟩, h.saved⟩
  | edit item content =>
    have hreplaces := replaces_edit hservice s item content
    exact ⟨h.locked, hreplaces.synced h.synced,
      fun t ht => (hreplaces.harmless (hchecked t ht)).sound (h.tasks t ht), h.saved⟩
  | write id files =>
    exact ⟨h.locked, h.synced, fun t ht => (harmless_of_eq
      (fun other _ => manifest_write s id files other) rfl rfl rfl).sound (h.tasks t ht), h.saved⟩

section Held

variable {s : Shared} {t : Task} {ts : List Task}

theorem holds_of_owner {id : String} (h : t.owner = some id) : t.holds = [id] := by
  rw [Task.holds, h]
  rfl

/-- The handler goes on with its lock, in the same state. -/
theorem Sound.goes (h : Sound digest s (t :: ts)) {u : Task} (howner : u.owner = t.owner)
    (hu : u.Sound digest s) : Sound digest s (u :: ts) :=
  ⟨h.locked.goes (by rw [Task.holds, Task.holds, howner]), h.synced,
    List.forall_mem_cons.mpr ⟨hu, (List.forall_mem_cons.mp h.tasks).2⟩, h.saved⟩

theorem Sound.ends (h : Sound digest s (t :: ts)) {id : String} (howner : t.owner = some id) :
    Sound digest (s.release id) ts := by
  have hrelease := h.locked.release
  rw [holds_of_owner howner] at hrelease
  exact ⟨hrelease, h.synced, fun u hu => (harmless_of_eq (fun _ _ => rfl) rfl rfl rfl).sound
    (h.tasks u (List.mem_cons_of_mem _ hu)), h.saved⟩

include hservice in
/-- The service replaces the document of a save. -/
theorem Sound.put {v : Save} (h : Sound digest s (.putting v :: ts)) {doc : Document}
    (hdoc : s.cloud v.itemId = some doc) (halone : ∀ u ∈ ts, u.session ≠ some v.itemId) :
    Sound digest (s.put service v doc)
      (.stored v (service.replace doc v.content).etag :: ts) := by
  obtain ⟨⟨hfits, hbased⟩, htasks⟩ := List.forall_mem_cons.mp h.tasks
  have hreplaces := replaces_put hservice hdoc
  refine ⟨h.locked.goes rfl, hreplaces.synced h.synced, List.forall_mem_cons.mpr
    ⟨⟨hfits, fun doc' hdoc' => ?_⟩, fun u hu => (hreplaces.harmless (halone u hu)).sound (htasks u hu)⟩,
    List.forall_mem_cons.mpr ⟨hbased doc hdoc, h.saved⟩⟩
  have hput : (s.put service v doc).cloud v.itemId = some (service.replace doc v.content) :=
    Function.update_self _ _ _
  cases hput.symm.trans hdoc'
  exact ⟨Nat.le_refl _, fun _ => hservice.content doc v.content⟩

/-- The response to an upload has come. -/
theorem Sound.record {v : Save} {etag : ℕ} (h : Sound digest s (.stored v etag :: ts))
    (halone : ∀ u ∈ ts, ¬u.compared v.path) (m : Manifest) :
    Sound digest (s.record v etag) (.checkpointing v.id m :: ts) := by
  obtain ⟨hstored, htasks⟩ := List.forall_mem_cons.mp h.tasks
  exact ⟨h.locked.goes rfl, synced_record h.synced hstored, List.forall_mem_cons.mpr
    ⟨trivial, fun u hu => (harmless_record (halone u hu)).sound (htasks u hu)⟩, h.saved⟩

theorem Sound.checkpoint {id : String} {m : Manifest}
    (h : Sound digest s (.checkpointing id m :: ts)) :
    Sound digest ((s.writeManifest id m).release id) ts := by
  refine ⟨h.locked.release, h.synced, fun u hu => Harmless.sound (harmless_of_eq
    (fun other hother => manifest_writeManifest s (fun heq => ?_) m) rfl rfl rfl)
    (h.tasks u (List.mem_cons_of_mem _ hu)), h.saved⟩
  refine h.locked.alone (k := id) List.mem_cons_self hu ?_
  rw [holds_of_owner hother, heq]
  exact List.mem_cons_self

end Held

include hservice in
theorem sound_resume {s : Shared} {ts : List Task} {t : Task} (h : Sound digest s (t :: ts)) (x : Input)
    (hchecked : (Checked digest).resume t x s ts) :
    Sound digest (resume service digest t x s).1 ((resume service digest t x s).2 ++ ts) := by
  obtain ⟨ht, htasks⟩ := List.forall_mem_cons.mp h.tasks
  have hstops : Sound digest s ts := ⟨h.locked.tail, h.synced, htasks, h.saved⟩
  unfold resume
  split
  · next id path =>
    split
    · next d hd =>
      split
      · exact hstops
      · next hfree =>
        refine sound_run (s := { s with locks := id :: s.locks }) (fun u hu => ?_) h.synced
          (fun u hu => (harmless_of_eq (fun _ _ => rfl) rfl rfl rfl).sound (htasks u hu)) h.saved hd
          (fun l hl => scan_manifest hl) found_changes (hchecked d hd (by simpa using hfree))
        have hholds := holds_of_owner hu
        have htake := h.locked.tail.take (t := u) (fun k hk => ?_) (by simp [hholds])
        · rwa [hholds] at htake
        · rw [hholds] at hk
          rw [List.mem_singleton.mp hk]
          simpa using hfree
    · exact hstops
  · next id path l =>
    split
    · next d hd =>
      have hm : d.manifest = l.manifest := by
        have hmanifest := ht.1
        rw [Shared.manifest, hd, Option.map_some] at hmanifest
        exact Option.some.inj hmanifest
      refine sound_run (fun u hu => ?_) h.synced htasks h.saved hd
        (fun l' hl' => (scan_manifest hl').trans hm.symm) (fun hf => ?_) (hchecked d hd)
      · exact h.locked.goes (holds_of_owner hu)
      · rw [hm]
        exact (found_shown hf).elim ht.2 fun hsame => hsame
    · exact h.ends rfl
  · next v =>
    split
    · exact h.goes rfl ht
    · exact h.ends rfl
  · next v etag =>
    split
    · exact h.ends rfl
    · exact h.goes rfl ht
  · next v =>
    split
    · next doc hdoc =>
      split
      · next hopens =>
        refine h.goes rfl ⟨ht.1, fun doc' hdoc' => ?_⟩
        cases hdoc.symm.trans hdoc'
        exact (ht.2 doc hdoc).2 (hservice.ifMatch doc v.etag hopens)
      · exact h.ends rfl
    · exact h.ends rfl
  · exact h.goes rfl ht
  · next v =>
    split
    · next doc hdoc => exact h.put hservice hdoc hchecked
    · exact h.ends rfl
  · next v etag =>
    have hrecord := fun m => h.record hchecked m
    split
    · next m _ => exact hrecord m
    · exact (hrecord []).ends rfl
  · exact h.checkpoint
  · split
    · next id howner => exact h.ends howner
    · exact hstops
  · exact h

include hservice in
theorem sound_invariant (digest : Bytes → String) :
    Invariant (server service digest) (Checked digest) (Sound digest) where
  perm _ _ _ hp h :=
    ⟨Held.perm h.locked hp, h.synced, fun t ht => h.tasks t (hp.mem_iff.mpr ht), h.saved⟩
  enter r _ _ h hchecked := sound_enter hservice h r hchecked
  resume _ x _ _ h hchecked := sound_resume hservice h x hchecked
  restart s ts h := by
    rw [(server service digest).filter_survives (fun _ => rfl) ts]
    exact ⟨held_nil, h.synced, nofun, h.saved⟩

theorem synced_initial (folder : Folder) (items : String → Option String)
    (cloud : String → Option Bytes) (drafts : String → Option Draft) :
    Synced (initial folder items cloud drafts).shared := by
  intro path source hsource doc hdoc
  obtain ⟨item, hitem, rfl⟩ := Option.map_eq_some_iff.mp hsource
  obtain ⟨b, hb, rfl⟩ := Option.map_eq_some_iff.mp hdoc
  refine ⟨Nat.le_refl _, fun _ => ?_⟩
  show ((items path).bind cloud).or (folder path) = some b
  rw [hitem, Option.bind_some, hb, Option.some_or]

/-- In every run, whatever the service does within its documentation: a save replaces a document only
when it is what the baseline of its own conversation knows, as long as every change that is saved is
without a conflict and no document or file is written in the middle of another save of it. -/
theorem saves_meet_baselines (service : Service) (hservice : service.Documented)
    (digest : Bytes → String) (folder : Folder) (items : String → Option String)
    (cloud : String → Option Bytes) (drafts : String → Option Draft)
    (es : List (Event Request Input))
    (h : Along (server service digest).step (Checked digest).At (initial folder items cloud drafts)
      es) :
    ∀ a ∈ ((server service digest).run (initial folder items cloud drafts) es).shared.saved,
      some (digest a.before) = a.entry := by
  have hinit : Sound digest (initial folder items cloud drafts).shared [] :=
    ⟨held_nil, synced_initial folder items cloud drafts, nofun, nofun⟩
  exact ((sound_invariant hservice digest).run (s := initial folder items cloud drafts) hinit h).saved

/-- A service that counts the changes of a document. -/
def counting : Service where
  opens doc etag := doc.etag == etag
  replace doc content := ⟨content, doc.etag + 1⟩

theorem documented_counting : counting.Documented where
  ifMatch _ _ h := eq_of_beq h
  content _ _ := rfl
  later doc _ := Nat.lt_succ_self doc.etag

/-- One imported file, and two conversations that have changed it. -/
def oneItem : String → Option String := Function.update (fun _ => none) "a.md" (some "item")

def oneDocument : String → Option Bytes := Function.update (fun _ => none) "item" (some [49])

def twoDrafts : String → Option Draft :=
  Function.update (Function.update (fun _ => none)
    "first" (some ⟨[("a.md", "1")], [("a.md", [65])]⟩))
    "second" (some ⟨[("a.md", "1")], [("a.md", [66])]⟩)

/-- A save from its first step to its last. -/
def wholeSave (id path : String) : List (Event Request Input) :=
  [.arrive (.save id), .wake 0 (.body path), .wake 0 .shown, .wake 0 .served, .wake 0 .arrived,
    .wake 0 .served, .wake 0 .arrived, .wake 0 .served, .wake 0 .arrived, .wake 0 .committed]

/-- The first save of a document. -/
theorem saves_meet_baselines_first :
    let s := (server counting spelled).run (initial (fun _ => none) oneItem oneDocument twoDrafts)
      (wholeSave "first" "a.md")
    (s.shared.saved.length = 1 ∧ s.shared.folder "a.md" = some [65]) ∧
      ∀ a ∈ s.shared.saved, some (spelled a.before) = a.entry := by
  refine ⟨by decide, saves_meet_baselines counting documented_counting spelled (fun _ => none) oneItem
    oneDocument twoDrafts _ ?_⟩
  refine ⟨trivial, fun d hd _ => ?_, fun d hd => ?_, trivial, trivial, trivial, trivial, nofun, nofun,
    trivial, trivial⟩
  · cases hd
    decide
  · cases hd
    decide

/-- The second conversation saves after the first: its list finds the conflict, the version is the
recorded one, and what the first has saved is overwritten. -/
theorem save_overwritten :
    ¬∀ a ∈ ((server counting spelled).run (initial (fun _ => none) oneItem oneDocument twoDrafts)
      (wholeSave "first" "a.md" ++ wholeSave "second" "a.md")).shared.saved,
        some (spelled a.before) = a.entry := by
  decide

end ForgeOS.Galaxy.Saves
