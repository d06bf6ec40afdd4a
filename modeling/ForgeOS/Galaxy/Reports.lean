import Mathlib.Data.List.Chain
import ForgeOS.Library.Interleaving
import ForgeOS.Galaxy.Paths
import ForgeOS.Galaxy.Requests
import ForgeOS.Galaxy.Store

/-! Reports and draft files: four writers that compare the hash they are given with the file and then
replace it. -/

namespace ForgeOS.Galaxy.Reports

open ForgeOS.Library.Interleaving

/-! ### State -/

abbrev Bytes := List UInt8

def utf8 (s : String) : Bytes := s.toList.flatMap String.utf8EncodeChar

/-- What the handlers use of the host: its directories, a digest that tells contents apart and is
never the empty text, and the parser of Markdown. -/
structure Host where
  disk : Disk
  digest : Bytes → String
  digest_injective : Function.Injective digest
  digest_ne_empty : ∀ b, digest b ≠ ""
  normalizeBriefLinks : String → String

/-- A save: the conversation and its workspace, the path that the request named, the path and the file
that were written, the hash that was given, and what was replaced by what. -/
structure Save where
  id : String
  workspace : String
  asked : Option String
  path : String
  file : File
  expected : Js
  replaced : Option Bytes
  written : Bytes
  deriving DecidableEq

/-- The tables, the files, and the saves so far, the last one first. -/
structure Shared where
  store : Store
  reports : String → Option String
  files : File → Option Bytes
  saves : List Save

/-- The report route waits for its body, with the project it read before; `createDraft` waits for git. -/
inductive Task
  | body (id : String) (project : Project)
  | drafting (id selected root : String)
  deriving DecidableEq, Repr

/-- The body of a request to the report route; `refusal` is what its guards say (a lock, a worker of
the conversation), `root` the directory that `createDraft` would make. -/
inductive Input
  | body (refusal : Option String) (text hash path : Js) (root : String)
  | committed (ok : Bool)
  deriving DecidableEq, Repr

/-- A call of a tool with its input. -/
inductive Call
  | saveBrief (title text expectedHash : Js)
  | saveReport (text expectedHash : Js)
  | writeDraft (path text expectedHash : Js)
  | prepareReport (root : String)
  deriving DecidableEq, Repr

/-- A request to the report route begins; a tool is called by the worker of a conversation, with what
the guards of tools say (another tool at work, a stopped or read-only request) and the identifier a
new project would be given; a conversation is made. -/
inductive Request
  | report (id : String)
  | tool (id : String) (call : Call) (refusal : Option String) (newId : String)
  | converse (id projectId directory : String)
  deriving DecidableEq, Repr

/-! ### Reading -/

/-- The hash of a file that is not there is empty. -/
def Host.hashOf (h : Host) : Option Bytes → String
  | none => ""
  | some bytes => h.digest bytes

def reportPath (s : Shared) (id : String) : String :=
  firstText [s.reports id] "Reports/Summary report.md"

/-- `report`, without its text. -/
structure Report where
  path : String
  configured : Bool
  present : Bool
  hash : String
  deriving DecidableEq, Repr

def report (h : Host) (s : Shared) (id : String) : Except String Report :=
  match s.store.conversations id with
  | none => .error "Conversation not found."
  | some c =>
    match safePath h.disk c.workspace (reportPath s id) with
    | .error e => .error e
    | .ok full =>
      match s.files full with
      | none => .ok ⟨reportPath s id, (s.reports id).isSome, false, ""⟩
      | some bytes =>
        if 500000 < bytes.length then .error "The report must be a text document under 500 KB."
        else if bytes.contains 0 then .error "Choose a Markdown or text report."
        else .ok ⟨reportPath s id, (s.reports id).isSome, true, h.digest bytes⟩

/-! ### Writing -/

/-- The path that a request names itself. -/
def named : Js → Option String
  | .string p => some p
  | _ => none

/-- `privateWrite` -/
def Shared.write (s : Shared) (save : Save) : Shared :=
  { s with
    files := Function.update s.files save.file (some save.written)
    saves := save :: s.saves }

/-- A text that may be saved, in at most `max` bytes. -/
def savable (text : Js) (max : ℕ) : Option String :=
  match text with
  | .string t =>
    if trim t = "" ∨ max < (utf8 t).length ∨ t.toList.contains '\x00' then none else some t
  | _ => none

def saveReport (h : Host) (s : Shared) (id : String) (text hash expectedPath : Js) :
    Except String Shared :=
  match s.store.conversations id, report h s id with
  | none, _ => .error "Conversation not found."
  | some _, .error e => .error e
  | some c, .ok current =>
    if c.mode ≠ .draft ∨ current.configured = false then .error "Start a report draft first."
    else
      match savable text 500000 with
      | none => .error "A report needs text and must be under 500 KB."
      | some t =>
        if hash ≠ .string current.hash ∨
            (expectedPath ≠ .undefined ∧ expectedPath ≠ .string current.path) then
          .error "The report changed while you were editing. Your text is kept here; reload the latest version before saving."
        else
          match safePath h.disk c.workspace current.path with
          | .error e => .error e
          | .ok target =>
            .ok (s.write ⟨id, c.workspace, named expectedPath, current.path, target, hash,
              s.files target, utf8 t⟩)

/-- The endings of texts that may be edited in a draft, `/\.(txt|md|csv|tsv|json)$/i`. -/
def plainText (path : String) : Bool :=
  [".txt", ".md", ".csv", ".tsv", ".json"].any fun suffix =>
    suffix.toList.isSuffixOf (path.toList.map Char.toLower)

/-- `workspace_write_draft` -/
def writeDraft (h : Host) (s : Shared) (id : String) (path text expectedHash : Js) :
    Except String Shared :=
  match s.store.conversations id with
  | none => .error "Conversation not found."
  | some c =>
    match s.store.projects c.projectId with
    | none => .error "Workspace not found."
    | some project =>
      if project.kind.assisted ∨ project.kind = .system then
        .error "Use the tools for this workspace."
      else if c.mode ≠ .draft ∨ c.workspace = project.path then
        .error "Prepare an isolated draft before editing a source document."
      else
        match path with
        | .string p =>
          if plainText p = false then .error "Edit a plain-text draft file."
          else
            match savable text 100000 with
            | none => .error "Draft text must be nonempty and under 100 KB."
            | some t =>
              match safePath h.disk c.workspace p with
              | .error e => .error e
              | .ok file =>
                if expectedHash ≠ .string (h.hashOf (s.files file)) then
                  .error "The draft file changed. Read it again before editing."
                else
                  .ok (s.write ⟨id, c.workspace, some p, p, file, expectedHash, s.files file,
                    utf8 t⟩)
        | _ => .error "Edit a plain-text draft file."

/-- `meeting_save_brief` -/
def saveBrief (h : Host) (s : Shared) (id : String) (title text expectedHash : Js) (pid : String) :
    Except String Shared :=
  match s.store.conversations id with
  | none => .error "Conversation not found."
  | some c =>
    if ((s.store.projects c.projectId).map (·.kind.assisted)).getD false = false then
      .error "Outlook reading belongs in Assistant or a meeting workspace."
    else
      match title, text with
      | .string name, .string t =>
        if trim name = "" ∨ 80 < utf16Length name ∨ name.toList.any (fun ch => ch.toNat < 0x20) then
          .error "Give this meeting a short title."
        else if trim t = "" ∨ 100000 < utf16Length t then
          .error "The brief must contain text under 100,000 characters."
        else
          match saveReport h s id (.string (h.normalizeBriefLinks t)) expectedHash .undefined,
            s.store.addMeeting pid c.workspace with
          | .ok saved, some st =>
            .ok { saved with store := st.update id fun c => { c with projectId := pid } }
          | .error e, _ => .error e
          | _, none => .error "There is no such project."
      | .string _, _ => .error "The brief must contain text under 100,000 characters."
      | _, _ => .error "Give this meeting a short title."

/-! ### Preparing -/

/-- The files after `createDraft` has copied what is shown of the source. -/
def copied (h : Host) (s : Shared) (source root : String) (file : File) : Option Bytes :=
  let base := h.disk.realpath root
  let rel := file.drop base.length
  if base.isPrefixOf file then
    if rel.all visible && !rel.inits.tail.any fun p =>
        h.disk.isSymbolicLink (h.disk.realpath source ++ p) then
      s.files (h.disk.realpath source ++ rel)
    else none
  else s.files file

/-- A directory with a random name has not been there before. -/
def Shared.isNew (h : Host) (s : Shared) (root : String) : Bool :=
  s.saves.all fun x => !(h.disk.realpath root).isPrefixOf x.file

def setReport (s : Shared) (id path : String) : Shared :=
  { s with reports := Function.update s.reports id (some path) }

/-- `/\.(md|txt)$/i` and the length. -/
def reportName (path : String) : Bool :=
  [".md", ".txt"].any (fun suffix => suffix.toList.isSuffixOf (path.toList.map Char.toLower)) &&
    utf16Length path ≤ 300

/-- `prepareReport` up to its wait for `createDraft`. -/
def prepareReport (h : Host) (s : Shared) (id : String) (path : Option String) (root : String) :
    Shared × List Task :=
  match s.store.conversations id with
  | none => (s, [])
  | some c =>
    let selected := firstText [path, s.reports id] "Reports/Summary report.md"
    if reportName selected = false ∨ (safePath h.disk c.workspace selected).toOption = none then (s, [])
    else if c.mode = .draft then (setReport s id selected, [])
    else
      match s.store.projects c.projectId with
      | none => (s, [])
      | some project =>
        if project.kind = .system ∨ s.isNew h root = false then (s, [])
        else ({ s with files := copied h s project.path root }, [.drafting id selected root])

/-- `prepareReport` after `createDraft`. -/
def prepared (s : Shared) (id selected root : String) : Shared :=
  setReport { s with
    store := s.store.update id fun c => { c with workspace := root, mode := .draft } } id selected

/-! ### Handlers -/

/-- A handler that has written, or ends with an error. -/
def done (s : Shared) (out : Except String Shared) : Shared × List Task := (out.toOption.getD s, [])

def call (h : Host) (s : Shared) (id pid : String) : Call → Shared × List Task
  | .saveBrief title text expectedHash => done s (saveBrief h s id title text expectedHash pid)
  | .saveReport text expectedHash => done s (saveReport h s id text expectedHash .undefined)
  | .writeDraft path text expectedHash => done s (writeDraft h s id path text expectedHash)
  | .prepareReport root => prepareReport h s id none root

def enter (h : Host) : Request → Shared → Shared × List Task
  | .report id, s =>
    match (s.store.conversations id).bind fun c => s.store.projects c.projectId with
    | some project => (s, [.body id project])
    | none => (s, [])
  | .tool _ _ (some _) _, s => (s, [])
  | .tool id c none pid, s => call h s id pid c
  | .converse id projectId directory, s =>
    match s.store.projects projectId, s.store.conversations id with
    | some p, none =>
      let c : Conversation := ⟨projectId, none,
        if p.kind = .assistant then directory else p.path,
        if p.kind.assisted then .draft else .explore, "idle", none⟩
      ({ s with
          store := { s.store with
            conversations := Function.update s.store.conversations id (some c) }
          reports := if p.kind.assisted then
            Function.update s.reports id (some "Reports/Meeting brief.md") else s.reports }, [])
    | _, _ => (s, [])

/-- A handler that is given something else than it waits for goes on waiting. -/
def resume (h : Host) : Task → Input → Shared → Shared × List Task
  | .body id project, .body refusal text hash path root, s =>
    if project.kind = .system ∨ refusal.isSome then (s, [])
    else if text ≠ .undefined then done s (saveReport h s id text hash path)
    else if path.truthy then
      match string path 300 with
      | .ok p => prepareReport h s id (some p) root
      | .error _ => (s, [])
    else prepareReport h s id none root
  | .drafting id selected root, .committed true, s => (prepared s id selected root, [])
  | .drafting _ _ _, .committed false, s => (s, [])
  | task, _, s => (s, [task])

def server (h : Host) : Server Shared Task Request Input :=
  ⟨enter h, resume h, fun s => { s with store := s.store.recover }, fun _ => false⟩

/-- Any tables and files, and no save yet. -/
def initial (store : Store) (reports : String → Option String) (files : File → Option Bytes) :
    State Shared Task := ⟨⟨store, reports, files, []⟩, []⟩

/-! ### Saves of one file -/

/-- The saves of a file, the last one first. -/
def Shared.savesOf (s : Shared) (f : File) : List Save := s.saves.filter (·.file = f)

/-- A save replaced what its hash is of, in the file that its path is in the workspace, and a path that
the request named is this one. -/
structure Save.Exact (h : Host) (x : Save) : Prop where
  hash : x.expected = .string (h.hashOf x.replaced)
  file : safePath h.disk x.workspace x.path = .ok x.file
  path : ∀ p ∈ x.asked, p = x.path

/-- Every save is exact, a file holds what was last saved to it, and each save replaced what the one
before it wrote. -/
structure Sound (h : Host) (s : Shared) : Prop where
  exact : ∀ x ∈ s.saves, x.Exact h
  last : ∀ f, ∀ x ∈ (s.savesOf f).head?, s.files f = some x.written
  chain : ∀ f, (s.savesOf f).IsChain fun x y => x.replaced = some y.written

theorem Sound.congr {h : Host} {s s' : Shared} (hs : Sound h s) (hsaves : s'.saves = s.saves)
    (hfiles : s'.files = s.files) : Sound h s' := by
  have hof : ∀ f, s'.savesOf f = s.savesOf f := fun f => by rw [Shared.savesOf, hsaves]; rfl
  refine ⟨by rw [hsaves]; exact hs.exact, fun f x hx => ?_, fun f => ?_⟩
  · rw [hof] at hx
    rw [hfiles]
    exact hs.last f x hx
  · rw [hof]
    exact hs.chain f

/-- A save of what is in the file. -/
theorem Sound.write {h : Host} {s : Shared} (hs : Sound h s) {x : Save} (hx : x.Exact h)
    (hreplaced : x.replaced = s.files x.file) : Sound h (s.write x) := by
  have hsame : (s.write x).savesOf x.file = x :: s.savesOf x.file := by
    simp [Shared.savesOf, Shared.write]
  have hother : ∀ {f}, f ≠ x.file → (s.write x).savesOf f = s.savesOf f := by
    intro f hf
    simp [Shared.savesOf, Shared.write, hf.symm]
  refine ⟨fun y hy => ?_, fun f y hy => ?_, fun f => ?_⟩
  · rcases List.mem_cons.mp hy with rfl | hy
    · exact hx
    · exact hs.exact y hy
  · by_cases hf : f = x.file
    · rw [hf, hsame, List.head?_cons, Option.mem_some_iff] at hy
      rw [hf, ← hy]
      exact Function.update_self _ _ _
    · rw [hother hf] at hy
      exact (Function.update_of_ne hf _ _).trans (hs.last f y hy)
  · by_cases hf : f = x.file
    · rw [hf, hsame]
      cases hof : s.savesOf x.file with
      | nil => exact .singleton x
      | cons y ys =>
        have hlast := hs.last x.file y (by rw [hof]; rfl)
        have hchain := hs.chain x.file
        rw [hof] at hchain
        exact .cons_cons (hreplaced.trans hlast) hchain
    · rw [hother hf]
      exact hs.chain f

/-! ### Writers -/

/-- The hash of a report is that of its file. -/
theorem report_spec {h : Host} {s : Shared} {id : String} {c : Conversation} {r : Report}
    (hc : s.store.conversations id = some c) (hr : report h s id = .ok r) :
    ∃ full, safePath h.disk c.workspace r.path = .ok full ∧ r.hash = h.hashOf (s.files full) := by
  unfold report at hr
  rw [hc] at hr
  dsimp only at hr
  split at hr
  · cases hr
  · next full hfull =>
    refine ⟨full, ?_⟩
    split at hr
    · next hnone =>
      cases hr
      exact ⟨hfull, by rw [hnone]; rfl⟩
    · next bytes hbytes =>
      split at hr
      · cases hr
      · split at hr
        · cases hr
        · cases hr
          exact ⟨hfull, by rw [hbytes]; rfl⟩

/-- What `saveReport` writes. -/
theorem saveReport_spec {h : Host} {s s' : Shared} {id : String} {text hash expectedPath : Js}
    (hok : saveReport h s id text hash expectedPath = .ok s') :
    ∃ x : Save, s' = s.write x ∧ x.replaced = s.files x.file ∧ x.Exact h := by
  unfold saveReport at hok
  split at hok
  · cases hok
  · cases hok
  · next c current hc hcurrent =>
    obtain ⟨full, hfull, hhash⟩ := report_spec hc hcurrent
    split at hok
    · cases hok
    · split at hok
      · cases hok
      · split at hok
        · cases hok
        · next hguard =>
          obtain ⟨hsame, hpath⟩ := not_or.mp hguard
          rw [hfull] at hok
          cases hok
          refine ⟨_, rfl, rfl, ?_, hfull, fun p hp => ?_⟩
          · rw [not_not.mp hsame, hhash]
          · by_contra hne
            cases expectedPath with
            | string q =>
              cases hp
              exact hpath ⟨nofun, fun heq => hne (Js.string.inj heq)⟩
            | _ => cases hp

theorem writeDraft_spec {h : Host} {s s' : Shared} {id : String} {path text expectedHash : Js}
    (hok : writeDraft h s id path text expectedHash = .ok s') :
    ∃ x : Save, s' = s.write x ∧ x.replaced = s.files x.file ∧ x.Exact h := by
  unfold writeDraft at hok
  split at hok
  · cases hok
  · split at hok
    · cases hok
    · split at hok
      · cases hok
      · split at hok
        · cases hok
        · split at hok
          · next p =>
            split at hok
            · cases hok
            · split at hok
              · cases hok
              · split at hok
                · cases hok
                · next file hfile =>
                  split at hok
                  · cases hok
                  · next hguard =>
                    cases hok
                    exact ⟨_, rfl, rfl, not_not.mp hguard, hfile, fun q hq => (Option.some.inj hq).symm⟩
          · cases hok

/-- A brief is saved as the report, and only the tables change after that. -/
theorem saveBrief_spec {h : Host} {s s' : Shared} {id pid : String} {title text expectedHash : Js}
    (hok : saveBrief h s id title text expectedHash pid = .ok s') :
    ∃ text' saved, saveReport h s id text' expectedHash .undefined = .ok saved ∧
      s'.saves = saved.saves ∧ s'.files = saved.files := by
  unfold saveBrief at hok
  split at hok
  · cases hok
  · split at hok
    · cases hok
    · split at hok
      · split at hok
        · cases hok
        · split at hok
          · cases hok
          · split at hok
            · next hsaved _ =>
              cases hok
              exact ⟨_, _, hsaved, rfl, rfl⟩
            · cases hok
            · cases hok
      · cases hok
      · cases hok

theorem Sound.done {h : Host} {s : Shared} (hs : Sound h s) {out : Except String Shared}
    (hout : ∀ s', out = .ok s' → Sound h s') : Sound h (done s out).1 := by
  cases out with
  | error e => exact hs
  | ok s' => exact hout s' rfl

theorem Sound.saveReport {h : Host} {s s' : Shared} (hs : Sound h s) {id : String}
    {text hash expectedPath : Js} (hok : saveReport h s id text hash expectedPath = .ok s') :
    Sound h s' := by
  obtain ⟨x, rfl, hreplaced, hx⟩ := saveReport_spec hok
  exact hs.write hx hreplaced

/-- A draft is made in a directory to which nothing has been saved. -/
theorem Sound.copied {h : Host} {s : Shared} (hs : Sound h s) {source root : String}
    (hnew : s.isNew h root) : Sound h { s with files := copied h s source root } := by
  refine ⟨hs.exact, fun f x hx => ?_, hs.chain⟩
  have hmem : x ∈ s.saves ∧ x.file = f := by
    simpa using List.mem_filter.mp (List.mem_of_mem_head? hx)
  have hout := List.all_eq_true.mp hnew x hmem.1
  rw [Bool.not_eq_true', hmem.2] at hout
  show Reports.copied h s source root f = _
  unfold Reports.copied
  dsimp only
  rw [if_neg (by rw [hout]; decide)]
  exact hs.last f x hx

theorem Sound.prepareReport {h : Host} {s : Shared} (hs : Sound h s) (id : String)
    (path : Option String) (root : String) : Sound h (prepareReport h s id path root).1 := by
  unfold Reports.prepareReport
  split
  · exact hs
  · dsimp only
    split
    · exact hs
    · split
      · exact hs.congr rfl rfl
      · split
        · exact hs
        · split
          · exact hs
          · next hnew =>
            exact hs.copied (by simpa using (not_or.mp hnew).2)

theorem Sound.call {h : Host} {s : Shared} (hs : Sound h s) (id pid : String) (c : Call) :
    Sound h (call h s id pid c).1 := by
  cases c with
  | saveReport text expectedHash => exact hs.done fun s' hok => hs.saveReport hok
  | prepareReport root => exact hs.prepareReport id none root
  | writeDraft path text expectedHash =>
    refine hs.done fun s' hok => ?_
    obtain ⟨x, rfl, hreplaced, hx⟩ := writeDraft_spec hok
    exact hs.write hx hreplaced
  | saveBrief title text expectedHash =>
    refine hs.done fun s' hok => ?_
    obtain ⟨text', saved, hsaved, hsaves, hfiles⟩ := saveBrief_spec hok
    exact (hs.saveReport hsaved).congr hsaves hfiles

/-! ### Runs -/

theorem sound_enter {h : Host} {s : Shared} (hs : Sound h s) (r : Request) :
    Sound h (enter h r s).1 := by
  cases r with
  | report id =>
    simp only [enter]
    split
    · exact hs
    · exact hs
  | tool id c refusal pid =>
    cases refusal with
    | none => exact hs.call id pid c
    | some m => exact hs
  | converse id projectId directory =>
    simp only [enter]
    split
    · exact hs.congr rfl rfl
    · exact hs

theorem sound_resume {h : Host} {s : Shared} (hs : Sound h s) (t : Task) (x : Input) :
    Sound h (resume h t x s).1 := by
  unfold resume
  split
  · split
    · exact hs
    · split
      · exact hs.done fun s' hok => hs.saveReport hok
      · split
        · split
          · exact hs.prepareReport _ _ _
          · exact hs
        · exact hs.prepareReport _ _ _
  · exact hs.congr rfl rfl
  · exact hs
  · exact hs

theorem sound_invariant (h : Host) : Invariant (server h) always fun s _ => Sound h s :=
  .of_shared (fun r _ _ hs _ => sound_enter hs r) (fun t x _ _ hs _ => sound_resume hs t x)
    fun _ hs => hs.congr rfl rfl

/-- Every save of a report, a brief or a draft file replaced exactly the content that its hash is of,
in the file of its path, and the saves of a file form one chain up to what it holds. -/
theorem saves_chain (h : Host) (store : Store) (reports : String → Option String)
    (files : File → Option Bytes) (es : List (Event Request Input)) :
    let s := ((server h).run (initial store reports files) es).shared
    (∀ x ∈ s.saves, x.Exact h ∧
      (∀ b, x.expected = .string (h.digest b) → x.replaced = some b) ∧
      (x.expected = .string "" → x.replaced = none)) ∧
    ∀ f, (s.savesOf f).IsChain (fun x y => x.replaced = some y.written) ∧
      ∀ x ∈ (s.savesOf f).head?, s.files f = some x.written := by
  intro s
  have hinit : Sound h (initial store reports files).shared :=
    ⟨fun _ hx => absurd hx List.not_mem_nil, fun _ _ hx => (nomatch hx), fun _ => .nil⟩
  have hs : Sound h s := (sound_invariant h).run_always hinit es
  refine ⟨fun x hx => ⟨hs.exact x hx, fun b hb => ?_, fun hb => ?_⟩, fun f => ⟨hs.chain f, hs.last f⟩⟩
  · have hhash := (hs.exact x hx).hash.symm.trans hb
    cases hreplaced : x.replaced with
    | none =>
      rw [hreplaced] at hhash
      exact absurd (Js.string.inj hhash).symm (h.digest_ne_empty b)
    | some b' =>
      rw [hreplaced] at hhash
      rw [h.digest_injective (Js.string.inj hhash)]
  · have hhash := (hs.exact x hx).hash.symm.trans hb
    cases hreplaced : x.replaced with
    | none => rfl
    | some b' =>
      rw [hreplaced] at hhash
      exact absurd (Js.string.inj hhash) (h.digest_ne_empty b')

/-! ### A host whose digests spell the content out -/

theorem toNat_ofNat_byte (u : UInt8) : (Char.ofNat u.toNat).toNat = u.toNat := by
  have hlt := u.toNat_lt
  rw [Char.ofNat, dif_pos (.inl (by omega))]
  rfl

theorem spelled_injective : Function.Injective fun b : Bytes =>
    String.ofList ('#' :: b.map fun u => Char.ofNat u.toNat) := by
  intro b b' h
  refine List.map_injective_iff.mpr (fun u v huv => ?_) (List.cons.inj (String.ofList_injective h)).2
  have hnat := congrArg Char.toNat huv
  rw [toNat_ofNat_byte, toNat_ofNat_byte] at hnat
  exact UInt8.toNat_inj.mp hnat

def plainHost : Host where
  disk := ⟨fun root => ["data", root], fun _ => false⟩
  digest b := String.ofList ('#' :: b.map fun u => Char.ofNat u.toNat)
  digest_injective := spelled_injective
  digest_ne_empty b h := by
    have hlist := congrArg String.toList h
    rw [String.toList_ofList] at hlist
    cases hlist
  normalizeBriefLinks := id

/-- Two conversations of one meeting. -/
def meeting : Store where
  projects := Function.update (fun _ => none) "m" (some ⟨.meeting, "m"⟩)
  conversations id :=
    if id = "a" ∨ id = "b" then some ⟨"m", none, "m", .draft, "idle", none⟩ else none

/-- Of three saves of the brief that they share, the one with the hash of an older content fails. -/
example :
    (((server plainHost).run (initial meeting (fun _ => some "Reports/Meeting brief.md") fun _ => none)
      [.arrive (.tool "a" (.saveReport (.string "one") (.string "")) none ""),
        .arrive (.tool "b" (.saveReport (.string "two") (.string "")) none ""),
        .arrive (.report "b"),
        .wake 0 (.body none (.string "two") (.string "#one") .undefined "")]).shared.saves.map
      fun x => (x.id, x.expected)) = [("b", .string "#one"), ("a", .string "")] := by
  decide

end ForgeOS.Galaxy.Reports
