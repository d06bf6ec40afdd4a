import Mathlib.Data.List.Count
import Mathlib.Logic.Function.Basic
import ForgeOS.Galaxy.Requests
import ForgeOS.Library.Interleaving

/-! Publishing an export to OneDrive: the route, and the upload it starts. The row of the export is
read when the request arrives; its body, the folder, the upload session and the receipt are waited
for one after the other. -/

namespace ForgeOS.Galaxy.Exports

open ForgeOS.Library.Conditions ForgeOS.Library.Interleaving

/-! ### Records -/

/-- `cloudState`, a text that is empty at first. -/
inductive CloudState
  | unset
  | pending
  | saved
  | uncertain
  deriving DecidableEq, Repr

inductive Format
  | md
  | docx
  | pdf
  deriving DecidableEq, Repr

def Format.name : Format → String
  | .md => "md"
  | .docx => "docx"
  | .pdf => "pdf"

structure ExportRecord where
  conversationId : String
  format : Format
  cloudState : CloudState
  webUrl : String
  destination : String
  deriving DecidableEq, Repr

/-- What `account` returns for a slot that has not been removed. -/
structure Account where
  label : String
  username : Option String
  homeId : Option String
  readOnly : Bool
  deriving DecidableEq, Repr

/-- The fields of the request body that the route reads. -/
structure Body where
  slot : Js
  name : Js
  parentId : Js
  connectionId : Js
  folderLabel : Js
  deriving DecidableEq, Repr

/-- What the checks of the route have made of a body. -/
structure Order where
  slot : ℕ
  name : String
  parentId : String
  connectionId : String
  destination : String
  deriving DecidableEq, Repr

structure Receipt where
  webUrl : String
  name : String
  deriving DecidableEq, Repr

/-- The fields of `CloudItem` that an upload looks at. -/
structure CloudItem where
  id : String
  name : String
  webUrl : String
  folder : Bool
  deriving DecidableEq, Repr

/-- An upload that is under way, with `account.homeId` as it was when it began. -/
structure Upload where
  id : String
  conversationId : String
  order : Order
  homeId : String
  deriving DecidableEq, Repr

/-! ### State -/

/-- The rows of the two tables and what the handlers have done: the events that the store was given,
the answers, and the exports `publishNew` was called for, in the order of the calls. -/
structure Shared where
  rows : String → Option ExportRecord
  accounts : ℕ → Option Account
  notices : List (String × String)
  replies : List (String × Except String String)
  calls : List String

inductive Task
  | body (id : String) (row : ExportRecord)
  | parent (upload : Upload)
  | session (upload : Upload)
  | put (upload : Upload)
  | receipt (upload : Upload)
  | settled (id conversationId name : String) (result : Except String Receipt)
  deriving DecidableEq, Repr

/-- What a handler can be given: the body of its request together with the length of the exported
file, where that can be read; the answers of Microsoft; its turn after a promise has been settled. -/
inductive Input
  | body (data : Except String Body) (file : Option ℕ)
  | item (answer : Except String CloudItem)
  | session (answer : Except String Unit)
  | uploaded (status : Except String ℕ)
  | turn
  deriving DecidableEq, Repr

/-- Besides the requests to publish, exports are made and accounts change. -/
inductive Request
  | publish (id : String)
  | makeExport (id conversationId : String) (format : Format)
  | account (slot : ℕ) (account : Option Account)
  deriving DecidableEq, Repr

namespace Shared

def setRow (s : Shared) (id : String) (f : ExportRecord → ExportRecord) : Shared :=
  { s with rows := Function.update s.rows id ((s.rows id).map f) }

def reply (s : Shared) (id : String) (answer : Except String String) : Shared :=
  { s with replies := s.replies ++ [(id, answer)] }

end Shared

/-! ### The route -/

/-- The checks of a body and the text of its destination. -/
def order (accounts : ℕ → Option Account) (row : ExportRecord) (data : Body) :
    Except String Order :=
  match data.slot with
  | .integer n =>
    if n < 1 ∨ 3 < n then .error "Choose an account with upload access."
    else
      let slot := n.toNat
      (string data.name 180).bind fun name =>
        if ("." ++ row.format.name).toList.isSuffixOf (name.toList.map Char.toLower) then
          (string data.parentId 200).bind fun parentId =>
          (string data.connectionId 100).bind fun connectionId =>
          let folder := if data.folderLabel.truthy then string data.folderLabel 2000 else .ok parentId
          folder.bind fun folder =>
            let who := firstText [(accounts slot).bind (·.username), (accounts slot).map (·.label)]
              "Selected account"
            .ok ⟨slot, name, parentId, connectionId, who ++ " / " ++ folder ++ " / " ++ name⟩
        else .error ("Keep the ." ++ row.format.name ++ " filename extension.")
  | _ => .error "Choose an account with upload access."

/-- The characters that `publishNew` refuses in a filename. -/
def forbidden (c : Char) : Bool := c.toNat < 0x20 || "\"*:<>?/\\|".toList.contains c

def validName (name : String) : Bool :=
  let cs := name.toList
  cs ≠ [] && utf16Length name ≤ 180 && !cs.any forbidden &&
    !(cs.head? == some '.' || cs.head? == some '~') &&
    !(cs.getLast? == some ' ' || cs.getLast? == some '.')

variable (digest : String → String)

/-- The checks of `publishNew` before it waits for the first time. -/
def admitted (accounts : ℕ → Option Account) (order : Order) (length : ℕ) :
    Except String String :=
  match accounts order.slot with
  | none => .error "Add this OneDrive connection again before using it."
  | some account =>
    match account.homeId with
    | some homeId =>
      if account.readOnly ∨ homeId = "" ∨ digest homeId ≠ order.connectionId then
        .error "Choose a currently connected account with upload access. The linked host connection is read-only."
      else if order.parentId = "" ∨ 200 < utf16Length order.parentId ∨ !validName order.name then
        .error "Choose a folder and a valid new filename."
      else if length = 0 ∨ 8000000 < length then .error "Export must be under 8 MB."
      else .ok homeId
    | none =>
      .error "Choose a currently connected account with upload access. The linked host connection is read-only."

/-- `publishNew` is called and runs up to its first wait. -/
def publishNew (id : String) (row : ExportRecord) (order : Order) (length : ℕ) (s : Shared) :
    Shared × List Task :=
  let called := { s with calls := s.calls ++ [id] }
  match admitted digest s.accounts order length with
  | .ok homeId => (called, [.parent ⟨id, row.conversationId, order, homeId⟩])
  | .error m => (called, [.settled id row.conversationId order.name (.error m)])

/-- What the route does when the publication has failed. -/
def failed (id message : String) (s : Shared) : Shared :=
  (s.setRow id ({ · with cloudState := .uncertain })).reply id
    (.error (message ++
      " This export was not retried. Check the destination before creating another export."))

/-- The route after its body, with the row that was read before. -/
def received (id : String) (row : ExportRecord) (data : Body) (file : Option ℕ) (s : Shared) :
    Shared × List Task :=
  if row.cloudState = .saved then (s.reply id (.ok row.webUrl), [])
  else if row.cloudState ≠ .unset then
    (s.reply id (.error
      "This export was already submitted. Check the chosen OneDrive folder before creating another export; it will not be retried automatically."), [])
  else
    match order s.accounts row data with
    | .error m => (s.reply id (.error m), [])
    | .ok order =>
      let marked := s.setRow id ({ · with cloudState := .pending, destination := order.destination })
      match file with
      | some length => publishNew digest id row order length marked
      | none => (failed id "The exported file could not be read." marked, [])

/-! ### The upload -/

def Upload.refuse (u : Upload) (message : String) : List Task :=
  [.settled u.id u.conversationId u.order.name (.error message)]

def Upload.folder (u : Upload) (accounts : ℕ → Option Account) : Except String CloudItem → List Task
  | .error m => u.refuse m
  | .ok parent =>
    if !parent.folder || parent.id = "" then u.refuse "Choose a OneDrive folder."
    else
      match accounts u.order.slot with
      | none => u.refuse "Add this OneDrive connection again before using it."
      | some account =>
        if account.homeId ≠ some u.homeId then
          u.refuse "The selected account changed. Choose the destination again."
        else [.session u]

def Upload.uploaded (u : Upload) : Except String ℕ → List Task
  | .error m => u.refuse m
  | .ok status =>
    if status ≠ 201 then
      u.refuse ("OneDrive did not confirm a new file (" ++ toString status ++
        "). Check the destination before exporting again.")
    else [.receipt u]

def Upload.received (u : Upload) : Except String CloudItem → List Task
  | .error m => u.refuse m
  | .ok item =>
    if item.id = "" ∨ !"https://".toList.isPrefixOf item.webUrl.toList then
      u.refuse "OneDrive returned no file receipt. Check the destination before exporting again."
    else [.settled u.id u.conversationId u.order.name (.ok ⟨item.webUrl, item.name⟩)]

/-- The route after `await drive.publishNew`. -/
def concluded (id conversationId name : String) (s : Shared) : Except String Receipt → Shared
  | .ok receipt =>
    let saved := s.setRow id ({ · with cloudState := .saved, webUrl := receipt.webUrl })
    { saved with
      notices := s.notices ++
        [(conversationId, "Exported new OneDrive file: " ++ name ++ "\n" ++ receipt.webUrl)] }.reply
      id (.ok receipt.webUrl)
  | .error m => failed id m s

/-! ### The server -/

def enter : Request → Shared → Shared × List Task
  | .publish id, s =>
    match s.rows id with
    | some row => (s, [.body id row])
    | none =>
      (s.reply id (.error "Export not found. Create a fresh export from the report."), [])
  | .makeExport id conversationId format, s =>
    -- the identifier is the primary key
    if (s.rows id).isSome then (s, [])
    else
      ({ s with rows := Function.update s.rows id (some ⟨conversationId, format, .unset, "", ""⟩) },
        [])
  | .account slot account, s => ({ s with accounts := Function.update s.accounts slot account }, [])

/-- A handler that is given something else than it waits for goes on waiting. -/
def resume : Task → Input → Shared → Shared × List Task
  | .body id row, .body (.ok data) file, s => received digest id row data file s
  | .body id _, .body (.error m) _, s => (s.reply id (.error m), [])
  | .parent u, .item answer, s => (s, u.folder s.accounts answer)
  | .session u, .session (.ok _), s => (s, [.put u])
  | .session u, .session (.error m), s => (s, u.refuse m)
  | .put u, .uploaded status, s => (s, u.uploaded status)
  | .receipt u, .item answer, s => (s, u.received answer)
  | .settled id conversationId name result, .turn, s =>
    (concluded id conversationId name s result, [])
  | task, _, s => (s, [task])

/-- A server that starts again takes unfinished publications for uncertain. -/
def restart (s : Shared) : Shared :=
  { s with
    rows := fun id => (s.rows id).map fun row =>
      if row.cloudState = .pending then { row with cloudState := .uncertain } else row }

def server : Server Shared Task Request Input := ⟨enter, resume digest, restart, fun _ => false⟩

/-- The server before its first request, with the tables as it finds them. -/
def initial (rows : String → Option ExportRecord) (accounts : ℕ → Option Account) :
    State Shared Task := ⟨⟨rows, accounts, [], [], []⟩, []⟩

/-! ### At most one call -/

/-- The stored row says that the export has been submitted. -/
def Shared.Marked (s : Shared) (id : String) : Prop :=
  ∃ row, s.rows id = some row ∧ row.cloudState ≠ .unset

/-- Every export has been published at most once, and one that has been is marked. -/
def Once (s : Shared) : Prop :=
  ∀ id, s.calls.count id ≤ 1 ∧ (0 < s.calls.count id → s.Marked id)

/-- A step that calls nothing and takes no mark away. -/
def Quiet (s s' : Shared) : Prop := s'.calls = s.calls ∧ ∀ id, s.Marked id → s'.Marked id

theorem Quiet.refl (s : Shared) : Quiet s s := ⟨rfl, fun _ h => h⟩

theorem Quiet.trans {s t u : Shared} (h : Quiet s t) (h' : Quiet t u) : Quiet s u :=
  ⟨h'.1.trans h.1, fun id hid => h'.2 id (h.2 id hid)⟩

theorem Once.quiet {s s' : Shared} (h : Once s) (hquiet : Quiet s s') : Once s' := by
  intro id
  rw [hquiet.1]
  exact ⟨(h id).1, fun hpos => hquiet.2 id ((h id).2 hpos)⟩

theorem quiet_reply (s : Shared) (id : String) (answer : Except String String) :
    Quiet s (s.reply id answer) := ⟨rfl, fun _ h => h⟩

/-- Every update of a row that the handlers make leaves it marked. -/
theorem quiet_setRow (s : Shared) (id : String) {f : ExportRecord → ExportRecord}
    (hf : ∀ row, (f row).cloudState ≠ .unset) : Quiet s (s.setRow id f) := by
  refine ⟨rfl, fun other hother => ?_⟩
  obtain ⟨row, hrow, hmark⟩ := hother
  by_cases hid : other = id
  · subst hid
    exact ⟨f row, by simp [Shared.setRow, hrow], hf row⟩
  · exact ⟨row, by simp [Shared.setRow, hid, hrow], hmark⟩

theorem marked_setRow {s : Shared} {id : String} {row : ExportRecord} (hrow : s.rows id = some row)
    {f : ExportRecord → ExportRecord} (hf : ∀ row, (f row).cloudState ≠ .unset) :
    (s.setRow id f).Marked id := ⟨f row, by simp [Shared.setRow, hrow], hf row⟩

theorem quiet_failed (id message : String) (s : Shared) : Quiet s (failed id message s) :=
  (quiet_setRow s id (by intro row; exact CloudState.noConfusion)).trans (quiet_reply _ id _)

theorem quiet_concluded (id conversationId name : String) (s : Shared)
    (result : Except String Receipt) : Quiet s (concluded id conversationId name s result) := by
  cases result with
  | error m => exact quiet_failed id m s
  | ok receipt =>
    have hsaved := quiet_setRow s id
      (f := ({ · with cloudState := .saved, webUrl := receipt.webUrl }))
      (by intro row; exact CloudState.noConfusion)
    exact ⟨hsaved.1, hsaved.2⟩

theorem quiet_enter (r : Request) (s : Shared) : Quiet s (enter r s).1 := by
  cases r with
  | publish id =>
    rw [enter]
    split
    · exact Quiet.refl s
    · exact quiet_reply s id _
  | account slot account => exact ⟨rfl, fun _ h => h⟩
  | makeExport id conversationId format =>
    rw [enter]
    split
    · exact Quiet.refl s
    · next hfree =>
      refine ⟨rfl, fun other hother => ?_⟩
      obtain ⟨row, hrow, hmark⟩ := hother
      have hne : other ≠ id := by
        rintro rfl
        simp [hrow] at hfree
      exact ⟨row, by simp [hne, hrow], hmark⟩

theorem quiet_restart (s : Shared) : Quiet s (restart s) := by
  refine ⟨rfl, fun _ hid => ?_⟩
  obtain ⟨row, hrow, hmark⟩ := hid
  refine ⟨if row.cloudState = .pending then { row with cloudState := .uncertain } else row,
    by simp [restart, hrow], ?_⟩
  split
  · exact CloudState.noConfusion
  · exact hmark

/-- The body of a request arrives that makes the route call `publishNew`. -/
def Publishes (row : ExportRecord) (data : Body) (file : Option ℕ) (s : Shared) : Prop :=
  row.cloudState = .unset ∧ (order s.accounts row data).toBool = true ∧ file.isSome = true

/-- The row as it is stored has not been submitted. -/
def Shared.Unset (s : Shared) (id : String) : Prop :=
  (s.rows id).map (·.cloudState) = some .unset

theorem Shared.Unset.not_marked {s : Shared} {id : String} (h : s.Unset id) : ¬s.Marked id := by
  rintro ⟨row, hrow, hmark⟩
  rw [Shared.Unset, hrow, Option.map_some, Option.some.injEq] at h
  exact hmark h

variable {digest}

/-- Publishing an export that was not marked calls once and marks it. -/
theorem once_publishNew {id : String} {row : ExportRecord} {o : Order} {length : ℕ} {s : Shared}
    {stored : ExportRecord} (hrow : s.rows id = some stored) (h : Once s)
    (hcalls : s.calls.count id = 0) (hmark : stored.cloudState ≠ .unset) :
    Once (publishNew digest id row o length s).1 := by
  have hcalled : (publishNew digest id row o length s).1 = { s with calls := s.calls ++ [id] } := by
    rw [publishNew]
    split <;> rfl
  rw [hcalled]
  intro other
  show (s.calls ++ [id]).count other ≤ 1 ∧ (0 < (s.calls ++ [id]).count other → s.Marked other)
  have hcount : (s.calls ++ [id]).count other = s.calls.count other + if id = other then 1 else 0 := by
    rw [List.count_append, List.count_singleton]
    simp only [beq_iff_eq]
  rw [hcount]
  by_cases hid : id = other
  · subst hid
    rw [if_pos rfl, hcalls]
    exact ⟨Nat.le_refl 1, fun _ => ⟨stored, hrow, hmark⟩⟩
  · rw [if_neg hid]
    exact h other

theorem once_received {id : String} {row : ExportRecord} {data : Body} {file : Option ℕ}
    {s : Shared} (h : Once s) (hunset : Publishes row data file s → s.Unset id) :
    Once (received digest id row data file s).1 := by
  rw [received]
  split_ifs with hsaved hsubmitted
  · exact h.quiet (quiet_reply s id _)
  · exact h.quiet (quiet_reply s id _)
  · cases horder : order s.accounts row data with
    | error m => exact h.quiet (quiet_reply s id _)
    | ok o =>
      have hpending := quiet_setRow s id
        (f := ({ · with cloudState := .pending, destination := o.destination }))
        (by intro row; exact CloudState.noConfusion)
      cases file with
      | none => exact (h.quiet hpending).quiet (quiet_failed id _ _)
      | some length =>
        have hfree := hunset ⟨not_not.mp hsubmitted, by rw [horder]; rfl, rfl⟩
        obtain ⟨stored, hstored, -⟩ := Option.map_eq_some_iff.mp hfree
        obtain ⟨marked, hmarked, hmark⟩ := marked_setRow hstored
          (f := ({ · with cloudState := .pending, destination := o.destination }))
          (by intro row; exact CloudState.noConfusion)
        refine once_publishNew hmarked (h.quiet hpending) ?_ hmark
        by_contra hcalled
        exact hfree.not_marked ((h id).2 (Nat.pos_of_ne_zero hcalled))

/-- Whenever the body of a request arrives that goes on to publish, the stored row is still unset. -/
def StillUnset : Condition Shared Task Request Input where
  enter _ _ _ := True
  resume
    | .body id row, .body (.ok data) file, s, _ => Publishes row data file s → s.Unset id
    | _, _, _, _ => True

theorem once_resume (task : Task) (x : Input) (s : Shared) (others : List Task) (h : Once s)
    (hC : StillUnset.resume task x s others) : Once (resume digest task x s).1 := by
  cases task <;> cases x
  case body.body id row data file =>
    cases data with
    | error m => exact h.quiet (quiet_reply s id _)
    | ok data => exact once_received h hC
  case session.session u answer => cases answer <;> exact h
  case settled.turn => exact h.quiet (quiet_concluded _ _ _ _ _)
  all_goals exact h

theorem once_invariant : Invariant (server digest) StillUnset fun s _ => Once s :=
  Invariant.of_shared (fun r s _ h _ => h.quiet (quiet_enter r s)) once_resume
    fun s h => h.quiet (quiet_restart s)

/-- In a run in which no body arrives that goes on to publish an export submitted since its row was
read, `publishNew` is called at most once for every export. -/
theorem published_at_most_once (rows : String → Option ExportRecord)
    (accounts : ℕ → Option Account) (es : List (Event Request Input))
    (h : Along (server digest).step StillUnset.At (initial rows accounts) es) (id : String) :
    ((server digest).run (initial rows accounts) es).shared.calls.count id ≤ 1 := by
  have hinit : Once (initial rows accounts).shared := fun _ => by simp [initial]
  exact (once_invariant.run hinit h id).1

/-- A report that is made, and the account it goes to. -/
def reportRows : String → Option ExportRecord :=
  Function.update (fun _ => none) "report" (some ⟨"talk", .md, .unset, "", ""⟩)

def oneAccount : ℕ → Option Account :=
  Function.update (fun _ => none) 1 (some ⟨"OneDrive 1", some "reader", some "home", false⟩)

def reportBody : Body :=
  ⟨.integer 1, .string "report.md", .string "root", .string "home", .undefined⟩

/-- The report is published, and the request is sent once more after the answer. -/
def publishedTwice : List (Event Request Input) :=
  [.arrive (.publish "report"), .wake 0 (.body (.ok reportBody) (some 12)),
    .wake 0 (.item (.ok ⟨"root", "root", "", true⟩)), .wake 0 (.session (.ok ())),
    .wake 0 (.uploaded (.ok 201)), .wake 0 (.item (.ok ⟨"item", "report.md", "https://d", false⟩)),
    .wake 0 .turn, .arrive (.publish "report"), .wake 0 (.body (.ok reportBody) (some 12))]

instance (row : ExportRecord) (data : Body) (file : Option ℕ) (s : Shared) :
    Decidable (Publishes row data file s) := inferInstanceAs (Decidable (_ ∧ _ ∧ _))

instance (s : Shared) (id : String) : Decidable (s.Unset id) := inferInstanceAs (Decidable (_ = _))

instance : (t : Task) → (x : Input) → (s : Shared) → (ts : List Task) →
    Decidable (StillUnset.resume t x s ts) := fun t x s ts => by
  unfold StillUnset
  cases t <;> cases x
  case body.body id row data file =>
    cases data with
    | error m => exact .isTrue trivial
    | ok data => exact inferInstanceAs (Decidable (_ → _))
  all_goals exact .isTrue trivial

instance (r : Request) (s : Shared) (ts : List Task) : Decidable (StillUnset.enter r s ts) :=
  .isTrue trivial

theorem published_at_most_once_retried :
    ((server id).run (initial reportRows oneAccount) publishedTwice).shared.calls.count "report" ≤
      1 :=
  published_at_most_once reportRows oneAccount publishedTwice (by decide) "report"

/-- Two requests read the row before the body of either has arrived. -/
theorem published_twice :
    ((server id).run (initial reportRows oneAccount)
      [.arrive (.publish "report"), .arrive (.publish "report"),
        .wake 0 (.body (.ok reportBody) (some 12)),
        .wake 1 (.body (.ok reportBody) (some 12))]).shared.calls.count "report" = 2 := by
  decide

end ForgeOS.Galaxy.Exports
