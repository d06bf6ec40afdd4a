import ForgeOS.Galaxy.GraphRequests
import ForgeOS.Galaxy.Staging

/-! Gathering documents from OneDrive. A selection of files and folders is walked, one request after
another, and the files that are found are fetched. What comes between two requests runs at once; the
service answers what it likes. -/

namespace ForgeOS.Galaxy.Collect

open ForgeOS.Galaxy.Staging
open GraphRequests (graph ofGraph)

/-! ### What comes from outside -/

/-- `account(slot).homeId` for every slot; the slot may be without an account. -/
abbrev Homes := ℕ → Except String (Option String)

/-- Why the slot is without an account, if it is. -/
def missing (homes : Homes) (slot : ℕ) : Option String :=
  match homes slot with
  | .error m => some m
  | .ok _ => none

def home (homes : Homes) (slot : ℕ) : Option String := (homes slot).toOption.join

/-- `size` is a safe number that is not negative, or none. -/
structure CloudItem where
  id : Units
  name : Units
  size : Option ℕ
  eTag : Option String
  webUrl : String
  folder : Bool
  driveId : Option String
  deriving DecidableEq, Repr

/-- A page of a folder, by the identifiers of its items. -/
structure Page where
  items : List Units
  nextLink : Option String
  deriving DecidableEq, Repr

/-- A response by what its readers make of it: whether it sends elsewhere for the content, how long
the content is, and the item or the page that its text is. -/
structure Response where
  redirect : Bool
  length : ℕ
  item : Except String CloudItem
  page : Except String Page

/-- A pager in the map that all requests share: its number, the slot and the link. -/
structure Cursor where
  id : ℕ
  slot : ℕ
  url : String
  deriving DecidableEq, Repr

/-- What a request comes back with: the response or its error, the accounts as they are by then and
what other requests have done to the cursors; and where a file is staged next, the error of that, if
any, and the accounts after it. -/
structure Outcome where
  response : Except String Response
  homes : Homes
  others : List Cursor → List Cursor
  failure : Option String
  later : Homes

structure Selection where
  slot : ℕ
  itemId : Units
  connectionId : Option String
  deriving DecidableEq, Repr

/-! ### State -/

/-- A folder that is walked: what is left of its page, and where the page goes on. -/
structure Frame where
  slot : ℕ
  itemId : Units
  depth : ℕ
  children : List Units
  nextCursor : Option ℕ
  deriving DecidableEq, Repr

/-- The variables of `collect` while it walks, the folders it is in with the innermost first, and
what is left of the selection. -/
structure Walk where
  identities : ℕ → Option String
  visited : List (ℕ × Units)
  pending : List (ℕ × CloudItem)
  cursors : List Cursor
  nextId : ℕ
  frames : List Frame
  rest : List Selection

structure Collected where
  slot : ℕ
  item : CloudItem
  localName : Units
  driveId : String
  homeId : String
  deriving DecidableEq, Repr

/-- The variables of `collect` while it fetches a file. -/
structure Fetch where
  identities : ℕ → Option String
  collected : List Collected
  downloaded : ℕ
  slot : ℕ
  item : CloudItem
  homeId : String
  todo : List (ℕ × CloudItem)

/-- Which request is on its way. -/
inductive Waiting
  | item (slot : ℕ) (itemId : Units) (depth : ℕ) (w : Walk)
  | page (slot : ℕ) (itemId : Units) (depth : ℕ) (w : Walk)
  | content (f : Fetch)
  | transfer (f : Fetch)
  | latest (f : Fetch) (length : ℕ)

inductive Status
  | waiting (r : Waiting)
  | ended (result : Except String (List Collected))

/-! ### Walking -/

def checkIdentity (identities : ℕ → Option String) (homes : Homes) (slot : ℕ) :
    Except String Unit :=
  let changed := "An account changed during import. Browse and select the files again."
  match identities slot with
  | none => .error changed
  | some home =>
    if home = "" then .error changed
    else match homes slot with
    | .error m => .error m
    | .ok now => if now = some home then .ok () else .error changed

/-- `walk` up to its first request; `none` where the item has been visited. -/
def visit (homes : Homes) (slot : ℕ) (itemId : Units) (depth : ℕ) (w : Walk) :
    Except String (Option Waiting) := do
  checkIdentity w.identities homes slot
  if 8 < depth then .error "Choose a folder with fewer nested levels."
  else if (slot, itemId) ∈ w.visited then .ok none
  else if 200 < w.visited.length + 1 then
    .error "This selection has too many nested folders. Choose a smaller folder."
  else .ok (some (.item slot itemId depth { w with visited := (slot, itemId) :: w.visited }))

/-- `content` of a file up to its first request. -/
def fetch (homes : Homes) (identities : ℕ → Option String) (collected : List Collected)
    (downloaded : ℕ) : List (ℕ × CloudItem) → Status
  | [] =>
    match collected.findSome? fun c => missing homes c.slot with
    | some m => .ended (.error m)
    | none =>
      if collected.any fun c => home homes c.slot ≠ some c.homeId then
        .ended (.error "An account changed during import. Select the files again.")
      else .ended (.ok collected)
  | (slot, item) :: todo =>
    match checkIdentity identities homes slot, homes slot with
    | .error m, _ => .ended (.error m)
    | .ok _, .error m => .ended (.error m)
    | .ok _, .ok none => .ended (.error "Reconnect this OneDrive account before importing.")
    | .ok _, .ok (some homeId) =>
      if item.folder || !visible (text item.name) then
        .ended (.error "Choose a visible document to open.")
      else .waiting (.content ⟨identities, collected, downloaded, slot, item, homeId, todo⟩)

/-- What follows when everything has been walked. -/
def gather (homes : Homes) (w : Walk) : Status :=
  if w.pending = [] then .ended (.error "No files were found in this selection.")
  else if MAX_BATCH_BYTES < (w.pending.map fun p => p.2.size.getD 0).sum then
    .ended (.error "Choose documents totaling no more than 25 MB.")
  else fetch homes w.identities [] 0 w.pending

/-- `browse` up to its request, where it goes on with a cursor. -/
def browseNext (f : Frame) (cursor : ℕ) (homes : Homes) (w : Walk) : Status :=
  match homes f.slot, w.cursors.find? (·.id = cursor) with
  | .error m, _ => .ended (.error m)
  | .ok _, some known =>
    if known.slot = f.slot then .waiting (.page f.slot f.itemId f.depth w)
    else .ended (.error "Folder page expired. Open the folder again.")
  | .ok _, none => .ended (.error "Folder page expired. Open the folder again.")

/-- How much is left without a request. -/
def Walk.size (w : Walk) : ℕ := (w.frames.map fun f => f.children.length + 1).sum + w.rest.length

/-- The loops of `walk` and of `collect` up to the next request. -/
def advance (homes : Homes) (w : Walk) : Status :=
  match _ : w.frames with
  | [] =>
    match _ : w.rest with
    | [] => gather homes w
    | s :: rest =>
      match visit homes s.slot s.itemId 0 { w with rest := rest } with
      | .error m => .ended (.error m)
      | .ok (some r) => .waiting r
      | .ok none => advance homes { w with rest := rest }
  | f :: fs =>
    match _ : f.children with
    | child :: children =>
      let inside := { w with frames := { f with children := children } :: fs }
      match visit homes f.slot child (f.depth + 1) inside with
      | .error m => .ended (.error m)
      | .ok (some r) => .waiting r
      | .ok none => advance homes inside
    | [] =>
      match f.nextCursor with
      | some cursor => browseNext f cursor homes { w with frames := fs }
      | none => advance homes { w with frames := fs }
termination_by w.size
decreasing_by all_goals simp [Walk.size, *]

/-! ### Replies -/

/-- `walk` with the item that it has asked for. -/
def itemReply (slot : ℕ) (itemId : Units) (depth : ℕ) (w : Walk) (homes : Homes) (item : CloudItem) :
    Status :=
  match checkIdentity w.identities homes slot with
  | .error m => .ended (.error m)
  | .ok _ =>
    if item.folder then .waiting (.page slot itemId depth w)
    else if !visible (text item.name) then
      .ended (.error "The selection includes a hidden or credential file. Choose only the documents to assess.")
    else match item.size with
    | none => .ended (.error DOCUMENT_LIMIT_MESSAGE)
    | some size =>
      if 50 ≤ w.pending.length || documentByteLimit item.name < size then
        .ended (.error DOCUMENT_LIMIT_MESSAGE)
      else advance homes { w with pending := w.pending ++ [(slot, item)] }

/-- The link of a page that is not empty. -/
def Page.next (p : Page) : Option String := p.nextLink.filter (· ≠ "")

/-- `browse` with its page, and the loop over it up to the next request. -/
def pageReply (slot : ℕ) (itemId : Units) (depth : ℕ) (w : Walk) (homes : Homes) (page : Page) :
    Status :=
  match page.next with
  | none => advance homes { w with frames := ⟨slot, itemId, depth, page.items, none⟩ :: w.frames }
  | some link =>
    if !ofGraph link.toList then .ended (.error "Invalid OneDrive continuation address.")
    else
      let kept := if 1000 < w.cursors.length then [] else w.cursors
      advance homes { w with
        cursors := kept ++ [⟨w.nextId, slot, link⟩]
        nextId := w.nextId + 1
        frames := ⟨slot, itemId, depth, page.items, some w.nextId⟩ :: w.frames }

/-- The name under which a file is staged. -/
def localName (wide : ℕ → Bool) (slot : ℕ) (item : CloudItem) : Units :=
  digits slot ++ units "-" ++ (item.id.filter fun u =>
    (Char.ofNat u).isAlphanum || (units "_-").contains u).rtake 12 ++ units "-" ++
      replaced wide item.name

/-- What follows the last request for a file. -/
def latestReply (wide : ℕ → Bool) (f : Fetch) (length : ℕ) (o : Outcome) (latest : CloudItem) :
    Status :=
  let name := localName wide f.slot f.item
  match o.homes f.slot with
  | .error m => .ended (.error m)
  | .ok now =>
    if now ≠ some f.homeId then
      .ended (.error "The account connection changed while opening this file. Try again.")
    else if f.item.eTag.getD "" = "" || latest.eTag ≠ f.item.eTag then
      .ended (.error (text f.item.name ++ " changed while opening. Open it again."))
    else if MAX_BATCH_BYTES < f.downloaded + length then
      .ended (.error "Choose documents totaling no more than 25 MB.")
    else if f.collected.any (·.localName = name) then
      .ended (.error "These source names collide. Import them separately.")
    else match o.failure, f.item.driveId.filter (· ≠ "") with
    | some m, _ => .ended (.error m)
    | none, none => .ended (.error "OneDrive did not provide source version information.")
    | none, some driveId =>
      fetch o.later f.identities (f.collected ++ [⟨f.slot, f.item, name, driveId, f.homeId⟩])
        (f.downloaded + length) f.todo

/-- The content of a file, from the service or from where it has sent for it. -/
def contentReply (f : Fetch) (length : ℕ) : Status :=
  if documentByteLimit f.item.name < length then
    .ended (.error "File exceeds the pilot import limit.")
  else .waiting (.latest f length)

def reply (wide : ℕ → Bool) (o : Outcome) (response : Response) : Waiting → Status
  | .item slot itemId depth w =>
    match response.item with
    | .error m => .ended (.error m)
    | .ok item => itemReply slot itemId depth { w with cursors := o.others w.cursors } o.homes item
  | .page slot itemId depth w =>
    match response.page with
    | .error m => .ended (.error m)
    | .ok page => pageReply slot itemId depth { w with cursors := o.others w.cursors } o.homes page
  | .content f => if response.redirect then .waiting (.transfer f) else contentReply f response.length
  | .transfer f => contentReply f response.length
  | .latest f length =>
    match response.item with
    | .error m => .ended (.error m)
    | .ok latest => latestReply wide f length o latest

def step (wide : ℕ → Bool) : Status → Outcome → Status
  | .ended result, _ => .ended result
  | .waiting r, o =>
    match o.response with
    | .error m => .ended (.error m)
    | .ok response => reply wide o response r

/-- `collect` up to its first request. -/
def start (digest : String → String) (homes : Homes) (cursors : List Cursor) (nextId : ℕ)
    (selected : List Selection) : Status :=
  if selected = [] || 50 < selected.length then
    .ended (.error "Select between 1 and 50 files or folders.")
  else match selected.findSome? fun s => missing homes s.slot with
  | some m => .ended (.error m)
  | none =>
    let identities := fun slot =>
      if selected.any (·.slot = slot) then home homes slot else none
    if selected.any fun s => s.connectionId.any fun id =>
        id ≠ "" && digest ((identities s.slot).getD "") ≠ id then
      .ended (.error "A selected account changed. Browse and select the files again.")
    else advance homes ⟨identities, [], [], cursors, nextId, [], selected⟩

/-- The state after the replies. -/
def after (wide : ℕ → Bool) (s : Status) (replies : ℕ → Outcome) : ℕ → Status
  | 0 => s
  | n + 1 => step wide (after wide s replies n) (replies n)

/-! ### Requests -/

/-- The folders that go on with another page. -/
def Walk.unspent (w : Walk) : ℕ := w.frames.countP (·.nextCursor.isSome)

/-- After `n` replies with so many links among them: two for each item that was visited and one for
each link, where a link of a folder that goes on has not been used. -/
structure Spent (n links : ℕ) (w : Walk) : Prop where
  replies : n + w.unspent ≤ 2 * w.visited.length + links
  visited : w.visited.length ≤ 200
  pending : w.pending.length ≤ 50

/-- With the replies that are still to come for what has been visited, and three for each file. -/
def Within (n links : ℕ) : Status → Prop
  | .waiting (.item _ _ _ w) => Spent (n + 2) links w
  | .waiting (.page _ _ _ w) => Spent (n + 1) links w
  | .waiting (.content f) => n + 3 + 3 * f.todo.length ≤ 550 + links
  | .waiting (.transfer f) => n + 2 + 3 * f.todo.length ≤ 550 + links
  | .waiting (.latest f _) => n + 1 + 3 * f.todo.length ≤ 550 + links
  | .ended _ => True

theorem Within.lt {n links : ℕ} {r : Waiting} (h : Within n links (.waiting r)) :
    n < 550 + links := by
  cases r with
  | item slot itemId depth w =>
    obtain ⟨hreplies, hvisited, -⟩ := h
    omega
  | page slot itemId depth w =>
    obtain ⟨hreplies, hvisited, -⟩ := h
    omega
  | content f => simp only [Within] at h; omega
  | transfer f => simp only [Within] at h; omega
  | latest f length => simp only [Within] at h; omega

theorem fetch_within {homes : Homes} {identities : ℕ → Option String} {collected : List Collected}
    {downloaded n links : ℕ} {todo : List (ℕ × CloudItem)} (h : n + 3 * todo.length ≤ 550 + links) :
    Within n links (fetch homes identities collected downloaded todo) := by
  unfold fetch
  split
  · split
    · trivial
    · split <;> trivial
  · split
    · trivial
    · trivial
    · trivial
    · split
      · trivial
      · rw [List.length_cons] at h
        simp only [Within]
        omega

theorem visit_ok {homes : Homes} {slot : ℕ} {itemId : Units} {depth : ℕ} {w : Walk} {r : Waiting}
    (h : visit homes slot itemId depth w = .ok (some r)) : w.visited.length < 200 ∧
      r = .item slot itemId depth { w with visited := (slot, itemId) :: w.visited } := by
  unfold visit at h
  simp only [bind, Except.bind] at h
  split at h
  · cases h
  · split at h
    · cases h
    · split at h
      · cases h
      · split at h
        · cases h
        · next hfew =>
          cases h
          exact ⟨by omega, rfl⟩

theorem visit_within {homes : Homes} {slot : ℕ} {itemId : Units} {depth n links : ℕ} {w : Walk}
    {r : Waiting} (h : Spent n links w)
    (hvisit : visit homes slot itemId depth w = .ok (some r)) : Within n links (.waiting r) := by
  obtain ⟨hfew, rfl⟩ := visit_ok hvisit
  obtain ⟨hreplies, -, hpending⟩ := h
  refine ⟨?_, ?_, hpending⟩
  · show n + 2 + w.unspent ≤ 2 * (w.visited.length + 1) + links
    omega
  · show w.visited.length + 1 ≤ 200
    omega

theorem browseNext_within {homes : Homes} {f : Frame} {cursor n links : ℕ} {w : Walk}
    (h : Spent (n + 1) links w) : Within n links (browseNext f cursor homes w) := by
  unfold browseNext
  split
  · trivial
  · split
    · exact h
    · trivial
  · trivial

/-- Each request that the loops come to has been left for it. -/
theorem advance_within {homes : Homes} {w : Walk} {n links : ℕ} (h : Spent n links w) :
    Within n links (advance homes w) := by
  fun_induction advance homes w with
  | case1 w hframes hrest =>
    obtain ⟨hreplies, hvisited, hpending⟩ := h
    unfold gather
    split
    · trivial
    · split
      · trivial
      · exact fetch_within (by omega)
  | case2 => trivial
  | case3 w hframes s rest hrest r hvisit =>
    have hspent : Spent n links { w with rest := rest } := ⟨h.1, h.2, h.3⟩
    exact visit_within hspent hvisit
  | case4 w hframes s rest hrest hvisit ih => exact ih ⟨h.1, h.2, h.3⟩
  | case5 => trivial
  | case6 w f fs hframes child children hchildren inside r hvisit =>
    have hspent : Spent n links inside := by
      refine ⟨?_, h.visited, h.pending⟩
      have hreplies := h.replies
      rw [Walk.unspent, hframes, List.countP_cons] at hreplies
      simpa [Walk.unspent, inside, List.countP_cons] using hreplies
    exact visit_within hspent hvisit
  | case7 w f fs hframes child children hchildren inside hvisit ih =>
    refine ih ⟨?_, h.visited, h.pending⟩
    have hreplies := h.replies
    rw [Walk.unspent, hframes, List.countP_cons] at hreplies
    simpa [Walk.unspent, inside, List.countP_cons] using hreplies
  | case8 w f fs hframes hchildren cursor hnext =>
    -- the link of the page is used
    refine browseNext_within ⟨?_, h.visited, h.pending⟩
    have hreplies := h.replies
    rw [Walk.unspent, hframes, List.countP_cons, hnext] at hreplies
    simp only [Option.isSome_some, if_true] at hreplies
    show n + 1 + fs.countP _ ≤ 2 * w.visited.length + links
    omega
  | case9 w f fs hframes hchildren hnext ih =>
    refine ih ⟨?_, h.visited, h.pending⟩
    have hreplies := h.replies
    rw [Walk.unspent, hframes, List.countP_cons, hnext] at hreplies
    simpa [Walk.unspent] using hreplies

/-! ### Links -/

/-- The reply is a page of a folder that `collect` waits for, with a link that passes the check. -/
def sendsLink : Status → Outcome → Bool
  | .waiting (.page _ _ _ _), o =>
    match o.response with
    | .error _ => false
    | .ok response =>
      match response.page with
      | .error _ => false
      | .ok page => page.next.any (ofGraph ·.toList)
  | _, _ => false

theorem itemReply_within {slot : ℕ} {itemId : Units} {depth n links : ℕ} {w : Walk} {homes : Homes}
    {item : CloudItem} (h : Spent (n + 2) links w) :
    Within (n + 1) links (itemReply slot itemId depth w homes item) := by
  unfold itemReply
  split
  · trivial
  · split
    · exact h
    · split
      · trivial
      · split
        · trivial
        · split
          · trivial
          · next hfits =>
            simp only [Bool.or_eq_true, decide_eq_true_iff, not_or, Nat.not_le] at hfits
            refine advance_within ⟨?_, h.visited, ?_⟩
            · have hreplies := h.replies
              show n + 1 + w.unspent ≤ 2 * w.visited.length + links
              omega
            · simp only [List.length_append, List.length_singleton]
              omega

theorem pageReply_within {slot : ℕ} {itemId : Units} {depth n links : ℕ} {w : Walk} {homes : Homes}
    {page : Page} (h : Spent (n + 1) links w) :
    Within (n + 1) (links + (page.next.any (ofGraph ·.toList)).toNat)
      (pageReply slot itemId depth w homes page) := by
  unfold pageReply
  split
  · next hnext =>
    refine advance_within ⟨?_, h.visited, h.pending⟩
    simpa [Walk.unspent, hnext] using h.replies
  · next link hnext =>
    split
    · trivial
    · next hpasses =>
      refine advance_within ⟨?_, h.visited, h.pending⟩
      have hreplies := h.replies
      have hlink : page.next.any (ofGraph ·.toList) = true := by simpa [hnext] using hpasses
      rw [hlink]
      simp only [Walk.unspent, List.countP_cons, Option.isSome_some, if_true, Bool.toNat_true]
      rw [Walk.unspent] at hreplies
      omega

theorem contentReply_within {f : Fetch} {length n links : ℕ}
    (h : n + 1 + 3 * f.todo.length ≤ 550 + links) : Within n links (contentReply f length) := by
  unfold contentReply
  split
  · trivial
  · exact h

theorem latestReply_within {wide : ℕ → Bool} {f : Fetch} {length n links : ℕ} {o : Outcome}
    {latest : CloudItem} (h : n + 3 * f.todo.length ≤ 550 + links) :
    Within n links (latestReply wide f length o latest) := by
  unfold latestReply
  dsimp only
  split
  · trivial
  · split
    · trivial
    · split
      · trivial
      · split
        · trivial
        · split
          · trivial
          · split
            · trivial
            · trivial
            · exact fetch_within h

theorem step_within (wide : ℕ → Bool) {n links : ℕ} {s : Status} (h : Within n links s)
    (o : Outcome) : Within (n + 1) (links + (sendsLink s o).toNat) (step wide s o) := by
  cases s with
  | ended result => trivial
  | waiting r =>
    rw [step]
    cases hresponse : o.response with
    | error m => trivial
    | ok response =>
      dsimp only
      cases r with
      | item slot itemId depth w =>
        rw [reply]
        cases response.item with
        | error m => trivial
        | ok item => exact itemReply_within ⟨h.1, h.2, h.3⟩
      | page slot itemId depth w =>
        rw [reply]
        cases hpage : response.page with
        | error m => trivial
        | ok page =>
          have hlink : sendsLink (.waiting (.page slot itemId depth w)) o =
              page.next.any (ofGraph ·.toList) := by
            simp [sendsLink, hresponse, hpage]
          rw [hlink]
          exact pageReply_within ⟨h.1, h.2, h.3⟩
      | content f =>
        have hleft : n + 3 + 3 * f.todo.length ≤ 550 + links := h
        show Within (n + 1) links (reply wide o response (.content f))
        rw [reply]
        split
        · show n + 1 + 2 + 3 * f.todo.length ≤ 550 + links
          omega
        · exact contentReply_within (by omega)
      | transfer f =>
        have hleft : n + 2 + 3 * f.todo.length ≤ 550 + links := h
        exact contentReply_within (by omega)
      | latest f length =>
        have hleft : n + 1 + 3 * f.todo.length ≤ 550 + links := h
        show Within (n + 1) links (reply wide o response (.latest f length))
        rw [reply]
        cases response.item with
        | error m => trivial
        | ok latest => exact latestReply_within (by omega)

/-- How many of the first `n` replies send a link. -/
def links (wide : ℕ → Bool) (s : Status) (replies : ℕ → Outcome) : ℕ → ℕ
  | 0 => 0
  | n + 1 => links wide s replies n + (sendsLink (after wide s replies n) (replies n)).toNat

theorem start_within (digest : String → String) (homes : Homes) (cursors : List Cursor)
    (nextId : ℕ) (selected : List Selection) :
    Within 0 0 (start digest homes cursors nextId selected) := by
  unfold start
  split
  · trivial
  · split
    · trivial
    · dsimp only
      split
      · trivial
      · exact advance_within ⟨Nat.le_refl _, Nat.zero_le _, Nat.zero_le _⟩

theorem after_within (wide : ℕ → Bool) {s : Status} (h : Within 0 0 s) (replies : ℕ → Outcome)
    (n : ℕ) : Within n (links wide s replies n) (after wide s replies n) := by
  induction n with
  | zero => exact h
  | succ n ih => exact step_within wide ih (replies n)

def Status.Ended : Status → Prop
  | .ended _ => True
  | .waiting _ => False

theorem ended_step (wide : ℕ → Bool) {s : Status} (h : s.Ended) (o : Outcome) :
    step wide s o = s ∧ sendsLink s o = false := by
  cases s with
  | ended result => exact ⟨rfl, rfl⟩
  | waiting r => cases h

/-- After its end `collect` takes no more replies. -/
theorem after_ended (wide : ℕ → Bool) {s : Status} {replies : ℕ → Outcome} {n : ℕ}
    (h : (after wide s replies n).Ended) (k : ℕ) :
    after wide s replies (n + k) = after wide s replies n ∧
      links wide s replies (n + k) = links wide s replies n := by
  induction k with
  | zero => exact ⟨rfl, rfl⟩
  | succ k ih =>
    obtain ⟨hafter, hlinks⟩ := ih
    rw [← hafter] at h
    obtain ⟨hstep, hnone⟩ := ended_step wide h (replies (n + k))
    constructor
    · rw [← Nat.add_assoc, after, hstep, hafter]
    · rw [← Nat.add_assoc, links, hnone, hlinks]
      rfl

/-- The links before any reply are among those before a later one. -/
theorem links_mono (wide : ℕ → Bool) (s : Status) (replies : ℕ → Outcome) (n k : ℕ) :
    links wide s replies n ≤ links wide s replies (n + k) := by
  induction k with
  | zero => exact Nat.le_refl _
  | succ k ih => exact Nat.le_trans ih (Nat.le_add_right _ _)

/-- For every selection and all replies: where the service sends at most `K` links to further pages,
`collect` has ended after at most `550 + K` requests, whatever else it is sent; and where it ends, the
service has sent only so many. -/
theorem collect_ends_iff (wide : ℕ → Bool) (digest : String → String) (homes : Homes)
    (cursors : List Cursor) (nextId : ℕ) (selected : List Selection) (replies : ℕ → Outcome) :
    let s := start digest homes cursors nextId selected
    (∀ K, (∀ n, links wide s replies n ≤ K) → (after wide s replies (550 + K)).Ended) ∧
      ((∃ n, (after wide s replies n).Ended) ↔ ∃ K, ∀ n, links wide s replies n ≤ K) := by
  intro s
  have hbound : ∀ K, (∀ n, links wide s replies n ≤ K) →
      (after wide s replies (550 + K)).Ended := by
    intro K hK
    have hwithin := after_within wide (start_within digest homes cursors nextId selected) replies
      (550 + K)
    change Within _ (links wide s replies (550 + K)) (after wide s replies (550 + K)) at hwithin
    cases hafter : after wide s replies (550 + K) with
    | ended result => trivial
    | waiting r =>
      rw [hafter] at hwithin
      have hlt := hwithin.lt
      have hle := hK (550 + K)
      omega
  refine ⟨hbound, fun ⟨n, hn⟩ => ⟨links wide s replies n, fun m => ?_⟩, fun ⟨K, hK⟩ =>
    ⟨_, hbound K hK⟩⟩
  have hlater := (after_ended wide hn m).2
  rw [← hlater, Nat.add_comm]
  exact links_mono wide s replies m n

/-- One connected account. -/
def connected : Homes := fun _ => .ok (some "home")

def someFolder : CloudItem := ⟨units "folder", units "Reports", none, none, "", true, none⟩

def nextPage : String :=
  String.ofList (graph ++ "/me/drive/items/folder/children?$skiptoken=1".toList)

/-- The folder, or an empty page of it with a link to the next page. -/
def emptyPage : Outcome :=
  ⟨.ok ⟨false, 0, .ok someFolder, .ok ⟨[], some nextPage⟩⟩, connected, id, none, connected⟩

/-- A folder whose page is done goes on with its cursor. -/
theorem advance_next {homes : Homes} {w : Walk} {f : Frame} {fs : List Frame} {cursor : ℕ}
    (hframes : w.frames = f :: fs) (hchildren : f.children = [])
    (hnext : f.nextCursor = some cursor) :
    advance homes w = browseNext f cursor homes { w with frames := fs } := by
  rw [advance]
  split
  · next hnone =>
    rw [hframes] at hnone
    cases hnone
  · next f' fs' hcons =>
    rw [hframes] at hcons
    obtain ⟨rfl, rfl⟩ := List.cons.inj hcons
    split
    · next child children hsome =>
      rw [hchildren] at hsome
      cases hsome
    · rw [hnext]

theorem browseNext_known {f : Frame} {cursor : ℕ} {homes : Homes} {w : Walk} {now : Option String}
    {known : Cursor} (hhome : homes f.slot = .ok now)
    (hknown : w.cursors.find? (·.id = cursor) = some known) (hslot : known.slot = f.slot) :
    browseNext f cursor homes w = .waiting (.page f.slot f.itemId f.depth w) := by
  rw [browseNext, hhome, hknown]
  exact if_pos hslot

/-- `collect` waits for the folder or for a page of it, in no other folder. -/
def InFolder : Status → Prop
  | .waiting (.item slot itemId depth w) | .waiting (.page slot itemId depth w) =>
    slot = 1 ∧ itemId = units "folder" ∧ depth = 0 ∧ w.frames = [] ∧ w.identities 1 = some "home" ∧
      ∀ c ∈ w.cursors, c.id < w.nextId
  | _ => False

theorem inFolder_step {s : Status} (h : InFolder s) : InFolder (step (fun _ => false) s emptyPage) := by
  cases s with
  | ended result => cases h
  | waiting r =>
    cases r with
    | content f => cases h
    | transfer f => cases h
    | latest f length => cases h
    | item slot itemId depth w =>
      obtain ⟨rfl, rfl, rfl, hframes, hidentity, hcursors⟩ := h
      have hcheck : checkIdentity w.identities connected 1 = .ok () := by
        simp [checkIdentity, hidentity, connected]
      simp only [step, emptyPage, reply, itemReply, hcheck]
      exact ⟨rfl, rfl, rfl, hframes, hidentity, hcursors⟩
    | page slot itemId depth w =>
      obtain ⟨rfl, rfl, rfl, hframes, hidentity, hcursors⟩ := h
      have hnext : Page.next ⟨[], some nextPage⟩ = some nextPage := by
        simp [Page.next, nextPage, Option.filter_some]
      have hpasses : ofGraph nextPage.toList = true := by decide
      simp only [step, emptyPage, reply, pageReply, hnext, hpasses, Bool.not_true, Bool.false_eq_true,
        if_false, id_eq]
      have hkept : ∀ c ∈ (if 1000 < w.cursors.length then [] else w.cursors), c.id < w.nextId := by
        split
        · simp
        · exact hcursors
      have hnew : ((if 1000 < w.cursors.length then [] else w.cursors) ++
          [(⟨w.nextId, 1, nextPage⟩ : Cursor)]).find? (·.id = w.nextId) =
            some ⟨w.nextId, 1, nextPage⟩ := by
        rw [List.find?_append, List.find?_eq_none.mpr fun c hc => ?_]
        · simp
        · have := hkept c hc
          simp only [decide_eq_true_iff]
          omega
      rw [advance_next rfl rfl rfl, browseNext_known rfl hnew rfl]
      refine ⟨rfl, rfl, rfl, hframes, hidentity, fun c hc => ?_⟩
      rcases List.mem_append.mp hc with hc | hc
      · exact Nat.lt_succ_of_lt (hkept c hc)
      · rw [List.mem_singleton.mp hc]
        exact Nat.lt_succ_self _

theorem inFolder_start : InFolder (start id connected [] 0 [⟨1, units "folder", none⟩]) := by
  rw [start, if_neg (by decide)]
  dsimp only [List.findSome?, missing, connected]
  rw [if_neg (by simp), advance]
  simp [visit, checkIdentity, home, Except.toOption, connected, InFolder, bind, Except.bind]

/-- The service always sends an empty page of the folder with a link to the next: no end. -/
theorem empty_pages_endless :
    ¬∃ n, (after (fun _ => false) (start id connected [] 0 [⟨1, units "folder", none⟩])
      (fun _ => emptyPage) n).Ended := by
  rintro ⟨n, hended⟩
  have hall : InFolder (after (fun _ => false)
      (start id connected [] 0 [⟨1, units "folder", none⟩]) (fun _ => emptyPage) n) := by
    clear hended
    induction n with
    | zero => exact inFolder_start
    | succ n ih => exact inFolder_step ih
  cases hafter : after (fun _ => false) (start id connected [] 0 [⟨1, units "folder", none⟩])
      (fun _ => emptyPage) n with
  | ended result =>
    rw [hafter] at hall
    cases hall
  | waiting r =>
    rw [hafter] at hended
    cases hended

end ForgeOS.Galaxy.Collect
