import ForgeOS.Galaxy.Logins
import ForgeOS.Library.Addresses
import ForgeOS.Library.PercentCoding

/-! Requests to Microsoft Graph. The token of a request is obtained over several waits, in which the
account of its slot may be disconnected, removed or connected to somebody else, and the connection
of the host unlinked or linked again. Every request that is sent has a token of the account that the
slot had when it was made; the fourth slot only reads, and only from the drive that is linked. -/

namespace ForgeOS.Galaxy.GraphRequests

open ForgeOS.Library.Interleaving ForgeOS.Library.Conditions
open Library.UrlPaths Library.UrlResolution Library.PercentCoding Library.Addresses
open Logins (Slot Account)

/-! ### State -/

/-- `existingMicrosoft` of the settings. -/
structure Connection where
  cliPath : String
  connectionName : String
  username : String
  userId : String
  driveId : String
  label : String
  deriving DecidableEq, Repr

def Connection.homeId (c : Connection) : String := "m365:" ++ c.driveId ++ ":" ++ c.userId

/-- A connection as the Microsoft CLI lists it. -/
structure CliConnection where
  name : String
  connectedAs : String
  active : Bool
  deriving DecidableEq, Repr

/-- A call of `request`, with the account that its slot has then and the connection that is linked
then; no slot is the fourth one. -/
structure Call where
  slot : Option Slot
  path : List Char
  method : Option String
  homeId : Option String
  linked : Option Connection
  deriving DecidableEq, Repr

/-- What is sent with a bearer: the request itself, or the check of a token by
`ExistingMicrosoftClient`. -/
inductive Purpose
  | request
  | validation
  deriving DecidableEq, Repr

structure Fetch where
  call : Call
  purpose : Purpose
  method : String
  url : List Char
  token : String
  deriving DecidableEq, Repr

/-- The accounts, the linked connection, the client of the library that a slot has, whether the
settings have an id for one, how many clients there were, what has been refused and sent, and the
calls so far. -/
structure Shared where
  accounts : Slot → Account
  linked : Option Connection
  clients : Slot → Option ℕ
  clientId : Bool
  nextClient : ℕ
  refused : List String
  fetches : List Fetch
  calls : List Call

/-- Where a call waits: for the library to find its account, for a token of the account; for the
list of the CLI's connections, for a token of the CLI, for the profile that Graph has for that
token, for its turn after it; and, with its token, for its turn to send. -/
inductive Task
  | account (call : Call) (url : List Char) (client : ℕ) (homeId : String)
  | silent (call : Call) (url : List Char) (slot : Slot) (client : ℕ) (homeId : String)
  | listing (call : Call) (url : List Char) (binding : Connection)
  | cliToken (call : Call) (url : List Char) (binding : Connection)
  | profile (call : Call) (url : List Char) (binding : Connection) (token : String)
  | credentials (call : Call) (url : List Char) (binding : Connection) (token : String)
  | sending (call : Call) (url : List Char) (token : String)
  deriving DecidableEq, Repr

/-- Nothing where the library, the CLI or Graph fails or has nothing. -/
inductive Input
  | account (found : Bool)
  | token (token : Option String)
  | connections (list : Option (List CliConnection))
  | profile (id : Option String)
  | turn
  deriving DecidableEq, Repr

/-- A call; anything that logins, disconnections, removals and links do meanwhile. -/
inductive Request
  | request (slot : Option Slot) (path : List Char) (method : Option String)
  | elsewhere (accounts : Slot → Account) (linked : Option Connection) (clients : Slot → Option ℕ)
      (clientId : Bool)

def Shared.refuse (s : Shared) (message : String) : Shared × List Task :=
  ({ s with refused := s.refused ++ [message] }, [])

def Shared.send (s : Shared) (fetch : Fetch) : Shared := { s with fetches := s.fetches ++ [fetch] }

/-! ### Addresses -/

def host : List Char := "https://graph.microsoft.com".toList

def graph : List Char := "https://graph.microsoft.com/v1.0".toList

/-- `url.startsWith(graph + "/")` -/
def ofGraph (url : List Char) : Bool := (graph ++ ['/']).isPrefixOf url

/-- `path.startsWith(graph + "/") ? path : graph + path`, if it is an address of Graph. -/
def graphUrl (path : List Char) : Option (List Char) :=
  let url := if ofGraph path then path else graph ++ path
  if ofGraph url then some url else none

/-- `(init.method || "GET").toUpperCase()`; no other letters than ASCII ones become those of GET. -/
def methodOf (method : Option String) : String :=
  String.ofList ((match method with
    | some m => if m = "" then "GET" else m
    | none => "GET").toList.map Char.toUpper)

def ownDrive : List Char := "/v1.0/me/drive/".toList

def drivePath (driveId : String) : List Char :=
  "/v1.0/drives/".toList ++ encodeComponent driveId.toList ++ ['/']

/-- The address of the fourth slot, within the drive that is linked. -/
def linkedUrl (driveId : String) (url : List Char) : Except String (List Char) :=
  match readAddress host url with
  | none => .error "Invalid URL"
  | some parsed =>
    let parsed :=
      if ownDrive.isPrefixOf parsed.pathname then
        parsed.withPath (drivePath driveId ++ parsed.pathname.drop ownDrive.length)
      else parsed
    if (drivePath driveId).isPrefixOf parsed.pathname then .ok (host ++ parsed.render)
    else .error "This request does not belong to the linked OneDrive."

/-! ### Calls -/

/-- `account(slot).homeId` -/
def homeIdOf (s : Shared) : Option Slot → Except String (Option String)
  | none =>
    match s.linked with
    | none => .error "This host Microsoft connection has been disconnected."
    | some c => .ok (some c.homeId)
  | some k =>
    if (s.accounts k).status = .removed then .error Logins.missingMessage
    else .ok (s.accounts k).homeId

/-- `token` of one of the three slots up to its first wait. -/
def libraryToken (call : Call) (url : List Char) (k : Slot) (s : Shared) : Shared × List Task :=
  match call.homeId with
  | none => s.refuse "Connect this OneDrive account first."
  | some homeId =>
    if homeId = "" then s.refuse "Connect this OneDrive account first."
    else
      match s.clients k with
      | some client => (s, [.account call url client homeId])
      | none =>
        if !s.clientId then
          s.refuse ("Microsoft sign-in is not ready yet. The person setting up Galaxy Workspace " ++
            "needs to enable it on the host computer.")
        else
          ({ s with
              clients := Function.update s.clients k (some s.nextClient)
              nextClient := s.nextClient + 1 },
            [.account call url s.nextClient homeId])

/-- `request` from its address on, up to its first wait. -/
def begin (call : Call) (url : List Char) (s : Shared) : Shared × List Task :=
  match call.slot with
  | some k => libraryToken call url k s
  | none =>
    if methodOf call.method ≠ "GET" then
      s.refuse
        "This host connection supports browsing and importing only. Keep edits in the local draft."
    else
      match s.linked with
      | none => s.refuse "Reconnect the existing Microsoft account from this host."
      | some connection =>
        match linkedUrl connection.driveId url with
        | .error m => s.refuse m
        | .ok url => (s, [.listing call url connection])

def enter : Request → Shared → Shared × List Task
  | .request slot path method, s =>
    match homeIdOf s slot with
    | .error m => s.refuse m
    | .ok homeId =>
      let call : Call := ⟨slot, path, method, homeId, s.linked⟩
      match graphUrl path with
      | none => { s with calls := s.calls ++ [call] }.refuse "Invalid Microsoft Graph address."
      | some url => begin call url { s with calls := s.calls ++ [call] }
  | .elsewhere accounts linked clients clientId, s =>
    ({ s with accounts, linked, clients, clientId }, [])

/-- The one active connection of the CLI is the one that has been linked. `lower` is
`toLowerCase`. -/
def bound (lower : String → String) (binding : Connection) (list : List CliConnection) :
    Except String Unit :=
  match list.filter (·.active) with
  | [connection] =>
    if connection.name = "" ∨ connection.connectedAs = "" then
      .error "Sign in to Microsoft CLI on this device first."
    else if connection.name ≠ binding.connectionName ∨
        lower connection.connectedAs ≠ lower binding.username then
      .error ("The active Microsoft account changed. Restore the linked account or reconnect it " ++
        "from this device.")
    else .ok ()
  | _ => .error "Sign in to Microsoft CLI on this device first."

def usable (token : String) : Bool := token != "" && !token.toList.any isWhiteSpace

def validationUrl : List Char := graph ++ "/me?$select=id,userPrincipalName,mail".toList

/-- The request is sent if the slot still has the account that it was made for. -/
def send (call : Call) (url : List Char) (token : String) (s : Shared) : Shared × List Task :=
  match homeIdOf s call.slot with
  | .error m => s.refuse m
  | .ok homeId =>
    if homeId ≠ call.homeId then
      s.refuse "The host connection changed during this request. Try again."
    else (s.send ⟨call, .request, methodOf call.method, url, token⟩, [])

/-- A handler that is given something else than it waits for goes on waiting. -/
def resume (lower : String → String) : Task → Input → Shared → Shared × List Task
  | .account call url client homeId, .account found, s =>
    match call.slot, found with
    | some k, true => (s, [.silent call url k client homeId])
    | _, _ => s.refuse "This OneDrive connection needs a new sign-in."
  | .silent call url k client _, .token token, s =>
    match token with
    | some token =>
      if s.clients k = some client ∧ token ≠ "" then (s, [.sending call url token])
      else s.refuse "This OneDrive connection needs a new sign-in."
    | none => s.refuse "This OneDrive connection needs a new sign-in."
  | .listing call url binding, .connections list, s =>
    match list with
    | none => s.refuse "Microsoft CLI returned no account list."
    | some list =>
      match bound lower binding list with
      | .error m => s.refuse m
      | .ok () => (s, [.cliToken call url binding])
  | .cliToken call url binding, .token token, s =>
    match token with
    | some token =>
      if usable token then
        (s.send ⟨call, .validation, "GET", validationUrl, token⟩,
          [.profile call url binding token])
      else s.refuse "Microsoft CLI did not return a usable access token."
    | none => s.refuse "Microsoft CLI did not return a usable access token."
  | .profile call url binding token, .profile id, s =>
    match id with
    | none =>
      s.refuse "Microsoft could not verify this linked connection. Try again shortly."
    | some id =>
      if id = "" ∨ id ≠ binding.userId then
        s.refuse
          "Microsoft returned a different identity. Reconnect the intended account from this host."
      else (s, [.credentials call url binding token])
  | .credentials call url binding token, .turn, s =>
    if s.linked = some binding then (s, [.sending call url token])
    else s.refuse "The host connection changed during this request. Try again."
  | .sending call url token, .turn, s => send call url token s
  | task, _, s => (s, [task])

def restart (s : Shared) : Shared := { s with clients := fun _ => none }

def server (lower : String → String) : Server Shared Task Request Input :=
  ⟨enter, resume lower, restart, fun _ => false⟩

/-- Before the first call. -/
def initial (accounts : Slot → Account) (linked : Option Connection) (clientId : Bool) :
    State Shared Task :=
  ⟨⟨accounts, linked, fun _ => none, clientId, 0, [], [], []⟩, []⟩

/-! ### What is sent -/

/-- The library answers with a token of the account that it is asked for, and Graph with the profile
of the account that the token is of. -/
def Honest (issued : String → String → Prop) : Condition Shared Task Request Input where
  enter _ _ _ := True
  resume
    | .silent _ _ _ _ homeId, .token (some token), _, _ => issued token homeId
    | .profile _ _ _ token, .profile (some id), _, _ => issued token id
    | _, _, _, _ => True

/-- The address is one of Graph in the drive of the connection. -/
structure Within (c : Connection) (url : List Char) : Prop where
  graph : graph ++ ['/'] <+: url
  drive : ∃ a, readAddress host url = some a ∧ drivePath c.driveId <+: a.pathname

/-- A request goes to Graph with a token of the account that its slot had when it was made; one of
the fourth slot reads from the drive that was linked then. -/
def Proper (issued : String → String → Prop) (f : Fetch) : Prop :=
  match f.purpose, f.call.slot with
  | .validation, _ => f.call.slot = none ∧ f.method = "GET" ∧ f.url = validationUrl
  | .request, some _ =>
    graph ++ ['/'] <+: f.url ∧ ∃ homeId, f.call.homeId = some homeId ∧ issued f.token homeId
  | .request, none =>
    ∃ c, f.call.linked = some c ∧ f.call.homeId = some c.homeId ∧ issued f.token c.userId ∧
      f.method = "GET" ∧ Within c f.url

theorem prefix_of_graphUrl {path url : List Char} (h : graphUrl path = some url) :
    graph ++ ['/'] <+: url := by
  simp only [graphUrl] at h
  generalize (if ofGraph path then path else graph ++ path) = out at h
  split at h
  · next hprefix =>
    obtain rfl := Option.some.inj h
    exact List.isPrefixOf_iff_prefix.mp hprefix
  · cases h

/-- What the paths of Graph begin with. -/
def version : List Char := "/v1.0/".toList

theorem graph_eq : graph ++ ['/'] = host ++ version := by
  show "https://graph.microsoft.com/v1.0".toList ++ ['/'] =
    "https://graph.microsoft.com".toList ++ "/v1.0/".toList
  simp

theorem version_drivePath (driveId : String) : version <+: drivePath driveId := by
  show "/v1.0/".toList <+: "/v1.0/drives/".toList ++ encodeComponent driveId.toList ++ ['/']
  simp

theorem host_printable : ∀ c ∈ host, controlOrBlank c = false := by
  show ∀ c ∈ "https://graph.microsoft.com".toList, controlOrBlank c = false
  simp [controlOrBlank]

/-- What the fourth slot asks for is within the drive also after it has been parsed again. -/
theorem within_linkedUrl {c : Connection} {url out : List Char}
    (h : linkedUrl c.driveId url = .ok out) : Within c out := by
  rw [linkedUrl] at h
  split at h
  · cases h
  · next parsed hparsed =>
    simp only at h
    generalize (if ownDrive.isPrefixOf parsed.pathname then
      parsed.withPath (drivePath c.driveId ++ parsed.pathname.drop ownDrive.length)
      else parsed) = a at h
    split at h
    · next hdrive =>
      cases h
      have hpath : drivePath c.driveId <+: a.pathname := List.isPrefixOf_iff_prefix.mp hdrive
      obtain ⟨b, hb, hsame⟩ := readAddress_render a host_printable
      have hversion := version_drivePath c.driveId
      constructor
      · rw [graph_eq, List.prefix_append_right_inj, Address.render]
        exact (hversion.trans hpath).trans (List.prefix_append _ _)
      · exact ⟨b, hb, hsame ▸ hpath⟩
    · cases h

/-- Where a call of the fourth slot waits for its token. -/
structure Linked (call : Call) (url : List Char) (c : Connection) : Prop where
  slot : call.slot = none
  linked : call.linked = some c
  homeId : call.homeId = some c.homeId
  reads : methodOf call.method = "GET"
  within : Within c url

/-- Where a call of another slot does. -/
structure Asked (call : Call) (url : List Char) (homeId : String) : Prop where
  slot : call.slot.isSome
  homeId : call.homeId = some homeId
  graph : graph ++ ['/'] <+: url

def Task.call : Task → Call
  | .account call _ _ _ | .silent call _ _ _ _ | .listing call _ _ | .cliToken call _ _
  | .profile call _ _ _ | .credentials call _ _ _ | .sending call _ _ => call

/-- What a call has found out where it waits. -/
def Task.Right (issued : String → String → Prop) : Task → Prop
  | .account call url _ homeId | .silent call url _ _ homeId => Asked call url homeId
  | .listing call url c | .cliToken call url c | .profile call url c _ => Linked call url c
  | .credentials call url c token => Linked call url c ∧ issued token c.userId
  | .sending call url token =>
    Proper issued ⟨call, .request, methodOf call.method, url, token⟩

structure Sound (issued : String → String → Prop) (s : Shared) (ts : List Task) : Prop where
  tasks : ∀ t ∈ ts, t.Right issued ∧ t.call ∈ s.calls
  fetches : ∀ f ∈ s.fetches, Proper issued f ∧ f.call ∈ s.calls

variable {issued : String → String → Prop} {s s' : Shared} {t : Task} {ts : List Task}

theorem Linked.proper {call : Call} {url : List Char} {c : Connection} {token : String}
    (h : Linked call url c) (htoken : issued token c.userId) :
    Proper issued ⟨call, .request, methodOf call.method, url, token⟩ := by
  obtain ⟨hslot, hlinked, hhomeId, hreads, hwithin⟩ := h
  simp only [Proper, hslot]
  exact ⟨c, hlinked, hhomeId, htoken, hreads, hwithin⟩

theorem Asked.proper {call : Call} {url : List Char} {homeId token : String}
    (h : Asked call url homeId) (htoken : issued token homeId) :
    Proper issued ⟨call, .request, methodOf call.method, url, token⟩ := by
  obtain ⟨k, hk⟩ := Option.isSome_iff_exists.mp h.slot
  simp only [Proper, hk]
  exact ⟨h.graph, homeId, h.homeId, htoken⟩

/-- A stretch sends what is proper and goes on with what is right. -/
theorem Sound.goes {w : List Task} (h : Sound issued s ts) (hcalls : s.calls ⊆ s'.calls)
    (hfetches : ∀ f ∈ s'.fetches, f ∈ s.fetches ∨ Proper issued f ∧ f.call ∈ s'.calls)
    (hw : ∀ t ∈ w, t.Right issued ∧ t.call ∈ s'.calls) : Sound issued s' (w ++ ts) where
  tasks t ht := by
    rcases List.mem_append.mp ht with ht | ht
    · exact hw t ht
    · exact ⟨(h.tasks t ht).1, hcalls (h.tasks t ht).2⟩
  fetches f hf := by
    rcases hfetches f hf with hf | hf
    · exact ⟨(h.fetches f hf).1, hcalls (h.fetches f hf).2⟩
    · exact hf

theorem Sound.refuse (h : Sound issued s ts) (message : String) :
    Sound issued (s.refuse message).1 ((s.refuse message).2 ++ ts) :=
  h.goes (List.Subset.refl _) (fun _ hf => .inl hf) (by simp [Shared.refuse])

theorem Sound.goes_on {u : Task} (h : Sound issued s ts) (hu : u.Right issued)
    (hcall : u.call ∈ s.calls) : Sound issued s ([u] ++ ts) :=
  h.goes (List.Subset.refl _) (fun _ hf => .inl hf) (by simpa using ⟨hu, hcall⟩)

/-! ### A stretch -/

variable {call : Call} {url : List Char}

theorem Sound.libraryToken {k : Slot} (h : Sound issued s ts) (hslot : call.slot = some k)
    (hcall : call ∈ s.calls) (hurl : graph ++ ['/'] <+: url) :
    Sound issued (libraryToken call url k s).1 ((libraryToken call url k s).2 ++ ts) := by
  unfold GraphRequests.libraryToken
  split
  · exact h.refuse _
  · next homeId hhomeId =>
    have hasked : Asked call url homeId := ⟨by simp [hslot], hhomeId, hurl⟩
    split
    · exact h.refuse _
    · split
      · exact h.goes_on hasked hcall
      · split
        · exact h.refuse _
        · refine h.goes (List.Subset.refl _) (fun _ hf => .inl hf) ?_
          simpa using ⟨hasked, hcall⟩

/-- The account that the slot has now is the one that the call was made with, and so is the
connection that is linked. -/
structure Fresh (call : Call) (s : Shared) : Prop where
  mem : call ∈ s.calls
  homeId : homeIdOf s call.slot = .ok call.homeId
  linked : s.linked = call.linked

theorem Sound.begin (h : Sound issued s ts) (hcall : Fresh call s)
    (hurl : graph ++ ['/'] <+: url) :
    Sound issued (begin call url s).1 ((begin call url s).2 ++ ts) := by
  unfold GraphRequests.begin
  split
  · next k hk => exact h.libraryToken hk hcall.mem hurl
  · next hslot =>
    split
    · exact h.refuse _
    · next hget =>
      split
      · exact h.refuse _
      · next c hc =>
        split
        · exact h.refuse _
        · next url' hwithin =>
          have hhomeId : call.homeId = some c.homeId := by
            have hhome := hcall.homeId
            rw [hslot] at hhome
            simpa [homeIdOf, hc] using hhome.symm
          have hright : Linked call url' c :=
            { slot := hslot
              linked := hcall.linked ▸ hc
              homeId := hhomeId
              reads := not_not.mp hget
              within := within_linkedUrl hwithin }
          exact h.goes_on hright hcall.mem

theorem Sound.enter (r : Request) (h : Sound issued s ts) :
    Sound issued (enter r s).1 ((enter r s).2 ++ ts) := by
  cases r with
  | elsewhere accounts linked clients clientId =>
    exact ⟨h.tasks, h.fetches⟩
  | request slot path method =>
    simp only [GraphRequests.enter]
    split
    · exact h.refuse _
    · next homeId hhomeId =>
      have hmade : Sound issued
          { s with calls := s.calls ++ [⟨slot, path, method, homeId, s.linked⟩] } ts :=
        h.goes (w := []) (List.subset_append_left _ _) (fun _ hf => .inl hf) (by simp)
      split
      · exact hmade.refuse _
      · next url hurl =>
        exact hmade.begin ⟨by simp, hhomeId, rfl⟩ (prefix_of_graphUrl hurl)

/-- One more fetch that is proper, and one more wait that is right. -/
theorem Sound.sends {f : Fetch} {w : List Task} (h : Sound issued s ts) (hf : Proper issued f)
    (hcall : f.call ∈ s.calls) (hw : ∀ t ∈ w, t.Right issued ∧ t.call ∈ s.calls) :
    Sound issued (s.send f) (w ++ ts) := by
  refine h.goes (List.Subset.refl _) (fun g hg => ?_) hw
  rcases List.mem_append.mp hg with hg | hg
  · exact .inl hg
  · obtain rfl := List.mem_singleton.mp hg
    exact .inr ⟨hf, hcall⟩

theorem Sound.send {token : String} (h : Sound issued s ts)
    (hproper : Proper issued ⟨call, .request, methodOf call.method, url, token⟩)
    (hcall : call ∈ s.calls) :
    Sound issued (send call url token s).1 ((send call url token s).2 ++ ts) := by
  unfold GraphRequests.send
  split
  · exact h.refuse _
  · split
    · exact h.refuse _
    · exact h.sends hproper hcall (w := []) (by simp)

theorem Sound.resume {lower : String → String} {x : Input} (h : Sound issued s (t :: ts))
    (hC : (Honest issued).resume t x s ts) :
    Sound issued (resume lower t x s).1 ((resume lower t x s).2 ++ ts) := by
  obtain ⟨⟨hright, hcall⟩, htail⟩ := List.forall_mem_cons.mp h.tasks
  have hrest : Sound issued s ts := ⟨htail, h.fetches⟩
  unfold GraphRequests.resume
  split
  · -- the library looks for the account
    split
    · next k hslot => exact hrest.goes_on hright hcall
    · exact hrest.refuse _
  · -- the library has a token of it
    split
    · next token =>
      split
      · exact hrest.goes_on (Asked.proper hright hC) hcall
      · exact hrest.refuse _
    · exact hrest.refuse _
  · -- the CLI lists its connections
    split
    · exact hrest.refuse _
    · split
      · exact hrest.refuse _
      · exact hrest.goes_on hright hcall
  · -- the CLI has a token, which is checked
    split
    · next token =>
      split
      · apply hrest.sends (w := [_])
        · exact ⟨Linked.slot hright, rfl, rfl⟩
        · exact hcall
        · simpa using ⟨hright, hcall⟩
      · exact hrest.refuse _
    · exact hrest.refuse _
  · -- Graph says whose token it is
    split
    · exact hrest.refuse _
    · next id =>
      split
      · exact hrest.refuse _
      · next hid =>
        obtain rfl := not_not.mp (not_or.mp hid).2
        exact hrest.goes_on ⟨hright, hC⟩ hcall
  · split
    · exact hrest.goes_on (Linked.proper hright.1 hright.2) hcall
    · exact hrest.refuse _
  · exact hrest.send hright hcall
  · exact h

theorem sound {issued : String → String → Prop} (lower : String → String) :
    Invariant (server lower) (Honest issued) (Sound issued) where
  perm _ _ _ hperm h := ⟨fun t ht => h.tasks t (hperm.mem_iff.mpr ht), h.fetches⟩
  enter r _ _ h _ := h.enter r
  resume _ _ _ _ h hC := h.resume hC
  restart _ _ h := ⟨fun t ht => h.tasks t (List.mem_of_mem_filter ht), h.fetches⟩

/-! ### The calls of a run -/

variable {lower : String → String}

theorem calls_begin (call : Call) (url : List Char) (s : Shared) :
    (begin call url s).1.calls = s.calls := by
  unfold GraphRequests.begin GraphRequests.libraryToken
  repeat' split
  all_goals rfl

theorem calls_enter {r : Request} (h : call ∈ (enter r s).1.calls) :
    call ∈ s.calls ∨ r = .request call.slot call.path call.method ∧
      homeIdOf s call.slot = .ok call.homeId ∧ s.linked = call.linked := by
  cases r with
  | elsewhere accounts linked clients clientId => exact .inl h
  | request slot path method =>
    simp only [GraphRequests.enter] at h
    split at h
    · exact .inl h
    · next homeId hhomeId =>
      have hmem : call ∈ s.calls ++ [⟨slot, path, method, homeId, s.linked⟩] := by
        split at h
        · exact h
        · rwa [calls_begin] at h
      rcases List.mem_append.mp hmem with hold | hnew
      · exact .inl hold
      · obtain rfl := List.mem_singleton.mp hnew
        exact .inr ⟨rfl, hhomeId, rfl⟩

theorem calls_send (token : String) (s : Shared) :
    (GraphRequests.send call url token s).1.calls = s.calls := by
  unfold GraphRequests.send
  repeat' split
  all_goals rfl

theorem calls_resume (t : Task) (x : Input) (s : Shared) :
    (resume lower t x s).1.calls = s.calls := by
  unfold GraphRequests.resume
  split
  case h_7 => exact calls_send _ _
  all_goals
    repeat' split
    all_goals rfl

/-- A call was made at some point of the run, when its slot had its account and its connection was
linked. -/
def MadeIn (lower : String → String) (s : State Shared Task)
    (es : List (Event Request Input)) (call : Call) : Prop :=
  ∃ before after, es = before ++ .arrive (.request call.slot call.path call.method) :: after ∧
    homeIdOf ((server lower).run s before).shared call.slot = .ok call.homeId ∧
    ((server lower).run s before).shared.linked = call.linked

theorem MadeIn.longer {s : State Shared Task} {es : List (Event Request Input)}
    (h : MadeIn lower s es call) (e : Event Request Input) : MadeIn lower s (es ++ [e]) call := by
  obtain ⟨before, after, rfl, hhomeId, hlinked⟩ := h
  exact ⟨before, after ++ [e], by simp, hhomeId, hlinked⟩

/-- Every call that is known was made in the run. -/
theorem madeIn_of_mem {s : State Shared Task} (hs : s.shared.calls = [])
    {es : List (Event Request Input)} (h : call ∈ ((server lower).run s es).shared.calls) :
    MadeIn lower s es call := by
  induction es using List.reverseRecOn with
  | nil =>
    rw [Server.run, List.foldl_nil, hs] at h
    cases h
  | append_singleton es e ih =>
    rw [Server.run_append] at h
    cases e with
    | restart => exact (ih h).longer _
    | wake k x =>
      simp only [Server.run, List.foldl_cons, List.foldl_nil, Server.step] at h ih
      split at h
      · next t ht => exact (ih (calls_resume t x _ ▸ h)).longer _
      · exact (ih h).longer _
    | arrive r =>
      rcases calls_enter h with hold | ⟨rfl, hhomeId, hlinked⟩
      · exact (ih hold).longer _
      · exact ⟨es, [], rfl, hhomeId, hlinked⟩

/-! ### Every run -/

/-- However requests, logins, disconnections, removals and links come between each other, every
fetch that carries a token is proper, and its call was made in the run. -/
theorem fetches_proper (issued : String → String → Prop) (lower : String → String)
    (accounts : Slot → Account) (linked : Option Connection) (clientId : Bool)
    (es : List (Event Request Input))
    (h : Along (server lower).step (Honest issued).At (initial accounts linked clientId) es) :
    ∀ f ∈ ((server lower).run (initial accounts linked clientId) es).shared.fetches,
      Proper issued f ∧ MadeIn lower (initial accounts linked clientId) es f.call := by
  intro f hf
  have hstart : Sound issued (initial accounts linked clientId).shared
      (initial accounts linked clientId).waiting :=
    ⟨by simp [initial], by simp [initial]⟩
  have hend := (sound lower).run hstart h
  obtain ⟨hproper, hcall⟩ := hend.fetches f hf
  exact ⟨hproper, madeIn_of_mem rfl hcall⟩

def noAccounts : Slot → Account := fun _ => ⟨"", none, none, .removed⟩

/-- The connection of a host. -/
def work : Connection := ⟨"/cli.js", "work", "a@b", "u", "d", "Work"⟩

/-- A listing of the fourth slot: the CLI has its connection and a token, Graph knows the token, and
the request is sent. -/
def listing : List (Event Request Input) :=
  [.arrive (.request none "/me/drive/root".toList none),
    .wake 0 (.connections (some [⟨"work", "a@b", true⟩])), .wake 0 (.token (some "t")),
    .wake 0 (.profile (some "u")), .wake 0 .turn, .wake 0 .turn]

/-- Every token but this one is of nobody. -/
def Issued (token id : String) : Prop := token = "t" ∧ id = "u"

theorem listing_honest : Along (server id).step (Honest Issued).At
    (initial noAccounts (some work) false) listing :=
  ⟨trivial, trivial, trivial, ⟨rfl, rfl⟩, trivial, trivial, trivial⟩

theorem listing_fetches :
    ((server id).run (initial noAccounts (some work) false) listing).shared.fetches.map
        (fun f => (f.purpose, f.url)) =
      [(.validation, validationUrl), (.request, host ++ "/v1.0/drives/d/root".toList)] := by
  rfl

theorem listing_proper :
    ((server id).run (initial noAccounts (some work) false) listing).shared.fetches ≠ [] ∧
      ∀ f ∈ ((server id).run (initial noAccounts (some work) false) listing).shared.fetches,
        Proper Issued f ∧ MadeIn id (initial noAccounts (some work) false) listing f.call := by
  constructor
  · intro h
    have hfetches := listing_fetches
    rw [h] at hfetches
    cases hfetches
  · exact fetches_proper Issued id noAccounts (some work) false listing listing_honest

/-- The token of the CLI is checked at an address outside of the drive. -/
theorem validation_outside :
    ¬∀ (issued : String → String → Prop) (lower : String → String) (accounts : Slot → Account)
      (linked : Option Connection) (clientId : Bool) (es : List (Event Request Input)),
      Along (server lower).step (Honest issued).At (initial accounts linked clientId) es →
      ∀ f ∈ ((server lower).run (initial accounts linked clientId) es).shared.fetches,
        f.call.slot = none → ∃ c, f.call.linked = some c ∧ Within c f.url := by
  intro h
  have hmem : (⟨⟨none, "/me/drive/root".toList, none, some work.homeId, some work⟩, .validation,
      "GET", validationUrl, "t"⟩ : Fetch) ∈
      ((server id).run (initial noAccounts (some work) false) listing).shared.fetches :=
    List.Mem.head _
  obtain ⟨c, hc, hwithin⟩ :=
    h Issued id noAccounts (some work) false listing listing_honest _ hmem rfl
  obtain rfl : work = c := Option.some.inj hc
  obtain ⟨a, ha, hdrive⟩ := hwithin.drive
  have hpath : (readAddress host validationUrl).map Address.pathname = some "/v1.0/me".toList := rfl
  rw [ha, Option.map_some, Option.some.injEq] at hpath
  rw [hpath] at hdrive
  have hlength := hdrive.length_le
  revert hlength
  decide

end ForgeOS.Galaxy.GraphRequests
