import Mathlib.Data.List.Nodup
import ForgeOS.Galaxy.PairingCode

/-! Who is let in by the server of the workspace. A session is issued for the pairing code or for a
ticket that the launcher of the tablet has written to a file, and it ends a week later or when the
user logs out. The launcher is another program: it writes the ticket in two steps, also while the
server takes the file away. -/

namespace ForgeOS.Galaxy.Auth

/-- `ORIGIN`, the host of it, and `TABLET_RUNTIME`. -/
structure Config where
  origin : String
  host : String
  tablet : Bool
  deriving DecidableEq, Repr

/-- What is in the ticket file once it is complete. -/
structure Saved where
  hash : String
  expires : ℤ
  deriving DecidableEq, Repr

/-- The ticket file, with the launch that its text is from. `JSON.parse` fails on a text that is
not complete. -/
inductive TicketFile
  | absent
  | begun
  | complete (launch : ℕ) (saved : Saved)
  deriving DecidableEq, Repr

/-- The method, the path behind `new URL`, the headers that are looked at, and the code or ticket of
the body. It is `undefined` also where the body cannot be read. -/
structure Request where
  method : String
  path : String
  host : Option String
  origin : Option String
  galaxyRequest : Option String
  cookies : String
  secret : Js
  deriving DecidableEq, Repr

/-! ### Cookies -/

/-- `[\w-]` -/
def wordSign (c : Char) : Bool := c.isAlphanum || c = '_' || c = '-'

def cookieName : List Char := "galaxy_session=".toList

/-- `galaxy_session=([\w-]+)`, from here on. -/
def cookieValue (text : List Char) : Option (List Char) :=
  if cookieName.isPrefixOf text then
    match (text.drop cookieName.length).takeWhile wordSign with
    | [] => none
    | value => some value
  else none

/-- `;\s*galaxy_session=([\w-]+)`, at the first place where it stands. -/
def laterCookie : List Char → Option (List Char)
  | [] => none
  | c :: text =>
    if c = ';' then (cookieValue (text.dropWhile isWhiteSpace)).or (laterCookie text)
    else laterCookie text

/-- `cookie` -/
def cookie (req : Request) : String :=
  String.ofList (((cookieValue req.cookies.toList).or (laterCookie req.cookies.toList)).getD [])

/-! ### The server -/

/-- `validateRequest` -/
def validateRequest (config : Config) (req : Request) : Bool :=
  req.host = some config.host &&
    (req.origin.getD "" = "" || req.origin = some config.origin) &&
    (req.method = "GET" || (req.origin = some config.origin && req.galaxyRequest = some "1"))

/-- A ticket of the launcher, and when it was made. -/
structure Launch where
  time : ℤ
  ticket : String
  deriving DecidableEq, Repr

/-- A ticket that was given to the server: the launch that it was compared with, and when. -/
structure Use where
  launch : ℕ
  ticket : String
  time : ℤ
  deriving DecidableEq, Repr

/-- A session that was issued, by code or by ticket, or one that was taken away. -/
inductive Event
  | issued (key : String) (time : ℤ) (use : Option Use)
  | loggedOut (key : String)
  deriving DecidableEq, Repr

/-- The server beside the launches so far and those that have the file open. What has happened is
kept in `log`. -/
structure World where
  auth : State
  file : TicketFile
  launches : List Launch
  writing : List ℕ
  log : List Event

/-- What a request comes to. -/
inductive Answer
  | refused
  | session (authenticated : Bool)
  | failed
  | paired
  | unauthorized
  | loggedOut
  | handled
  | page
  deriving DecidableEq, Repr

variable (hash : String → String)

/-- `valid` -/
def valid (s : State) (req : Request) (now : ℤ) : Bool :=
  s.sessions.any fun row => row.1 = hash (cookie req) && row.2 > now

/-- `issueSession`, where the hash of the token must be new among the rows that are left. -/
def issue (s : State) (now : ℤ) (token : String) : Option State :=
  if (s.sessions.filter (fun row => ¬row.2 ≤ now)).any (fun row => row.1 = hash token) then none
  else some (issueSession hash s now token)

/-- The session is issued and remembered. A row that is refused leaves the old ones deleted. -/
def World.issue (w : World) (now : ℤ) (token : String) (use : Option Use) : World × Answer :=
  match Auth.issue hash w.auth now token with
  | none =>
    ({ w with
      auth := { w.auth with sessions := w.auth.sessions.filter (fun row => ¬row.2 ≤ now) } },
      .failed)
  | some s => ({ w with auth := s, log := w.log ++ [.issued (hash token) now use] }, .paired)

/-- `login`, where the row of the session may be refused. -/
def World.login (w : World) (a : Attempt) : World × Answer :=
  let (s, outcome) := Auth.login hash w.auth a
  let w := { w with auth := { w.auth with attempts := s.attempts } }
  if outcome = .paired then w.issue hash a.issued a.token none else (w, .failed)

/-- What the launcher does: it begins to write a new ticket, or it writes the text to the file that
it has opened. -/
inductive Launcher
  | begin (now : ℤ) (ticket : String)
  | write (launch : ℕ)
  deriving DecidableEq, Repr

/-- `60_000` -/
def minute : ℤ := 60000

def Launch.saved (l : Launch) : Saved := ⟨hash l.ticket, l.time + minute⟩

def World.launcher (w : World) : Launcher → World
  | .begin now ticket =>
    { w with
      file := .begun
      writing := w.writing ++ [w.launches.length]
      launches := w.launches ++ [⟨now, ticket⟩] }
  | .write launch =>
    match w.launches[launch]? with
    | some l =>
      if launch ∈ w.writing then
        { w with file := .complete launch (l.saved hash), writing := w.writing.erase launch }
      else w
    | none => w

/-- `/^[a-f0-9]{64}$/` -/
def hexHash (text : String) : Bool :=
  text.toList.length = 64 &&
    text.toList.all fun c => ('a' ≤ c && c ≤ 'f') || ('0' ≤ c && c ≤ '9')

/-- `rmSync`. Who has the file open writes to what is no longer in the directory. -/
def World.remove (w : World) : Option World :=
  if w.file = .absent then none else some { w with file := .absent, writing := [] }

/-- `loginNative`. Between reading the file and taking it away the launcher goes on. -/
def World.loginNative (config : Config) (w : World) (ticket : String) (now issued : ℤ)
    (token : String) (between : List Launcher) : World × Answer :=
  if !config.tablet || config.origin ≠ "http://localhost:4318" then (w, .failed)
  else
    match w.file with
    | .complete launch saved =>
      if saved.expires < now || !hexHash saved.hash || hash ticket ≠ saved.hash then (w, .failed)
      else
        match (between.foldl (World.launcher hash) w).remove with
        | none => (between.foldl (World.launcher hash) w, .failed)
        | some w => w.issue hash issued token (some ⟨launch, ticket, now⟩)
    | _ => (w, .failed)

/-- `logout` -/
def World.logout (w : World) (req : Request) : World × Answer :=
  ({ w with
    auth := { w.auth with
      sessions := w.auth.sessions.filter (fun row => row.1 ≠ hash (cookie req)) }
    log := w.log ++ [.loggedOut (hash (cookie req))] }, .loggedOut)

/-- What a request finds while it is served: the clock when it is checked and when a session is
issued, the pairing file, the random token, and the steps of the launcher between. -/
structure Moment where
  now : ℤ
  issued : ℤ
  file : Option String
  token : String
  between : List Launcher
  deriving DecidableEq, Repr

/-- `path.startsWith("/api/")` -/
def isApi (req : Request) : Bool := "/api/".toList.isPrefixOf req.path.toList

/-- A request to the server, as far as the session is concerned. -/
def World.serve (config : Config) (w : World) (req : Request) (m : Moment) : World × Answer :=
  if !validateRequest config req then (w, .refused)
  else if req.path = "/api/session" ∧ req.method = "GET" then
    (w, .session (valid hash w.auth req m.now))
  else if req.path = "/api/session" ∧ req.method = "POST" then
    match string req.secret 200 with
    | .error _ => (w, .failed)
    | .ok code => w.login hash ⟨m.now, m.issued, code, m.file, m.token⟩
  else if req.path = "/api/session/native" ∧ req.method = "POST" then
    match string req.secret 100 with
    | .error _ => (w, .failed)
    | .ok ticket => w.loginNative hash config ticket m.now m.issued m.token m.between
  else if isApi req then
    if !valid hash w.auth req m.now then (w, .unauthorized)
    else if req.path = "/api/session" ∧ req.method = "DELETE" then w.logout hash req
    else (w, .handled)
  else (w, .page)

/-- A request, a step of the launcher, or a restart of the server, which forgets the attempts. -/
inductive Input
  | request (req : Request) (m : Moment)
  | launcher (l : Launcher)
  | restart
  deriving DecidableEq, Repr

def World.step (config : Config) (w : World) : Input → World
  | .request req m => (w.serve hash config req m).1
  | .launcher l => w.launcher hash l
  | .restart => { w with auth := { w.auth with attempts := [] } }

def World.run (config : Config) (w : World) (inputs : List Input) : World :=
  inputs.foldl (World.step hash config) w

/-- No session, and no ticket. -/
def empty : World := ⟨⟨[], []⟩, .absent, [], [], []⟩

/-! ### Sessions -/

variable {hash} {config : Config} {w : World} {log : List Event} {key : String} {now : ℤ}

/-- `7 * 24 * 60 * 60_000` -/
def week : ℤ := 7 * 24 * 60 * 60000

/-- Under a key a session was issued less than a week ago, and it was not taken away since. -/
def SignedIn (log : List Event) (key : String) (now : ℤ) : Prop :=
  ∃ before after time use, log = before ++ .issued key time use :: after ∧
    .loggedOut key ∉ after ∧ now < time + week

theorem signedIn_nil : ¬SignedIn [] key now := by
  rintro ⟨before, after, time, use, h, -⟩
  simp at h

/-- One more event. -/
theorem signedIn_append (e : Event) : SignedIn (log ++ [e]) key now ↔
    (SignedIn log key now ∧ e ≠ .loggedOut key) ∨
      ∃ time use, e = .issued key time use ∧ now < time + week := by
  constructor
  · rintro ⟨before, after, time, use, h, hout, hnow⟩
    rcases List.eq_nil_or_concat after with rfl | ⟨after, e', rfl⟩
    · obtain ⟨-, he⟩ := List.append_inj' h rfl
      exact .inr ⟨time, use, by simpa using he, hnow⟩
    · rw [List.concat_eq_append] at h hout
      rw [← List.cons_append, ← List.append_assoc] at h
      obtain ⟨hlog, he⟩ := List.append_inj' h rfl
      have he : e = e' := by simpa using he
      simp only [List.mem_append, List.mem_singleton, not_or] at hout
      exact .inl ⟨⟨before, after, time, use, hlog, hout.1, hnow⟩, he ▸ Ne.symm hout.2⟩
  · rintro (⟨⟨before, after, time, use, rfl, hout, hnow⟩, he⟩ | ⟨time, use, rfl, hnow⟩)
    · refine ⟨before, after ++ [e], time, use, by simp, ?_, hnow⟩
      simpa [hout] using he.symm
    · exact ⟨log, [], time, use, rfl, by simp, hnow⟩

/-- From a moment on, the rows of the table tell who is signed in. -/
def Tells (w : World) (since : ℤ) : Prop :=
  ∀ key now, since ≤ now →
    ((∃ row ∈ w.auth.sessions, row.1 = key ∧ now < row.2) ↔ SignedIn w.log key now)

theorem Tells.mono {since later : ℤ} (h : Tells w since) (hle : since ≤ later) : Tells w later :=
  fun key now hnow => h key now (hle.trans hnow)

theorem Tells.of_eq {w' : World} {since : ℤ} (h : Tells w since)
    (hs : w'.auth.sessions = w.auth.sessions) (hl : w'.log = w.log) : Tells w' since := by
  intro key now hnow
  rw [hs, hl]
  exact h key now hnow

theorem Tells.issue {since time : ℤ} (h : Tells w since) (hle : since ≤ time) (token : String)
    (use : Option Use) : Tells (w.issue hash time token use).1 time := by
  have hkept : ∀ key now, time ≤ now →
      ((∃ row ∈ w.auth.sessions.filter (fun row => ¬row.2 ≤ time), row.1 = key ∧ now < row.2) ↔
        SignedIn w.log key now) := by
    intro key now hnow
    rw [← h key now (hle.trans hnow)]
    constructor
    · rintro ⟨row, hrow, hkey⟩
      exact ⟨row, List.mem_of_mem_filter hrow, hkey⟩
    · rintro ⟨row, hrow, hkey, hrest⟩
      refine ⟨row, List.mem_filter.mpr ⟨hrow, ?_⟩, hkey, hrest⟩
      simpa using lt_of_le_of_lt hnow hrest
  unfold World.issue Auth.issue
  split
  · exact hkept
  · rename_i s hs
    split at hs
    · cases hs
    · cases hs
      intro key now hnow
      rw [signedIn_append, ← hkept key now hnow]
      simp only [issueSession, List.mem_append, List.mem_singleton]
      constructor
      · rintro ⟨row, hrow | rfl, hkey, hrest⟩
        · exact .inl ⟨⟨row, hrow, hkey, hrest⟩, by simp⟩
        · exact .inr ⟨time, use, by rw [← hkey], hrest⟩
      · rintro (⟨⟨row, hrow, hkey⟩, -⟩ | ⟨_, _, he, hrest⟩)
        · exact ⟨row, .inl hrow, hkey⟩
        · cases he
          exact ⟨_, .inr rfl, rfl, hrest⟩

theorem Tells.logout {since : ℤ} (h : Tells w since) (req : Request) :
    Tells (w.logout hash req).1 since := by
  intro key now hnow
  simp only [World.logout, signedIn_append, ← h key now hnow, List.mem_filter]
  constructor
  · rintro ⟨row, ⟨hrow, hne⟩, rfl, hrest⟩
    have hne := of_decide_eq_true hne
    exact .inl ⟨⟨row, hrow, rfl, hrest⟩, fun he => hne (Event.loggedOut.inj he).symm⟩
  · rintro (⟨⟨row, hrow, rfl, hrest⟩, hne⟩ | ⟨_, _, he, -⟩)
    · exact ⟨row, ⟨hrow, decide_eq_true fun he => hne (by rw [he])⟩, rfl, hrest⟩
    · cases he

@[simp] theorem launcher_auth (l : Launcher) : (w.launcher hash l).auth = w.auth := by
  cases l with
  | begin now ticket => rfl
  | write launch =>
    simp only [World.launcher]
    split
    · split <;> rfl
    · rfl

@[simp] theorem launcher_log (l : Launcher) : (w.launcher hash l).log = w.log := by
  cases l with
  | begin now ticket => rfl
  | write launch =>
    simp only [World.launcher]
    split
    · split <;> rfl
    · rfl

theorem launchers_auth_log (hash : String → String) (steps : List Launcher) (w : World) :
    (steps.foldl (World.launcher hash) w).auth = w.auth ∧
      (steps.foldl (World.launcher hash) w).log = w.log := by
  induction steps generalizing w with
  | nil => exact ⟨rfl, rfl⟩
  | cons l steps ih => simpa using ih (w.launcher hash l)

/-- A ticket is refused, or the session is issued behind the steps of the launcher. -/
theorem loginNative_cases (hash : String → String) (config : Config) (w : World) (ticket : String)
    (time issued : ℤ) (token : String) (between : List Launcher) :
    ∃ w' : World, w'.auth = w.auth ∧ w'.log = w.log ∧
      (w.loginNative hash config ticket time issued token between = (w', .failed) ∨
        ∃ use, w.loginNative hash config ticket time issued token between =
          w'.issue hash issued token (some use)) := by
  have hbetween := launchers_auth_log hash between w
  unfold World.loginNative
  split
  · exact ⟨w, rfl, rfl, .inl rfl⟩
  · split
    · split
      · exact ⟨w, rfl, rfl, .inl rfl⟩
      · split
        · exact ⟨_, hbetween.1, hbetween.2, .inl rfl⟩
        · rename_i w' hw
          unfold World.remove at hw
          split at hw
          · cases hw
          · cases hw
            exact ⟨{ between.foldl (World.launcher hash) w with file := .absent, writing := [] },
              hbetween.1, hbetween.2, .inr ⟨_, rfl⟩⟩
    · exact ⟨w, rfl, rfl, .inl rfl⟩

theorem Tells.loginNative {since time issued : ℤ} (h : Tells w since) (hle : since ≤ issued)
    (ticket token : String) (between : List Launcher) :
    Tells (w.loginNative hash config ticket time issued token between).1 issued := by
  obtain ⟨w', hauth, hlog, he | ⟨use, he⟩⟩ :=
    loginNative_cases hash config w ticket time issued token between
  · rw [he]
    exact (h.mono hle).of_eq (by rw [hauth]) hlog
  · rw [he]
    exact Tells.issue (h.of_eq (by rw [hauth]) hlog) hle token _

/-- The times at which the clock is read. -/
def Input.times : Input → List ℤ
  | .request _ m => [m.now, m.issued]
  | _ => []

/-- A request to log out that is let through. -/
structure LogsOut (config : Config) (req : Request) : Prop where
  valid : validateRequest config req = true
  path : req.path = "/api/session"
  method : req.method = "DELETE"

/-- What a request may do. -/
theorem serve_cases (hash : String → String) (config : Config) (w : World) (req : Request)
    (m : Moment) :
    (∃ a, a ≠ .paired ∧ w.serve hash config req m = (w, a)) ∨
    (∃ code, w.serve hash config req m =
      w.login hash ⟨m.now, m.issued, code, m.file, m.token⟩) ∨
    (∃ ticket, w.serve hash config req m =
      w.loginNative hash config ticket m.now m.issued m.token m.between) ∨
    (LogsOut config req ∧ w.serve hash config req m = w.logout hash req) := by
  unfold World.serve
  split
  · exact .inl ⟨.refused, by simp, rfl⟩
  · rename_i hvalid
    rw [Bool.not_eq_true', Bool.not_eq_false] at hvalid
    split
    · exact .inl ⟨_, by simp, rfl⟩
    · split
      · split
        · exact .inl ⟨.failed, by simp, rfl⟩
        · exact .inr (.inl ⟨_, rfl⟩)
      · split
        · split
          · exact .inl ⟨.failed, by simp, rfl⟩
          · exact .inr (.inr (.inl ⟨_, rfl⟩))
        · split
          · split
            · exact .inl ⟨.unauthorized, by simp, rfl⟩
            · split
              · rename_i hdelete
                exact .inr (.inr (.inr ⟨⟨hvalid, hdelete.1, hdelete.2⟩, rfl⟩))
              · exact .inl ⟨.handled, by simp, rfl⟩
          · exact .inl ⟨.page, by simp, rfl⟩

theorem Tells.login {since : ℤ} (h : Tells w since) (a : Attempt) (hle : since ≤ a.issued) :
    Tells (w.login hash a).1 a.issued := by
  unfold World.login
  dsimp only
  split
  · apply Tells.issue _ hle
    exact h.of_eq rfl rfl
  · exact (h.mono hle).of_eq rfl rfl

theorem Tells.serve {since : ℤ} (h : Tells w since) (hash : String → String) (config : Config)
    (req : Request) (m : Moment)
    (hle : since ≤ m.issued) : Tells (w.serve hash config req m).1 m.issued := by
  obtain ⟨a, -, he⟩ | ⟨code, he⟩ | ⟨ticket, he⟩ | ⟨-, he⟩ := serve_cases hash config w req m
  · rw [he]
    exact h.mono hle
  · rw [he]
    exact h.login _ hle
  · rw [he]
    exact h.loginNative hle _ _ _
  · rw [he]
    exact (h.mono hle).logout req

theorem Tells.run {since : ℤ} (h : Tells w since) (inputs : List Input)
    (hpast : ∀ t ∈ inputs.flatMap Input.times, since ≤ t)
    (htimes : (inputs.flatMap Input.times).Pairwise (· ≤ ·)) (later : ℤ)
    (hsince : since ≤ later) (hlater : ∀ t ∈ inputs.flatMap Input.times, t ≤ later) :
    Tells (w.run hash config inputs) later := by
  induction inputs generalizing w since with
  | nil => exact h.mono hsince
  | cons input inputs ih =>
    cases input with
    | request req m =>
      simp only [List.flatMap_cons, Input.times, List.cons_append, List.nil_append,
        List.pairwise_cons, List.mem_cons] at hpast htimes hlater
      obtain ⟨-, hrest, htimes⟩ := htimes
      have hserve := h.serve hash config req m (hpast _ (.inr (.inl rfl)))
      exact ih hserve hrest htimes (hlater _ (.inr (.inl rfl))) fun t ht =>
        hlater t (.inr (.inr ht))
    | launcher l =>
      have hstep : Tells (w.launcher hash l) since := h.of_eq (by simp) (by simp)
      exact ih hstep hpast htimes hsince hlater
    | restart => exact ih (h.of_eq rfl rfl) hpast htimes hsince hlater

/-- Whether a request is for the part of the server behind the sign-in. -/
def behindSignIn (req : Request) : Bool :=
  isApi req &&
    !(req.path = "/api/session" && (["GET", "POST", "DELETE"].contains req.method)) &&
    !(req.path = "/api/session/native" && req.method = "POST")

theorem issue_ne_handled (time : ℤ) (token : String) (use : Option Use) :
    (w.issue hash time token use).2 ≠ .handled := by
  unfold World.issue
  split <;> simp

theorem login_ne_handled (a : Attempt) : (w.login hash a).2 ≠ .handled := by
  unfold World.login
  dsimp only
  split
  · exact issue_ne_handled _ _ _
  · simp

theorem loginNative_ne_handled (ticket : String) (time issued : ℤ) (token : String)
    (between : List Launcher) :
    (w.loginNative hash config ticket time issued token between).2 ≠ .handled := by
  obtain ⟨w', -, -, he | ⟨use, he⟩⟩ :=
    loginNative_cases hash config w ticket time issued token between
  · simp [he]
  · rw [he]
    exact issue_ne_handled _ _ _

theorem serve_handled {req : Request} {m : Moment} :
    (w.serve hash config req m).2 = .handled ↔
      (validateRequest config req && behindSignIn req) = true ∧
        valid hash w.auth req m.now = true := by
  unfold World.serve behindSignIn
  by_cases hv : validateRequest config req = true
  swap
  · simp [hv]
  by_cases hget : req.path = "/api/session" ∧ req.method = "GET"
  · simp [hv, hget]
  by_cases hpost : req.path = "/api/session" ∧ req.method = "POST"
  · simp only [hv, hpost]
    cases string req.secret 200 with
    | error e => simp
    | ok code => simp [login_ne_handled]
  by_cases hnative : req.path = "/api/session/native" ∧ req.method = "POST"
  · simp only [hv, hnative]
    cases string req.secret 100 with
    | error e => simp
    | ok ticket => simp [loginNative_ne_handled]
  by_cases hapi : isApi req = true
  swap
  · simp [hv, hget, hpost, hnative, hapi]
  by_cases hin : valid hash w.auth req m.now = true
  swap
  · simp [hv, hget, hpost, hnative, hapi, hin]
  by_cases hdelete : req.path = "/api/session" ∧ req.method = "DELETE"
  · simp [hv, hdelete, hapi, hin, World.logout]
  simp [hv, hget, hpost, hnative, hapi, hin, hdelete]
  tauto

/-- After a run the table tells who is signed in. -/
theorem tells_run (inputs : List Input) (now : ℤ)
    (htimes : (inputs.flatMap Input.times ++ [now]).Pairwise (· ≤ ·)) :
    Tells (empty.run hash config inputs) now := by
  obtain ⟨hinputs, -, hlast⟩ := List.pairwise_append.mp htimes
  have hlater : ∀ t ∈ inputs.flatMap Input.times, t ≤ now := fun t ht => hlast t ht _ (by simp)
  have hempty : ∀ since, Tells empty since := by
    intro since key now _
    simp [empty, signedIn_nil]
  obtain ⟨since, hsince, hpast⟩ : ∃ since ≤ now, ∀ t ∈ inputs.flatMap Input.times, since ≤ t := by
    cases hts : inputs.flatMap Input.times with
    | nil => exact ⟨now, le_refl _, by simp⟩
    | cons t ts =>
      rw [hts] at hinputs hlater
      refine ⟨t, hlater t (by simp), fun u hu => ?_⟩
      rcases List.mem_cons.mp hu with rfl | hu
      · exact le_refl _
      · exact (List.pairwise_cons.mp hinputs).1 u hu
  exact (hempty since).run inputs hpast hinputs now hsince hlater

theorem Tells.valid_iff (h : Tells w now) (req : Request) :
    valid hash w.auth req now = true ↔ SignedIn w.log (hash (cookie req)) now := by
  rw [← h (hash (cookie req)) now (le_refl _)]
  simp [valid, List.any_eq_true]

/-- A request gets behind the sign-in exactly when it is proper and its cookie is one of a session
that was issued less than a week ago and not logged out since. -/
theorem handled_iff_signedIn (hash : String → String) (config : Config) (inputs : List Input)
    (req : Request) (m : Moment)
    (htimes : (inputs.flatMap Input.times ++ [m.now]).Pairwise (· ≤ ·)) :
    ((empty.run hash config inputs).serve hash config req m).2 = .handled ↔
      (validateRequest config req && behindSignIn req) = true ∧
        SignedIn (empty.run hash config inputs).log (hash (cookie req)) m.now := by
  rw [serve_handled, (tells_run inputs m.now htimes).valid_iff]

/-- A tablet on its own, and what its browser sends. -/
def tablet : Config := ⟨"http://localhost:4318", "localhost:4318", true⟩

def fromTablet (method path cookies : String) (secret : Js) : Request :=
  ⟨method, path, some tablet.host, some tablet.origin, some "1", cookies, secret⟩

/-- It is paired with the code. -/
def pairing : Input :=
  .request (fromTablet "POST" "/api/session" "" (.string "code")) ⟨5, 6, some "code", "abc", []⟩

theorem bootstrap_signedIn :
    ((empty.run id tablet [pairing]).serve id tablet
      (fromTablet "GET" "/api/bootstrap" "a=b; galaxy_session=abc" .undefined)
      ⟨7, 7, none, "", []⟩).2 = .handled ↔
        (validateRequest tablet
            (fromTablet "GET" "/api/bootstrap" "a=b; galaxy_session=abc" .undefined) &&
          behindSignIn
            (fromTablet "GET" "/api/bootstrap" "a=b; galaxy_session=abc" .undefined)) = true ∧
        SignedIn (empty.run id tablet [pairing]).log
          (id (cookie (fromTablet "GET" "/api/bootstrap" "a=b; galaxy_session=abc" .undefined)))
          7 :=
  handled_iff_signedIn id tablet [pairing] _ ⟨7, 7, none, "", []⟩ (by decide)

example : ((empty.run id tablet [pairing]).serve id tablet
    (fromTablet "GET" "/api/bootstrap" "a=b; galaxy_session=abc" .undefined)
    ⟨7, 7, none, "", []⟩).2 = .handled := by decide

/-! ### Tickets -/

/-- The launch whose ticket a session was issued for. -/
def Event.launch : Event → Option ℕ
  | .issued _ _ use => use.map Use.launch
  | .loggedOut _ => none

def World.used (w : World) : List ℕ := w.log.filterMap Event.launch

/-- A use was within the minute of its launch, with the ticket of it. -/
def Use.Fits (hash : String → String) (launches : List Launch) (use : Use) : Prop :=
  ∃ l, launches[use.launch]? = some l ∧ hash use.ticket = hash l.ticket ∧
    use.time ≤ l.time + minute

/-- No ticket was used twice, and one that is yet to be written or read was not used at all. -/
structure Tickets (hash : String → String) (w : World) : Prop where
  used : w.used.Nodup
  fits : ∀ key time use, .issued key time (some use) ∈ w.log → use.Fits hash w.launches
  writing : ∀ k ∈ w.writing, k < w.launches.length ∧ k ∉ w.used
  distinct : w.writing.Nodup
  file : ∀ k saved, w.file = .complete k saved →
    (∃ l, w.launches[k]? = some l ∧ saved = l.saved hash) ∧ k ∉ w.used ∧ k ∉ w.writing

theorem Use.Fits.append {launches : List Launch} {use : Use} (h : use.Fits hash launches)
    (l : Launch) : use.Fits hash (launches ++ [l]) := by
  obtain ⟨l', hl, hfits⟩ := h
  refine ⟨l', ?_, hfits⟩
  obtain ⟨hlt, -⟩ := List.getElem?_eq_some_iff.mp hl
  rw [List.getElem?_append_left hlt, hl]

theorem Tickets.used_lt (h : Tickets hash w) {k : ℕ} (hk : k ∈ w.used) : k < w.launches.length := by
  obtain ⟨e, he, hek⟩ := List.mem_filterMap.mp hk
  cases e with
  | loggedOut key => cases hek
  | issued key time use =>
    cases use with
    | none => cases hek
    | some use =>
      obtain ⟨l, hl, -⟩ := h.fits key time use he
      obtain rfl : use.launch = k := by simpa [Event.launch] using hek
      exact (List.getElem?_eq_some_iff.mp hl).1

theorem Tickets.launcher (h : Tickets hash w) (l : Launcher) :
    Tickets hash (w.launcher hash l) := by
  cases l with
  | begin now ticket =>
    have hnew : w.launches.length ∉ w.writing := fun hm =>
      Nat.lt_irrefl _ (h.writing _ hm).1
    refine ⟨h.used, fun key time use hu => (h.fits key time use hu).append _, ?_, ?_, ?_⟩
    · intro k hk
      simp only [World.launcher, List.mem_append, List.mem_singleton, List.length_append,
        List.length_singleton] at hk ⊢
      rcases hk with hk | rfl
      · exact ⟨Nat.lt_succ_of_lt (h.writing k hk).1, (h.writing k hk).2⟩
      · exact ⟨Nat.lt_succ_self _, fun hu => Nat.lt_irrefl _ (h.used_lt hu)⟩
    · apply h.distinct.append (List.nodup_singleton _)
      simpa using hnew
    · intro k saved hf
      cases hf
  | write launch =>
    simp only [World.launcher]
    split
    · rename_i l hl
      split
      · rename_i hm
        refine ⟨h.used, h.fits, fun k hk => h.writing k (List.mem_of_mem_erase hk),
          h.distinct.erase _, ?_⟩
        intro k saved hf
        cases hf
        exact ⟨⟨l, hl, rfl⟩, (h.writing _ hm).2, h.distinct.not_mem_erase⟩
      · exact h
    · exact h

theorem Tickets.foldl_launcher (h : Tickets hash w) (steps : List Launcher) :
    Tickets hash (steps.foldl (World.launcher hash) w) := by
  induction steps generalizing w with
  | nil => exact h
  | cons l steps ih => exact ih (h.launcher l)

theorem launches_foldl {k : ℕ} {l : Launch} (hl : w.launches[k]? = some l)
    (steps : List Launcher) :
    (steps.foldl (World.launcher hash) w).launches[k]? = some l := by
  induction steps generalizing w with
  | nil => exact hl
  | cons step steps ih =>
    apply ih
    cases step with
    | begin now ticket =>
      obtain ⟨hlt, -⟩ := List.getElem?_eq_some_iff.mp hl
      simp only [World.launcher]
      rw [List.getElem?_append_left hlt, hl]
    | write launch =>
      simp only [World.launcher]
      split
      · split <;> exact hl
      · exact hl

/-- What does not touch the log and the launcher keeps the invariant. -/
theorem Tickets.of_auth (h : Tickets hash w) (s : State) : Tickets hash { w with auth := s } :=
  ⟨h.used, h.fits, h.writing, h.distinct, h.file⟩

theorem Tickets.note (h : Tickets hash w) (s : State) {e : Event} (he : e.launch = none) :
    Tickets hash { w with auth := s, log := w.log ++ [e] } := by
  have hused : ({ w with auth := s, log := w.log ++ [e] } : World).used = w.used := by
    simp [World.used, List.filterMap_append, he]
  refine ⟨hused ▸ h.used, ?_, by rw [hused]; exact h.writing, h.distinct,
    by rw [hused]; exact h.file⟩
  intro key time use hu
  rcases List.mem_append.mp hu with hu | hu
  · exact h.fits key time use hu
  · rw [← List.mem_singleton.mp hu] at he
    cases he

/-- A ticket that was read is used when nothing is left that could be read again. -/
theorem Tickets.issue (h : Tickets hash w) {use : Use} (hfits : use.Fits hash w.launches)
    (hnew : use.launch ∉ w.used) (hw : w.writing = []) (hf : w.file = .absent) (time : ℤ)
    (token : String) : Tickets hash (w.issue hash time token (some use)).1 := by
  unfold World.issue
  split
  · exact h.of_auth _
  · rename_i s _
    refine ⟨?_, ?_, by simp [hw], by simp [hw], by simp [hf]⟩
    · simp only [World.used, List.filterMap_append, List.filterMap_cons, Event.launch,
        Option.map_some, List.filterMap_nil]
      apply h.used.append (List.nodup_singleton _)
      simpa using hnew
    · intro key t u hu
      rcases List.mem_append.mp hu with hu | hu
      · exact h.fits key t u hu
      · cases List.mem_singleton.mp hu
        exact hfits

theorem Tickets.loginNative (h : Tickets hash w) (ticket : String) (time issued : ℤ)
    (token : String) (between : List Launcher) :
    Tickets hash (w.loginNative hash config ticket time issued token between).1 := by
  unfold World.loginNative
  split
  · exact h
  · split
    · rename_i launch saved hfile
      split
      · exact h
      · rename_i hgood
        obtain ⟨⟨l, hl, rfl⟩, hused, -⟩ := h.file launch saved hfile
        simp only [Bool.or_eq_true, decide_eq_true_eq, not_or, ne_eq, not_not, not_lt] at hgood
        have hbetween := h.foldl_launcher between
        split
        · exact hbetween
        · rename_i w' hw
          unfold World.remove at hw
          split at hw
          · cases hw
          · cases hw
            have hlog := (launchers_auth_log hash between w).2
            have hremoved : Tickets hash
                { between.foldl (World.launcher hash) w with file := .absent, writing := [] } :=
              ⟨hbetween.used, hbetween.fits, by simp, List.nodup_nil, by simp⟩
            apply hremoved.issue ⟨l, launches_foldl hl between, hgood.2, hgood.1.1⟩ _ rfl rfl
            simpa only [World.used, hlog] using hused
    · exact h

theorem Tickets.login (h : Tickets hash w) (a : Attempt) : Tickets hash (w.login hash a).1 := by
  unfold World.login
  dsimp only
  split
  · unfold World.issue
    split
    · exact h.of_auth _
    · exact h.note _ rfl
  · exact h.of_auth _

theorem Tickets.serve (h : Tickets hash w) (req : Request) (m : Moment) :
    Tickets hash (w.serve hash config req m).1 := by
  obtain ⟨a, -, he⟩ | ⟨code, he⟩ | ⟨ticket, he⟩ | ⟨-, he⟩ := serve_cases hash config w req m
  · rw [he]
    exact h
  · rw [he]
    exact h.login _
  · rw [he]
    exact h.loginNative _ _ _ _ _
  · rw [he]
    exact h.note _ rfl

theorem Tickets.run (h : Tickets hash w) (config : Config) (inputs : List Input) :
    Tickets hash (w.run hash config inputs) := by
  induction inputs generalizing w with
  | nil => exact h
  | cons input inputs ih =>
    apply ih
    cases input with
    | request req m => exact h.serve req m
    | launcher l => exact h.launcher l
    | restart => exact h.of_auth _

/-- A ticket lets a browser in at most once, and within a minute of being made. -/
theorem ticket_once (hash : String → String) (config : Config) (inputs : List Input) :
    (empty.run hash config inputs).used.Nodup ∧
      ∀ key time use, .issued key time (some use) ∈ (empty.run hash config inputs).log →
        use.Fits hash (empty.run hash config inputs).launches := by
  have hempty : Tickets hash empty :=
    ⟨List.nodup_nil, by simp [empty], by simp [empty], List.nodup_nil, by simp [empty]⟩
  have hrun := hempty.run config inputs
  exact ⟨hrun.used, hrun.fits⟩

/-! ### The cookie of a browser -/

/-- `exec` on the whole header. -/
def findCookie (text : List Char) : Option (List Char) := (cookieValue text).or (laterCookie text)

theorem cookieValue_sent {token rest : List Char} (hne : token ≠ [])
    (hword : ∀ c ∈ token, wordSign c = true) (hrest : ∀ c ∈ rest.head?, wordSign c = false) :
    cookieValue (cookieName ++ (token ++ rest)) = some token := by
  have htake : (token ++ rest).takeWhile wordSign = token := by
    rw [List.takeWhile_append_of_pos hword]
    cases rest with
    | nil => simp
    | cons c rest => simp [hrest c rfl]
  rw [cookieValue, if_pos (by simp), List.drop_left, htake]
  cases token with
  | nil => exact absurd rfl hne
  | cons c token => rfl

/-- A cookie of another name. -/
structure Foreign (text : List Char) : Prop where
  whole : ';' ∉ text
  name : ¬cookieName <+: text
  begins : ∀ c ∈ text.head?, isWhiteSpace c = false

theorem laterCookie_skip {text : List Char} (h : ';' ∉ text) (rest : List Char) :
    laterCookie (text ++ rest) = laterCookie rest := by
  induction text with
  | nil => rfl
  | cons c text ih =>
    simp only [List.mem_cons, not_or] at h
    rw [List.cons_append, laterCookie, if_neg (Ne.symm h.1), ih h.2]

theorem Foreign.value_eq_none {text : List Char} (h : Foreign text) (rest : List Char) :
    cookieValue (text ++ ';' :: rest) = none := by
  rw [cookieValue, if_neg]
  intro hp
  have hp := List.isPrefixOf_iff_prefix.mp hp
  rcases List.prefix_or_prefix_of_prefix hp (List.prefix_append text _) with hle | hle
  · exact h.name hle
  · -- the name would go on behind the semicolon
    obtain ⟨tail, htail⟩ := hle
    rw [← htail, List.prefix_append_right_inj] at hp
    cases tail with
    | nil =>
      rw [List.append_nil] at htail
      exact h.name (htail ▸ List.prefix_rfl)
    | cons c tail =>
      have hc := (List.cons_prefix_cons.mp hp).1
      have hm : ';' ∈ cookieName := by
        rw [← htail, hc]
        simp
      exact absurd hm (by decide)

theorem findCookie_skip {text rest : List Char} (h : Foreign text)
    (hrest : ∀ c ∈ rest.head?, isWhiteSpace c = false) :
    findCookie (text ++ ("; ".toList ++ rest)) = findCookie rest := by
  have hdrop : (' ' :: rest).dropWhile isWhiteSpace = rest := by
    rw [List.dropWhile_cons_of_pos (by decide)]
    cases rest with
    | nil => rfl
    | cons c rest => rw [List.dropWhile_cons_of_neg (by simp [hrest c rfl])]
  have hskip : laterCookie (' ' :: rest) = laterCookie rest := by simp [laterCookie]
  rw [findCookie, show "; ".toList ++ rest = ';' :: ' ' :: rest from rfl, h.value_eq_none,
    laterCookie_skip h.whole, laterCookie, if_pos rfl, hdrop, hskip]
  rfl

/-- A browser sends the cookie back among the others that it has for the host. -/
def cookieHeader (before : List (List Char)) (token : List Char) (after : List (List Char)) :
    List Char :=
  before.foldr (fun text rest => text ++ ("; ".toList ++ rest))
    (cookieName ++ (token ++ after.flatMap ("; ".toList ++ ·)))

theorem cookieName_head : cookieName.head? = some 'g' := by decide

theorem cookieHeader_head {before : List (List Char)} (hbefore : ∀ text ∈ before, Foreign text)
    (token : List Char) (after : List (List Char)) :
    ∀ c ∈ (cookieHeader before token after).head?, isWhiteSpace c = false := by
  intro c hc
  cases before with
  | nil =>
    rw [cookieHeader, List.foldr_nil, List.head?_append, cookieName_head] at hc
    have hc : 'g' = c := by simpa using hc
    rw [← hc]
    decide
  | cons text before =>
    cases text with
    | nil =>
      have hc : ';' = c := by simpa [cookieHeader] using hc
      rw [← hc]
      decide
    | cons d text =>
      obtain rfl : d = c := by simpa [cookieHeader] using hc
      exact (hbefore _ (List.mem_cons_self ..)).begins d rfl

theorem findCookie_header {before : List (List Char)} {token : List Char}
    (hbefore : ∀ text ∈ before, Foreign text) (hne : token ≠ [])
    (hword : ∀ c ∈ token, wordSign c = true) (after : List (List Char)) :
    findCookie (cookieHeader before token after) = some token := by
  induction before with
  | nil =>
    have hrest : ∀ c ∈ (after.flatMap ("; ".toList ++ ·)).head?, wordSign c = false := by
      cases after with
      | nil => simp
      | cons text after =>
        intro c hc
        obtain rfl : ';' = c := by simpa using hc
        rfl
    rw [cookieHeader, List.foldr_nil, findCookie, cookieValue_sent hne hword hrest]
    rfl
  | cons text before ih =>
    have hrest : ∀ text ∈ before, Foreign text := fun t ht => hbefore t (List.mem_cons_of_mem _ ht)
    rw [← ih hrest]
    have hhead := cookieHeader_head hrest token after
    exact findCookie_skip (hbefore text (List.mem_cons_self ..)) hhead

/-! ### A week -/

/-- The log has grown, and nobody was logged out. -/
def Stays (w w' : World) : Prop :=
  ∃ es, w'.log = w.log ++ es ∧ ∀ key, .loggedOut key ∉ es

theorem Stays.of_eq {w' : World} (h : w'.log = w.log) : Stays w w' := ⟨[], by simp [h], by simp⟩

theorem Stays.issue (hash : String → String) (w : World) (time : ℤ) (token : String)
    (use : Option Use) :
    Stays w (w.issue hash time token use).1 := by
  unfold World.issue
  split
  · exact .of_eq rfl
  · exact ⟨[_], rfl, by simp⟩

theorem Stays.login (a : Attempt) : Stays w (w.login hash a).1 := by
  unfold World.login
  dsimp only
  split
  · exact Stays.issue hash { w with auth := _ } _ _ _
  · exact .of_eq rfl

theorem Stays.loginNative (ticket : String) (time issued : ℤ) (token : String)
    (between : List Launcher) :
    Stays w (w.loginNative hash config ticket time issued token between).1 := by
  obtain ⟨w', -, hlog, he | ⟨use, he⟩⟩ :=
    loginNative_cases hash config w ticket time issued token between
  · rw [he]
    exact .of_eq hlog
  · rw [he]
    obtain ⟨es, hes, hout⟩ := Stays.issue hash w' issued token (some use)
    exact ⟨es, hlog ▸ hes, hout⟩

/-- The log only grows, and by a logout only for the cookie of the request. -/
theorem step_log (hash : String → String) (config : Config) (w : World) (input : Input) :
    ∃ es, (w.step hash config input).log = w.log ++ es ∧ ∀ key, .loggedOut key ∈ es →
      ∃ req m, input = .request req m ∧ LogsOut config req ∧ key = hash (cookie req) := by
  have hstays : ∀ w', Stays w w' → ∃ es, w'.log = w.log ++ es ∧ ∀ key, .loggedOut key ∈ es →
      ∃ req m, input = .request req m ∧ LogsOut config req ∧ key = hash (cookie req) := by
    rintro w' ⟨es, hes, hout⟩
    exact ⟨es, hes, fun key hk => absurd hk (hout key)⟩
  cases input with
  | launcher l => exact hstays _ (.of_eq (launcher_log l))
  | restart => exact hstays _ (.of_eq rfl)
  | request req m =>
    simp only [World.step]
    obtain ⟨a, -, he⟩ | ⟨code, he⟩ | ⟨ticket, he⟩ | ⟨hd, he⟩ := serve_cases hash config w req m
    · rw [he]
      exact hstays _ (.of_eq rfl)
    · rw [he]
      exact hstays _ (.login _)
    · rw [he]
      exact hstays _ (.loginNative _ _ _ _ _)
    · rw [he]
      refine ⟨[_], rfl, fun key hk => ⟨req, m, rfl, hd, ?_⟩⟩
      simpa using hk

/-- The inputs log nobody out under the key. -/
def Keeps (hash : String → String) (config : Config) (key : String) (inputs : List Input) : Prop :=
  ∀ req m, .request req m ∈ inputs → LogsOut config req → hash (cookie req) ≠ key

theorem SignedIn.run (h : SignedIn w.log key now) (config : Config) {inputs : List Input}
    (hkeep : Keeps hash config key inputs) : SignedIn (w.run hash config inputs).log key now := by
  induction inputs generalizing w with
  | nil => exact h
  | cons input inputs ih =>
    apply ih _ fun req m hm => hkeep req m (List.mem_cons_of_mem _ hm)
    obtain ⟨es, hes, hout⟩ := step_log hash config w input
    obtain ⟨before, after, time, use, hlog, hafter, hnow⟩ := h
    refine ⟨before, after ++ es, time, use, by rw [hes, hlog]; simp, ?_, hnow⟩
    rw [List.mem_append, not_or]
    refine ⟨hafter, fun hk => ?_⟩
    obtain ⟨req, m, rfl, hd, hkey⟩ := hout key hk
    exact hkeep req m (List.mem_cons_self ..) hd hkey.symm

theorem issue_paired {time : ℤ} {token : String} {use : Option Use}
    (h : (w.issue hash time token use).2 = .paired) (hnow : now < time + week) :
    SignedIn (w.issue hash time token use).1.log (hash token) now := by
  unfold World.issue at h ⊢
  split at h
  · cases h
  · exact signedIn_append _ |>.mpr (.inr ⟨time, use, rfl, hnow⟩)

theorem paired_log {req : Request} {m : Moment}
    (h : (w.serve hash config req m).2 = .paired) (hnow : now < m.issued + week) :
    SignedIn (w.serve hash config req m).1.log (hash m.token) now := by
  obtain ⟨a, ha, he⟩ | ⟨code, he⟩ | ⟨ticket, he⟩ | ⟨-, he⟩ := serve_cases hash config w req m
  · rw [he] at h
    exact absurd h ha
  · rw [he] at h ⊢
    unfold World.login at h ⊢
    dsimp only at h ⊢
    split at h
    · rename_i hp
      rw [if_pos hp]
      exact issue_paired h hnow
    · cases h
  · rw [he] at h ⊢
    obtain ⟨w', -, -, he' | ⟨use, he'⟩⟩ :=
      loginNative_cases hash config w ticket m.now m.issued m.token m.between
    · rw [he'] at h
      cases h
    · rw [he'] at h ⊢
      exact issue_paired h hnow
  · rw [he] at h
    cases h

theorem run_append (w : World) (inputs inputs' : List Input) :
    w.run hash config (inputs ++ inputs') = (w.run hash config inputs).run hash config inputs' :=
  List.foldl_append ..

/-- A browser that was paired and sends its cookie, among others, is let in for a week, unless it
was logged out. -/
theorem session_lasts (hash : String → String) (config : Config) (before after : List Input)
    (pairing req : Request) (m m' : Moment) (others others' : List (List Char))
    (hpaired : ((empty.run hash config before).serve hash config pairing m).2 = .paired)
    (htoken : m.token ≠ "" ∧ ∀ c ∈ m.token.toList, wordSign c = true)
    (hkeep : Keeps hash config (hash m.token) after)
    (htimes : ((before ++ .request pairing m :: after).flatMap Input.times ++ [m'.now]).Pairwise
      (· ≤ ·))
    (hothers : ∀ text ∈ others, Foreign text)
    (hcookies : req.cookies = String.ofList (cookieHeader others m.token.toList others'))
    (hreq : (validateRequest config req && behindSignIn req) = true)
    (hweek : m'.now < m.issued + week) :
    ((empty.run hash config (before ++ .request pairing m :: after)).serve hash config
      req m').2 = .handled := by
  have hcookie : cookie req = m.token := by
    have hne : m.token.toList ≠ [] := by simpa using htoken.1
    have hfind := findCookie_header hothers hne htoken.2 others'
    rw [cookie, hcookies, String.toList_ofList]
    rw [findCookie] at hfind
    rw [hfind]
    simp
  rw [serve_handled]
  refine ⟨hreq, ?_⟩
  have hsigned := (paired_log hpaired hweek).run config hkeep
  rw [(tells_run _ _ htimes).valid_iff, hcookie, run_append]
  exact hsigned

theorem bootstrap_lasts :
    ((empty.run id tablet ([] ++ pairing :: [.restart])).serve id tablet
      (fromTablet "GET" "/api/bootstrap" "a=b; galaxy_session=abc; c=d" .undefined)
      ⟨86400000, 86400000, none, "", []⟩).2 = .handled :=
  session_lasts id tablet [] [.restart] _ _ ⟨5, 6, some "code", "abc", []⟩ _
    ["a=b".toList] ["c=d".toList] (by decide) (by simp [wordSign]) (by simp [Keeps]) (by decide)
    (by
      intro text ht
      obtain rfl := List.mem_singleton.mp ht
      exact ⟨by decide, by decide, by simp [isWhiteSpace]⟩)
    (by decide) (by decide) (by decide)

end ForgeOS.Galaxy.Auth
