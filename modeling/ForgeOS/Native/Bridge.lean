import Mathlib.Data.List.FinRange
import Mathlib.Logic.Function.Basic
import ForgeOS.Native.MusicView

/-! The music bridge: a worker thread that talks to the player in the browser, and a main loop that
serves up to eight clients. They share a session under a lock; every section between taking and
releasing the lock is one step here, and so is what the worker does between two of them. -/

namespace ForgeOS.Native.Music

/-! ### Requests -/

inductive Action
  | play
  | pause
  | next
  | rewind
  | volume (percent : ℕ)
  deriving DecidableEq, Repr

inductive Request
  | invalid
  | get
  | act (rev : UInt64) (action : Action)
  deriving DecidableEq, Repr

/-- The pieces between blanks that `strtok_r` finds. -/
def tokens (text : Bytes) : List Bytes := (text.splitOn 32).filter (· ≠ [])

def readAction (action : Bytes) (value : Option Bytes) : Option Action :=
  if action = ascii "VOLUME" then (value.bind fun text => number text 100).map .volume
  else if value.isSome then none
  else if action = ascii "PLAY" then some .play
  else if action = ascii "PAUSE" then some .pause
  else if action = ascii "NEXT" then some .next
  else if action = ascii "REWIND" then some .rewind
  else none

/-- What `handle` reads a complete input as. -/
def request (input : Bytes) : Request :=
  if input.getLast? ≠ some 10 ∨ 0 ∈ input ∨ 10 ∈ input.dropLast then .invalid
  else if input.dropLast = ascii "GET" then .get
  else
    match tokens input.dropLast with
    | doWord :: revision :: action :: more =>
      if doWord = ascii "DO" ∧ more.length ≤ 1 then
        match number revision (2 ^ 64 - 1), readAction action more.head? with
        | some rev, some action => .act (.ofNat rev) action
        | _, _ => .invalid
      else .invalid
    | _ => .invalid

/-! ### The session -/

/-- `s->action` and `s->volume`, with the number of the request that set them. The code has no such
numbers; no step depends on them. -/
structure Command where
  ticket : ℕ
  action : Action
  deriving DecidableEq, Repr

/-- `struct session`. The last two fields number the requests that have been accepted and say which
one the outcome belongs to; like the number of a command they are read by no step. -/
structure Session where
  view : View
  busy : Bool
  processing : Bool
  done : Bool
  command : Command
  outcome : Bool
  outcomeObserved : Bool
  accepted : ℕ
  outcomeOf : ℕ
  deriving DecidableEq, Repr

inductive Body
  | snapshot (kind : ReplyKind) (view : View)
  | error (message : String)
  deriving DecidableEq, Repr

/-- What stands in the output of a client, with the request that it is the outcome of. -/
structure Reply where
  body : Body
  outcomeOf : Option ℕ
  deriving DecidableEq, Repr

def Reply.text (reply : Reply) : Bytes :=
  match reply.body with
  | .snapshot kind view => stateReply kind view
  | .error message => ascii ("ERR " ++ message ++ "\n")

/-- `struct client` without its deadline. A connection has a number of its own, where the code has
a descriptor that the system uses again. -/
structure Client where
  conn : Option ℕ
  input : Bytes
  reply : Option Reply
  sent : ℕ
  pending : Bool
  deriving DecidableEq, Repr

/-- `CLIENTS` -/
def clientCount : ℕ := 8

/-- `sizeof c->input` -/
def inputSize : ℕ := 192

/-- What the bridge has done so far, kept to speak about runs. -/
inductive Entry
  | accepted (ticket conn : ℕ) (named : UInt64) (view : View) (action : Action)
  | dispatched (ticket : ℕ) (action : Action)
  | replied (conn : ℕ) (reply : Reply)
  | finished (ticket : ℕ)
  | sent (conn : ℕ) (reply : Reply)
  deriving DecidableEq, Repr

/-! ### The worker -/

/-- What a cycle of the worker has found: `result`, `observed` and `fresh`. -/
structure Cycle where
  succeeded : Bool
  observed : Bool
  fresh : View
  deriving DecidableEq, Repr

/-- `struct view fresh = {0}` -/
def noView : View where
  rev := 0
  pos := 0
  playing := 0
  volume := 0
  connected := false
  title := []
  artist := []
  output := []
  status := []
  videoId := []

def Cycle.failed : Cycle := { succeeded := false, observed := false, fresh := noView }

inductive Worker
  | waiting
  /-- With the command it has picked, if this is not a mere look at the player. -/
  | picked (command : Option Command)
  | finished (command : Option Command) (cycle : Cycle)
  deriving DecidableEq, Repr

/-- How the calls of `evaluate` end in one cycle, and whether it is time for a look. -/
structure Io where
  due : Bool
  activate : Bool
  before : Option Bytes
  dispatch : Option Bytes
  after : List (Option Bytes)

def readState (raw : Option Bytes) : Option View := raw.bind readView

def actionMatches (action : Action) (expectedId : Bytes) (v : View) : Bool :=
  match action with
  | .play => v.playing ≠ 0 && v.status ≠ ascii "STREAM_LIMIT" && v.status ≠ ascii "PLAYER_ERROR"
  | .pause => v.playing = 0
  | .rewind => v.playing = 0 && v.pos ≤ 48000
  | .volume percent => v.volume = percent
  | .next => expectedId ≠ [] && v.videoId = expectedId

/-- The end of `do_action`, with the name of the video that comes next. -/
def doAction (action : Action) (response : Option Bytes) : Option Bytes :=
  match response with
  | none => none
  | some response =>
    if action = .next then
      if response.length = 11 ∧ response.all nameChar then some response else none
    else if response = ascii "ok" then some [] else none

/-- The polls that confirm an action, until the deadline. -/
def confirm (action : Action) (expectedId : Bytes) (fresh : View) : List (Option Bytes) → Cycle
  | [] => { succeeded := false, observed := true, fresh }
  | raw :: later =>
    match readState raw with
    | none => confirm action expectedId fresh later
    | some after =>
      if actionMatches action expectedId after then
        { succeeded := true, observed := true, fresh := after }
      else if after.status = ascii "STREAM_LIMIT" ∨ after.status = ascii "PLAYER_ERROR" then
        { succeeded := false, observed := true, fresh := after }
      else confirm action expectedId after later

/-- The policy of the player has the last word on these. -/
def refused (action : Action) (v : View) : Bool :=
  (action = .play || action = .next) && v.status = ascii "STREAM_LIMIT"

/-- A cycle with a command, and whether the command was sent to the browser. -/
def actionCycle (action : Action) (io : Io) : Cycle × Bool :=
  match readState io.before with
  | none => (.failed, false)
  | some fresh =>
    if refused action fresh then ({ succeeded := false, observed := true, fresh }, false)
    else
      match doAction action io.dispatch with
      | none => ({ succeeded := false, observed := true, fresh }, true)
      | some expectedId => (confirm action expectedId fresh io.after, true)

def readCycle (io : Io) : Cycle :=
  match readState io.before with
  | none => .failed
  | some fresh => { succeeded := true, observed := true, fresh }

/-- What the worker does between its two locked sections, once the page is in front. -/
def runCycle (command : Option Command) (io : Io) : Cycle × List Entry :=
  match command with
  | none => (readCycle io, [])
  | some command =>
    match actionCycle command.action io with
    | (cycle, true) => (cycle, [.dispatched command.ticket command.action])
    | (cycle, false) => (cycle, [])

/-- The first locked section. -/
def pick (due : Bool) (s : Session) : Session × Worker :=
  if s.busy && !s.processing then ({ s with processing := true }, .picked (some s.command))
  else if due then (s, .picked none)
  else (s, .waiting)

/-- What a revision stands for. -/
structure Shown where
  connected : Bool
  playing : ℕ
  volume : ℕ
  title : Bytes
  artist : Bytes
  output : Bytes
  status : Bytes
  deriving DecidableEq, Repr

def View.shown (v : View) : Shown where
  connected := v.connected
  playing := v.playing
  volume := v.volume
  title := v.title
  artist := v.artist
  output := v.output
  status := v.status

/-- `changed` -/
def changed (old fresh : View) : Bool :=
  !old.connected || old.playing != fresh.playing || old.volume != fresh.volume ||
    old.title != fresh.title || old.artist != fresh.artist || old.output != fresh.output ||
    old.status != fresh.status

/-- The view that the second locked section leaves. -/
def nextView (action : Bool) (cycle : Cycle) (old : View) : View :=
  if cycle.succeeded || (action && cycle.observed) then
    { cycle.fresh with rev := old.rev + if !action && changed old cycle.fresh then 1 else 0 }
  else { old with rev := old.rev + (if old.connected && !action then 1 else 0), connected := false }

/-- The second locked section. -/
def publish (command : Option Command) (cycle : Cycle) (s : Session) : Session :=
  let s := { s with view := nextView command.isSome cycle s.view }
  match command with
  | none => s
  | some command =>
    { s with
      done := true
      outcome := cycle.succeeded
      outcomeObserved := cycle.observed
      outcomeOf := command.ticket }

/-! ### The clients -/

def errorReply (message : String) : Reply := { body := .error message, outcomeOf := none }

def snapshotReply (kind : ReplyKind) (view : View) : Reply :=
  { body := .snapshot kind view, outcomeOf := none }

/-- What accepting a request does to the session. -/
def Session.accept (s : Session) (action : Action) : Session :=
  { s with
    view := { s.view with rev := s.view.rev + 1 }
    busy := true
    processing := false
    done := false
    outcomeObserved := false
    command := { ticket := s.accepted, action }
    accepted := s.accepted + 1 }

/-- `handle`: an immediate reply, or none for a request that has been accepted. -/
def handle (conn : ℕ) (input : Bytes) (s : Session) : Session × Option Reply × List Entry :=
  match request input with
  | .invalid => (s, some (errorReply "invalid command"), [])
  | .get => (s, some (snapshotReply .ok s.view), [])
  | .act rev action =>
    if rev ≠ s.view.rev then (s, some (snapshotReply .stale s.view), [])
    else if s.busy then (s, some (errorReply "busy"), [])
    else if !s.view.connected then (s, some (errorReply "browser unavailable"), [])
    else (s.accept action, none, [.accepted s.accepted conn rev s.view action])

/-- What every client that waits is told of an action. -/
def outcomeReply (s : Session) : Reply where
  body :=
    if s.outcome then .snapshot .ok s.view
    else if s.outcomeObserved then .snapshot .failed s.view
    else .error "confirmation unavailable"
  outcomeOf := some s.outcomeOf

/-- The completion step on one client. -/
def Client.deliver (s : Session) (c : Client) : Client :=
  if c.conn.isSome && c.pending then
    { c with reply := some (outcomeReply s), pending := false }
  else c

def Client.closed (c : Client) : Client := { c with conn := none }

def Client.opened (conn : ℕ) : Client :=
  { conn := some conn, input := [], reply := none, sent := 0, pending := false }

/-- What `poll` has found for a client, and how the call that follows ends. -/
inductive Poll
  | quiet
  | hangup
  | bytes (chunk : Bytes)
  | readAgain
  /-- `recv` has failed or found the end. -/
  | readEnd
  | written (n : ℕ)
  | writeAgain
  | writeFailed
  deriving DecidableEq, Repr

/-- The input of a client after `recv`, with what comes of it. -/
def receive (conn : ℕ) (chunk : Bytes) (c : Client) (s : Session) :
    Client × Session × List Entry :=
  let chunk := chunk.take (inputSize - 1 - c.input.length)
  let input := c.input ++ chunk
  if chunk = [] then (c.closed, s, [])
  else if 10 ∈ input then
    match handle conn input s with
    | (s, some reply, log) =>
      ({ c with input, reply := some reply }, s, log ++ [.replied conn reply])
    | (s, none, log) => ({ c with input, pending := true }, s, log)
  else if input.length = inputSize - 1 then
    ({ c with input, reply := some (errorReply "command too long") }, s,
      [.replied conn (errorReply "command too long")])
  else ({ c with input }, s, [])

/-- The output of a client after `send`, which is asked for what has not been sent. -/
def transmit (conn : ℕ) (reply : Reply) (n : ℕ) (c : Client) : Client × List Entry :=
  let sent := c.sent + min n (reply.text.length - c.sent)
  let log := if c.sent < sent then [.sent conn reply] else []
  if sent = reply.text.length then ({ c with sent }.closed, log) else ({ c with sent }, log)

/-- One client in a round of the main loop. -/
def serve (conn : ℕ) (poll : Poll) (c : Client) (s : Session) : Client × Session × List Entry :=
  match poll, c.reply with
  | .hangup, _ => (c.closed, s, [])
  | .bytes chunk, none => if c.pending then (c, s, []) else receive conn chunk c s
  | .readEnd, none => if c.pending then (c, s, []) else (c.closed, s, [])
  | .written n, some reply =>
    match transmit conn reply n c with
    | (c, log) => (c, s, log)
  | .writeFailed, some _ => (c.closed, s, [])
  | _, _ => (c, s, [])

/-! ### The main loop -/

inductive Place
  | accepting
  | completing
  | serving (i : Fin clientCount)
  deriving DecidableEq, Repr

structure State where
  session : Session
  worker : Worker
  activated : Bool
  place : Place
  clients : Fin clientCount → Client
  connections : ℕ
  log : List Entry

/-- What the system brings to a step of the main loop: a connection that waits, what has become of
a client, and whether the deadline of that client has passed. -/
structure MainIo where
  arrives : Bool
  poll : Poll
  late : Bool

/-- The first free slot takes the connection; without one it is closed. -/
def acceptClient (s : State) : State :=
  match (List.finRange clientCount).find? fun i => (s.clients i).conn.isNone with
  | none => { s with connections := s.connections + 1 }
  | some i =>
    { s with
      clients := Function.update s.clients i (.opened s.connections)
      connections := s.connections + 1 }

/-- The replies of the completion step. -/
def deliveries (s : State) : List Entry :=
  (List.finRange clientCount).filterMap fun i =>
    if (s.clients i).pending then (s.clients i).conn.map fun conn =>
      .replied conn (outcomeReply s.session)
    else none

def complete (s : State) : State :=
  if s.session.done then
    { s with
      session := { s.session with busy := false, processing := false, done := false }
      clients := fun i => (s.clients i).deliver s.session
      log := s.log ++ (deliveries s ++ [.finished s.session.outcomeOf]) }
  else s

def serveClient (i : Fin clientCount) (io : MainIo) (s : State) : State :=
  match (s.clients i).conn with
  | none => s
  | some conn =>
    match serve conn io.poll (s.clients i) s.session with
    | (c, session, log) =>
      { s with
        session
        clients := Function.update s.clients i (if io.late then c.closed else c)
        log := s.log ++ log }

def Place.next : Place → Place
  | .accepting => .completing
  | .completing => .serving ⟨0, by decide⟩
  | .serving i => if h : i + 1 < clientCount then .serving ⟨i + 1, h⟩ else .accepting

def mainStep (io : MainIo) (s : State) : State :=
  let t :=
    match s.place with
    | .accepting => if io.arrives then acceptClient s else s
    | .completing => complete s
    | .serving i => serveClient i io s
  { t with place := s.place.next }

def workerStep (io : Io) (s : State) : State :=
  match s.worker with
  | .waiting =>
    match pick io.due s.session with
    | (session, worker) => { s with session, worker }
  | .picked command =>
    if s.activated || io.activate then
      match runCycle command io with
      | (cycle, log) =>
        { s with
          activated := true
          worker := .finished command cycle
          log := s.log ++ log }
    else { s with worker := .finished command .failed }
  | .finished command cycle =>
    { s with session := publish command cycle s.session, worker := .waiting }

inductive Input
  | worker (io : Io)
  | main (io : MainIo)

def step (s : State) : Input → State
  | .worker io => workerStep io s
  | .main io => mainStep io s

/-- `s.view.rev &= UINT64_MAX >> 1`, and never zero. -/
def firstRevision (random : UInt64) : UInt64 :=
  if random &&& 0x7fffffffffffffff = 0 then 1 else random &&& 0x7fffffffffffffff

/-- What `main` sets up, with the random number that it has drawn. -/
def initial (random : UInt64) : State where
  session :=
    { view :=
        { noView with
          rev := firstRevision random
          volume := 35
          title := ascii "SELECT A TRACK"
          artist := ascii "YOUTUBE MUSIC"
          status := ascii "READY" }
      busy := false
      processing := false
      done := false
      command := { ticket := 0, action := .play }
      outcome := true
      outcomeObserved := false
      accepted := 0
      outcomeOf := 0 }
  worker := .waiting
  activated := false
  place := .accepting
  clients := fun _ => { conn := none, input := [], reply := none, sent := 0, pending := false }
  connections := 0
  log := []

def run (s : State) (inputs : List Input) : State := inputs.foldl step s

end ForgeOS.Native.Music
