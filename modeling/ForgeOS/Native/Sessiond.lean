import Mathlib.Logic.Function.Basic
import ForgeOS.Library.CrashHoare
import ForgeOS.Native.Scan

/-! The session daemon: it starts the session script and the recovery script, one at a time, and
keeps a journal by which it knows after a crash whether to recover. Every system call is a step of
its own, so that a crash may come between any two of them. -/

namespace ForgeOS.Native.Sessiond

open ForgeOS.Library.CrashHoare

/-! ### The state -/

/-- What `state` points to. -/
inductive Status
  | idle
  | starting
  | running
  | stopping
  | recovering
  | failed
  deriving DecidableEq, Repr

def Status.word : Status → Bytes
  | .idle => ascii "IDLE"
  | .starting => ascii "STARTING"
  | .running => ascii "RUNNING"
  | .stopping => ascii "STOPPING"
  | .recovering => ascii "RECOVERING"
  | .failed => ascii "FAILED"

/-- The variables of the daemon, which a crash loses. -/
structure Memory where
  state : Status
  lastExit : ℕ
  child : Option ℕ
  recoveryChild : Bool
  childTicks : ℕ
  deriving DecidableEq, Repr

/-- `static const char *state = "IDLE"` and zeros. -/
def Memory.initial : Memory where
  state := .idle
  lastExit := 0
  child := none
  recoveryChild := false
  childTicks := 0

/-- The files that `atomic_write` replaces. -/
inductive File
  | journal
  | homeUrl
  deriving DecidableEq, Repr

/-- The child behind `fork`: which script it is for, whether it has been let through the gate, and
how it has ended. -/
structure Proc where
  recovery : Bool
  released : Bool
  exited : Option ℕ
  deriving DecidableEq, Repr

/-- The daemon and what lies around it. The last two fields are read by no step: whether a session
script has been let go since a recovery script last ended with status 0, and whether a start-up has
taken a journal that it could not read for none, without a lock in its way. -/
structure State where
  files : File → Option Bytes
  staging : File → Option Bytes
  mem : Memory
  proc : Option Proc
  lock : Bool
  ready : Bool
  dirty : Bool
  misread : Bool

/-- What the system answers a call with: whether it succeeds, and a number or a text that comes
with it. -/
structure Answer where
  ok : Bool
  number : ℕ
  text : Bytes
  deriving DecidableEq, Repr

abbrev Program := Prog State Answer

def ask : Program Bool := .act (fun s _ => s) fun _ a => a.ok

def look : Program Memory := .act (fun s _ => s) fun s _ => s.mem

def assign (f : Memory → Memory) : Program Unit :=
  .act (fun s _ => { s with mem := f s.mem }) fun _ _ => ()

/-! ### Files -/

/-- `open` with `O_EXCL`. -/
def openStaging (file : File) : Program Bool :=
  .act
    (fun s a =>
      if a.ok && (s.staging file).isNone then
        { s with staging := Function.update s.staging file (some []) }
      else s)
    fun s a => a.ok && (s.staging file).isNone

/-- `write`, `fchown`, `fchmod`, `fsync` and `close`, which leave what has been written. -/
def fill (file : File) (data : Bytes) : Program Bool :=
  .act
    (fun s a =>
      { s with
        staging := Function.update s.staging file
          (some (if a.ok then data else data.take a.number)) })
    fun _ a => a.ok

def rename (file : File) : Program Bool :=
  .act
    (fun s a =>
      if a.ok then
        { s with
          files := Function.update s.files file (s.staging file)
          staging := Function.update s.staging file none }
      else s)
    fun _ a => a.ok

def unlink (file : File) : Program Unit :=
  .act (fun s _ => { s with staging := Function.update s.staging file none }) fun _ _ => ()

/-- Behind the rename the directory is opened and brought to the disk. -/
def atomicWrite (file : File) (data : Bytes) : Program Bool := do
  if ← openStaging file then
    if ← (do if ← fill file data then rename file else pure false) then
      if ← ask then ask else pure false
    else
      unlink file
      pure false
  else pure false

/-- The line of the journal. -/
def stateLine (next : Status) (lastExit child ticks : ℕ) : Bytes :=
  next.word ++ 32 :: (decimal lastExit ++ 32 :: (decimal child ++ 32 :: (decimal ticks ++ [10])))

def saveState (next : Status) : Program Bool := do
  let mem ← look
  if ← atomicWrite .journal (stateLine next mem.lastExit (mem.child.getD 0) mem.childTicks) then
    assign fun mem => { mem with state := next }
    pure true
  else
    assign fun mem => { mem with state := .failed }
    pure false

/-! ### Children -/

def fork (recover : Bool) : Program (Option ℕ) :=
  .act
    (fun s a =>
      if a.ok then
        { s with proc := some { recovery := recover, released := false, exited := none } }
      else s)
    fun _ a => if a.ok then some a.number else none

/-- The child and its `start_ticks`, zero when `/proc` does not tell. -/
def noteChild (recover : Bool) (pid : ℕ) : Program ℕ :=
  .act
    (fun s a =>
      { s with
        mem :=
          { s.mem with
            child := some pid
            childTicks := a.number
            recoveryChild := recover } })
    fun _ a => a.number

/-- `write` of the letter that lets the child go on to its script. -/
def release (recover : Bool) : Program Bool :=
  .act
    (fun s a =>
      if a.ok then
        { s with
          proc := s.proc.map fun proc => { proc with released := true }
          dirty := s.dirty || !recover }
      else s)
    fun _ a => a.ok

/-- `waitpid` on a child that has been killed. -/
def abandon : Program Unit :=
  .act (fun s _ => { s with proc := none, mem := { s.mem with child := none } }) fun _ _ => ()

/-- The answers stand for the paths and the trusted script, for `pipe2`, and for the calls of the
steps by name. -/
def launch (recover : Bool) : Program Bool := do
  if ← ask then
    if ← saveState (if recover then .recovering else .starting) then
      if ← ask then
        match ← fork recover with
        | none => pure false
        | some pid =>
          let ticks ← noteChild recover pid
          let mem ← look
          if ← (if ticks = 0 then pure false
              else do if ← saveState mem.state then release recover else pure false) then
            pure true
          else
            abandon
            pure false
      else pure false
    else pure false
  else pure false

/-- `waitpid` with `WNOHANG`, as the code that the daemon makes of the status. -/
def waitChild : Program (Option ℕ) := .act (fun s _ => s) fun s _ => s.proc.bind Proc.exited

/-- `save_state` after a launch that has failed. -/
def launchOrFail (recover : Bool) : Program Unit := do
  if ← launch recover then pure ()
  else
    let _ ← saveState .failed
    pure ()

def reap : Program Unit := do
  let mem ← look
  if mem.child.isNone then pure ()
  else
    match ← waitChild with
    | none => pure ()
    | some code =>
      assign fun mem => { mem with child := none, childTicks := 0 }
      if mem.recoveryChild then
        assign fun mem => { mem with lastExit := if code = 0 then mem.lastExit else code }
        let _ ← saveState (if code = 0 then .idle else .failed)
        pure ()
      else
        assign fun mem => { mem with lastExit := code }
        launchOrFail true

/-! ### Requests -/

def isalnum (c : UInt8) : Bool := isdigit c || (65 ≤ c && c ≤ 90) || (97 ≤ c && c ≤ 122)

/-- What follows the scheme of a URL. -/
def hostPart (url : Bytes) : Option Bytes :=
  if ascii "https://" <+: url then some (url.drop 8)
  else if ascii "http://" <+: url then some (url.drop 7)
  else none

def homeUrl (url : Bytes) : Bool :=
  if url = ascii "-" then true
  else if 256 < url.length then false
  else
    match hostPart url with
    | none => false
    | some host =>
      match host.head? with
      | none => false
      | some first =>
        !(first ∈ ascii "/:.") &&
          url.all (fun c => 33 ≤ c && c ≤ 126 && !(c ∈ ascii "@?#\\\"'\x60")) &&
          (host.takeWhile (· != 47)).all fun c => isalnum c || c ∈ ascii ".-:[]"

/-- What stands in the file for a home page, or for none. -/
def homeValue (url : Bytes) : Bytes := (if url = ascii "-" then [] else url) ++ [10]

def replyStatus : Program Bytes := do
  let mem ← look
  pure (ascii "OK " ++ mem.state.word ++ 32 :: (decimal mem.lastExit ++ [10]))

def handleStart : Program Bytes := do
  let mem ← look
  if mem.state ≠ .idle ∨ mem.child.isSome then pure (ascii "ERR BUSY\n")
  else if ← launch false then replyStatus
  else
    assign fun mem => { mem with lastExit := 77 }
    let _ ← saveState .failed
    pure (ascii "ERR START_FAILED\n")

def handleStop : Program Bytes := do
  let mem ← look
  if mem.child.isSome then
    if !mem.recoveryChild && mem.state ≠ .stopping then
      if ← saveState .stopping then replyStatus else pure (ascii "ERR STATE_IO\n")
    else replyStatus
  else if mem.state ≠ .idle then
    launchOrFail true
    replyStatus
  else replyStatus

def handleHome (url : Bytes) : Program Bytes := do
  let mem ← look
  if mem.child.isSome ∨ mem.state ≠ .idle then pure (ascii "ERR BUSY\n")
  else if !homeUrl url then pure (ascii "ERR BAD_URL\n")
  else if ← ask then
    if ← atomicWrite .homeUrl (homeValue url) then
      pure (ascii "OK SAVED\n")
    else pure (ascii "ERR STATE_IO\n")
  else pure (ascii "ERR STATE_IO\n")

def handle (request : Bytes) : Program Bytes :=
  if request = ascii "STATUS" then replyStatus
  else if request = ascii "START" then handleStart
  else if request = ascii "STOP" then handleStop
  else if ascii "HOME " <+: request then handleHome (request.drop 5)
  else pure (ascii "ERR BAD_REQUEST\n")

/-- `FRAME` -/
def frame : ℕ := 512

/-- What `recv` has brought before the deadline. -/
def receive : Program Bytes := .act (fun s _ => s) fun _ a => a.text.take (frame - 1)

/-- The first answer is whether the peer is authorized. -/
def client : Program Bytes := do
  if ← ask then
    let input ← receive
    if input.getLast? = some 10 ∧ input.dropLast.all (fun c => 32 ≤ c && c ≤ 126) then
      handle input.dropLast
    else pure (ascii "ERR BAD_FRAME\n")
  else pure (ascii "ERR FORBIDDEN\n")

/-! ### The daemon -/

inductive Place
  | booting
  | serving
  | closing
  deriving DecidableEq, Repr

/-- `fgets` into a line of 160 bytes. -/
def firstLine (text : Bytes) : Bytes := (text.take 159).takeWhile (· != 10)

/-- `sscanf(line, "%31s", previous)` on an empty string. -/
def readWord (text : Bytes) : Bytes :=
  match scanWord 31 (firstLine text) with
  | some (word, _) => word
  | none => []

/-- `previous`, and whether there is a journal that could not be opened or read. -/
def readJournal : Program (Bytes × Bool) :=
  .act (fun s _ => s) fun s a =>
    match s.files .journal with
    | none => ([], false)
    | some text => if a.ok then (readWord text, false) else ([], true)

/-- `access` on the lock of the session script. -/
def lockFound (unread : Bool) : Program Bool :=
  .act (fun s a => { s with misread := s.misread || (unread && !(s.lock && a.ok)) })
    fun s a => s.lock && a.ok

/-- An unfinished journal is taken away if it can be trusted. -/
def discardStaging : Program Unit := do
  if ← ask then unlink .journal else pure ()

/-- `main` up to its loop. Where it returns, the daemon is started again. -/
def boot : Program Place := do
  if ← ask then
    discardStaging
    let (previous, unread) ← readJournal
    if (← lockFound unread) || (previous ≠ [] && previous ≠ Status.idle.word) then
      launchOrFail true
      pure .serving
    else if ← saveState .idle then pure .serving
    else pure .booting
  else pure .booting

/-- `trusted` on the file that the session script leaves when it is ready. -/
def readyFound : Program Bool := .act (fun s _ => s) fun s a => s.ready && a.ok

/-- The step of the loop from a session that starts to one that runs. -/
def noteReady : Program Unit := do
  let mem ← look
  if mem.child.isSome && !mem.recoveryChild && mem.state = .starting then
    if ← readyFound then
      let _ ← saveState .running
      pure ()
    else pure ()
  else pure ()

/-- One round of the loop: the answers are whether the daemon is to stop and whether a client is
there. A child that takes too long is killed, which shows in how it ends. -/
def turn : Program Place := do
  if ← ask then pure .closing
  else
    reap
    noteReady
    if ← ask then
      let _ ← client
      pure .serving
    else pure .serving

/-- One round of the loop behind the end of service. -/
def close : Program Place := do
  let mem ← look
  if mem.child.isNone then pure .booting
  else
    reap
    if ← ask then pure .booting else pure .closing

/-- What happens beside the daemon. -/
inductive World
  | exit (code : ℕ)
  | lock (present : Bool)
  | ready (present : Bool)
  deriving DecidableEq, Repr

/-- A child that waits at the gate does not end with status 0. -/
def World.happen : World → State → State
  | .exit code, s =>
    match s.proc with
    | some proc =>
      if proc.exited.isNone && (proc.released || code ≠ 0) then
        { s with
          proc := some { proc with exited := some code }
          dirty := s.dirty && !(proc.recovery && code = 0) }
      else s
    | none => s
  | .lock present, s => { s with lock := present }
  | .ready present, s => { s with ready := present }

/-- A new process over what is left on the disk; a child of the old one is no child of it. -/
def State.restart (s : State) : State := { s with mem := .initial, proc := none }

def daemon : Machine State Answer World Place where
  boot := .booting
  program
    | .booting => boot
    | .serving => turn
    | .closing => close
  enter place s := if place = .booting then s.restart else s
  world := World.happen
  restart := State.restart

/-- An installation on which nothing has run. -/
def installed : State where
  files := fun _ => none
  staging := fun _ => none
  mem := .initial
  proc := none
  lock := false
  ready := false
  dirty := false
  misread := false

end ForgeOS.Native.Sessiond
