import ForgeOS.Flash.BuildResolver
import ForgeOS.Learning.RetryPlanner
import ForgeOS.Library.Trace
import ForgeOS.Runtime.Host
import ForgeOS.Session.StateFile

/-! The directory of a session and the operations of `SessionManager` on it. An
operation loads the whole record, changes its copy and writes the copy back, so a
copy that is out of date would undo what was written since. A program is seen
through its events: a move that the table may refuse, an update beside the
journal, a write to another file of the directory, the start of a program. -/

namespace ForgeOS.Session

open ForgeOS.Flash ForgeOS.Learning ForgeOS.Library.Journal ForgeOS.Library.Trace ForgeOS.Runtime

/-- The files of a session directory. A new session has the profile and the goals that the
records have by default, so nothing is attested in it. -/
structure SessionDir where
  name : String
  profile : DeviceProfile
  file : StateFile
  approval : DestructiveApproval
  userProfile : BuildProfile := { targetUseCase := "lightweight_custom_android" }
  osGoals : BuildGoals := {}
  /-- The verdicts of the experiments, in order. -/
  experiments : List Verdict := []
  flashPlan : Option FlashPlan := none
  backupPlanExists : Bool := false
  deriving DecidableEq, Repr

/-- What the orchestrator works on: a session directory, the clock with the number
of times it was read, and the programs started so far. -/
structure RuntimeState where
  dir : SessionDir
  clock : ℕ → String
  ticks : ℕ := 0
  launched : List Launch := []

abbrev RuntimeM : Type → Type := StateM RuntimeState

/-- The persisted state of the session. -/
def RuntimeState.current (r : RuntimeState) : SessionState := r.dir.file.current

/-! ### Operations -/

/-- `utc_now` -/
def utcNow : RuntimeM String :=
  modifyGet fun r => (r.clock r.ticks, { r with ticks := r.ticks + 1 })

def loadSessionState : RuntimeM SessionState := do
  let r ← get
  return r.current

def writeSessionState (state : SessionState) : RuntimeM Unit := do
  let now ← utcNow
  modify fun r =>
    { r with dir := { r.dir with file := r.dir.file.write { state with updatedAt := now } } }

/-- The other records of the directory, as a cycle finds them. -/
def loadSessionDir : RuntimeM SessionDir := do
  let r ← get
  return r.dir

def loadDeviceProfile : RuntimeM DeviceProfile := do
  let r ← get
  return r.dir.profile

def writeDeviceProfile (profile : DeviceProfile) : RuntimeM Unit :=
  modify fun r => { r with dir := { r.dir with profile } }

/-- `ValueError(f"Illegal transition {state.state} -> {target}")` -/
structure IllegalTransition where
  state : SessionStateName
  target : SessionStateName
  deriving DecidableEq, Repr

/-- `SessionManager.transition` -/
def transition (target : SessionStateName) (reason : String) :
    RuntimeM (Except IllegalTransition SessionState) := do
  let state ← loadSessionState
  if isTransitionAllowed state.state target then do
    let timestamp ← utcNow
    let record : TransitionRecord := ⟨state.state, target, reason, timestamp⟩
    let state := { state with history := state.history ++ [record], state := target }
    writeSessionState state
    return .ok state
  else return .error ⟨state.state, target⟩

/-- `SessionManager.annotate` -/
def annotate (note : String) : RuntimeM Unit := do
  let state ← loadSessionState
  writeSessionState { state with notes := state.notes ++ [note] }

/-- `ForgeOrchestrator._safe_transition` -/
def safeTransition (target : SessionStateName) (reason : String) : RuntimeM Unit := do
  let state ← loadSessionState
  if isTransitionAllowed state.state target then do
    let _ ← transition target reason
  else return ()

/-- Load the record, change fields of it, write it back. -/
def updateSessionState (change : SessionState → SessionState) : RuntimeM Unit := do
  let state ← loadSessionState
  writeSessionState (change state)

/-- Start programs, one after the other. -/
def launch (ls : List Launch) : RuntimeM Unit :=
  modify fun r => { r with launched := r.launched ++ ls }

/-! ### Events -/

inductive Act
  | move (target : SessionStateName)
  | update
  | files
  | start (l : Launch)
  deriving DecidableEq, Repr

/-- The write records a move to the target. -/
def Moved (f : StateFile) (target : SessionStateName) (f' : StateFile) : Prop :=
  ∃ (s : SessionState) (r : TransitionRecord), r.fromState = f.current.state ∧ r.toState = target ∧
    s.state = target ∧ s.history = f.current.history ++ [r] ∧ f' = f.write s

/-- The write keeps the state and the history. -/
def Updated (f f' : StateFile) : Prop :=
  ∃ s : SessionState, s.state = f.current.state ∧ s.history = f.current.history ∧ f' = f.write s

/-- What an event does to the state file and to the list of programs. -/
def Act.Step : Act → RuntimeState → RuntimeState → Prop
  | move target, r, r' =>
    r'.launched = r.launched ∧
      if isTransitionAllowed r.current.state target then Moved r.dir.file target r'.dir.file
      else r'.dir.file = r.dir.file
  | update, r, r' => r'.launched = r.launched ∧ Updated r.dir.file r'.dir.file
  | files, r, r' => r'.launched = r.launched ∧ r'.dir.file = r.dir.file
  | start l, r, r' => r'.launched = r.launched ++ [l] ∧ r'.dir.file = r.dir.file

/-- The moves that are tried. -/
def movesOf : List Act → List SessionStateName :=
  List.filterMap fun a => match a with
    | .move t => some t
    | _ => none

/-- The programs that are started. -/
def launchesOf : List Act → List Launch :=
  List.filterMap fun a => match a with
    | .start l => some l
    | _ => none

@[simp] theorem movesOf_append (as bs : List Act) : movesOf (as ++ bs) = movesOf as ++ movesOf bs :=
  List.filterMap_append

@[simp] theorem launchesOf_append (as bs : List Act) :
    launchesOf (as ++ bs) = launchesOf as ++ launchesOf bs := List.filterMap_append

@[simp] theorem movesOf_starts (ls : List Launch) : movesOf (ls.map Act.start) = [] := by
  induction ls with
  | nil => rfl
  | cons l ls ih => exact ih

@[simp] theorem launchesOf_starts (ls : List Launch) : launchesOf (ls.map Act.start) = ls := by
  induction ls with
  | nil => rfl
  | cons l ls ih => exact congrArg (l :: ·) ih

/-! ### What a run of events does -/

variable {r r' : RuntimeState} {as : List Act}

theorem Act.Step.file {a : Act} (h : a.Step r r') : r.dir.file.Steps r'.dir.file := by
  cases a with
  | move target =>
    obtain ⟨-, h⟩ := h
    split_ifs at h with hallowed
    · obtain ⟨s, record, hfrom, rfl, hstate, hhistory, hfile⟩ := h
      rw [hfile]
      exact .single (.move hfrom hallowed hstate hhistory)
    · rw [h]
  | update =>
    obtain ⟨-, s, hstate, hhistory, hfile⟩ := h
    rw [hfile]
    exact .single (.fields hstate hhistory)
  | files => rw [h.2]
  | start l => rw [h.2]

/-- A run of events is a run of allowed writes. -/
theorem file_steps (h : Run Act.Step as r r') : r.dir.file.Steps r'.dir.file := by
  induction h with
  | nil => exact .refl
  | cons head _ ih => exact (Act.Step.file head).trans ih

theorem launched_eq (h : Run Act.Step as r r') : r'.launched = r.launched ++ launchesOf as := by
  induction h with
  | nil => simp [launchesOf]
  | @cons a as r s t head _ ih =>
    have hhead : s.launched = r.launched ++ launchesOf [a] := by
      cases a with
      | start l => exact head.1
      | _ => simpa [launchesOf] using head.1
    have hcons : launchesOf (a :: as) = launchesOf [a] ++ launchesOf as := launchesOf_append [a] as
    rw [ih, hhead, hcons, List.append_assoc]

theorem Act.Step.state {a : Act} (h : a.Step r r') :
    r'.current.state = tryMoves isTransitionAllowed r.current.state (movesOf [a]) := by
  cases a with
  | move target =>
    obtain ⟨-, h⟩ := h
    show r'.current.state = tryMove isTransitionAllowed r.current.state target
    split_ifs at h with hallowed
    · obtain ⟨s, record, -, -, hstate, -, hfile⟩ := h
      rw [tryMove_of_allowed hallowed, RuntimeState.current, hfile]
      exact hstate
    · rw [tryMove_of_not (Bool.eq_false_iff.mpr hallowed), RuntimeState.current, h,
        RuntimeState.current]
  | update =>
    obtain ⟨-, s, hstate, -, hfile⟩ := h
    rw [RuntimeState.current, hfile]
    exact hstate
  | files => rw [RuntimeState.current, h.2]; rfl
  | start l => rw [RuntimeState.current, h.2]; rfl

/-- The state behind a run of events is where the moves lead. -/
theorem state_eq (h : Run Act.Step as r r') :
    r'.current.state = tryMoves isTransitionAllowed r.current.state (movesOf as) := by
  induction h with
  | nil => rfl
  | @cons a as _ _ _ head _ ih =>
    have hcons : movesOf (a :: as) = movesOf [a] ++ movesOf as := movesOf_append [a] as
    rw [ih, head.state, hcons, tryMoves_append]

/-- Where the records of a history lead from and to. -/
def edges (history : List TransitionRecord) : List (SessionStateName × SessionStateName) :=
  history.map fun r => (r.fromState, r.toState)

theorem Act.Step.recorded {a : Act} (h : a.Step r r') :
    edges r'.current.history =
      edges r.current.history ++ madeMoves isTransitionAllowed r.current.state (movesOf [a]) := by
  cases a with
  | move target =>
    obtain ⟨-, h⟩ := h
    show edges r'.current.history = edges r.current.history ++
      ((if isTransitionAllowed r.current.state target then [(r.current.state, target)] else []) ++ [])
    split_ifs at h ⊢ with hallowed
    · obtain ⟨s, record, hfrom, hto, -, hhistory, hfile⟩ := h
      rw [RuntimeState.current, hfile]
      show edges s.history = _
      rw [hhistory, edges, List.map_append, List.map_singleton, hfrom, hto]
      rfl
    · rw [RuntimeState.current, h]
      simp [RuntimeState.current]
  | update =>
    obtain ⟨-, s, -, hhistory, hfile⟩ := h
    rw [RuntimeState.current, hfile]
    show edges s.history = edges r.dir.file.current.history ++ []
    rw [hhistory, List.append_nil]
  | files => rw [RuntimeState.current, h.2, ← RuntimeState.current]; exact (List.append_nil _).symm
  | start l => rw [RuntimeState.current, h.2, ← RuntimeState.current]; exact (List.append_nil _).symm

/-- The history grows by the moves that the table allows. -/
theorem edges_eq (h : Run Act.Step as r r') :
    edges r'.current.history =
      edges r.current.history ++ madeMoves isTransitionAllowed r.current.state (movesOf as) := by
  induction h with
  | nil => exact (List.append_nil _).symm
  | @cons a as _ _ _ head _ ih =>
    have hcons : movesOf (a :: as) = movesOf [a] ++ movesOf as := movesOf_append [a] as
    rw [ih, head.recorded, head.state, hcons, madeMoves_append, List.append_assoc]

/-! ### The operations cause their events -/

@[simp] theorem answer_load (r : RuntimeState) : answer loadSessionState r = r.current := rfl

@[simp] theorem final_load (r : RuntimeState) : final loadSessionState r = r := rfl

@[simp] theorem answer_loadProfile (r : RuntimeState) :
    answer loadDeviceProfile r = r.dir.profile := rfl

@[simp] theorem final_loadProfile (r : RuntimeState) : final loadDeviceProfile r = r := rfl

theorem causes_load (r : RuntimeState) : Causes Act.Step loadSessionState r [] := .nil r

theorem causes_loadProfile (r : RuntimeState) : Causes Act.Step loadDeviceProfile r [] := .nil r

theorem causes_writeProfile (profile : DeviceProfile) (r : RuntimeState) :
    Causes Act.Step (writeDeviceProfile profile) r [.files] := .single ⟨rfl, rfl⟩

/-- Writing back a copy of the current record with other fields is an update. -/
theorem causes_write {s : SessionState} {r : RuntimeState} (hstate : s.state = r.current.state)
    (hhistory : s.history = r.current.history) :
    Causes Act.Step (writeSessionState s) r [.update] :=
  .single ⟨rfl, { s with updatedAt := r.clock r.ticks }, hstate, hhistory, rfl⟩

theorem causes_update {change : SessionState → SessionState}
    (hstate : ∀ s, (change s).state = s.state) (hhistory : ∀ s, (change s).history = s.history)
    (r : RuntimeState) : Causes Act.Step (updateSessionState change) r [.update] :=
  (causes_load r).bind (causes_write (hstate _) (hhistory _))

theorem causes_annotate (note : String) (r : RuntimeState) :
    Causes Act.Step (annotate note) r [.update] :=
  (causes_load r).bind (causes_write rfl rfl)

theorem causes_transition (target : SessionStateName) (reason : String) (r : RuntimeState) :
    Causes Act.Step (transition target reason) r [.move target] := by
  by_cases hallowed : isTransitionAllowed r.current.state target = true
  · have hfinal : final (transition target reason) r =
        final (writeSessionState
          { r.current with
            history := r.current.history ++ [⟨r.current.state, target, reason, r.clock r.ticks⟩]
            state := target }) { r with ticks := r.ticks + 1 } := by
      show final (if isTransitionAllowed r.current.state target then _ else _) r = _
      rw [if_pos hallowed]
      rfl
    rw [Causes, hfinal]
    refine .single ⟨rfl, ?_⟩
    rw [if_pos hallowed]
    exact ⟨_, ⟨r.current.state, target, reason, r.clock r.ticks⟩, rfl, rfl, rfl, rfl, rfl⟩
  · have hfinal : final (transition target reason) r = r := by
      show final (if isTransitionAllowed r.current.state target then _ else _) r = _
      rw [if_neg hallowed]
      rfl
    rw [Causes, hfinal]
    refine .single ⟨rfl, ?_⟩
    rw [if_neg hallowed]

theorem causes_safeTransition (target : SessionStateName) (reason : String) (r : RuntimeState) :
    Causes Act.Step (safeTransition target reason) r [.move target] := by
  by_cases hallowed : isTransitionAllowed r.current.state target = true
  · have hfinal : final (safeTransition target reason) r = final (transition target reason) r := by
      show final (if isTransitionAllowed r.current.state target then _ else _) r = _
      rw [if_pos hallowed]
      rfl
    rw [Causes, hfinal]
    exact causes_transition target reason r
  · have hfinal : final (safeTransition target reason) r = r := by
      show final (if isTransitionAllowed r.current.state target then _ else _) r = _
      rw [if_neg hallowed]
      rfl
    rw [Causes, hfinal]
    refine .single ⟨rfl, ?_⟩
    rw [if_neg hallowed]

theorem causes_launch (ls : List Launch) (r : RuntimeState) :
    Causes Act.Step (launch ls) r (ls.map .start) := by
  have hrun : ∀ (ls : List Launch) (r : RuntimeState),
      Run Act.Step (ls.map .start) r { r with launched := r.launched ++ ls } := by
    intro ls
    induction ls with
    | nil =>
      intro r
      simpa using Run.nil r
    | cons l ls ih =>
      intro r
      have htail := ih { r with launched := r.launched ++ [l] }
      simp only [List.append_assoc, List.singleton_append] at htail
      exact .cons (t := { r with launched := r.launched ++ [l] }) ⟨rfl, rfl⟩ htail
  exact hrun ls r

/-! ### Moves and launches of a program -/

/-- Started in a state, the program tries these moves and starts these programs. -/
def Does {α : Type} (m : RuntimeM α) (r : RuntimeState) (ts : List SessionStateName)
    (ls : List Launch) : Prop :=
  ∃ as, Causes Act.Step m r as ∧ movesOf as = ts ∧ launchesOf as = ls

section Does

variable {α β : Type} {m : RuntimeM α} {k : α → RuntimeM β} {ts us : List SessionStateName}
  {ls ms : List Launch}

theorem Does.bind (hm : Does m r ts ls) (hk : Does (k (answer m r)) (final m r) us ms) :
    Does (m >>= k) r (ts ++ us) (ls ++ ms) := by
  obtain ⟨as, has, rfl, rfl⟩ := hm
  obtain ⟨bs, hbs, rfl, rfl⟩ := hk
  exact ⟨as ++ bs, has.bind hbs, movesOf_append as bs, launchesOf_append as bs⟩

theorem Does.of_eq (hm : Does m r ts ls) (hts : ts = us) (hls : ls = ms) : Does m r us ms := by
  rw [← hts, ← hls]
  exact hm

/-- Whatever the start, the program tries these moves and starts these programs. -/
def Always {α : Type} (m : RuntimeM α) (ts : List SessionStateName) (ls : List Launch) : Prop :=
  ∀ r, Does m r ts ls

theorem Always.bind (hm : Always m ts ls) (hk : ∀ a, Always (k a) us ms) :
    Always (m >>= k) (ts ++ us) (ls ++ ms) := fun r => (hm r).bind (hk _ _)

theorem Does.steps (hm : Does m r ts ls) : r.dir.file.Steps (final m r).dir.file := by
  obtain ⟨as, has, -, -⟩ := hm
  exact file_steps has

theorem Does.state_eq (hm : Does m r ts ls) :
    (final m r).current.state = tryMoves isTransitionAllowed r.current.state ts := by
  obtain ⟨as, has, rfl, -⟩ := hm
  exact Session.state_eq has

theorem Does.edges_eq (hm : Does m r ts ls) :
    edges (final m r).current.history =
      edges r.current.history ++ madeMoves isTransitionAllowed r.current.state ts := by
  obtain ⟨as, has, rfl, -⟩ := hm
  exact Session.edges_eq has

theorem Does.launched_eq (hm : Does m r ts ls) : (final m r).launched = r.launched ++ ls := by
  obtain ⟨as, has, -, rfl⟩ := hm
  exact Session.launched_eq has

end Does

theorem does_pure {α : Type} (a : α) (r : RuntimeState) : Does (pure a : RuntimeM α) r [] [] :=
  ⟨[], causes_pure a r, rfl, rfl⟩

theorem does_load (r : RuntimeState) : Does loadSessionState r [] [] := ⟨[], causes_load r, rfl, rfl⟩

theorem does_loadProfile (r : RuntimeState) : Does loadDeviceProfile r [] [] :=
  ⟨[], causes_loadProfile r, rfl, rfl⟩

theorem does_writeProfile (profile : DeviceProfile) (r : RuntimeState) :
    Does (writeDeviceProfile profile) r [] [] := ⟨[.files], causes_writeProfile profile r, rfl, rfl⟩

/-- Behind a load the program goes on with what was loaded. -/
theorem does_load_bind {α : Type} {k : SessionState → RuntimeM α} {r : RuntimeState}
    {ts : List SessionStateName} {ls : List Launch} (hk : Does (k r.current) r ts ls) :
    Does (loadSessionState >>= k) r ts ls := (does_load r).bind hk

theorem does_loadDir_bind {α : Type} {k : SessionDir → RuntimeM α} {r : RuntimeState}
    {ts : List SessionStateName} {ls : List Launch} (hk : Does (k r.dir) r ts ls) :
    Does (loadSessionDir >>= k) r ts ls := Does.bind (m := loadSessionDir) ⟨[], .nil r, rfl, rfl⟩ hk

theorem does_loadProfile_bind {α : Type} {k : DeviceProfile → RuntimeM α} {r : RuntimeState}
    {ts : List SessionStateName} {ls : List Launch} (hk : Does (k r.dir.profile) r ts ls) :
    Does (loadDeviceProfile >>= k) r ts ls := (does_loadProfile r).bind hk

/-- Changing the directory beside the state file is neither a move nor a launch. -/
theorem does_files {f : SessionDir → SessionDir} (hfile : ∀ d, (f d).file = d.file)
    (r : RuntimeState) :
    Does (modify fun r : RuntimeState => { r with dir := f r.dir }) r [] [] :=
  ⟨[.files], .single ⟨rfl, hfile _⟩, rfl, rfl⟩

theorem does_write {s : SessionState} {r : RuntimeState} (hstate : s.state = r.current.state)
    (hhistory : s.history = r.current.history) : Does (writeSessionState s) r [] [] :=
  ⟨[.update], causes_write hstate hhistory, rfl, rfl⟩

theorem does_update (change : SessionState → SessionState)
    (hstate : ∀ s, (change s).state = s.state) (hhistory : ∀ s, (change s).history = s.history)
    (r : RuntimeState) : Does (updateSessionState change) r [] [] :=
  ⟨[.update], causes_update hstate hhistory r, rfl, rfl⟩

theorem does_annotate (note : String) (r : RuntimeState) : Does (annotate note) r [] [] :=
  ⟨[.update], causes_annotate note r, rfl, rfl⟩

theorem does_transition (target : SessionStateName) (reason : String) (r : RuntimeState) :
    Does (transition target reason) r [target] [] :=
  ⟨[.move target], causes_transition target reason r, rfl, rfl⟩

theorem does_safeTransition (target : SessionStateName) (reason : String) (r : RuntimeState) :
    Does (safeTransition target reason) r [target] [] :=
  ⟨[.move target], causes_safeTransition target reason r, rfl, rfl⟩

theorem does_launch (ls : List Launch) (r : RuntimeState) : Does (launch ls) r [] ls :=
  ⟨ls.map .start, causes_launch ls r, movesOf_starts ls, launchesOf_starts ls⟩

end ForgeOS.Session
