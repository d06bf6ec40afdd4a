import ForgeOS.Runtime.Events
import ForgeOS.Runtime.Outcome

/-! The orchestrator over all its sessions: `handle_device_event`, `recompute_session_runtime`,
`record_wipe_approval`, `execute_approved_flash`, what the operator says of a device, and the
single operations on the state of a session that they are made of. -/

namespace ForgeOS.Runtime

open ForgeOS.Python ForgeOS.Flash ForgeOS.Session ForgeOS.Library.Trace

/-! ### Device events -/

/-- What the handling of an event finds out, besides the probe. -/
structure EventInputs where
  supportStatus : SupportStatus := .actionable
  summary : String := ""
  engagementSummary : String := ""
  /-- The strategy that is selected for a device that is not blocked. -/
  strategy : String := ""
  cycle : CycleInputs

/-- The inputs of the cycle of an event: its assessment is the one of the event. -/
def EventInputs.attached (x : EventInputs) : CycleInputs :=
  { x.cycle with
    assessment :=
      { x.cycle.assessment with
        supportStatus := some x.supportStatus.value
        summary := some x.summary } }

def chooseStrategy (x : EventInputs) : RuntimeM Unit := do
  let state ← loadSessionState
  if x.supportStatus = .blocked then
    if isTransitionAllowed state.state .blocked then do
      let _ ← transition .blocked x.summary
    else return ()
  else do
    updateSessionState fun s =>
      { s with selectedStrategy := some x.strategy, supportStatus := x.supportStatus }
    safeTransition .pathSelect ("Selected strategy " ++ x.strategy)

/-- `handle_device_event` of a session that does not wait, up to its cycle. -/
def attach (x : EventInputs) : RuntimeM Unit := do
  safeTransition .deviceAttached "Device attachment event received"
  safeTransition .discover "Runtime discovery started"
  safeTransition .profileSynthesis "Device profile synthesis started"
  safeTransition .assess "Device assessment started"
  annotate x.summary
  annotate x.engagementSummary
  safeTransition .matchMaster "Matching master framework and prior knowledge"
  safeTransition .backupPlan "Entering safety-first backup and restore planning"
  chooseStrategy x

/-- The same for a session that waits. -/
def reenter : RuntimeM Unit :=
  safeTransition .blockerClassify
    "Device state changed while waiting at QUESTION_GATE — re-entering blocker classification"

def writeFlashPlan (plan : FlashPlan) : RuntimeM Unit :=
  modify fun r => { r with dir := { r.dir with flashPlan := some plan } }

/-- `recompute_session_runtime`, and the end of `handle_device_event`. -/
def recompute (o : Orchestrator) (c : CycleInputs) : RuntimeM Unit := do
  let result ← runRuntimeCycle o c
  writeFlashPlan result.flashPlan

/-- A lightweight cycle starts no workers and runs no pipelines. -/
def CycleInputs.atWeight (c : CycleInputs) (lightweight : Bool) : CycleInputs :=
  { c with executeWorkers := !lightweight, executeRuntimePipelines := !lightweight }

/-- What comes before the cycle of an event, and the inputs of the cycle. -/
def EventInputs.opening (x : EventInputs) (waiting : Bool) : RuntimeM Unit :=
  if waiting then reenter else attach x

def EventInputs.inputs (x : EventInputs) (waiting : Bool) : CycleInputs :=
  (if waiting then x.cycle else x.attached).atWeight false

/-! ### The operator -/

/-- What the operator says of the use of a device, and the strategy that is selected for it. -/
structure ProfileAnswers where
  userProfile : BuildProfile
  osGoals : BuildGoals := {}
  strategy : String
  deriving DecidableEq, Repr

/-- `save_profile_and_recompute`, up to the lightweight cycle at its end. -/
def saveProfile (x : ProfileAnswers) : RuntimeM Unit := do
  modify fun r => { r with dir := { r.dir with userProfile := x.userProfile, osGoals := x.osGoals } }
  updateSessionState fun s => { s with selectedStrategy := some x.strategy }

structure WipeApproval where
  approved : Bool
  confirmationPhrase : String
  restorePathConfirmed : Bool
  notes : String := ""
  approvalScope : String := "full_wipe_and_rebuild"
  deriving DecidableEq, Repr

/-- The approval file as `record_wipe_approval` leaves it. -/
def WipeApproval.record (a : WipeApproval) (now : String) (before : DestructiveApproval) :
    DestructiveApproval :=
  { before with
    approved := a.approved
    approvalScope := if a.approved then a.approvalScope else "none"
    confirmationPhrase := a.confirmationPhrase
    consequencesAcknowledged := a.approved
    restorePathConfirmed := a.restorePathConfirmed
    notes := a.notes
    approvedAt := if a.approved then some before.updatedAt else none
    updatedAt := now }

def recordWipeApproval (a : WipeApproval) : RuntimeM Unit := do
  let now ← utcNow
  modify fun r => { r with dir := { r.dir with approval := a.record now r.dir.approval } }
  updateSessionState fun s => { s with destructiveActionsApproved := a.approved }

/-- What a flash meets: the tools, the manifest file, and the directory of the session. -/
structure FlashInputs where
  upper : String → String
  host : Host
  readFile : String → ManifestFile
  policy : PolicyModel
  sessionPath : String
  liveMode : Bool

/-- What a flash reads of a session. -/
def FlashInputs.session (x : FlashInputs) (d : SessionDir) : FlashSession where
  name := d.name
  dir := x.sessionPath
  flashPlan := d.flashPlan
  approval := d.approval
  backupPlanExists := d.backupPlanExists
  serial := d.profile.serial

def FlashInputs.run (x : FlashInputs) (d : SessionDir) : Run :=
  executeApprovedFlash x.upper x.host x.readFile x.policy (x.session d) x.liveMode

def recordFlash : RunEnd → RuntimeM Unit
  | .returned result =>
    if result.status ∈ ["dry_run_complete", "live_execution_complete"] then do
      safeTransition .flashPrep "Prepared approved flash execution"
      safeTransition .flash "Recorded approved flash execution"
    else return ()
  | .raised _ => return ()

/-- `execute_approved_flash` -/
def approvedFlash (x : FlashInputs) : RuntimeM Unit := do
  let r ← get
  launch ((x.run r.dir).issued.map .tool)
  recordFlash (x.run r.dir).ending

/-! ### Single operations -/

/-- The fields that the orchestrator loads, changes and writes back. -/
inductive FieldUpdate
  | blocker (b : Blocker)
  | remediationIteration
  | reclassified (c : CycleInputs) (b : Blocker)
  | strategy (strategy : String) (supportStatus : SupportStatus)
  | iterateCount (n : ℕ)
  | approvals (approved : Bool)

def FieldUpdate.apply : FieldUpdate → SessionState → SessionState
  | blocker b, s => setBlocker b s
  | remediationIteration, s => { s with remediationIteration := s.remediationIteration + 1 }
  | reclassified c b, s => Runtime.reclassified c b s
  | strategy chosen supportStatus, s => { s with selectedStrategy := some chosen, supportStatus }
  | iterateCount n, s => { s with iterateCount := n }
  | approvals approved, s => { s with destructiveActionsApproved := approved }

inductive Operation
  | transition (target : SessionStateName) (reason : String)
  | safeTransition (target : SessionStateName) (reason : String)
  | annotate (note : String)
  | update (u : FieldUpdate)

def Operation.run : Operation → RuntimeM Unit
  | transition target reason => do
    let _ ← Session.transition target reason
  | safeTransition target reason => Session.safeTransition target reason
  | annotate note => Session.annotate note
  | update u => updateSessionState u.apply

/-! ### The appliance -/

/-- The sessions, the clock with the number of times it was read, and the programs started. -/
structure Appliance where
  devices : Devices := []
  clock : ℕ → String
  ticks : ℕ := 0
  launched : List Launch := []

/-- What a program finds that works on a session. -/
def Appliance.enter (a : Appliance) (d : SessionDir) : RuntimeState where
  dir := d
  clock := a.clock
  ticks := a.ticks
  launched := a.launched

/-- The files of a session in the directory of a name. -/
def inDirectory (name : String) (d : SessionDir) : SessionDir := { d with name }

/-- The session stays under its name, whatever a program made of its files. -/
def Appliance.leave (a : Appliance) (name : String) (r : RuntimeState) : Appliance :=
  { a with
    devices := putSession a.devices (inDirectory name r.dir)
    ticks := r.ticks
    launched := r.launched }

/-- Run a program on the session of a name. Without such a session it fails at its first load. -/
def Appliance.on {α : Type} (a : Appliance) (name : String) (m : RuntimeM α) : Appliance :=
  match findSession a.devices name with
  | some d => a.leave name (final m (a.enter d))
  | none => a

inductive Action
  /-- `create_or_resume` alone -/
  | contact (c : Contact)
  | event (o : Orchestrator) (c : Contact) (x : EventInputs)
  | recompute (o : Orchestrator) (name : String) (c : CycleInputs) (lightweight : Bool)
  | approve (name : String) (x : WipeApproval)
  | flash (name : String) (x : FlashInputs)
  | profile (name : String) (x : ProfileAnswers)
  | operation (name : String) (op : Operation)

section Step

variable (lower digest : String → String)

/-- The name of the session that an event comes to or founds. -/
def eventName (devices : Devices) (c : Contact) : String :=
  ((eventSession lower digest devices c).map SessionDir.name).getD
    ((probed c).canonicalName lower digest)

/-- The appliance once an event has been merged into its session. -/
def Appliance.meet (a : Appliance) (c : Contact) : Appliance :=
  { a with devices := handleDeviceEvent lower digest a.devices c }

/-- An event finds its session waiting. -/
def Appliance.awaits (a : Appliance) (c : Contact) : Bool := (waitingFor a.devices c).isSome

def Appliance.step (a : Appliance) : Action → Appliance
  | .contact c => { a with devices := (createOrResume lower digest a.devices c).1 }
  | .event o c x => (a.meet lower digest c).on (eventName lower digest a.devices c) do
      x.opening (a.awaits c)
      Runtime.recompute o (x.inputs (a.awaits c))
  | .recompute o name c lightweight => a.on name (Runtime.recompute o (c.atWeight lightweight))
  | .approve name x => a.on name (recordWipeApproval x)
  | .flash name x => a.on name (approvedFlash x)
  | .profile name x => a.on name (saveProfile x)
  | .operation name op => a.on name op.run

/-- The appliance after a run of actions. -/
def Appliance.after (a : Appliance) (actions : List Action) : Appliance :=
  actions.foldl (Appliance.step lower digest) a

end Step

end ForgeOS.Runtime
