import ForgeOS.Flash.Approved
import ForgeOS.Runtime.Deliberation
import ForgeOS.Runtime.Resolution
import ForgeOS.Session.Identity

/-! `ForgeOrchestrator._run_runtime_cycle`, in the parts it falls into: opening and
classification, workers, remediation or a question, and the closing bookkeeping.
What the parts of the appliance outside this model find out, such as the assessment,
the staged artifacts or what a remediation artifact reports, are inputs. -/

namespace ForgeOS.Runtime

open ForgeOS.Python ForgeOS.Flash ForgeOS.Session

/-! ### Inputs -/

/-- The assessment, the engagement and the connection plan, as far as they are read. -/
structure Assessment where
  supportStatus : Option String := none
  summary : Option String := none
  engagementStatus : String := "unknown"
  nextSteps : List String := []
  recommendedAdapter : Option String := none
  requiresCodexGeneration : Bool := false
  deriving DecidableEq, Repr

/-- The command lines of the parts that research, build or inspect on the host. -/
structure SupportPrograms where
  deviceResearch : List (List String) := []
  artifacts : List (List String) := []
  firmwareResearch : List (List String) := []
  blockerResearch : List (List String) := []
  laterFirmwareResearch : List (List String) := []
  capabilities : List (List String) := []
  deriving DecidableEq, Repr

structure Prompts where
  discovery : String := ""
  useCase : String := ""
  artifactResearch : String := ""
  remediation : String := ""
  installPlanning : String := ""
  deriving DecidableEq, Repr

/-- A remediation: its artifact and what the inspection of the best run found. -/
structure Remediation where
  /-- The command line of the artifact and how often the self-improvement loop runs it. -/
  artifact : List String := []
  experiments : ℕ := 0
  /-- The model wrote the artifact; otherwise it is the template of the repository. -/
  modelWritten : Bool := false
  inspection : Inspection := {}
  /-- The profile as the updates leave it, if there are any. -/
  profileUpdates : Option (DeviceProfile → DeviceProfile) := none
  assessment : Assessment := {}
  strategy : String := ""
  researchSteps : List String := []

structure CycleInputs where
  executeWorkers : Bool := true
  executeRuntimePipelines : Bool := true
  assessment : Assessment := {}
  recommendation : Recommendation := {}
  operatorReview : OperatorReview := {}
  built : BuildArtifacts
  backup : BackupPlan := []
  restorePathFeasible : Bool := false
  now : String := ""
  writtenAt : String := ""
  researchSteps : List String := []
  surroundings : Surroundings := {}
  noMasterAdapter : Bool := false
  adapter : List String := []
  adapterFindsModel : Bool := false
  prompts : Prompts := {}
  support : SupportPrograms := {}
  remediation : Remediation := {}
  reply : Option ModelReply := none
  context : ReplyContext

/-- What a cycle uses of the orchestrator. `lower` and `title` are `str.lower` and `str.title`. -/
structure Orchestrator where
  host : RuntimeHost
  setup : WorkerSetup
  policy : PolicyModel
  lower : String → String
  title : String → String

/-- Programs that are started once each. -/
def Orchestrator.startAll (o : Orchestrator) (commands : List (List String)) : List Launch :=
  commands.map fun argv => o.host.start argv 0

variable (o : Orchestrator) (c : CycleInputs)

/-! ### Opening and classification -/

/-- What the blocker engine reads, for a profile. -/
def Assessment.evidence (a : Assessment) (profile : DeviceProfile) (built : BuildArtifacts)
    (remediation : Option Inspection) : Evidence where
  profile
  supportStatus := a.supportStatus
  assessmentSummary := a.summary
  engagementStatus := a.engagementStatus
  nextSteps := a.nextSteps
  recommendedAdapter := a.recommendedAdapter
  requiresCodexGeneration := a.requiresCodexGeneration
  remediation
  artifacts := built

/-- `_enrich_blocker_with_research` -/
def enrich (b : Blocker) (steps : List String) : Blocker := { b with userSteps := b.userSteps ++ steps }

/-- What a deep scan learns about the device with the serial. -/
def rescanned (h : RuntimeHost) (serial : String) : Option ProbeData :=
  if serial = "" then none
  else if h.adb ∧ serial ∈ h.adbSerials then
    some { h.describe .usbAdb serial with serial := some serial, transport := some .usbAdb }
  else if h.fastboot ∧ serial ∈ h.fastbootSerials then
    some { h.describe .usbFastboot serial with serial := some serial, transport := some .usbFastboot }
  else if h.fastboot ∧ serial ∈ h.fastbootdSerials then
    some { serial := some serial, transport := some .usbFastbootd }
  else none

/-- The queries of a deep scan. -/
def deepScanQueries (h : RuntimeHost) (serial : String) : List Launch :=
  if serial = "" then []
  else listAdb h ++
    if h.adb ∧ serial ∈ h.adbSerials then describeDevice h serial ++ hardwareSnapshot h serial
    else listFastboot h h.fastbootSerials ++
      if h.fastboot ∧ serial ∈ h.fastbootSerials then getvarAll h serial
      else listFastboot h h.fastbootdSerials

/-- `_perform_deep_scan` -/
def performDeepScan : RuntimeM Unit := do
  let profile ← loadDeviceProfile
  launch (deepScanQueries o.host (profile.serial.getD ""))
  match rescanned o.host (profile.serial.getD "") with
  | some refreshed => writeDeviceProfile (mergeProbe profile (deviceProbe refreshed))
  | none => return ()

def scanIfDue (state : SessionState) : RuntimeM Unit :=
  if state.state = .deepScan then performDeepScan o else return ()

/-- The self-test of a generated adapter, and research for a device seen the first time. -/
def firstContactLaunches (profile : DeviceProfile) : List Launch :=
  if c.executeWorkers ∧ c.noMasterAdapter then
    .program c.adapter (issuedBy (adapterProbe o.host profile.transport c.adapterFindsModel)) ::
      o.startAll c.support.deviceResearch
  else []

/-- `backup_restore.execute`, as to the directory. -/
def writeBackupPlan : RuntimeM Unit :=
  modify fun r => { r with dir := { r.dir with backupPlanExists := true } }

def setBlocker (b : Blocker) (s : SessionState) : SessionState :=
  { s with currentBlockerType := some b.blockerType.value, blockerConfidence := b.confidence }

/-- What the cycle reads of its session, and the blocker that it records. -/
structure Opening where
  state : SessionState
  profile : DeviceProfile
  userProfile : BuildProfile
  osGoals : BuildGoals
  experiments : List Learning.Verdict
  blocker : Blocker
  deriving DecidableEq, Repr

/-- From the capture of the backup to the blocker that the cycle records. -/
def classifyOpening (dir : SessionDir) (state : SessionState) (profile : DeviceProfile) :
    RuntimeM Opening := do
  launch (firstContactLaunches o c profile)
  launch (captureBackup o.host profile.transport (profile.serial.getD ""))
  writeBackupPlan
  launch (o.startAll c.support.artifacts)
  safeTransition .recommend
    "ForgeOS is converting evidence into a recommended use case and build path"
  safeTransition .blockerClassify "Classifying blocker state for autonomous continuation"
  let blocker := enrich
    (classify (c.assessment.evidence profile c.built none) state.remediationIteration) c.researchSteps
  updateSessionState (setBlocker blocker)
  return { state, profile, blocker
           userProfile := dir.userProfile, osGoals := dir.osGoals, experiments := dir.experiments }

def openCycle : RuntimeM Opening := do
  let dir ← loadSessionDir
  let state ← loadSessionState
  scanIfDue o state
  let profile ← loadDeviceProfile
  classifyOpening o c dir state profile

/-! ### The flash plan -/

/-- What the build resolver is asked. -/
def CycleInputs.request (opening : Opening) : BuildRequest where
  supportStatus := c.assessment.supportStatus
  selectedStrategy := orText opening.state.selectedStrategy "research_only"
  userProfile := opening.userProfile
  osGoals := opening.osGoals
  recommendation := c.recommendation
  operatorReview := c.operatorReview

/-- The flash plan of the cycle. -/
def CycleInputs.flashPlan (opening : Opening) : FlashPlan :=
  sessionPlan o.title o.policy
    { now := c.now
      writtenAt := c.writtenAt
      sessionId := opening.state.sessionId
      transport := opening.profile.transport
      request := c.request opening
      built := c.built
      backup := c.backup }

/-- `build_plan["os_path"]` -/
def CycleInputs.osPath (opening : Opening) : String := (resolveBuild o.title (c.request opening)).osPath

/-! ### Deliberation -/

def CycleInputs.situation (opening : Opening) : Situation where
  blocker := opening.blocker
  experiments := opening.experiments
  built := c.built
  desiredEndProduct := opening.userProfile.desiredEndProduct

/-- The machine may work on the blocker. -/
def machineAllowed (opening : Opening) : Bool :=
  machineRemediationAllowed o.lower c.surroundings (c.situation opening)

/-- The local model may. -/
def modelAllowed (opening : Opening) : Bool :=
  modelWorkerAllowed o.lower c.surroundings (c.situation opening)

/-! ### Workers -/

def discoveryTask : WorkerTask where
  taskType := "device_discovery"
  summary := "Interrogate the current device state and collect transport evidence."
  prompt := c.prompts.discovery
  repetitive := true

def useCaseTask : WorkerTask where
  taskType := "use_case_recommendation"
  summary := "Infer the best attainable use case from the device evidence and user goals."
  prompt := c.prompts.useCase
  risk := .medium

def artifactResearchTask : WorkerTask where
  taskType := "artifact_research"
  summary := "Research how to satisfy the missing install artifact requirements for this session."
  prompt := c.prompts.artifactResearch
  risk := .medium
  repetitive := true

def cycleTasks (opening : Opening) : List WorkerTask :=
  if modelAllowed o c opening then
    [discoveryTask c, useCaseTask c] ++
      if c.built.details.missingRequirements ≠ [] ∧ c.osPath o opening ≠ researchOnlyPath then
        [artifactResearchTask c]
      else []
  else []

/-- The programs that the workers of the cycle and its firmware research start. -/
def workerLaunches (opening : Opening) : List Launch :=
  if c.executeWorkers then
    runTasks o.host o.setup (cycleTasks o c opening) ++
      if modelAllowed o c opening ∧ opening.blocker.blockerType = .source then
        o.startAll c.support.firmwareResearch
      else []
  else []

/-! ### Remediation -/

def remediationTask (blocker : Blocker) (iteration : ℕ) : WorkerTask where
  taskType := "machine_remediation"
  summary := blocker.summary
  prompt := c.prompts.remediation
  risk := .medium
  needsRepoEdit := true
  localRetryCount := iteration
  retryBudget := 2
  targetFiles := ["app/core/orchestrator.py", "app/core/runtime_workers.py"]

/-- The runs of the remediation artifact. For missing sources it is always the
template of the repository, which may start a source build. -/
def artifactLaunches (blocker : Blocker) : List Launch :=
  (List.range c.remediation.experiments).flatMap fun k =>
    if blocker.blockerType = .source then
      .program c.remediation.artifact (issuedBy (artifactQueries o.host true)) ::
        o.startAll c.support.artifacts
    else if c.remediation.modelWritten then [o.host.start c.remediation.artifact k]
    else [.program c.remediation.artifact (issuedBy (artifactQueries o.host false))]

/-- `_apply_inspection_updates` -/
def applyInspectionUpdates : RuntimeM Unit :=
  match c.remediation.profileUpdates with
  | some change => do
    let profile ← loadDeviceProfile
    writeDeviceProfile (change profile)
    annotate (c.remediation.inspection.summary.getD
      "Remediation artifact updated the device profile.")
  | none => return ()

/-- The fields that the reclassification writes; the strategy only if the support changed. -/
def reclassified (blocker : Blocker) (s : SessionState) : SessionState :=
  setBlocker blocker
    (if c.remediation.assessment.supportStatus.getD s.supportStatus.value ≠ s.supportStatus.value then
      { s with selectedStrategy := some c.remediation.strategy }
    else s)

/-- What is known behind the remediation or the question. -/
structure Progress where
  assessment : Assessment
  profile : DeviceProfile
  blocker : Blocker
  acted : Bool := false
  deriving DecidableEq, Repr

def classifyAgain (blocker : Blocker) : RuntimeM Unit :=
  if blocker.blockerType ≠ .none then
    safeTransition .blockerClassify "Reclassifying blocker after remediation artifact execution"
  else return ()

/-- From the worker for the remediation to the updates that its inspection asks for. -/
def runRemediation (blocker : Blocker) (iteration : ℕ) : RuntimeM Unit := do
  launch (executeRouted o.host o.setup (remediationTask c blocker iteration)).launched
  safeTransition .remediationDecide
    ("Runtime selected remediation path `" ++ blocker.plannedNextAction ++ "`")
  safeTransition .taskCreate "Creating a remediation task from the current blocker"
  updateSessionState fun s => { s with remediationIteration := s.remediationIteration + 1 }
  safeTransition .codegenWrite "Writing executable remediation artifact into the active session"
  safeTransition .patchApply "Registering generated remediation artifacts"
  safeTransition .executeArtifact "Executing generated remediation artifact"
  launch (artifactLaunches o c blocker)
  safeTransition .inspectResult "Inspecting remediation artifact result"
  applyInspectionUpdates c

/-- The inspection as the retry planner reads it. -/
def Inspection.learned (i : Inspection) : Learning.Inspection where
  status := i.status
  summary := i.summary.getD ""
  evidence :=
    { sourceAcquisition := { stagedFiles := i.stagedFiles }
      remoteResolution := i.remoteResolution }

/-- `record_experiment`, as to the verdict. -/
def recordVerdict (before after : Blocker) : RuntimeM Unit :=
  modify fun r =>
    { r with
      dir :=
        { r.dir with
          experiments := r.dir.experiments ++
            [Learning.evaluateExperiment before.blockerType.value after.blockerType.value
              c.remediation.inspection.learned] } }

/-- The second classification, behind a remediation of the blocker. -/
def reclassify (before : Blocker) : RuntimeM Progress := do
  let profile ← loadDeviceProfile
  let state ← loadSessionState
  let assessment := c.remediation.assessment
  let blocker := enrich
    (classify (assessment.evidence profile c.built (some c.remediation.inspection))
      state.remediationIteration) c.remediation.researchSteps
  writeSessionState (reclassified c blocker state)
  recordVerdict c before blocker
  classifyAgain blocker
  return { assessment, profile, blocker }

/-- The branch for a blocker that the appliance can work on. -/
def remediate (opening : Opening) : RuntimeM Progress := do
  let state ← loadSessionState
  runRemediation o c opening.blocker state.remediationIteration
  reclassify c opening.blocker

/-! ### A question for the operator -/

/-- The model may be asked about the blocker. -/
def modelConsulted (opening : Opening) : Bool :=
  c.executeWorkers && modelAllowed o c opening && opening.blocker.blockerType ≠ .policy

/-- What the model has done about the blocker. -/
def modelResolution (opening : Opening) : List Launch × Bool :=
  if modelConsulted o c opening then
    tryGemmaResolution o.host o.setup c.context opening.profile.deviceCodename c.reply
  else ([], false)

/-- Research on a blocker before the operator is asked. -/
def blockerResearch (opening : Opening) : List Launch :=
  if c.executeWorkers ∧ modelAllowed o c opening ∧
      opening.blocker.blockerType ∉ [.none, .policy, .source] then
    o.startAll c.support.blockerResearch
  else []

def askOperator (opening : Opening) : RuntimeM Unit := do
  launch (blockerResearch o c opening)
  safeTransition .questionGate "Blocker requires external action or approval"

def askUnless (acted : Bool) (opening : Opening) : RuntimeM Unit :=
  if acted then return () else askOperator o c opening

/-- The branch for a blocker that is not worked on by the appliance. -/
def askForHelp (opening : Opening) : RuntimeM Progress := do
  let resolution := modelResolution o c opening
  launch resolution.1
  askUnless o c resolution.2 opening
  return { assessment := c.assessment, profile := opening.profile, blocker := opening.blocker,
           acted := resolution.2 }

/-- The cycle takes the remediation branch. -/
def remediates (opening : Opening) : Bool :=
  opening.blocker.machineSolvable && c.executeWorkers && machineAllowed o c opening

def resolveBlocker (opening : Opening) : RuntimeM Progress :=
  if remediates o c opening then remediate o c opening
  else if opening.blocker.blockerType ≠ .none then askForHelp o c opening
  else return { assessment := c.assessment, profile := opening.profile, blocker := opening.blocker }

/-! ### Closing -/

def manageableTransports : List String :=
  ["usb-adb", "usb-fastboot", "usb-fastbootd", "usb-recovery"]

def installPlanningTask : WorkerTask where
  taskType := "install_planning"
  summary := "Review destructive install planning and safety gates."
  prompt := c.prompts.installPlanning
  risk := .high
  architectureLevel := true

/-- Research on firmware that is still missing, and the review of the install plan. -/
def closingLaunches (opening : Opening) (progress : Progress) : List Launch :=
  (if c.executeWorkers ∧ machineAllowed o c opening ∧ progress.blocker.blockerType = .source then
    o.startAll c.support.laterFirmwareResearch
  else []) ++
    if (c.flashPlan o opening).requiresWipe ∧ c.executeWorkers ∧ c.built.status = "ready" ∧
        (c.flashPlan o opening).status ∉ ["deferred", "blocked"] then
      (executeRouted o.host o.setup (installPlanningTask c)).launched
    else []

/-- `install_candidate`, which is `preview_ready` too. -/
def installCandidate (opening : Opening) (progress : Progress) : Bool :=
  progress.assessment.supportStatus = some "actionable" &&
    c.osPath o opening ≠ researchOnlyPath &&
    (c.flashPlan o opening).status ≠ "deferred" &&
    progress.profile.transport.value ∈ manageableTransports

/-- The preview and the verification are run, not deferred. -/
def previewed (opening : Opening) (progress : Progress) : Bool :=
  installCandidate o c opening progress && c.executeRuntimePipelines

def verified (opening : Opening) (progress : Progress) : Bool :=
  installCandidate o c opening progress && c.restorePathFeasible && c.executeRuntimePipelines

/-- The plan is not deferred, both are run, and the transport can be managed. -/
def installReady (opening : Opening) (progress : Progress) : Bool :=
  (c.flashPlan o opening).status ≠ "deferred" &&
    previewed o c opening progress && verified o c opening progress &&
    progress.profile.transport.value ∈ manageableTransports

def buildPreview (opening : Opening) (progress : Progress) : RuntimeM Unit :=
  if previewed o c opening progress then do
    safeTransition .previewBuild "ForgeOS is generating a preview for the proposed path"
    launch (o.startAll c.support.capabilities)
    safeTransition .previewReview "Preview output is ready for review"
  else return ()

def verifyInteractively (opening : Opening) (progress : Progress) : RuntimeM Unit :=
  if verified o c opening progress then do
    safeTransition .interactiveVerify "ForgeOS is running verification before any install decision"
    launch (o.startAll c.support.capabilities ++ verifyTransports o.host)
  else return ()

def approveInstall (opening : Opening) (progress : Progress) : RuntimeM Unit :=
  if installReady o c opening progress then
    safeTransition .installApproval "The session is ready for operator install review"
  else return ()

/-- Every second cycle without a blocker and without progress looks at the device again. -/
def countIteration (state : SessionState) : RuntimeM Unit :=
  if 2 ≤ state.iterateCount + 1 then do
    writeSessionState { state with iterateCount := 0 }
    safeTransition .deepScan "Consecutive ITERATE cycles detected — forcing device re-probe"
    performDeepScan o
  else writeSessionState { state with iterateCount := state.iterateCount + 1 }

def iterate : RuntimeM Unit := do
  safeTransition .iterate
    "Runtime cycle complete — no active blocker, waiting for next condition change"
  let state ← loadSessionState
  countIteration o state

def resetIterations : RuntimeM Unit := updateSessionState fun s => { s with iterateCount := 0 }

/-- Where a cycle without a blocker goes on. -/
def advance (opening : Opening) (progress : Progress) : RuntimeM Unit :=
  if installReady o c opening progress then resetIterations
  else if previewed o c opening progress then resetIterations
  else if installCandidate o c opening progress then do
    resetIterations
    safeTransition .buildGeneric "No blockers detected — advancing toward build stage"
  else iterate o

/-- The last move of a cycle. -/
def conclude (opening : Opening) (progress : Progress) : RuntimeM Unit :=
  if progress.blocker.blockerType = .none then advance o c opening progress
  else if progress.blocker.machineSolvable = false then
    safeTransition .questionGate "Runtime hit a true external-action or approval boundary"
  else return ()

def closeCycle (opening : Opening) (progress : Progress) : RuntimeM Unit := do
  launch (closingLaunches o c opening progress)
  safeTransition .backupReady "Backup and restore readiness recorded for this session"
  buildPreview o c opening progress
  verifyInteractively o c opening progress
  approveInstall o c opening progress
  conclude o c opening progress

/-! ### The cycle -/

/-- What the callers of a cycle read of its result. -/
structure CycleResult where
  blocker : Blocker
  acted : Bool
  flashPlan : FlashPlan
  installReady : Bool
  deriving DecidableEq, Repr

/-- `_run_runtime_cycle` -/
def runRuntimeCycle : RuntimeM CycleResult := do
  let opening ← openCycle o c
  launch (workerLaunches o c opening)
  let progress ← resolveBlocker o c opening
  closeCycle o c opening progress
  return { blocker := progress.blocker
           acted := progress.acted
           flashPlan := c.flashPlan o opening
           installReady := installReady o c opening progress }

end ForgeOS.Runtime
