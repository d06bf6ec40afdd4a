import ForgeOS.Flash.Tools
import ForgeOS.Library.FailFast
import ForgeOS.Models
import ForgeOS.Python.Dict

/-! `FlashExecutorTool.run`. The executor checks the approval, the phrase, the
restore path and the artifacts, in this order, and then goes through the steps
of the plan. In a live run a step with a command is resolved against the image
manifest and performed, and the first step that does not succeed ends the run.
The resolution of a step is a `StepAction`, a value; performing it is the only
way a run reaches a device. -/

namespace ForgeOS.Flash

open ForgeOS.Python ForgeOS.Library.FailFast

/-- What reading the manifest file gives. -/
inductive ManifestFile
  | missing
  | unreadable (error : String)
  | readable (m : Manifest)
  deriving DecidableEq, Repr

/-! ### Resolving a step -/

/-- The first staged path whose file name is the given one. -/
def stagedFile (m : Manifest) (name : String) : Option String :=
  (m.stagedFiles.find? fun path => pathName path == name).map pathStr

def manifestStep (m : Manifest) (stepName : String) : Option ManifestStep :=
  m.flashSteps.find? fun step => step.name == some stepName

def serialArgs (serial : String) : List String := if serial ≠ "" then ["-s", serial] else []

def failure (reason : String) : StepAction := .reply { ok := false, reason := some reason }

def executeFastbootStep (serial : String) (m : Manifest) (stepName transport : String) :
    StepAction :=
  if stepName = "enter_fastboot" then
    if transport = Transport.usbFastboot.value then
      .reply { ok := true, stdout := "already in fastboot", returncode := some 0 }
    else .adb (serialArgs serial ++ ["reboot", "bootloader"])
  else if stepName = "wipe_userdata" then .fastboot (serialArgs serial ++ ["erase", "userdata"])
  else if stepName = "boot_validation" then .fastboot (serialArgs serial ++ ["reboot"])
  else
    match manifestStep m stepName with
    | none => failure ("No manifest step for " ++ stepName)
    | some flashStep =>
      let command := split (flashStep.command.getD "")
      if command.length < 4 then failure ("Invalid fastboot command for " ++ stepName)
      else
        let imageName := command.getLastD ""
        match stagedFile m imageName with
        | none => failure ("Staged image " ++ imageName ++ " not found")
        | some staged => .fastboot (serialArgs serial ++ ["flash", command.getD 2 "", staged])

def executeAdbSideloadStep (serial : String) (m : Manifest) (stepName : String) : StepAction :=
  if stepName = "wipe_userdata" then
    .adb (serialArgs serial ++ ["shell", "recovery", "--wipe_data"])
  else if stepName = "enter_sideload" then .adb (serialArgs serial ++ ["reboot", "sideload"])
  else if stepName = "boot_validation" then .adb (serialArgs serial ++ ["reboot"])
  else
    match manifestStep m stepName with
    | none => failure ("No manifest step for " ++ stepName)
    | some flashStep =>
      match (split (flashStep.command.getD "")).getLast? with
      -- `"".split()[-1]`
      | none => .raise "list index out of range"
      | some packageName =>
        match stagedFile m packageName with
        | none => failure ("Staged package " ++ packageName ++ " not found")
        | some staged => .adb (serialArgs serial ++ ["sideload", staged])

/-- The `--PARTITION image` pairs of a `heimdall flash` command line. -/
def commandPartitions : List String → List (String × String) → List (String × String)
  | part :: image :: rest, d =>
    if startsWith part "--" then commandPartitions rest (dictSet d (sliceFrom part 2) image)
    else commandPartitions (image :: rest) d
  | _, d => d

/-- Look up every image of a partition table; the first missing one is reported. -/
def stagedPartitions (m : Manifest) :
    List (String × String) → Except String (List (String × String))
  | [] => .ok []
  | (partition, imageName) :: rest =>
    match stagedFile m imageName with
    | none =>
      .error ("Staged image " ++ imageName ++ " not found for partition " ++ partition)
    | some path =>
      match stagedPartitions m rest with
      | .error e => .error e
      | .ok staged => .ok ((partition, path) :: staged)

/-- `heimdall.flash` -/
def heimdallFlash (upper : String → String) (partitions : List (String × String)) (reboot : Bool) :
    StepAction :=
  if partitions = [] then failure "no partitions specified"
  else
    .heimdall ("flash" :: (if reboot then [] else ["--no-reboot"]) ++
      partitions.flatMap fun p => ["--" ++ upper p.1, p.2]) 600

def executeHeimdallStep (upper : String → String) (m : Manifest) (stepName : String) : StepAction :=
  if stepName = "detect_download_mode" then .heimdall ["detect"] 120
  else if stepName = "print_pit" then .heimdall ["print-pit", "--no-reboot"] 30
  else if stepName = "boot_validation" then .heimdall ["close"] 15
  else if stepName = "wipe_userdata" then
    .reply { ok := true, stdout := "wipe deferred to recovery step", returncode := some 0 }
  else
    match manifestStep m stepName with
    | none => failure ("No manifest step for " ++ stepName)
    | some flashStep =>
      let rawPartitions :=
        if flashStep.partitions = [] then commandPartitions (split (flashStep.command.getD "")) []
        else flashStep.partitions
      match stagedPartitions m rawPartitions with
      | .error reason => failure reason
      | .ok staged => heimdallFlash upper staged (stepName == "flash_final")

def executeLiveStep (upper : String → String) (plan : FlashPlan) (device : String) (m : Manifest)
    (step : FlashStep) : StepAction :=
  let serial := strip device
  let name := step.name.getD ""
  if plan.installMode = "fastboot_images" then executeFastbootStep serial m name plan.transport
  else if plan.installMode = "adb_sideload" then executeAdbSideloadStep serial m name
  else if plan.installMode = "heimdall_flash" then executeHeimdallStep upper m name
  else failure ("Unsupported install mode " ++ plan.installMode)

/-! ### The run -/

structure ExecutedStep where
  stepNumber : ℕ
  name : String
  kind : String
  destructive : Bool
  mode : String
  status : String
  description : String
  command : String
  commandResult : Option CommandResult := none
  deriving DecidableEq, Repr

structure Details where
  dryRun : Bool
  canExecute : Bool
  reason : Option String := none
  transcriptPath : Option String := none
  artifactManifestPath : Option String := none
  missingRequirements : Option (List String) := none
  steps : Option (List ExecutedStep) := none
  restorePathAvailable : Option Bool := none
  approvedScope : Option String := none
  buildPath : Option String := none
  transport : Option String := none
  installMode : Option String := none
  artifactBundlePath : Option String := none
  deriving DecidableEq, Repr

structure RunResult where
  status : String
  summary : String
  details : Details
  deriving DecidableEq, Repr

/-- A run returns its result, which it also writes to the transcript, or raises. -/
inductive RunEnd
  | returned (r : RunResult)
  | raised (error : String)
  deriving DecidableEq, Repr

/-- The commands a run issued and how it ended. -/
structure Run where
  issued : List DeviceCommand
  ending : RunEnd
  deriving DecidableEq, Repr

/-- The executor's payload. `device` is the text of the device's serial. -/
structure Payload where
  plan : FlashPlan
  approval : DestructiveApproval
  policy : PolicyModel
  device : String
  sessionDir : String
  dryRun : Bool := true
  deriving DecidableEq, Repr

inductive LoopEnd
  | finished (steps : List ExecutedStep)
  | failed (name : String) (steps : List ExecutedStep)
  | raised (error : String)
  deriving DecidableEq, Repr

/-- The step is one a live run performs. -/
def commanded (step : FlashStep) : Bool := step.command.getD "" ≠ ""

def executedStep (index : ℕ) (dry : Bool) (step : FlashStep) : ExecutedStep where
  stepNumber := index
  name := step.name.getD ("step_" ++ toString index)
  kind := step.kind.getD "unknown"
  destructive := step.destructive.getD false
  mode := if dry then "dry_run" else "live"
  status := if dry then "planned" else "completed"
  description := step.description.getD ""
  command := step.command.getD ""

/-- The loop of `run` over the steps, with the steps executed and the commands
issued so far. `act` resolves a step. -/
def runSteps (h : Host) (act : FlashStep → StepAction) (dry : Bool) :
    ℕ → List ExecutedStep → List DeviceCommand → List FlashStep → List DeviceCommand × LoopEnd
  | _, done, log, [] => (log, .finished done)
  | index, done, log, step :: steps =>
    let executed := executedStep index dry step
    if !dry && commanded step then
      match (act step).perform h log with
      | (sent, .raised e) => (log ++ sent, .raised e)
      | (sent, .result r) =>
        if r.ok then
          runSteps h act dry (index + 1)
            (done ++ [{ executed with commandResult := some r, status := "completed" }])
            (log ++ sent) steps
        else
          (log ++ sent, .failed executed.name
            (done ++ [{ executed with commandResult := some r, status := "failed" }]))
    else runSteps h act dry (index + 1) (done ++ [executed]) log steps

def loadArtifactManifest (readFile : String → ManifestFile) (plan : FlashPlan) : ManifestFile :=
  if plan.artifactManifestPath = "" then .missing else readFile plan.artifactManifestPath

def wipePhrase : String := "WIPE_AND_REBUILD"

def refused (status summary reason transcriptPath : String) : Run where
  issued := []
  ending := .returned
    { status, summary
      details :=
        { dryRun := true, canExecute := false, reason := some reason
          transcriptPath := some transcriptPath } }

/-- The part of `run` after the manifest was read. -/
def runWithManifest (upper : String → String) (h : Host) (p : Payload) (transcriptPath : String)
    (m : Manifest) : Run :=
  let dry := p.dryRun || p.plan.dryRun || !p.policy.allowLiveDestructiveActions
  if !p.plan.artifactsReady || m.status != some "ready" then
    { issued := []
      ending := .returned
        { status := "blocked_no_artifacts"
          summary := "Execution is blocked because ForgeOS does not have a ready flashable artifact bundle for this session."
          details :=
            { dryRun := true, canExecute := false, reason := some "artifacts_not_ready"
              artifactManifestPath := some p.plan.artifactManifestPath
              transcriptPath := some transcriptPath
              missingRequirements := some m.missingRequirements } } }
  else
    match runSteps h (executeLiveStep upper p.plan p.device m) dry 1 [] [] p.plan.steps with
    | (log, .raised e) => { issued := log, ending := .raised e }
    | (log, .failed name steps) =>
      { issued := log
        ending := .returned
          { status := "live_execution_failed"
            summary := "Live execution stopped at `" ++ name ++ "`."
            details :=
              { dryRun := false, canExecute := false, transcriptPath := some transcriptPath
                steps := some steps
                artifactManifestPath := some p.plan.artifactManifestPath
                buildPath := some p.plan.buildPath, transport := some p.plan.transport } } }
    | (log, .finished steps) =>
      { issued := log
        ending := .returned
          { status := if dry then "dry_run_complete" else "live_execution_complete"
            summary :=
              if dry then
                "Dry run completed. ForgeOS recorded the approved wipe-and-rebuild sequence without touching the device."
              else
                "Live execution completed. ForgeOS ran the available generic install commands for the staged artifact set."
            details :=
              { dryRun := dry, canExecute := true, transcriptPath := some transcriptPath
                steps := some steps
                restorePathAvailable := some p.plan.restorePathAvailable
                approvedScope := some p.approval.approvalScope
                buildPath := some p.plan.buildPath, transport := some p.plan.transport
                installMode := some p.plan.installMode
                artifactManifestPath := some p.plan.artifactManifestPath
                artifactBundlePath := some p.plan.artifactBundlePath } } }

/-- The part of `run` after the approval, the phrase and the restore path were checked. -/
def runCleared (upper : String → String) (h : Host) (readFile : String → ManifestFile)
    (p : Payload) (transcriptPath : String) : Run :=
  match loadArtifactManifest readFile p.plan with
  | .unreadable e => { issued := [], ending := .raised e }
  | .missing => runWithManifest upper h p transcriptPath {}
  | .readable m => runWithManifest upper h p transcriptPath m

/-- `FlashExecutorTool.run` -/
def run (upper : String → String) (h : Host) (readFile : String → ManifestFile) (p : Payload) :
    Run :=
  let transcriptPath := join (join p.sessionDir "execution") "flash-transcript.json"
  if !p.approval.approved then
    refused "awaiting_approval"
      "Destructive execution is blocked until the operator grants explicit wipe approval."
      "approval_missing" transcriptPath
  else if p.policy.requireExplicitWipePhrase && strip p.approval.confirmationPhrase != wipePhrase then
    refused "approval_invalid"
      "The destructive approval record is present, but the confirmation phrase is missing or incorrect."
      "invalid_confirmation_phrase" transcriptPath
  else if p.policy.requireRestorePath &&
      !(p.plan.restorePathAvailable && p.approval.restorePathConfirmed) then
    refused "blocked_no_restore_path"
      "Live destructive execution is blocked because a restore path is not yet confirmed."
      "restore_path_not_confirmed" transcriptPath
  else runCleared upper h readFile p transcriptPath

/-! ### What the loop sends -/

variable {h : Host} {act : FlashStep → StepAction}

/-- A step of the loop as an attempt: what it sends and whether the loop goes on. -/
def attemptStep (h : Host) (act : FlashStep → StepAction) (log : List DeviceCommand)
    (step : FlashStep) : List DeviceCommand × Bool :=
  (((act step).perform h log).1, ((act step).perform h log).2.ok)

theorem runSteps_dry (index : ℕ) (done : List ExecutedStep) (log : List DeviceCommand)
    (steps : List FlashStep) : (runSteps h act true index done log steps).1 = log := by
  induction steps generalizing index done with
  | nil => rfl
  | cons step steps ih =>
    rw [runSteps]
    simpa using ih _ _

/-- A live loop sends what the attempts at its commanded steps send. -/
theorem runSteps_live (index : ℕ) (done : List ExecutedStep) (log : List DeviceCommand)
    (steps : List FlashStep) :
    (runSteps h act false index done log steps).1 =
      log ++ sentBy (attempts (attemptStep h act) log (steps.filter commanded)) := by
  induction steps generalizing index done log with
  | nil => simp [runSteps]
  | cons step steps ih =>
    rw [runSteps]
    cases hc : commanded step with
    | false => simpa [hc] using ih (index + 1) _ log
    | true =>
      rw [List.filter_cons_of_pos hc]
      rcases hp : (act step).perform h log with ⟨sent, r | e⟩
      · cases hr : r.ok with
        | true =>
          have hok : (attemptStep h act log step).2 = true := by simp [attemptStep, hp, Outcome.ok, hr]
          have hsent : (attemptStep h act log step).1 = sent := by simp [attemptStep, hp]
          rw [attempts_cons_ok _ hok, hsent, sentBy_cons, ← List.append_assoc]
          simpa [hr] using ih (index + 1) _ (log ++ sent)
        | false =>
          have hok : (attemptStep h act log step).2 = false := by simp [attemptStep, hp, Outcome.ok, hr]
          rw [attempts_cons_fail _ hok]
          simp [attemptStep, hp, hr, sentBy]
      · have hok : (attemptStep h act log step).2 = false := by simp [attemptStep, hp, Outcome.ok]
        rw [attempts_cons_fail _ hok]
        simp [attemptStep, hp, sentBy]

end ForgeOS.Flash
