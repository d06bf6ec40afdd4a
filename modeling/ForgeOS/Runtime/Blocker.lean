import ForgeOS.Flash.Approved

/-! `BlockerEngine.classify`. The first condition that holds decides what keeps
the session from going on, whether the appliance can work on it by itself, and
how often it may try. -/

namespace ForgeOS.Runtime

open ForgeOS.Python ForgeOS.Flash

/-- What the inspection of a remediation artifact found. -/
structure Inspection where
  status : String := "artifact_failed"
  summary : Option String := none
  stagedFiles : List String := []
  /-- The status of the remote source resolution. -/
  remoteResolution : String := ""
  deriving DecidableEq, Repr

/-- What the engine reads. -/
structure Evidence where
  profile : DeviceProfile
  supportStatus : Option String := none
  assessmentSummary : Option String := none
  engagementStatus : String := "unknown"
  nextSteps : List String := []
  recommendedAdapter : Option String := none
  requiresCodexGeneration : Bool := false
  remediation : Option Inspection := none
  artifacts : BuildArtifacts
  deriving DecidableEq, Repr

structure Blocker where
  blockerType : BlockerType
  machineSolvable : Bool
  summary : String
  escalationCondition : String
  retryBudget : ℕ
  plannedNextAction : String
  userSteps : List String
  remediationStatus : String
  deriving DecidableEq, Repr

/-- The `confidence` of the answer. -/
def Blocker.confidence (b : Blocker) : ℚ := if b.blockerType = .none then 35 / 100 else 85 / 100

def Evidence.remediationStatus (e : Evidence) : String := (e.remediation.map Inspection.status).getD ""

/-- `manufacturer model (codename)` as the engine's texts name a device. -/
def Evidence.device (e : Evidence) : String :=
  orText e.profile.manufacturer "Unknown" ++ " " ++ orText e.profile.model "Unknown" ++ " (" ++
    orText (some e.profile.deviceCodename) "unknown-codename" ++ ")"

def Evidence.sourceDir (e : Evidence) : String :=
  orText e.artifacts.details.sourceDir "devices/<session>/artifacts/os-source/"

def directTransports : List String :=
  [Transport.usbAdb.value, Transport.usbFastboot.value, Transport.usbFastbootd.value]

/-- The status the answer reports. -/
def Evidence.reported (e : Evidence) : String := orText (some e.remediationStatus) "not_started"

def solvedBlocker (e : Evidence) : Blocker where
  blockerType := .none
  machineSolvable := false
  summary := "The most recent remediation artifact improved the session enough to continue the main plan."
  escalationCondition := "None"
  retryBudget := 0
  plannedNextAction := "continue_main_plan"
  userSteps := e.nextSteps
  remediationStatus := e.reported

def transportBlocker (e : Evidence) : Blocker where
  blockerType := .transport
  machineSolvable := true
  summary := "The phone is visible by USB but does not yet expose a fully managed transport. ForgeOS should generate generic host-side triage and transport diagnostics before pausing."
  escalationCondition := "Pause only if generated transport triage still shows that the phone needs a physical on-device action."
  retryBudget := 2
  plannedNextAction := "generate_host_transport_triage"
  userSteps := e.nextSteps
  remediationStatus := e.reported

def trustBlocker (e : Evidence) : Blocker where
  blockerType := .trust
  machineSolvable := false
  summary := "The phone is visible to adb but still requires on-device trust approval."
  escalationCondition := "Wait for user to approve USB debugging prompt."
  retryBudget := 0
  plannedNextAction := "ask_for_usb_debugging_trust"
  userSteps := e.nextSteps
  remediationStatus := e.reported

def policyBlocker (e : Evidence) : Blocker where
  blockerType := .policy
  machineSolvable := false
  summary := e.assessmentSummary.getD "A hard support blocker was identified."
  escalationCondition := "Do not proceed without new evidence or a safer alternative path."
  retryBudget := 0
  plannedNextAction := "halt_with_evidence"
  userSteps := e.nextSteps
  remediationStatus := e.reported

def researchBlocker (e : Evidence) (iteration : ℕ) : Blocker where
  blockerType := .source
  machineSolvable := true
  summary := "The device is connected, but ForgeOS has not proven a safe restore or install path yet. Continue bounded autonomous research, source discovery, and restore-path planning without destructive actions."
  escalationCondition := "Pause only after research and source acquisition cannot improve restore or install feasibility."
  retryBudget := max 1 (4 - min iteration 3)
  plannedNextAction := "source_acquisition_and_staging"
  userSteps :=
    ["Search trusted firmware/source locations and cached research for this exact device.",
      "Refresh restore-path evidence and keep destructive install gates closed until feasibility is proven."]
  remediationStatus := e.reported

def generationBlocker (e : Evidence) : Blocker where
  blockerType := .source
  machineSolvable := true
  summary := "Connection/build path requires generated session-specific code or configuration."
  escalationCondition := "Escalate only if generated artifacts fail to improve the path."
  retryBudget := 2
  plannedNextAction := "generate_generic_adapter_scaffold"
  userSteps := e.nextSteps
  remediationStatus := e.reported

def physicalBlocker (e : Evidence) : Blocker where
  blockerType := .physical
  machineSolvable := false
  summary := (e.remediation.bind Inspection.summary).getD
    "The latest remediation artifact concluded that a physical device action is required."
  escalationCondition := "Ask one minimal operational question and preserve the current rollback posture."
  retryBudget := 0
  plannedNextAction := "question_gate"
  userSteps := e.nextSteps
  remediationStatus := e.reported

def subsystemBlocker (e : Evidence) (iteration : ℕ) : Blocker where
  blockerType := .subsystem
  machineSolvable := iteration < 2
  summary := (e.remediation.bind Inspection.summary).getD
    "The remediation artifact failed and needs another generated attempt or review."
  escalationCondition := "Stop autonomous retries if repeated generated artifacts fail without improving evidence."
  retryBudget := 2 - iteration
  plannedNextAction := "generate_followup_diagnostic"
  userSteps := e.nextSteps
  remediationStatus := e.reported

def missingSourceBlocker (e : Evidence) (iteration : ℕ) : Blocker where
  blockerType := .source
  machineSolvable := true
  summary :=
    e.device ++ " is connected and ready, but no OS source artifacts are staged for the `" ++
      orText e.artifacts.details.buildPath "unknown" ++ "` build path. " ++
      "ForgeOS should first search known local source directories and research compatible firmware. " ++
      "If it still cannot find anything, stage a compatible firmware package under `" ++ e.sourceDir ++
      "` to continue. " ++
      "Supported: update.zip / ota.zip for adb sideload, or boot.img / system.img / vendor.img for fastboot."
  escalationCondition :=
    "Pause only after bounded autonomous source acquisition attempts fail to stage a compatible artifact."
  retryBudget := max 1 (6 - min iteration 5)
  plannedNextAction := "source_acquisition_and_staging"
  userSteps :=
    ["Allow ForgeOS to search local downloads, existing session artifacts, and research caches for " ++
        e.device ++ " firmware inputs.",
      "Place a compatible firmware archive or fastboot images for " ++ e.device ++ " into `" ++
        e.sourceDir ++ "`.",
      "ForgeOS will detect the artifact on the next refresh cycle and automatically advance the build pipeline."]
  remediationStatus := e.reported

def noBlocker (e : Evidence) : Blocker where
  blockerType := .none
  machineSolvable := false
  summary := "No immediate blocker classified."
  escalationCondition := "None"
  retryBudget := 0
  plannedNextAction := e.recommendedAdapter.getD "observe"
  userSteps := e.nextSteps
  remediationStatus := e.reported

/-- `classify`, after so many remediations of the session. -/
def classify (e : Evidence) (iteration : ℕ) : Blocker :=
  let transport := e.profile.transport.value
  if e.remediationStatus = "solved" then solvedBlocker e
  else if transport = Transport.usbMtp.value ∨ e.engagementStatus = "usb_only_detected" then
    transportBlocker e
  else if e.engagementStatus = "awaiting_user_approval" then trustBlocker e
  else if e.supportStatus = some "blocked" then policyBlocker e
  else if e.supportStatus = some "research_only" ∧ transport ∈ directTransports then
    researchBlocker e iteration
  else if e.requiresCodexGeneration then generationBlocker e
  else if e.remediationStatus = "needs_user_action" then physicalBlocker e
  else if e.remediationStatus = "artifact_failed" then subsystemBlocker e iteration
  else if transport ∈ directTransports ∧ e.supportStatus ∉ [some "blocked", some "research_only"] ∧
      e.artifacts.status ∈ ["missing_source", ""] then
    missingSourceBlocker e iteration
  else noBlocker e

/-- A blocker that the appliance cannot work on has no retry budget. -/
theorem classify_budget {e : Evidence} {iteration : ℕ}
    (h : (classify e iteration).machineSolvable = false) : (classify e iteration).retryBudget = 0 := by
  have hsubsystem : (subsystemBlocker e iteration).machineSolvable = false →
      (subsystemBlocker e iteration).retryBudget = 0 := by
    intro h
    have hmany : ¬iteration < 2 := of_decide_eq_false h
    show 2 - iteration = 0
    omega
  revert h
  unfold classify
  dsimp only
  split_ifs <;> first | exact hsubsystem | exact fun _ => rfl | exact nofun

/-- Before any remediation only the trust prompt and a blocked device need the operator. -/
theorem classify_external {e : Evidence} {iteration : ℕ} (hfirst : e.remediation = none)
    (hne : (classify e iteration).blockerType ≠ .none)
    (h : (classify e iteration).machineSolvable = false) :
    (classify e iteration).blockerType = .trust ∨ (classify e iteration).blockerType = .policy := by
  have hstatus : e.remediationStatus = "" := by
    rw [Evidence.remediationStatus, hfirst]
    rfl
  have huser : e.remediationStatus ≠ "needs_user_action" := by simp [hstatus]
  have hfailed : e.remediationStatus ≠ "artifact_failed" := by simp [hstatus]
  revert hne h
  unfold classify
  dsimp only
  rw [if_neg huser, if_neg hfailed]
  split_ifs <;>
    first
    | exact fun hne => absurd rfl hne
    | exact fun _ _ => .inl rfl
    | exact fun _ _ => .inr rfl
    | exact fun _ => nofun

end ForgeOS.Runtime
