import Mathlib.Data.Rat.Defs
import Mathlib.Data.Fintype.Basic

/-! The records and enumerations the parts of the appliance exchange. Texts that
the source keeps as plain strings, such as an install mode or a plan status, are
strings here too; enumerations of the source are inductive types with their
`value`. Time stamps are texts passed in by the caller, and a field that a
dictionary of the source may lack is an `Option`. -/

namespace ForgeOS

/-! ### Enumerations -/

inductive Transport
  | usbAdb | usbFastboot | usbFastbootd | usbRecovery | usbMtp | unknown
  deriving DecidableEq, Repr

def Transport.value : Transport → String
  | usbAdb => "usb-adb"
  | usbFastboot => "usb-fastboot"
  | usbFastbootd => "usb-fastbootd"
  | usbRecovery => "usb-recovery"
  | usbMtp => "usb-mtp"
  | unknown => "unknown"

inductive SessionStateName
  | idle | deviceAttached | intake | accessEnablement | discover | deepScan | assess
  | profileSynthesis | matchMaster | recommend | backupPlan | backupReady | unlockPrep | unlock
  | baselineCapture | pathSelect | blockerClassify | remediationDecide | taskCreate | codegenTask
  | codegenWrite | patchApply | executeStep | executeArtifact | inspectResult
  | connectivityValidate | securityValidate | buildGeneric | buildDevice | previewBuild
  | previewReview | interactiveVerify | signImages | flashPrep | installApproval | flash
  | bootstrapDevice | bringup | harden | validate | postInstallVerify | complete | iterate
  | questionGate | promote | restore | blocked
  deriving DecidableEq, Repr

def SessionStateName.all : List SessionStateName :=
  [idle, deviceAttached, intake, accessEnablement, discover, deepScan, assess, profileSynthesis,
    matchMaster, recommend, backupPlan, backupReady, unlockPrep, unlock, baselineCapture,
    pathSelect, blockerClassify, remediationDecide, taskCreate, codegenTask, codegenWrite,
    patchApply, executeStep, executeArtifact, inspectResult, connectivityValidate,
    securityValidate, buildGeneric, buildDevice, previewBuild, previewReview, interactiveVerify,
    signImages, flashPrep, installApproval, flash, bootstrapDevice, bringup, harden, validate,
    postInstallVerify, complete, iterate, questionGate, promote, restore, blocked]

theorem SessionStateName.mem_all (s : SessionStateName) : s ∈ all := by
  cases s <;> decide

instance : Fintype SessionStateName := Fintype.ofList SessionStateName.all SessionStateName.mem_all

inductive SupportStatus
  | actionable | researchOnly | blocked | experimental
  deriving DecidableEq, Repr

def SupportStatus.value : SupportStatus → String
  | actionable => "actionable"
  | researchOnly => "research_only"
  | blocked => "blocked"
  | experimental => "experimental"

inductive BlockerType
  | transport | trust | source | build | flash | boot | subsystem | validation | policy
  | physical | none
  deriving DecidableEq, Repr

def BlockerType.value : BlockerType → String
  | transport => "transport_blocker"
  | trust => "trust_blocker"
  | source => "source_blocker"
  | build => "build_blocker"
  | flash => "flash_blocker"
  | boot => "boot_blocker"
  | subsystem => "subsystem_blocker"
  | validation => "validation_blocker"
  | policy => "policy_blocker"
  | physical => "physical_action_blocker"
  | none => "none"

/-! ### Devices -/

structure DeviceProfile where
  sessionId : String
  canonicalName : String
  deviceCodename : String
  fingerprint : String
  manufacturer : Option String := none
  model : Option String := none
  serial : Option String := none
  androidVersion : Option String := none
  transport : Transport := .unknown
  deriving DecidableEq, Repr

/-- `probe_data`: what is known about the device of an event. -/
structure ProbeData where
  manufacturer : Option String := none
  model : Option String := none
  serial : Option String := none
  androidVersion : Option String := none
  transport : Option Transport := none
  deviceCodename : Option String := none
  deriving DecidableEq, Repr

/-! ### Policy and approval -/

/-- The switches of the policy that the modelled code reads. -/
structure PolicyModel where
  requireRestorePath : Bool := true
  allowLiveDestructiveActions : Bool := false
  requireExplicitWipePhrase : Bool := true
  destructiveOpsRequireApproval : Bool := true
  deriving DecidableEq, Repr

structure DestructiveApproval where
  sessionId : String
  approved : Bool := false
  approvalScope : String := "none"
  confirmationPhrase : String := ""
  approvedBy : String := "local_operator"
  consequencesAcknowledged : Bool := false
  restorePathConfirmed : Bool := false
  notes : String := ""
  approvedAt : Option String := none
  updatedAt : String := ""
  deriving DecidableEq, Repr

structure ApprovalGate where
  action : String
  allowed : Bool
  requiresExplicitApproval : Bool
  reason : String
  missingRequirements : List String := []
  consequences : List String := []
  deriving DecidableEq, Repr

/-! ### Flash plans and image manifests -/

/-- One step of a flash plan. -/
structure FlashStep where
  name : Option String := none
  kind : Option String := none
  destructive : Option Bool := none
  description : Option String := none
  command : Option String := none
  deriving DecidableEq, Repr

structure FlashPlan where
  sessionId : String
  buildPath : String
  dryRun : Bool := true
  requiresUnlock : Bool := false
  requiresWipe : Bool := true
  restorePathAvailable : Bool := false
  artifactsReady : Bool := false
  installMode : String := "unavailable"
  artifactManifestPath : String := ""
  artifactBundlePath : String := ""
  transport : String := Transport.unknown.value
  stepCount : ℕ := 0
  steps : List FlashStep := []
  artifactHints : List String := []
  status : String := "planned"
  summary : String := ""
  generatedAt : String := ""
  updatedAt : String := ""
  deriving DecidableEq, Repr

/-- One flash step of an image manifest. `partitions` maps a partition to the
name of the image for it, in insertion order. -/
structure ManifestStep where
  name : Option String := none
  kind : Option String := none
  command : Option String := none
  partitions : List (String × String) := []
  description : Option String := none
  deriving DecidableEq, Repr

structure Manifest where
  status : Option String := none
  installMode : Option String := none
  sourceDir : Option String := none
  buildPath : Option String := none
  proposedOsName : Option String := none
  stagedFiles : List String := []
  sourceArtifact : Option String := none
  bundlePath : Option String := none
  flashSteps : List ManifestStep := []
  missingRequirements : List String := []
  deriving DecidableEq, Repr

/-! ### Session state -/

structure TransitionRecord where
  fromState : SessionStateName
  toState : SessionStateName
  reason : String
  timestamp : String := ""
  deriving DecidableEq, Repr

structure SessionState where
  sessionId : String
  state : SessionStateName := .idle
  history : List TransitionRecord := []
  priorityOrder : List String :=
    ["safety_reversibility", "security", "connectivity", "core_operability",
      "functionality_expansion"]
  destructiveActionsApproved : Bool := false
  selectedStrategy : Option String := none
  supportStatus : SupportStatus := .researchOnly
  currentBlockerType : Option String := none
  blockerConfidence : ℚ := 0
  remediationIteration : ℕ := 0
  iterateCount : ℕ := 0
  createdAt : String := ""
  updatedAt : String := ""
  notes : List String := []
  deriving DecidableEq, Repr

end ForgeOS
