import ForgeOS.Models
import ForgeOS.Python.Dict

/-! `FlashExecutorTool.build_plan`. Every plan begins with the host-side checks
and ends with the boot validation; the steps that reach the device are inserted
before the last one, in the order transport, wipe and flash, or wipe, transport
and flash for a sideload. A plan is deferred while the assessment is not
actionable, the build path is the research one, or no artifacts are ready. -/

namespace ForgeOS.Flash

open ForgeOS.Python

/-- The entries of the build plan dictionary that a flash plan is made from. -/
structure BuildPlan where
  osPath : Option String := none
  artifactsReady : Bool := false
  installMode : String := "unavailable"
  selectedOptionLabel : String := "the proposed device profile"
  includedFeatureLabels : List String := []
  rejectedFeatureLabels : List String := []
  artifactFlashSteps : List ManifestStep := []
  artifactManifestPath : String := ""
  artifactBundlePath : String := ""
  artifactRequirements : List String := []
  deriving DecidableEq, Repr

/-- `xs.insert(-1, x)` -/
def insertBeforeLast {α : Type*} (xs : List α) (x : α) : List α :=
  xs.take (xs.length - 1) ++ x :: xs.drop (xs.length - 1)

def preflightChecks : FlashStep where
  name := some "preflight_checks"
  kind := some "verification"
  destructive := some false
  description := some "Confirm transport, power stability, and host tooling readiness."

def verifyBackupBundle (bundlePath : String) : FlashStep where
  name := some "verify_backup_bundle"
  kind := some "safety"
  destructive := some false
  description := some ("Confirm the pre-wipe backup bundle exists at " ++ bundlePath ++ ".")

def restoreCheckpoint : FlashStep where
  name := some "restore_checkpoint"
  kind := some "safety"
  destructive := some false
  description := some "Record restore and rollback metadata before touching partitions."

def bootValidation : FlashStep where
  name := some "boot_validation"
  kind := some "validation"
  destructive := some false
  description := some "Boot the device and verify initial connectivity and integrity."

def enterFastboot (transport : String) : FlashStep where
  name := some "enter_fastboot"
  kind := some "transport"
  destructive := some false
  description := some "Reboot an adb-visible device into bootloader mode before flashing images."
  command := some (if transport = Transport.usbAdb.value then "adb reboot bootloader" else "")

def wipeFastboot : FlashStep where
  name := some "wipe_userdata"
  kind := some "wipe"
  destructive := some true
  description := some "Wipe user data and prepare a clean installation target."
  command := some "fastboot erase userdata"

def wipeSideload : FlashStep where
  name := some "wipe_userdata"
  kind := some "wipe"
  destructive := some true
  description := some
    "Ask recovery to wipe user data before applying the staged sideload package where supported."
  command := some "adb shell recovery --wipe_data"

def enterSideload : FlashStep where
  name := some "enter_sideload"
  kind := some "transport"
  destructive := some false
  description := some "Reboot into recovery sideload mode before applying the staged package."
  command := some "adb reboot sideload"

/-- The plan's step for a flash step of the manifest. -/
def artifactStep (optionLabel : String) (step : ManifestStep) : FlashStep where
  name := some (step.name.getD "flash_images")
  kind := some (step.kind.getD "flash")
  destructive := some true
  description := some (step.description.getD
    ("Flash the selected image set for `" ++ optionLabel ++ "` on the resolved OS path."))
  command := some (step.command.getD "")

def baseSteps (bundlePath : String) : List FlashStep :=
  [preflightChecks, verifyBackupBundle bundlePath, restoreCheckpoint, bootValidation]

def modeSteps (installMode transport : String) : List FlashStep :=
  if installMode = "fastboot_images" then [enterFastboot transport, wipeFastboot]
  else if installMode = "adb_sideload" then [wipeSideload, enterSideload]
  else []

/-- The steps of a plan, each insertion as the source makes it. -/
def planSteps (transport bundlePath : String) (build : BuildPlan) : List FlashStep :=
  (modeSteps build.installMode transport ++
    build.artifactFlashSteps.map (artifactStep build.selectedOptionLabel)).foldl
      insertBeforeLast (baseSteps bundlePath)

def installDeferred (supportStatus : String) (build : BuildPlan) : Bool :=
  supportStatus ≠ "actionable" || build.osPath = some "research_only_path" || !build.artifactsReady

/-- `", ".join(labels) or default` -/
def joinOr (labels : List String) (default : String) : String :=
  let text := ", ".intercalate labels
  if text ≠ "" then text else default

/-- `FlashExecutorTool.build_plan`, at the time `now`. -/
def buildPlan (now sessionId transport : String) (supportStatus : Option String)
    (build : BuildPlan) (backup : List (String × String)) (policy : PolicyModel)
    (liveMode : Bool) : FlashPlan :=
  let support := supportStatus.getD "research_only"
  let steps := planSteps transport ((dictGet backup "backup_bundle_path").getD "unknown") build
  let deferred := installDeferred support build
  { sessionId
    buildPath := build.osPath.getD "unknown"
    dryRun := !(liveMode && policy.allowLiveDestructiveActions)
    requiresUnlock := transport ∈ [Transport.usbFastboot.value, Transport.usbFastbootd.value]
    requiresWipe := true
    restorePathAvailable := support = "actionable"
    artifactsReady := build.artifactsReady
    installMode := build.installMode
    artifactManifestPath := build.artifactManifestPath
    artifactBundlePath := build.artifactBundlePath
    transport
    stepCount := steps.length
    steps
    artifactHints := build.artifactRequirements
    status := if deferred then "deferred" else "planned"
    summary :=
      if deferred then
        "Install planning is deferred while ForgeOS continues research, recommendation, preview, verification, or artifact staging."
      else
        "Prepared a conservative flash plan with preflight, backup verification, restore checkpoint, wipe, flash, and validation phases " ++
          "for " ++ build.selectedOptionLabel ++ ". Included features: " ++
          joinOr (build.includedFeatureLabels.take 4) "default profile features" ++
          ". Held back: " ++
          joinOr (build.rejectedFeatureLabels.take 3)
            "no explicit feature rejections recorded yet" ++ "."
    generatedAt := now
    updatedAt := now }

/-! ### The order of the steps -/

theorem insertBeforeLast_append_singleton {α : Type*} (xs : List α) (y x : α) :
    insertBeforeLast (xs ++ [y]) x = xs ++ [x] ++ [y] := by
  simp [insertBeforeLast]

theorem foldl_insertBeforeLast {α : Type*} (xs : List α) (y : α) (zs : List α) :
    zs.foldl insertBeforeLast (xs ++ [y]) = xs ++ zs ++ [y] := by
  induction zs generalizing xs with
  | nil => simp
  | cons z zs ih =>
    rw [List.foldl_cons, insertBeforeLast_append_singleton, ih]
    simp

/-- The host-side checks, then the steps of the mode, then the flash steps, then
the boot validation. -/
theorem planSteps_eq (transport bundlePath : String) (build : BuildPlan) :
    planSteps transport bundlePath build =
      [preflightChecks, verifyBackupBundle bundlePath, restoreCheckpoint] ++
        (modeSteps build.installMode transport ++
          build.artifactFlashSteps.map (artifactStep build.selectedOptionLabel)) ++
        [bootValidation] :=
  foldl_insertBeforeLast [preflightChecks, verifyBackupBundle bundlePath, restoreCheckpoint]
    bootValidation _

theorem buildPlan_deferred_iff (now sessionId transport : String) (supportStatus : Option String)
    (build : BuildPlan) (backup : List (String × String)) (policy : PolicyModel)
    (liveMode : Bool) :
    (buildPlan now sessionId transport supportStatus build backup policy liveMode).status =
        "deferred" ↔
      supportStatus ≠ some "actionable" ∨ build.osPath = some "research_only_path" ∨
        build.artifactsReady = false := by
  have hsupport : supportStatus.getD "research_only" ≠ "actionable" ↔
      supportStatus ≠ some "actionable" := by
    cases supportStatus <;> simp
  simp only [buildPlan, installDeferred, hsupport]
  by_cases h₁ : supportStatus = some "actionable" <;>
    by_cases h₂ : build.osPath = some "research_only_path" <;>
    cases h₃ : build.artifactsReady <;> simp [h₁, h₂]

end ForgeOS.Flash
