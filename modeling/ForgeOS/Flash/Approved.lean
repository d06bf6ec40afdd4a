import ForgeOS.Flash.BuildResolver
import ForgeOS.Flash.Gates
import ForgeOS.Flash.Planner

/-! `ForgeOrchestrator.execute_approved_flash`, and what a deferred plan means
for it. A runtime cycle resolves a build path, stages artifacts and stores the
flash plan made from both; a later call executes the stored plan. Deferral is
written into the plan, but neither this function nor the executor reads it, so a
deferred plan stays off the device only through the gates both share with a
planned one, or because its first commands cannot be sent. -/

namespace ForgeOS.Flash

open ForgeOS.Python ForgeOS.Library.FailFast

/-! ### From the artifacts to the stored plan -/

/-- What the image builder reports. -/
structure BuildArtifacts where
  status : String
  artifacts : List String := []
  details : Manifest := {}
  deriving DecidableEq, Repr

/-- The build plan of a runtime cycle: the resolver's answer with the artifact entries. -/
def stagedBuildPlan (resolved : ResolvedBuild) (built : BuildArtifacts) : BuildPlan where
  osPath := some resolved.osPath
  artifactsReady := built.status = "ready"
  installMode := built.details.installMode.getD "unavailable"
  selectedOptionLabel := resolved.selectedOptionLabel
  includedFeatureLabels := resolved.includedFeatures.map Feature.label
  rejectedFeatureLabels := resolved.rejectedFeatures.map Feature.label
  artifactFlashSteps := built.details.flashSteps
  artifactManifestPath := built.artifacts.headD ""
  artifactBundlePath := built.details.bundlePath.getD ""
  artifactRequirements := resolved.artifactRequirements

/-- What a cycle makes a plan from, besides the policy. -/
structure PlanInputs where
  now : String
  writtenAt : String
  sessionId : String
  transport : Transport
  request : BuildRequest
  built : BuildArtifacts
  backup : BackupPlan
  deriving DecidableEq, Repr

/-- The plan a cycle stores; a cycle never plans in live mode. -/
def sessionPlan (title : String → String) (policy : PolicyModel) (i : PlanInputs) : FlashPlan :=
  { buildPlan i.now i.sessionId i.transport.value i.request.supportStatus
      (stagedBuildPlan (resolveBuild title i.request) i.built) i.backup policy false with
    updatedAt := i.writtenAt }

/-- The inputs leave no reason to defer an install. -/
structure Installable (i : PlanInputs) : Prop where
  attested : i.request.userProfile.lawfulUseAttested = true
  actionable : i.request.supportStatus = some "actionable"
  managed :
    i.request.selectedStrategy ∉ ["transport_recovery", "research_only", "blocked_research"]
  artifacts : i.built.status = "ready"

theorem sessionPlan_deferred_iff (title : String → String) (policy : PolicyModel)
    (i : PlanInputs) : (sessionPlan title policy i).status = "deferred" ↔ ¬Installable i := by
  refine (buildPlan_deferred_iff i.now i.sessionId i.transport.value i.request.supportStatus
    (stagedBuildPlan (resolveBuild title i.request) i.built) i.backup policy false).trans ?_
  have hpath : (stagedBuildPlan (resolveBuild title i.request) i.built).osPath =
      some "research_only_path" ↔ (resolveBuild title i.request).osPath = researchOnlyPath :=
    Option.some_inj
  have hready : (stagedBuildPlan (resolveBuild title i.request) i.built).artifactsReady = false ↔
      i.built.status ≠ "ready" := by
    simp [stagedBuildPlan]
  by_cases hactionable : i.request.supportStatus = some "actionable"
  · rw [hpath, osPath_research_iff title hactionable, hready]
    constructor
    · rintro (h | (h | h) | h) hi
      · exact h hi.actionable
      · simp [hi.attested] at h
      · exact hi.managed h
      · exact h hi.artifacts
    · intro hi
      by_contra hne
      push Not at hne
      exact hi ⟨Bool.eq_true_of_not_eq_false hne.2.1.1, hne.1, hne.2.1.2, hne.2.2⟩
  · exact ⟨fun _ hi => hactionable hi.actionable, fun _ => .inl hactionable⟩

/-! ### Executing the stored plan -/

/-- What `execute_approved_flash` reads of a session. -/
structure FlashSession where
  name : String
  dir : String
  flashPlan : Option FlashPlan
  approval : DestructiveApproval
  backupPlanExists : Bool
  serial : Option String
  deriving DecidableEq, Repr

/-- The payload handed to the executor. The policy is passed without its approval
switch, which falls back to its default, and a missing serial becomes a text. -/
def flashPayload (policy : PolicyModel) (s : FlashSession) (plan : FlashPlan) (liveMode : Bool) :
    Payload where
  plan := { plan with dryRun := !liveMode }
  approval := s.approval
  policy := { policy with destructiveOpsRequireApproval := true }
  device := s.serial.getD "None"
  sessionDir := s.dir
  dryRun := !liveMode

/-- `execute_approved_flash`, up to the transitions and the report that follow. -/
def executeApprovedFlash (upper : String → String) (h : Host) (readFile : String → ManifestFile)
    (policy : PolicyModel) (s : FlashSession) (liveMode : Bool) : Run :=
  match s.flashPlan with
  | none => { issued := [], ending := .raised ("No flash plan exists for session " ++ s.name) }
  | some plan =>
    if !s.backupPlanExists then
      { issued := []
        ending := .returned
          { status := "blocked_no_backup_bundle"
            summary := "Destructive execution is blocked because no pre-wipe backup bundle exists for this session."
            details :=
              { dryRun := true, canExecute := false, reason := some "backup_bundle_missing" } } }
    else run upper h readFile (flashPayload policy s plan liveMode)

/-! ### When nothing is sent -/

/-- Going through the steps up to the first failure sends nothing: every step
before it is answered on the host, and it itself is refused or cannot be sent. -/
def silent (h : Host) (act : FlashStep → StepAction) : List FlashStep → Bool
  | [] => true
  | step :: steps =>
    match act step with
    | .reply r => !r.ok || silent h act steps
    | .raise _ => true
    | .adb args => !h.issues [] ⟨.adb, args⟩
    | .fastboot args => !h.issues [] ⟨.fastboot, args⟩
    | .heimdall args _ => !h.issues [] ⟨.heimdall, args⟩

/-- A tool that cannot be called gives no success. -/
theorem platformRun_not_ok {h : Host} {log : List DeviceCommand} {tool : Tool} {args : List String}
    (missing : String) (hno : h.issues log ⟨tool, args⟩ = false) :
    (platformRun h log tool missing args).2.ok = false := by
  simp only [Host.issues, Bool.and_eq_false_iff] at hno
  unfold platformRun
  rcases hno with hno | hno
  · simp [hno, Outcome.ok]
  · cases h.available log tool <;> simp [hno, Outcome.ok]

theorem heimdallRun_not_ok {h : Host} {log : List DeviceCommand} {args : List String}
    (timeout : ℕ) (hno : h.issues log ⟨.heimdall, args⟩ = false) :
    (heimdallRun h log args timeout).2.ok = false := by
  simp only [Host.issues, Bool.and_eq_false_iff] at hno
  simp only [heimdallRun]
  rcases hno with hno | hno
  · simp [hno, Outcome.ok]
  · cases h.available log .heimdall <;> simp [hno, Outcome.ok]

theorem sentBy_attempts_iff_silent (h : Host) (act : FlashStep → StepAction)
    (steps : List FlashStep) :
    sentBy (attempts (attemptStep h act) [] steps) = [] ↔ silent h act steps = true := by
  induction steps with
  | nil => simp [silent]
  | cons step steps ih =>
    -- a step that calls a tool decides alone: sent means a command, not sent means failed
    have hcall : ∀ c : DeviceCommand, (act step).command? = some c →
        (h.issues [] c = false → (attemptStep h act [] step).2 = false) →
        (sentBy (attempts (attemptStep h act) [] (step :: steps)) = [] ↔
          (!h.issues [] c) = true) := by
      intro c hc hfail
      have hsent : (attemptStep h act [] step).1 = [c].filter (h.issues []) := by
        rw [attemptStep, StepAction.perform_sent, hc]
        rfl
      constructor
      · intro hnil
        cases hi : h.issues [] c with
        | false => rfl
        | true =>
          rw [attempts, sentBy_cons, hsent] at hnil
          simp [hi] at hnil
      · intro hno
        have hi : h.issues [] c = false := by simpa using hno
        rw [attempts_cons_fail _ (hfail hi)]
        simp [sentBy, hsent, hi]
    cases ha : act step with
    | reply r =>
      have hsent : (attemptStep h act [] step).1 = [] := by
        simp [attemptStep, ha, StepAction.perform]
      simp only [silent, ha]
      cases hr : r.ok with
      | true =>
        have hok : (attemptStep h act [] step).2 = true := by
          simp [attemptStep, ha, StepAction.perform, Outcome.ok, hr]
        rw [attempts_cons_ok _ hok, hsent, sentBy_cons]
        simpa using ih
      | false =>
        have hok : (attemptStep h act [] step).2 = false := by
          simp [attemptStep, ha, StepAction.perform, Outcome.ok, hr]
        rw [attempts_cons_fail _ hok, hsent]
        simp
    | raise e =>
      have hok : (attemptStep h act [] step).2 = false := by
        simp [attemptStep, ha, StepAction.perform, Outcome.ok]
      rw [attempts_cons_fail _ hok]
      simp [silent, ha, attemptStep, StepAction.perform]
    | adb args =>
      simp only [silent, ha]
      exact hcall ⟨.adb, args⟩ (by rw [ha]; rfl) fun hi => by
        simpa [attemptStep, ha, StepAction.perform, adbRun] using platformRun_not_ok _ hi
    | fastboot args =>
      simp only [silent, ha]
      exact hcall ⟨.fastboot, args⟩ (by rw [ha]; rfl) fun hi => by
        simpa [attemptStep, ha, StepAction.perform, fastbootRun] using platformRun_not_ok _ hi
    | heimdall args timeout =>
      simp only [silent, ha]
      exact hcall ⟨.heimdall, args⟩ (by rw [ha]; rfl) fun hi => by
        simpa [attemptStep, ha, StepAction.perform] using heimdallRun_not_ok timeout hi

/-- A flash of the session is held back by a gate that planned and deferred plans
share, or nothing of it can be sent. -/
def Held (upper : String → String) (h : Host) (readFile : String → ManifestFile)
    (policy : PolicyModel) (s : FlashSession) (plan : FlashPlan) (liveMode : Bool) : Prop :=
  s.backupPlanExists = false ∨
    ∀ m, loadArtifactManifest readFile plan = .readable m →
      Authorized (flashPayload policy s plan liveMode) m →
        silent h (executeLiveStep upper plan (s.serial.getD "None") m)
          (plan.steps.filter commanded) = true

variable (upper title : String → String) (h : Host) (readFile : String → ManifestFile)
  (policy : PolicyModel) (s : FlashSession)

theorem executeApprovedFlash_issued_iff (plan : FlashPlan) (liveMode : Bool) :
    (executeApprovedFlash upper h readFile policy { s with flashPlan := some plan } liveMode).issued
      = [] ↔ Held upper h readFile policy s plan liveMode := by
  have hlive : ∀ m, liveAttempts upper h (flashPayload policy s plan liveMode) m =
      attempts (attemptStep h (executeLiveStep upper plan (s.serial.getD "None") m)) []
        (plan.steps.filter commanded) := fun _ => rfl
  by_cases hb : s.backupPlanExists = true
  · have hrun : executeApprovedFlash upper h readFile policy { s with flashPlan := some plan }
        liveMode = run upper h readFile (flashPayload policy s plan liveMode) := by
      simp [executeApprovedFlash, hb, flashPayload]
    rw [hrun]
    rcases run_issued_cases upper h readFile (flashPayload policy s plan liveMode) with
      ⟨m, hload, hauth, hissued⟩ | ⟨hnone, hissued⟩
    · rw [hissued, hlive, sentBy_attempts_iff_silent]
      constructor
      · intro hsilent
        refine .inr fun m' hload' _ => ?_
        obtain rfl : m = m' := by
          have : ManifestFile.readable m = .readable m' := hload.symm.trans hload'
          simpa using this
        exact hsilent
      · rintro (hno | hheld)
        · simp [hb] at hno
        · exact hheld m hload hauth
    · rw [hissued]
      exact ⟨fun _ => .inr fun m hload hauth => absurd ⟨m, hload, hauth⟩ hnone, fun _ => rfl⟩
  · simp [executeApprovedFlash, Held, hb]

/-- The first command of a fastboot or sideload install. -/
def firstCommand (installMode transport serial : String) : DeviceCommand :=
  if installMode = "fastboot_images" then
    if transport = Transport.usbAdb.value then
      ⟨.adb, serialArgs serial ++ ["reboot", "bootloader"]⟩
    else ⟨.fastboot, serialArgs serial ++ ["erase", "userdata"]⟩
  else ⟨.adb, serialArgs serial ++ ["shell", "recovery", "--wipe_data"]⟩

/-- A stored fastboot or sideload plan is silent only where its first command
cannot be issued at all. -/
theorem silent_sessionPlan (i : PlanInputs) (device : String) (m : Manifest) {mode : String}
    (hbuilt : i.built.details.installMode = some mode)
    (hmode : mode = "fastboot_images" ∨ mode = "adb_sideload") :
    silent h (executeLiveStep upper (sessionPlan title policy i) device m)
        ((sessionPlan title policy i).steps.filter commanded) =
      !h.issues [] (firstCommand mode i.transport.value (strip device)) := by
  have hsteps := planSteps_eq i.transport.value
    ((dictGet i.backup "backup_bundle_path").getD "unknown")
    (stagedBuildPlan (resolveBuild title i.request) i.built)
  have hinstall : (sessionPlan title policy i).installMode = mode := by
    simp [sessionPlan, buildPlan, stagedBuildPlan, hbuilt]
  have htransport : (sessionPlan title policy i).transport = i.transport.value := rfl
  have hplan : (sessionPlan title policy i).steps = planSteps i.transport.value
      ((dictGet i.backup "backup_bundle_path").getD "unknown")
      (stagedBuildPlan (resolveBuild title i.request) i.built) := rfl
  have hquiet : ∀ path, [preflightChecks, verifyBackupBundle path, restoreCheckpoint].filter
      commanded = [] := fun _ => rfl
  have hmode' : (stagedBuildPlan (resolveBuild title i.request) i.built).installMode = mode := by
    simp [stagedBuildPlan, hbuilt]
  rw [hplan, hsteps, hmode', List.filter_append, List.filter_append, hquiet, List.nil_append,
    List.filter_append]
  rcases hmode with rfl | rfl
  · by_cases ht : i.transport.value = Transport.usbAdb.value
    · have hfirst : (modeSteps "fastboot_images" i.transport.value).filter commanded =
          [enterFastboot Transport.usbAdb.value, wipeFastboot] := by
        rw [ht]
        decide
      have hne : Transport.usbAdb.value ≠ Transport.usbFastboot.value := by decide
      rw [hfirst]
      simp [silent, executeLiveStep, executeFastbootStep, hinstall, htransport, ht, enterFastboot,
        hne, firstCommand]
    · have hfirst : (modeSteps "fastboot_images" i.transport.value).filter commanded =
          [wipeFastboot] := by
        simp [modeSteps, enterFastboot, commanded, ht, wipeFastboot]
      rw [hfirst]
      simp [silent, executeLiveStep, executeFastbootStep, hinstall, wipeFastboot, firstCommand, ht]
  · have hfirst : (modeSteps "adb_sideload" i.transport.value).filter commanded =
        [wipeSideload, enterSideload] := rfl
    rw [hfirst]
    simp [silent, executeLiveStep, executeAdbSideloadStep, hinstall, wipeSideload, firstCommand]

/-- A deferred plan is kept off the device exactly when the inputs give no reason
to defer or the flash is held back for another reason. -/
theorem deferred_issues_nothing_iff (i : PlanInputs) (liveMode : Bool) :
    ((sessionPlan title policy i).status = "deferred" →
        (executeApprovedFlash upper h readFile policy
          { s with flashPlan := some (sessionPlan title policy i) } liveMode).issued = []) ↔
      Installable i ∨ Held upper h readFile policy s (sessionPlan title policy i) liveMode := by
  rw [sessionPlan_deferred_iff, executeApprovedFlash_issued_iff]
  exact ⟨fun himp => or_iff_not_imp_left.mpr himp, fun hor hni => hor.resolve_left hni⟩

/-! ### A deferred plan that reaches the device -/

/-- A session whose operator never attested lawful use, with everything else in place. -/
def unattestedInputs : PlanInputs where
  now := "t0"
  writtenAt := "t0"
  sessionId := "s"
  transport := .usbAdb
  request := { supportStatus := some "actionable", selectedStrategy := "hardened_stock" }
  built :=
    { status := "ready"
      artifacts := ["/s/runtime/build/artifact-manifest.json"]
      details :=
        { status := some "ready"
          installMode := some "fastboot_images"
          stagedFiles := ["/s/runtime/build/staged/boot.img"]
          flashSteps :=
            [{ name := some "flash_boot", kind := some "flash"
               command := some "fastboot flash boot boot.img" }] } }
  backup := [("backup_bundle_path", "/s/backup/bundle.tar")]

def approvedSession : FlashSession where
  name := "s"
  dir := "/s"
  flashPlan := none
  approval :=
    { sessionId := "s", approved := true, confirmationPhrase := wipePhrase
      restorePathConfirmed := true }
  backupPlanExists := true
  serial := some "R58"

/-- The plan is deferred because lawful use is not attested, and yet a live flash
erases the device and flashes it. -/
theorem unattested_flash_reaches_device :
    (sessionPlan asciiTitle { allowLiveDestructiveActions := true } unattestedInputs).status =
        "deferred" ∧
      (executeApprovedFlash asciiUpper .obliging (fun _ => .readable unattestedInputs.built.details)
        { allowLiveDestructiveActions := true }
        { approvedSession with
          flashPlan := some
            (sessionPlan asciiTitle { allowLiveDestructiveActions := true } unattestedInputs) }
        true).issued =
        [⟨.adb, ["-s", "R58", "reboot", "bootloader"]⟩,
          ⟨.fastboot, ["-s", "R58", "erase", "userdata"]⟩,
          ⟨.fastboot, ["-s", "R58", "flash", "boot", "/s/runtime/build/staged/boot.img"]⟩] := by
  decide

end ForgeOS.Flash
