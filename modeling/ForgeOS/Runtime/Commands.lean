import ForgeOS.Runtime.CycleStart

/-! What a cycle may send to a device that destroys something. The queries that the code itself
makes destroy nothing; whatever else is started in a cycle is decided elsewhere: by the model, in a
script it wrote or in its answer, or by a program of the host. Neither the approval of the operator
nor the policy is read on any of these paths. Which commands destroy something is for `adb` and
`fastboot` to say, so it is an argument here. -/

namespace ForgeOS.Runtime

open ForgeOS.Python ForgeOS.Flash ForgeOS.Image ForgeOS.Session ForgeOS.Library.Trace

variable (o : Orchestrator) (c : CycleInputs)

/-! ### Starts that are decided elsewhere -/

def foreignContact : List Launch :=
  if c.executeWorkers ∧ c.noMasterAdapter then o.startAll c.support.deviceResearch else []

/-- The runs of a remediation artifact, without the queries of the template. -/
def foreignArtifact (blocker : Blocker) : List Launch :=
  (List.range c.remediation.experiments).flatMap fun k =>
    if blocker.blockerType = .source then o.startAll c.support.artifacts
    else if c.remediation.modelWritten then [o.host.start c.remediation.artifact k]
    else []

def foreignMiddle (opening : Opening) : List Launch :=
  if remediates o c opening then
    (executeRouted o.host o.setup
      (remediationTask c opening.blocker opening.state.remediationIteration)).launched ++
        foreignArtifact o c opening.blocker
  else if opening.blocker.blockerType ≠ .none then questionLaunches o c opening
  else []

def foreignInspection (opening : Opening) (progress : Progress) : List Launch :=
  closingLaunches o c opening progress ++
    ((if previewed o c opening progress then o.startAll c.support.capabilities else []) ++
      if verified o c opening progress then o.startAll c.support.capabilities else [])

/-- What a cycle starts besides the queries of the code: research and build programs, the
workers, the remediation artifact, and what the model answers to the question about a blocker. -/
def foreignLaunches (r : RuntimeState) : List Launch :=
  foreignContact o c ++ (o.startAll c.support.artifacts ++ (workerLaunches o c (openingOf o c r) ++
    (foreignMiddle o c (openingOf o c r) ++
      foreignInspection o c (openingOf o c r) (outcome o c r))))

/-- What the cycle starts. -/
def startedBy (r : RuntimeState) : List Launch :=
  (final (runRuntimeCycle o c) r).launched.drop r.launched.length

/-! ### The rest only asks -/

section Issues

variable {p : DeviceCommand → Prop} (hp : ∀ c, IsQuery c → p c)

include hp

theorem issues_scanLaunches (r : RuntimeState) : Issues p (scanLaunches o r) := by
  rw [scanLaunches]
  split_ifs
  · exact (issues_deepScanQueries o.host _).mono hp
  · exact issues_nil

theorem issues_firstContact_iff (profile : DeviceProfile) :
    Issues p (firstContactLaunches o c profile) ↔ Issues p (foreignContact o c) := by
  rw [firstContactLaunches, foreignContact]
  split_ifs
  · exact issues_program_cons ((issues_adapterProbe o.host _ _).mono hp)
  · exact Iff.rfl

theorem issues_artifact_iff (blocker : Blocker) :
    Issues p (artifactLaunches o c blocker) ↔ Issues p (foreignArtifact o c blocker) := by
  rw [artifactLaunches, foreignArtifact, issues_flatMap, issues_flatMap]
  refine forall_congr' fun k => imp_congr_right fun _ => ?_
  split_ifs
  · exact issues_program_cons ((issues_artifactQueries o.host true).mono hp)
  · exact Iff.rfl
  · exact issues_program_cons ((issues_artifactQueries o.host false).mono hp)

theorem issues_middle_iff (opening : Opening) :
    Issues p (middleLaunches o c opening) ↔ Issues p (foreignMiddle o c opening) := by
  rw [middleLaunches, foreignMiddle]
  split_ifs
  · rw [remediationLaunches, issues_append, issues_append, issues_artifact_iff o c hp]
  · exact Iff.rfl
  · exact Iff.rfl

theorem issues_inspection_iff (opening : Opening) (progress : Progress) :
    Issues p (inspectionLaunches o c opening progress) ↔
      Issues p (foreignInspection o c opening progress) := by
  have hverify : Issues p (verifyTransports o.host) := (issues_verifyTransports o.host).mono hp
  rw [inspectionLaunches, foreignInspection]
  split_ifs <;> simp [hverify]

/-- What holds of every query holds of everything that a cycle sends exactly when it holds of what
is decided elsewhere. -/
theorem issues_startedBy_iff (r : RuntimeState) :
    Issues p (startedBy o c r) ↔ Issues p (foreignLaunches o c r) := by
  obtain ⟨again, second, hsecond, hdoes⟩ := does_runRuntimeCycle o c r
  have hscan := issues_scanLaunches o hp r
  have hbackup : Issues p (captureBackup o.host (scannedProfile o r).transport
    ((scannedProfile o r).serial.getD "")) := (issues_captureBackup o.host _ _).mono hp
  rw [startedBy, hdoes.launched_eq, List.drop_left, issues_append, and_iff_left (hsecond.mono hp),
    progressOf_eq_outcome]
  simp only [cycleLaunches, openingLaunches, foreignLaunches, issues_append,
    issues_firstContact_iff o c hp, issues_middle_iff o c hp, issues_inspection_iff o c hp, hscan,
    hbackup, true_and, and_assoc]

end Issues

/-! ### When the model is asked -/

/-- The model is asked about a blocker only where a source is missing and files of `os-source` were
just moved away that do not fit the device. -/
theorem quarantined_of_modelConsulted {opening : Opening}
    (hremediates : remediates o c opening = false) (hasked : modelConsulted o c opening = true) :
    opening.blocker.blockerType = .source ∧
      (starterTroubleshooting o.lower c.surroundings (c.situation opening)).quarantinedArtifacts ≠ [] := by
  simp only [modelConsulted, Bool.and_eq_true] at hasked
  have hmachine : machineAllowed o c opening = false := by
    by_contra hallowed
    rw [Bool.not_eq_false] at hallowed
    have hsolvable : opening.blocker.machineSolvable = true :=
      ((machineRemediationAllowed_iff _ _ _).mp hallowed).1
    rw [remediates, hsolvable, hasked.1.1, hallowed] at hremediates
    exact Bool.noConfusion hremediates
  exact quarantined_of_modelWorkerAllowed _ _ _ hasked.1.2 hmachine

/-! ### Approval -/

/-- The operator has approved, and the policy allows live destructive actions. -/
def Authorized (r : RuntimeState) : Prop :=
  r.dir.approval.approved = true ∧ o.policy.allowLiveDestructiveActions = true

instance (r : RuntimeState) : Decidable (Authorized o r) := inferInstanceAs (Decidable (_ ∧ _))

/-- No device command behind the starts destroys anything. -/
def Harmless (destroys : DeviceCommand → Prop) : List Launch → Prop := Issues fun c => ¬destroys c

instance (destroys : DeviceCommand → Prop) [DecidablePred destroys] (ls : List Launch) :
    Decidable (Harmless destroys ls) := inferInstanceAs (Decidable (Issues _ ls))

/-- `fastboot erase`, of the first phone in reach. -/
def Erases (command : DeviceCommand) : Prop :=
  command.tool = .fastboot ∧ command.args.head? = some "erase"

instance : DecidablePred Erases := fun _ => inferInstanceAs (Decidable (_ ∧ _))

theorem not_erases_of_isQuery {command : DeviceCommand} (h : IsQuery command) : ¬Erases command := by
  cases h <;> simp [Erases]

/-- A phone with a locked bootloader, for which nothing is found. -/
def lockedInputs : EventInputs where
  supportStatus := .researchOnly
  strategy := "research_only"
  cycle :=
    { built := { status := "missing_source" }
      remediation :=
        { experiments := 1
          inspection := { status := "partial" }
          assessment := { supportStatus := some "research_only" } }
      context := bareContext }

/-- Two cycles have remediated in vain. -/
def stalledAppliance : Appliance :=
  (emptyAppliance fun _ => "").after asciiLower id
    [.event bareOrchestrator pixelContact lockedInputs,
      .recompute bareOrchestrator pixelSession.name lockedInputs.attached false]

def stalledState : RuntimeState :=
  stalledAppliance.enter (stalledAppliance.devices.headD pixelSession)

/-- The operator has staged a package for another processor, and the model wants the data of the
phone erased. -/
def erasingInputs : CycleInputs :=
  { lockedInputs.attached with
    built := { status := "ready" }
    surroundings :=
      { sourceDir := "os-source"
        osSource := [{ name := fileName "lineage-arm64.zip", sizeBytes := 2 ^ 20 }]
        snapshot := { abi := some "armeabi-v7a" } }
    reply := some { action := "run_command", command := "fastboot erase userdata" }
    context := { bareContext with ends := fun _ => .finished } }

-- the machine may not go on, and the package is moved away
example : machineAllowed bareOrchestrator erasingInputs
      (openingOf bareOrchestrator erasingInputs stalledState) = false ∧
    (starterTroubleshooting asciiLower erasingInputs.surroundings
      (erasingInputs.situation (openingOf bareOrchestrator erasingInputs stalledState))).status =
        "quarantined_incompatible_artifact" := by
  decide

/-- What the model answers is started. -/
theorem mem_startedBy_of_modelResolution {r : RuntimeState} {command : DeviceCommand}
    (hremediates : remediates o c (openingOf o c r) = false)
    (hblocked : (openingOf o c r).blocker.blockerType ≠ .none)
    (hcommand : command ∈ issuedBy (modelResolution o c (openingOf o c r)).1) :
    command ∈ issuedBy (startedBy o c r) := by
  obtain ⟨again, second, -, hdoes⟩ := does_runRuntimeCycle o c r
  have hmiddle : middleLaunches o c (openingOf o c r) = questionLaunches o c (openingOf o c r) := by
    rw [middleLaunches, if_neg (Bool.eq_false_iff.mp hremediates), if_pos hblocked]
  rw [startedBy, hdoes.launched_eq, List.drop_left, cycleLaunches, hmiddle, questionLaunches]
  simp only [issuedBy, List.flatMap_append, List.mem_append] at hcommand ⊢
  simp only [hcommand, true_or, or_true]

end ForgeOS.Runtime
