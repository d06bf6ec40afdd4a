import ForgeOS.Image.Starter
import ForgeOS.Learning.RetryPlanner
import ForgeOS.Library.Streak
import ForgeOS.Runtime.Blocker

/-! `DeliberationEngine.think`, as to the action plan, and the starter troubleshooting that runs
behind it. Both decide who works on the blocker of a cycle: the machine, the local model or the
operator. `lower` is `str.lower`. -/

namespace ForgeOS.Runtime

open ForgeOS.Python ForgeOS.Flash ForgeOS.Image ForgeOS.Library.Streak
open ForgeOS.Learning (SourceFile Verdict)

/-! ### What is read -/

/-- A file of `os-source`, with its first 256 bytes as characters where it can be read. -/
structure OsSourceFile extends StagedFile where
  sample : Option String := none
  deriving DecidableEq, Repr

def OsSourceFile.source (f : OsSourceFile) : SourceFile where
  name := f.name.val
  size := f.sizeBytes
  sample := f.sample

/-- What both read beside the session and its blocker. -/
structure Surroundings where
  sourceDir : String := ""
  /-- The files of `os-source` in the order of their names. -/
  osSource : List OsSourceFile := []
  snapshot : HardwareSnapshot := {}
  /-- The error output of the last source build. -/
  sourceBuildError : String := ""
  /-- What the product memory holds of the version. -/
  lessons : List String := []
  sourceBlockerCount : ℤ := 0
  /-- The reason that the source builder gave. -/
  builderReason : String := ""
  deriving DecidableEq, Repr

/-- What the deliberation is about. -/
structure Situation where
  blocker : Blocker
  experiments : List Verdict := []
  built : BuildArtifacts
  desiredEndProduct : String := ""
  deriving DecidableEq, Repr

/-- `_failed_experiment_count`: the experiments on the type of blocker since the last advance. -/
def failedExperimentCount (experiments : List Verdict) (blockerType : String) : ℕ :=
  streak (fun v : Verdict => !v.advanced) (experiments.filter fun v => v.blockerBefore = blockerType)

variable (lower : String → String) (s : Surroundings) (k : Situation)

/-- `_plausible_source_files` -/
def Surroundings.plausibleSourceFiles : List String :=
  ((s.osSource.map OsSourceFile.source).filter fun f => f.isSource lower).map
    fun f => join s.sourceDir f.name

/-! ### The deliberation -/

structure Lesson where
  id : String
  summary : String
  behaviorChange : String
  deriving DecidableEq, Repr

def missingRepoTool : Lesson where
  id := "missing_android_repo_tool"
  summary := "Local Android source builds cannot run until the host has the Android repo tool."
  behaviorChange :=
    "Do not keep launching source-build remediation; ask for host setup or a staged artifact."

def repeatedAttempts : Lesson where
  id := "repeated_non_advancing_source_attempts"
  summary := "Multiple experiments on this blocker were discarded without advancing the session."
  behaviorChange := "Require new evidence before another machine-remediation loop."

def realArtifactRequired : Lesson where
  id := "real_artifact_required"
  summary :=
    "A real OTA, firmware archive, or partition image is required; mock files are not progress."
  behaviorChange := "Reject placeholder artifacts and keep install gates closed."

/-- The last source build failed for want of the `repo` tool. -/
def Surroundings.lacksRepoTool : Bool := contains (lower s.sourceBuildError) "repo tool is required"

/-- Two experiments on the blocker have failed. -/
def Situation.repeats : Bool := 2 ≤ failedExperimentCount k.experiments k.blocker.blockerType.value

/-- `_derive_lessons` -/
def deriveLessons : List Lesson :=
  (if s.lacksRepoTool lower then [missingRepoTool] else []) ++
    (if k.repeats then [repeatedAttempts] else []) ++
    if k.built.details.missingRequirements ≠ [] ∧ k.blocker.blockerType = .source then
      [realArtifactRequired]
    else []

structure ActionPlan where
  selectedAction : String
  rationale : String
  operatorQuestions : List String
  machineRemediationAllowed : Bool
  deriving DecidableEq, Repr

def ActionPlan.workerMode (p : ActionPlan) : String :=
  if p.machineRemediationAllowed then "bounded_remediation" else "research_and_operator_question"

/-- The questions that are asked whatever has been learned. -/
def openQuestions : List String :=
  (if strip k.desiredEndProduct = "" then
    ["What should this device become when it is done: media player, family tablet, control panel, backup phone, or something else?"]
  else []) ++
    if k.blocker.blockerType = .source ∧ s.plausibleSourceFiles lower = [] then
      ["Can you stage a real firmware/OTA/image package for this exact device, or should ForgeOS prepare the host to build/source one?"]
    else []

def repoQuestion : String :=
  "May I install/configure the Android `repo` tool for local source builds, or should we stay on firmware-staging only?"

/-- `_action_plan` -/
def actionPlan : ActionPlan :=
  let learned := (deriveLessons lower s k).map Lesson.id
  let questions := openQuestions lower s k
  if missingRepoTool.id ∈ learned then
    { selectedAction := "install_host_tool_or_stage_source"
      rationale := "Local Android source build already failed because the `repo` tool is missing."
      operatorQuestions := (dedupeTexts (questions ++ [repoQuestion])).take 3
      machineRemediationAllowed := false }
  else if repeatedAttempts.id ∈ learned then
    { selectedAction := "ask_operator"
      rationale := "Repeated source acquisition attempts did not advance; the next useful step needs new evidence or a real artifact."
      operatorQuestions := (dedupeTexts questions).take 3
      machineRemediationAllowed := false }
  else
    { selectedAction := if k.blocker.machineSolvable then "continue_remediation" else "observe_or_ask"
      rationale :=
        if s.lessons ≠ [] then
          "Prior product/version memory is available and should constrain the next remediation attempt."
        else
          "The blocker is machine-solvable and no learning rule blocks another bounded attempt."
      operatorQuestions := (dedupeTexts questions).take 3
      machineRemediationAllowed := k.blocker.machineSolvable }

/-! ### The starter troubleshooting behind it -/

def starterInputs : StarterInputs where
  blockerType := k.blocker.blockerType.value
  artifactsStatus := some k.built.status
  sourceBlockerCount := s.sourceBlockerCount
  lessons := s.lessons
  builderReason := s.builderReason
  machineRemediationAllowed := (actionPlan lower s k).machineRemediationAllowed
  operatorQuestions := (actionPlan lower s k).operatorQuestions

def starterTroubleshooting : StarterResult :=
  starterLoop lower s.sourceDir s.snapshot (starterInputs lower s k)
    (s.osSource.map OsSourceFile.toStagedFile)

/-- `machine_remediation_allowed`, as the cycle goes on with it. -/
def machineRemediationAllowed : Bool :=
  (actionPlan lower s k).machineRemediationAllowed &&
    (starterTroubleshooting lower s k).machineWorkerAllowed

/-- `model_worker_allowed` -/
def modelWorkerAllowed : Bool := (starterTroubleshooting lower s k).modelWorkerAllowed

/-! ### Who works on a blocker -/

theorem id_mem_deriveLessons {l : Lesson} : l.id ∈ (deriveLessons lower s k).map Lesson.id ↔
    (s.lacksRepoTool lower = true ∧ l.id = missingRepoTool.id) ∨
      (k.repeats = true ∧ l.id = repeatedAttempts.id) ∨
        ((k.built.details.missingRequirements ≠ [] ∧ k.blocker.blockerType = .source) ∧
          l.id = realArtifactRequired.id) := by
  have hif : ∀ (p : Prop) [Decidable p] (l' : Lesson),
      l.id ∈ (if p then [l'] else []).map Lesson.id ↔ p ∧ l.id = l'.id := by
    intro p _ l'
    split_ifs with hp <;> simp [hp]
  rw [deriveLessons, List.map_append, List.map_append, List.mem_append, List.mem_append, hif, hif,
    hif, or_assoc]

/-- The plan leaves a blocker to the machine that the machine can work on, unless the `repo` tool is
missing or two experiments have failed. -/
theorem actionPlan_allows_iff : (actionPlan lower s k).machineRemediationAllowed = true ↔
    k.blocker.machineSolvable = true ∧ s.lacksRepoTool lower = false ∧ k.repeats = false := by
  have hrepo : missingRepoTool.id ∈ (deriveLessons lower s k).map Lesson.id ↔
      s.lacksRepoTool lower = true := by
    rw [id_mem_deriveLessons]
    simp [missingRepoTool, repeatedAttempts, realArtifactRequired]
  have hrepeats : repeatedAttempts.id ∈ (deriveLessons lower s k).map Lesson.id ↔
      k.repeats = true := by
    rw [id_mem_deriveLessons]
    simp [missingRepoTool, repeatedAttempts, realArtifactRequired]
  rw [actionPlan]
  by_cases hmissing : s.lacksRepoTool lower = true
  · rw [if_pos (hrepo.mpr hmissing)]
    simp [hmissing]
  rw [if_neg (hrepo.not.mpr hmissing)]
  by_cases hfailed : k.repeats = true
  · rw [if_pos (hrepeats.mpr hfailed)]
    simp [hfailed]
  · rw [if_neg (hrepeats.not.mpr hfailed)]
    simp [Bool.eq_false_iff.mpr hmissing, Bool.eq_false_iff.mpr hfailed]

/-- The troubleshooting never takes the blocker from the machine. -/
theorem machineRemediationAllowed_iff : machineRemediationAllowed lower s k = true ↔
    k.blocker.machineSolvable = true ∧ s.lacksRepoTool lower = false ∧ k.repeats = false := by
  have hstarter : (starterTroubleshooting lower s k).machineWorkerAllowed =
      (actionPlan lower s k).machineRemediationAllowed :=
    starterVerdict_machineWorkerAllowed _ _ _
  rw [machineRemediationAllowed, hstarter, Bool.and_self]
  exact actionPlan_allows_iff lower s k

/-- What the machine may not work on is left to the model only where a source is missing and files
were just moved away that do not fit. -/
theorem quarantined_of_modelWorkerAllowed (hmodel : modelWorkerAllowed lower s k = true)
    (hmachine : machineRemediationAllowed lower s k = false) :
    k.blocker.blockerType = .source ∧
      (starterTroubleshooting lower s k).quarantinedArtifacts ≠ [] := by
  have hplan : (starterInputs lower s k).machineRemediationAllowed = false := by
    rw [← hmachine, Bool.eq_iff_iff, machineRemediationAllowed_iff]
    exact actionPlan_allows_iff lower s k
  have hmoved : (starterTroubleshooting lower s k).quarantinedArtifacts ≠ [] := by
    intro hnone
    have hquarantined : quarantined (starterInputs lower s k)
        (reviewFiles lower s.sourceDir s.snapshot (s.osSource.map OsSourceFile.toStagedFile)) = [] :=
      hnone
    have hverdict : (starterVerdict (starterInputs lower s k) _ _).modelWorkerAllowed = true := hmodel
    simp only [starterVerdict, hquarantined, hplan] at hverdict
    split_ifs at hverdict
    all_goals simp_all
  obtain ⟨item, hitem⟩ := List.exists_mem_of_ne_nil _ hmoved
  have hsource : k.blocker.blockerType.value = "source_blocker" := (starterLoop_quarantined hitem).1
  refine ⟨?_, hmoved⟩
  revert hsource
  cases k.blocker.blockerType <;> decide

end ForgeOS.Runtime
