import ForgeOS.Image.Directory

/-! `StarterTroubleshootingLoop`. It judges the files of `os-source` by their names and moves those
that do not fit away, but only for a missing source and only when nothing fits. Its verdict says who
may work on the blocker. -/

namespace ForgeOS.Image

open ForgeOS.Python

/-! ### The review of staged artifacts -/

/-- The entries of a hardware snapshot that the review reads. -/
structure HardwareSnapshot where
  abi : Option String := none
  bootSlot : Option String := none
  dynamicPartitions : Option String := none
  deriving DecidableEq, Repr

/-- `_artifact_rejection_reason`, empty for an artifact that fits. -/
def artifactRejectionReason (lower : String → String) (name abi bootSlot : String)
    (dynamicPartitions : Bool) : String :=
  let name := lower name
  if contains name "arm64" && abi == "armeabi-v7a" then
    "artifact targets arm64 but device reports 32-bit armeabi-v7a"
  else if (contains name "-ab" || contains name "_ab" || contains name "a-b") &&
      bootSlot == "" && !dynamicPartitions then
    "artifact appears to target A/B or dynamic-partition devices, but this device exposes no slot/dynamic-partition evidence"
  else if endsWith name ".img.xz" then
    "compressed raw image is not directly flashable; extract and verify compatibility first"
  else ""

/-- The reason against a file on the device of the snapshot. -/
def HardwareSnapshot.rejection (s : HardwareSnapshot) (lower : String → String) (n : FileName) :
    String :=
  artifactRejectionReason lower n.val (lower (s.abi.getD "")) (strip (s.bootSlot.getD ""))
    (lower (strip (s.dynamicPartitions.getD "")) ∈ ["1", "true", "yes"])

/-- A file as a listing of `os-source` has it. -/
structure StagedFile where
  name : FileName
  sizeBytes : ℕ
  deriving DecidableEq, Repr

structure ReviewedArtifact where
  path : String
  name : FileName
  sizeBytes : ℕ
  reason : String
  deriving DecidableEq, Repr

structure ArtifactReview where
  sourceDir : String
  acceptedArtifacts : List ReviewedArtifact
  rejectedArtifacts : List ReviewedArtifact
  deriving DecidableEq, Repr

/-- A file as the review lists it. -/
def StagedFile.reviewed (lower : String → String) (sourceDir : String) (s : HardwareSnapshot)
    (f : StagedFile) : ReviewedArtifact where
  path := join sourceDir f.name.val
  name := f.name
  sizeBytes := f.sizeBytes
  reason := s.rejection lower f.name

/-- `_review_staged_artifacts`, for the files of `os-source` by name. -/
def reviewFiles (lower : String → String) (sourceDir : String) (s : HardwareSnapshot)
    (files : List StagedFile) : ArtifactReview :=
  let items := (files.filter fun f => f.name.val ≠ "README.md").map
    (StagedFile.reviewed lower sourceDir s)
  { sourceDir
    acceptedArtifacts := items.filter fun item => item.reason = ""
    rejectedArtifacts := items.filter fun item => item.reason ≠ "" }

/-! ### The loop -/

/-- What `run` reads besides the files. -/
structure StarterInputs where
  blockerType : String := "none"
  artifactsStatus : Option String := none
  /-- How often the product memory counts a source blocker, and its lessons. -/
  sourceBlockerCount : ℤ := 0
  lessons : List String := []
  /-- The reason that the source builder gave. -/
  builderReason : String := ""
  machineRemediationAllowed : Bool := true
  operatorQuestions : List String := []
  deriving DecidableEq, Repr

structure StarterResult where
  status : String
  blockerType : String
  modelWorkerAllowed : Bool
  machineWorkerAllowed : Bool
  nextActions : List String
  notes : List String
  artifactReview : ArtifactReview
  quarantinedArtifacts : List ReviewedArtifact
  learnedAugmentations : List String
  deriving DecidableEq, Repr

/-- `_compile_learned_rules`, by the identifiers of the rules. -/
def compileLearnedRules (lower : String → String) (lessons : List String) : List String :=
  let joined := lower (" ".intercalate lessons)
  (if contains joined "repo tool" then ["require_android_repo_before_source_build"] else []) ++
    (if contains joined "no usable flashable artifact" then ["require_verified_flashable_artifact"]
      else []) ++
    if contains joined "repeatedly reaches source acquisition" then
      ["prefer_artifact_or_host_setup_over_more_research"]
    else []

/-- `_dedupe` -/
def dedupeTexts (values : List String) : List String :=
  (values.filter (· ≠ "")).reverse.dedup.reverse

/-- The files that are moved away: all that do not fit, for a missing source that nothing fits. -/
def quarantined (x : StarterInputs) (review : ArtifactReview) : List ReviewedArtifact :=
  if x.blockerType = "source_blocker" ∧ review.acceptedArtifacts = [] then review.rejectedArtifacts
  else []

structure StarterVerdict where
  status : String
  modelWorkerAllowed : Bool
  machineWorkerAllowed : Bool
  nextActions : List String
  deriving DecidableEq, Repr

/-- The branches of `run`. `sourceStuck` says that source builds are known to lead nowhere. -/
def starterVerdict (x : StarterInputs) (review : ArtifactReview) (sourceStuck : Bool) :
    StarterVerdict :=
  if quarantined x review ≠ [] ∧ review.acceptedArtifacts = [] then
    { status := "quarantined_incompatible_artifact"
      modelWorkerAllowed := true
      machineWorkerAllowed := x.machineRemediationAllowed
      nextActions :=
        ["Continue bounded source acquisition for an exact Samsung SM-T377W/gteslte OTA, recovery ZIP, or Samsung firmware package.",
          "Keep quarantined generic artifacts out of install planning."] }
  else if x.blockerType = "source_blocker" ∧ sourceStuck ∧ review.acceptedArtifacts = [] then
    { status := "source_acquisition_required"
      modelWorkerAllowed := false
      machineWorkerAllowed := x.machineRemediationAllowed
      nextActions :=
        ["Run deterministic source acquisition for Samsung SM-T377W/gteslte before asking more broad model questions.",
          "Stage a verified firmware/OTA/recovery package, or set up Android source-build prerequisites including the repo tool."] }
  else if x.machineRemediationAllowed = false then
    { status := "waiting_for_operator_answer"
      modelWorkerAllowed := false
      machineWorkerAllowed := false
      nextActions := x.operatorQuestions }
  else
    { status := "ready_for_bounded_model_help"
      modelWorkerAllowed := true
      machineWorkerAllowed := x.machineRemediationAllowed
      nextActions := [] }

/-- `StarterTroubleshootingLoop.run` on the files of `os-source`. -/
def starterLoop (lower : String → String) (sourceDir : String) (s : HardwareSnapshot)
    (x : StarterInputs) (files : List StagedFile) : StarterResult :=
  let artifactReview := reviewFiles lower sourceDir s files
  let rules := compileLearnedRules lower x.lessons
  let repeated := decide (3 ≤ x.sourceBlockerCount)
  let repoMissing := contains (lower x.builderReason) "repo tool is missing"
  let learnedRepo := decide ("require_android_repo_before_source_build" ∈ rules)
  let moved := quarantined x artifactReview
  let verdict := starterVerdict x artifactReview (repoMissing || learnedRepo || repeated)
  let note (holds : Bool) (text : String) := if holds then [text] else []
  let notes :=
    note (x.artifactsStatus ≠ some "ready") "No deterministic install path is ready yet." ++
    note repoMissing
      "Local Android source builds are blocked until the Android repo tool is available." ++
    note learnedRepo
      "Product memory already learned that source builds need Android repo setup first." ++
    note repeated "This product/version has repeatedly hit source acquisition blockers." ++
    if moved ≠ [] then
      ["One or more incompatible staged artifacts were quarantined before source acquisition continued."]
    else
      note (artifactReview.rejectedArtifacts ≠ [])
        "One or more staged artifacts were rejected before model escalation."
  { status := verdict.status
    blockerType := x.blockerType
    modelWorkerAllowed := verdict.modelWorkerAllowed
    machineWorkerAllowed := verdict.machineWorkerAllowed
    nextActions := dedupeTexts verdict.nextActions
    notes := dedupeTexts notes
    artifactReview
    quarantinedArtifacts := moved
    learnedAugmentations := rules }

/-! ### What it decides -/

/-- It never keeps the machine from going on by itself. -/
theorem starterVerdict_machineWorkerAllowed (x : StarterInputs) (review : ArtifactReview)
    (sourceStuck : Bool) :
    (starterVerdict x review sourceStuck).machineWorkerAllowed = x.machineRemediationAllowed := by
  unfold starterVerdict
  split_ifs with hquarantined hsource hmachine
  · rfl
  · rfl
  · exact hmachine.symm
  · rfl

theorem rejection_of_reviewed {lower : String → String} {sourceDir : String} {s : HardwareSnapshot}
    {files : List StagedFile} {item : ReviewedArtifact}
    (hitem : item ∈ (reviewFiles lower sourceDir s files).rejectedArtifacts) :
    s.rejection lower item.name ≠ "" := by
  obtain ⟨hmem, hreason⟩ := List.mem_filter.mp hitem
  obtain ⟨f, -, rfl⟩ := List.mem_map.mp hmem
  exact of_decide_eq_true hreason

/-- It moves a file away only for a missing source, and only one that does not fit. -/
theorem starterLoop_quarantined {lower : String → String} {sourceDir : String} {s : HardwareSnapshot}
    {x : StarterInputs} {files : List StagedFile} {item : ReviewedArtifact}
    (hitem : item ∈ (starterLoop lower sourceDir s x files).quarantinedArtifacts) :
    x.blockerType = "source_blocker" ∧ s.rejection lower item.name ≠ "" := by
  have hquarantined : item ∈ quarantined x (reviewFiles lower sourceDir s files) := hitem
  unfold quarantined at hquarantined
  split_ifs at hquarantined with hsource
  · exact ⟨hsource.1, rejection_of_reviewed hquarantined⟩
  · exact absurd hquarantined List.not_mem_nil

end ForgeOS.Image
