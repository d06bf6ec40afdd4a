import Mathlib.Data.List.Sort
import ForgeOS.Python.Text

/-! `CodegenRuntime`, as to the results of a remediation artifact. Behind a run of the
artifact for missing sources, files of the session's `os-source` directory that are no
plausible firmware are removed, and every plausible one is listed as staged. A session
may hold files there from earlier runs. `lower` is `str.lower`. -/

namespace ForgeOS.Learning

open ForgeOS.Python

/-! ### Files of `os-source` -/

structure SourceFile where
  name : String
  isFile : Bool := true
  size : ℕ
  /-- The first 256 bytes as characters; `none` when the file cannot be read. -/
  sample : Option String
  deriving DecidableEq, Repr

def fakeMarkers : List String := ["mock content", "simulated firmware content", "placeholder"]

/-- `_is_plausible_source_artifact` -/
def SourceFile.isPlausible (f : SourceFile) : Bool :=
  match f.sample with
  | some sample =>
    1024 * 1024 ≤ f.size && !fakeMarkers.any fun marker => contains (asciiLower sample) marker
  | none => false

/-- The files that the validation looks at. -/
def SourceFile.isArtifact (lower : String → String) (f : SourceFile) : Bool :=
  f.isFile && f.name ≠ "README.md" && lower (suffix f.name) ∈ [".zip", ".img", ".gz", ".tar", ".bin"]

/-- `sorted(source_dir.iterdir())` -/
def listing (files : List SourceFile) : List SourceFile := files.insertionSort fun f f' => f.name ≤ f'.name

/-- What counts as a source that has been found. -/
def SourceFile.isSource (lower : String → String) (f : SourceFile) : Bool :=
  f.isArtifact lower && f.isPlausible

/-! ### Outputs -/

structure SourceAcquisition where
  stagedFiles : List String := []
  localCandidates : List String := []
  invalidArtifactsRemoved : List String := []
  deriving DecidableEq, Repr

/-- The evidence that is read: the sources acquired, and the status of the remote resolution. -/
structure ArtifactEvidence where
  sourceAcquisition : SourceAcquisition := {}
  remoteResolution : String := ""
  deriving DecidableEq, Repr

/-- The dictionary that an artifact prints. A field of another shape ends the cycle
with an exception, before anything about it is recorded. -/
structure ArtifactOutput where
  status : Option String := none
  summary : Option String := none
  evidence : ArtifactEvidence := {}
  nextAction : Option String := none
  deriving DecidableEq, Repr

inductive Stdout
  | empty
  | json (output : ArtifactOutput)
  | text
  deriving DecidableEq, Repr

/-- `json.loads(output) if output else {}` -/
def Stdout.parse : Stdout → ArtifactOutput
  | empty => {}
  | json output => output
  | text => { status := some "artifact_failed"
              summary := some "Generated artifact emitted non-JSON output." }

structure RemediationTask where
  taskId : String
  blockerType : String
  blockerSummary : String := ""
  recommendedAdapter : String := "observe"
  remediationFamily : String
  objective : String := ""
  buildPath : String := "unknown"
  generatedAt : String := ""
  deriving DecidableEq, Repr

def sourceFamily : String := "source_acquisition_and_staging"

/-- `_task_manifest` -/
def taskManifest (blockerType blockerSummary recommendedAdapter buildPath now : String) :
    RemediationTask :=
  let (taskId, remediationFamily, objective) :=
    if blockerType = "transport_blocker" then
      ("host-transport-triage", "host_transport_triage",
        "Probe adb, fastboot, USB descriptors, and host permissions again and upgrade the session if a managed transport exists.")
    else if blockerType = "source_blocker" then
      ("source-acquisition-and-staging", sourceFamily,
        "Search known local firmware locations, learn from cached research, and stage compatible install artifacts into the active session.")
    else if blockerType = "subsystem_blocker" then
      ("followup-diagnostic", "followup_diagnostic",
        "Generate a follow-up generic diagnostic after a previous remediation artifact failed to improve the session.")
    else
      (blockerType ++ "-remediation", "generic_diagnostic",
        "Collect richer host/device evidence and attempt the next software-solvable continuation step.")
  { taskId, blockerType, blockerSummary, recommendedAdapter, remediationFamily, objective, buildPath
    generatedAt := now }

/-- What `generate` returns. -/
structure GeneratedRuntime where
  task : RemediationTask
  generatedFiles : List String := []
  deriving DecidableEq, Repr

/-! ### Validation and inspection -/

variable (lower : String → String)

/-- The text for a success without a plausible file. -/
def nothingStaged : String :=
  "Generated source acquisition did not stage any plausible firmware artifacts. Tiny mock or placeholder outputs were removed."

/-- `str(parsed.get("status") or "").strip().lower() in {"success", "solved", "ok"}` -/
def ArtifactOutput.succeeds (output : ArtifactOutput) : Bool :=
  lower (strip (orText output.status "")) ∈ ["success", "solved", "ok"]

/-- `_validate_generated_side_effects`: the files that stay, and the output to go on with. -/
def validateSideEffects (task : RemediationTask) (sourceDir : String) (files : List SourceFile)
    (output : ArtifactOutput) : List SourceFile × ArtifactOutput :=
  if task.remediationFamily ≠ sourceFamily then (files, output)
  else
    let candidates := (listing files).filter fun f => f.isArtifact lower
    let plausibleFiles := (candidates.filter fun f => f.isPlausible).map fun f => join sourceDir f.name
    let removed := (candidates.filter fun f => !f.isPlausible).map fun f => join sourceDir f.name
    let acquired := output.evidence.sourceAcquisition
    let evidence :=
      { output.evidence with
        sourceAcquisition :=
          { acquired with
            stagedFiles := plausibleFiles
            invalidArtifactsRemoved :=
              if removed = [] then acquired.invalidArtifactsRemoved else removed } }
    let normalized :=
      if output.succeeds lower ∧ plausibleFiles = [] then
        { output with
          status := some "partial"
          summary := some nothingStaged
          nextAction := some "reclassify" }
      else output
    (files.filter fun f => !(f.isArtifact lower && !f.isPlausible), { normalized with evidence })

structure Inspection where
  status : String
  summary : String
  evidence : ArtifactEvidence := {}
  nextAction : String := "reclassify"
  /-- A key that the self-improvement loop asks for. -/
  nextBlockerType : Option String := none
  deriving DecidableEq, Repr

def Inspection.stagedFiles (i : Inspection) : List String := i.evidence.sourceAcquisition.stagedFiles

/-- `inspect_result` -/
def inspectResult (output : ArtifactOutput) : Inspection where
  status := output.status.getD "artifact_failed"
  summary := output.summary.getD "No remediation summary available."
  evidence := output.evidence
  nextAction := output.nextAction.getD "reclassify"

/-- One run of the artifact: what it prints, and what it does to `os-source`. -/
structure ArtifactRun where
  stdout : Stdout
  files : List SourceFile → List SourceFile

/-- `inspect_result(execute_generated(...))`: the files afterwards and the inspection. -/
def executeGenerated (task : RemediationTask) (sourceDir : String) (run : ArtifactRun)
    (files : List SourceFile) : List SourceFile × Inspection :=
  let validated := validateSideEffects lower task sourceDir (run.files files) run.stdout.parse
  (validated.1, inspectResult validated.2)

/-! ### What is listed as staged -/

variable {lower}

@[simp] theorem inspectResult_nextBlockerType (output : ArtifactOutput) :
    (inspectResult output).nextBlockerType = none := rfl

theorem mem_listing {files : List SourceFile} {f : SourceFile} : f ∈ listing files ↔ f ∈ files :=
  List.mem_insertionSort _

/-- For missing sources the inspection lists the plausible files that are there. -/
theorem stagedFiles_executeGenerated {task : RemediationTask}
    (htask : task.remediationFamily = sourceFamily) (sourceDir : String) (run : ArtifactRun)
    (files : List SourceFile) :
    (executeGenerated lower task sourceDir run files).2.stagedFiles =
      ((listing (run.files files)).filter fun f => f.isSource lower).map
        fun f => join sourceDir f.name := by
  have hsource : ∀ f : SourceFile, (f.isPlausible && f.isArtifact lower) = f.isSource lower :=
    fun f => Bool.and_comm _ _
  simp only [executeGenerated, validateSideEffects, htask, ne_eq, not_true_eq_false, if_false,
    inspectResult, Inspection.stagedFiles, List.filter_filter, hsource]

/-- Some file is listed exactly when some file is plausible. -/
theorem stagedFiles_ne_nil_iff {task : RemediationTask}
    (htask : task.remediationFamily = sourceFamily) (sourceDir : String) (run : ArtifactRun)
    (files : List SourceFile) :
    (executeGenerated lower task sourceDir run files).2.stagedFiles ≠ [] ↔
      ∃ f ∈ run.files files, f.isSource lower = true := by
  rw [stagedFiles_executeGenerated htask, ne_eq, List.map_eq_nil_iff, List.filter_eq_nil_iff]
  simp only [mem_listing]
  push Not
  rfl

/-- The validation removes no plausible file, and adds none. -/
theorem isSource_executeGenerated (task : RemediationTask) (sourceDir : String) (run : ArtifactRun)
    (files : List SourceFile) {f : SourceFile} (hf : f.isSource lower = true) :
    f ∈ (executeGenerated lower task sourceDir run files).1 ↔ f ∈ run.files files := by
  have hplausible : f.isPlausible = true := (Bool.and_eq_true _ _ ▸ hf).2
  by_cases htask : task.remediationFamily = sourceFamily
  · simp only [executeGenerated, validateSideEffects, htask, ne_eq, not_true_eq_false, if_false,
      List.mem_filter, hplausible, Bool.not_true, Bool.and_false, Bool.not_false, and_true]
  · simp only [executeGenerated, validateSideEffects, ne_eq, htask, not_false_eq_true, if_true]

/-- The validation leaves the remote answer as it is printed. -/
theorem remoteResolution_executeGenerated (task : RemediationTask) (sourceDir : String)
    (run : ArtifactRun) (files : List SourceFile) :
    (executeGenerated lower task sourceDir run files).2.evidence.remoteResolution =
      run.stdout.parse.evidence.remoteResolution := by
  by_cases htask : task.remediationFamily = sourceFamily
  · simp only [executeGenerated, validateSideEffects, htask, ne_eq, not_true_eq_false, if_false,
      inspectResult]
  · simp only [executeGenerated, validateSideEffects, ne_eq, htask, not_false_eq_true, if_true,
      inspectResult]

/-- Without a family of its own the output passes unchanged. -/
theorem executeGenerated_of_other {task : RemediationTask}
    (htask : task.remediationFamily ≠ sourceFamily) (sourceDir : String) (run : ArtifactRun)
    (files : List SourceFile) :
    executeGenerated lower task sourceDir run files =
      (run.files files, inspectResult run.stdout.parse) := by
  simp only [executeGenerated, validateSideEffects, if_pos htask]

end ForgeOS.Learning
