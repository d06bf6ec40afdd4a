import ForgeOS.Learning.Remediation
import ForgeOS.Library.Conditions

/-! What the cycles of a session count as progress, and when they stop. A file that lies in
`os-source` from before is staged again in every cycle, and a remote source that was resolved
before is resolved again, so a session with such a file or source goes on without progress.
A session whose cycles meet neither is planned out of its remediation. -/

namespace ForgeOS.Learning

open ForgeOS.Library.Conditions

/-! ### Sessions -/

inductive LearningStep
  /-- A cycle with a remediation. -/
  | remediation (c : RemediationCycle)
  /-- A cycle with no more than a plan. -/
  | plan (call : PlanCall)
  /-- Another session writes to the strategy memory, or somebody changes `os-source`. -/
  | outside (rows : List StrategyAttempt) (files : List SourceFile)

/-- The step makes a plan. -/
def LearningStep.plans : LearningStep → Bool
  | outside .. => false
  | _ => true

variable (e : Learner)

/-- The heat ledger behind a cycle with no more than a plan. -/
def heatOfPlan (heat : HeatFile) (call : PlanCall) : HeatFile :=
  let planned := (buildPlan heat call.blocker call.generatedFiles call.now).2
  if call.blocker.blockerType = "none" then markAdvanced planned else planned

def Learner.step (s : LearningState) : LearningStep → LearningState
  | .remediation c => e.remediate s c
  | .plan call => { s with heat := heatOfPlan s.heat call }
  | .outside rows files => { s with rows, files }

def Learner.after (s : LearningState) (steps : List LearningStep) : LearningState :=
  steps.foldl e.step s

/-! ### Progress -/

variable (s : LearningState) (c : RemediationCycle)

/-- Behind a run of the artifact there is a plausible file that was not there before the cycle. -/
def Learner.AddsSource : Prop :=
  ∃ files ∈ (e.loop c.toLoopCall s.rows s.files).stages, ∃ f ∈ files,
    f.isSource e.lower = true ∧ f ∉ s.files

/-- The remote source is resolved, and no experiment of the session had it resolved. -/
def Learner.ResolvesRemote : Prop :=
  (e.selection s c).inspection.evidence.remoteResolution = "ok" ∧
    ∀ x ∈ s.experiments.getD [], x.verdict.remoteResolution ≠ "ok"

def Learner.Progresses : Prop :=
  blockerRank c.after.blockerType < blockerRank c.blockerType ∨ e.AddsSource s c ∨
    e.ResolvesRemote s c

/-- The cycle is recorded as an advance, or clears its heat, for a reason. -/
def Learner.Justified : LearningStep → Prop
  | .remediation c =>
    (e.loggedExperiment s c).verdict.advanced = true ∨ e.clearsHeat s c = true → e.Progresses s c
  | _ => True

/-! ### What looks like progress -/

/-- A run of the artifact leaves a plausible file that was there before the cycle, or an artifact
of another kind lists files as staged. -/
def Learner.CarriesSource : Prop :=
  if c.generated.task.remediationFamily = sourceFamily then
    ∃ files ∈ (e.loop c.toLoopCall s.rows s.files).stages, ∃ f ∈ files,
      f.isSource e.lower = true ∧ f ∈ s.files
  else ∃ p, (c.artifact p).stdout.parse.evidence.sourceAcquisition.stagedFiles ≠ []

/-- Sources stay missing, and an artifact resolves a remote source behind an experiment that had
it resolved. -/
def RepeatsRemote : Prop :=
  c.blockerType = "source_blocker" ∧ c.after.blockerType = "source_blocker" ∧
    (∃ x ∈ s.experiments.getD [], x.verdict.remoteResolution = "ok") ∧
      ∃ p, (c.artifact p).stdout.parse.evidence.remoteResolution = "ok"

/-- The rank of the blocker falls, or nothing from before the cycle looks like progress. -/
def Learner.Fresh : LearningStep → Prop
  | .remediation c =>
    blockerRank c.after.blockerType < blockerRank c.blockerType ∨
      ¬e.CarriesSource s c ∧ ¬RepeatsRemote s c
  | _ => True

/-- The step plans for the blocker and leaves everything as it is. -/
def Learner.Idle (t : String) : LearningStep → Prop
  | .remediation c => c.blockerType = t ∧ c.after.blockerType = t ∧ ¬e.Progresses s c
  | .plan call => call.blocker.blockerType = t
  | .outside .. => True

variable {e s c}

/-- A resolved remote source was printed by a run of the artifact. -/
theorem remote_of_selection
    (h : (e.selection s c).inspection.evidence.remoteResolution = "ok") :
    ∃ p, (c.artifact p).stdout.parse.evidence.remoteResolution = "ok" := by
  rcases selected_cases (e := e) c.toLoopCall s.rows s.files with hrun | hnone
  · obtain ⟨files, after, -, hinspection⟩ := hrun.inspected
    have hselected := congrArg (fun i => i.2.evidence.remoteResolution) hinspection
    have hprinted := (remoteResolution_executeGenerated _ _ _ _).symm.trans hselected.symm
    exact ⟨_, hprinted.trans h⟩
  · rw [Learner.selection, hnone] at h
    exact absurd h (by simp [noResult, blockedInspection])

/-- Files that are listed as staged were there before the cycle, or are added by it. -/
theorem addsSource_of_selection (h : (e.selection s c).inspection.stagedFiles ≠ [])
    (hcarries : ¬e.CarriesSource s c) : e.AddsSource s c := by
  rcases selected_cases (e := e) c.toLoopCall s.rows s.files with hrun | hnone
  · obtain ⟨files, after, hafter, hinspection⟩ := hrun.inspected
    have hstaged : (executeGenerated e.lower c.generated.task e.sourceDir
        (c.artifact (e.selection s c).proposal) files).2.stagedFiles ≠ [] := by
      have heq := congrArg (fun i => i.2.stagedFiles) hinspection
      exact fun hnil => h (heq.trans hnil)
    by_cases hfamily : c.generated.task.remediationFamily = sourceFamily
    · obtain ⟨f, hf, hsource⟩ := (stagedFiles_ne_nil_iff hfamily _ _ _).mp hstaged
      have hmem : f ∈ after := by
        rw [show after = _ from congrArg Prod.fst hinspection]
        exact (isSource_executeGenerated _ _ _ _ hsource).mpr hf
      refine ⟨after, hafter, f, hmem, hsource, fun hold => hcarries ?_⟩
      rw [Learner.CarriesSource, if_pos hfamily]
      exact ⟨after, hafter, f, hmem, hsource, hold⟩
    · rw [executeGenerated_of_other hfamily] at hstaged
      refine absurd ?_ hcarries
      rw [Learner.CarriesSource, if_neg hfamily]
      exact ⟨_, hstaged⟩
  · rw [Learner.selection, hnone] at h
    exact absurd rfl h

/-- A cycle that is fresh advances for a reason only. -/
theorem Learner.Fresh.progresses (h : e.Fresh s (.remediation c))
    (hadvanced : (e.loggedExperiment s c).verdict.advanced = true) : e.Progresses s c := by
  rw [advanced_logged, hasAdvanced_iff c.remediable] at hadvanced
  rcases h with hrank | ⟨hcarries, hrepeats⟩
  · exact .inl hrank
  rcases hadvanced with hrank | hstaged | ⟨hbefore, hafter, hremote⟩
  · exact .inl hrank
  · exact .inr (.inl (addsSource_of_selection hstaged hcarries))
  · refine .inr (.inr ⟨hremote, fun x hx hok => hrepeats ?_⟩)
    exact ⟨hbefore, hafter, ⟨x, hx, hok⟩, remote_of_selection hremote⟩

theorem Learner.Fresh.justified {x : LearningStep} (h : e.Fresh s x) : e.Justified s x := by
  cases x with
  | remediation c =>
    rintro (hadvanced | hclears)
    · exact h.progresses hadvanced
    · rw [Learner.clearsHeat, Bool.or_eq_true, decide_eq_true_eq] at hclears
      rcases hclears with hnone | hadvanced
      · exact .inl (hnone ▸ blockerRank_none_lt c.remediable)
      · exact h.progresses hadvanced
  | plan call => trivial
  | outside rows files => trivial

/-! ### Runs -/

/-- A step that is fresh and idle lengthens the stall by the plan it makes. -/
theorem stallCount_step {t : String} (ht : t ≠ "none") {x : LearningStep} (hfresh : e.Fresh s x)
    (hidle : e.Idle s t x) :
    stallCount s.heat t + (if x.plans then 1 else 0) ≤ stallCount (e.step s x).heat t := by
  cases x with
  | remediation c =>
    obtain ⟨-, hafter, hprogress⟩ := hidle
    have hclears : e.clearsHeat s c = false := by
      rw [← Bool.not_eq_true]
      exact fun h => hprogress (hfresh.justified (.inr h))
    have hheat : (e.step s (.remediation c)).heat =
        (buildPlan s.heat c.after c.generated.generatedFiles c.now).2 := by
      simp only [Learner.step, Learner.remediate, hclears, Bool.false_eq_true, if_false]
      rfl
    rw [hheat, stallCount_buildPlan, if_pos hafter]
    exact Nat.le_refl _
  | plan call =>
    have hcall : call.blocker.blockerType = t := hidle
    have hheat : (e.step s (.plan call)).heat =
        (buildPlan s.heat call.blocker call.generatedFiles call.now).2 := by
      simp only [Learner.step, heatOfPlan, hcall, ht, if_false]
    rw [hheat, stallCount_buildPlan, if_pos hcall]
    exact Nat.le_refl _
  | outside rows files => exact Nat.le_refl _

/-- Along a run of fresh cycles every advance has a reason. Behind a stretch of it that is idle the
planner does not answer with more remediation once three plans were made, and answers with a halt
once five were. -/
theorem run_justified (e : Learner) (s : LearningState) (steps : List LearningStep)
    (hfresh : Along e.step e.Fresh s steps) :
    Along e.step e.Justified s steps ∧
      ∀ front stretch t, steps = front ++ stretch → t ≠ "none" →
        Along e.step (fun s x => e.Idle s t x) (e.after s front) stretch →
          ∀ blocker files now, blocker.blockerType = t →
            (3 ≤ stretch.countP LearningStep.plans →
              (buildPlan (e.after s steps).heat blocker files now).1.action ≠
                .continueAutonomousRemediation) ∧
            (5 ≤ stretch.countP LearningStep.plans →
              (buildPlan (e.after s steps).heat blocker files now).1.action = .haltAndReview) := by
  refine ⟨hfresh.imp fun _ _ h => h.justified, ?_⟩
  rintro front stretch t rfl ht hidle blocker files now rfl
  have hboth := (along_append.mp hfresh).2.and hidle
  have hstall := hboth.le_measure (m := fun s => stallCount s.heat blocker.blockerType)
    fun s x h => stallCount_step ht h.1 h.2
  rw [← List.foldl_append] at hstall
  have hlong : stretch.countP LearningStep.plans ≤
      stallCount (e.after s (front ++ stretch)).heat blocker.blockerType :=
    (Nat.le_add_left _ _).trans hstall
  constructor
  · intro h hcontinue
    have hshort := (action_eq_continue_iff.mp hcontinue).2.2
    omega
  · intro h
    exact action_of_stalled (h.trans hlong)

/-! ### Cycles that change nothing -/

/-- An artifact that leaves the files as they are leaves every plausible file at every stage. -/
theorem mem_stages_of_keeps {call : LoopCall} (hkeeps : ∀ p files, (call.artifact p).files files = files)
    (index tokens : ℕ) (files : List SourceFile) (ps : List Proposal) {f : SourceFile}
    (hf : f.isSource e.lower = true) :
    ∀ stage ∈ (e.runProposals call index tokens files ps).stages, f ∈ stage ↔ f ∈ files := by
  induction ps generalizing index tokens files with
  | nil => simp [Learner.runProposals]
  | cons p ps ih =>
    have hhead : f ∈ (executeGenerated e.lower call.generated.task e.sourceDir (call.artifact p)
        files).1 ↔ f ∈ files := by
      rw [isSource_executeGenerated _ e.sourceDir (call.artifact p) files hf, hkeeps]
    rw [Learner.runProposals]
    split_ifs
    · simp
    · rw [List.forall_mem_cons]
      exact ⟨hhead, fun stage hstage => (ih _ _ _ stage hstage).trans hhead⟩

/-- Nothing is new behind a cycle that keeps its blocker and its files, and resolves nothing. -/
theorem not_progresses_of_keeps
    (hrank : blockerRank c.blockerType ≤ blockerRank c.after.blockerType)
    (hkeeps : ∀ p files, (c.artifact p).files files = files)
    (hremote : ∀ p, (c.artifact p).stdout.parse.evidence.remoteResolution ≠ "ok") :
    ¬e.Progresses s c := by
  rintro (hless | ⟨stage, hstage, f, hf, hsource, hnew⟩ | ⟨hok, -⟩)
  · omega
  · exact hnew ((mem_stages_of_keeps hkeeps _ _ _ _ hsource stage hstage).mp hf)
  · obtain ⟨p, hp⟩ := remote_of_selection hok
    exact hremote p hp

/-- A cycle with an artifact for missing sources that finds nothing. -/
def idleSource : RemediationCycle where
  generated := { task := taskManifest "source_blocker" "" "observe" "unknown" "" }
  blockerType := "source_blocker"
  profile := plainDevice
  artifact _ := { stdout := .json { status := some "partial" }, files := id }
  before := { blockerType := "source_blocker", machineSolvable := true }
  after := { blockerType := "source_blocker", machineSolvable := true }
  blockerType_eq := rfl
  remediable := by decide

/-- The cycle, and four more that only plan for the blocker. -/
def idleRun : List LearningStep :=
  .remediation idleSource :: List.replicate 4 (.plan { blocker := idleSource.after })

/-- The session that finds nothing is halted. -/
theorem run_justified_idle :
    (buildPlan (plainLearner.after {} idleRun).heat idleSource.after [] "").1.action =
      .haltAndReview := by
  have hcarries : ¬plainLearner.CarriesSource {} idleSource := by
    have hfamily : idleSource.generated.task.remediationFamily = sourceFamily := by decide
    rw [Learner.CarriesSource, if_pos hfamily]
    rintro ⟨_, -, f, -, -, hf⟩
    exact absurd hf List.not_mem_nil
  have hrepeats : ¬RepeatsRemote {} idleSource := by
    rintro ⟨-, -, ⟨x, hx, -⟩, -⟩
    exact absurd hx List.not_mem_nil
  have hfresh : Along plainLearner.step plainLearner.Fresh {} idleRun :=
    ⟨.inr ⟨hcarries, hrepeats⟩, trivial, trivial, trivial, trivial, trivial⟩
  have hprogress : ¬plainLearner.Progresses {} idleSource :=
    not_progresses_of_keeps (Nat.le_refl _) (fun _ _ => rfl) fun _ => by
      simp [idleSource, Stdout.parse]
  have hidle : Along plainLearner.step (fun s x => plainLearner.Idle s "source_blocker" x) {} idleRun :=
    ⟨⟨rfl, rfl, hprogress⟩, rfl, rfl, rfl, rfl, trivial⟩
  have hlong : 5 ≤ idleRun.countP LearningStep.plans := by decide
  exact ((run_justified plainLearner {} idleRun hfresh).2 [] idleRun "source_blocker" rfl (by decide)
    hidle idleSource.after [] "" rfl).2 hlong

/-- A plausible file from before makes an advance of a cycle that changes nothing, and ends the
stall. -/
theorem carried_advances_of_keeps (hopen : e.Opens c.toLoopCall)
    (hfamily : c.generated.task.remediationFamily = sourceFamily)
    (hkeeps : ∀ p files, (c.artifact p).files files = files) {f : SourceFile} (hf : f ∈ s.files)
    (hsource : f.isSource e.lower = true) :
    (e.loggedExperiment s c).verdict.advanced = true ∧
      ∀ t, stallCount (e.remediate s c).heat t = 0 := by
  have hrun := hopen.runResult s.rows s.files
  obtain ⟨files, after, hafter, hinspection⟩ := hrun.inspected
  have hstaged : (e.selection s c).inspection.stagedFiles ≠ [] := by
    have heq : (e.selection s c).inspection = _ := congrArg Prod.snd hinspection
    have hmem : f ∈ after := (mem_stages_of_keeps hkeeps _ _ _ _ hsource after hafter).mpr hf
    rw [show after = _ from congrArg Prod.fst hinspection, isSource_executeGenerated _ _ _ _ hsource]
      at hmem
    rw [heq, stagedFiles_ne_nil_iff hfamily]
    exact ⟨f, hmem, hsource⟩
  have hadvanced : (e.loggedExperiment s c).verdict.advanced = true := by
    rw [advanced_logged, hasAdvanced_iff c.remediable]
    exact .inr (.inl hstaged)
  refine ⟨hadvanced, fun t => ?_⟩
  have hclears : e.clearsHeat s c = true := by
    rw [Learner.clearsHeat, hadvanced, Bool.or_true]
  rw [Learner.remediate, if_pos hclears]
  exact stallCount_markAdvanced t

/-- An archive as a run of the artifact stages it. -/
def stagedArchive : SourceFile where
  name := "ota.zip"
  size := 2 * 1024 * 1024
  sample := some "PK"

/-- A cycle that finds an archive from before is recorded as an advance, clears the heat, and has
made no progress. -/
theorem carried_advances :
    ¬plainLearner.Justified { files := [stagedArchive] } (.remediation idleSource) ∧
      (plainLearner.loggedExperiment { files := [stagedArchive] } idleSource).verdict.advanced = true ∧
      ∀ t, stallCount (plainLearner.step { files := [stagedArchive] }
        (.remediation idleSource)).heat t = 0 := by
  have hopen : plainLearner.Opens idleSource.toLoopCall := by
    rw [Learner.Opens]
    decide +kernel
  obtain ⟨hadvanced, hstall⟩ := carried_advances_of_keeps (s := { files := [stagedArchive] })
    hopen (by decide) (fun _ _ => rfl) List.mem_cons_self (by decide)
  refine ⟨fun h => ?_, hadvanced, hstall⟩
  refine not_progresses_of_keeps (Nat.le_refl _) (fun _ _ => rfl) (fun _ => ?_) (h (.inl hadvanced))
  simp [idleSource, Stdout.parse]

end ForgeOS.Learning
