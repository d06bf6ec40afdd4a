import ForgeOS.Learning.SelfImprovement
import ForgeOS.Runtime.Blocker

/-! The remediation branch of a runtime cycle, as to what is learned from it: the loop runs
and reports to the strategy memory, the blocker is classified again, the experiment is
recorded, the next plan is made, and the heat of the cycle is cleared if it advanced. -/

namespace ForgeOS.Learning

open ForgeOS.Python ForgeOS.Library.Streak

/-! ### Cycles -/

/-- The dictionary of a blocker. -/
def recordOf (b : Runtime.Blocker) : BlockerRecord where
  blockerType := b.blockerType.value
  machineSolvable := b.machineSolvable
  summary := b.summary
  plannedNextAction := b.plannedNextAction
  retryBudget := b.retryBudget

/-- A cycle with a blocker that the appliance works on, before and behind the remediation. -/
structure RemediationCycle extends LoopCall where
  before : BlockerRecord
  after : BlockerRecord
  blockerType_eq : blockerType = before.blockerType
  remediable : blockerType ≠ "none"
  /-- `time.monotonic() - remediation_started` -/
  remediationSeconds : ℚ := 0

structure LearningState where
  rows : List StrategyAttempt := []
  files : List SourceFile := []
  heat : HeatFile := none
  experiments : Option (List Experiment) := none

variable (e : Learner) (s : LearningState) (c : RemediationCycle)

/-- The result that the loop of the cycle selects. -/
def Learner.selection : ProposalResult := e.selected c.toLoopCall s.rows s.files

/-- The row that the loop adds to the strategy memory. -/
def Learner.storedAttempt : StrategyAttempt :=
  attemptRow e.lower e.hash c.profile c.blockerType (e.report c.toLoopCall s.rows s.files) c.now

/-- The ledger of the experiments behind the cycle, and its new entry. -/
def Learner.recorded : Option (List Experiment) × Experiment :=
  recordExperiment e.lower s.experiments c.before c.after.blockerType (e.selection s c).inspection
    c.generated c.remediationSeconds c.strategyId false c.now

def Learner.loggedExperiment : Experiment := (e.recorded s c).2

/-- The plan of the cycle, and the heat ledger with it. -/
def Learner.planned : RetryPlan × HeatFile :=
  buildPlan s.heat c.after c.generated.generatedFiles c.now

/-- The cycle clears its heat. -/
def Learner.clearsHeat : Bool := c.after.blockerType = "none" || (e.loggedExperiment s c).verdict.advanced

/-- The remediation branch of `_run_runtime_cycle`, and the plan behind it. -/
def Learner.remediate : LearningState where
  rows := (e.runLoop c.toLoopCall s.rows s.files).1
  files := (e.runLoop c.toLoopCall s.rows s.files).2
  experiments := (e.recorded s c).1
  heat := if e.clearsHeat s c then markAdvanced (Learner.planned s c).2 else (Learner.planned s c).2

/-! ### Two verdicts -/

variable {e s c}

theorem advanced_logged : (e.loggedExperiment s c).verdict.advanced =
    hasAdvanced c.blockerType c.after.blockerType (e.selection s c).inspection := by
  rw [c.blockerType_eq]
  rfl

/-- The decision goes with the flag. -/
theorem decision_evaluate (before after : String) (i : Inspection) :
    (evaluateExperiment before after i).decision =
      if hasAdvanced before after i then .advance else .discard := rfl

/-- What the loop stores compares the blocker with itself. -/
theorem stored_eq : (e.storedAttempt s c).advanced =
      hasAdvanced c.blockerType c.blockerType (e.selection s c).inspection ∧
    (e.storedAttempt s c).decision =
      (evaluateExperiment c.blockerType c.blockerType (e.selection s c).inspection).decision := by
  have hstored : (e.storedAttempt s c).advanced = (e.selection s c).advanced ∧
      (e.storedAttempt s c).decision = (e.selection s c).decision := ⟨rfl, rfl⟩
  rw [hstored.1, hstored.2, Learner.selection]
  rcases selected_cases (e := e) c.toLoopCall s.rows s.files with hrun | hnone
  · exact ⟨hrun.verdict.2, hrun.verdict.1⟩
  · -- nothing was run, so there is no evidence either
    have hfalse : ∀ reason,
        hasAdvanced c.blockerType c.blockerType (blockedInspection reason) = false := by
      intro reason
      simp [hasAdvanced, blockedInspection, Inspection.stagedFiles, c.remediable]
    rw [hnone, noResult, decision_evaluate, hfalse]
    exact ⟨rfl, rfl⟩

/-- Classifying the blocker again changes no verdict: files are staged, or the verdict on the
remote answer stays, or the rank does not fall. -/
def SameVerdict (before after : String) (i : Inspection) : Prop :=
  i.stagedFiles ≠ [] ∨
    if before = "source_blocker" ∧ i.evidence.remoteResolution = "ok" then
      after = "none" ∨ after = "source_blocker"
    else blockerRank before ≤ blockerRank after

theorem hasAdvanced_iff {before after : String} (h : before ≠ "none") {i : Inspection} :
    hasAdvanced before after i = true ↔ blockerRank after < blockerRank before ∨
      i.stagedFiles ≠ [] ∨
        before = "source_blocker" ∧ after = "source_blocker" ∧ i.evidence.remoteResolution = "ok" := by
  have hnone : after = "none" → blockerRank after < blockerRank before := by
    rintro rfl
    exact blockerRank_none_lt h
  simp only [hasAdvanced, Bool.or_eq_true, Bool.and_eq_true, decide_eq_true_eq]
  tauto

theorem hasAdvanced_self_eq_iff {before after : String} (h : before ≠ "none") (i : Inspection) :
    hasAdvanced before before i = hasAdvanced before after i ↔ SameVerdict before after i := by
  rw [Bool.eq_iff_iff, hasAdvanced_iff h, hasAdvanced_iff h, SameVerdict]
  by_cases hstaged : i.stagedFiles ≠ []
  · simp [hstaged]
  by_cases hremote : before = "source_blocker" ∧ i.evidence.remoteResolution = "ok"
  · -- only getting rid of the blocker lowers the rank of missing sources
    obtain ⟨rfl, hok⟩ := hremote
    have hrank : blockerRank after < blockerRank "source_blocker" ↔ after = "none" :=
      Nat.lt_one_iff.trans blockerRank_eq_zero
    simp [hstaged, hok, hrank]
  · rw [if_neg hremote, ← Nat.not_lt]
    have hsame : ¬(before = "source_blocker" ∧ before = "source_blocker" ∧
        i.evidence.remoteResolution = "ok") := fun h => hremote ⟨h.1, h.2.2⟩
    have hboth : ¬(before = "source_blocker" ∧ after = "source_blocker" ∧
        i.evidence.remoteResolution = "ok") := fun h => hremote ⟨h.1, h.2.2⟩
    simp only [hstaged, hsame, hboth, lt_irrefl, false_or, or_false, false_iff]

/-- The strategy memory and the ledger of the experiments tell the same of a cycle exactly when
classifying the blocker again changes no verdict. -/
theorem verdicts_agree_iff (e : Learner) (s : LearningState) (c : RemediationCycle) :
    ((e.storedAttempt s c).decision = (e.loggedExperiment s c).verdict.decision ∧
        (e.storedAttempt s c).advanced = (e.loggedExperiment s c).verdict.advanced) ↔
      SameVerdict c.blockerType c.after.blockerType (e.selection s c).inspection := by
  have hlogged : (e.loggedExperiment s c).verdict.decision =
      if (e.loggedExperiment s c).verdict.advanced then .advance else .discard := rfl
  rw [hlogged, advanced_logged, stored_eq.1, stored_eq.2, decision_evaluate,
    ← hasAdvanced_self_eq_iff c.remediable]
  constructor
  · exact fun h => h.2
  · exact fun h => ⟨by rw [h], h⟩

/-- A session with the policy of the repository. -/
def plainLearner : Learner where
  policy := {}
  premises := plainPremises
  lower := asciiLower
  hash _ := 0
  score points _ := points

/-- A cycle in which the artifact says that it has solved the blocker of the transport. -/
def solvedTransport : RemediationCycle where
  generated := { task := taskManifest "transport_blocker" "" "observe" "unknown" "" }
  blockerType := "transport_blocker"
  profile := plainDevice
  artifact _ := { stdout := .json { status := some "solved" }, files := id }
  before := { blockerType := "transport_blocker", machineSolvable := true }
  after := { blockerType := "none" }
  blockerType_eq := rfl
  remediable := by decide

/-- The memory keeps as discarded what the ledger has as an advance. -/
theorem verdicts_differ :
    (plainLearner.storedAttempt {} solvedTransport).decision = .discard ∧
      (plainLearner.storedAttempt {} solvedTransport).advanced = false ∧
      (plainLearner.loggedExperiment {} solvedTransport).verdict.decision = .advance ∧
      (plainLearner.loggedExperiment {} solvedTransport).verdict.advanced = true := by
  decide +kernel

end ForgeOS.Learning
