import ForgeOS.Learning.Governance
import ForgeOS.Learning.StrategyMemory
import ForgeOS.Python.Json

/-! `SelfImprovementEngine.run_loop`: variants of a remediation are run one after the other
while the governance gate allows it, the best result is kept, and the attempt goes to the
strategy memory. -/

namespace ForgeOS.Learning

open ForgeOS.Python

/-! ### Proposals -/

structure Proposal where
  proposalId : String
  summary : String
  envOverrides : List (String × String) := []
  deriving DecidableEq, Repr

def baselineProposal : Proposal where
  proposalId := "baseline"
  summary := "Use the generated remediation artifact as-is."

/-- The words of the source choices that were remembered. -/
def learnedKeywords (retrieved : List ScoredAttempt) : List String :=
  retrieved.flatMap fun item =>
    (splitChar (replaceChar item.attempt.sourceChoice '.' '_') '_').filter (· ≠ "")

def featureWords (lower : String → String) (profile : FeatureProfile) : String :=
  "_".intercalate
    ([lower (orText profile.manufacturer ""), lower (orText profile.model ""),
      lower profile.deviceCodename].filter (· ≠ ""))

/-- The variants for missing sources. -/
def sourceProposals (learned : List String) (features : String) : List Proposal :=
  let first := learned.take 6
  let keywords := ",".intercalate (learned.take 4)
  [{ proposalId := "exact_match_local"
     summary := "Prioritize exact device-keyword local candidates before broader matches."
     envOverrides :=
      [("FORGEOS_SOURCE_SELECTION_MODE", "exact_match"),
        ("FORGEOS_PRIORITY_KEYWORDS",
          ",".intercalate (if first = [] then splitChar features '_' else first))] },
    { proposalId := "images_first"
      summary := "Prefer fastboot-style images before sideload archives."
      envOverrides :=
        [("FORGEOS_SOURCE_SELECTION_MODE", "images_first"), ("FORGEOS_PRIORITY_KEYWORDS", keywords)] },
    { proposalId := "remote_first"
      summary := "Try trusted remote acquisition before local staging when local evidence is weak."
      envOverrides :=
        [("FORGEOS_SOURCE_SELECTION_MODE", "remote_first"), ("FORGEOS_PRIORITY_KEYWORDS", keywords)] }]

/-- The variants that repeat what is remembered. -/
def memoryProposals (retrieved : List ScoredAttempt) : List Proposal :=
  ((retrieved.take 2).filter fun item => item.attempt.envOverrides ≠ []).map fun item =>
    { proposalId := "memory_" ++ item.attempt.proposalId
      summary := "Replay a historically successful proposal from strategy memory."
      envOverrides := item.attempt.envOverrides }

/-- `json.dumps(env_overrides, sort_keys=True)` tells the same dictionaries apart. -/
def envKey (p : Proposal) : List (String × String) :=
  p.envOverrides.insertionSort fun a b => a.1 ≤ b.1

/-- The proposals whose overrides no earlier one has. -/
def dedupProposals : List (List (String × String)) → List Proposal → List Proposal
  | _, [] => []
  | seen, p :: ps =>
    if envKey p ∈ seen then dedupProposals seen ps
    else p :: dedupProposals (envKey p :: seen) ps

/-- `_build_proposals` -/
def buildProposals (lower : String → String) (profile : FeatureProfile) (blockerType : String)
    (retrieved : List ScoredAttempt) : List Proposal :=
  let features := featureWords lower profile
  dedupProposals []
    ([baselineProposal] ++
      (if blockerType = "source_blocker" then sourceProposals (learnedKeywords retrieved) features
      else
        [{ proposalId := "low_cost_retry"
           summary := "Retry with low-cost preference and device-specific keywords."
           envOverrides := [("FORGEOS_PRIORITY_KEYWORDS", replaceChar features '_' ',')] }]) ++
      memoryProposals retrieved)

/-! ### Costs and scores -/

def taskLength (task : RemediationTask) : ℕ :=
  jsonTextsLength
    [("task_id", task.taskId), ("blocker_type", task.blockerType),
      ("blocker_summary", task.blockerSummary), ("recommended_adapter", task.recommendedAdapter),
      ("remediation_family", task.remediationFamily), ("objective", task.objective),
      ("build_path", task.buildPath), ("generated_at", task.generatedAt)]

def proposalLength (p : Proposal) : ℕ :=
  jsonDictLength
    [("proposal_id", jsonTextLength p.proposalId), ("summary", jsonTextLength p.summary),
      ("env_overrides", jsonTextsLength p.envOverrides)]

/-- `_estimate_candidate_tokens` -/
def estimateCandidateTokens (task : RemediationTask) (p : Proposal) : ℕ :=
  max 1 ((taskLength task + proposalLength p) / 4)

/-- The points of `_score_result`, before the tokens are charged. -/
def scorePoints (inspection : Inspection) (verdict : Verdict) : ℕ :=
  (if verdict.advanced then 10 else 0) + (if verdict.decision = .advance then 5 else 0) +
    (if inspection.stagedFiles ≠ [] then 4 else 0) +
    if inspection.evidence.remoteResolution = "ok" then 2 else 0

/-! ### The loop -/

/-- What stays the same for a session: the policy, the places of its files, the process. -/
structure Learner where
  policy : LoopPolicy
  premises : Premises
  lower : String → String
  hash : StringHash
  /-- `round(points - tokens / 10000.0, 3)` -/
  score : ℕ → ℕ → ℚ

/-- A call of the loop: the task, and what a run of the artifact does for a proposal. -/
structure LoopCall where
  generated : GeneratedRuntime
  blockerType : String
  profile : FeatureProfile
  strategyId : String := ""
  artifact : Proposal → ArtifactRun
  elapsedSeconds : Proposal → ℚ := fun _ => 0
  now : String := ""

/-- A proposal that was run, or the one at which the gate was closed. -/
structure ProposalResult where
  proposal : Proposal
  blocked : Bool := false
  inspection : Inspection
  score : ℚ
  decision : Decision
  advanced : Bool
  elapsedSeconds : ℚ := 0
  gate : ApprovalGate
  deriving DecidableEq, Repr

structure LoopState where
  results : List ProposalResult := []
  tokens : ℕ
  files : List SourceFile
  /-- What `os-source` held behind each run. -/
  stages : List (List SourceFile) := []

variable (e : Learner)

def Learner.runtimeDir : String :=
  pathDiv (pathDiv e.premises.sessionDir "runtime") "self-improvement"

def Learner.sourceDir : String := pathDiv (pathDiv e.premises.sessionDir "artifacts") "os-source"

/-- The gate for the proposal at the index, with the tokens of the call up to it. -/
def Learner.gate (index tokens : ℕ) (p : Proposal) : ApprovalGate :=
  e.premises.selfImprovementGate e.policy tokens index [pathDiv e.runtimeDir (p.proposalId ++ ".json")]

def blockedInspection (reason : String) : Inspection where
  status := "policy_blocked"
  summary := reason

/-- The result for a proposal that was run. -/
def Learner.executed (c : LoopCall) (p : Proposal) (inspection : Inspection) (tokens : ℕ)
    (gate : ApprovalGate) : ProposalResult :=
  let verdict :=
    evaluateExperiment c.blockerType (inspection.nextBlockerType.getD c.blockerType) inspection
  { proposal := p
    inspection
    score := e.score (scorePoints inspection verdict) tokens
    decision := verdict.decision
    advanced := verdict.advanced
    elapsedSeconds := c.elapsedSeconds p
    gate }

/-- The `for` loop of `run_loop`, from the index on. -/
def Learner.runProposals (c : LoopCall) : ℕ → ℕ → List SourceFile → List Proposal → LoopState
  | _, tokens, files, [] => { tokens, files }
  | index, tokens, files, p :: ps =>
    let tokens := tokens + estimateCandidateTokens c.generated.task p
    let gate := e.gate index tokens p
    if gate.allowed = false then
      { results :=
          [{ proposal := p
             blocked := true
             inspection := blockedInspection gate.reason
             score := -1
             decision := .discard
             advanced := false
             gate }]
        tokens
        files }
    else
      let (files, inspection) :=
        executeGenerated e.lower c.generated.task e.sourceDir (c.artifact p) files
      let rest := runProposals c (index + 1) tokens files ps
      { rest with
        results := e.executed c p inspection tokens gate :: rest.results
        stages := files :: rest.stages }

/-- The order of the sort key: better, then advanced results first. -/
def ProposalResult.before (a b : ProposalResult) : Bool :=
  b.score < a.score || (a.score = b.score && (a.advanced || !b.advanced))

/-- `_select_best_result` -/
def selectBestResult (results : List ProposalResult) : Option ProposalResult :=
  ((results.filter fun r => !r.blocked).insertionSort fun a b => a.before b).head?

/-- The result that stands in when the first proposal is already blocked. -/
def noResult (proposals : List Proposal) (results : List ProposalResult) : ProposalResult where
  proposal := proposals.headD baselineProposal
  blocked := true
  inspection :=
    blockedInspection "Governance policy blocked additional self-improvement attempts."
  score := -1
  decision := .discard
  advanced := false
  gate := (results.head?.map ProposalResult.gate).getD
    { action := "", allowed := false, requiresExplicitApproval := false, reason := "" }

/-- The proposals of a call. -/
def Learner.proposals (c : LoopCall) (rows : List StrategyAttempt) : List Proposal :=
  buildProposals e.lower c.profile c.blockerType
    (retrieveSimilar e.lower e.hash rows c.profile c.blockerType 3)

/-- The loop of a call, over all its proposals. -/
def Learner.loop (c : LoopCall) (rows : List StrategyAttempt) (files : List SourceFile) : LoopState :=
  e.runProposals c 0 0 files (e.proposals c rows)

/-- The result that a call selects. -/
def Learner.selected (c : LoopCall) (rows : List StrategyAttempt) (files : List SourceFile) :
    ProposalResult :=
  (selectBestResult (e.loop c rows files).results).getD
    (noResult (e.proposals c rows) (e.loop c rows files).results)

/-- What a call reports to the strategy memory. -/
def Learner.report (c : LoopCall) (rows : List StrategyAttempt) (files : List SourceFile) :
    AttemptReport :=
  let selected := e.selected c rows files
  { strategyId := orText (some c.strategyId) "unselected"
    proposalId := selected.proposal.proposalId
    envOverrides := selected.proposal.envOverrides
    sourceCandidates := selected.inspection.evidence.sourceAcquisition.localCandidates
    sourceChoice := (selected.inspection.stagedFiles.head?.map pathName).getD ""
    decision := selected.decision
    advanced := selected.advanced
    score := selected.score
    elapsedSeconds := selected.elapsedSeconds
    estimatedTokens := (e.loop c rows files).tokens }

/-- `run_loop`: the memory and `os-source` afterwards. -/
def Learner.runLoop (c : LoopCall) (rows : List StrategyAttempt) (files : List SourceFile) :
    List StrategyAttempt × List SourceFile :=
  (recordAttempt e.lower e.hash rows c.profile c.blockerType (e.report c rows files) c.now,
    (e.loop c rows files).files)

/-! ### What is selected -/

variable {e}

/-- The result of a run: its inspection is one of the artifact at a stage of `os-source`, and its
verdict compares the blocker with itself. -/
structure RunResult (e : Learner) (c : LoopCall) (s : LoopState) (r : ProposalResult) : Prop where
  inspected : ∃ before after, after ∈ s.stages ∧
    (after, r.inspection) =
      executeGenerated e.lower c.generated.task e.sourceDir (c.artifact r.proposal) before
  verdict : r.decision = (evaluateExperiment c.blockerType c.blockerType r.inspection).decision ∧
    r.advanced = hasAdvanced c.blockerType c.blockerType r.inspection

theorem RunResult.mono {c : LoopCall} {s s' : LoopState} {r : ProposalResult}
    (h : RunResult e c s r) (hstages : ∀ files ∈ s.stages, files ∈ s'.stages) : RunResult e c s' r := by
  obtain ⟨⟨before, after, hafter, hrun⟩, hverdict⟩ := h
  exact ⟨⟨before, after, hstages after hafter, hrun⟩, hverdict⟩

/-- Every result that is not blocked is the result of a run. -/
theorem runResult_of_mem (c : LoopCall) (index tokens : ℕ) (files : List SourceFile)
    (ps : List Proposal) {r : ProposalResult}
    (hr : r ∈ (e.runProposals c index tokens files ps).results) (hblocked : r.blocked = false) :
    RunResult e c (e.runProposals c index tokens files ps) r := by
  induction ps generalizing index tokens files with
  | nil => simp [Learner.runProposals] at hr
  | cons p ps ih =>
    rw [Learner.runProposals] at hr ⊢
    by_cases hgate :
        (e.gate index (tokens + estimateCandidateTokens c.generated.task p) p).allowed = false
    · rw [if_pos hgate] at hr
      rw [List.mem_singleton.mp hr] at hblocked
      exact Bool.noConfusion hblocked
    · rw [if_neg hgate] at hr ⊢
      rcases List.mem_cons.mp hr with rfl | hr
      · refine ⟨⟨files, _, List.mem_cons_self, rfl⟩, ?_⟩
        exact ⟨rfl, rfl⟩
      · exact (ih (index + 1) _ _ hr).mono fun _ => List.mem_cons_of_mem _

theorem mem_of_selectBestResult {results : List ProposalResult} {r : ProposalResult}
    (h : selectBestResult results = some r) : r ∈ results ∧ r.blocked = false := by
  have hmem := List.mem_of_head? h
  rw [List.mem_insertionSort, List.mem_filter] at hmem
  exact ⟨hmem.1, by simpa using hmem.2⟩

/-- A call selects the result of a run, or stands in for it when nothing was run. -/
theorem selected_cases (c : LoopCall) (rows : List StrategyAttempt) (files : List SourceFile) :
    RunResult e c (e.loop c rows files) (e.selected c rows files) ∨
      e.selected c rows files = noResult (e.proposals c rows) (e.loop c rows files).results := by
  rw [Learner.selected]
  cases hbest : selectBestResult (e.loop c rows files).results with
  | none => exact .inr rfl
  | some r =>
    obtain ⟨hmem, hblocked⟩ := mem_of_selectBestResult hbest
    exact .inl (runResult_of_mem c 0 0 files _ hmem hblocked)

/-- The first proposal is the artifact as it is. -/
theorem proposals_eq_cons (c : LoopCall) (rows : List StrategyAttempt) :
    ∃ ps, e.proposals c rows = baselineProposal :: ps := by
  rw [Learner.proposals, buildProposals, List.append_assoc, List.singleton_append, dedupProposals,
    if_neg List.not_mem_nil]
  exact ⟨_, rfl⟩

/-- The gate lets the first proposal of the call pass. -/
def Learner.Opens (c : LoopCall) : Prop :=
  (e.gate 0 (estimateCandidateTokens c.generated.task baselineProposal) baselineProposal).allowed = true

/-- A call that passes the gate selects the result of a run. -/
theorem Learner.Opens.runResult {c : LoopCall} (h : e.Opens c) (rows : List StrategyAttempt)
    (files : List SourceFile) : RunResult e c (e.loop c rows files) (e.selected c rows files) := by
  obtain ⟨ps, hps⟩ := proposals_eq_cons (e := e) c rows
  have hopen : ¬(e.gate 0 (0 + estimateCandidateTokens c.generated.task baselineProposal)
      baselineProposal).allowed = false := by
    rw [Nat.zero_add, h]
    decide
  have hran : ∃ r ∈ (e.loop c rows files).results, r.blocked = false := by
    rw [Learner.loop, hps, Learner.runProposals, if_neg hopen]
    exact ⟨_, List.mem_cons_self, rfl⟩
  obtain ⟨r, hr, hblocked⟩ := hran
  rw [Learner.selected]
  cases hbest : selectBestResult (e.loop c rows files).results with
  | none =>
    rw [selectBestResult, List.head?_eq_none_iff] at hbest
    have hmem : r ∈ ((e.loop c rows files).results.filter fun r => !r.blocked).insertionSort
        fun a b => a.before b :=
      (List.mem_insertionSort _).mpr (List.mem_filter.mpr ⟨hr, by rw [hblocked, Bool.not_false]⟩)
    exact absurd (hbest ▸ hmem) List.not_mem_nil
  | some best =>
    obtain ⟨hmem, hbestran⟩ := mem_of_selectBestResult hbest
    exact runResult_of_mem c 0 0 files _ hmem hbestran

end ForgeOS.Learning
