import Mathlib.Algebra.Order.Ring.Rat
import Mathlib.Data.Rat.Floor
import ForgeOS.Learning.Codegen
import ForgeOS.Library.Rounding
import ForgeOS.Library.Streak

/-! `RetryPlanner`: the verdict on a remediation, the ledger of the experiments, and the
heat ledger, in which the planner counts how often in a row it has planned for the same
type of blocker without an advance. -/

namespace ForgeOS.Learning

open ForgeOS.Python ForgeOS.Library.Rounding ForgeOS.Library.Streak

/-! ### Blockers and verdicts -/

/-- A blocker as a dictionary of the planner. -/
structure BlockerRecord where
  blockerType : String
  machineSolvable : Bool := false
  summary : String := ""
  plannedNextAction : String := ""
  retryBudget : ℕ := 0
  deriving DecidableEq, Repr

/-- `_blocker_rank` -/
def blockerRank (blockerType : String) : ℕ :=
  match blockerType with
  | "none" => 0
  | "source_blocker" => 1
  | "transport_blocker" => 2
  | "subsystem_blocker" => 3
  | "trust_blocker" => 4
  | "physical_action_blocker" => 5
  | "policy_blocker" => 6
  | _ => 7

inductive Decision
  | advance | discard
  deriving DecidableEq, Repr

structure Verdict where
  decision : Decision
  advanced : Bool
  status : String
  blockerBefore : String
  blockerAfter : String
  stagedFiles : List String
  remoteResolution : String
  rationale : String
  deriving DecidableEq, Repr

/-- The remediation counts as an advance. -/
def hasAdvanced (before after : String) (inspection : Inspection) : Bool :=
  blockerRank after < blockerRank before || after = "none" || inspection.stagedFiles ≠ [] ||
    (before = "source_blocker" && after = "source_blocker" &&
      inspection.evidence.remoteResolution = "ok")

/-- `evaluate_experiment` -/
def evaluateExperiment (before after : String) (inspection : Inspection) : Verdict :=
  let advanced := hasAdvanced before after inspection
  { decision := if advanced then .advance else .discard
    advanced
    status := inspection.status
    blockerBefore := before
    blockerAfter := after
    stagedFiles := inspection.stagedFiles
    remoteResolution := inspection.evidence.remoteResolution
    rationale :=
      if advanced then "The remediation changed the session enough to keep this direction."
      else
        "The remediation did not improve the blocker enough to keep this direction as an advance." }

theorem blockerRank_eq_zero {t : String} : blockerRank t = 0 ↔ t = "none" := by
  constructor
  · intro h
    unfold blockerRank at h
    split at h
    · rfl
    all_goals exact absurd h (by decide)
  · rintro rfl
    rfl

/-- Getting rid of a blocker lowers the rank. -/
theorem blockerRank_none_lt {before : String} (h : before ≠ "none") :
    blockerRank "none" < blockerRank before := by
  have hpos : blockerRank before ≠ 0 := fun h0 => h (blockerRank_eq_zero.mp h0)
  exact Nat.pos_of_ne_zero hpos

/-! ### Experiments -/

/-- `_blocker_id` -/
def blockerId (lower : String → String) (blocker : BlockerRecord) : String :=
  let blockerType := orText (some blocker.blockerType) "unknown"
  let plannedNextAction := orText (some blocker.plannedNextAction) "unspecified"
  let summary := (replaceChar (lower (strip blocker.summary)) ' ' '_').toList.take 48
  String.ofList
    ((blockerType ++ ":" ++ plannedNextAction ++ ":").toList ++ summary |>.rdropWhile (· == ':'))

structure Experiment where
  timestamp : String := ""
  blockerId : String := ""
  taskId : String := ""
  remediationFamily : String := ""
  plannedNextAction : String := ""
  summary : String := ""
  selectedStrategy : String := ""
  elapsedSeconds : ℚ := 0
  humanInterventionRequired : Bool := false
  verdict : Verdict
  sessionFitness : ℚ := 0
  deriving DecidableEq, Repr

structure SessionFitness where
  fitnessScore : ℚ := 0
  advancedCount : ℕ := 0
  totalExperiments : ℕ := 0
  humanInterventionCount : ℕ := 0
  deriving DecidableEq, Repr

/-- `_session_fitness` -/
def sessionFitness (experiments : List Experiment) : SessionFitness :=
  if experiments = [] then {}
  else
    let total := experiments.length
    let advancedCount := experiments.countP (·.verdict.advanced)
    let humanInterventionCount := experiments.countP (·.humanInterventionRequired)
    let advanceRatio : ℚ := advancedCount / total
    let autonomyRatio : ℚ := (total - humanInterventionCount) / total
    { fitnessScore := roundPlaces 3 (advanceRatio * autonomyRatio)
      advancedCount
      totalExperiments := total
      humanInterventionCount }

/-- `record_experiment`: the ledger and its new entry. A ledger that is missing or cannot be
read starts again. -/
def recordExperiment (lower : String → String) (ledger : Option (List Experiment))
    (before : BlockerRecord) (after : String) (inspection : Inspection)
    (generated : GeneratedRuntime) (elapsedSeconds : ℚ) (strategy : String)
    (humanInterventionRequired : Bool) (now : String) : Option (List Experiment) × Experiment :=
  let entry :=
    { timestamp := now
      blockerId := blockerId lower before
      taskId := generated.task.taskId
      remediationFamily := generated.task.remediationFamily
      plannedNextAction := before.plannedNextAction
      summary := before.summary
      selectedStrategy := strategy
      elapsedSeconds := roundPlaces 3 elapsedSeconds
      humanInterventionRequired
      verdict := evaluateExperiment before.blockerType after inspection }
  let fitness := sessionFitness (ledger.getD [] ++ [entry])
  let entry := { entry with sessionFitness := fitness.fitnessScore }
  (some (ledger.getD [] ++ [entry]), entry)

/-- A share of a whole. -/
theorem share_mem_Icc {part total : ℕ} (h : part ≤ total) :
    (part / total : ℚ) ∈ Set.Icc (0 : ℚ) 1 := by
  constructor
  · positivity
  · exact div_le_one_of_le₀ (Nat.cast_le.mpr h) (Nat.cast_nonneg total)

theorem fitnessScore_mem_Icc (experiments : List Experiment) :
    (sessionFitness experiments).fitnessScore ∈ Set.Icc (0 : ℚ) 1 := by
  rw [sessionFitness]
  split_ifs with hnone
  · exact ⟨le_rfl, zero_le_one⟩
  · have hadvanced := share_mem_Icc
      (List.countP_le_length (p := fun x : Experiment => x.verdict.advanced) (l := experiments))
    have hautonomous := share_mem_Icc
      (Nat.sub_le experiments.length (experiments.countP (·.humanInterventionRequired)))
    rw [Nat.cast_sub List.countP_le_length] at hautonomous
    refine roundPlaces_mem_Icc (m := 0) (n := 1000) (by norm_num) (by norm_num) ⟨?_, ?_⟩
    · exact mul_nonneg hadvanced.1 hautonomous.1
    · exact mul_le_one₀ hadvanced.2 hautonomous.1 hautonomous.2

/-! ### Plans -/

inductive RetryAction
  | returnToMainPlan | continueAutonomousRemediation | awaitUserAction | haltAndReview
  | escalateStrategy
  deriving DecidableEq, Repr

def RetryAction.value : RetryAction → String
  | returnToMainPlan => "return_to_main_plan"
  | continueAutonomousRemediation => "continue_autonomous_remediation"
  | awaitUserAction => "await_user_action"
  | haltAndReview => "halt_and_review"
  | escalateStrategy => "escalate_strategy"

structure RetryPlan where
  generatedAt : String
  action : RetryAction
  rationale : String
  retryBudget : ℕ
  generatedFiles : List String
  deriving DecidableEq, Repr

/-- What the blocker alone asks for. -/
def plannedAction (blocker : BlockerRecord) : RetryAction × String :=
  if blocker.blockerType = "none" then
    (.returnToMainPlan,
      "The current blocker has been resolved enough for the runtime to continue the main execution path.")
  else if blocker.machineSolvable then
    (.continueAutonomousRemediation,
      "The blocker is machine-solvable, so the runtime should generate, execute, inspect, and reclassify before asking for help.")
  else if blocker.blockerType ∈ ["trust_blocker", "physical_action_blocker"] then
    (.awaitUserAction, "The next action depends on physical interaction or on-device approval.")
  else (.haltAndReview, "The blocker is not safely solvable by autonomous retry.")

structure HeatCycle where
  timestamp : String := ""
  blockerType : String
  actionTaken : RetryAction
  advanced : Bool := false
  deriving DecidableEq, Repr

/-- `retry-heat.json`; `none` when it is missing or cannot be read. -/
abbrev HeatFile := Option (List HeatCycle)

/-- `_load_heat` -/
def loadHeat (heat : HeatFile) : List HeatCycle := heat.getD []

/-- The cycle is one for the type that did not advance. -/
def stalledOn (blockerType : String) (cycle : HeatCycle) : Bool :=
  cycle.blockerType = blockerType && !cycle.advanced

def stallCount (heat : HeatFile) (blockerType : String) : ℕ :=
  streak (stalledOn blockerType) (loadHeat heat)

/-- What is done in view of the stalled cycles. -/
def cooledAction (blocker : BlockerRecord) (stalled : ℕ) : RetryAction × String :=
  if 5 ≤ stalled then
    (.haltAndReview,
      "The runtime stalled on the same blocker for five consecutive cycles and must stop for review.")
  else if 3 ≤ stalled ∧ blocker.machineSolvable then
    (.escalateStrategy,
      "The runtime stalled on the same machine-solvable blocker for three consecutive cycles and should escalate strategy.")
  else plannedAction blocker

/-- `build_plan` for a session: the plan, and the heat ledger behind it. -/
def buildPlan (heat : HeatFile) (blocker : BlockerRecord) (generatedFiles : List String)
    (now : String) : RetryPlan × HeatFile :=
  let (action, rationale) := cooledAction blocker (stallCount heat blocker.blockerType)
  ({ generatedAt := now
     action
     rationale
     retryBudget := blocker.retryBudget
     generatedFiles },
    some (loadHeat heat ++
      [{ timestamp := now, blockerType := blocker.blockerType, actionTaken := action }]))

/-- `cycles[-1]["advanced"] = True` -/
def advanceLast : List HeatCycle → List HeatCycle
  | [] => []
  | [cycle] => [{ cycle with advanced := true }]
  | cycle :: cycles => cycle :: advanceLast cycles

/-- `mark_advanced` -/
def markAdvanced (heat : HeatFile) : HeatFile :=
  if loadHeat heat = [] then heat else some (advanceLast (loadHeat heat))

/-! ### What a plan says, and what it leaves -/

variable {heat : HeatFile} {blocker : BlockerRecord} {files : List String} {now : String}

theorem loadHeat_buildPlan : loadHeat (buildPlan heat blocker files now).2 = loadHeat heat ++
    [{ timestamp := now, blockerType := blocker.blockerType,
       actionTaken := (buildPlan heat blocker files now).1.action }] := rfl

/-- A plan for the type lengthens its stall, a plan for another type ends it. -/
theorem stallCount_buildPlan (t : String) : stallCount (buildPlan heat blocker files now).2 t =
    if blocker.blockerType = t then stallCount heat t + 1 else 0 := by
  rw [stallCount, loadHeat_buildPlan, streak_snoc]
  simp only [stalledOn, Bool.not_false, Bool.and_true, decide_eq_true_eq]
  rfl

theorem advanceLast_snoc (cycles : List HeatCycle) (cycle : HeatCycle) :
    advanceLast (cycles ++ [cycle]) = cycles ++ [{ cycle with advanced := true }] := by
  induction cycles with
  | nil => rfl
  | cons c cycles ih =>
    have hne : cycles ++ [cycle] ≠ [] := by simp
    obtain ⟨d, rest, hrest⟩ := List.exists_cons_of_ne_nil hne
    rw [List.cons_append, List.cons_append, ← ih, hrest, advanceLast]
    exact List.cons_ne_nil d rest

/-- Behind an advance nothing is stalled. -/
theorem stallCount_markAdvanced (t : String) : stallCount (markAdvanced heat) t = 0 := by
  rw [markAdvanced]
  split_ifs with h
  · rw [stallCount, h, streak_nil]
  · obtain ⟨cycles, cycle, hlast⟩ := List.eq_nil_or_concat (loadHeat heat) |>.resolve_left h
    rw [stallCount, hlast]
    simp [loadHeat, advanceLast_snoc, streak_snoc, stalledOn]

theorem action_buildPlan : (buildPlan heat blocker files now).1.action =
    (cooledAction blocker (stallCount heat blocker.blockerType)).1 := rfl

/-- The planner answers with more remediation exactly while fewer than three cycles stall. -/
theorem action_eq_continue_iff :
    (buildPlan heat blocker files now).1.action = .continueAutonomousRemediation ↔
      blocker.blockerType ≠ "none" ∧ blocker.machineSolvable = true ∧
        stallCount heat blocker.blockerType < 3 := by
  rw [action_buildPlan]
  simp only [cooledAction, plannedAction]
  split_ifs with h5 h3 hnone hsolvable htype
  · have hlong : ¬stallCount heat blocker.blockerType < 3 := by omega
    simp [hlong]
  · simp [h3.1]
  · simp [hnone]
  · have hshort : stallCount heat blocker.blockerType < 3 := by
      by_contra h
      exact h3 ⟨Nat.not_lt.mp h, hsolvable⟩
    simp [hnone, hsolvable, hshort]
  · simp [hsolvable]
  · simp [hsolvable]

theorem action_of_stalled (h : 5 ≤ stallCount heat blocker.blockerType) :
    (buildPlan heat blocker files now).1.action = .haltAndReview := by
  rw [action_buildPlan, cooledAction, if_pos h]

/-! ### Sequences of plans -/

/-- A call of `build_plan`. -/
structure PlanCall where
  blocker : BlockerRecord
  generatedFiles : List String := []
  now : String := ""
  deriving DecidableEq, Repr

/-- The heat ledger behind calls with no advance between them. -/
def heatAfter (heat : HeatFile) (calls : List PlanCall) : HeatFile :=
  calls.foldl (fun heat call => (buildPlan heat call.blocker call.generatedFiles call.now).2) heat

/-- What the planner answers to a call behind others. -/
def answerAfter (heat : HeatFile) (calls : List PlanCall) (call : PlanCall) : RetryAction :=
  (buildPlan (heatAfter heat calls) call.blocker call.generatedFiles call.now).1.action

/-- The answers to all calls, in order. -/
def answers (heat : HeatFile) : List PlanCall → List RetryAction
  | [] => []
  | call :: calls =>
    answerAfter heat [] call ::
      answers (buildPlan heat call.blocker call.generatedFiles call.now).2 calls

theorem heatAfter_append (heat : HeatFile) (calls calls' : List PlanCall) :
    heatAfter heat (calls ++ calls') = heatAfter (heatAfter heat calls) calls' :=
  List.foldl_append

/-- Without an advance the stall goes through the calls for the type at the end. -/
theorem stallCount_heatAfter (heat : HeatFile) (calls : List PlanCall) (t : String) :
    stallCount (heatAfter heat calls) t =
      if ∀ call ∈ calls, call.blocker.blockerType = t then stallCount heat t + calls.length
      else streak (fun call : PlanCall => call.blocker.blockerType = t) calls := by
  induction calls using List.reverseRecOn with
  | nil => simp [heatAfter]
  | append_singleton calls call ih =>
    have hstep : heatAfter heat (calls ++ [call]) =
        (buildPlan (heatAfter heat calls) call.blocker call.generatedFiles call.now).2 := by
      rw [heatAfter_append]
      rfl
    have hall : (∀ c ∈ calls ++ [call], c.blocker.blockerType = t) ↔
        (∀ c ∈ calls, c.blocker.blockerType = t) ∧ call.blocker.blockerType = t := by
      simp [or_imp, forall_and]
    rw [hstep, stallCount_buildPlan, ih, streak_snoc]
    simp only [hall, decide_eq_true_eq, List.length_append, List.length_singleton]
    by_cases ht : call.blocker.blockerType = t
    · by_cases hcalls : ∀ c ∈ calls, c.blocker.blockerType = t
      · rw [if_pos ht, if_pos hcalls, if_pos ⟨hcalls, ht⟩, Nat.add_assoc]
      · rw [if_pos ht, if_neg hcalls, if_neg fun h => hcalls h.1, if_pos ht]
    · rw [if_neg ht, if_neg fun h => ht h.2, if_neg ht]

/-- Calls for one type at the end stall at least as long as there are of them. -/
theorem le_stallCount_heatAfter (heat : HeatFile) (before : List PlanCall) {same : List PlanCall}
    {t : String} (hsame : ∀ call ∈ same, call.blocker.blockerType = t) :
    same.length ≤ stallCount (heatAfter heat (before ++ same)) t := by
  rw [heatAfter_append, stallCount_heatAfter, if_pos hsame]
  exact Nat.le_add_left _ _

/-- Whatever the ledger holds, a call behind three for the same type of blocker is not answered
with more remediation, and one behind five is answered with a halt. -/
theorem same_blocker_cools (heat : HeatFile) (before same : List PlanCall) (call : PlanCall)
    (hsame : ∀ c ∈ same, c.blocker.blockerType = call.blocker.blockerType) :
    (3 ≤ same.length →
        answerAfter heat (before ++ same) call ≠ .continueAutonomousRemediation) ∧
      (5 ≤ same.length → answerAfter heat (before ++ same) call = .haltAndReview) := by
  have hstall := le_stallCount_heatAfter heat before hsame
  constructor
  · intro h hcontinue
    have hshort := (action_eq_continue_iff.mp hcontinue).2.2
    omega
  · intro h
    exact action_of_stalled (h.trans hstall)

/-- A call for a machine-solvable blocker. -/
def solvableCall (blockerType : String) : PlanCall :=
  { blocker := { blockerType, machineSolvable := true } }

theorem same_blocker_cools_source :
    answerAfter none ([] ++ List.replicate 5 (solvableCall "source_blocker"))
      (solvableCall "source_blocker") = .haltAndReview :=
  (same_blocker_cools none [] (List.replicate 5 (solvableCall "source_blocker"))
    (solvableCall "source_blocker") fun _ hc => by rw [List.eq_of_mem_replicate hc]).2 le_rfl

/-- Calls for two types in turn. -/
def alternating : Bool → ℕ → List PlanCall
  | _, 0 => []
  | source, n + 1 =>
    solvableCall (if source then "source_blocker" else "transport_blocker") ::
      alternating (!source) n

theorem length_alternating (source : Bool) (n : ℕ) : (alternating source n).length = n := by
  induction n generalizing source with
  | zero => rfl
  | succ n ih => rw [alternating, List.length_cons, ih]

theorem answers_alternating (source : Bool) (n : ℕ) {heat : HeatFile}
    (hheat : stallCount heat (if source then "source_blocker" else "transport_blocker") = 0) :
    ∀ a ∈ answers heat (alternating source n), a = .continueAutonomousRemediation := by
  induction n generalizing source heat with
  | zero => simp [alternating, answers]
  | succ n ih =>
    rw [alternating, answers, List.forall_mem_cons]
    constructor
    · refine action_eq_continue_iff.mpr ⟨?_, rfl, ?_⟩
      · cases source <;> decide
      · exact hheat ▸ Nat.zero_lt_succ 2
    · refine ih (!source) ?_
      rw [stallCount_buildPlan]
      cases source <;> rfl

/-- No number of calls ends the remediation when the blocker changes with every call. -/
theorem remediation_goes_on : ¬∃ bound : ℕ, ∀ calls : List PlanCall,
    (∀ call ∈ calls, call.blocker.machineSolvable = true) → bound ≤ calls.length →
      ∃ a ∈ answers none calls, a ≠ .continueAutonomousRemediation := by
  rintro ⟨bound, hbound⟩
  have hsolvable : ∀ source n, ∀ call ∈ alternating source n, call.blocker.machineSolvable = true := by
    intro source n
    induction n generalizing source with
    | zero => simp [alternating]
    | succ n ih => exact List.forall_mem_cons.mpr ⟨rfl, ih _⟩
  obtain ⟨a, ha, hne⟩ := hbound (alternating true bound) (hsolvable true bound)
    (length_alternating true bound).ge
  exact hne (answers_alternating true bound rfl a ha)

/-! ### Cycles of the runtime -/

/-- A cycle of the runtime: its call of `build_plan`, and whether its experiment advanced. -/
structure RuntimeCycle extends PlanCall where
  experimentAdvanced : Bool := false
  deriving DecidableEq, Repr

/-- The cycle calls `mark_advanced`. -/
def RuntimeCycle.advances (c : RuntimeCycle) : Bool :=
  c.blocker.blockerType = "none" || c.experimentAdvanced

/-- The heat ledger behind a cycle. -/
def RuntimeCycle.apply (heat : HeatFile) (c : RuntimeCycle) : HeatFile :=
  let planned := (buildPlan heat c.blocker c.generatedFiles c.now).2
  if c.advances then markAdvanced planned else planned

def heatBehind (heat : HeatFile) (cycles : List RuntimeCycle) : HeatFile :=
  cycles.foldl RuntimeCycle.apply heat

/-- What the planner answers in the cycle behind others. -/
def answerBehind (heat : HeatFile) (cycles : List RuntimeCycle) (call : PlanCall) : RetryAction :=
  (buildPlan (heatBehind heat cycles) call.blocker call.generatedFiles call.now).1.action

/-- The cycle was one for the type, and did not advance. -/
def RuntimeCycle.stalls (t : String) (c : RuntimeCycle) : Bool :=
  c.blocker.blockerType = t && !c.advances

theorem heatBehind_append (heat : HeatFile) (cycles cycles' : List RuntimeCycle) :
    heatBehind heat (cycles ++ cycles') = heatBehind (heatBehind heat cycles) cycles' :=
  List.foldl_append

/-- A cycle that stalls lengthens the stall of its type, and every other cycle ends it. -/
theorem stallCount_cycle (heat : HeatFile) (c : RuntimeCycle) (t : String) :
    stallCount (c.apply heat) t = if c.stalls t then stallCount heat t + 1 else 0 := by
  simp only [RuntimeCycle.apply, RuntimeCycle.stalls]
  by_cases hadvances : c.advances = true
  · simp [hadvances, stallCount_markAdvanced]
  · simp [hadvances, stallCount_buildPlan]

/-- Cycles that all stall add their number to the stall in front of them. -/
theorem stallCount_heatBehind (heat : HeatFile) {cycles : List RuntimeCycle} {t : String}
    (hstalls : ∀ c ∈ cycles, c.stalls t = true) :
    stallCount (heatBehind heat cycles) t = stallCount heat t + cycles.length := by
  induction cycles generalizing heat with
  | nil => rfl
  | cons c cycles ih =>
    have hrest := ih (c.apply heat) fun d hd => hstalls d (List.mem_cons_of_mem c hd)
    show stallCount (heatBehind (c.apply heat) cycles) t = _
    rw [hrest, stallCount_cycle, if_pos (hstalls c List.mem_cons_self), List.length_cons]
    omega

/-- The stall is as long as the cycles that stall, when the cycle in front of them does not. -/
theorem stallCount_exactly (heat : HeatFile) (before : List RuntimeCycle) {same : List RuntimeCycle}
    {t : String} (hsame : ∀ c ∈ same, c.stalls t = true)
    (hfirst : before = [] → stallCount heat t = 0)
    (hlast : ∀ c ∈ before.getLast?, c.stalls t = false) :
    stallCount (heatBehind heat (before ++ same)) t = same.length := by
  rw [heatBehind_append, stallCount_heatBehind _ hsame]
  suffices hnone : stallCount (heatBehind heat before) t = 0 by omega
  rcases List.eq_nil_or_concat before with rfl | ⟨front, c, rfl⟩
  · exact hfirst rfl
  · have hstep : heatBehind heat (front.concat c) = c.apply (heatBehind heat front) := by
      simp [heatBehind]
    rw [hstep, stallCount_cycle, hlast c (by simp)]
    rfl

/-- What the planner answers for a blocker that the machine can solve. -/
theorem cooledAction_solvable {blocker : BlockerRecord} (hsolvable : blocker.machineSolvable = true)
    (hblocker : blocker.blockerType ≠ "none") (stalled : ℕ) :
    (cooledAction blocker stalled).1 =
      if 5 ≤ stalled then .haltAndReview else if 3 ≤ stalled then .escalateStrategy
      else .continueAutonomousRemediation := by
  by_cases h5 : 5 ≤ stalled
  · simp [cooledAction, h5]
  · by_cases h3 : 3 ≤ stalled
    · simp [cooledAction, h5, h3, hsolvable]
    · simp [cooledAction, h5, h3, plannedAction, hsolvable, hblocker]

/-- Whatever happened in front of the last cycles: when exactly they were for the type of the blocker
and did not advance, their number alone decides the answer. -/
theorem answer_behind_stall (heat : HeatFile) (before same : List RuntimeCycle) (call : PlanCall)
    (hsolvable : call.blocker.machineSolvable = true) (hblocker : call.blocker.blockerType ≠ "none")
    (hsame : ∀ c ∈ same, c.blocker.blockerType = call.blocker.blockerType ∧ c.advances = false)
    (hfirst : before = [] → stallCount heat call.blocker.blockerType = 0)
    (hlast : ∀ c ∈ before.getLast?,
      ¬(c.blocker.blockerType = call.blocker.blockerType ∧ c.advances = false)) :
    (answerBehind heat (before ++ same) call = .haltAndReview ↔ 5 ≤ same.length) ∧
      (answerBehind heat (before ++ same) call = .escalateStrategy ↔
        same.length = 3 ∨ same.length = 4) ∧
      (answerBehind heat (before ++ same) call = .continueAutonomousRemediation ↔
        same.length < 3) := by
  have hstalls : ∀ c : RuntimeCycle, c.stalls call.blocker.blockerType = true ↔
      c.blocker.blockerType = call.blocker.blockerType ∧ c.advances = false := by
    intro c
    simp [RuntimeCycle.stalls]
  have hcount : stallCount (heatBehind heat (before ++ same)) call.blocker.blockerType =
      same.length :=
    stallCount_exactly heat before (fun c hc => (hstalls c).mpr (hsame c hc)) hfirst
      fun c hc => Bool.eq_false_iff.mpr fun h => hlast c hc ((hstalls c).mp h)
  rw [answerBehind, action_buildPlan, cooledAction_solvable hsolvable hblocker, hcount]
  split_ifs
  · exact ⟨by simp; omega, by simp; omega, by simp; omega⟩
  · exact ⟨by simp; omega, by simp; omega, by simp; omega⟩
  · exact ⟨by simp; omega, by simp; omega, by simp; omega⟩

/-- A cycle for a blocker that the machine can solve. -/
def solvableCycle (blockerType : String) (experimentAdvanced : Bool) : RuntimeCycle :=
  { solvableCall blockerType with experimentAdvanced }

/-- Behind an advance and four cycles without one. -/
theorem answer_behind_stall_source :
    answerBehind none ([solvableCycle "source_blocker" true] ++
      List.replicate 4 (solvableCycle "source_blocker" false))
      (solvableCall "source_blocker") = .escalateStrategy :=
  (answer_behind_stall none [solvableCycle "source_blocker" true]
    (List.replicate 4 (solvableCycle "source_blocker" false)) (solvableCall "source_blocker") rfl
    (by decide) (fun _ hc => List.eq_of_mem_replicate hc ▸ ⟨rfl, by decide⟩) nofun
    (fun _ hc => Option.mem_some.mp hc ▸ fun h => absurd h.2 (by decide))).2.1.mpr (.inr rfl)

end ForgeOS.Learning
