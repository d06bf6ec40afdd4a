import ForgeOS.Library.Retries
import ForgeOS.Runtime.SelfHeal

/-! The status that `_run_local_worker_fix_loop` reports. It compares two counts of retries, while a
task that fails is retried in the next round and counted again. How a retry ends may depend on the
round and on the place of the task among those that failed, so equal tasks may end differently. -/

namespace ForgeOS.Runtime

open ForgeOS.Library.Retries

/-! ### The loop -/

/-- A failing task, with its place among them. -/
abbrev PlacedTask := WorkerTask × ℕ

variable (s : WorkerSetup) (repair : ℕ → WorkerExecution) (execute : ℕ → PlacedTask → WorkerExecution)

def retryPlaced (round : ℕ) (t : PlacedTask) : PlacedTask := (retryTask s round t.1, t.2)

def completes (round : ℕ) (t : PlacedTask) : Bool := (execute round t).status = "completed"

structure RepairRounds where
  tally : Tally PlacedTask
  repairStatus : String := "not_run"

/-- The rounds from `round` on, as far as they are allowed. -/
def repairRounds : ℕ → ℕ → RepairRounds → RepairRounds
  | 0, _, l => l
  | allowed + 1, r, l =>
    let l' : RepairRounds :=
      { tally := Library.Retries.round (retryPlaced s) (completes execute) r l.tally
        repairStatus := (repair r).status }
    if l'.tally.left = [] then l' else repairRounds allowed (r + 1) l'

/-- `loop_status` behind the rounds. -/
def statusBehind (l : RepairRounds) (available : ℕ) : String :=
  if l.tally.tried ≠ 0 ∧ l.tally.succeeded = l.tally.tried then "recovered"
  else if l.repairStatus ≠ "completed" then "repair_failed"
  else if l.tally.left ≠ [] ∧ available = 0 then "permission_required"
  else if l.tally.left ≠ [] then "retry_failed"
  else "attempted"

/-- The first three of the failing tasks. -/
def placed (failing : List WorkerTask) : List PlacedTask := (failing.take 3).zipIdx

/-- The rounds that a call is allowed. -/
def allowedRounds (available : ℕ) : ℕ := defaultSelfHealRounds + available

/-- The status of the report, from the failing tasks and the rounds that were granted. -/
def fixLoopStatus (available : ℕ) (failing : List WorkerTask) : String :=
  if failing = [] then "not_needed"
  else
    statusBehind
      (repairRounds s repair execute (allowedRounds available) 0 { tally := { left := placed failing } })
      available

/-! ### The loop with outcomes that the task decides -/

variable {s repair execute}

theorem tally_repairRounds (allowed r : ℕ) (l : RepairRounds) :
    (repairRounds s repair execute allowed r l).tally =
      rounds (retryPlaced s) (completes execute) allowed r l.tally := by
  induction allowed generalizing r l with
  | zero => rfl
  | succ allowed ih =>
    simp only [repairRounds, rounds]
    split_ifs
    · rfl
    · rw [ih]

/-- The loop as it is for the account of the rounds: the same counts, tasks and repairs. -/
structure Matches (l : HealRounds) (l' : RepairRounds) : Prop where
  retried : l.retried = l'.tally.tried
  recovered : l.recovered = l'.tally.succeeded
  remaining : l.remaining = l'.tally.left.map Prod.fst
  repairStatus : l.repairStatus = l'.repairStatus

theorem Matches.healRounds {ends : ℕ → WorkerTask → WorkerExecution}
    (hrepair : ∀ r, repair r = ends r (selfHealTask s r))
    (hexecute : ∀ r t, execute r t = ends r t.1) (allowed r : ℕ) {l : HealRounds} {l' : RepairRounds}
    (h : Matches l l') :
    Matches (healRounds s ends allowed r l) (repairRounds s repair execute allowed r l') := by
  induction allowed generalizing r l l' with
  | zero => exact h
  | succ allowed ih =>
    have hleft : stillFailing s ends r l.remaining =
        (leftBy (retryPlaced s) (completes execute) r l'.tally.left).map Prod.fst := by
      rw [h.remaining]
      simp [stillFailing, leftBy, List.filter_map, Function.comp_def, retryPlaced, completes, hexecute]
      rfl
    have hround : Matches (healRound s ends r l)
        { tally := Library.Retries.round (retryPlaced s) (completes execute) r l'.tally
          repairStatus := (repair r).status } := by
      refine ⟨?_, ?_, hleft, by rw [hrepair]; rfl⟩
      · simp [healRound, Library.Retries.round, h.retried, h.remaining]
      · show l.recovered + ((l.remaining.map (retryTask s r)).length -
          (stillFailing s ends r l.remaining).length) = _
        rw [hleft, h.recovered, h.remaining]
        simp [Library.Retries.round]
    have hnone : (healRound s ends r l).remaining = [] ↔
        (Library.Retries.round (retryPlaced s) (completes execute) r l'.tally).left = [] := by
      rw [hround.remaining, List.map_eq_nil_iff]
    simp only [Runtime.healRounds, repairRounds, hnone]
    split_ifs
    · exact hround
    · exact ih (r + 1) hround

theorem Matches.loopStatus {l : HealRounds} {l' : RepairRounds} (h : Matches l l') (available : ℕ) :
    loopStatus l available = statusBehind l' available := by
  have hleft : l.remaining = [] ↔ l'.tally.left = [] := by rw [h.remaining, List.map_eq_nil_iff]
  simp only [Runtime.loopStatus, statusBehind, h.retried, h.recovered, h.repairStatus, ne_eq, hleft]

/-- The report of the account is the one of the loop whose outcomes the tasks decide. -/
theorem status_runLocalWorkerFixLoop (file : SelfHealFile) (ends : ℕ → WorkerTask → WorkerExecution)
    (done : List (WorkerTask × WorkerExecution)) :
    (runLocalWorkerFixLoop s ends file done).2.status =
      fixLoopStatus s (fun r => ends r (selfHealTask s r)) (fun r t => ends r t.1)
        (readSelfHealPolicy file).availableExtraLoops (failingTriplets s done) := by
  have hthree : (failingTriplets s done).take 3 = failingTriplets s done := by
    rw [failingTriplets, ← List.map_take, List.take_take, Nat.min_self]
  have hstart : Matches { remaining := failingTriplets s done }
      { tally := { left := placed (failingTriplets s done) } } :=
    ⟨rfl, rfl, by simp [placed, hthree], rfl⟩
  rw [runLocalWorkerFixLoop, fixLoopStatus]
  by_cases hnone : failingTriplets s done = []
  · simp only [if_pos hnone]
  · simp only [if_neg hnone]
    exact (hstart.healRounds (fun _ => rfl) (fun _ _ => rfl) _ 0).loopStatus _

/-! ### What the status tells -/

variable (s repair execute)

/-- The task completes in some round that is allowed. -/
def Recovers (available : ℕ) (t : PlacedTask) : Prop :=
  ∃ k < allowedRounds available, completes execute k (nthTry (retryPlaced s) 0 k t) = true

/-- The status means what it says: `recovered` that every task ended in a completed retry, and
`permission_required` and `retry_failed` that some task still fails. -/
structure StatusTells (available : ℕ) (failing : List WorkerTask) : Prop where
  recovered : fixLoopStatus s repair execute available failing = "recovered" ↔
    ∀ t ∈ placed failing, Recovers s execute available t
  failing : fixLoopStatus s repair execute available failing ∈ ["permission_required", "retry_failed"] →
    ∃ t ∈ placed failing, ¬Recovers s execute available t

variable {s repair execute} {available : ℕ} {failing : List WorkerTask}

theorem placed_eq_nil : placed failing = [] ↔ failing = [] := by
  simp [placed, List.zipIdx_eq_nil_iff]

/-- The rounds leave nothing exactly when every task recovers. -/
theorem left_eq_nil_iff :
    (repairRounds s repair execute (allowedRounds available) 0
        { tally := { left := placed failing } }).tally.left = [] ↔
      ∀ t ∈ placed failing, Recovers s execute available t := by
  rw [tally_repairRounds, left_rounds_eq_nil]
  simp [Recovers]

theorem statusBehind_eq_recovered {l : RepairRounds} :
    statusBehind l available = "recovered" ↔
      l.tally.tried ≠ 0 ∧ l.tally.succeeded = l.tally.tried := by
  rw [statusBehind]
  split_ifs <;> simp_all

theorem left_ne_nil_of_status {l : RepairRounds}
    (h : statusBehind l available ∈ ["permission_required", "retry_failed"]) : l.tally.left ≠ [] := by
  rw [statusBehind] at h
  split_ifs at h with _ _ hpermission hleft
  · simp at h
  · simp at h
  · exact hpermission.1
  · exact hleft
  · simp at h

/-- The loop reports a recovery exactly when there are tasks and each completes its first retry. -/
theorem fixLoopStatus_eq_recovered :
    fixLoopStatus s repair execute available failing = "recovered" ↔
      failing ≠ [] ∧ ∀ t ∈ placed failing, completes execute 0 (retryPlaced s 0 t) = true := by
  obtain ⟨allowed, hallowed⟩ : ∃ n, allowedRounds available = n + 1 :=
    ⟨2 + available, by rw [allowedRounds, defaultSelfHealRounds]; omega⟩
  rw [fixLoopStatus]
  split_ifs with hnone
  · simp [hnone]
  · rw [statusBehind_eq_recovered, tally_repairRounds, hallowed, succeeded_rounds_eq, ne_eq,
      tried_rounds_eq_zero, placed_eq_nil]

/-- The status tells the truth exactly when there are failing tasks, and each of them completes its
first retry or one of them none. -/
theorem statusTells_iff (s : WorkerSetup) (repair : ℕ → WorkerExecution)
    (execute : ℕ → PlacedTask → WorkerExecution) (available : ℕ) (failing : List WorkerTask) :
    StatusTells s repair execute available failing ↔
      failing ≠ [] ∧
        ((∀ t ∈ placed failing, completes execute 0 (retryPlaced s 0 t) = true) ∨
          ∃ t ∈ placed failing, ∀ k < allowedRounds available,
            completes execute k (nthTry (retryPlaced s) 0 k t) = false) := by
  have hfirst : (∀ t ∈ placed failing, completes execute 0 (retryPlaced s 0 t) = true) →
      ∀ t ∈ placed failing, Recovers s execute available t :=
    fun h t ht => ⟨0, by rw [allowedRounds, defaultSelfHealRounds]; omega, h t ht⟩
  have hnever : (∃ t ∈ placed failing, ∀ k < allowedRounds available,
      completes execute k (nthTry (retryPlaced s) 0 k t) = false) ↔
      ¬∀ t ∈ placed failing, Recovers s execute available t := by
    simp [Recovers]
  have hempty : failing = [] → ∀ t ∈ placed failing, Recovers s execute available t := by
    intro hnil t ht
    rw [hnil] at ht
    cases ht
  rw [hnever]
  constructor
  · intro h
    have hrecovered := fixLoopStatus_eq_recovered.symm.trans h.recovered
    tauto
  · rintro ⟨hne, hends⟩
    refine ⟨fixLoopStatus_eq_recovered.trans (by tauto), fun hstatus => ?_⟩
    rw [fixLoopStatus, if_neg hne] at hstatus
    have hleft := mt left_eq_nil_iff.mpr (left_ne_nil_of_status hstatus)
    simpa using hleft

def discovery : WorkerTask := { taskType := "device_discovery", summary := "" }

/-- The retry of the first round fails, those behind it complete. -/
def lateEnds (r : ℕ) (_ : PlacedTask) : WorkerExecution :=
  { status := if r = 0 then "failed" else "completed" }

/-- The only task recovers in the second round, which is not reported as a recovery. -/
theorem late_recovery_unreported :
    fixLoopStatus agentSetup (fun _ => { status := "completed" }) lateEnds 0 [discovery] =
        "attempted" ∧
      (∀ t ∈ placed [discovery], Recovers agentSetup lateEnds 0 t) ∧
      ¬StatusTells agentSetup (fun _ => { status := "completed" }) lateEnds 0 [discovery] := by
  have hstatus : fixLoopStatus agentSetup (fun _ => { status := "completed" }) lateEnds 0
      [discovery] = "attempted" := rfl
  have hall : ∀ t ∈ placed [discovery], Recovers agentSetup lateEnds 0 t :=
    fun t _ => ⟨1, by decide, rfl⟩
  refine ⟨hstatus, hall, fun h => ?_⟩
  have hrecovered := h.recovered.mpr hall
  rw [hstatus] at hrecovered
  exact absurd hrecovered (by decide)

end ForgeOS.Runtime
