import ForgeOS.Runtime.Workers

/-! `_run_local_worker_fix_loop` with its account. A call may run a number of free rounds, and
as many beyond them as the operator has granted and earlier calls have not consumed. How a
worker ends is an argument, so that it may differ from round to round. -/

namespace ForgeOS.Runtime

open ForgeOS.Python

/-! ### The account -/

structure SelfHealPolicy where
  grantedExtraLoops : ℕ := 0
  consumedExtraLoops : ℕ := 0
  deriving DecidableEq, Repr

/-- `runtime/self-heal-policy.json`; `none` when it is missing or cannot be read. -/
abbrev SelfHealFile := Option SelfHealPolicy

/-- `_read_self_heal_policy` -/
def readSelfHealPolicy (file : SelfHealFile) : SelfHealPolicy := file.getD {}

/-- `max(0, granted - consumed)` -/
def SelfHealPolicy.availableExtraLoops (p : SelfHealPolicy) : ℕ :=
  p.grantedExtraLoops - p.consumedExtraLoops

/-- `approve_extra_fix_loop`: the operator grants three more rounds. -/
def approveExtraFixLoop (file : SelfHealFile) : SelfHealFile :=
  let policy := readSelfHealPolicy file
  some { policy with grantedExtraLoops := policy.grantedExtraLoops + 3 }

/-! ### The rounds -/

/-- What has happened in the rounds so far. -/
structure HealRounds where
  rounds : ℕ := 0
  consumed : ℕ := 0
  retried : ℕ := 0
  recovered : ℕ := 0
  remaining : List WorkerTask
  repairStatus : String := "not_run"
  launched : List Launch := []

section Rounds

variable (s : WorkerSetup) (execute : ℕ → WorkerTask → WorkerExecution)

/-- The retries of a round that do not complete. -/
def stillFailing (round : ℕ) (remaining : List WorkerTask) : List WorkerTask :=
  (remaining.map (retryTask s round)).filter fun t => (execute round t).status ≠ "completed"

/-- One round: a repair, then a retry of every task that still fails. -/
def healRound (round : ℕ) (l : HealRounds) : HealRounds :=
  let repair := execute round (selfHealTask s round)
  let retries := l.remaining.map (retryTask s round)
  let rest := stillFailing s execute round l.remaining
  { rounds := l.rounds + 1
    consumed := l.consumed + if 0 < round then 1 else 0
    retried := l.retried + retries.length
    recovered := l.recovered + (retries.length - rest.length)
    remaining := rest
    repairStatus := repair.status
    launched := l.launched ++ repair.launched ++ retries.flatMap fun t => (execute round t).launched }

/-- The rounds from `round` on, as far as they are allowed. -/
def healRounds : ℕ → ℕ → HealRounds → HealRounds
  | 0, _, l => l
  | allowed + 1, round, l =>
    let l' := healRound s execute round l
    if l'.remaining = [] then l' else healRounds allowed (round + 1) l'

/-! ### A call -/

/-- The first three local tasks that failed, of the tasks and how they ended. -/
def failingTriplets (done : List (WorkerTask × WorkerExecution)) : List WorkerTask :=
  ((done.filter fun (t, e) =>
    (route s t).tier = .local ∧ (e.status ∈ ["failed", "unavailable"] ∨ e.repeatedFailure)).take
      3).map Prod.fst

structure HealReport where
  status : String
  rounds : ℕ := 0
  retriedTasks : ℕ := 0
  recoveredTasks : ℕ := 0
  availableExtraLoops : ℕ
  consumedExtraLoops : ℕ
  deriving DecidableEq, Repr

/-- `loop_status` -/
def loopStatus (l : HealRounds) (available : ℕ) : String :=
  if l.retried ≠ 0 ∧ l.recovered = l.retried then "recovered"
  else if l.repairStatus ≠ "completed" then "repair_failed"
  else if l.remaining ≠ [] ∧ available = 0 then "permission_required"
  else if l.remaining ≠ [] then "retry_failed"
  else "attempted"

/-- The rounds that a call with failing tasks runs. -/
def callRounds (file : SelfHealFile) (failing : List WorkerTask) : HealRounds :=
  healRounds s execute (defaultSelfHealRounds + (readSelfHealPolicy file).availableExtraLoops) 0
    { remaining := failing }

/-- `_run_local_worker_fix_loop`: the account afterwards, and the report. -/
def runLocalWorkerFixLoop (file : SelfHealFile) (done : List (WorkerTask × WorkerExecution)) :
    SelfHealFile × HealReport :=
  let policy := readSelfHealPolicy file
  let failing := failingTriplets s done
  if failing = [] then
    (file,
      { status := "not_needed"
        availableExtraLoops := policy.availableExtraLoops
        consumedExtraLoops := policy.consumedExtraLoops })
  else
    let l := callRounds s execute file failing
    let policy' :=
      { policy with consumedExtraLoops := policy.consumedExtraLoops + l.consumed }
    (if l.consumed ≠ 0 then some policy' else file,
      { status := loopStatus l policy.availableExtraLoops
        rounds := l.rounds
        retriedTasks := l.retried
        recoveredTasks := l.recovered
        availableExtraLoops := policy'.availableExtraLoops
        consumedExtraLoops := policy'.consumedExtraLoops })

end Rounds

/-! ### Counting the rounds -/

section Counting

variable (s : WorkerSetup) (execute : ℕ → WorkerTask → WorkerExecution)

/-- Behind the first round, every round is counted. -/
theorem consumed_healRounds (allowed : ℕ) {round : ℕ} (hround : 0 < round) (l : HealRounds) :
    (healRounds s execute allowed round l).consumed + l.rounds =
      l.consumed + (healRounds s execute allowed round l).rounds := by
  induction allowed generalizing round l with
  | zero => exact Nat.add_comm _ _ ▸ rfl
  | succ allowed ih =>
    have hconsumed : (healRound s execute round l).consumed = l.consumed + 1 := by
      simp [healRound, hround]
    have hrounds : (healRound s execute round l).rounds = l.rounds + 1 := rfl
    rw [healRounds]
    split_ifs
    · omega
    · have hrest := ih (show 0 < round + 1 by omega) (healRound s execute round l)
      omega

theorem rounds_healRounds_le (allowed round : ℕ) (l : HealRounds) :
    l.rounds ≤ (healRounds s execute allowed round l).rounds ∧
      (healRounds s execute allowed round l).rounds ≤ l.rounds + allowed := by
  induction allowed generalizing round l with
  | zero => exact ⟨le_rfl, le_rfl⟩
  | succ allowed ih =>
    have hrounds : (healRound s execute round l).rounds = l.rounds + 1 := rfl
    rw [healRounds]
    split_ifs
    · omega
    · have hrest := ih (round + 1) (healRound s execute round l)
      omega

/-- A call counts every round but its first as an extra one. -/
theorem consumed_callRounds (file : SelfHealFile) (failing : List WorkerTask) :
    (callRounds s execute file failing).consumed + 1 = (callRounds s execute file failing).rounds := by
  have hallowed : defaultSelfHealRounds + (readSelfHealPolicy file).availableExtraLoops =
      2 + (readSelfHealPolicy file).availableExtraLoops + 1 := by
    rw [defaultSelfHealRounds]
    omega
  rw [callRounds, hallowed, healRounds]
  split_ifs
  · rfl
  · have hrest := consumed_healRounds s execute
      (2 + (readSelfHealPolicy file).availableExtraLoops) (show 0 < 0 + 1 by omega)
      (healRound s execute 0 { remaining := failing })
    have hconsumed : (healRound s execute 0 { remaining := failing }).consumed = 0 := rfl
    have hrounds : (healRound s execute 0 { remaining := failing }).rounds = 1 := rfl
    omega

/-- A call runs one round exactly when every retry of the first round completes. -/
theorem rounds_callRounds_le_one_iff (file : SelfHealFile) (failing : List WorkerTask) :
    (callRounds s execute file failing).rounds ≤ 1 ↔ stillFailing s execute 0 failing = [] := by
  have hallowed : defaultSelfHealRounds + (readSelfHealPolicy file).availableExtraLoops =
      1 + (readSelfHealPolicy file).availableExtraLoops + 1 + 1 := by
    rw [defaultSelfHealRounds]
    omega
  have hfirst : (healRound s execute 0 { remaining := failing }).remaining =
      stillFailing s execute 0 failing := rfl
  rw [callRounds, hallowed, healRounds, hfirst]
  split_ifs with h
  · exact iff_of_true le_rfl h
  · refine iff_of_false ?_ h
    have hsecond :
        (healRound s execute (0 + 1) (healRound s execute 0 { remaining := failing })).rounds = 2 :=
      rfl
    rw [healRounds]
    split_ifs
    · omega
    · have hrest := (rounds_healRounds_le s execute
        (1 + (readSelfHealPolicy file).availableExtraLoops) (0 + 1 + 1)
        (healRound s execute (0 + 1) (healRound s execute 0 { remaining := failing }))).1
      omega

/-- With workers that end the same way whatever the round, the programs of the rounds are
those of the cycle's self-heal loop. -/
theorem launched_healRounds (h : RuntimeHost) (allowed round : ℕ) (l : HealRounds) :
    (healRounds s (fun _ t => executeRouted h s t) allowed round l).launched =
      l.launched ++ fixRounds h s allowed round l.remaining := by
  induction allowed generalizing round l with
  | zero => exact (List.append_nil _).symm
  | succ allowed ih =>
    have hremaining : (healRound s (fun _ t => executeRouted h s t) round l).remaining =
        (l.remaining.map (retryTask s round)).filter
          fun t => (executeRouted h s t).status ≠ "completed" := rfl
    have hlaunched : (healRound s (fun _ t => executeRouted h s t) round l).launched =
        l.launched ++ (executeRouted h s (selfHealTask s round)).launched ++
          (l.remaining.map (retryTask s round)).flatMap fun t => (executeRouted h s t).launched := rfl
    rw [healRounds, fixRounds, hremaining]
    split_ifs
    · rw [hlaunched, List.append_nil, List.append_assoc]
    · rw [ih, hlaunched, hremaining]
      simp only [List.append_assoc]

end Counting

/-! ### Runs of grants and calls -/

/-- A step of a session: a grant of the operator, or a call with the tasks of a cycle, how
they ended, and how the workers of the loop end. -/
inductive HealStep
  | grant
  | call (s : WorkerSetup) (done : List (WorkerTask × WorkerExecution))
      (execute : ℕ → WorkerTask → WorkerExecution)

def HealStep.apply (file : SelfHealFile) : HealStep → SelfHealFile
  | grant => approveExtraFixLoop file
  | call s done execute => (runLocalWorkerFixLoop s execute file done).1

def healRun (file : SelfHealFile) (steps : List HealStep) : SelfHealFile :=
  steps.foldl HealStep.apply file

/-- The rounds that a step runs. -/
def HealStep.rounds (file : SelfHealFile) : HealStep → ℕ
  | grant => 0
  | call s done execute => (runLocalWorkerFixLoop s execute file done).2.rounds

/-- The account is in order behind the step: no more is consumed than granted, and what the
step added are its rounds beyond the free ones. -/
def HealStep.Balanced (file : SelfHealFile) (step : HealStep) : Prop :=
  (readSelfHealPolicy (step.apply file)).consumedExtraLoops ≤
      (readSelfHealPolicy (step.apply file)).grantedExtraLoops ∧
    (readSelfHealPolicy (step.apply file)).consumedExtraLoops =
      (readSelfHealPolicy file).consumedExtraLoops + (step.rounds file - defaultSelfHealRounds)

/-- No local worker fails, or each of the first three that do completes its first retry. -/
def HealStep.SettlesAtOnce : HealStep → Prop
  | grant => True
  | call s done execute => stillFailing s execute 0 (failingTriplets s done) = []

theorem readSelfHealPolicy_apply_call (file : SelfHealFile) (s : WorkerSetup)
    (done : List (WorkerTask × WorkerExecution)) (execute : ℕ → WorkerTask → WorkerExecution) :
    readSelfHealPolicy (HealStep.apply file (.call s done execute)) =
      { readSelfHealPolicy file with
        consumedExtraLoops := (readSelfHealPolicy file).consumedExtraLoops +
          (HealStep.rounds file (.call s done execute) - 1) } := by
  simp only [HealStep.apply, HealStep.rounds, runLocalWorkerFixLoop]
  by_cases hfailing : failingTriplets s done = []
  · rw [if_pos hfailing]
    rfl
  · have hrounds := consumed_callRounds s execute file (failingTriplets s done)
    have heq : (callRounds s execute file (failingTriplets s done)).consumed =
        (callRounds s execute file (failingTriplets s done)).rounds - 1 := by omega
    rw [if_neg hfailing, ← heq]
    by_cases hconsumed : (callRounds s execute file (failingTriplets s done)).consumed = 0
    · simp [hconsumed]
    · simp [hconsumed, readSelfHealPolicy]

/-- A step that settles at once runs at most one round, and others run more. -/
theorem rounds_le_one_iff (file : SelfHealFile) (step : HealStep) :
    step.rounds file ≤ 1 ↔ step.SettlesAtOnce := by
  cases step with
  | grant => exact iff_of_true (Nat.zero_le 1) trivial
  | call s done execute =>
    simp only [HealStep.rounds, runLocalWorkerFixLoop, HealStep.SettlesAtOnce]
    by_cases hfailing : failingTriplets s done = []
    · rw [if_pos hfailing, hfailing]
      exact iff_of_true (Nat.zero_le 1) rfl
    · rw [if_neg hfailing]
      exact rounds_callRounds_le_one_iff s execute file (failingTriplets s done)

/-- What a step does to the account. -/
theorem balanced_iff (file : SelfHealFile) (step : HealStep)
    (hfile : (readSelfHealPolicy file).consumedExtraLoops ≤
      (readSelfHealPolicy file).grantedExtraLoops) :
    step.Balanced file ↔ step.SettlesAtOnce := by
  rw [← rounds_le_one_iff file]
  cases step with
  | grant =>
    refine iff_of_true ⟨?_, rfl⟩ (Nat.zero_le 1)
    exact hfile.trans (Nat.le_add_right _ 3)
  | call s done execute =>
    rw [HealStep.Balanced, readSelfHealPolicy_apply_call, defaultSelfHealRounds]
    simp only
    omega

/-- A run keeps the account in order, at every step, exactly when each of its calls settles
at once: from the second round on, free rounds are charged too. -/
theorem healRun_balanced_iff (steps : List HealStep) :
    (∀ before step after, steps = before ++ step :: after →
        step.Balanced (healRun none before)) ↔
      ∀ step ∈ steps, step.SettlesAtOnce := by
  have hinvariant : ∀ before : List HealStep, (∀ step ∈ before, step.SettlesAtOnce) →
      (readSelfHealPolicy (healRun none before)).consumedExtraLoops ≤
        (readSelfHealPolicy (healRun none before)).grantedExtraLoops := by
    intro before
    induction before using List.reverseRecOn with
    | nil => exact fun _ => le_rfl
    | append_singleton before step ih =>
      intro hall
      have hbefore := ih fun t ht => hall t (List.mem_append_left _ ht)
      have hstep := hall step (List.mem_append_right _ (List.mem_singleton_self step))
      rw [healRun, List.foldl_append]
      exact ((balanced_iff _ step hbefore).mpr hstep).1
  constructor
  · intro h
    -- the first step that does not settle would be out of balance
    induction steps using List.reverseRecOn with
    | nil => simp
    | append_singleton steps step ih =>
      have hsteps := ih fun before t after heq => h before t (after ++ [step]) (by simp [heq])
      intro t ht
      rcases List.mem_append.mp ht with ht | ht
      · exact hsteps t ht
      · rw [List.mem_singleton.mp ht]
        exact (balanced_iff _ step (hinvariant steps hsteps)).mp (h steps step [] rfl)
  · rintro h before step after rfl
    exact (balanced_iff _ step (hinvariant before fun t ht => h t (List.mem_append_left _ ht))).mpr
      (h step (List.mem_append_right _ List.mem_cons_self))

/-- A host whose only worker is a local agent. -/
def agentSetup : WorkerSetup where
  sessionDir := "/forge/devices/pixel"
  ollamaAvailable := false
  gooseReady := true
  aiderReady := false
  codexAvailable := false
  selectModel _ := "gemma"
  frontierScript _ := none
  httpAnswers := false
  modelReplies _ := false
  healPrompt _ := ""
  failureSummary _ := ""

/-- The agent fails, and goes on failing. -/
def failingCall : HealStep :=
  .call agentSetup [({ taskType := "device_discovery", summary := "" }, { status := "failed" })]
    fun _ _ => { status := "failed" }

/-- Two of the three free rounds are charged to a session without a grant. -/
theorem free_rounds_charged :
    failingCall.rounds none = 3 ∧
      readSelfHealPolicy (failingCall.apply none) =
        { grantedExtraLoops := 0, consumedExtraLoops := 2 } ∧
      ¬failingCall.Balanced none := by
  have hpolicy : readSelfHealPolicy (failingCall.apply none) =
      { grantedExtraLoops := 0, consumedExtraLoops := 2 } := by rfl
  refine ⟨by rfl, hpolicy, fun h => ?_⟩
  have hle := h.1
  rw [hpolicy] at hle
  exact absurd hle (by decide)

end ForgeOS.Runtime
