import ForgeOS.Flash.Executor

/-! The gates in front of the device. `PolicyGuard.evaluate_install_gate` lists
what an install still lacks; the executor checks by itself. Whatever the plan,
the approval, the policy and the manifest are, a command is issued only when
every gate of the executor is open, and then the install gate, asked about the
same plan, approval and policy, has nothing to object either. -/

namespace ForgeOS.Flash

open ForgeOS.Python ForgeOS.Library.FailFast

/-! ### The install gate -/

/-- The pre-wipe backup plan, a dictionary of texts; an empty one is no plan. -/
abbrev BackupPlan := List (String × String)

def missingRequirements (policy : PolicyModel) (plan : FlashPlan) (approval : DestructiveApproval)
    (backup : BackupPlan) : List String :=
  (if backup = [] then ["Pre-wipe backup bundle has not been captured."] else []) ++
  (if !plan.artifactsReady then
    ["A flashable artifact bundle has not been staged for this session."] else []) ++
  (if policy.requireRestorePath && !plan.restorePathAvailable then
    ["A restore path is not yet feasible for this device path."] else []) ++
  (if policy.requireRestorePath && !approval.restorePathConfirmed then
    ["Operator has not confirmed the restore path."] else []) ++
  (if policy.destructiveOpsRequireApproval && !approval.approved then
    ["Explicit destructive approval has not been granted."] else []) ++
  (if policy.requireExplicitWipePhrase && strip approval.confirmationPhrase != wipePhrase then
    ["The wipe confirmation phrase is missing or incorrect."] else [])

/-- `PolicyGuard.evaluate_install_gate` -/
def evaluateInstallGate (policy : PolicyModel) (plan : FlashPlan) (approval : DestructiveApproval)
    (backup : BackupPlan) : ApprovalGate :=
  let missing := missingRequirements policy plan approval backup
  { action := "wipe_and_install"
    allowed := missing.isEmpty
    requiresExplicitApproval := true
    reason :=
      if missing.isEmpty then "Install can proceed."
      else "Install remains blocked until deterministic safety requirements are satisfied."
    missingRequirements := missing
    consequences :=
      ["User data may be wiped.",
        "An interrupted install may require manual recovery tooling.",
        "Restore depends on the recorded backup bundle and available vendor images."] }

/-- The phrase the policy asks for was given. -/
def PhraseGiven (policy : PolicyModel) (approval : DestructiveApproval) : Prop :=
  policy.requireExplicitWipePhrase = true → strip approval.confirmationPhrase = wipePhrase

/-- The restore path the policy asks for exists and was confirmed. -/
def RestoreConfirmed (policy : PolicyModel) (plan : FlashPlan) (approval : DestructiveApproval) :
    Prop :=
  policy.requireRestorePath = true →
    plan.restorePathAvailable = true ∧ approval.restorePathConfirmed = true

theorem phraseGiven_iff {policy : PolicyModel} {approval : DestructiveApproval} :
    (policy.requireExplicitWipePhrase && strip approval.confirmationPhrase != wipePhrase) = false ↔
      PhraseGiven policy approval := by
  unfold PhraseGiven
  cases policy.requireExplicitWipePhrase <;> simp

theorem restoreConfirmed_iff {policy : PolicyModel} {plan : FlashPlan}
    {approval : DestructiveApproval} :
    (policy.requireRestorePath && !(plan.restorePathAvailable && approval.restorePathConfirmed)) =
      false ↔ RestoreConfirmed policy plan approval := by
  unfold RestoreConfirmed
  cases policy.requireRestorePath <;> simp

theorem evaluateInstallGate_allowed {policy : PolicyModel} {plan : FlashPlan}
    {approval : DestructiveApproval} {backup : BackupPlan} (hbackup : backup ≠ [])
    (hready : plan.artifactsReady = true) (hrestore : RestoreConfirmed policy plan approval)
    (happroved : approval.approved = true) (hphrase : PhraseGiven policy approval) :
    (evaluateInstallGate policy plan approval backup).allowed = true := by
  have hmissing : missingRequirements policy plan approval backup = [] := by
    simp only [missingRequirements, if_neg hbackup, hready, happroved, List.append_eq_nil_iff]
    refine ⟨⟨⟨⟨⟨trivial, rfl⟩, ?_⟩, ?_⟩, by simp⟩, ?_⟩
    · cases hp : policy.requireRestorePath with
      | false => rfl
      | true => simp [(hrestore hp).1]
    · cases hp : policy.requireRestorePath with
      | false => rfl
      | true => simp [(hrestore hp).2]
    · simp [phraseGiven_iff.mpr hphrase]
  simp [evaluateInstallGate, hmissing]

/-! ### The gates of the executor -/

/-- Every gate between a payload and the device is open. -/
structure Authorized (p : Payload) (m : Manifest) : Prop where
  approved : p.approval.approved = true
  phrase : PhraseGiven p.policy p.approval
  restore : RestoreConfirmed p.policy p.plan p.approval
  live : p.dryRun = false
  planLive : p.plan.dryRun = false
  policyLive : p.policy.allowLiveDestructiveActions = true
  artifacts : p.plan.artifactsReady = true
  manifest : m.status = some "ready"

theorem Authorized.installGate {p : Payload} {m : Manifest} (h : Authorized p m)
    {backup : BackupPlan} (hbackup : backup ≠ []) :
    (evaluateInstallGate p.policy p.plan p.approval backup).allowed = true :=
  evaluateInstallGate_allowed hbackup h.artifacts h.restore h.approved h.phrase

variable (upper : String → String) (h : Host) (readFile : String → ManifestFile) (p : Payload)

/-- What the commanded steps of a plan come to when they are tried against a manifest. -/
def liveAttempts (m : Manifest) : List (Attempt FlashStep DeviceCommand) :=
  attempts (attemptStep h (executeLiveStep upper p.plan p.device m)) []
    (p.plan.steps.filter commanded)

theorem runWithManifest_issued (transcript : String) (m : Manifest) :
    (runWithManifest upper h p transcript m).issued =
      if p.plan.artifactsReady ∧ m.status = some "ready" then
        (runSteps h (executeLiveStep upper p.plan p.device m)
          (p.dryRun || p.plan.dryRun || !p.policy.allowLiveDestructiveActions) 1 [] []
          p.plan.steps).1
      else [] := by
  simp only [runWithManifest]
  cases hr : p.plan.artifactsReady with
  | false => simp
  | true =>
    by_cases hm : m.status = some "ready"
    · simp only [hm, bne_self_eq_false, Bool.not_true, Bool.or_self, if_true, and_self,
        Bool.false_eq_true, if_false]
      rcases runSteps h (executeLiveStep upper p.plan p.device m) _ 1 [] [] p.plan.steps with
        ⟨log, _ | _ | _⟩ <;> rfl
    · simp [hm]

/-- The commands of a run: those of the attempts at the commanded steps when every gate is open,
none otherwise. -/
theorem run_issued_cases :
    (∃ m, loadArtifactManifest readFile p.plan = .readable m ∧ Authorized p m ∧
      (run upper h readFile p).issued = sentBy (liveAttempts upper h p m)) ∨
    ((¬∃ m, loadArtifactManifest readFile p.plan = .readable m ∧ Authorized p m) ∧
      (run upper h readFile p).issued = []) := by
  by_cases happroved : p.approval.approved = true
  swap
  · right
    refine ⟨fun ⟨m, _, hm⟩ => happroved hm.approved, ?_⟩
    simp [run, happroved, refused]
  by_cases hphrase : PhraseGiven p.policy p.approval
  swap
  · right
    refine ⟨fun ⟨m, _, hm⟩ => hphrase hm.phrase, ?_⟩
    have hcheck := mt phraseGiven_iff.mp hphrase
    simp [run, happroved, Bool.eq_true_of_not_eq_false hcheck, refused]
  have hp := phraseGiven_iff.mpr hphrase
  by_cases hrestore : RestoreConfirmed p.policy p.plan p.approval
  swap
  · right
    refine ⟨fun ⟨m, _, hm⟩ => hrestore hm.restore, ?_⟩
    have hcheck := mt restoreConfirmed_iff.mp hrestore
    simp only [run, happroved, hp, Bool.eq_true_of_not_eq_false hcheck]
    rfl
  have hr := restoreConfirmed_iff.mpr hrestore
  -- the three refusals are out of the way, and the manifest decides
  have hgo : run upper h readFile p = runCleared upper h readFile p
      (join (join p.sessionDir "execution") "flash-transcript.json") := by
    simp only [run, happroved, hp, hr]
    rfl
  rw [hgo, runCleared]
  cases hload : loadArtifactManifest readFile p.plan with
  | unreadable e => exact .inr ⟨by simp, rfl⟩
  | missing =>
    refine .inr ⟨by simp, ?_⟩
    simp only [runWithManifest_issued]
    simp
  | readable m =>
    simp only [runWithManifest_issued]
    by_cases hready : p.plan.artifactsReady ∧ m.status = some "ready"
    · rw [if_pos hready]
      cases hdry : p.dryRun || p.plan.dryRun || !p.policy.allowLiveDestructiveActions with
      | false =>
        simp only [Bool.or_eq_false_iff, Bool.not_eq_false'] at hdry
        left
        refine ⟨m, rfl, ⟨happroved, hphrase, hrestore, hdry.1.1, hdry.1.2, hdry.2, hready.1,
          hready.2⟩, ?_⟩
        rw [runSteps_live, List.nil_append]
        rfl
      | true =>
        right
        refine ⟨fun ⟨m', _, hm⟩ => ?_, runSteps_dry _ _ _ _⟩
        simp [hm.live, hm.planLive, hm.policyLive] at hdry
    · rw [if_neg hready]
      refine .inr ⟨fun ⟨m', heq, hm⟩ => hready ?_, rfl⟩
      obtain rfl : m = m' := by simpa using heq
      exact ⟨hm.artifacts, hm.manifest⟩

/-- A run that issues a command has passed every gate. -/
theorem authorized_of_issued (hne : (run upper h readFile p).issued ≠ []) :
    ∃ m, loadArtifactManifest readFile p.plan = .readable m ∧ Authorized p m ∧
      (run upper h readFile p).issued = sentBy (liveAttempts upper h p m) := by
  rcases run_issued_cases upper h readFile p with hauth | ⟨-, hnil⟩
  · exact hauth
  · exact absurd hnil hne

/-- No command without every gate open, and the commands of a run are those of a
prefix of the commanded steps, each tried once, up to the first failure. -/
theorem run_gated :
    ((run upper h readFile p).issued ≠ [] →
      ∃ m, loadArtifactManifest readFile p.plan = .readable m ∧ Authorized p m ∧
        ∀ backup : BackupPlan, backup ≠ [] →
          (evaluateInstallGate p.policy p.plan p.approval backup).allowed = true) ∧
    ∃ as : List (Attempt FlashStep DeviceCommand),
      as.map Attempt.item <+: p.plan.steps.filter commanded ∧
      (run upper h readFile p).issued = sentBy as ∧
      (∀ a ∈ as, a.sent.length ≤ 1) ∧
      (∀ pre a post, as = pre ++ a :: post → ∃ m, loadArtifactManifest readFile p.plan = .readable m ∧
        attemptStep h (executeLiveStep upper p.plan p.device m) (sentBy pre) a.item =
          (a.sent, a.ok)) ∧
      (∀ a ∈ as.dropLast, a.ok = true) ∧
      (as.length < (p.plan.steps.filter commanded).length →
        (as = [] ∧ ¬∃ m, loadArtifactManifest readFile p.plan = .readable m ∧ Authorized p m) ∨
        ∃ a, as.getLast? = some a ∧ a.ok = false) := by
  refine ⟨fun hne => ?_, ?_⟩
  · obtain ⟨m, hload, hauth, -⟩ := authorized_of_issued upper h readFile p hne
    exact ⟨m, hload, hauth, fun backup hbackup => hauth.installGate hbackup⟩
  · rcases run_issued_cases upper h readFile p with ⟨m, hload, -, hissued⟩ | ⟨hnone, hissued⟩
    · refine ⟨liveAttempts upper h p m, attempts_items_isPrefix _ _ _, hissued, fun a ha => ?_,
        fun pre a post hsplit => ⟨m, hload, ?_⟩, attempts_ok_of_mem_dropLast _ _ _,
        fun hlt => .inr (attempts_failed_of_lt _ _ _ hlt)⟩
      · obtain ⟨log, hlog⟩ := mem_attempts_acts _ ha
        have hsent : a.sent = (attemptStep h (executeLiveStep upper p.plan p.device m) log a.item).1 := by
          rw [hlog]
        rw [hsent]
        exact StepAction.perform_sent_length h log _
      · simpa using attempts_acts _ _ _ pre a post hsplit
    · exact ⟨[], by simp, by simpa using hissued, by simp, by simp, by simp,
        fun _ => .inl ⟨rfl, hnone⟩⟩

end ForgeOS.Flash
