import ForgeOS.Runtime.Cycle

/-! What a runtime cycle does to its session: the moves that it tries, in order, and
the programs that it starts. Both are functions of what the cycle starts from and of
what the remediation or the model adds, but for a second look at the device at the
end of some cycles. -/

namespace ForgeOS.Runtime

open ForgeOS.Python ForgeOS.Flash ForgeOS.Session ForgeOS.Library.Trace

variable (o : Orchestrator) (c : CycleInputs)

/-! ### The opening -/

/-- The profile behind the deep scan, where one is due. -/
def scannedProfile (r : RuntimeState) : DeviceProfile :=
  if r.current.state = .deepScan then
    match rescanned o.host (r.dir.profile.serial.getD "") with
    | some refreshed => mergeProbe r.dir.profile (deviceProbe refreshed)
    | none => r.dir.profile
  else r.dir.profile

def scanLaunches (r : RuntimeState) : List Launch :=
  if r.current.state = .deepScan then deepScanQueries o.host (r.dir.profile.serial.getD "") else []

/-- The blocker that the cycle classifies first. -/
def firstBlocker (r : RuntimeState) : Blocker :=
  enrich (classify (c.assessment.evidence (scannedProfile o r) c.built none)
    r.current.remediationIteration) c.researchSteps

def openingOf (r : RuntimeState) : Opening where
  state := r.current
  profile := scannedProfile o r
  userProfile := r.dir.userProfile
  osGoals := r.dir.osGoals
  experiments := r.dir.experiments
  blocker := firstBlocker o c r

def openingLaunches (r : RuntimeState) : List Launch :=
  scanLaunches o r ++ (firstContactLaunches o c (scannedProfile o r) ++
    (captureBackup o.host (scannedProfile o r).transport ((scannedProfile o r).serial.getD "") ++
      o.startAll c.support.artifacts))

theorem does_performDeepScan (r : RuntimeState) :
    Does (performDeepScan o) r [] (deepScanQueries o.host (r.dir.profile.serial.getD "")) := by
  have hmerge : Does
      (match rescanned o.host (r.dir.profile.serial.getD "") with
      | some refreshed => writeDeviceProfile (mergeProbe r.dir.profile (deviceProbe refreshed))
      | none => return ())
      (final (launch (deepScanQueries o.host (r.dir.profile.serial.getD ""))) r) [] [] := by
    cases rescanned o.host (r.dir.profile.serial.getD "") with
    | some refreshed => exact does_writeProfile _ _
    | none => exact does_pure () _
  exact ((does_loadProfile r).bind ((does_launch _ r).bind hmerge)).of_eq rfl (List.append_nil _)

theorem does_scanIfDue (r : RuntimeState) :
    Does (scanIfDue o r.current) r [] (scanLaunches o r) := by
  rw [scanIfDue, scanLaunches]
  split_ifs
  · exact does_performDeepScan o r
  · exact does_pure () r

theorem profile_scanIfDue (r : RuntimeState) :
    (final (scanIfDue o r.current) r).dir.profile = scannedProfile o r := by
  rw [scanIfDue, scannedProfile]
  split_ifs
  · show (final (match rescanned o.host (r.dir.profile.serial.getD "") with
      | some refreshed => writeDeviceProfile (mergeProbe r.dir.profile (deviceProbe refreshed))
      | none => return ())
      (final (launch (deepScanQueries o.host (r.dir.profile.serial.getD ""))) r)).dir.profile = _
    cases rescanned o.host (r.dir.profile.serial.getD "") <;> rfl
  · rfl

theorem always_classifyOpening (dir : SessionDir) (state : SessionState) (profile : DeviceProfile) :
    Always (classifyOpening o c dir state profile) [.recommend, .blockerClassify]
      (firstContactLaunches o c profile ++ (captureBackup o.host profile.transport
        (profile.serial.getD "") ++ o.startAll c.support.artifacts)) := by
  have hbackup : Always writeBackupPlan [] [] :=
    does_files (f := fun d => { d with backupPlanExists := true }) fun _ => rfl
  have hblocker : ∀ b, Always (updateSessionState (setBlocker b)) [] [] :=
    fun b => does_update _ (fun _ => rfl) fun _ => rfl
  have hrun : Always (classifyOpening o c dir state profile) _ _ :=
    Always.bind (does_launch _) fun _ => Always.bind (does_launch _) fun _ =>
      Always.bind hbackup fun _ => Always.bind (does_launch _) fun _ =>
        Always.bind (does_safeTransition _ _) fun _ => Always.bind (does_safeTransition _ _) fun _ =>
          Always.bind (hblocker _) fun _ => does_pure _
  exact fun r => (hrun r).of_eq rfl (by simp)

theorem answer_openCycle (r : RuntimeState) : answer (openCycle o c) r = openingOf o c r := by
  rw [openingOf, firstBlocker, ← profile_scanIfDue]
  rfl

theorem does_openCycle (r : RuntimeState) :
    Does (openCycle o c) r [.recommend, .blockerClassify] (openingLaunches o c r) := by
  rw [openingLaunches, ← profile_scanIfDue]
  rw [openCycle]
  exact does_loadDir_bind (does_load_bind ((does_scanIfDue o r).bind
    (does_loadProfile_bind (always_classifyOpening o c _ _ _ _))))

/-! ### Remediation -/

/-- The moves of the remediation branch, if a blocker is left and if not. -/
def remediationMoves (left : Bool) : List SessionStateName :=
  [.remediationDecide, .taskCreate, .codegenWrite, .patchApply, .executeArtifact, .inspectResult] ++
    if left then [.blockerClassify] else []

theorem does_applyInspectionUpdates (r : RuntimeState) :
    Does (applyInspectionUpdates c) r [] [] := by
  rw [applyInspectionUpdates]
  cases c.remediation.profileUpdates with
  | some change =>
    exact (does_loadProfile r).bind ((does_writeProfile _ _).bind (does_annotate _ _))
  | none => exact does_pure () r

theorem does_classifyAgain (blocker : Blocker) (r : RuntimeState) :
    Does (classifyAgain blocker) r
      (if blocker.blockerType ≠ .none then [.blockerClassify] else []) [] := by
  rw [classifyAgain]
  split_ifs
  · exact does_safeTransition _ _ _
  · exact does_pure () r

/-- The programs of the remediation branch, after so many remediations. -/
def remediationLaunches (opening : Opening) (iteration : ℕ) : List Launch :=
  (executeRouted o.host o.setup (remediationTask c opening.blocker iteration)).launched ++
    artifactLaunches o c opening.blocker

theorem reclassified_state (blocker : Blocker) (s : SessionState) :
    (reclassified c blocker s).state = s.state := by
  rw [reclassified, setBlocker]
  split_ifs <;> rfl

theorem reclassified_history (blocker : Blocker) (s : SessionState) :
    (reclassified c blocker s).history = s.history := by
  rw [reclassified, setBlocker]
  split_ifs <;> rfl

theorem always_runRemediation (blocker : Blocker) (iteration : ℕ) :
    Always (runRemediation o c blocker iteration)
      [.remediationDecide, .taskCreate, .codegenWrite, .patchApply, .executeArtifact, .inspectResult]
      ((executeRouted o.host o.setup (remediationTask c blocker iteration)).launched ++
        artifactLaunches o c blocker) := by
  have hcount : Always
      (updateSessionState fun s => { s with remediationIteration := s.remediationIteration + 1 })
      [] [] := does_update _ (fun _ => rfl) fun _ => rfl
  have hrun : Always (runRemediation o c blocker iteration) _ _ :=
    Always.bind (does_launch _) fun _ => Always.bind (does_safeTransition _ _) fun _ =>
      Always.bind (does_safeTransition _ _) fun _ => Always.bind hcount fun _ =>
        Always.bind (does_safeTransition _ _) fun _ => Always.bind (does_safeTransition _ _) fun _ =>
          Always.bind (does_safeTransition _ _) fun _ => Always.bind (does_launch _) fun _ =>
            Always.bind (does_safeTransition _ _) fun _ => does_applyInspectionUpdates c
  exact fun r => (hrun r).of_eq rfl (by simp)

/-- The blocker of the second classification. -/
def secondBlocker (r : RuntimeState) : Blocker :=
  enrich (classify (c.remediation.assessment.evidence r.dir.profile c.built
    (some c.remediation.inspection)) r.current.remediationIteration) c.remediation.researchSteps

theorem does_recordVerdict (before after : Blocker) (r : RuntimeState) :
    Does (recordVerdict c before after) r [] [] := does_files (f := fun d => { d with
      experiments := d.experiments ++ [Learning.evaluateExperiment before.blockerType.value
        after.blockerType.value c.remediation.inspection.learned] }) (fun _ => rfl) r

theorem does_reclassify (before : Blocker) (r : RuntimeState) :
    Does (reclassify c before) r
      (if (secondBlocker c r).blockerType ≠ .none then [.blockerClassify] else []) [] := by
  have hwrite : Does (writeSessionState (reclassified c (secondBlocker c r) r.current)) r [] [] :=
    does_write (reclassified_state c _ _) (reclassified_history c _ _)
  have hagain : ∀ r', Does (classifyAgain (secondBlocker c r)) r' _ [] :=
    does_classifyAgain (secondBlocker c r)
  rw [reclassify]
  exact does_loadProfile_bind (does_load_bind ((hwrite.bind ((does_recordVerdict c before _ _).bind
    ((hagain _).bind (does_pure _ _)))).of_eq (List.append_nil _) rfl))

theorem answer_remediate (opening : Opening) (r : RuntimeState) :
    answer (remediate o c opening) r =
      answer (reclassify c opening.blocker)
        (final (runRemediation o c opening.blocker r.current.remediationIteration) r) := by
  rw [remediate, answer_bind, answer_bind, final_load, answer_load]

theorem answer_reclassify (before : Blocker) (r : RuntimeState) : answer (reclassify c before) r =
    { assessment := c.remediation.assessment, profile := r.dir.profile,
      blocker := secondBlocker c r } := by
  rw [reclassify, answer_bind, answer_bind, answer_bind, answer_bind, final_loadProfile, final_load,
    answer_loadProfile, answer_load]
  rfl

theorem does_remediate (opening : Opening) (r : RuntimeState) :
    Does (remediate o c opening) r
      (remediationMoves ((answer (remediate o c opening) r).blocker.blockerType ≠ .none))
      (remediationLaunches o c opening r.current.remediationIteration) := by
  have hrun := always_runRemediation o c opening.blocker r.current.remediationIteration r
  have hagain := does_reclassify c opening.blocker
    (final (runRemediation o c opening.blocker r.current.remediationIteration) r)
  rw [answer_remediate, answer_reclassify, remediationMoves, remediationLaunches, remediate]
  simp only [decide_eq_true_eq]
  have hdoes := Does.bind (k := fun _ => reclassify c opening.blocker) hrun hagain
  exact does_load_bind (hdoes.of_eq rfl (List.append_nil _))

/-! ### A question -/

/-- The model is asked and does something about the first blocker. -/
def modelActs (opening : Opening) : Bool := (modelResolution o c opening).2

def questionLaunches (opening : Opening) : List Launch :=
  (modelResolution o c opening).1 ++
    if modelActs o c opening then [] else blockerResearch o c opening

theorem does_askForHelp (opening : Opening) (r : RuntimeState) :
    Does (askForHelp o c opening) r (if modelActs o c opening then [] else [.questionGate])
      (questionLaunches o c opening) := by
  have hask : ∀ (acted : Bool) (r : RuntimeState), Does (askUnless o c acted opening) r
      (if acted then [] else [.questionGate])
      (if acted then [] else blockerResearch o c opening) := by
    intro acted r
    rw [askUnless]
    split_ifs
    · exact does_pure () r
    · exact ((does_launch _ _).bind (does_safeTransition _ _ _)).of_eq rfl (List.append_nil _)
  exact ((does_launch _ _).bind ((hask _ _).bind (does_pure _ _))).of_eq (List.append_nil _)
    (by rw [List.append_nil]; rfl)

/-! ### The middle of a cycle -/

/-- The moves between the classification and the closing. -/
def middleMoves (opening : Opening) (progress : Progress) : List SessionStateName :=
  if remediates o c opening then remediationMoves (progress.blocker.blockerType ≠ .none)
  else if opening.blocker.blockerType ≠ .none ∧ modelActs o c opening = false then [.questionGate]
  else []

def middleLaunches (opening : Opening) : List Launch :=
  if remediates o c opening then
    remediationLaunches o c opening opening.state.remediationIteration
  else if opening.blocker.blockerType ≠ .none then questionLaunches o c opening
  else []

/-- What is known behind the middle of a cycle that does not remediate. -/
def unremediated (opening : Opening) : Progress where
  assessment := c.assessment
  profile := opening.profile
  blocker := opening.blocker
  acted := if opening.blocker.blockerType ≠ .none then modelActs o c opening else false

theorem does_resolveBlocker (opening : Opening) {r : RuntimeState}
    (hiteration : r.current.remediationIteration = opening.state.remediationIteration) :
    Does (resolveBlocker o c opening) r
      (middleMoves o c opening (answer (resolveBlocker o c opening) r))
      (middleLaunches o c opening) := by
  rw [resolveBlocker, middleMoves, middleLaunches, ← hiteration]
  split_ifs with hremediates hnone hasked hasked
  · exact does_remediate o c opening r
  · exact (does_askForHelp o c opening r).of_eq (if_neg (by simp [hasked.2])) rfl
  · have hacts : modelActs o c opening = true := by simpa [hnone] using hasked
    exact (does_askForHelp o c opening r).of_eq (if_pos hacts) rfl
  · exact absurd hasked.1 hnone
  · exact does_pure _ r

theorem answer_resolveBlocker {opening : Opening} (hremediates : remediates o c opening = false)
    (r : RuntimeState) :
    answer (resolveBlocker o c opening) r = unremediated o c opening := by
  rw [resolveBlocker, if_neg (by simp [hremediates]), unremediated]
  split_ifs <;> rfl

/-! ### The closing -/

def closingMoves (opening : Opening) (progress : Progress) (again : Bool) : List SessionStateName :=
  [.backupReady] ++
    ((if previewed o c opening progress then [.previewBuild, .previewReview] else []) ++
      ((if verified o c opening progress then [.interactiveVerify] else []) ++
        ((if installReady o c opening progress then [.installApproval] else []) ++
          if progress.blocker.blockerType = .none then
            if installReady o c opening progress then []
            else if previewed o c opening progress then []
            else if installCandidate o c opening progress then [.buildGeneric]
            else [.iterate] ++ if again then [.deepScan] else []
          else if progress.blocker.machineSolvable = false then [.questionGate]
          else [])))

/-- The programs of the closing, up to a second look at the device. -/
def inspectionLaunches (opening : Opening) (progress : Progress) : List Launch :=
  closingLaunches o c opening progress ++
    ((if previewed o c opening progress then o.startAll c.support.capabilities else []) ++
      if verified o c opening progress then
        o.startAll c.support.capabilities ++ verifyTransports o.host
      else [])

theorem issues_deepScanQueries (h : RuntimeHost) (serial : String) :
    Issues IsQuery (deepScanQueries h serial) := by
  rw [deepScanQueries]
  split_ifs <;> simp only [issues_append, issues_nil, issues_listAdb, issues_describeDevice,
    issues_hardwareSnapshot, issues_listFastboot, issues_getvarAll, and_self]

theorem does_lookAgain (r : RuntimeState) : ∃ second, Issues IsQuery second ∧ Does (do
    safeTransition .deepScan "Consecutive ITERATE cycles detected — forcing device re-probe"
    performDeepScan o) r [.deepScan] second :=
  ⟨_, issues_deepScanQueries o.host _,
    Does.bind (does_safeTransition _ _ r) (does_performDeepScan o _)⟩

theorem does_countIteration (state : SessionState) {r : RuntimeState} (hstate : state = r.current) :
    ∃ (again : Bool) (second : List Launch), Issues IsQuery second ∧
      Does (countIteration o state) r (if again then [.deepScan] else []) second := by
  subst hstate
  rw [countIteration]
  split_ifs
  · have hwrite := does_write (s := { r.current with iterateCount := 0 }) (r := r) rfl rfl
    obtain ⟨second, hsecond, hlook⟩ := does_lookAgain o
      (final (writeSessionState { r.current with iterateCount := 0 }) r)
    exact ⟨true, second, hsecond, hwrite.bind hlook⟩
  · exact ⟨false, [], issues_nil, does_write rfl rfl⟩

theorem does_iterate (r : RuntimeState) : ∃ (again : Bool) (second : List Launch), Issues IsQuery second ∧
    Does (iterate o) r ([.iterate] ++ if again then [.deepScan] else []) second := by
  obtain ⟨again, second, hsecond, hcount⟩ := does_countIteration o
    (r := final (safeTransition .iterate
      "Runtime cycle complete — no active blocker, waiting for next condition change") r) _ rfl
  exact ⟨again, second, hsecond, (does_safeTransition _ _ r).bind (does_load_bind hcount)⟩

theorem does_resetIterations (r : RuntimeState) : Does resetIterations r [] [] :=
  does_update (fun s => { s with iterateCount := 0 }) (fun _ => rfl) (fun _ => rfl) r

theorem does_advance (opening : Opening) (progress : Progress) (r : RuntimeState) :
    ∃ (again : Bool) (second : List Launch), Issues IsQuery second ∧ Does (advance o c opening progress) r
      (if installReady o c opening progress then []
        else if previewed o c opening progress then []
        else if installCandidate o c opening progress then [.buildGeneric]
        else [.iterate] ++ if again then [.deepScan] else []) second := by
  rw [advance]
  split_ifs
  · exact ⟨false, [], issues_nil, does_resetIterations r⟩
  · exact ⟨false, [], issues_nil, does_resetIterations r⟩
  · exact ⟨false, [], issues_nil, (does_resetIterations r).bind (does_safeTransition _ _ _)⟩
  · exact does_iterate o r

theorem does_conclude (opening : Opening) (progress : Progress) (r : RuntimeState) :
    ∃ (again : Bool) (second : List Launch), Issues IsQuery second ∧ Does (conclude o c opening progress) r
      (if progress.blocker.blockerType = .none then
        if installReady o c opening progress then []
        else if previewed o c opening progress then []
        else if installCandidate o c opening progress then [.buildGeneric]
        else [.iterate] ++ if again then [.deepScan] else []
      else if progress.blocker.machineSolvable = false then [.questionGate]
      else []) second := by
  by_cases hnone : progress.blocker.blockerType = .none
  · rw [conclude, if_pos hnone]
    simp only [if_pos hnone]
    exact does_advance o c opening progress r
  · rw [conclude, if_neg hnone]
    simp only [if_neg hnone]
    refine ⟨false, [], issues_nil, ?_⟩
    split_ifs
    · exact does_safeTransition _ _ _
    · exact does_pure () r

theorem does_closeCycle (opening : Opening) (progress : Progress) (r : RuntimeState) :
    ∃ (again : Bool) (second : List Launch), Issues IsQuery second ∧ Does (closeCycle o c opening progress) r
      (closingMoves o c opening progress again)
      (inspectionLaunches o c opening progress ++ second) := by
  have hpreview : ∀ r, Does (buildPreview o c opening progress) r
      (if previewed o c opening progress then [.previewBuild, .previewReview] else [])
      (if previewed o c opening progress then o.startAll c.support.capabilities else []) := by
    intro r
    rw [buildPreview]
    split_ifs
    · exact ((does_safeTransition _ _ _).bind ((does_launch _ _).bind
        (does_safeTransition _ _ _))).of_eq rfl (List.append_nil _)
    · exact does_pure () r
  have hverify : ∀ r, Does (verifyInteractively o c opening progress) r
      (if verified o c opening progress then [.interactiveVerify] else [])
      (if verified o c opening progress then
        o.startAll c.support.capabilities ++ verifyTransports o.host else []) := by
    intro r
    rw [verifyInteractively]
    split_ifs
    · exact (does_safeTransition _ _ _).bind (does_launch _ _)
    · exact does_pure () r
  have happrove : ∀ r, Does (approveInstall o c opening progress) r
      (if installReady o c opening progress then [.installApproval] else []) [] := by
    intro r
    rw [approveInstall]
    split_ifs
    · exact does_safeTransition _ _ _
    · exact does_pure () r
  obtain ⟨again, second, hsecond, hconclude⟩ := does_conclude o c opening progress
    (final (do
      launch (closingLaunches o c opening progress)
      safeTransition .backupReady "Backup and restore readiness recorded for this session"
      buildPreview o c opening progress
      verifyInteractively o c opening progress
      approveInstall o c opening progress) r)
  refine ⟨again, second, hsecond, ((does_launch _ _).bind ((does_safeTransition _ _ _).bind
    ((hpreview _).bind ((hverify _).bind ((happrove _).bind hconclude))))).of_eq rfl ?_⟩
  simp [inspectionLaunches]

/-! ### The whole cycle -/

/-- The program leaves the count of remediations as it is. -/
def KeepsIteration {α : Type} (m : RuntimeM α) : Prop :=
  ∀ r, (final m r).current.remediationIteration = r.current.remediationIteration

theorem KeepsIteration.bind {α β : Type} {m : RuntimeM α} {k : α → RuntimeM β}
    (hm : KeepsIteration m) (hk : ∀ a, KeepsIteration (k a)) : KeepsIteration (m >>= k) :=
  fun r => (hk _ _).trans (hm r)

theorem keepsIteration_safeTransition (target : SessionStateName) (reason : String) :
    KeepsIteration (safeTransition target reason) := by
  intro r
  by_cases hallowed : isTransitionAllowed r.current.state target = true
  · show (final (if isTransitionAllowed r.current.state target then _ else _) r).current.remediationIteration = _
    rw [if_pos hallowed]
    show (final (if isTransitionAllowed r.current.state target then _ else _) r).current.remediationIteration = _
    rw [if_pos hallowed]
    rfl
  · show (final (if isTransitionAllowed r.current.state target then _ else _) r).current.remediationIteration = _
    rw [if_neg hallowed]
    rfl

theorem keepsIteration_scanIfDue (state : SessionState) : KeepsIteration (scanIfDue o state) := by
  intro r
  rw [scanIfDue]
  split_ifs
  · show (final (match rescanned o.host (r.dir.profile.serial.getD "") with
      | some refreshed => writeDeviceProfile (mergeProbe r.dir.profile (deviceProbe refreshed))
      | none => return ())
      (final (launch (deepScanQueries o.host (r.dir.profile.serial.getD ""))) r)).current.remediationIteration = _
    cases rescanned o.host (r.dir.profile.serial.getD "") <;> rfl
  · rfl

theorem keepsIteration_openCycle : KeepsIteration (openCycle o c) := by
  have hload : KeepsIteration loadSessionState := fun _ => rfl
  have hprofile : KeepsIteration loadDeviceProfile := fun _ => rfl
  have hlaunch : ∀ ls, KeepsIteration (launch ls) := fun _ _ => rfl
  have hbackup : KeepsIteration writeBackupPlan := fun _ => rfl
  have hblocker : ∀ b, KeepsIteration (updateSessionState (setBlocker b)) := fun _ _ => rfl
  have hdir : KeepsIteration loadSessionDir := fun _ => rfl
  have hclassify : ∀ dir state profile, KeepsIteration (classifyOpening o c dir state profile) :=
    fun dir state profile => (hlaunch _).bind fun _ => (hlaunch _).bind fun _ => hbackup.bind fun _ =>
      (hlaunch _).bind fun _ => (keepsIteration_safeTransition _ _).bind fun _ =>
        (keepsIteration_safeTransition _ _).bind fun _ => (hblocker _).bind fun _ => fun _ => rfl
  exact hdir.bind fun _ => hload.bind fun _ => (keepsIteration_scanIfDue o _).bind fun _ =>
    hprofile.bind fun _ => hclassify _ _ _

/-- The moves of a cycle. -/
def cycleMoves (opening : Opening) (progress : Progress) (again : Bool) : List SessionStateName :=
  [.recommend, .blockerClassify] ++
    (middleMoves o c opening progress ++ closingMoves o c opening progress again)

/-- The programs of a cycle, up to a second look at the device. -/
def cycleLaunches (r : RuntimeState) (progress : Progress) : List Launch :=
  openingLaunches o c r ++ (workerLaunches o c (openingOf o c r) ++
    (middleLaunches o c (openingOf o c r) ++ inspectionLaunches o c (openingOf o c r) progress))

def resultOf (opening : Opening) (progress : Progress) : CycleResult where
  blocker := progress.blocker
  acted := progress.acted
  flashPlan := c.flashPlan o opening
  installReady := installReady o c opening progress

/-- What is known behind the middle of the cycle. -/
def progressOf (r : RuntimeState) : Progress :=
  answer (resolveBlocker o c (openingOf o c r))
    (final (launch (workerLaunches o c (openingOf o c r))) (final (openCycle o c) r))

theorem answer_runRuntimeCycle (r : RuntimeState) :
    answer (runRuntimeCycle o c) r = resultOf o c (openingOf o c r) (progressOf o c r) := by
  rw [progressOf, ← answer_openCycle]
  rfl

theorem progressOf_eq {r : RuntimeState} (h : remediates o c (openingOf o c r) = false) :
    progressOf o c r = unremediated o c (openingOf o c r) := answer_resolveBlocker o c h _

/-- A cycle tries its moves and starts its programs, and then at most looks at the
device a second time. -/
theorem does_runRuntimeCycle (r : RuntimeState) : ∃ (again : Bool) (second : List Launch), Issues IsQuery second ∧
    Does (runRuntimeCycle o c) r (cycleMoves o c (openingOf o c r) (progressOf o c r) again)
      (cycleLaunches o c r (progressOf o c r) ++ second) := by
  have hiteration : (final (launch (workerLaunches o c (openingOf o c r)))
      (final (openCycle o c) r)).current.remediationIteration =
      (openingOf o c r).state.remediationIteration := keepsIteration_openCycle o c r
  have hmiddle := does_resolveBlocker o c (openingOf o c r) hiteration
  obtain ⟨again, second, hsecond, hclose⟩ := does_closeCycle o c (openingOf o c r) (progressOf o c r)
    (final (resolveBlocker o c (openingOf o c r))
      (final (launch (workerLaunches o c (openingOf o c r))) (final (openCycle o c) r)))
  refine ⟨again, second, hsecond, ?_⟩
  have hrun : Does (runRuntimeCycle o c) r _ _ := (does_openCycle o c r).bind (by
    rw [answer_openCycle]
    exact (does_launch _ _).bind (hmiddle.bind (hclose.bind (does_pure _ _))))
  refine hrun.of_eq ?_ ?_
  · simp only [cycleMoves, List.nil_append, List.append_nil]
    rfl
  · simp [cycleLaunches]

end ForgeOS.Runtime
