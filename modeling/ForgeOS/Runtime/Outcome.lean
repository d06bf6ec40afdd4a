import ForgeOS.Runtime.Moves

/-! What a cycle knows at its end, as a function of its inputs and of the session it
starts from: the profile, the assessment and the blocker behind the remediation, where
it takes that branch. -/

namespace ForgeOS.Runtime

open ForgeOS.Python ForgeOS.Flash ForgeOS.Session ForgeOS.Library.Trace

variable (o : Orchestrator) (c : CycleInputs)

/-! ### The profile and the count of remediations -/

def profileOf (r : RuntimeState) : DeviceProfile := r.dir.profile

def iterationOf (r : RuntimeState) : ℕ := r.current.remediationIteration

theorem keepsProfile_safeTransition (target : SessionStateName) (reason : String) :
    Maps profileOf id (safeTransition target reason) := by
  intro r
  by_cases hallowed : isTransitionAllowed r.current.state target = true
  · show profileOf (final (if isTransitionAllowed r.current.state target then _ else _) r) = _
    rw [if_pos hallowed]
    show profileOf (final (if isTransitionAllowed r.current.state target then _ else _) r) = _
    rw [if_pos hallowed]
    rfl
  · show profileOf (final (if isTransitionAllowed r.current.state target then _ else _) r) = _
    rw [if_neg hallowed]
    rfl

theorem keepsProfile_launch (ls : List Launch) : Maps profileOf id (launch ls) := fun _ => rfl

theorem keepsProfile_update (change : SessionState → SessionState) :
    Maps profileOf id (updateSessionState change) := fun _ => rfl

/-- What the inspection of a remediation makes of a profile. -/
def inspected (profile : DeviceProfile) : DeviceProfile :=
  match c.remediation.profileUpdates with
  | some change => change profile
  | none => profile

theorem profile_applyInspectionUpdates : Maps profileOf (inspected c) (applyInspectionUpdates c) := by
  intro r
  rw [applyInspectionUpdates, inspected]
  cases c.remediation.profileUpdates <;> rfl

theorem profile_runRemediation (blocker : Blocker) (iteration : ℕ) :
    Maps profileOf (inspected c) (runRemediation o c blocker iteration) :=
  (keepsProfile_launch _).bind fun _ => (keepsProfile_safeTransition _ _).bind fun _ =>
    (keepsProfile_safeTransition _ _).bind fun _ => (keepsProfile_update _).bind fun _ =>
      (keepsProfile_safeTransition _ _).bind fun _ => (keepsProfile_safeTransition _ _).bind fun _ =>
        (keepsProfile_safeTransition _ _).bind fun _ => (keepsProfile_launch _).bind fun _ =>
          (keepsProfile_safeTransition _ _).bind fun _ => profile_applyInspectionUpdates c

theorem iteration_safeTransition (target : SessionStateName) (reason : String) :
    Maps iterationOf id (safeTransition target reason) := keepsIteration_safeTransition target reason

theorem iteration_runRemediation (blocker : Blocker) (iteration : ℕ) :
    Maps iterationOf (· + 1) (runRemediation o c blocker iteration) := by
  have hlaunch : ∀ ls, Maps iterationOf id (launch ls) := fun _ _ => rfl
  have hcount : Maps iterationOf (· + 1)
      (updateSessionState fun s => { s with remediationIteration := s.remediationIteration + 1 }) :=
    fun _ => rfl
  have hinspect : Maps iterationOf id (applyInspectionUpdates c) := by
    intro r
    rw [applyInspectionUpdates]
    cases c.remediation.profileUpdates <;> rfl
  exact (hlaunch _).bind fun _ => (iteration_safeTransition _ _).bind fun _ =>
    (iteration_safeTransition _ _).bind fun _ => hcount.bind fun _ =>
      (iteration_safeTransition _ _).bind fun _ => (iteration_safeTransition _ _).bind fun _ =>
        (iteration_safeTransition _ _).bind fun _ => (hlaunch _).bind fun _ =>
          (iteration_safeTransition _ _).bind fun _ => hinspect

theorem profile_classifyOpening (dir : SessionDir) (state : SessionState) (profile : DeviceProfile) :
    Maps profileOf id (classifyOpening o c dir state profile) :=
  (keepsProfile_launch _).bind fun _ => (keepsProfile_launch _).bind fun _ =>
    Maps.bind (f := id) (fun _ => rfl) fun _ => (keepsProfile_launch _).bind fun _ =>
      (keepsProfile_safeTransition _ _).bind fun _ => (keepsProfile_safeTransition _ _).bind fun _ =>
        (keepsProfile_update _).bind fun _ => maps_pure _ _

/-- Behind the opening the session holds the scanned profile. -/
theorem profile_openCycle (r : RuntimeState) :
    (final (openCycle o c) r).dir.profile = scannedProfile o r := by
  rw [← profile_scanIfDue]
  exact profile_classifyOpening o c _ _ _ _

/-! ### Behind the middle of a cycle -/

/-- What is known behind a remediation, with the profile and the count that it leaves. -/
def remediated (profile : DeviceProfile) (iteration : ℕ) : Progress where
  assessment := c.remediation.assessment
  profile
  blocker := enrich
    (classify (c.remediation.assessment.evidence profile c.built (some c.remediation.inspection)) iteration)
    c.remediation.researchSteps

/-- What is known behind the middle of a cycle that starts from the session. -/
def outcome (r : RuntimeState) : Progress :=
  if remediates o c (openingOf o c r) then
    remediated c (inspected c (scannedProfile o r)) (r.current.remediationIteration + 1)
  else unremediated o c (openingOf o c r)

/-- The second classification reads the session that the remediation leaves. -/
theorem answer_remediate_eq (opening : Opening) (r : RuntimeState) :
    answer (remediate o c opening) r =
      remediated c (inspected c r.dir.profile) (r.current.remediationIteration + 1) := by
  have hprofile := profile_runRemediation o c opening.blocker r.current.remediationIteration r
  have hiteration := iteration_runRemediation o c opening.blocker r.current.remediationIteration r
  rw [answer_remediate, answer_reclassify, secondBlocker]
  simp only [profileOf, iterationOf] at hprofile hiteration
  rw [hprofile, hiteration, remediated]

theorem progressOf_eq_outcome (r : RuntimeState) : progressOf o c r = outcome o c r := by
  rw [outcome]
  split_ifs with hremediates
  · have hbranch : resolveBlocker o c (openingOf o c r) = remediate o c (openingOf o c r) :=
      if_pos hremediates
    have hprofile := profile_openCycle o c r
    have hiteration := keepsIteration_openCycle o c r
    rw [progressOf, hbranch, answer_remediate_eq, ← hprofile, ← hiteration]
    rfl
  · exact progressOf_eq o c (Bool.eq_false_iff.mpr hremediates)

/-- A cycle answers what follows from its inputs. -/
theorem answer_cycle (r : RuntimeState) :
    answer (runRuntimeCycle o c) r = resultOf o c (openingOf o c r) (outcome o c r) := by
  rw [answer_runRuntimeCycle, progressOf_eq_outcome]

/-- The moves of a cycle follow from its inputs, but for a second look at the device. -/
theorem does_cycle (r : RuntimeState) : ∃ (again : Bool) (ls : List Launch),
    Does (runRuntimeCycle o c) r (cycleMoves o c (openingOf o c r) (outcome o c r) again) ls := by
  obtain ⟨again, second, -, hdoes⟩ := does_runRuntimeCycle o c r
  rw [progressOf_eq_outcome] at hdoes
  exact ⟨again, _, hdoes⟩

/-! ### Behind the whole cycle -/

theorem keepsProfile_classifyAgain (blocker : Blocker) : Maps profileOf id (classifyAgain blocker) := by
  rw [classifyAgain]
  split_ifs
  · exact keepsProfile_safeTransition _ _
  · exact maps_pure _ _

theorem keepsProfile_reclassify (before : Blocker) : Maps profileOf id (reclassify c before) :=
  Maps.bind (f := id) (fun _ => rfl) fun _ => Maps.bind (f := id) (fun _ => rfl) fun _ =>
    Maps.bind (f := id) (fun _ => rfl) fun _ => Maps.bind (f := id) (fun _ => rfl) fun _ =>
      (keepsProfile_classifyAgain _).bind fun _ => maps_pure _ _

theorem keepsProfile_askUnless (acted : Bool) (opening : Opening) :
    Maps profileOf id (askUnless o c acted opening) := by
  rw [askUnless]
  split_ifs
  · exact maps_pure _ _
  · exact (keepsProfile_launch _).bind fun _ => keepsProfile_safeTransition _ _

theorem profile_resolveBlocker (opening : Opening) :
    Maps profileOf (if remediates o c opening then inspected c else id)
      (resolveBlocker o c opening) := by
  rw [resolveBlocker]
  split_ifs
  · exact Maps.bind (f := id) (fun _ => rfl) fun _ =>
      (profile_runRemediation o c opening.blocker _).bind fun _ => keepsProfile_reclassify c _
  · exact (keepsProfile_launch _).bind fun _ => (keepsProfile_askUnless o c _ _).bind fun _ =>
      maps_pure _ _
  · exact maps_pure _ _

/-- A cycle that ends with a blocker does not look at the device again. -/
theorem keepsProfile_closeCycle (opening : Opening) {progress : Progress}
    (hblocked : progress.blocker.blockerType ≠ .none) :
    Maps profileOf id (closeCycle o c opening progress) := by
  have hpreview : Maps profileOf id (buildPreview o c opening progress) := by
    rw [buildPreview]
    split_ifs
    · exact (keepsProfile_safeTransition _ _).bind fun _ => (keepsProfile_launch _).bind fun _ =>
        keepsProfile_safeTransition _ _
    · exact maps_pure _ _
  have hverify : Maps profileOf id (verifyInteractively o c opening progress) := by
    rw [verifyInteractively]
    split_ifs
    · exact (keepsProfile_safeTransition _ _).bind fun _ => keepsProfile_launch _
    · exact maps_pure _ _
  have happrove : Maps profileOf id (approveInstall o c opening progress) := by
    rw [approveInstall]
    split_ifs
    · exact keepsProfile_safeTransition _ _
    · exact maps_pure _ _
  have hconclude : Maps profileOf id (conclude o c opening progress) := by
    rw [conclude, if_neg hblocked]
    split_ifs
    · exact keepsProfile_safeTransition _ _
    · exact maps_pure _ _
  exact (keepsProfile_launch _).bind fun _ => (keepsProfile_safeTransition _ _).bind fun _ =>
    hpreview.bind fun _ => hverify.bind fun _ => happrove.bind fun _ => hconclude

theorem profile_cycle {r : RuntimeState} (hblocked : (outcome o c r).blocker.blockerType ≠ .none) :
    (final (runRuntimeCycle o c) r).dir.profile = (outcome o c r).profile := by
  have hmiddle := profile_resolveBlocker o c (openingOf o c r)
    (final (launch (workerLaunches o c (openingOf o c r))) (final (openCycle o c) r))
  have hopen := profile_openCycle o c r
  rw [← progressOf_eq_outcome] at hblocked
  have hclose := keepsProfile_closeCycle o c (openingOf o c r) hblocked
    (final (resolveBlocker o c (openingOf o c r))
      (final (launch (workerLaunches o c (openingOf o c r))) (final (openCycle o c) r)))
  have hfinal : (final (runRuntimeCycle o c) r).dir.profile =
      profileOf (final (closeCycle o c (openingOf o c r) (progressOf o c r))
        (final (resolveBlocker o c (openingOf o c r))
          (final (launch (workerLaunches o c (openingOf o c r))) (final (openCycle o c) r)))) := by
    rw [progressOf, ← answer_openCycle]
    rfl
  have hlaunched : profileOf (final (launch (workerLaunches o c (openingOf o c r)))
      (final (openCycle o c) r)) = scannedProfile o r := hopen
  rw [hfinal, hclose, id_eq, hmiddle, hlaunched, outcome]
  show (if remediates o c (openingOf o c r) then inspected c else id) (scannedProfile o r) = _
  split_ifs <;> rfl

end ForgeOS.Runtime
