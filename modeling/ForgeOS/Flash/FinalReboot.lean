import ForgeOS.Flash.Executor
import ForgeOS.Flash.Planner

/-! The end of a live run. The last step of every plan is the validation of the boot, for which the
executor has a reboot, but the executor skips a step without command text, and the planner gives this
step none. What a completed run issues last is therefore decided by the flash steps of the artifacts. -/

namespace ForgeOS.Flash

open ForgeOS.Python

/-! ### What a completed run issues -/

/-- The end of a call that a live run goes on behind. -/
def StepAction.Answers (a : StepAction) : Prop :=
  a.command?.isSome = true ∨ ∃ r, a = .reply r ∧ r.ok = true

variable {h : Host} {act : FlashStep → StepAction}

/-- An action that succeeds has issued its command, if it has one. -/
theorem perform_ok {log sent : List DeviceCommand} {a : StepAction} {r : CommandResult}
    (hperform : a.perform h log = (sent, .result r)) (hok : r.ok = true) :
    sent = a.command?.toList ∧ a.Answers := by
  cases a with
  | reply r' =>
    cases hperform
    exact ⟨rfl, .inr ⟨r, rfl, hok⟩⟩
  | raise e => cases hperform
  | adb args =>
    simp only [StepAction.perform, adbRun, platformRun] at hperform
    split_ifs at hperform <;> cases hperform
    · exact ⟨rfl, .inl rfl⟩
    · cases hok
  | fastboot args =>
    simp only [StepAction.perform, fastbootRun, platformRun] at hperform
    split_ifs at hperform <;> cases hperform
    · exact ⟨rfl, .inl rfl⟩
    · cases hok
  | heimdall args timeout =>
    simp only [StepAction.perform, heimdallRun] at hperform
    split_ifs at hperform <;> cases hperform
    · exact ⟨rfl, .inl rfl⟩
    all_goals cases hok

/-- A live loop that finishes has issued the commands of its commanded steps. -/
theorem runSteps_finished_sent {index : ℕ} {done : List ExecutedStep} {log : List DeviceCommand}
    {steps : List FlashStep} {out : List DeviceCommand} {all : List ExecutedStep}
    (hrun : runSteps h act false index done log steps = (out, .finished all)) :
    out = log ++ (steps.filter commanded).filterMap (fun step => (act step).command?) ∧
      ∀ step ∈ steps.filter commanded, (act step).Answers := by
  induction steps generalizing index done log with
  | nil =>
    cases hrun
    exact ⟨by simp, by simp⟩
  | cons step steps ih =>
    rw [runSteps] at hrun
    cases hc : commanded step with
    | false =>
      rw [List.filter_cons_of_neg (by simp [hc])]
      exact ih (by simpa [hc] using hrun)
    | true =>
      rw [List.filter_cons_of_pos hc]
      rcases hp : (act step).perform h log with ⟨sent, r | e⟩
      · cases hr : r.ok with
        | true =>
          obtain ⟨hsent, hanswers⟩ := perform_ok hp hr
          obtain ⟨hout, hrest⟩ := ih (by simpa [hc, hp, hr] using hrun)
          refine ⟨?_, List.forall_mem_cons.mpr ⟨hanswers, hrest⟩⟩
          rw [hout, hsent, List.filterMap_cons]
          cases (act step).command? <;> simp
        | false => simp [hc, hp, hr] at hrun
      · simp [hc, hp] at hrun

/-- A live run that completes has gone through all steps of its plan. -/
theorem run_complete {upper : String → String} {readFile : String → ManifestFile} {p : Payload}
    {r : RunResult} (hrun : (run upper h readFile p).ending = .returned r)
    (hstatus : r.status = "live_execution_complete") :
    ∃ (m : Manifest) (all : List ExecutedStep),
      runSteps h (executeLiveStep upper p.plan p.device m) false 1 [] [] p.plan.steps =
        ((run upper h readFile p).issued, .finished all) := by
  have hmanifest : ∀ m transcriptPath, (runWithManifest upper h p transcriptPath m).ending =
      .returned r → ∃ all, runSteps h (executeLiveStep upper p.plan p.device m) false 1 [] []
        p.plan.steps = ((runWithManifest upper h p transcriptPath m).issued, .finished all) := by
    intro m transcriptPath hend
    by_cases hready : (!p.plan.artifactsReady || m.status != some "ready") = true
    · simp only [runWithManifest, if_pos hready] at hend
      cases hend
      exact absurd hstatus (by simp)
    · simp only [runWithManifest, if_neg hready] at hend ⊢
      cases hdry : (p.dryRun || p.plan.dryRun || !p.policy.allowLiveDestructiveActions) with
      | true =>
        rw [hdry] at hend
        split at hend
        · cases hend
        all_goals
          cases hend
          exact absurd hstatus (by simp)
      | false =>
        rw [hdry] at hend
        split at hend
        · cases hend
        · cases hend
          exact absurd hstatus (by simp)
        · next log all hloop => exact ⟨all, by rw [hloop]⟩
  simp only [run] at hrun ⊢
  split_ifs at hrun ⊢
  · cases hrun
    exact absurd hstatus (by simp)
  · cases hrun
    exact absurd hstatus (by simp)
  · cases hrun
    exact absurd hstatus (by simp)
  · simp only [runCleared] at hrun ⊢
    split at hrun
    · cases hrun
    · exact ⟨_, hmanifest _ _ hrun⟩
    · exact ⟨_, hmanifest _ _ hrun⟩

/-! ### Which steps reboot -/

/-- The reboot that the executor has for the validation of the boot. -/
def rebootCommand (upper : String → String) (plan : FlashPlan) (device : String) :
    Option DeviceCommand :=
  (executeLiveStep upper plan device {} bootValidation).command?

/-- The executor answers a step of the name without a call of a tool. -/
def Unsent (plan : FlashPlan) (name : String) : Prop :=
  plan.installMode = "fastboot_images" ∧ plan.transport = Transport.usbFastboot.value ∧
      name = "enter_fastboot" ∨
    plan.installMode = "heimdall_flash" ∧ name = "wipe_userdata"

section Steps

variable {upper : String → String} {plan : FlashPlan} {device serial transport name : String}
  {m : Manifest} {step : FlashStep}

/-- The call fails on the host. -/
def StepAction.Fails (a : StepAction) : Prop := (∃ e, a = .raise e) ∨ ∃ r, a = .reply r ∧ r.ok = false

theorem StepAction.Fails.not_answers {a : StepAction} (h : a.Fails) : ¬a.Answers := by
  rintro (hcommand | ⟨r, rfl, hok⟩)
  · rcases h with ⟨e, rfl⟩ | ⟨r, rfl, -⟩ <;> cases hcommand
  · rcases h with ⟨e, he⟩ | ⟨r', hr, hfails⟩
    · cases he
    · cases hr
      rw [hok] at hfails
      cases hfails

theorem failure_fails (reason : String) : (failure reason).Fails := .inr ⟨_, rfl, rfl⟩

theorem executeFastbootStep_flash (serial transport : String) (m : Manifest)
    (henter : name ≠ "enter_fastboot") (hwipe : name ≠ "wipe_userdata")
    (hboot : name ≠ "boot_validation") : (executeFastbootStep serial m name transport).Fails ∨
      ∃ partition staged, executeFastbootStep serial m name transport =
        .fastboot (serialArgs serial ++ ["flash", partition, staged]) := by
  simp only [executeFastbootStep, if_neg henter, if_neg hwipe, if_neg hboot]
  split
  · exact .inl (failure_fails _)
  · split_ifs
    · exact .inl (failure_fails _)
    · split
      · exact .inl (failure_fails _)
      · exact .inr ⟨_, _, rfl⟩

theorem executeAdbSideloadStep_flash (serial : String) (m : Manifest) (henter : name ≠ "enter_sideload")
    (hwipe : name ≠ "wipe_userdata") (hboot : name ≠ "boot_validation") :
    (executeAdbSideloadStep serial m name).Fails ∨
      ∃ staged, executeAdbSideloadStep serial m name =
        .adb (serialArgs serial ++ ["sideload", staged]) := by
  simp only [executeAdbSideloadStep, if_neg henter, if_neg hwipe, if_neg hboot]
  split
  · exact .inl (failure_fails _)
  · split
    · exact .inl (.inl ⟨_, rfl⟩)
    · split
      · exact .inl (failure_fails _)
      · exact .inr ⟨_, rfl⟩

theorem executeHeimdallStep_flash (upper : String → String) (m : Manifest)
    (hdetect : name ≠ "detect_download_mode") (hprint : name ≠ "print_pit") (hwipe : name ≠ "wipe_userdata") (hboot : name ≠ "boot_validation") :
    (executeHeimdallStep upper m name).Fails ∨
      ∃ args, executeHeimdallStep upper m name = .heimdall ("flash" :: args) 600 := by
  simp only [executeHeimdallStep, if_neg hdetect, if_neg hprint, if_neg hwipe, if_neg hboot]
  split
  · exact .inl (failure_fails _)
  · split
    · exact .inl (failure_fails _)
    · rw [heimdallFlash]
      split_ifs
      · exact .inl (failure_fails _)
      all_goals exact .inr ⟨_, rfl⟩

/-- What a step that succeeds comes down to: the reboot, an answer made up on the host, or another
command. -/
inductive Kind (reboot : Option DeviceCommand) (plan : FlashPlan) (name : String) (a : StepAction) :
    Prop
  | reboots {c : DeviceCommand} (hname : name = "boot_validation") (hreboot : reboot = some c)
      (hcommand : a.command? = some c)
  | unsent (hunsent : Unsent plan name) (hcommand : a.command? = none)
  | other {c : DeviceCommand} (hname : name ≠ "boot_validation") (hsent : ¬Unsent plan name)
      (hcommand : a.command? = some c) (hne : reboot ≠ some c)

theorem kind_fastboot (hmode : plan.installMode = "fastboot_images")
    (hanswers : (executeFastbootStep serial m name plan.transport).Answers) :
    Kind (some ⟨.fastboot, serialArgs serial ++ ["reboot"]⟩) plan name
      (executeFastbootStep serial m name plan.transport) := by
  by_cases henter : name = "enter_fastboot"
  · subst henter
    by_cases htransport : plan.transport = Transport.usbFastboot.value
    · exact .unsent (.inl ⟨hmode, htransport, rfl⟩)
        (by simp [executeFastbootStep, htransport, StepAction.command?])
    · exact .other (c := ⟨.adb, serialArgs serial ++ ["reboot", "bootloader"]⟩) (by decide)
        (by simp [Unsent, htransport])
        (by simp [executeFastbootStep, htransport, StepAction.command?]) (by simp)
  · have hsent : ¬Unsent plan name := by simp [Unsent, henter, hmode]
    by_cases hwipe : name = "wipe_userdata"
    · subst hwipe
      exact .other (c := ⟨.fastboot, serialArgs serial ++ ["erase", "userdata"]⟩) (by decide) hsent
        (by simp [executeFastbootStep, StepAction.command?]) (by simp)
    · by_cases hboot : name = "boot_validation"
      · exact .reboots hboot rfl (by simp [executeFastbootStep, hboot, StepAction.command?])
      · rcases executeFastbootStep_flash serial plan.transport m henter hwipe hboot with
          hfails | ⟨partition, staged, hflash⟩
        · exact absurd hanswers hfails.not_answers
        · exact .other hboot hsent (by rw [hflash]; rfl) (by simp)

theorem kind_sideload (hmode : plan.installMode = "adb_sideload")
    (hanswers : (executeAdbSideloadStep serial m name).Answers) :
    Kind (some ⟨.adb, serialArgs serial ++ ["reboot"]⟩) plan name
      (executeAdbSideloadStep serial m name) := by
  have hsent : ¬Unsent plan name := by simp [Unsent, hmode]
  by_cases henter : name = "enter_sideload"
  · subst henter
    exact .other (c := ⟨.adb, serialArgs serial ++ ["reboot", "sideload"]⟩) (by decide) hsent
      (by simp [executeAdbSideloadStep, StepAction.command?]) (by simp)
  · by_cases hwipe : name = "wipe_userdata"
    · subst hwipe
      exact .other (c := ⟨.adb, serialArgs serial ++ ["shell", "recovery", "--wipe_data"]⟩) (by decide)
        hsent (by simp [executeAdbSideloadStep, StepAction.command?]) (by simp)
    · by_cases hboot : name = "boot_validation"
      · exact .reboots hboot rfl (by simp [executeAdbSideloadStep, hboot, StepAction.command?])
      · rcases executeAdbSideloadStep_flash serial m henter hwipe hboot with
          hfails | ⟨staged, hflash⟩
        · exact absurd hanswers hfails.not_answers
        · exact .other hboot hsent (by rw [hflash]; rfl) (by simp)

theorem kind_heimdall (hmode : plan.installMode = "heimdall_flash")
    (hanswers : (executeHeimdallStep upper m name).Answers) :
    Kind (some ⟨.heimdall, ["close"]⟩) plan name (executeHeimdallStep upper m name) := by
  by_cases hwipe : name = "wipe_userdata"
  · subst hwipe
    exact .unsent (.inr ⟨hmode, rfl⟩) (by simp [executeHeimdallStep, StepAction.command?])
  · have hsent : ¬Unsent plan name := by simp [Unsent, hmode, hwipe]
    by_cases hdetect : name = "detect_download_mode"
    · exact .other (c := ⟨.heimdall, ["detect"]⟩) (by rw [hdetect]; decide) hsent
        (by simp [executeHeimdallStep, hdetect, StepAction.command?]) (by simp)
    · by_cases hprint : name = "print_pit"
      · exact .other (c := ⟨.heimdall, ["print-pit", "--no-reboot"]⟩) (by rw [hprint]; decide) hsent
          (by simp [executeHeimdallStep, hprint, StepAction.command?]) (by simp)
      · by_cases hboot : name = "boot_validation"
        · exact .reboots hboot rfl (by simp [executeHeimdallStep, hboot, StepAction.command?])
        · rcases executeHeimdallStep_flash upper m hdetect hprint hwipe hboot with
            hfails | ⟨args, hflash⟩
          · exact absurd hanswers hfails.not_answers
          · exact .other hboot hsent (by rw [hflash]; rfl) (by simp)

theorem kind_of_answers (hanswers : (executeLiveStep upper plan device m step).Answers) :
    Kind (rebootCommand upper plan device) plan (step.name.getD "")
      (executeLiveStep upper plan device m step) := by
  simp only [rebootCommand, executeLiveStep] at hanswers ⊢
  split_ifs at hanswers ⊢ with hfastboot hsideload hheimdall
  · exact kind_fastboot hfastboot hanswers
  · exact kind_sideload hsideload hanswers
  · exact kind_heimdall hheimdall hanswers
  · exact absurd hanswers (failure_fails _).not_answers

/-- A step that succeeds issues the reboot exactly under the name of the validation. -/
theorem command?_eq_reboot {c : DeviceCommand} (hreboot : rebootCommand upper plan device = some c)
    (hanswers : (executeLiveStep upper plan device m step).Answers) :
    (executeLiveStep upper plan device m step).command? = some c ↔
      step.name.getD "" = "boot_validation" := by
  cases kind_of_answers hanswers with
  | reboots hname hsame hcommand =>
    exact iff_of_true (hcommand.trans (hsame.symm.trans hreboot)) hname
  | unsent hunsent hcommand =>
    rw [hcommand]
    refine iff_of_false nofun fun hname => ?_
    rw [hname] at hunsent
    exact absurd hunsent (by simp [Unsent])
  | other hname hsent hcommand hne =>
    exact iff_of_false (fun h => hne (hreboot.trans (h.symm.trans hcommand))) hname

/-- Only a plan whose mode has a reboot lets a step of that name succeed. -/
theorem exists_reboot (hanswers : (executeLiveStep upper plan device m step).Answers)
    (hname : step.name.getD "" = "boot_validation") : ∃ c, rebootCommand upper plan device = some c := by
  cases kind_of_answers hanswers with
  | reboots _ hreboot _ => exact ⟨_, hreboot⟩
  | unsent hunsent _ =>
    rw [hname] at hunsent
    exact absurd hunsent (by simp [Unsent])
  | other hother _ _ _ => exact absurd hname hother

theorem command?_eq_none (hanswers : (executeLiveStep upper plan device m step).Answers) :
    (executeLiveStep upper plan device m step).command? = none ↔ Unsent plan (step.name.getD "") := by
  cases kind_of_answers hanswers with
  | reboots hname hsame hcommand =>
    rw [hcommand, hname]
    exact iff_of_false nofun (by simp [Unsent])
  | unsent hunsent hcommand => exact iff_of_true hcommand hunsent
  | other hname hsent hcommand hne => exact iff_of_false (by simp [hcommand]) hsent

end Steps

/-! ### The last command -/

/-- The flash steps of the artifacts have one with command text under the name of the validation, and
behind it none with command text that calls a tool. -/
def EndsInValidation (plan : FlashPlan) (steps : List ManifestStep) : Prop :=
  ∃ front step back, steps = front ++ step :: back ∧ step.name = some "boot_validation" ∧
    step.command.getD "" ≠ "" ∧
    ∀ other ∈ back, other.command.getD "" ≠ "" → Unsent plan (other.name.getD "flash_images")

/-- The last command is the reboot of the validation. -/
def EndsInReboot (upper : String → String) (p : Payload) (r : Run) : Prop :=
  ∃ c, rebootCommand upper p.plan p.device = some c ∧ r.issued.getLast? = some c

theorem getLast?_filterMap_eq_some {α β : Type*} {f : α → Option β} {l : List α} {b : β} :
    (l.filterMap f).getLast? = some b ↔
      ∃ front a back, l = front ++ a :: back ∧ f a = some b ∧ ∀ x ∈ back, f x = none := by
  rw [List.getLast?_filterMap, List.findSome?_eq_some_iff]
  constructor
  · rintro ⟨back, a, front, hl, ha, hback⟩
    refine ⟨front.reverse, a, back.reverse, ?_, ha, by simpa using hback⟩
    rw [← List.reverse_reverse l, hl]
    simp
  · rintro ⟨front, a, back, rfl, ha, hback⟩
    exact ⟨back.reverse, a, front.reverse, by simp, ha, by simpa using hback⟩

/-- The steps of the mode never carry the name of the validation. -/
theorem name_modeSteps {installMode transport : String} {step : FlashStep}
    (hstep : step ∈ modeSteps installMode transport) : step.name.getD "" ≠ "boot_validation" := by
  rw [modeSteps] at hstep
  split_ifs at hstep
  all_goals
    simp only [List.mem_cons, List.not_mem_nil, or_false] at hstep
  · rcases hstep with rfl | rfl <;> simp [enterFastboot, wipeFastboot]
  · rcases hstep with rfl | rfl <;> simp [wipeSideload, enterSideload]

/-- The commanded steps of a plan are those of the mode and of the artifacts. -/
theorem commanded_planSteps (transport bundlePath : String) (build : BuildPlan) :
    (planSteps transport bundlePath build).filter commanded =
      (modeSteps build.installMode transport).filter commanded ++
        (build.artifactFlashSteps.map (artifactStep build.selectedOptionLabel)).filter commanded := by
  rw [planSteps_eq]
  simp [List.filter_append, commanded, preflightChecks, verifyBackupBundle, restoreCheckpoint,
    bootValidation]

theorem commanded_artifactStep {label : String} {step : ManifestStep} :
    commanded (artifactStep label step) = true ↔ step.command.getD "" ≠ "" :=
  decide_eq_true_iff

theorem name_artifactStep {label : String} {step : ManifestStep} :
    (artifactStep label step).name.getD "" = "boot_validation" ↔
      step.name = some "boot_validation" := by
  cases hname : step.name <;> simp [artifactStep, hname]

/-- Behind the steps of the mode, none of which issues the command, it is issued last exactly when it
is by a commanded step of the artifacts with none behind it that issues anything. -/
theorem getLast?_issued {f : FlashStep → Option DeviceCommand} {c : DeviceCommand} {label : String}
    {mode : List FlashStep} (hmode : ∀ step ∈ mode, f step ≠ some c) (steps : List ManifestStep) :
    ((mode ++ (steps.map (artifactStep label)).filter commanded).filterMap f).getLast? = some c ↔
      ∃ front step back, steps = front ++ step :: back ∧
        (step.command.getD "" ≠ "" ∧ f (artifactStep label step) = some c) ∧
        ∀ other ∈ back, other.command.getD "" ≠ "" → f (artifactStep label other) = none := by
  have hsteps : ((steps.map (artifactStep label)).filter commanded).filterMap f =
      steps.filterMap fun step =>
        if commanded (artifactStep label step) then f (artifactStep label step) else none := by
    rw [List.filterMap_filter, List.filterMap_map]
    rfl
  have hfirst : (mode.filterMap f).getLast? ≠ some c := by
    intro hlast
    obtain ⟨step, hstep, hcommand⟩ := List.mem_filterMap.mp (List.mem_of_getLast? hlast)
    exact hmode step hstep hcommand
  rw [List.filterMap_append, List.getLast?_append, Option.or_eq_some_iff, hsteps]
  simp only [hfirst, and_false, or_false, getLast?_filterMap_eq_some, commanded_artifactStep,
    Option.ite_none_right_eq_some, ite_eq_right_iff]

/-- A live run that completes ends in the reboot of the boot validation exactly when a flash step of
the artifacts has taken its name: the step of the plan itself is always skipped. -/
theorem ends_in_reboot_iff (upper : String → String) (h : Host) (readFile : String → ManifestFile)
    (p : Payload) (now sessionId transport : String) (supportStatus : Option String)
    (build : BuildPlan) (backup : List (String × String)) (policy : PolicyModel) (liveMode : Bool)
    (hplan : p.plan =
      buildPlan now sessionId transport supportStatus build backup policy liveMode) {r : RunResult}
    (hrun : (run upper h readFile p).ending = .returned r)
    (hstatus : r.status = "live_execution_complete") :
    EndsInReboot upper p (run upper h readFile p) ↔
      EndsInValidation p.plan build.artifactFlashSteps := by
  obtain ⟨m, all, hloop⟩ := run_complete hrun hstatus
  obtain ⟨hissued, hanswers⟩ := runSteps_finished_sent hloop
  have hsteps : p.plan.steps.filter commanded =
      (modeSteps build.installMode transport).filter commanded ++
        (build.artifactFlashSteps.map (artifactStep build.selectedOptionLabel)).filter commanded := by
    rw [hplan]
    exact commanded_planSteps _ _ _
  rw [hsteps] at hissued hanswers
  rw [List.nil_append] at hissued
  have hartifact : ∀ step ∈ build.artifactFlashSteps, step.command.getD "" ≠ "" →
      (executeLiveStep upper p.plan p.device m (artifactStep build.selectedOptionLabel step)).Answers := by
    intro step hstep hcommand
    refine hanswers _ (List.mem_append_right _ (List.mem_filter.mpr ⟨List.mem_map_of_mem hstep, ?_⟩))
    exact commanded_artifactStep.mpr hcommand
  have hmode : ∀ c, rebootCommand upper p.plan p.device = some c →
      ∀ step ∈ (modeSteps build.installMode transport).filter commanded,
        (executeLiveStep upper p.plan p.device m step).command? ≠ some c := by
    intro c hreboot step hstep hcommand
    have hname := (command?_eq_reboot hreboot (hanswers step (List.mem_append_left _ hstep))).mp hcommand
    exact name_modeSteps (List.mem_filter.mp hstep).1 hname
  constructor
  · rintro ⟨c, hreboot, hlast⟩
    rw [hissued, getLast?_issued (hmode c hreboot)] at hlast
    obtain ⟨front, step, back, heq, ⟨hcommand, hstep⟩, hback⟩ := hlast
    refine ⟨front, step, back, heq, ?_, hcommand, fun other hother hcommand' => ?_⟩
    · have hname := (command?_eq_reboot hreboot (hartifact step (by simp [heq]) hcommand)).mp hstep
      exact name_artifactStep.mp hname
    · exact (command?_eq_none (hartifact other (by simp [heq, hother]) hcommand')).mp
        (hback other hother hcommand')
  · rintro ⟨front, step, back, heq, hname, hcommand, hback⟩
    have hstep := hartifact step (by simp [heq]) hcommand
    obtain ⟨c, hreboot⟩ := exists_reboot hstep (name_artifactStep.mpr hname)
    refine ⟨c, hreboot, ?_⟩
    rw [hissued, getLast?_issued (hmode c hreboot)]
    refine ⟨front, step, back, heq, ⟨hcommand, ?_⟩, fun other hother hcommand' => ?_⟩
    · exact (command?_eq_reboot hreboot hstep).mpr (name_artifactStep.mpr hname)
    · exact (command?_eq_none (hartifact other (by simp [heq, hother]) hcommand')).mpr
        (hback other hother hcommand')

/-! ### A run that leaves the device in the bootloader -/

/-- Images for a device that is visible to `adb`. -/
def bootBuild : BuildPlan where
  artifactsReady := true
  installMode := "fastboot_images"
  artifactManifestPath := "/s/artifact-manifest.json"
  artifactFlashSteps := [{ name := some "flash_boot", command := some "fastboot flash boot boot.img" }]

def bootPlan (build : BuildPlan) : FlashPlan :=
  buildPlan "t0" "s" Transport.usbAdb.value (some "actionable") build []
    { allowLiveDestructiveActions := true } true

def bootPayload (build : BuildPlan) : Payload where
  plan := bootPlan build
  approval :=
    { sessionId := "s", approved := true, confirmationPhrase := wipePhrase
      restorePathConfirmed := true }
  policy := { allowLiveDestructiveActions := true }
  device := "R58"
  sessionDir := "/s"
  dryRun := false

def bootManifest : Manifest where
  status := some "ready"
  stagedFiles := ["/s/staged/boot.img"]
  flashSteps := [{ name := some "flash_boot", command := some "fastboot flash boot boot.img" }]

/-- What the run issues, and its status. -/
def bootRun (build : BuildPlan) : List DeviceCommand × Option String :=
  let r := run asciiUpper .obliging (fun _ => .readable bootManifest) (bootPayload build)
  (r.issued, match r.ending with | .returned result => some result.status | .raised _ => none)

/-- The run completes, and the device stays in the bootloader. -/
theorem no_reboot_issued :
    (bootRun bootBuild).2 = some "live_execution_complete" ∧
      ¬EndsInReboot asciiUpper (bootPayload bootBuild)
        (run asciiUpper .obliging (fun _ => .readable bootManifest) (bootPayload bootBuild)) := by
  have hrun : bootRun bootBuild =
      ([⟨.adb, ["-s", "R58", "reboot", "bootloader"]⟩, ⟨.fastboot, ["-s", "R58", "erase", "userdata"]⟩,
          ⟨.fastboot, ["-s", "R58", "flash", "boot", "/s/staged/boot.img"]⟩],
        some "live_execution_complete") := by
    decide
  refine ⟨congrArg Prod.snd hrun, ?_⟩
  rintro ⟨c, hreboot, hlast⟩
  rw [show (run asciiUpper .obliging (fun _ => .readable bootManifest) (bootPayload bootBuild)).issued =
    _ from congrArg Prod.fst hrun] at hlast
  have hc : rebootCommand asciiUpper (bootPayload bootBuild).plan (bootPayload bootBuild).device =
      some ⟨.fastboot, ["-s", "R58", "reboot"]⟩ := by
    decide
  rw [hc] at hreboot
  rw [← hreboot] at hlast
  exact absurd hlast (by decide)

/-- The same images, and a flash step under the name of the validation behind them. -/
def validatedBuild : BuildPlan :=
  { bootBuild with
    artifactFlashSteps := bootBuild.artifactFlashSteps ++
      [{ name := some "boot_validation", command := some "fastboot reboot" }] }

theorem ends_in_reboot_validated : EndsInReboot asciiUpper (bootPayload validatedBuild)
    (run asciiUpper .obliging (fun _ => .readable bootManifest) (bootPayload validatedBuild)) := by
  have hstatus : (bootRun validatedBuild).2 = some "live_execution_complete" := by decide
  simp only [bootRun] at hstatus
  split at hstatus
  · next result hend =>
    refine (ends_in_reboot_iff asciiUpper .obliging (fun _ => .readable bootManifest)
      (bootPayload validatedBuild) _ _ _ _ _ _ _ _ rfl hend (Option.some.inj hstatus)).mpr ?_
    exact ⟨bootBuild.artifactFlashSteps, _, [], rfl, rfl, by decide, by simp⟩
  · cases hstatus

end ForgeOS.Flash
