import ForgeOS.Image.Encoding

/-! What stands behind the wipe. The wipe step of a plan comes before every flash
step, and the executor resolves a step only when it reaches it. For a plan and a
manifest from one run of the builder this is enough: every later step that is to
be sent, except the reboot into sideload mode, comes to a staged file of the
manifest, so a run that has wiped the device can fail at a tool or at the device
but not at a lookup. For a manifest that is not the plan's own there is no such
promise. -/

namespace ForgeOS.Image

open ForgeOS.Python ForgeOS.Flash

variable {β : Type*} {v : FileView β} {j : BuildJob} {a a' : BuildArea β} {f : Found β}

/-- The action hands a staged file of the manifest to a tool. -/
def ResolvesToStaged (m : Manifest) : StepAction → Prop
  | .fastboot args => ∃ pre partition path, args = pre ++ ["flash", partition, path] ∧
      path ∈ m.stagedFiles
  | .adb args => ∃ pre path, args = pre ++ ["sideload", path] ∧ path ∈ m.stagedFiles
  | .heimdall args _ => ∃ path ∈ args, path ∈ m.stagedFiles
  | .reply _ | .raise _ => False

/-- The command erases the user data. -/
def isWipe (c : DeviceCommand) : Bool :=
  decide (["erase", "userdata"] <:+ c.args) ||
    decide (["shell", "recovery", "--wipe_data"] <:+ c.args)

theorem stagedPath_mem {n : FileName} {c : β} (h : (n, c) ∈ f.staged) :
    stagedPath j n ∈ (f.manifest j).stagedFiles :=
  List.mem_map.mpr ⟨(n, c), h, rfl⟩

/-- Everything the builder means to flash is a staged file of its manifest. -/
theorem intended_staged (upper : String → String) (serial : String)
    (hheimdall : ∀ s, f ≠ .heimdall [] s) :
    ∀ act ∈ f.intended upper j serial, ResolvesToStaged (f.manifest j) act := by
  intro act hact
  cases f with
  | heimdall images s =>
    rw [List.mem_singleton.mp hact]
    have hne : images ≠ [] := fun hnil => hheimdall s (by rw [hnil])
    obtain ⟨i, rest, rfl⟩ := List.exists_cons_of_ne_nil hne
    exact ⟨stagedPath j i.name, by simp,
      stagedPath_mem (f := .heimdall (i :: rest) s) (List.mem_map.mpr ⟨i, by simp, rfl⟩)⟩
  | sideload n c =>
    rw [List.mem_singleton.mp hact]
    exact ⟨_, _, rfl, stagedPath_mem (f := .sideload n c) (List.mem_singleton.mpr rfl)⟩
  | fastboot images s =>
    obtain ⟨i, hi, rfl⟩ := List.mem_map.mp hact
    exact ⟨_, _, _, rfl, stagedPath_mem (f := .fastboot images s) (List.mem_map.mpr ⟨i, hi, rfl⟩)⟩
  | nothing => simp [Found.intended] at hact

variable (upper title : String → String) (policy : PolicyModel) (i : PlanInputs)

theorem Found.flashSteps_not_wipe (f : Found β) (label : String) :
    ∀ step ∈ f.flashSteps.map (artifactStep label), step.name ≠ some "wipe_userdata" := by
  intro step hstep
  obtain ⟨m, hm, rfl⟩ := List.mem_map.mp hstep
  cases f with
  | heimdall images s =>
    rw [List.mem_singleton.mp hm]
    simp [artifactStep, heimdallStep]
  | sideload n c =>
    rw [List.mem_singleton.mp hm]
    simp [artifactStep, sideloadStep]
  | fastboot images s =>
    obtain ⟨i, -, rfl⟩ := List.mem_map.mp hm
    intro h
    have hlist := congrArg String.toList (Option.some.inj h)
    simp [fastbootStep] at hlist
  | nothing => simp [Found.flashSteps] at hm

/-- The steps of a plan that stand behind its wipe step: the reboot into sideload
mode, the flash steps of the manifest and the boot validation. -/
theorem mem_after_wipe (f : Found β) {pre post : List FlashStep} {w step : FlashStep}
    (hsteps : (planFor title policy i (f.artifacts j)).steps = pre ++ w :: post)
    (hw : w.name = some "wipe_userdata") (hstep : step ∈ post) :
    step = enterSideload ∨ step = bootValidation ∨
      step ∈ flashStepsOf (planFor title policy i (f.artifacts j)) := by
  have hflash : flashStepsOf (planFor title policy i (f.artifacts j)) =
      f.flashSteps.map (artifactStep (resolveBuild title i.request).selectedOptionLabel) :=
    flashStepsOf_sessionPlan title policy { i with built := f.artifacts j } f.flashSteps_kind
  have hplan : (planFor title policy i (f.artifacts j)).steps =
      [preflightChecks, verifyBackupBundle ((dictGet i.backup "backup_bundle_path").getD "unknown"),
          restoreCheckpoint] ++
        (modeSteps f.mode i.transport.value ++
          f.flashSteps.map (artifactStep (resolveBuild title i.request).selectedOptionLabel)) ++
        [bootValidation] :=
    planSteps_eq i.transport.value ((dictGet i.backup "backup_bundle_path").getD "unknown")
      (stagedBuildPlan (resolveBuild title i.request) (f.artifacts j))
  rw [hflash]
  rw [hplan] at hsteps
  have hnotflash : w ∉ f.flashSteps.map
      (artifactStep (resolveBuild title i.request).selectedOptionLabel) ++ [bootValidation] := by
    intro hmem
    rcases List.mem_append.mp hmem with hmem | hmem
    · exact f.flashSteps_not_wipe _ w hmem hw
    · rw [List.mem_singleton.mp hmem] at hw
      exact absurd (Option.some.inj hw) (by decide)
  have hne : ∀ {step : FlashStep}, step.name ≠ some "wipe_userdata" → w ≠ step := by
    rintro step hname rfl
    exact hname hw
  have hbase : w ∉ [preflightChecks,
      verifyBackupBundle ((dictGet i.backup "backup_bundle_path").getD "unknown"),
      restoreCheckpoint] := by
    simp only [List.mem_cons, List.not_mem_nil, or_false, not_or]
    exact ⟨hne (by decide), hne (by simp [verifyBackupBundle]), hne (by decide)⟩
  -- the wipe step occurs once, so what follows it is read off the mode
  by_cases hfast : f.mode = "fastboot_images"
  · have hmode : modeSteps f.mode i.transport.value =
        [enterFastboot i.transport.value, wipeFastboot] := if_pos hfast
    rw [hmode, show ∀ (b F B : List FlashStep) e u, b ++ ([e, u] ++ F) ++ B =
      (b ++ [e]) ++ u :: (F ++ B) by simp] at hsteps
    have hnotbefore : w ∉ [preflightChecks, verifyBackupBundle
        ((dictGet i.backup "backup_bundle_path").getD "unknown"), restoreCheckpoint] ++
          [enterFastboot i.transport.value] := by
      rw [List.mem_append, not_or]
      exact ⟨hbase, by simpa using hne (by simp [enterFastboot])⟩
    obtain ⟨-, -, hpost⟩ := (List.append_cons_inj_of_notMem hnotbefore hnotflash).mp hsteps
    rw [← hpost] at hstep
    rcases List.mem_append.mp hstep with h | h
    · exact .inr (.inr h)
    · exact .inr (.inl (List.mem_singleton.mp h))
  · by_cases hside : f.mode = "adb_sideload"
    · have hmode : modeSteps f.mode i.transport.value = [wipeSideload, enterSideload] := by
        simp [modeSteps, hside]
      rw [hmode, show ∀ (b F B : List FlashStep) u e, b ++ ([u, e] ++ F) ++ B =
        b ++ u :: ([e] ++ (F ++ B)) by simp] at hsteps
      have hnotbehind : w ∉ [enterSideload] ++ (f.flashSteps.map
          (artifactStep (resolveBuild title i.request).selectedOptionLabel) ++
            [bootValidation]) := by
        rw [List.mem_append, not_or]
        exact ⟨by simpa using hne (by decide), hnotflash⟩
      obtain ⟨-, -, hpost⟩ := (List.append_cons_inj_of_notMem hbase hnotbehind).mp hsteps
      rw [← hpost] at hstep
      rcases List.mem_append.mp hstep with h | h
      · exact .inl (List.mem_singleton.mp h)
      · rcases List.mem_append.mp h with h | h
        · exact .inr (.inr h)
        · exact .inr (.inl (List.mem_singleton.mp h))
    · exfalso
      have hmode : modeSteps f.mode i.transport.value = [] := by
        simp [modeSteps, hfast, hside]
      have hmem : w ∈ [preflightChecks, verifyBackupBundle
          ((dictGet i.backup "backup_bundle_path").getD "unknown"), restoreCheckpoint] ++
          ([] ++ f.flashSteps.map
            (artifactStep (resolveBuild title i.request).selectedOptionLabel)) ++
          [bootValidation] := by
        rw [hmode] at hsteps
        rw [hsteps]
        simp
      rw [List.nil_append, List.append_assoc] at hmem
      exact (List.mem_append.mp hmem).elim hbase hnotflash

/-- For a plan and a manifest from one run of the builder, without a blank in the
name of a sideload package: a live run sends a wipe only if every later step with
a command, the reboot into sideload mode aside, comes to a staged file of that
manifest. -/
theorem wipe_only_before_staged (h : Host) (readFile : String → ManifestFile) (p : Payload)
    (hcollect : collect v j a = .ok (a', f))
    (hblank : ∀ n c, findSideloadZip v (a.withReadme v).source = .ok (some (n, c)) →
      looseHeimdall v j (a.withReadme v).source ≠ [] ∨ Unspaced n.val)
    (hplan : p.plan = { planFor title policy i (f.artifacts j) with dryRun := p.plan.dryRun })
    (hload : loadArtifactManifest readFile p.plan = .readable (f.manifest j)) :
    (∃ c ∈ (run upper h readFile p).issued, isWipe c = true) →
      ∀ pre w post, p.plan.steps = pre ++ w :: post → w.name = some "wipe_userdata" →
        ∀ step ∈ post, commanded step = true → step ≠ enterSideload →
          loadArtifactManifest readFile p.plan = .readable (f.manifest j) ∧
            ResolvesToStaged (f.manifest j)
              (executeLiveStep upper p.plan p.device (f.manifest j) step) := by
  intro _ pre w post hsteps hw step hstep hcommanded hnot
  refine ⟨hload, ?_⟩
  have hunspaced : ∀ n c, f = .sideload n c → Unspaced n.val := by
    intro n c hf
    obtain ⟨hzip, hnil⟩ := (collect_sideload_iff hcollect n c).mp hf
    exact (hblank n c hzip).resolve_left fun hne => hne hnil
  have hintended := (resolvedSteps_intended_iff upper title policy i p.device hcollect).mpr hunspaced
  have hplansteps : (planFor title policy i (f.artifacts j)).steps = pre ++ w :: post := by
    rw [← hsteps, hplan]
  rcases mem_after_wipe title policy i f hplansteps hw hstep with hs | hs | hs
  · exact absurd hs hnot
  · rw [hs] at hcommanded
    exact absurd hcommanded (by decide)
  · have hact : executeLiveStep upper p.plan p.device (f.manifest j) step ∈
        f.intended upper j (strip p.device) := by
      rw [← hintended, hplan]
      exact List.mem_map.mpr ⟨step, hs, rfl⟩
    refine intended_staged upper (strip p.device) (fun s hf => ?_) _ hact
    obtain ⟨files, s', hf', hne⟩ | ⟨n, c, hf'⟩ | ⟨look, s', hf'⟩ | hf' := collect_found hcollect
    · rw [hf'] at hf
      exact hne (Found.heimdall.inj hf).1
    all_goals rw [hf'] at hf; cases hf

/-! ### Runs that wipe -/

def wipePolicy : PolicyModel := { allowLiveDestructiveActions := true }

def wipePayload (built : BuildArtifacts) : Payload where
  plan := { planFor asciiTitle wipePolicy unattestedInputs built with dryRun := false }
  approval := approvedSession.approval
  policy := wipePolicy
  device := "R58"
  sessionDir := "/s"
  dryRun := false

/-- What the builder finds when `lineage.zip` lies in `os-source`. -/
def lineageFound : Found String := .sideload (fileName "lineage.zip") "ota"

theorem wipe_only_before_staged_lineage :
    (∃ c ∈ (run asciiUpper .obliging
        (fun _ => .readable (lineageFound.manifest { sessionDir := "/s" }))
        (wipePayload (lineageFound.artifacts { sessionDir := "/s" }))).issued, isWipe c = true) ∧
      ∀ pre w post,
        (wipePayload (lineageFound.artifacts { sessionDir := "/s" })).plan.steps =
            pre ++ w :: post → w.name = some "wipe_userdata" →
          ∀ step ∈ post, commanded step = true → step ≠ enterSideload →
            loadArtifactManifest (fun _ => .readable (lineageFound.manifest { sessionDir := "/s" }))
                (wipePayload (lineageFound.artifacts { sessionDir := "/s" })).plan =
                .readable (lineageFound.manifest { sessionDir := "/s" }) ∧
              ResolvesToStaged (lineageFound.manifest { sessionDir := "/s" })
                (executeLiveStep asciiUpper
                  (wipePayload (lineageFound.artifacts { sessionDir := "/s" })).plan "R58"
                  (lineageFound.manifest { sessionDir := "/s" }) step) := by
  have hwipe : ∃ c ∈ (run asciiUpper .obliging
      (fun _ => .readable (lineageFound.manifest { sessionDir := "/s" }))
      (wipePayload (lineageFound.artifacts { sessionDir := "/s" }))).issued, isWipe c = true := by
    decide
  have hzip : findSideloadZip textView
      ((oneFile (fileName "lineage.zip") "ota").withReadme textView).source =
        .ok (some (fileName "lineage.zip", "ota")) := rfl
  refine ⟨hwipe, wipe_only_before_staged (v := textView)
    (a := oneFile (fileName "lineage.zip") "ota") asciiUpper asciiTitle wipePolicy
    unattestedInputs .obliging _ _ rfl (fun n c hn => .inr ?_) rfl rfl hwipe⟩
  rw [hzip] at hn
  cases hn
  decide

/-- A sideload run wipes although the reboot behind the wipe is no staged file, and
a run on a manifest that lacks a step of the plan wipes and then stops at it. -/
theorem wipe_before_unresolved :
    ((run asciiUpper .obliging (fun _ => .readable (lineageFound.manifest { sessionDir := "/s" }))
        (wipePayload (lineageFound.artifacts { sessionDir := "/s" }))).issued =
        [⟨.adb, ["-s", "R58", "shell", "recovery", "--wipe_data"]⟩,
          ⟨.adb, ["-s", "R58", "reboot", "sideload"]⟩,
          ⟨.adb, ["-s", "R58", "sideload", "/s/runtime/build/staged/lineage.zip"]⟩] ∧
      ¬ResolvesToStaged (lineageFound.manifest { sessionDir := "/s" })
        (executeLiveStep asciiUpper
          (wipePayload (lineageFound.artifacts { sessionDir := "/s" })).plan "R58"
          (lineageFound.manifest { sessionDir := "/s" }) enterSideload)) ∧
    ((run asciiUpper .obliging (fun _ => .readable { status := some "ready" })
        (wipePayload unattestedInputs.built)).issued =
        [⟨.adb, ["-s", "R58", "reboot", "bootloader"]⟩,
          ⟨.fastboot, ["-s", "R58", "erase", "userdata"]⟩] ∧
      executeLiveStep asciiUpper (wipePayload unattestedInputs.built).plan "R58"
          { status := some "ready" } { name := some "flash_boot" } =
        .reply { ok := false, reason := some "No manifest step for flash_boot" }) := by
  refine ⟨⟨by decide, ?_⟩, by decide, by decide⟩
  have hact : executeLiveStep asciiUpper
      (wipePayload (lineageFound.artifacts { sessionDir := "/s" })).plan "R58"
      (lineageFound.manifest { sessionDir := "/s" }) enterSideload =
        .adb ["-s", "R58", "reboot", "sideload"] := by decide
  rw [hact]
  rintro ⟨pre, path, hargs, hpath⟩
  have hlast := congrArg List.getLast? hargs
  simp only [List.getLast?_append, List.getLast?_cons_cons, List.getLast?_singleton,
    Option.some_or, Option.some.injEq] at hlast
  rw [← hlast] at hpath
  exact absurd hpath (by decide)

end ForgeOS.Image
