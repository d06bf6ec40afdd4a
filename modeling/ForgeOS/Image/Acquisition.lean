import ForgeOS.Image.Compatibility

/-! Which staged artifacts a flash plan has steps for. The runtime cycle asks the starter loop when
the builder has found nothing to stage, and the source resolver and the source builder behind it;
what the builder finds goes into the flash plan unasked. -/

namespace ForgeOS.Image

open ForgeOS.Python ForgeOS.Flash

variable {β : Type*}

/-! ### The artifacts of a cycle -/

/-- The files of `os-source` by name. -/
def stagedFiles (v : FileView β) (d : Dir β) : List StagedFile :=
  (d.sortedGlob "*").filterMap fun e => match e.2 with
    | .file c => some ⟨e.1, v.size c⟩
    | .folder => none

/-- `StarterTroubleshootingLoop.run`: the result, and `os-source` as it leaves it. The files that
are moved away go to `artifacts/rejected`, which nothing reads. -/
def runStarter (v : FileView β) (j : BuildJob) (s : HardwareSnapshot) (x : StarterInputs)
    (d : Dir β) : StarterResult × Dir β :=
  let result := starterLoop v.lower j.sourceDir s x (stagedFiles v d)
  (result, d.without (result.quarantinedArtifacts.map ReviewedArtifact.name))

/-- What the parts of a cycle outside this model do about a missing source. -/
structure Acquisition (β : Type*) where
  executeWorkers : Bool := true
  lawfulUseAttested : Bool := false
  /-- The product memory, as the first call of the starter loop finds it. -/
  sourceBlockerCount : ℤ := 0
  lessons : List String := []
  /-- `os-source` as the source resolver leaves it, and whether its status is `ok`. -/
  resolve : Dir β → Dir β × Bool
  /-- The transcript of an earlier build asks for the repo tool. -/
  repoRequired : Bool := false
  /-- `os-source` as the source builder leaves it. -/
  build : Dir β → Dir β

/-- The end of `_resolve_missing_source_artifacts`, for a source that the resolver did not find. -/
def buildMissing (v : FileView β) (j : BuildJob) (c : Acquisition β) (a : BuildArea β)
    (initial : BuildArea β × BuildRun β) : Except String (BuildArea β × BuildRun β) :=
  if c.repoRequired then .ok initial
  else
    let a := { a with source := c.build a.source }
    (buildImages v j a).map fun out => (a, out)

/-- `_resolve_missing_source_artifacts`. A report of the builder goes together with the session as
it was before that run. -/
def resolveMissing (v : FileView β) (j : BuildJob) (c : Acquisition β) (a : BuildArea β)
    (initial : BuildArea β × BuildRun β) : Except String (BuildArea β × BuildRun β) :=
  if !c.executeWorkers || j.osPath == some "research_only_path" || !c.lawfulUseAttested then
    .ok initial
  else
    let resolved := { a with source := (c.resolve a.source).1 }
    if (c.resolve a.source).2 then
      match buildImages v j resolved with
      | .error e => .error e
      | .ok out =>
        if out.artifacts.status = "ready" then .ok (resolved, out)
        else buildMissing v j c out.area initial
    else buildMissing v j c resolved initial

/-- The part of `_run_runtime_cycle` that comes to the artifacts of the flash plan. -/
def gatherArtifacts (v : FileView β) (j : BuildJob) (s : HardwareSnapshot) (c : Acquisition β)
    (a : BuildArea β) : Except String (BuildArea β × BuildRun β) :=
  match buildImages v j a with
  | .error e => .error e
  | .ok out =>
    if out.artifacts.status = "ready" then .ok (a, out)
    else
      let gate := runStarter v j s
        { blockerType := "source_blocker"
          artifactsStatus := some out.artifacts.status
          sourceBlockerCount := c.sourceBlockerCount
          lessons := c.lessons } out.area.source
      if !gate.1.modelWorkerAllowed && !gate.1.machineWorkerAllowed then .ok (a, out)
      else resolveMissing v j c { out.area with source := gate.2 } (a, out)

/-! ### The sessions that the builder sees -/

/-- A call of the builder finds nothing to stage. -/
structure Bare (v : FileView β) (j : BuildJob) (a : BuildArea β) : Prop where
  loose : UsesArchives v j a
  fastboot : (extractFastbootFrom v a (fastbootArchives a.source)).2 = none
  samsung : preferHeimdall v j = true →
    (extractSamsung v (extractFastbootFrom v a (fastbootArchives a.source)).1).2 = []

/-- The session behind such a call: the archives have been unpacked. -/
def BuildArea.unpacked (v : FileView β) (j : BuildJob) (a : BuildArea β) : BuildArea β :=
  let b := (extractFastbootFrom v a (fastbootArchives a.source)).1
  if preferHeimdall v j then (extractSamsung v b).1 else b

/-- The files that the starter loop moves away for a missing source: all, if none fits. -/
def misfits (v : FileView β) (s : HardwareSnapshot) (d : Dir β) : List FileName :=
  let names := ((stagedFiles v d).map StagedFile.name).filter fun n => n.val ≠ "README.md"
  if names.any fun n => s.rejection v.lower n = "" then [] else names

variable (v : FileView β) (j : BuildJob) (s : HardwareSnapshot) (c : Acquisition β)
  (a : BuildArea β)

/-- The session that the source resolver finds. -/
def soughtFor : BuildArea β :=
  let b := (a.withReadme v).unpacked v j
  { b with source := b.source.without (misfits v s b.source) }

/-- The session as the source resolver leaves it. -/
def resolvedFor : BuildArea β :=
  { soughtFor v j s a with source := (c.resolve (soughtFor v j s a).source).1 }

/-- The session as the source builder leaves it. If the resolver has staged something, the builder
has looked at that before. -/
def builtFor : BuildArea β :=
  let b := if (c.resolve (soughtFor v j s a).source).2 then
      ((resolvedFor v j s c a).withReadme v).unpacked v j
    else resolvedFor v j s c a
  { b with source := c.build b.source }

/-- The cycle looks for sources. -/
structure Searches (j : BuildJob) (c : Acquisition β) : Prop where
  workers : c.executeWorkers = true
  path : j.osPath ≠ some "research_only_path"
  attested : c.lawfulUseAttested = true

/-- The sessions that the builder is called for in a cycle: the one at its start, and where it finds
nothing those that the source resolver and the source builder leave. -/
inductive Offered : BuildArea β → Prop
  | start : Offered a
  | resolved (hbare : Bare v j (a.withReadme v)) (hsearches : Searches j c)
      (hresolved : (c.resolve (soughtFor v j s a).source).2 = true) : Offered (resolvedFor v j s c a)
  | built (hbare : Bare v j (a.withReadme v)) (hsearches : Searches j c)
      (hrepo : c.repoRequired = false)
      (hresolved : (c.resolve (soughtFor v j s a).source).2 = true →
        Bare v j ((resolvedFor v j s c a).withReadme v)) : Offered (builtFor v j s c a)

variable {v j s c a} {a' : BuildArea β} {f : Found β}

theorem Bare.fits (hlower : KeepsSmall v.lower) (h : Bare v j a) : Fits v j s a := by
  rw [h.loose.fits_iff hlower]
  intro _ hprefer
  rw [h.samsung hprefer]
  exact fun i hi => absurd hi List.not_mem_nil

theorem chooseFound_ready_iff {images : List (FoundImage β)} {zip : Option (FileName × β)}
    {fastboot : List (FoundImage β)} {text : String} :
    (chooseFound images zip fastboot text).ready = false ↔ images = [] ∧ zip = none ∧ fastboot = [] := by
  rcases eq_or_ne images [] with rfl | himages
  · cases zip with
    | some z => simp [chooseFound_sideload, Found.ready]
    | none =>
      rcases eq_or_ne fastboot [] with rfl | hfast
      · simp [chooseFound_nothing, Found.ready]
      · simp [chooseFound_fastboot hfast, Found.ready, hfast]
  · simp [chooseFound_heimdall himages, Found.ready, himages]

/-- With nothing loose, what the archives hold decides. -/
theorem archives_nothing (huses : UsesArchives v j a)
    (h : (match extractFastbootFrom v a (fastbootArchives a.source) with
      | (b, some (folder, images)) =>
        (.ok (b, .fastboot images (join j.extractedDir folder)) : Except String (BuildArea β × Found β))
      | (b, none) =>
        if preferHeimdall v j then
          .ok ((extractSamsung v b).1, chooseFound (extractSamsung v b).2 none [] "")
        else .ok (b, .nothing)) = .ok (a', f)) :
    (f.ready = false ↔ Bare v j a) ∧ (f.ready = false → a' = a.unpacked v j) := by
  have hbare : Bare v j a ↔ (extractFastbootFrom v a (fastbootArchives a.source)).2 = none ∧
      (preferHeimdall v j = true →
        (extractSamsung v (extractFastbootFrom v a (fastbootArchives a.source)).1).2 = []) :=
    ⟨fun hb => ⟨hb.fastboot, hb.samsung⟩, fun hb => ⟨huses, hb.1, hb.2⟩⟩
  rw [hbare, BuildArea.unpacked]
  rcases hext : extractFastbootFrom v a (fastbootArchives a.source) with ⟨b, _ | ⟨folder, images⟩⟩
  · simp only [hext] at h
    split_ifs at h with hprefer
    · cases h
      simp [chooseFound_ready_iff, hprefer]
    · cases h
      simp [Found.ready, hprefer]
  · simp only [hext] at h
    cases h
    simp [Found.ready]

/-- The builder finds nothing exactly when the session is bare, and then unpacks the archives. -/
theorem collect_nothing (h : collect v j a = .ok (a', f)) :
    (f.ready = false ↔ Bare v j (a.withReadme v)) ∧
      (f.ready = false → a' = (a.withReadme v).unpacked v j) := by
  simp only [collect] at h
  generalize a.withReadme v = b at h ⊢
  cases hzip : findSideloadZip v b.source with
  | error e =>
    simp only [hzip] at h
    cases h
  | ok zip =>
    simp only [hzip] at h
    by_cases hnothing : (zip.isNone && (findFastbootImages v b.source.file?).isEmpty &&
        (looseHeimdall v j b.source).isEmpty) = true
    · rw [if_pos hnothing] at h
      simp only [Bool.and_eq_true, Option.isNone_iff_eq_none, List.isEmpty_iff] at hnothing
      exact archives_nothing ⟨by rw [hzip, hnothing.1.1], hnothing.1.2, hnothing.2⟩ h
    · rw [if_neg hnothing] at h
      cases h
      have hready : (chooseFound (looseHeimdall v j a'.source) zip
          (findFastbootImages v a'.source.file?)
          ((zip.map fun z => join j.sourceDir z.1.val).getD "")).ready ≠ false := by
        rw [ne_eq, chooseFound_ready_iff]
        rintro ⟨hloose, rfl, hfast⟩
        exact hnothing (by rw [hfast, hloose]; rfl)
      refine ⟨⟨fun hnot => absurd hnot hready, ?_⟩, fun hnot => absurd hnot hready⟩
      rintro ⟨⟨hnone, hfast, hloose⟩, -, -⟩
      rw [hzip] at hnone
      cases hnone
      exact absurd (by rw [hfast, hloose]; rfl) hnothing

theorem buildImages_ready {out : BuildRun β} (h : buildImages v j a = .ok out) :
    (out.artifacts.status = "ready" ↔ ¬Bare v j (a.withReadme v)) ∧
      (out.artifacts.status ≠ "ready" → out.area = (a.withReadme v).unpacked v j) := by
  obtain ⟨f, hcollect, hartifacts, -⟩ := buildImages_ok h
  obtain ⟨hbare, harea⟩ := collect_nothing hcollect
  have hstatus : out.artifacts.status = "ready" ↔ f.ready = true := by
    rw [hartifacts, Found.artifacts]
    cases f.ready <;> simp
  rw [ne_eq, hstatus, ← hbare, Bool.not_eq_false, Bool.not_eq_true]
  exact ⟨Iff.rfl, harea⟩

/-! ### The starter loop -/

/-- For a missing source it moves away what does not fit, if nothing does. -/
theorem runStarter_source {x : StarterInputs} (hx : x.blockerType = "source_blocker") (d : Dir β) :
    (runStarter v j s x d).2 = d.without (misfits v s d) := by
  have hnames : (quarantined x (reviewFiles v.lower j.sourceDir s (stagedFiles v d))).map
      ReviewedArtifact.name = misfits v s d := by
    simp only [quarantined, reviewFiles, misfits, hx, true_and, List.filter_map, Function.comp_def]
    generalize (stagedFiles v d).filter (fun f => decide (f.name.val ≠ "README.md")) = files
    by_cases hfits : ∃ f ∈ files, s.rejection v.lower f.name = ""
    · obtain ⟨f, hf, hreason⟩ := hfits
      rw [if_neg, if_pos]
      · rfl
      · exact List.any_eq_true.mpr ⟨f.name, List.mem_map_of_mem hf, decide_eq_true hreason⟩
      · refine List.ne_nil_of_mem (List.mem_map_of_mem (List.mem_filter.mpr ⟨hf, ?_⟩))
        exact decide_eq_true hreason
    · have hall : ∀ f ∈ files, (f.reviewed v.lower j.sourceDir s).reason ≠ "" :=
        fun f hf hreason => hfits ⟨f, hf, hreason⟩
      rw [if_pos, if_neg]
      · rw [List.filter_eq_self.mpr fun f hf => decide_eq_true (hall f hf), List.map_map]
        rfl
      · simpa [StagedFile.reviewed] using hall
      · rw [List.filter_eq_nil_iff.mpr fun f hf => by simpa using hall f hf, List.map_nil]
  rw [← hnames]
  rfl

/-- The starter loop does not keep the cycle from looking for sources. -/
theorem runStarter_gate {x : StarterInputs} (hx : x.machineRemediationAllowed = true) (d : Dir β) :
    (!(runStarter v j s x d).1.modelWorkerAllowed && !(runStarter v j s x d).1.machineWorkerAllowed) =
      false := by
  have hmachine : (runStarter v j s x d).1.machineWorkerAllowed = x.machineRemediationAllowed :=
    starterVerdict_machineWorkerAllowed _ _ _
  rw [hmachine, hx, Bool.not_true, Bool.and_false]

/-! ### The last session -/

theorem resolveMissing_searches {initial : BuildArea β × BuildRun β} (h : Searches j c) :
    resolveMissing v j c (soughtFor v j s a) initial =
      if (c.resolve (soughtFor v j s a).source).2 then
        match buildImages v j (resolvedFor v j s c a) with
        | .error e => .error e
        | .ok out =>
          if out.artifacts.status = "ready" then .ok (resolvedFor v j s c a, out)
          else buildMissing v j c out.area initial
      else buildMissing v j c (resolvedFor v j s c a) initial := by
  have hpath : (j.osPath == some "research_only_path") = false := by
    rw [beq_eq_false_iff_ne]
    exact h.path
  simp only [resolveMissing, h.workers, h.attested, hpath, Bool.not_true, Bool.or_self,
    Bool.false_eq_true, if_false]
  rfl

theorem resolveMissing_not {b : BuildArea β} {initial : BuildArea β × BuildRun β}
    (h : ¬Searches j c) : resolveMissing v j c b initial = .ok initial := by
  rw [resolveMissing, if_pos]
  by_contra hnot
  simp only [Bool.or_eq_true, Bool.not_eq_true', beq_iff_eq, not_or, Bool.not_eq_false] at hnot
  obtain ⟨⟨hworkers, hpath⟩, hattested⟩ := hnot
  exact h ⟨hworkers, hpath, hattested⟩

/-- The source builder is called or not; its report comes from the session as it leaves it. -/
theorem buildMissing_cases {b : BuildArea β} {initial r : BuildArea β × BuildRun β}
    (h : buildMissing v j c b initial = .ok r) :
    (c.repoRequired = true ∧ r = initial) ∨
      (c.repoRequired = false ∧ r.1 = { b with source := c.build b.source } ∧
        buildImages v j r.1 = .ok r.2) := by
  unfold buildMissing at h
  split_ifs at h with hrepo
  · cases h
    exact .inl ⟨hrepo, rfl⟩
  · right
    cases hout : buildImages v j { b with source := c.build b.source } with
    | error e => simp [hout, Except.map] at h
    | ok out =>
      simp only [hout, Except.map] at h
      cases h
      exact ⟨by simpa using hrepo, rfl, hout⟩

theorem buildMissing_reported {b : BuildArea β} {initial r : BuildArea β × BuildRun β}
    (hinitial : buildImages v j initial.1 = .ok initial.2)
    (h : buildMissing v j c b initial = .ok r) : buildImages v j r.1 = .ok r.2 := by
  obtain ⟨-, rfl⟩ | ⟨-, -, hout⟩ := buildMissing_cases h
  · exact hinitial
  · exact hout

theorem resolveMissing_reported {b : BuildArea β} {initial r : BuildArea β × BuildRun β}
    (hinitial : buildImages v j initial.1 = .ok initial.2)
    (h : resolveMissing v j c b initial = .ok r) : buildImages v j r.1 = .ok r.2 := by
  simp only [resolveMissing] at h
  split_ifs at h
  · cases h
    exact hinitial
  · cases hout : buildImages v j { b with source := (c.resolve b.source).1 } with
    | error e => simp [hout] at h
    | ok out =>
      simp only [hout] at h
      split_ifs at h
      · cases h
        exact hout
      · exact buildMissing_reported hinitial h
  · exact buildMissing_reported hinitial h

/-- A report comes from the session that it goes with. -/
theorem gatherArtifacts_reported {r : BuildArea β × BuildRun β}
    (h : gatherArtifacts v j s c a = .ok r) : buildImages v j r.1 = .ok r.2 := by
  simp only [gatherArtifacts] at h
  cases hout : buildImages v j a with
  | error e => simp [hout] at h
  | ok out =>
    simp only [hout] at h
    split_ifs at h
    · cases h
      exact hout
    · cases h
      exact hout
    · have hinitial : buildImages v j (a, out).1 = .ok (a, out).2 := hout
      exact resolveMissing_reported hinitial h

/-- Only the last session of a cycle counts, when the builder finds nothing in the others. -/
theorem offered_last (hlower : KeepsSmall v.lower) {last : BuildArea β}
    (hlast : Offered v j s c a last)
    (hothers : ∀ b, Offered v j s c a b → b = last ∨ Bare v j (b.withReadme v)) :
    (∀ b, Offered v j s c a b → Fits v j s (b.withReadme v)) ↔ Fits v j s (last.withReadme v) := by
  refine ⟨fun hall => hall last hlast, fun hfits b hb => ?_⟩
  obtain rfl | hbare := hothers b hb
  · exact hfits
  · exact hbare.fits hlower

/-- The session of the source builder is the last one, if it is called. -/
theorem built_fits_iff (hlower : KeepsSmall v.lower) {initial r : BuildArea β × BuildRun β}
    {b : BuildArea β} (hinitial : initial.1 = a) (hbare : Bare v j (a.withReadme v))
    (hsearches : Searches j c)
    (hresolved : (c.resolve (soughtFor v j s a).source).2 = true →
      Bare v j ((resolvedFor v j s c a).withReadme v))
    (hbuilt : builtFor v j s c a = { b with source := c.build b.source })
    (h : buildMissing v j c b initial = .ok r) :
    (∀ b, Offered v j s c a b → Fits v j s (b.withReadme v)) ↔ Fits v j s (r.1.withReadme v) := by
  obtain ⟨hrepo, rfl⟩ | ⟨hrepo, hr, -⟩ := buildMissing_cases h
  · rw [hinitial]
    refine offered_last hlower .start fun b hb => ?_
    cases hb with
    | start => exact .inl rfl
    | resolved _ _ hok => exact .inr (hresolved hok)
    | built _ _ hrepo' =>
      rw [hrepo] at hrepo'
      cases hrepo'
  · rw [hr, ← hbuilt]
    refine offered_last hlower (.built hbare hsearches hrepo hresolved) fun b hb => ?_
    cases hb with
    | start => exact .inr hbare
    | resolved _ _ hok => exact .inr (hresolved hok)
    | built => exact .inl rfl

theorem resolved_fits_iff (hlower : KeepsSmall v.lower) {initial r : BuildArea β × BuildRun β}
    (hinitial : initial.1 = a) (hbare : Bare v j (a.withReadme v)) (hsearches : Searches j c)
    (h : resolveMissing v j c (soughtFor v j s a) initial = .ok r) :
    (∀ b, Offered v j s c a b → Fits v j s (b.withReadme v)) ↔ Fits v j s (r.1.withReadme v) := by
  rw [resolveMissing_searches hsearches] at h
  split_ifs at h with hok
  · cases hout : buildImages v j (resolvedFor v j s c a) with
    | error e => simp [hout] at h
    | ok out =>
      simp only [hout] at h
      obtain ⟨hready, harea⟩ := buildImages_ready hout
      split_ifs at h with hstatus
      · cases h
        refine offered_last hlower (.resolved hbare hsearches hok) fun b hb => ?_
        cases hb with
        | start => exact .inr hbare
        | resolved => exact .inl rfl
        | built _ _ _ hresolved => exact absurd (hresolved hok) (hready.mp hstatus)
      · have hresolved : Bare v j ((resolvedFor v j s c a).withReadme v) :=
          not_not.mp (mt hready.mpr hstatus)
        rw [harea hstatus] at h
        refine built_fits_iff hlower hinitial hbare hsearches (fun _ => hresolved) ?_ h
        rw [builtFor, if_pos hok]
  · refine built_fits_iff hlower hinitial hbare hsearches (fun hok' => absurd hok' hok) ?_ h
    rw [builtFor, if_neg hok]

/-- What the builder takes fits in every session of the cycle exactly when it does in the one that
the report comes from. -/
theorem offered_fits_iff (hlower : KeepsSmall v.lower) {r : BuildArea β × BuildRun β}
    (h : gatherArtifacts v j s c a = .ok r) :
    (∀ b, Offered v j s c a b → Fits v j s (b.withReadme v)) ↔ Fits v j s (r.1.withReadme v) := by
  simp only [gatherArtifacts] at h
  cases hout : buildImages v j a with
  | error e => simp [hout] at h
  | ok out =>
    simp only [hout] at h
    obtain ⟨hready, harea⟩ := buildImages_ready hout
    by_cases hstatus : out.artifacts.status = "ready"
    · rw [if_pos hstatus] at h
      cases h
      refine offered_last hlower .start fun b hb => ?_
      cases hb with
      | start => exact .inl rfl
      | resolved hbare => exact absurd hbare (hready.mp hstatus)
      | built hbare => exact absurd hbare (hready.mp hstatus)
    · have hbare : Bare v j (a.withReadme v) := not_not.mp (mt hready.mpr hstatus)
      rw [if_neg hstatus, runStarter_gate rfl, runStarter_source rfl, harea hstatus,
        if_neg Bool.false_ne_true] at h
      by_cases hsearches : Searches j c
      · exact resolved_fits_iff hlower rfl hbare hsearches h
      · rw [resolveMissing_not hsearches] at h
        cases h
        refine offered_last hlower .start fun b hb => ?_
        cases hb with
        | start => exact .inl rfl
        | resolved _ hsearches' => exact absurd hsearches' hsearches
        | built _ hsearches' => exact absurd hsearches' hsearches

/-! ### The plan -/

variable (title : String → String) (policy : PolicyModel) (i : PlanInputs)

theorem sessionPlan_planned_iff :
    (sessionPlan title policy i).status = "planned" ↔ Installable i := by
  have hdeferred := sessionPlan_deferred_iff title policy i
  have hstatus : (sessionPlan title policy i).status = "deferred" ∨
      (sessionPlan title policy i).status = "planned" := by
    simp only [sessionPlan, buildPlan]
    split_ifs
    · exact .inl rfl
    · exact .inr rfl
  constructor
  · intro hplanned
    by_contra hnot
    have hboth := hdeferred.mpr hnot
    rw [hplanned] at hboth
    exact absurd hboth (by decide)
  · intro hi
    exact hstatus.resolve_left fun h => hdeferred.mp h hi

/-- The step for a staged file is in the plan. -/
theorem step_mem {x : FileName × ManifestStep} (hx : x ∈ f.stepsFor) :
    artifactStep (resolveBuild title i.request).selectedOptionLabel x.2 ∈
      (planFor title policy i (f.artifacts j)).steps := by
  have hflash : artifactStep (resolveBuild title i.request).selectedOptionLabel x.2 ∈
      flashStepsOf (planFor title policy i (f.artifacts j)) := by
    unfold planFor
    rw [flashStepsOf_sessionPlan title policy _ f.flashSteps_kind]
    exact List.mem_map_of_mem (Found.mem_flashSteps hx)
  exact List.mem_of_mem_filter hflash

/-- A planned flash has no step for a staged file that the starter loop rejects exactly when the
plan is deferred for a reason of its own, or in every session that the cycle offers the builder, what
it takes from `os-source` fits the device. -/
theorem planned_compatible_iff (hlower : KeepsSmall v.lower) {r : BuildArea β × BuildRun β}
    (h : gatherArtifacts v j s c a = .ok r) :
    ∃ f : Found β, collect v j r.1 = .ok (r.2.area, f) ∧ r.2.artifacts = f.artifacts j ∧
      (((planFor title policy i r.2.artifacts).status = "planned" →
          ∀ x ∈ f.stepsFor,
            artifactStep (resolveBuild title i.request).selectedOptionLabel x.2 ∈
              (planFor title policy i r.2.artifacts).steps →
            s.rejection v.lower x.1 = "") ↔
        (i.request.userProfile.lawfulUseAttested = true →
          i.request.supportStatus = some "actionable" →
          i.request.selectedStrategy ∉ ["transport_recovery", "research_only", "blocked_research"] →
          ∀ b, Offered v j s c a b → Fits v j s (b.withReadme v))) := by
  obtain ⟨f, hcollect, hartifacts, -⟩ := buildImages_ok (gatherArtifacts_reported h)
  refine ⟨f, hcollect, hartifacts, ?_⟩
  rw [hartifacts, offered_fits_iff hlower h, fits_iff hlower hcollect]
  have hplanned : (planFor title policy i (f.artifacts j)).status = "planned" ↔ _ :=
    sessionPlan_planned_iff title policy { i with built := f.artifacts j }
  constructor
  · intro hall hattested hactionable hmanaged x hx
    have hready : (f.artifacts j).status = "ready" := by
      cases f with
      | nothing => exact absurd hx List.not_mem_nil
      | heimdall images s => rfl
      | sideload n c => rfl
      | fastboot images s => rfl
    exact hall (hplanned.mpr ⟨hattested, hactionable, hmanaged, hready⟩) x hx
      (step_mem title policy i hx)
  · intro hall hstatus x hx _
    have hi := hplanned.mp hstatus
    exact hall hi.attested hi.actionable hi.managed x hx

/-- A device with a 32-bit processor that shows no slots. -/
def armDevice : HardwareSnapshot := { abi := some "armeabi-v7a" }

def idleAcquisition : Acquisition String where
  resolve d := (d, false)
  build d := d

def attestedInputs : PlanInputs :=
  { unattestedInputs with
    request := { unattestedInputs.request with userProfile := { lawfulUseAttested := true } } }

/-- A package that fits is all that the builder sees. -/
theorem lineage_offered (b : BuildArea String)
    (hb : Offered textView romJob armDevice idleAcquisition (oneFile (fileName "lineage.zip") "ota") b) :
    Fits textView romJob armDevice (b.withReadme textView) := by
  have hnotBare : ¬Bare textView romJob
      ((oneFile (fileName "lineage.zip") "ota").withReadme textView) := by
    intro hbare
    have hzip := hbare.loose.1
    revert hzip
    decide
  have hcollect : collect textView romJob (oneFile (fileName "lineage.zip") "ota") =
      .ok (_, .sideload (fileName "lineage.zip") "ota") := rfl
  cases hb with
  | start => exact (fits_iff asciiLower_keepsSmall hcollect).mpr (by decide)
  | resolved hbare => exact absurd hbare hnotBare
  | built hbare => exact absurd hbare hnotBare

theorem planned_compatible_lineage :
    ∃ (r : BuildArea String × BuildRun String) (f : Found String),
      gatherArtifacts textView romJob armDevice idleAcquisition
        (oneFile (fileName "lineage.zip") "ota") = .ok r ∧
      r.2.artifacts = f.artifacts romJob ∧
      (planFor asciiTitle {} attestedInputs r.2.artifacts).status = "planned" ∧
      ∀ x ∈ f.stepsFor,
        artifactStep (resolveBuild asciiTitle attestedInputs.request).selectedOptionLabel x.2 ∈
          (planFor asciiTitle {} attestedInputs r.2.artifacts).steps →
        armDevice.rejection asciiLower x.1 = "" := by
  obtain ⟨f, -, hartifacts, hiff⟩ := planned_compatible_iff asciiTitle {} attestedInputs
    (v := textView) (j := romJob) (s := armDevice) asciiLower_keepsSmall (c := idleAcquisition)
    (a := oneFile (fileName "lineage.zip") "ota") (r := (_, _)) rfl
  have hplanned : (planFor asciiTitle {} attestedInputs (f.artifacts romJob)).status = "planned" := by
    rw [← hartifacts]
    decide
  exact ⟨_, f, rfl, hartifacts, hartifacts ▸ hplanned,
    hiff.mpr (fun _ _ _ => lineage_offered) (hartifacts ▸ hplanned)⟩

/-- A package for another processor is planned for the device. -/
theorem arm64_package_planned :
    ∃ r : BuildArea String × BuildRun String,
      gatherArtifacts textView romJob armDevice idleAcquisition
        (oneFile (fileName "lineage-arm64.zip") "ota") = .ok r ∧
      (planFor asciiTitle {} attestedInputs r.2.artifacts).status = "planned" ∧
      r.2.staged = [(fileName "lineage-arm64.zip", "ota")] ∧
      artifactStep (resolveBuild asciiTitle attestedInputs.request).selectedOptionLabel
          (sideloadStep (fileName "lineage-arm64.zip")) ∈
        (planFor asciiTitle {} attestedInputs r.2.artifacts).steps ∧
      armDevice.rejection asciiLower (fileName "lineage-arm64.zip") =
        "artifact targets arm64 but device reports 32-bit armeabi-v7a" :=
  ⟨_, rfl, by decide, by decide, by decide, by decide⟩

end ForgeOS.Image
