import ForgeOS.Image.Builder

/-! The builder writes what is to be flashed into command texts and partition
tables; the executor reads them back by cutting at blanks and comparing base
names. The fastboot names are fixed and Heimdall images go through a table, so
both come back for every directory. The name of a sideload package is the
operator's, and it comes back exactly when it holds no white space. -/

namespace ForgeOS.Image

open ForgeOS.Python ForgeOS.Flash

variable {β : Type*} {v : FileView β} {j : BuildJob} {a a' : BuildArea β} {f : Found β}

/-! ### What the builder can have found -/

theorem find?_key {α κ : Type*} [DecidableEq κ] {key : α → κ} {l : List α}
    (hl : (l.map key).Nodup) {x : α} (hx : x ∈ l) : l.find? (fun y => key y == key x) = some x := by
  induction l with
  | nil => simp at hx
  | cons y l ih =>
    rw [List.map_cons, List.nodup_cons] at hl
    rcases List.mem_cons.mp hx with rfl | hx
    · simp
    · have hne : key y ≠ key x := fun h => hl.1 (h ▸ List.mem_map_of_mem hx)
      rw [List.find?_cons_of_neg (by simpa using hne)]
      exact ih hl.2 hx

theorem filterMap_map_sublist {α γ : Type*} {g : α → Option γ} {key : γ → α}
    (hg : ∀ x y, g x = some y → key y = x) (l : List α) : ((l.filterMap g).map key).Sublist l := by
  induction l with
  | nil => simp
  | cons x l ih =>
    cases hx : g x with
    | none => simpa [hx] using ih.cons x
    | some y =>
      rw [List.filterMap_cons_some hx, List.map_cons, hg x y hx]
      exact ih.cons_cons x

theorem findFastbootImages_names (look : FileName → Option β) :
    ((findFastbootImages v look).map FoundImage.name).Sublist fastbootOrder := by
  refine filterMap_map_sublist (fun n i hi => ?_) _
  cases hl : look n with
  | none => simp [hl] at hi
  | some c =>
    simp only [hl] at hi
    split_ifs at hi
    cases hi
    rfl

theorem findFastbootImages_partition {look : FileName → Option β} {i : FoundImage β}
    (hi : i ∈ findFastbootImages v look) : i.partition = removeSuffix i.name.val ".img" := by
  obtain ⟨n, -, hn⟩ := List.mem_filterMap.mp hi
  cases hl : look n with
  | none => simp [hl] at hn
  | some c =>
    simp only [hl] at hn
    split_ifs at hn
    cases hn
    rfl

theorem findHeimdallImages_partitions (files : List (FileName × β)) :
    ((findHeimdallImages v files).map FoundImage.partition).Nodup := by
  have hsub : ((findHeimdallImages v files).map FoundImage.partition).Sublist
      (heimdallPartitionPatterns.map Prod.fst) := by
    rw [findHeimdallImages]
    generalize heimdallPartitionPatterns = table
    induction table with
    | nil => simp
    | cons p table ih =>
      rw [List.filterMap_cons]
      split
      · exact ih.cons _
      · rename_i i hi
        obtain ⟨w, -, rfl⟩ := Option.map_eq_some_iff.mp hi
        exact ih.cons_cons _
  exact hsub.nodup (by decide)

theorem extractFastbootFrom_images {archives : List (FileName × Entry β)} {folder : String}
    {images : List (FoundImage β)}
    (h : extractFastbootFrom v a archives = (a', some (folder, images))) :
    ∃ look, images = findFastbootImages v look ∧ images ≠ [] := by
  induction archives generalizing a with
  | nil => simp [extractFastbootFrom] at h
  | cons e rest ih =>
    simp only [extractFastbootFrom] at h
    split_ifs at h with hfound
    · simp only [Prod.mk.injEq, Option.some.injEq] at h
      rw [Bool.and_eq_true, Bool.not_eq_true', List.isEmpty_eq_false_iff] at hfound
      exact ⟨_, h.2.2.symm, h.2.2 ▸ hfound.2⟩
    · exact ih h

theorem extractSamsung_images (v : FileView β) (a : BuildArea β) :
    (extractSamsung v a).2 = [] ∨ ∃ files, (extractSamsung v a).2 = findHeimdallImages v files := by
  unfold extractSamsung
  split_ifs
  · exact .inl rfl
  · exact .inr ⟨_, rfl⟩

/-- How a run that does not raise decides: from what lies loose, from the first
archive with fastboot images, or from the Samsung archives. -/
theorem collect_cases (h : collect v j a = .ok (a', f)) :
    ∃ zip, findSideloadZip v (a.withReadme v).source = .ok zip ∧
      ((a' = a.withReadme v ∧
          f = chooseFound (looseHeimdall v j (a.withReadme v).source) zip
            (findFastbootImages v (a.withReadme v).source.file?)
            ((zip.map fun z => join j.sourceDir z.1.val).getD "") ∧ f.ready = true) ∨
        (zip = none ∧ looseHeimdall v j (a.withReadme v).source = [] ∧
          ((∃ folder images, f = .fastboot images (join j.extractedDir folder) ∧
              extractFastbootFrom v (a.withReadme v) (fastbootArchives (a.withReadme v).source) =
                (a', some (folder, images))) ∨
            ∃ a₁, extractFastbootFrom v (a.withReadme v)
                (fastbootArchives (a.withReadme v).source) = (a₁, none) ∧
              ((preferHeimdall v j = true ∧ a' = (extractSamsung v a₁).1 ∧
                  f = chooseFound (extractSamsung v a₁).2 none [] "") ∨
                (preferHeimdall v j = false ∧ a' = a₁ ∧ f = .nothing))))) := by
  simp only [collect] at h
  cases hzip : findSideloadZip v (a.withReadme v).source with
  | error e => simp [hzip] at h
  | ok zip =>
    refine ⟨zip, rfl, ?_⟩
    simp only [hzip] at h
    by_cases hnone : (zip.isNone && (findFastbootImages v (a.withReadme v).source.file?).isEmpty &&
        (looseHeimdall v j (a.withReadme v).source).isEmpty) = true
    · rw [if_pos hnone] at h
      simp only [Bool.and_eq_true, Option.isNone_iff_eq_none, List.isEmpty_iff] at hnone
      refine .inr ⟨hnone.1.1, hnone.2, ?_⟩
      rcases hext : extractFastbootFrom v (a.withReadme v)
          (fastbootArchives (a.withReadme v).source) with ⟨a₁, _ | ⟨folder, images⟩⟩
      · simp only [hext] at h
        refine .inr ⟨a₁, rfl, ?_⟩
        split_ifs at h with hprefer
        · cases h
          exact .inl ⟨hprefer, rfl, rfl⟩
        · cases h
          exact .inr ⟨by simpa using hprefer, rfl, rfl⟩
      · simp only [hext] at h
        cases h
        exact .inl ⟨folder, images, rfl, rfl⟩
    · rw [if_neg hnone] at h
      cases h
      refine .inl ⟨rfl, rfl, ?_⟩
      rcases eq_or_ne (looseHeimdall v j (a.withReadme v).source) [] with hheimdall | hheimdall
      · rw [hheimdall]
        cases zip with
        | some z => rfl
        | none =>
          have hfast : findFastbootImages v (a.withReadme v).source.file? ≠ [] := by
            intro hfast
            simp [hfast, hheimdall] at hnone
          rw [chooseFound_fastboot hfast]
          rfl
      · rw [chooseFound_heimdall hheimdall]
        rfl

/-- The shapes of what a run stages. -/
theorem collect_found (h : collect v j a = .ok (a', f)) :
    (∃ files s, f = .heimdall (findHeimdallImages v files) s ∧
      findHeimdallImages v files ≠ []) ∨
    (∃ n c, f = .sideload n c) ∨
    (∃ look s, f = .fastboot (findFastbootImages v look) s) ∨ f = .nothing := by
  have hchoose : ∀ (heimdall : List (FoundImage β)) zip look s,
      (heimdall = [] ∨ ∃ files, heimdall = findHeimdallImages v files) →
      f = chooseFound heimdall zip (findFastbootImages v look) s →
      (∃ files s, f = .heimdall (findHeimdallImages v files) s ∧
        findHeimdallImages v files ≠ []) ∨
      (∃ n c, f = .sideload n c) ∨
      (∃ look s, f = .fastboot (findFastbootImages v look) s) ∨ f = .nothing := by
    intro heimdall zip look s hheimdall hf
    rcases eq_or_ne heimdall [] with rfl | hne
    · cases zip with
      | some z => exact .inr (.inl ⟨z.1, z.2, hf⟩)
      | none =>
        rcases eq_or_ne (findFastbootImages v look) [] with hnil | hfast
        · rw [hnil, chooseFound_nothing] at hf
          exact .inr (.inr (.inr hf))
        · rw [chooseFound_fastboot hfast] at hf
          exact .inr (.inr (.inl ⟨look, s, hf⟩))
    · obtain hnil | ⟨files, rfl⟩ := hheimdall
      · exact absurd hnil hne
      · rw [chooseFound_heimdall hne] at hf
        exact .inl ⟨files, s, hf, hne⟩
  obtain ⟨zip, -, ⟨-, hf, -⟩ | ⟨-, -, ⟨folder, images, hf, hext⟩ | ⟨a₁, -, hrest⟩⟩⟩ := collect_cases h
  · refine hchoose _ _ _ _ ?_ hf
    unfold looseHeimdall
    split_ifs
    · exact .inr ⟨_, rfl⟩
    · exact .inl rfl
  · obtain ⟨look, rfl, -⟩ := extractFastbootFrom_images hext
    exact .inr (.inr (.inl ⟨look, _, hf⟩))
  · obtain ⟨-, -, hf⟩ | ⟨-, -, hf⟩ := hrest
    · exact hchoose _ none (fun _ => none) "" (extractSamsung_images v a₁) hf
    · exact .inr (.inr (.inr hf))

/-- A package is staged exactly when a sideload zip lies in `os-source` and no
Heimdall image takes its place. -/
theorem collect_sideload_iff (h : collect v j a = .ok (a', f)) (n : FileName) (c : β) :
    f = .sideload n c ↔
      findSideloadZip v (a.withReadme v).source = .ok (some (n, c)) ∧
        looseHeimdall v j (a.withReadme v).source = [] := by
  obtain ⟨zip, hzip, ⟨-, hf, -⟩ | ⟨rfl, -, ⟨folder, images, hf, -⟩ | ⟨a₁, -, hrest⟩⟩⟩ :=
    collect_cases h
  · rw [hf, hzip]
    rcases eq_or_ne (looseHeimdall v j (a.withReadme v).source) [] with hnil | hne
    · rw [hnil]
      cases zip with
      | some z => simp [chooseFound_sideload, Prod.ext_iff]
      | none =>
        rcases eq_or_ne (findFastbootImages v (a.withReadme v).source.file?) [] with hfast | hfast
        · simp [hfast, chooseFound_nothing]
        · simp [chooseFound_fastboot hfast]
    · simp [chooseFound_heimdall hne, hne]
  · simp [hf, hzip]
  · obtain ⟨-, -, hf⟩ | ⟨-, -, hf⟩ := hrest
    · rw [hf, hzip]
      rcases eq_or_ne (extractSamsung v a₁).2 [] with hnil | hne
      · simp [hnil, chooseFound_nothing]
      · simp [chooseFound_heimdall hne]
    · simp [hf, hzip]

/-! ### Reading back -/

/-- The path of a staged copy. -/
def stagedPath (j : BuildJob) (n : FileName) : String := join j.stagedDir n.val

/-- The copy of a staged name is found again, whatever else was staged. -/
theorem stagedFile_of_mem {n : FileName} {c : β} (hn : (n, c) ∈ f.staged) :
    stagedFile (f.manifest j) n.val = some (stagedPath j n) := by
  have hpath : ∀ m : FileName, pathName (stagedPath j m) = m.val := fun m =>
    pathName_join j.stagedDir m.property
  cases hfind : (f.manifest j).stagedFiles.find? fun path => pathName path == n.val with
  | none =>
    have hmem : stagedPath j n ∈ (f.manifest j).stagedFiles :=
      List.mem_map.mpr ⟨(n, c), hn, rfl⟩
    have := List.find?_eq_none.mp hfind _ hmem
    simp [hpath n] at this
  | some path =>
    obtain ⟨m, -, rfl⟩ := List.mem_map.mp (List.mem_of_find?_eq_some hfind)
    have hname : m.1.val = n.val := by
      have := List.find?_some hfind
      rwa [beq_iff_eq, pathName_join _ m.1.property] at this
    have hm : m.1 = n := Subtype.ext hname
    rw [stagedFile, hfind, Option.map_some, hm, pathStr_join]
    rfl

/-- A name that was not staged is not found. -/
theorem stagedFile_none {name : String} (hn : ∀ s ∈ f.staged, s.1.val ≠ name) :
    stagedFile (f.manifest j) name = none := by
  rw [stagedFile, Option.map_eq_none_iff, List.find?_eq_none]
  intro path hpath
  obtain ⟨s, hs, rfl⟩ := List.mem_map.mp hpath
  rw [pathName_join _ s.1.property]
  simpa using hn s hs

/-- What the builder means the executor to do for each flash step. -/
def Found.intended (upper : String → String) (j : BuildJob) (serial : String) :
    Found β → List StepAction
  | .heimdall images _ =>
    [.heimdall ("flash" :: "--no-reboot" ::
      images.flatMap fun i => ["--" ++ upper i.partition, stagedPath j i.name]) 600]
  | .sideload n _ => [.adb (serialArgs serial ++ ["sideload", stagedPath j n])]
  | .fastboot images _ =>
    images.map fun i =>
      .fastboot (serialArgs serial ++ ["flash", i.partition, stagedPath j i.name])
  | .nothing => []

/-- Everything the fastboot decoder needs to know about the fixed names. -/
theorem fastbootOrder_words : ∀ n ∈ fastbootOrder,
    split ("fastboot flash " ++ removeSuffix n.val ".img" ++ " " ++ n.val) =
        ["fastboot", "flash", removeSuffix n.val ".img", n.val] ∧
      "flash_" ++ removeSuffix n.val ".img" ∉
        ["enter_fastboot", "wipe_userdata", "boot_validation"] := by
  decide

theorem fastbootOrder_steps :
    (fastbootOrder.map fun n => "flash_" ++ removeSuffix n.val ".img").Nodup := by
  decide

theorem fastboot_resolves {look : FileName → Option β} {s : String} (serial transport : String)
    {i : FoundImage β} (hi : i ∈ findFastbootImages v look) :
    executeFastbootStep serial ((Found.fastboot (findFastbootImages v look) s).manifest j)
        ("flash_" ++ i.partition) transport =
      .fastboot (serialArgs serial ++ ["flash", i.partition, stagedPath j i.name]) := by
  have hmem : i.name ∈ fastbootOrder :=
    (findFastbootImages_names look).subset (List.mem_map_of_mem hi)
  have hpart := findFastbootImages_partition hi
  obtain ⟨hwords, hname⟩ := fastbootOrder_words i.name hmem
  rw [← hpart] at hwords hname
  have hkeys : ((findFastbootImages v look).map fun i => "flash_" ++ i.partition).Nodup := by
    have hsub := (findFastbootImages_names (v := v) look).map
      fun n => "flash_" ++ removeSuffix n.val ".img"
    have hsame : (findFastbootImages v look).map (fun i => "flash_" ++ i.partition) =
        (findFastbootImages v look).map fun i => "flash_" ++ removeSuffix i.name.val ".img" :=
      List.map_congr_left fun i' hi' => by rw [findFastbootImages_partition hi']
    rw [List.map_map] at hsub
    rw [hsame]
    exact hsub.nodup fastbootOrder_steps
  have hstep : manifestStep ((Found.fastboot (findFastbootImages v look) s).manifest j)
      ("flash_" ++ i.partition) = some (fastbootStep i) := by
    change ((findFastbootImages v look).map fastbootStep).find? _ = _
    rw [List.find?_map]
    have := find?_key hkeys hi
    simp only [Function.comp_def, fastbootStep, Option.some_beq_some]
    rw [this]
    rfl
  have hstaged : stagedFile ((Found.fastboot (findFastbootImages v look) s).manifest j) i.name.val =
      some (stagedPath j i.name) :=
    stagedFile_of_mem (List.mem_map.mpr ⟨i, hi, rfl⟩)
  simp only [List.mem_cons, List.not_mem_nil, or_false, not_or] at hname
  rw [executeFastbootStep, if_neg hname.1, if_neg hname.2.1, if_neg hname.2.2, hstep]
  simp [fastbootStep, hwords, hstaged]

theorem sideload_words (n : FileName) : (split ("adb sideload " ++ n.val)).getLast? = some n.val ↔
    Unspaced n.val := by
  have h : "adb sideload " ++ n.val = "adb sideload" ++ " " ++ n.val := by
    rw [show "adb sideload " = "adb sideload" ++ " " from rfl]
  rw [h, split_getLast_iff _ n.property.1]

theorem sideload_resolves_iff (n : FileName) (c : β) (serial : String) :
    executeAdbSideloadStep serial ((Found.sideload n c).manifest j) "sideload_update" =
      .adb (serialArgs serial ++ ["sideload", stagedPath j n]) ↔ Unspaced n.val := by
  have hstep : manifestStep ((Found.sideload n c).manifest j) "sideload_update" =
      some (sideloadStep n) := rfl
  have hcommand : (sideloadStep n).command.getD "" = "adb sideload " ++ n.val := rfl
  rw [executeAdbSideloadStep, if_neg (by decide), if_neg (by decide), if_neg (by decide), hstep,
    ← sideload_words]
  simp only [hcommand]
  cases hlast : (split ("adb sideload " ++ n.val)).getLast? with
  | none => simp
  | some w =>
    simp only [Option.some.injEq]
    by_cases hw : w = n.val
    · rw [hw, stagedFile_of_mem (f := Found.sideload n c) (List.mem_singleton.mpr rfl)]
      simp
    · have hnone : stagedFile ((Found.sideload n c).manifest j) w = none :=
        stagedFile_none fun s hs => by
          rw [List.mem_singleton.mp hs]
          exact Ne.symm hw
      simp [hnone, hw, Flash.failure]

theorem partitionsOf_eq {images : List (FoundImage β)}
    (hnodup : (images.map FoundImage.partition).Nodup) :
    partitionsOf images = images.map fun i => (i.partition, i.name.val) := by
  suffices h : ∀ (d : List (String × String)), (∀ i ∈ images, i.partition ∉ d.map Prod.fst) →
      images.foldl (fun d i => dictSet d i.partition i.name.val) d =
        d ++ images.map fun i => (i.partition, i.name.val) from h [] (by simp)
  induction images with
  | nil => simp
  | cons i images ih =>
    intro d hd
    rw [List.map_cons, List.nodup_cons] at hnodup
    rw [List.foldl_cons, dictSet_of_notMem _ (hd i (by simp)), ih hnodup.2]
    · simp
    · intro i' hi'
      rw [List.map_append, List.mem_append, not_or]
      refine ⟨hd i' (by simp [hi']), fun hp => hnodup.1 ?_⟩
      have hsame : i'.partition = i.partition := by simpa using hp
      rw [← hsame]
      exact List.mem_map_of_mem hi'

theorem stagedPartitions_staged {images : List (FoundImage β)} (m : Manifest)
    (hstaged : ∀ i ∈ images, stagedFile m i.name.val = some (stagedPath j i.name)) :
    stagedPartitions m (images.map fun i => (i.partition, i.name.val)) =
      .ok (images.map fun i => (i.partition, stagedPath j i.name)) := by
  induction images with
  | nil => rfl
  | cons i images ih =>
    simp only [List.map_cons, stagedPartitions, hstaged i (by simp)]
    rw [ih fun i' hi' => hstaged i' (by simp [hi'])]

theorem heimdall_resolves (upper : String → String) {images : List (FoundImage β)} (s : String)
    (hne : images ≠ []) (hnodup : (images.map FoundImage.partition).Nodup) :
    executeHeimdallStep upper ((Found.heimdall images s).manifest j) "flash_samsung" =
      .heimdall ("flash" :: "--no-reboot" ::
        images.flatMap fun i => ["--" ++ upper i.partition, stagedPath j i.name]) 600 := by
  have hstep : manifestStep ((Found.heimdall images s).manifest j) "flash_samsung" =
      some (heimdallStep images) := rfl
  have hparts : (heimdallStep images).partitions = images.map fun i => (i.partition, i.name.val) :=
    partitionsOf_eq hnodup
  have hpartsne : (images.map fun i => (i.partition, i.name.val)) ≠ [] := by simpa using hne
  have hstaged := stagedPartitions_staged (j := j) ((Found.heimdall images s).manifest j)
    fun i hi => stagedFile_of_mem (f := Found.heimdall images s) (List.mem_map.mpr ⟨i, hi, rfl⟩)
  rw [executeHeimdallStep, if_neg (by decide), if_neg (by decide), if_neg (by decide),
    if_neg (by decide), hstep]
  simp only [hparts, if_neg hpartsne, hstaged]
  simp [heimdallFlash, hne, List.flatMap_map]

/-! ### Every flash step of a plan -/

def flashStepsOf (plan : FlashPlan) : List FlashStep :=
  plan.steps.filter fun step => step.kind == some "flash"

theorem Found.flashSteps_kind (f : Found β) : ∀ step ∈ f.flashSteps, step.kind = some "flash" := by
  intro step hstep
  cases f with
  | heimdall images s => rw [List.mem_singleton.mp hstep]; rfl
  | sideload n c => rw [List.mem_singleton.mp hstep]; rfl
  | fastboot images s =>
    obtain ⟨i, -, rfl⟩ := List.mem_map.mp hstep
    rfl
  | nothing => simp [Found.flashSteps] at hstep

/-- The flash steps of a stored plan are those of the manifest, in order. -/
theorem flashStepsOf_sessionPlan (title : String → String) (policy : PolicyModel) (i : PlanInputs)
    (hkind : ∀ step ∈ i.built.details.flashSteps, step.kind = some "flash") :
    flashStepsOf (sessionPlan title policy i) =
      i.built.details.flashSteps.map
        (artifactStep (resolveBuild title i.request).selectedOptionLabel) := by
  have hsteps : (sessionPlan title policy i).steps = _ :=
    planSteps_eq i.transport.value ((dictGet i.backup "backup_bundle_path").getD "unknown")
      (stagedBuildPlan (resolveBuild title i.request) i.built)
  have hmode : (modeSteps (stagedBuildPlan (resolveBuild title i.request) i.built).installMode
      i.transport.value).filter (fun step => step.kind == some "flash") = [] := by
    unfold modeSteps
    split_ifs <;> rfl
  have hflash : (i.built.details.flashSteps.map
      (artifactStep (resolveBuild title i.request).selectedOptionLabel)).filter
        (fun step => step.kind == some "flash") = i.built.details.flashSteps.map
          (artifactStep (resolveBuild title i.request).selectedOptionLabel) := by
    rw [List.filter_eq_self]
    intro step hstep
    obtain ⟨s, hs, rfl⟩ := List.mem_map.mp hstep
    simp [artifactStep, hkind s hs]
  rw [flashStepsOf, hsteps, List.filter_append, List.filter_append, List.filter_append, hmode]
  simpa [stagedBuildPlan, preflightChecks, verifyBackupBundle, restoreCheckpoint, bootValidation]
    using hflash

/-- The plan that a cycle makes of what was found. -/
def planFor (title : String → String) (policy : PolicyModel) (i : PlanInputs)
    (built : BuildArtifacts) : FlashPlan :=
  sessionPlan title policy { i with built }

/-- The flash steps of the plan, each resolved against the manifest. -/
def resolvedSteps (upper title : String → String) (policy : PolicyModel) (i : PlanInputs)
    (device : String) (built : BuildArtifacts) : List StepAction :=
  (flashStepsOf (planFor title policy i built)).map
    (executeLiveStep upper (planFor title policy i built) device built.details)

variable (upper title : String → String) (policy : PolicyModel) (i : PlanInputs) (device : String)

theorem resolvedSteps_eq (j : BuildJob) (f : Found β) :
    resolvedSteps upper title policy i device (f.artifacts j) =
      f.flashSteps.map fun step =>
        executeLiveStep upper (planFor title policy i (f.artifacts j)) device (f.manifest j)
          (artifactStep (resolveBuild title i.request).selectedOptionLabel step) := by
  unfold resolvedSteps planFor
  rw [flashStepsOf_sessionPlan title policy _ (f.flashSteps_kind), List.map_map]
  rfl

/-- Every flash step comes back to the copy it was made for, unless a package
with white space in its name is staged. -/
theorem resolvedSteps_intended_iff (h : collect v j a = .ok (a', f)) :
    resolvedSteps upper title policy i device (f.artifacts j) =
        f.intended upper j (strip device) ↔
      ∀ n c, f = .sideload n c → Unspaced n.val := by
  rw [resolvedSteps_eq]
  obtain ⟨files, s, rfl, hne⟩ | ⟨n, c, rfl⟩ | ⟨look, s, rfl⟩ | rfl := collect_found h
  · have hres := heimdall_resolves (j := j) upper s hne (findHeimdallImages_partitions files)
    have hmode : (planFor title policy i
        ((Found.heimdall (findHeimdallImages v files) s).artifacts j)).installMode =
          "heimdall_flash" := rfl
    have hname : ((artifactStep (resolveBuild title i.request).selectedOptionLabel
        (heimdallStep (findHeimdallImages v files))).name.getD "") = "flash_samsung" := rfl
    simp only [Found.flashSteps, List.map_cons, List.map_nil, executeLiveStep, hmode, hname,
      if_neg (show ¬"heimdall_flash" = "fastboot_images" by decide),
      if_neg (show ¬"heimdall_flash" = "adb_sideload" by decide), if_true, hres]
    simp [Found.intended]
  · have hmode : (planFor title policy i ((Found.sideload n c).artifacts j)).installMode =
        "adb_sideload" := rfl
    have hname : ((artifactStep (resolveBuild title i.request).selectedOptionLabel
        (sideloadStep n)).name.getD "") = "sideload_update" := rfl
    simp only [Found.flashSteps, List.map_cons, List.map_nil, executeLiveStep, hmode, hname,
      if_neg (show ¬"adb_sideload" = "fastboot_images" by decide), if_true, Found.intended,
      List.cons.injEq, and_true, sideload_resolves_iff]
    constructor
    · rintro hun n' c' heq
      cases heq
      exact hun
    · intro hall
      exact hall n c rfl
  · have hmode : (planFor title policy i
        ((Found.fastboot (findFastbootImages v look) s).artifacts j)).installMode =
          "fastboot_images" := rfl
    have hall : ((Found.fastboot (findFastbootImages v look) s).flashSteps.map fun step =>
        executeLiveStep upper (planFor title policy i
            ((Found.fastboot (findFastbootImages v look) s).artifacts j)) device
          ((Found.fastboot (findFastbootImages v look) s).manifest j)
          (artifactStep (resolveBuild title i.request).selectedOptionLabel step)) =
        (Found.fastboot (findFastbootImages v look) s).intended upper j (strip device) := by
      simp only [Found.flashSteps, Found.intended, List.map_map]
      refine List.map_congr_left fun image himage => ?_
      rw [Function.comp_apply, executeLiveStep, if_pos hmode]
      exact fastboot_resolves (strip device) _ himage
    simp [hall]
  · simp [Found.flashSteps, Found.intended]

/-- For every content of `os-source` from which the builder reports ready, every
flash step of the plan resolves to its staged copy exactly when no sideload
package with white space in its name was staged. -/
theorem flash_steps_resolve_iff {out : BuildRun β} (hrun : buildImages v j a = .ok out)
    (hready : out.artifacts.status = "ready") :
    ∃ f : Found β, collect v j a = .ok (out.area, f) ∧ f ≠ .nothing ∧
      out.artifacts = f.artifacts j ∧
      (resolvedSteps upper title policy i device out.artifacts = f.intended upper j (strip device) ↔
        ∀ n c, findSideloadZip v (a.withReadme v).source = .ok (some (n, c)) →
          looseHeimdall v j (a.withReadme v).source ≠ [] ∨ Unspaced n.val) := by
  obtain ⟨f, hcollect, hartifacts, -⟩ := buildImages_ok hrun
  refine ⟨f, hcollect, ?_, hartifacts, ?_⟩
  · rintro rfl
    rw [hartifacts] at hready
    simp [Found.artifacts, Found.ready] at hready
  · rw [hartifacts, resolvedSteps_intended_iff upper title policy i device hcollect]
    simp only [collect_sideload_iff hcollect]
    exact ⟨fun hall n c hzip => or_iff_not_imp_left.mpr fun hnil => hall n c ⟨hzip, by simpa using hnil⟩,
      fun hall n c hboth => (hall n c hboth.1).resolve_left fun hne => hne hboth.2⟩

/-! ### A package whose name holds a blank -/

/-- Files whose text is all there is to see: `ota` is an Android package, and
every file is large enough to be an image. -/
def textView : FileView String where
  size _ := 2 * minImageBytes
  head c := (bytesOf c).take 256
  zip c := if c = "ota" then .members [{ name := "payload.bin", bytes := some "payload" }] else .badZip
  tar _ := none
  lz4 _ := none
  text s := s
  rank := nameRank
  rank_injective := nameRank_injective
  lower := asciiLower
  oddFlat _ t := (t, false)
  oddNested _ t := (t, false)

/-- A session directory with one file in `os-source`. -/
def oneFile (n : FileName) (c : String) : BuildArea String where
  source := { entries := [(n, .file c)], nodup := by simp }

theorem flash_steps_resolve_update : ∃ out : BuildRun String,
    buildImages textView { sessionDir := "/s" } (oneFile (fileName "lineage.zip") "ota") = .ok out ∧
      out.artifacts.status = "ready" ∧
      ∃ f : Found String, collect textView { sessionDir := "/s" }
          (oneFile (fileName "lineage.zip") "ota") = .ok (out.area, f) ∧
        f ≠ .nothing ∧ out.artifacts = f.artifacts { sessionDir := "/s" } ∧
        (resolvedSteps asciiUpper asciiTitle {} unattestedInputs "R58" out.artifacts =
            f.intended asciiUpper { sessionDir := "/s" } (strip "R58") ↔
          ∀ n c, findSideloadZip textView
              ((oneFile (fileName "lineage.zip") "ota").withReadme textView).source =
                .ok (some (n, c)) →
            looseHeimdall textView { sessionDir := "/s" }
                ((oneFile (fileName "lineage.zip") "ota").withReadme textView).source ≠ [] ∨
              Unspaced n.val) :=
  ⟨_, rfl, by decide,
    flash_steps_resolve_iff asciiUpper asciiTitle {} unattestedInputs "R58" rfl (by decide)⟩

/-- `my update.zip` is staged, but the step looks for `update.zip`. -/
theorem blank_package_not_found : ∃ out : BuildRun String,
    buildImages textView { sessionDir := "/s" } (oneFile (fileName "my update.zip") "ota") =
        .ok out ∧
      out.artifacts.status = "ready" ∧
      out.artifacts.details.stagedFiles = ["/s/runtime/build/staged/my update.zip"] ∧
      resolvedSteps asciiUpper asciiTitle {} unattestedInputs "R58" out.artifacts =
        [.reply { ok := false, reason := some "Staged package update.zip not found" }] :=
  ⟨_, rfl, by decide, by decide, by decide⟩

end ForgeOS.Image
