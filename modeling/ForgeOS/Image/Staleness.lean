import ForgeOS.Image.Encoding
import ForgeOS.Image.Leftover

/-! Runs of the builder one after the other. The staging folder is emptied by
every run, the extraction folders and the `.tar` copies are not, so a run can
stage what an archive that is gone left behind. It stages what a session without
earlier runs would stage when everything left is overwritten by the archives that
it reads, or cannot be an image. -/

namespace ForgeOS.Image

open ForgeOS.Python

variable {β : Type*} {v : FileView β}

/-- The same session without the results of earlier runs. -/
def BuildArea.fresh (a : BuildArea β) : BuildArea β := { source := a.source.without a.copies }

/-! ### One archive of the fastboot loop -/

/-- The files an archive holds under fastboot names come to be read; `none` is an
archive that cannot be opened. -/
def archiveWrites (v : FileView β) (x : FileName × Entry β) : Writes β :=
  (fastbootWrites v x.1 x.2).getD []

/-- The fastboot images among the archive's own files. -/
def archiveImages (v : FileView β) (x : FileName × Entry β) : List (FoundImage β) :=
  findFastbootImages v fun n => lastWrite (archiveWrites v x) [n]

/-- Every image that lies in the folder under a fastboot name is overwritten. -/
def Overwrites (v : FileView β) (t : Tree β) (ws : Writes β) : Prop :=
  ∀ n ∈ fastbootOrder, lastWrite ws [n] = none → plausibleImage v (t.lookup [n]) = none

theorem Overwrites.findFastbootImages_update {t : Tree β} {ws : Writes β} (h : Overwrites v t ws) :
    findFastbootImages v (fun n => (t.update ws).lookup [n]) =
      findFastbootImages v fun n => lastWrite ws [n] := by
  refine findFastbootImages_congr fun n hn => ?_
  rw [Tree.lookup_update]
  cases hw : lastWrite ws [n] with
  | none => rw [Option.none_or, h n hn hw, plausibleImage_none]
  | some c => rfl

/-- An archive can be read without harm: it cannot be opened, or it overwrites its folder. -/
def OverwritesFolder (v : FileView β) (a : BuildArea β) (x : FileName × Entry β) : Prop :=
  (fastbootWrites v x.1 x.2).isSome → Overwrites v (a.folder (archiveFolder x.1)) (archiveWrites v x)

/-- The area after an archive was extracted. -/
def BuildArea.afterArchive (v : FileView β) (a : BuildArea β) (x : FileName × Entry β) : BuildArea β :=
  a.setFolder (archiveFolder x.1) ((a.folder (archiveFolder x.1)).update (archiveWrites v x))

theorem extractFastbootFrom_cons (hv : Extractable v) {a : BuildArea β} {x : FileName × Entry β}
    (hx : OverwritesFolder v a x) (rest : List (FileName × Entry β)) :
    extractFastbootFrom v a (x :: rest) =
      if archiveImages v x = [] then extractFastbootFrom v (a.afterArchive v x) rest
      else (a.afterArchive v x, some (archiveFolder x.1, archiveImages v x)) := by
  have hstep : extractFastbootFrom v a (x :: rest) =
      let r := extractArchive v x.1 x.2 (a.folder (archiveFolder x.1))
      let images := findFastbootImages v fun n => r.1.lookup [n]
      if r.2 && !images.isEmpty then
        (a.setFolder (archiveFolder x.1) r.1, some (archiveFolder x.1, images))
      else extractFastbootFrom v (a.setFolder (archiveFolder x.1) r.1) rest := rfl
  rw [hstep, extractArchive_eq hv]
  unfold OverwritesFolder archiveWrites at hx
  unfold BuildArea.afterArchive archiveImages archiveWrites
  cases hw : fastbootWrites v x.1 x.2 with
  | none =>
    have hnil : findFastbootImages v (fun n => lastWrite ([] : Writes β) [n]) = [] :=
      findFastbootImages_eq_nil_iff.mpr fun n _ => rfl
    simp only [Option.elim_none, Option.isSome_none, Bool.false_and, Option.getD_none, hnil,
      if_true]
    rfl
  | some ws =>
    rw [hw] at hx
    have himages := (hx rfl).findFastbootImages_update
    simp only [Option.getD_some] at himages
    simp only [Option.elim_some, Option.isSome_some, Bool.true_and, Option.getD_some, himages]
    by_cases hnil : findFastbootImages v (fun n => lastWrite ws [n]) = []
    · simp [hnil]
    · simp [hnil]

/-! ### The fastboot loop -/

theorem BuildArea.folder_setFolder (a : BuildArea β) (name folder : String) (t : Tree β) :
    (a.setFolder name t).folder folder = if folder = name then t else a.folder folder := by
  rw [BuildArea.folder, BuildArea.setFolder, dictGet_dictSet]
  split_ifs <;> rfl

/-- No file of the folder can be staged as a fastboot image. -/
def NoImages (v : FileView β) (t : Tree β) : Prop :=
  ∀ n ∈ fastbootOrder, plausibleImage v (t.lookup [n]) = none

theorem NoImages.overwrites {t : Tree β} (h : NoImages v t) (ws : Writes β) : Overwrites v t ws :=
  fun n hn _ => h n hn

/-- An archive without images leaves none in a folder that it overwrites. -/
theorem noImages_update {t : Tree β} {x : FileName × Entry β}
    (ht : Overwrites v t (archiveWrites v x)) (hx : archiveImages v x = []) :
    NoImages v (t.update (archiveWrites v x)) := by
  rw [archiveImages, ← ht.findFastbootImages_update] at hx
  exact findFastbootImages_eq_nil_iff.mp hx

theorem OverwritesFolder.afterArchive {a : BuildArea β} {x y : FileName × Entry β}
    (hx : OverwritesFolder v a x) (hnil : archiveImages v x = []) (hy : OverwritesFolder v a y) :
    OverwritesFolder v (a.afterArchive v x) y := by
  intro hopen
  rw [BuildArea.afterArchive, BuildArea.folder_setFolder]
  by_cases hfolder : archiveFolder y.1 = archiveFolder x.1
  · rw [if_pos hfolder]
    cases hw : fastbootWrites v x.1 x.2 with
    | none =>
      have hempty : archiveWrites v x = [] := by rw [archiveWrites, hw]; rfl
      rw [hempty, ← hfolder]
      exact hy hopen
    | some ws =>
      have hover : Overwrites v (a.folder (archiveFolder x.1)) (archiveWrites v x) :=
        hx (by rw [hw]; rfl)
      exact (noImages_update hover hnil).overwrites _
  · rw [if_neg hfolder]
    exact hy hopen

/-- The archives that the loop opens: those up to the first that holds an image. -/
def reachedArchives (v : FileView β) : List (FileName × Entry β) → List (FileName × Entry β)
  | [] => []
  | x :: rest => x :: if archiveImages v x = [] then reachedArchives v rest else []

/-- Every archive that is opened overwrites its folder, and none of the builder's
own `.tar` copies holds an image. -/
def ArchivesFresh (v : FileView β) (a : BuildArea β) (archives : List (FileName × Entry β)) : Prop :=
  ∀ x ∈ reachedArchives v archives,
    OverwritesFolder v a x ∧ (x.1 ∈ a.copies → archiveImages v x = [])

theorem ArchivesFresh.tail {a : BuildArea β} {x : FileName × Entry β}
    {rest : List (FileName × Entry β)} (h : ArchivesFresh v a (x :: rest))
    (hnil : archiveImages v x = []) : ArchivesFresh v (a.afterArchive v x) rest := by
  have hreached : reachedArchives v (x :: rest) = x :: reachedArchives v rest := by
    rw [reachedArchives, if_pos hnil]
  rw [ArchivesFresh, hreached] at h
  intro y hy
  obtain ⟨hover, hcopy⟩ := h y (List.mem_cons_of_mem _ hy)
  exact ⟨(h x List.mem_cons_self).1.afterArchive hnil hover, hcopy⟩

theorem overwritesFolder_of_noImages {a : BuildArea β} (h : ∀ folder, NoImages v (a.folder folder))
    (x : FileName × Entry β) : OverwritesFolder v a x := fun _ => (h _).overwrites _

theorem noImages_afterArchive {a : BuildArea β} (h : ∀ folder, NoImages v (a.folder folder))
    {x : FileName × Entry β} (hnil : archiveImages v x = []) (folder : String) :
    NoImages v ((a.afterArchive v x).folder folder) := by
  rw [BuildArea.afterArchive, BuildArea.folder_setFolder]
  split_ifs
  · exact noImages_update ((h _).overwrites _) hnil
  · exact h folder

/-- The loop finds what it finds with empty folders and without the copies. -/
theorem extractFastbootFrom_fresh (hv : Extractable v) {archives : List (FileName × Entry β)}
    {a a₀ : BuildArea β} (h₀ : ∀ folder, NoImages v (a₀.folder folder))
    (h : ArchivesFresh v a archives) :
    (extractFastbootFrom v a archives).2 =
      (extractFastbootFrom v a₀ (archives.filter fun x => x.1 ∉ a.copies)).2 := by
  induction archives generalizing a a₀ with
  | nil => rfl
  | cons x rest ih =>
    have hreached : x ∈ reachedArchives v (x :: rest) := List.mem_cons_self
    obtain ⟨hover, hcopy⟩ := h x hreached
    rw [extractFastbootFrom_cons hv hover]
    by_cases hmem : x.1 ∈ a.copies
    · -- a copy holds no image, so both go on with the rest
      have hnil : archiveImages v x = [] := hcopy hmem
      rw [if_pos hnil, List.filter_cons_of_neg (by simpa using hmem)]
      exact ih h₀ (h.tail hnil)
    · rw [List.filter_cons_of_pos (by simpa using hmem),
        extractFastbootFrom_cons hv (overwritesFolder_of_noImages h₀ x)]
      by_cases hnil : archiveImages v x = []
      · rw [if_pos hnil, if_pos hnil]
        exact ih (noImages_afterArchive h₀ hnil) (h.tail hnil)
      · rw [if_neg hnil, if_neg hnil]

/-- The loop works in the folders of its own archives only. -/
theorem extractFastbootFrom_frame (v : FileView β) {archives : List (FileName × Entry β)}
    {folder : String} (hfolder : ∀ x ∈ archives, archiveFolder x.1 ≠ folder) (a : BuildArea β) :
    (extractFastbootFrom v a archives).1.folder folder = a.folder folder ∧
      (extractFastbootFrom v a archives).1.source = a.source ∧
      (extractFastbootFrom v a archives).1.copies = a.copies := by
  induction archives generalizing a with
  | nil => exact ⟨rfl, rfl, rfl⟩
  | cons x rest ih =>
    have hrest := ih (fun y hy => hfolder y (List.mem_cons_of_mem _ hy))
    have hne : folder ≠ archiveFolder x.1 := fun h => hfolder x List.mem_cons_self h.symm
    simp only [extractFastbootFrom]
    split_ifs
    · exact ⟨by rw [BuildArea.folder_setFolder, if_neg hne], rfl, rfl⟩
    · obtain ⟨hf, hs, hc⟩ := hrest (a.setFolder (archiveFolder x.1)
        (extractArchive v x.1 x.2 (a.folder (archiveFolder x.1))).1)
      rw [BuildArea.folder_setFolder, if_neg hne] at hf
      exact ⟨hf, hs, hc⟩

/-! ### The directory without the copies -/

/-- The builder's own copies are `.tar` files. -/
def CopiesTar (a : BuildArea β) : Prop := ∀ n ∈ a.copies, n.val.toList.getLast? = some 'r'

theorem fnmatch_getLast {name pattern : String} (ending : List Char)
    (hpattern : pattern.toList = '*' :: ending) (hending : '*' ∉ ending) (hne : ending ≠ [])
    (h : fnmatch name pattern = true) : name.toList.getLast? = ending.getLast? := by
  obtain ⟨mid, hmid⟩ := (fnmatch_star_iff ending hpattern hending).mp h
  rw [hmid, List.getLast?_append_of_ne_nil mid hne]

theorem CopiesTar.notMem {a : BuildArea β} (h : CopiesTar a) {n : FileName}
    (hn : n.val.toList.getLast? ≠ some 'r') : n ∉ a.copies := fun hmem => hn (h n hmem)

theorem CopiesTar.fnmatch_false {a : BuildArea β} (h : CopiesTar a) {pattern : String}
    (ending : List Char) (hpattern : pattern.toList = '*' :: ending) (hending : '*' ∉ ending)
    (hlast : ending.getLast?.any (· != 'r') = true) :
    ∀ n ∈ a.copies, fnmatch n.val pattern = false := by
  intro n hn
  by_contra hmatch
  have hne : ending ≠ [] := by
    rintro rfl
    simp at hlast
  rw [← fnmatch_getLast ending hpattern hending hne (by simpa using hmatch), h n hn] at hlast
  exact absurd hlast (by decide)

theorem fastbootArchives_without (d : Dir β) (names : List FileName) :
    fastbootArchives (d.without names) = (fastbootArchives d).filter fun x => x.1 ∉ names := by
  simp only [fastbootArchives, Dir.sortedGlob_without, List.filter_append]

theorem samsungArchives_without (d : Dir β) (names : List FileName) :
    samsungArchives (d.without names) = (samsungArchives d).filter fun x => x.1 ∉ names := by
  simp only [samsungArchives, Dir.sortedGlob_without, List.filter_append]

theorem CopiesTar.findSideloadZip_eq {a : BuildArea β} (h : CopiesTar a) :
    findSideloadZip v (a.source.without a.copies) = findSideloadZip v a.source := by
  rw [findSideloadZip, findSideloadZip,
    a.source.sortedGlob_without_eq (h.fnmatch_false ".zip".toList rfl (by decide) (by decide))]
  congr 2
  refine List.filterMap_congr fun n hn => ?_
  have hlast : n.val.toList.getLast? ≠ some 'r' := by
    revert n
    decide
  rw [a.source.lookup_without a.copies (h.notMem hlast)]

theorem CopiesTar.findFastbootImages_eq {a : BuildArea β} (h : CopiesTar a) :
    findFastbootImages v (a.source.without a.copies).file? = findFastbootImages v a.source.file? := by
  refine findFastbootImages_congr fun n hn => ?_
  have hlast : n.val.toList.getLast? ≠ some 'r' := by
    revert n
    decide
  rw [a.source.file?_without a.copies (h.notMem hlast)]

theorem CopiesTar.looseHeimdall_eq {a : BuildArea β} (h : CopiesTar a) (j : BuildJob) :
    looseHeimdall v j (a.source.without a.copies) = looseHeimdall v j a.source := by
  unfold looseHeimdall
  split_ifs
  · refine findHeimdallImages_congr ?_
    rw [Dir.files_without, List.filter_filter]
    refine List.filter_congr fun f _ => ?_
    by_cases hmem : f.1 ∈ a.copies
    · rw [h.fnmatch_false ".img".toList rfl (by decide) (by decide) f.1 hmem]
      simp
    · simp [hmem]
  · rfl

theorem Dir.add_without (d : Dir β) {names : List FileName} {n : FileName} (h : n ∉ names) (c : β) :
    (d.without names).add n c = (d.add n c).without names := by
  have hmem : n ∈ (d.without names).entries.map Prod.fst ↔ n ∈ d.entries.map Prod.fst := by
    simp [Dir.without, h]
  unfold Dir.add
  by_cases hn : n ∈ d.entries.map Prod.fst
  · rw [dif_pos hn, dif_pos (hmem.mpr hn)]
  · rw [dif_neg hn, dif_neg (mt hmem.mp hn)]
    simp [Dir.without, h]

/-- The note for the operator is no copy, so it stays. -/
theorem CopiesTar.fresh_withReadme {a : BuildArea β} (h : CopiesTar a) :
    a.fresh.withReadme v = (a.withReadme v).fresh := by
  have hreadme : fileName "README.md" ∉ a.copies := h.notMem (by decide)
  rw [BuildArea.fresh, BuildArea.fresh, BuildArea.withReadme, BuildArea.withReadme,
    Dir.add_without _ hreadme]

/-! ### The Samsung archives -/

/-- Everything the Samsung archives of a directory write. -/
def samsungSource (v : FileView β) (d : Dir β) : Writes β :=
  (samsungArchives d).flatMap (samsungWrites v d)

theorem Dir.sortedGlob_nodup (d : Dir β) (pattern : String) :
    ((d.sortedGlob pattern).map Prod.fst).Nodup := by
  rw [Dir.sortedGlob, ((List.perm_insertionSort _ _).map Prod.fst).nodup_iff]
  exact d.nodup.sublist (List.filter_sublist.map Prod.fst)

/-- A name of the form `AP_*.tar` is no `.md5` name. -/
theorem tar_suffix_ne {d : Dir β} (pre : List Char) {pattern : String} {x : FileName × Entry β}
    (hpre : '*' ∉ pre) (hne : pre ≠ []) (hpattern : pattern.toList = pre ++ '*' :: ".tar".toList)
    (hx : x ∈ d.sortedGlob pattern) : suffix x.1.val ≠ ".md5" := by
  have hmatch := (Dir.mem_sortedGlob.mp hx).2
  rw [fnmatch, hpattern, matchPattern_star_iff hpre (by decide)] at hmatch
  obtain ⟨mid, hmid⟩ := hmatch
  have hs : x.1.val.toList = (pre ++ mid) ++ '.' :: "tar".toList := hmid
  rw [suffix_of_append hs (by simp [hne]) (by decide) (by decide)]
  decide

theorem samsungArchives_distinct (d : Dir β) : DistinctMd5 (samsungArchives d) := by
  have hmd5s : DistinctMd5 (d.sortedGlob "*.tar.md5") :=
    (List.pairwise_map.mp (d.sortedGlob_nodup "*.tar.md5")).imp fun hne _ _ => hne
  have hothers : ∀ x ∈ d.sortedGlob "AP_*.tar" ++ d.sortedGlob "BL_*.tar",
      suffix x.1.val ≠ ".md5" := by
    intro x hx
    rcases List.mem_append.mp hx with h | h
    · exact tar_suffix_ne "AP_".toList (by decide) (by decide) rfl h
    · exact tar_suffix_ne "BL_".toList (by decide) (by decide) rfl h
  rw [samsungArchives, List.append_assoc]
  refine List.pairwise_append.mpr ⟨hmd5s, ?_, fun x _ y hy _ hmd5 => absurd hmd5 (hothers y hy)⟩
  exact List.pairwise_of_forall_mem_list fun x _ y hy _ hmd5 => absurd hmd5 (hothers y hy)

/-- The images a Samsung run finds: the archives' writes over what the folder held. -/
theorem extractSamsung_eq (hv : Extractable v) {a : BuildArea β} (h : samsungArchives a.source ≠ []) :
    (extractSamsung v a).2 = findHeimdallImages v ((decompressAll v
      ((a.folder samsungFolder).update (samsungSource v a.source))).files v) := by
  rw [extractSamsung, if_neg h, samsungSource,
    ← extractSamsungFrom_eq hv (samsungArchives_distinct a.source)]

/-- The decompressed images of a folder after the writes. -/
theorem lookup_decompress_update (t : Tree β) (ws : Writes β) {k : FileName}
    (h : fnmatch k.val "*.img" = true) :
    (decompressAll v (t.update ws)).lookup [k] =
      ((lastWrite ws [k]).or (t.lookup [k])).or
        (((lastWrite ws [compressedName k]).or (t.lookup [compressedName k])).bind v.lz4) := by
  rw [lookup_decompressAll _ h, Tree.lookup_update, Tree.lookup_update]

/-- The Samsung archives with the builder's own `.tar` copies among them write what
they write without, and a file left in the extraction folder is overwritten, is no
image, or is what the archives' compressed file holds. -/
structure SamsungFresh (v : FileView β) (a : BuildArea β) : Prop where
  copies : ∀ path, lastWrite (samsungSource v a.source) path =
    lastWrite (samsungSource v a.fresh.source) path
  image : ∀ k c, fnmatch k.val "*.img" = true → (a.folder samsungFolder).lookup [k] = some c →
    lastWrite (samsungSource v a.source) [k] = none →
    plausibleImage v (some c) =
      plausibleImage v ((lastWrite (samsungSource v a.source) [compressedName k]).bind v.lz4)
  compressed : ∀ k c, fnmatch k.val "*.img" = true →
    (a.folder samsungFolder).lookup [compressedName k] = some c →
    lastWrite (samsungSource v a.source) [compressedName k] = none →
    lastWrite (samsungSource v a.source) [k] = none →
    (a.folder samsungFolder).lookup [k] = none → plausibleImage v (v.lz4 c) = none

theorem SamsungFresh.congr {a a' : BuildArea β} (h : SamsungFresh v a)
    (hfolder : a'.folder samsungFolder = a.folder samsungFolder) (hsource : a'.source = a.source)
    (hcopies : a'.copies = a.copies) : SamsungFresh v a' := by
  constructor
  · rw [BuildArea.fresh, hsource, hcopies]
    exact h.copies
  · rw [hfolder, hsource]
    exact h.image
  · rw [hfolder, hsource]
    exact h.compressed

/-- What is left in the folder adds no image to those of the archives. -/
theorem SamsungFresh.plausible_eq {a : BuildArea β} (h : SamsungFresh v a) {k : FileName}
    (hk : fnmatch k.val "*.img" = true) :
    plausibleImage v ((decompressAll v
        ((a.folder samsungFolder).update (samsungSource v a.source))).lookup [k]) =
      plausibleImage v ((decompressAll v (Tree.empty.update (samsungSource v a.fresh.source))).lookup [k]) := by
  have hempty : ∀ path, (Tree.empty : Tree β).lookup path = none := fun _ => rfl
  rw [lookup_decompress_update _ _ hk, lookup_decompress_update _ _ hk, ← h.copies, ← h.copies,
    hempty, hempty, Option.or_none, Option.or_none]
  cases himage : lastWrite (samsungSource v a.source) [k] with
  | some c => rfl
  | none =>
    rw [Option.none_or, Option.none_or]
    cases hleft : (a.folder samsungFolder).lookup [k] with
    | some c => exact h.image k c hk hleft himage
    | none =>
      rw [Option.none_or]
      cases hcompressed : lastWrite (samsungSource v a.source) [compressedName k] with
      | some c => rfl
      | none =>
        rw [Option.none_or]
        cases hold : (a.folder samsungFolder).lookup [compressedName k] with
        | none => rfl
        | some c => exact h.compressed k c hk hold hcompressed himage hleft

/-- A Samsung run finds what it finds in an empty folder and without the copies. -/
theorem extractSamsung_fresh (hv : Extractable v) {a a₀ : BuildArea β} (h : SamsungFresh v a)
    (hsource : a₀.source = a.fresh.source) (hfolder : a₀.folder samsungFolder = Tree.empty) :
    (extractSamsung v a).2 = (extractSamsung v a₀).2 := by
  have hempty : (extractSamsung v a₀).2 = findHeimdallImages v ((decompressAll v
      (Tree.empty.update (samsungSource v a₀.source))).files v) := by
    by_cases hnil : samsungArchives a₀.source = []
    · rw [extractSamsung, if_pos hnil, samsungSource, hnil]
      rfl
    · rw [extractSamsung_eq hv hnil, hfolder]
  rw [hempty, hsource]
  by_cases hnil : samsungArchives a.source = []
  · have hfresh : samsungArchives a.fresh.source = [] := by
      rw [BuildArea.fresh, samsungArchives_without, hnil, List.filter_nil]
    rw [extractSamsung, if_pos hnil, samsungSource, hfresh]
    rfl
  · rw [extractSamsung_eq hv hnil]
    exact findHeimdallImages_files_congr fun k hk => h.plausible_eq hk

/-! ### One call -/

/-- Nothing lies loose in `os-source` that could be staged. -/
def UsesArchives (v : FileView β) (j : BuildJob) (a : BuildArea β) : Prop :=
  findSideloadZip v a.source = .ok none ∧ findFastbootImages v a.source.file? = [] ∧
    looseHeimdall v j a.source = []

/-- What earlier calls left cannot reach the staging folder. -/
structure NothingStale (v : FileView β) (j : BuildJob) (a : BuildArea β) : Prop where
  fastboot : UsesArchives v j a → ArchivesFresh v a (fastbootArchives a.source)
  samsung : UsesArchives v j a → preferHeimdall v j = true →
    (∀ x ∈ fastbootArchives a.source, archiveImages v x = []) → SamsungFresh v a

theorem archiveFolder_ne_samsung (d : Dir β) :
    ∀ x ∈ fastbootArchives d, archiveFolder x.1 ≠ samsungFolder := by
  intro x hx hfolder
  have hlast : (x.1.val.toList.getLast?.map fun c => if c == '.' then '_' else c) = some 'd' := by
    have hlist := congrArg (List.getLast? ∘ String.toList) hfolder
    simpa [archiveFolder, replaceChar, samsungFolder] using hlist
  have hend : ∀ (ending : List Char) {pattern : String}, pattern.toList = '*' :: ending →
      '*' ∉ ending → ending ≠ [] → x ∈ d.sortedGlob pattern →
      x.1.val.toList.getLast? = ending.getLast? := fun ending _ hpattern hstar hne hmem =>
    fnmatch_getLast ending hpattern hstar hne (Dir.mem_sortedGlob.mp hmem).2
  rw [fastbootArchives, List.mem_append, List.mem_append, List.mem_append] at hx
  obtain ((h | h) | h) | h := hx
  · rw [hend ".zip".toList rfl (by decide) (by decide) h] at hlast
    exact absurd hlast (by decide)
  · rw [hend ".tar".toList rfl (by decide) (by decide) h] at hlast
    exact absurd hlast (by decide)
  · rw [hend ".tar.gz".toList rfl (by decide) (by decide) h] at hlast
    exact absurd hlast (by decide)
  · rw [hend ".tgz".toList rfl (by decide) (by decide) h] at hlast
    exact absurd hlast (by decide)

/-- When the loop finds nothing, no archive holds an image. -/
theorem extractFastbootFrom_none (hv : Extractable v) {archives : List (FileName × Entry β)}
    {a : BuildArea β} (h : ArchivesFresh v a archives)
    (hnone : (extractFastbootFrom v a archives).2 = none) :
    ∀ x ∈ archives, archiveImages v x = [] := by
  induction archives generalizing a with
  | nil => simp
  | cons x rest ih =>
    rw [extractFastbootFrom_cons hv (h x List.mem_cons_self).1] at hnone
    split_ifs at hnone with hnil
    intro y hy
    rcases List.mem_cons.mp hy with rfl | hy
    · exact hnil
    · exact ih (h.tail hnil) hnone y hy

/-- What a call finds in archives. -/
def archivesFound (v : FileView β) (j : BuildJob) (a : BuildArea β) : Found β :=
  match extractFastbootFrom v a (fastbootArchives a.source) with
  | (_, some (folder, images)) => .fastboot images (join j.extractedDir folder)
  | (a', none) =>
    if preferHeimdall v j then chooseFound (extractSamsung v a').2 none [] "" else .nothing

/-- What a call finds: what lies loose, or else what is in archives. -/
theorem collect_snd (v : FileView β) (j : BuildJob) (a : BuildArea β) :
    (collect v j a).map Prod.snd =
      (findSideloadZip v (a.withReadme v).source).map fun zip =>
        if zip.isNone && (findFastbootImages v (a.withReadme v).source.file?).isEmpty &&
            (looseHeimdall v j (a.withReadme v).source).isEmpty then
          archivesFound v j (a.withReadme v)
        else
          chooseFound (looseHeimdall v j (a.withReadme v).source) zip
            (findFastbootImages v (a.withReadme v).source.file?)
            ((zip.map fun z => join j.sourceDir z.1.val).getD "") := by
  simp only [collect, archivesFound]
  cases findSideloadZip v (a.withReadme v).source with
  | error e => rfl
  | ok zip =>
    dsimp only [Except.map]
    by_cases hnone : (zip.isNone && (findFastbootImages v (a.withReadme v).source.file?).isEmpty &&
        (looseHeimdall v j (a.withReadme v).source).isEmpty) = true
    · rw [if_pos hnone, if_pos hnone]
      rcases extractFastbootFrom v (a.withReadme v) (fastbootArchives (a.withReadme v).source) with
        ⟨a', _ | ⟨folder, images⟩⟩
      · by_cases hprefer : preferHeimdall v j = true
        · simp only [if_pos hprefer]
        · simp only [if_neg hprefer]
      · rfl
    · rw [if_neg hnone, if_neg hnone]

theorem archivesFound_fresh (hv : Extractable v) (j : BuildJob) {a : BuildArea β}
    (huses : UsesArchives v j a) (h : NothingStale v j a) :
    archivesFound v j a = archivesFound v j a.fresh := by
  have hnoImages : ∀ folder, NoImages v (a.fresh.folder folder) := fun folder n hn => rfl
  have harchives := h.fastboot huses
  have hloop := extractFastbootFrom_fresh hv hnoImages harchives
  rw [← fastbootArchives_without] at hloop
  have hframe := extractFastbootFrom_frame v (archiveFolder_ne_samsung a.source) a
  have hframe₀ := extractFastbootFrom_frame v (archiveFolder_ne_samsung a.fresh.source) a.fresh
  have hnone := extractFastbootFrom_none hv harchives
  have hsource : a.fresh.source = a.source.without a.copies := rfl
  unfold archivesFound
  rw [← hsource] at hloop
  generalize extractFastbootFrom v a (fastbootArchives a.source) = r at hloop hframe hnone ⊢
  generalize extractFastbootFrom v a.fresh (fastbootArchives a.fresh.source) = r₀ at hloop hframe₀ ⊢
  obtain ⟨a', found⟩ := r
  obtain ⟨a₀, found₀⟩ := r₀
  dsimp only at hloop hframe hframe₀ hnone
  subst hloop
  cases found with
  | some r => rfl
  | none =>
    dsimp only
    split_ifs with hprefer
    · have hsamsung : SamsungFresh v a := h.samsung huses hprefer (hnone rfl)
      have hsamsung' : SamsungFresh v a' := hsamsung.congr hframe.1 hframe.2.1 hframe.2.2
      have hsource₀ : a₀.source = a'.fresh.source := by
        rw [hframe₀.2.1, BuildArea.fresh, BuildArea.fresh, hframe.2.1, hframe.2.2]
      rw [extractSamsung_fresh hv hsamsung' hsource₀ hframe₀.1]
    · rfl

theorem collect_fresh (hv : Extractable v) (j : BuildJob) {a : BuildArea β} (hcopies : CopiesTar a)
    (h : NothingStale v j (a.withReadme v)) :
    (collect v j a).map Prod.snd = (collect v j a.fresh).map Prod.snd := by
  have hcopies' : CopiesTar (a.withReadme v) := hcopies
  have hsource : (a.withReadme v).fresh.source =
    (a.withReadme v).source.without (a.withReadme v).copies := rfl
  rw [collect_snd, collect_snd, hcopies.fresh_withReadme, hsource, hcopies'.findSideloadZip_eq,
    hcopies'.findFastbootImages_eq, hcopies'.looseHeimdall_eq]
  cases hzip : findSideloadZip v (a.withReadme v).source with
  | error e => rfl
  | ok zip =>
    dsimp only [Except.map]
    split_ifs with hnone
    · rw [Bool.and_eq_true, Bool.and_eq_true, Option.isNone_iff_eq_none, List.isEmpty_iff,
        List.isEmpty_iff] at hnone
      obtain ⟨⟨rfl, hfastboot⟩, hheimdall⟩ := hnone
      rw [archivesFound_fresh hv j ⟨hzip, hfastboot, hheimdall⟩ h]
    · rfl

/-- A call with nothing stale stages what it stages in a session without earlier runs. -/
theorem buildImages_fresh (hv : Extractable v) (j : BuildJob) {a : BuildArea β}
    (hcopies : CopiesTar a) (h : NothingStale v j (a.withReadme v)) :
    (buildImages v j a).map BuildRun.staged = (buildImages v j a.fresh).map BuildRun.staged := by
  have hfound := collect_fresh hv j hcopies h
  unfold buildImages
  cases hc : collect v j a with
  | error e =>
    cases hc₀ : collect v j a.fresh with
    | error e' =>
      rw [hc, hc₀] at hfound
      exact congrArg Except.error (Except.error.inj hfound)
    | ok r => simp [hc, hc₀, Except.map] at hfound
  | ok r =>
    cases hc₀ : collect v j a.fresh with
    | error e => simp [hc, hc₀, Except.map] at hfound
    | ok r₀ =>
      rw [hc, hc₀] at hfound
      have hsame : r.2 = r₀.2 := Except.ok.inj hfound
      obtain ⟨a', f⟩ := r
      obtain ⟨a₀, f₀⟩ := r₀
      dsimp only at hsame
      rw [hsame]
      rfl

/-! ### Runs -/

def Dir.put (d : Dir β) (n : FileName) (e : Entry β) : Dir β :=
  ⟨dictSet d.entries n e, nodup_dictSet d.nodup n e⟩

/-- What happens to a session between and in calls of the builder. -/
inductive Event (β : Type*)
  | put (n : FileName) (e : Entry β)
  | remove (n : FileName)
  | build (j : BuildJob)

/-- An entry that the operator writes or removes is no copy of the builder's any more. -/
def BuildArea.step (v : FileView β) (a : BuildArea β) : Event β → BuildArea β
  | .put n e => { a with source := a.source.put n e, copies := a.copies.filter (· ≠ n) }
  | .remove n => { a with source := a.source.without [n], copies := a.copies.filter (· ≠ n) }
  | .build j =>
    match buildImages v j a with
    | .ok out => out.area
    | .error _ => a.withReadme v

def BuildArea.run (v : FileView β) (a : BuildArea β) (events : List (Event β)) : BuildArea β :=
  events.foldl (BuildArea.step v) a

theorem openSamsungArchive_copies {a : BuildArea β} {n k : FileName} {e : Entry β}
    (hk : k ∈ (openSamsungArchive a n e).1.copies) :
    k ∈ a.copies ∨ suffix n.val = ".md5" ∧ toFileName? (withoutSuffix n.val) = some k := by
  unfold openSamsungArchive at hk
  split_ifs at hk with hmd5
  · cases htar : toFileName? (withoutSuffix n.val) with
    | none =>
      rw [htar] at hk
      exact .inl hk
    | some tarName =>
      simp only [htar] at hk
      split at hk
      · exact .inl hk
      · exact .inl hk
      · rcases List.mem_append.mp hk with hk | hk
        · exact .inl hk
        · exact .inr ⟨hmd5, by rw [List.mem_singleton.mp hk]⟩
      · exact .inl hk
  · cases e <;> exact .inl hk

theorem extractSamsungFrom_copies {archives : List (FileName × Entry β)} {a : BuildArea β}
    {t : Tree β} {k : FileName} (hk : k ∈ (extractSamsungFrom v a t archives).1.copies) :
    k ∈ a.copies ∨ ∃ x ∈ archives, suffix x.1.val = ".md5" ∧
      toFileName? (withoutSuffix x.1.val) = some k := by
  induction archives generalizing a t with
  | nil => exact .inl hk
  | cons x rest ih =>
    have hrest : ∃ t', k ∈ (extractSamsungFrom v (openSamsungArchive a x.1 x.2).1 t' rest).1.copies := by
      simp only [extractSamsungFrom] at hk
      split at hk
      · exact ⟨_, hk⟩
      · exact ⟨_, hk⟩
    obtain ⟨t', ht'⟩ := hrest
    rcases ih ht' with hopen | ⟨y, hy, hcopy⟩
    · rcases openSamsungArchive_copies hopen with ha | hcopy
      · exact .inl ha
      · exact .inr ⟨x, List.mem_cons_self, hcopy⟩
    · exact .inr ⟨y, List.mem_cons_of_mem _ hy, hcopy⟩

theorem samsungArchives_md5 {d : Dir β} {x : FileName × Entry β} (hx : x ∈ samsungArchives d)
    (hmd5 : suffix x.1.val = ".md5") : fnmatch x.1.val "*.tar.md5" = true := by
  rw [samsungArchives, List.mem_append, List.mem_append] at hx
  obtain (h | h) | h := hx
  · exact (Dir.mem_sortedGlob.mp h).2
  · exact absurd hmd5 (tar_suffix_ne "AP_".toList (by decide) (by decide) rfl h)
  · exact absurd hmd5 (tar_suffix_ne "BL_".toList (by decide) (by decide) rfl h)

/-- The copy of a `.tar.md5` file is a `.tar` file. -/
theorem tarName_getLast {n k : FileName} (hn : fnmatch n.val "*.tar.md5" = true)
    (hk : toFileName? (withoutSuffix n.val) = some k) : k.val.toList.getLast? = some 'r' := by
  obtain ⟨mid, hmid⟩ := (fnmatch_star_iff ".tar.md5".toList rfl (by decide)).mp hn
  have hs : n.val.toList = (mid ++ ".tar".toList) ++ '.' :: "md5".toList := by
    rw [hmid]
    simp
  have hsuffix := suffix_of_append hs (by simp) (by decide) (by decide)
  have hjoin := congrArg String.toList (withoutSuffix_append n.val)
  rw [hsuffix, String.toList_append, String.toList_ofList, hs] at hjoin
  rw [toFileName?_eq_some hk, List.append_cancel_right hjoin, List.getLast?_append_of_ne_nil _ (by decide)]
  rfl

theorem CopiesTar.collect {a a' : BuildArea β} {j : BuildJob} {f : Found β} (h : CopiesTar a)
    (hc : collect v j a = .ok (a', f)) : CopiesTar a' := by
  have hfast : ∀ b : BuildArea β, CopiesTar b →
      CopiesTar (extractFastbootFrom v b (fastbootArchives b.source)).1 := by
    intro b hb
    rw [CopiesTar, (extractFastbootFrom_frame v (archiveFolder_ne_samsung b.source) b).2.2]
    exact hb
  have hsamsung : ∀ b : BuildArea β, CopiesTar b → CopiesTar (extractSamsung v b).1 := by
    intro b hb k hk
    unfold extractSamsung at hk
    split_ifs at hk
    · exact hb k hk
    · rcases extractSamsungFrom_copies hk with hk | ⟨x, hx, hmd5, hcopy⟩
      · exact hb k hk
      · exact tarName_getLast (samsungArchives_md5 hx hmd5) hcopy
  have hreadme : CopiesTar (a.withReadme v) := h
  obtain ⟨zip, -, ⟨rfl, -⟩ | ⟨-, -, ⟨folder, images, -, hext⟩ | ⟨a₁, hext, hrest⟩⟩⟩ := collect_cases hc
  · exact hreadme
  · have ha' := hfast _ hreadme
    rwa [hext] at ha'
  · have ha₁ := hfast _ hreadme
    rw [hext] at ha₁
    obtain ⟨-, rfl, -⟩ | ⟨-, rfl, -⟩ := hrest
    · exact hsamsung a₁ ha₁
    · exact ha₁

theorem CopiesTar.step {a : BuildArea β} (h : CopiesTar a) (e : Event β) : CopiesTar (a.step v e) := by
  cases e with
  | put n e => exact fun k hk => h k (List.mem_of_mem_filter hk)
  | remove n => exact fun k hk => h k (List.mem_of_mem_filter hk)
  | build j =>
    rw [BuildArea.step]
    split
    · rename_i out hout
      obtain ⟨f, hcollect, -, -⟩ := buildImages_ok hout
      exact h.collect hcollect
    · exact h

theorem CopiesTar.run {a : BuildArea β} (h : CopiesTar a) (events : List (Event β)) :
    CopiesTar (a.run v events) := by
  induction events generalizing a with
  | nil => exact h
  | cons e events ih => exact ih (h.step e)

end ForgeOS.Image
