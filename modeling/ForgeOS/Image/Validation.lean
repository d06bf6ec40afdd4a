import ForgeOS.Image.Provenance
import ForgeOS.Learning.Codegen

/-! What the validation behind a remediation artifact leaves in `os-source`, beside what the
builder takes from there. Both have the same test for an image, but the builder asks a sideload
package and an archive for their members, and the validation asks them for what an image must
have. -/

namespace ForgeOS.Image

open ForgeOS.Python ForgeOS.Learning

variable {β : Type*} {v : FileView β} {j : BuildJob} {a : BuildArea β}

/-! ### The files that the builder uses -/

/-- The members that the builder extracts of an archive. -/
def fastbootMembers (v : FileView β) (x : FileName × Entry β) : List (Member β) :=
  match x.2 with
  | .folder => []
  | .file c =>
    if suffix x.1.val = ".zip" then
      match v.zip c with
      | .members ms => ms.filter inFastbootOrder
      | _ => []
    else ((v.tar c).getD []).filter fun m => m.isFile && inFastbootOrder m

/-- The archives that the loop of `_extract_fastboot_archive` opens: up to the first one that
leaves images in its folder. -/
def openedArchives (v : FileView β) :
    BuildArea β → List (FileName × Entry β) → List (FileName × Entry β)
  | _, [] => []
  | a, x :: rest =>
    let folder := archiveFolder x.1
    let (t, ok) := extractArchive v x.1 x.2 (a.folder folder)
    let images := findFastbootImages v fun n => t.lookup [n]
    if ok && !images.isEmpty then [x] else x :: openedArchives v (a.setFolder folder t) rest

theorem openedArchives_subset (archives : List (FileName × Entry β)) (a : BuildArea β) :
    openedArchives v a archives ⊆ archives := by
  induction archives generalizing a with
  | nil => exact List.Subset.refl _
  | cons x rest ih =>
    simp only [openedArchives]
    split_ifs
    · exact List.cons_subset_cons x (List.nil_subset rest)
    · exact List.cons_subset_cons x (ih _)

/-- An archive that fastboot images are extracted from. -/
def fastbootSource (v : FileView β) (x : FileName × Entry β) : Option (FileName × β) :=
  match x.2 with
  | .file c => if fastbootMembers v x = [] then none else some (x.1, c)
  | .folder => none

/-- The file that is opened for a Samsung archive, if images are extracted from it. -/
def samsungFile (v : FileView β) (d : Dir β) (x : FileName × Entry β) : Option (FileName × β) :=
  match samsungName x.1, samsungBytes d x.1 x.2 with
  | some n, some c => if ((v.tar c).getD []).any isSamsungImage then some (n, c) else none
  | _, _ => none

/-- The archives that a run extracts images from, when nothing lies loose. -/
def archivesUsed (v : FileView β) (j : BuildJob) (a : BuildArea β) : List (FileName × β) :=
  (openedArchives v a (fastbootArchives a.source)).filterMap (fastbootSource v) ++
    match extractFastbootFrom v a (fastbootArchives a.source) with
    | (_, some _) => []
    | (a', none) =>
      if preferHeimdall v j then (samsungArchives a'.source).filterMap (samsungFile v a'.source)
      else []

/-- The files of `os-source` that a run stages or extracts images from. -/
def filesUsed (v : FileView β) (j : BuildJob) (a : BuildArea β) : List (FileName × β) :=
  let a := a.withReadme v
  let fastboot := findFastbootImages v a.source.file?
  let heimdall := looseHeimdall v j a.source
  match findSideloadZip v a.source with
  | .error _ => []
  | .ok zip =>
    if zip.isNone && fastboot.isEmpty && heimdall.isEmpty then archivesUsed v j a
    else (chooseFound heimdall zip fastboot "").staged

/-- The sideload package or the archives among them. -/
def packagesUsed (v : FileView β) (j : BuildJob) (a : BuildArea β) : List (FileName × β) :=
  match findSideloadZip v a.source with
  | .error _ => []
  | .ok (some zip) => if looseHeimdall v j a.source = [] then [zip] else []
  | .ok none =>
    if findFastbootImages v a.source.file? = [] ∧ looseHeimdall v j a.source = [] then
      archivesUsed v j a
    else []

/-! ### The validation -/

/-- A byte as the character that the search for markers compares. -/
def byteChar (b : UInt8) : Char := Char.ofNat b.toNat

/-- An entry of `os-source` as the validation sees it. -/
def sourceFile (v : FileView β) (x : FileName × Entry β) : SourceFile :=
  match x.2 with
  | .file c =>
    { name := x.1.val, size := v.size c, sample := some (String.ofList ((v.head c).map byteChar)) }
  | .folder => { name := x.1.val, isFile := false, size := 0, sample := none }

/-- The names in `os-source` behind the validation. -/
def validatedNames (v : FileView β) (j : BuildJob) (d : Dir β) (task : RemediationTask)
    (output : ArtifactOutput) : List String :=
  (validateSideEffects v.lower task j.sourceDir (d.entries.map (sourceFile v)) output).1.map
    SourceFile.name

theorem byteChar_toNat (b : UInt8) : (byteChar b).toNat = b.toNat :=
  by
  have hvalid : b.toNat.isValidChar := .inl (b.toNat_lt.trans (by decide))
  unfold byteChar Char.ofNat
  rw [dif_pos hvalid]
  rfl

theorem byteChar_injective : Function.Injective byteChar := by
  intro b b' h
  have hnat : b.toNat = b'.toNat := by rw [← byteChar_toNat, ← byteChar_toNat, h]
  exact UInt8.toNat_inj.mp hnat

theorem byteChar_lower (b : UInt8) :
    (if 'A' ≤ byteChar b ∧ byteChar b ≤ 'Z' then Char.ofNat ((byteChar b).toNat + 32) else byteChar b) =
      byteChar (lowerByte b) := by
  have hall : ∀ n : Fin 256,
      (if 'A' ≤ byteChar (UInt8.ofNat n) ∧ byteChar (UInt8.ofNat n) ≤ 'Z' then
          Char.ofNat ((byteChar (UInt8.ofNat n)).toNat + 32)
        else byteChar (UInt8.ofNat n)) = byteChar (lowerByte (UInt8.ofNat n)) := by
    set_option maxRecDepth 8000 in decide
  have hb := hall ⟨b.toNat, b.toNat_lt⟩
  rw [UInt8.ofNat_toNat] at hb
  exact hb

theorem infix_map_byteChar {marker bytes : List UInt8} :
    marker.map byteChar <:+: bytes.map byteChar ↔ marker <:+: bytes := by
  rw [List.infix_map_iff]
  constructor
  · rintro ⟨l, hl, hmap⟩
    rwa [List.map_injective_iff.mpr byteChar_injective hmap]
  · exact fun h => ⟨marker, h, rfl⟩

/-- Both tests are the same. -/
theorem isPlausible_sourceFile (n : FileName) (c : β) :
    (sourceFile v (n, .file c)).isPlausible = isPlausibleImage v c := by
  have hlower : (asciiLower (String.ofList ((v.head c).map byteChar))).toList =
      ((v.head c).map lowerByte).map byteChar := by
    simp only [asciiLower, String.toList_ofList, List.map_map, Function.comp_def, byteChar_lower]
  have hmarker : ∀ marker ∈ fakeMarkers, marker.toList = (bytesOf marker).map byteChar := by decide
  have hcontains : ∀ marker ∈ fakeMarkers,
      contains (asciiLower (String.ofList ((v.head c).map byteChar))) marker =
        decide (bytesOf marker <:+: (v.head c).map lowerByte) := by
    intro marker hmem
    rw [contains, hlower, hmarker marker hmem]
    exact decide_eq_decide.mpr infix_map_byteChar
  have hany : (fakeMarkers.any fun marker =>
        contains (asciiLower (String.ofList ((v.head c).map byteChar))) marker) =
      fakeMarkers.any fun marker => decide (bytesOf marker <:+: (v.head c).map lowerByte) := by
    rw [Bool.eq_iff_iff, List.any_eq_true, List.any_eq_true]
    exact exists_congr fun marker => and_congr_right fun hmem => by rw [hcontains marker hmem]
  change (decide (1024 * 1024 ≤ v.size c) && !fakeMarkers.any fun marker =>
      contains (asciiLower (String.ofList ((v.head c).map byteChar))) marker) =
    if v.size c < 1024 * 1024 then false
    else !fakeMarkers.any fun marker => decide (bytesOf marker <:+: (v.head c).map lowerByte)
  rw [hany]
  by_cases hsize : v.size c < 1024 * 1024
  · rw [if_pos hsize, decide_eq_false (Nat.not_le.mpr hsize), Bool.false_and]
  · rw [if_neg hsize, decide_eq_true (Nat.not_lt.mp hsize), Bool.true_and]

@[simp] theorem sourceFile_name (x : FileName × Entry β) : (sourceFile v x).name = x.1.val := by
  unfold sourceFile
  split <;> rfl

/-- A file that the validation does not look at, or that has what an image must have. -/
def Spared (v : FileView β) (x : FileName × β) : Prop :=
  v.lower (suffix x.1.val) ∈ [".zip", ".img", ".gz", ".tar", ".bin"] → isPlausibleImage v x.2 = true

instance (v : FileView β) (x : FileName × β) : Decidable (Spared v x) :=
  inferInstanceAs (Decidable (_ → _))

/-- A file stays exactly when it is spared. -/
theorem kept_iff {d : Dir β} {x : FileName × β} (hx : d.lookup x.1 = some (.file x.2))
    (hreadme : x.1.val ≠ "README.md") (task : RemediationTask) (output : ArtifactOutput) :
    x.1.val ∈ validatedNames v j d task output ↔
      (task.remediationFamily = sourceFamily → Spared v x) := by
  have hmem : (x.1, .file x.2) ∈ d.entries := d.mem_lookup.mp hx
  have hspared : ((sourceFile v (x.1, .file x.2)).isArtifact v.lower &&
      !(sourceFile v (x.1, .file x.2)).isPlausible) = false ↔ Spared v x := by
    rw [isPlausible_sourceFile, Spared]
    simp [sourceFile, SourceFile.isArtifact, hreadme]
  unfold validatedNames validateSideEffects
  by_cases hfamily : task.remediationFamily = sourceFamily
  · simp only [ne_eq, hfamily, not_true_eq_false, if_false, true_implies, ← hspared]
    constructor
    · intro h
      obtain ⟨f, hf, hname⟩ := List.mem_map.mp h
      obtain ⟨hf, hkept⟩ := List.mem_filter.mp hf
      obtain ⟨e, he, rfl⟩ := List.mem_map.mp hf
      rw [sourceFile_name] at hname
      -- no other entry has the name
      have hsame : e = (x.1, .file x.2) := d.entry_inj he hmem (Subtype.ext hname)
      rwa [hsame, Bool.not_eq_true'] at hkept
    · intro h
      refine List.mem_map.mpr ⟨sourceFile v (x.1, .file x.2), List.mem_filter.mpr ⟨?_, ?_⟩, ?_⟩
      · exact List.mem_map_of_mem hmem
      · rw [h, Bool.not_false]
      · rw [sourceFile_name]
  · simp only [ne_eq, hfamily, not_false_eq_true, if_true, false_implies, iff_true, List.map_map]
    exact List.mem_map.mpr ⟨(x.1, .file x.2), hmem, sourceFile_name _⟩

/-! ### The directory after a run -/

theorem Dir.lookup_add_of_some {d : Dir β} {k : FileName} {e : Entry β} (h : d.lookup k = some e)
    (n : FileName) (c : β) : (d.add n c).lookup k = some e := by
  by_cases hk : k = n
  · subst hk
    have hmem : k ∈ d.entries.map Prod.fst := List.mem_map_of_mem (d.mem_lookup.mp h)
    rw [Dir.add, dif_pos hmem, h]
  · rw [d.lookup_add n k c hk, h]

theorem Dir.lookup_add_self {d : Dir β} {n : FileName} (h : d.lookup n = none) (c : β) :
    (d.add n c).lookup n = some (.file c) := by
  have hmem : n ∉ d.entries.map Prod.fst := by
    intro hmem
    obtain ⟨e, he, rfl⟩ := List.mem_map.mp hmem
    rw [d.mem_lookup.mpr he] at h
    cases h
  rw [Dir.mem_lookup, Dir.add, dif_neg hmem]
  exact List.mem_append_right _ (List.mem_singleton.mpr rfl)

/-- Opening an archive takes nothing away. -/
theorem openSamsungArchive_keeps {k : FileName} {e : Entry β} (h : a.source.lookup k = some e)
    (x : FileName × Entry β) : (openSamsungArchive a x.1 x.2).1.source.lookup k = some e := by
  unfold openSamsungArchive
  split_ifs
  · cases toFileName? (withoutSuffix x.1.val) with
    | none => exact h
    | some tarName =>
      dsimp only
      split
      · exact h
      · exact h
      · exact Dir.lookup_add_of_some h tarName _
      · exact h
  · split <;> exact h

theorem extractSamsungFrom_keeps {archives : List (FileName × Entry β)} {t : Tree β} {k : FileName}
    {e : Entry β} (h : a.source.lookup k = some e) :
    (extractSamsungFrom v a t archives).1.source.lookup k = some e := by
  induction archives generalizing a t with
  | nil => exact h
  | cons x rest ih =>
    simp only [extractSamsungFrom]
    split
    · exact ih (openSamsungArchive_keeps h x)
    · exact ih (openSamsungArchive_keeps h x)

/-- The file that is opened for an archive is there once it has been opened. -/
theorem openSamsungArchive_file {x : FileName × Entry β} {y : FileName × β}
    (hx : a.source.lookup x.1 = some x.2) (hy : samsungFile v a.source x = some y) :
    (openSamsungArchive a x.1 x.2).1.source.lookup y.1 = some (.file y.2) := by
  unfold samsungFile at hy
  split at hy
  · rename_i n c hn hc
    split_ifs at hy
    cases hy
    unfold samsungName at hn
    unfold samsungBytes at hc
    unfold openSamsungArchive
    split_ifs at hn hc ⊢ with hmd5
    · simp only [hn] at hc ⊢
      split at hc
      · rename_i hl
        cases hc
        simp only [hl]
      · cases hc
      · rename_i hl hfile
        cases hc
        simp only [hl, hfile]
        exact Dir.lookup_add_self hl _
      · cases hc
    · cases hn
      split at hc
      · rename_i hfile
        cases hc
        simp only [hfile] at hx ⊢
        exact hx
      · cases hc
  · cases hy

theorem extractSamsungFrom_file {archives : List (FileName × Entry β)}
    (hdistinct : DistinctMd5 archives) {t : Tree β}
    (hthere : ∀ x ∈ archives, a.source.lookup x.1 = some x.2) {y : FileName × β}
    (hy : y ∈ archives.filterMap (samsungFile v a.source)) :
    (extractSamsungFrom v a t archives).1.source.lookup y.1 = some (.file y.2) := by
  induction archives generalizing a t with
  | nil => exact absurd hy List.not_mem_nil
  | cons x rest ih =>
    obtain ⟨hhead, htail⟩ := List.pairwise_cons.mp hdistinct
    have hrest : ∀ t', (extractSamsungFrom v (openSamsungArchive a x.1 x.2).1 t' rest).1.source.lookup
        y.1 = some (.file y.2) := by
      intro t'
      obtain ⟨z, hz, hzy⟩ := List.mem_filterMap.mp hy
      rcases List.mem_cons.mp hz with rfl | hz
      · exact extractSamsungFrom_keeps (openSamsungArchive_file (hthere z List.mem_cons_self) hzy)
      · refine ih htail (fun w hw => openSamsungArchive_keeps (hthere w (List.mem_cons_of_mem _ hw)) x)
          (List.mem_filterMap.mpr ⟨z, hz, ?_⟩)
        rw [samsungFile, samsungBytes_after a (hhead z hz)]
        exact hzy
    simp only [extractSamsungFrom]
    split
    · exact hrest _
    · exact hrest _

theorem extractSamsung_keeps {k : FileName} {e : Entry β} (h : a.source.lookup k = some e) :
    (extractSamsung v a).1.source.lookup k = some e := by
  unfold extractSamsung
  split_ifs
  · exact h
  · exact extractSamsungFrom_keeps h

theorem extractSamsung_file {y : FileName × β}
    (hy : y ∈ (samsungArchives a.source).filterMap (samsungFile v a.source)) :
    (extractSamsung v a).1.source.lookup y.1 = some (.file y.2) := by
  have hthere : ∀ x ∈ samsungArchives a.source, a.source.lookup x.1 = some x.2 := by
    intro x hx
    rw [samsungArchives, List.mem_append, List.mem_append] at hx
    obtain (h | h) | h := hx
    · exact a.source.mem_lookup.mpr (Dir.mem_sortedGlob.mp h).1
    · exact a.source.mem_lookup.mpr (Dir.mem_sortedGlob.mp h).1
    · exact a.source.mem_lookup.mpr (Dir.mem_sortedGlob.mp h).1
  unfold extractSamsung
  split_ifs with hnil
  · rw [hnil] at hy
    exact absurd hy List.not_mem_nil
  · exact extractSamsungFrom_file (samsungArchives_distinct a.source) hthere hy

/-! ### What lies in archives -/

theorem fastbootArchives_source {d : Dir β} {x : FileName × Entry β} {y : FileName × β}
    (hx : x ∈ fastbootArchives d) (hy : fastbootSource v x = some y) : IsSource d y := by
  obtain ⟨n, e⟩ := x
  cases e with
  | file c =>
    simp only [fastbootSource] at hy
    split_ifs at hy
    cases hy
    exact fastbootArchive_source hx
  | folder => cases hy

theorem extractSamsung_source {y : FileName × β}
    (hy : y ∈ (samsungArchives a.source).filterMap (samsungFile v a.source)) :
    IsSource (extractSamsung v a).1.source y := by
  refine ⟨extractSamsung_file hy, ?_⟩
  obtain ⟨x, hx, hfile⟩ := List.mem_filterMap.mp hy
  unfold samsungFile at hfile
  split at hfile
  · rename_i n c hn hc
    split_ifs at hfile
    cases hfile
    exact samsungName_ne hx hn
  · cases hfile

/-- The files that a run uses are in `os-source` behind it. -/
theorem filesUsed_source {a' : BuildArea β} {f : Found β} (h : collect v j a = .ok (a', f)) :
    ∀ x ∈ filesUsed v j a, IsSource a'.source x := by
  intro x hx
  simp only [collect] at h
  simp only [filesUsed] at hx
  generalize a.withReadme v = b at h hx
  cases hzip : findSideloadZip v b.source with
  | error e =>
    simp only [hzip] at h
    cases h
  | ok zip =>
    simp only [hzip] at h hx
    by_cases hnone : (zip.isNone && (findFastbootImages v b.source.file?).isEmpty &&
        (looseHeimdall v j b.source).isEmpty) = true
    · rw [if_pos hnone] at h hx
      have hsource := (extractFastbootFrom_frame v (archiveFolder_ne_samsung b.source) b).2.1
      rcases hext : extractFastbootFrom v b (fastbootArchives b.source) with ⟨a₁, found⟩
      rw [hext] at hsource
      dsimp only at hsource
      rcases List.mem_append.mp hx with hx | hx
      · obtain ⟨y, hy, hyx⟩ := List.mem_filterMap.mp hx
        have hx₁ : IsSource a₁.source x := by
          rw [hsource]
          exact fastbootArchives_source (openedArchives_subset _ b hy) hyx
        simp only [hext] at h
        cases found with
        | some found =>
          cases h
          exact hx₁
        | none =>
          dsimp only at h
          split_ifs at h
          · cases h
            exact ⟨extractSamsung_keeps hx₁.lookup, hx₁.name⟩
          · cases h
            exact hx₁
      · simp only [hext] at h hx
        cases found with
        | some found => exact absurd hx List.not_mem_nil
        | none =>
          dsimp only at h hx
          split_ifs at h hx
          · cases h
            exact extractSamsung_source hx
          · exact absurd hx List.not_mem_nil
    · rw [if_neg hnone] at h hx
      cases h
      exact chooseFound_source hzip hx

/-! ### What is destroyed -/

theorem spared_of_plausible {x : FileName × β} (h : isPlausibleImage v x.2 = true) : Spared v x :=
  fun _ => h

/-- Images that lie loose are spared. -/
theorem spared_images {d : Dir β} {i : FoundImage β}
    (hi : i ∈ looseHeimdall v j d ∨ i ∈ findFastbootImages v d.file?) :
    Spared v (i.name, i.content) := by
  rcases hi with hi | hi
  · unfold looseHeimdall at hi
    split_ifs at hi
    · exact spared_of_plausible (mem_findHeimdallImages hi).2
    · exact absurd hi List.not_mem_nil
  · exact spared_of_plausible (mem_findFastbootImages hi).2

/-- A run uses packages, or images that lie loose. -/
theorem filesUsed_cases (v : FileView β) (j : BuildJob) (a : BuildArea β) :
    filesUsed v j a = packagesUsed v j (a.withReadme v) ∨
      packagesUsed v j (a.withReadme v) = [] ∧
        ∃ images : List (FoundImage β), filesUsed v j a = images.map (fun i => (i.name, i.content)) ∧
          ∀ i ∈ images, i ∈ looseHeimdall v j (a.withReadme v).source ∨
            i ∈ findFastbootImages v (a.withReadme v).source.file? := by
  simp only [filesUsed, packagesUsed]
  generalize a.withReadme v = b
  cases findSideloadZip v b.source with
  | error e => exact .inl rfl
  | ok zip =>
    dsimp only
    rcases eq_or_ne (looseHeimdall v j b.source) [] with hnil | hne
    · rw [hnil]
      cases zip with
      | some z => exact .inl rfl
      | none =>
        rcases eq_or_ne (findFastbootImages v b.source.file?) [] with hfast | hfast
        · rw [hfast]
          exact .inl rfl
        · refine .inr ⟨if_neg fun h => hfast h.1, _, ?_, fun i hi => .inr hi⟩
          rw [List.isEmpty_eq_false_iff.mpr hfast, chooseFound_fastboot hfast]
          rfl
    · refine .inr ⟨?_, _, ?_, fun i hi => .inl hi⟩
      · cases zip with
        | some z => exact if_neg hne
        | none => exact if_neg fun h => hne h.2
      · rw [List.isEmpty_eq_false_iff.mpr hne, Bool.and_false, chooseFound_heimdall hne]
        rfl

/-- Only a package or an archive can be in danger. -/
theorem spared_iff :
    (∀ x ∈ filesUsed v j a, Spared v x) ↔ ∀ x ∈ packagesUsed v j (a.withReadme v), Spared v x := by
  rcases filesUsed_cases v j a with heq | ⟨hnil, images, himages, hloose⟩
  · rw [heq]
  · rw [hnil, himages]
    refine ⟨fun _ x hx => absurd hx List.not_mem_nil, fun _ x hx => ?_⟩
    obtain ⟨i, hi, rfl⟩ := List.mem_map.mp hx
    exact spared_images (hloose i hi)

/-- The validation keeps every file that the builder uses exactly when the package or the archives
among them have what an image must have, or a suffix that it does not look at. -/
theorem validation_keeps_iff {out : BuildRun β} (hrun : buildImages v j a = .ok out)
    (task : RemediationTask) (output : ArtifactOutput) :
    (∀ x ∈ filesUsed v j a, x.1.val ∈ validatedNames v j out.area.source task output) ↔
      (task.remediationFamily = sourceFamily →
        ∀ x ∈ packagesUsed v j (a.withReadme v), Spared v x) := by
  obtain ⟨f, hcollect, -, -⟩ := buildImages_ok hrun
  have hsource := filesUsed_source hcollect
  rw [← spared_iff]
  constructor
  · intro h hfamily x hx
    exact (kept_iff (hsource x hx).lookup (hsource x hx).name task output).mp (h x hx) hfamily
  · intro h x hx
    exact (kept_iff (hsource x hx).lookup (hsource x hx).name task output).mpr
      fun hfamily => h hfamily x hx

def sourceTask : RemediationTask :=
  taskManifest "source_blocker" "" "observe" "unknown" "2025-01-01T00:00:00+00:00"

theorem validation_keeps_lineage : ∃ out : BuildRun String,
    buildImages textView romJob (oneFile (fileName "lineage.zip") "ota") = .ok out ∧
      filesUsed textView romJob (oneFile (fileName "lineage.zip") "ota") =
        [(fileName "lineage.zip", "ota")] ∧
      ∀ x ∈ filesUsed textView romJob (oneFile (fileName "lineage.zip") "ota"),
        x.1.val ∈ validatedNames textView romJob out.area.source sourceTask {} :=
  ⟨_, rfl, by decide, (validation_keeps_iff rfl sourceTask {}).mpr (by decide)⟩

/-- Files of two kilobytes each, with the same members. -/
def tinyView : FileView String := { textView with size := fun _ => 2048 }

/-- A small package is staged, and is gone behind the validation. -/
theorem tiny_package_removed : ∃ out : BuildRun String,
    buildImages tinyView romJob (oneFile (fileName "lineage.zip") "ota") = .ok out ∧
      out.artifacts.status = "ready" ∧
      filesUsed tinyView romJob (oneFile (fileName "lineage.zip") "ota") =
        [(fileName "lineage.zip", "ota")] ∧
      validatedNames tinyView romJob out.area.source sourceTask {} = ["README.md"] :=
  ⟨_, rfl, by decide, by decide, by decide⟩

end ForgeOS.Image
