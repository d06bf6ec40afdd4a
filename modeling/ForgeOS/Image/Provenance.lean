import ForgeOS.Image.Staleness

/-! Where the bytes come from that a call of the builder stages. In a session without earlier runs
they are those of a file of `os-source` or of a member of an archive there, and for a Samsung device
also what `lz4` makes of such a member; so they are in every session in which nothing stale reaches
the staging folder. -/

namespace ForgeOS.Image

open ForgeOS.Python

variable {β : Type*} {v : FileView β} {j : BuildJob} {a : BuildArea β}

/-! ### What lies loose -/

/-- A file of `os-source` that is not the note for the operator. -/
structure IsSource (d : Dir β) (x : FileName × β) : Prop where
  lookup : d.lookup x.1 = some (.file x.2)
  name : x.1.val ≠ "README.md"

theorem ne_readme_of_fnmatch {n : FileName} {pattern : String} (h : fnmatch n.val pattern = true)
    (r : fnmatch "README.md" pattern = false := by decide) : n.val ≠ "README.md" := by
  intro hn
  rw [hn, r] at h
  cases h

theorem Dir.there_of_sortedGlob {d : Dir β} {pattern : String} {x : FileName × Entry β}
    (hx : x ∈ d.sortedGlob pattern) (r : fnmatch "README.md" pattern = false := by decide) :
    d.lookup x.1 = some x.2 ∧ x.1.val ≠ "README.md" := by
  obtain ⟨hmem, hmatch⟩ := Dir.mem_sortedGlob.mp hx
  exact ⟨d.mem_lookup.mpr hmem, ne_readme_of_fnmatch hmatch r⟩

theorem Dir.mem_files {d : Dir β} {f : FileName × β} :
    f ∈ d.files v ↔ d.lookup f.1 = some (.file f.2) := by
  rw [Dir.files, List.mem_insertionSort, List.mem_filterMap, Dir.mem_lookup]
  constructor
  · rintro ⟨⟨n, e⟩, hmem, he⟩
    cases e with
    | file c =>
      cases he
      exact hmem
    | folder => cases he
  · exact fun h => ⟨_, h, rfl⟩

theorem Dir.file?_eq_some {d : Dir β} {n : FileName} {c : β} :
    d.file? n = some c ↔ d.lookup n = some (.file c) := by
  unfold Dir.file?
  constructor
  · intro h
    split at h
    · rename_i hl
      cases h
      exact hl
    · cases h
  · intro h
    rw [h]

theorem mem_findHeimdallImages {d : Dir β} {i : FoundImage β}
    (hi : i ∈ findHeimdallImages v (d.files v)) :
    IsSource d (i.name, i.content) ∧ isPlausibleImage v i.content = true := by
  obtain ⟨⟨partition, patterns⟩, -, hmap⟩ := List.mem_filterMap.mp hi
  obtain ⟨f, hf, rfl⟩ := Option.map_eq_some_iff.mp hmap
  obtain ⟨pattern, -, hfind⟩ := List.exists_of_findSome?_eq_some hf
  obtain ⟨hmem, himg⟩ := List.mem_filter.mp (List.mem_of_find?_eq_some hfind)
  rw [Bool.and_eq_true] at himg
  exact ⟨⟨Dir.mem_files.mp hmem, ne_readme_of_fnmatch himg.1⟩, himg.2⟩

theorem mem_findFastbootImages {d : Dir β} {i : FoundImage β}
    (hi : i ∈ findFastbootImages v d.file?) :
    IsSource d (i.name, i.content) ∧ isPlausibleImage v i.content = true := by
  obtain ⟨n, hn, hmatch⟩ := List.mem_filterMap.mp hi
  cases hl : d.file? n with
  | none => simp [hl] at hmatch
  | some c =>
    simp only [hl] at hmatch
    split_ifs at hmatch with hplausible
    cases hmatch
    have hnames : ∀ n ∈ fastbootOrder, n.val ≠ "README.md" := by decide
    exact ⟨⟨Dir.file?_eq_some.mp hl, hnames n hn⟩, hplausible⟩

theorem firstSideloadZip_mem {candidates : List (FileName × Entry β)} {z : FileName × β}
    (h : firstSideloadZip v candidates = .ok (some z)) : (z.1, .file z.2) ∈ candidates := by
  induction candidates with
  | nil => cases h
  | cons x rest ih =>
    simp only [firstSideloadZip] at h
    split at h
    · cases h
    · rename_i hfile
      cases h
      rw [← hfile]
      exact List.mem_cons_self
    · exact List.mem_cons_of_mem _ (ih h)

theorem findSideloadZip_source {d : Dir β} {z : FileName × β}
    (h : findSideloadZip v d = .ok (some z)) : IsSource d z := by
  rcases List.mem_append.mp (firstSideloadZip_mem h) with hmem | hmem
  · obtain ⟨n, hn, hmap⟩ := List.mem_filterMap.mp hmem
    obtain ⟨e, he, hz⟩ := Option.map_eq_some_iff.mp hmap
    cases hz
    have hnames : ∀ n ∈ [fileName "update.zip", fileName "ota.zip", fileName "payload.zip"],
        n.val ≠ "README.md" := by decide
    exact ⟨he, hnames z.1 hn⟩
  · obtain ⟨hthere, hname⟩ := Dir.there_of_sortedGlob hmem
    exact ⟨hthere, hname⟩

/-- What is staged from `os-source` itself. -/
theorem chooseFound_source {d : Dir β} {zip : Option (FileName × β)}
    (hzip : findSideloadZip v d = .ok zip) {s : String} {x : FileName × β}
    (hx : x ∈ (chooseFound (looseHeimdall v j d) zip (findFastbootImages v d.file?) s).staged) :
    IsSource d x := by
  rcases eq_or_ne (looseHeimdall v j d) [] with hnil | hne
  · rw [hnil] at hx
    cases zip with
    | some z =>
      rw [chooseFound_sideload] at hx
      rw [List.mem_singleton.mp hx]
      exact findSideloadZip_source hzip
    | none =>
      rcases eq_or_ne (findFastbootImages v d.file?) [] with hfast | hfast
      · rw [hfast, chooseFound_nothing] at hx
        exact absurd hx List.not_mem_nil
      · rw [chooseFound_fastboot hfast] at hx
        obtain ⟨i, hi, rfl⟩ := List.mem_map.mp hx
        exact (mem_findFastbootImages hi).1
  · rw [chooseFound_heimdall hne] at hx
    obtain ⟨i, hi, rfl⟩ := List.mem_map.mp hx
    unfold looseHeimdall at hi
    split_ifs at hi
    · exact (mem_findHeimdallImages hi).1
    · exact absurd hi List.not_mem_nil

/-! ### Archives -/

theorem fastbootArchive_source {d : Dir β} {n : FileName} {c : β}
    (h : (n, .file c) ∈ fastbootArchives d) : IsSource d (n, c) := by
  have hthere : d.lookup n = some (.file c) ∧ n.val ≠ "README.md" := by
    rw [fastbootArchives, List.mem_append, List.mem_append, List.mem_append] at h
    obtain ((h | h) | h) | h := h
    · exact Dir.there_of_sortedGlob h
    · exact Dir.there_of_sortedGlob h
    · exact Dir.there_of_sortedGlob h
    · exact Dir.there_of_sortedGlob h
  exact ⟨hthere.1, hthere.2⟩

theorem samsungArchive_there {d : Dir β} {x : FileName × Entry β} (hx : x ∈ samsungArchives d) :
    d.lookup x.1 = some x.2 ∧ x.1.val ≠ "README.md" := by
  rw [samsungArchives, List.mem_append, List.mem_append] at hx
  obtain (h | h) | h := hx
  · exact Dir.there_of_sortedGlob h
  · exact Dir.there_of_sortedGlob h
  · exact Dir.there_of_sortedGlob h

/-- The name under which a Samsung archive is opened. -/
def samsungName (n : FileName) : Option FileName :=
  if suffix n.val = ".md5" then toFileName? (withoutSuffix n.val) else some n

theorem samsungName_ne {d : Dir β} {x : FileName × Entry β} {n : FileName}
    (hx : x ∈ samsungArchives d) (hn : samsungName x.1 = some n) : n.val ≠ "README.md" := by
  unfold samsungName at hn
  split_ifs at hn with hmd5
  · intro hreadme
    have hlast := tarName_getLast (samsungArchives_md5 hx hmd5) hn
    rw [hreadme] at hlast
    exact absurd hlast (by decide)
  · cases hn
    exact (samsungArchive_there hx).2

/-- What is opened for a Samsung archive is a file of `os-source`. -/
theorem samsungBytes_source {d : Dir β} {x : FileName × Entry β} {c : β}
    (hx : x ∈ samsungArchives d) (h : samsungBytes d x.1 x.2 = some c) : ∃ n, IsSource d (n, c) := by
  obtain ⟨hthere, hreadme⟩ := samsungArchive_there hx
  unfold samsungBytes at h
  split_ifs at h with hmd5
  · cases hn : toFileName? (withoutSuffix x.1.val) with
    | none => simp [hn] at h
    | some tarName =>
      simp only [hn] at h
      split at h
      · rename_i hl
        cases h
        exact ⟨tarName, hl, samsungName_ne hx (by rw [samsungName, if_pos hmd5, hn])⟩
      · cases h
      · rename_i hfile
        cases h
        exact ⟨x.1, hfile ▸ hthere, hreadme⟩
      · cases h
  · split at h
    · rename_i hfile
      cases h
      exact ⟨x.1, hfile ▸ hthere, hreadme⟩
    · cases h

/-! ### Members -/

/-- The bytes of a member of an archive. -/
def IsMember (v : FileView β) (archive c : β) : Prop :=
  ∃ ms, (v.zip archive = .members ms ∨ v.tar archive = some ms) ∧ ∃ m ∈ ms, m.bytes = some c

/-- The bytes of a member of an archive in `os-source`. -/
def HasMember (v : FileView β) (d : Dir β) (c : β) : Prop := ∃ x, IsSource d x ∧ IsMember v x.2 c

/-- Where staged bytes come from. -/
inductive FromSource (v : FileView β) (j : BuildJob) (d : Dir β) (c : β) : Prop
  | file {n : FileName} (h : IsSource d (n, c))
  | member (h : HasMember v d c)
  | decompressed {compressed : β} (hsamsung : preferHeimdall v j = true)
      (h : HasMember v d compressed) (hlz4 : v.lz4 compressed = some c)

theorem place_bytes {m : Member β} {w : List FileName × β} (h : m.place = some w) :
    m.bytes = some w.2 := by
  unfold Member.place at h
  split_ifs at h
  split at h
  · rename_i hbytes
    cases h
    exact hbytes
  · cases h

theorem mem_flatWrites {m : Member β} {w : List FileName × β} (h : w ∈ flatWrites m) :
    m.bytes = some w.2 := by
  unfold flatWrites at h
  split at h
  · rename_i hplace
    have hbytes := place_bytes hplace
    rcases List.mem_cons.mp h with rfl | h
    · exact hbytes
    · rw [List.mem_singleton.mp h]
      exact hbytes
  · exact absurd h List.not_mem_nil

theorem mem_nestedWrites {m : Member β} {w : List FileName × β} (h : w ∈ nestedWrites m) :
    m.bytes = some w.2 := by
  unfold nestedWrites at h
  split at h
  · rename_i hplace
    rw [List.mem_singleton.mp h]
    exact place_bytes hplace
  · exact absurd h List.not_mem_nil

/-- An archive writes members of its own. -/
theorem mem_archiveWrites {x : FileName × Entry β} {w : List FileName × β}
    (h : w ∈ archiveWrites v x) : ∃ c, x.2 = .file c ∧ IsMember v c w.2 := by
  obtain ⟨n, e⟩ := x
  have hwrites : ∀ {ms : List (Member β)} {p : Member β → Bool},
      w ∈ (ms.filter p).flatMap flatWrites → ∃ m ∈ ms, m.bytes = some w.2 := by
    intro ms p h
    obtain ⟨m, hm, hw⟩ := List.mem_flatMap.mp h
    exact ⟨m, List.mem_of_mem_filter hm, mem_flatWrites hw⟩
  cases e with
  | folder => exact absurd h List.not_mem_nil
  | file c =>
    refine ⟨c, rfl, ?_⟩
    simp only [archiveWrites, fastbootWrites] at h
    split_ifs at h
    · cases hzip : v.zip c with
      | members ms =>
        simp only [hzip, Option.getD_some] at h
        exact ⟨ms, .inl hzip, hwrites h⟩
      | badZip => simp [hzip] at h
      | fails e => simp [hzip] at h
    · cases htar : v.tar c with
      | some ms =>
        simp only [htar, Option.getD_some] at h
        exact ⟨ms, .inr htar, hwrites h⟩
      | none => simp [htar] at h

theorem mem_samsungSource {d : Dir β} {w : List FileName × β} (h : w ∈ samsungSource v d) :
    HasMember v d w.2 := by
  obtain ⟨x, hx, hw⟩ := List.mem_flatMap.mp h
  unfold samsungWrites at hw
  split at hw
  · rename_i ms hms
    obtain ⟨c, hc, htar⟩ := Option.bind_eq_some_iff.mp hms
    obtain ⟨n, hsource⟩ := samsungBytes_source hx hc
    obtain ⟨m, hm, hwrite⟩ := List.mem_flatMap.mp hw
    exact ⟨_, hsource, ms, .inr htar, m, List.mem_of_mem_filter hm, mem_nestedWrites hwrite⟩
  · exact absurd hw List.not_mem_nil

/-! ### Extraction folders -/

/-- Every file of the folder is a member of an archive in `os-source`. -/
def Extracted (v : FileView β) (d : Dir β) (t : Tree β) : Prop :=
  ∀ path c, t.lookup path = some c → HasMember v d c

theorem extracted_empty (v : FileView β) (d : Dir β) : Extracted v d Tree.empty :=
  fun _ _ h => nomatch h

theorem Extracted.update {d : Dir β} {t : Tree β} (h : Extracted v d t) {ws : Writes β}
    (hws : ∀ w ∈ ws, HasMember v d w.2) : Extracted v d (t.update ws) := by
  intro path c hc
  rw [Tree.lookup_update, Option.or_eq_some_iff] at hc
  rcases hc with hlast | ⟨-, hold⟩
  · exact hws _ (List.mem_reverse.mp (mem_of_dictGet hlast))
  · exact h path c hold

/-- The loop leaves members in its folders, and finds members. -/
theorem extractFastbootFrom_extracted (hv : Extractable v) {d : Dir β}
    {archives : List (FileName × Entry β)}
    (hsource : ∀ n c, (n, .file c) ∈ archives → IsSource d (n, c))
    (ha : ∀ folder, Extracted v d (a.folder folder)) :
    (∀ folder, Extracted v d ((extractFastbootFrom v a archives).1.folder folder)) ∧
      ∀ r, (extractFastbootFrom v a archives).2 = some r → ∀ i ∈ r.2, HasMember v d i.content := by
  induction archives generalizing a with
  | nil => exact ⟨ha, fun r h => nomatch h⟩
  | cons x rest ih =>
    have hrest := fun b hb => ih (a := b) (fun n c h => hsource n c (List.mem_cons_of_mem _ h)) hb
    have htree : Extracted v d (extractArchive v x.1 x.2 (a.folder (archiveFolder x.1))).1 := by
      rw [extractArchive_eq hv]
      cases hw : fastbootWrites v x.1 x.2 with
      | none => exact ha _
      | some ws =>
        refine (ha _).update fun w hmem => ?_
        obtain ⟨c, hc, hmember⟩ := mem_archiveWrites (x := x) (by rw [archiveWrites, hw]; exact hmem)
        exact ⟨_, hsource x.1 c (by rw [← hc]; exact List.mem_cons_self), hmember⟩
    have hset : ∀ folder, Extracted v d ((a.setFolder (archiveFolder x.1)
        (extractArchive v x.1 x.2 (a.folder (archiveFolder x.1))).1).folder folder) := by
      intro folder
      rw [BuildArea.folder_setFolder]
      split_ifs
      · exact htree
      · exact ha folder
    simp only [extractFastbootFrom]
    split_ifs
    · refine ⟨hset, fun r hr i hi => ?_⟩
      cases hr
      obtain ⟨n, -, hn⟩ := List.mem_filterMap.mp hi
      split at hn
      · rename_i c hc
        split_ifs at hn
        cases hn
        exact htree [n] c hc
      · cases hn
    · exact hrest _ hset

/-- A Samsung run finds members, and what `lz4` makes of members. -/
theorem extractSamsung_extracted (hv : Extractable v)
    (ha : Extracted v a.source (a.folder samsungFolder)) {i : FoundImage β}
    (hi : i ∈ (extractSamsung v a).2) :
    HasMember v a.source i.content ∨
      ∃ compressed, HasMember v a.source compressed ∧ v.lz4 compressed = some i.content := by
  by_cases hnil : samsungArchives a.source = []
  · rw [extractSamsung, if_pos hnil] at hi
    exact absurd hi List.not_mem_nil
  rw [extractSamsung_eq hv hnil] at hi
  have htree := ha.update fun w => mem_samsungSource (w := w)
  obtain ⟨⟨partition, patterns⟩, -, hmap⟩ := List.mem_filterMap.mp hi
  obtain ⟨f, hf, rfl⟩ := Option.map_eq_some_iff.mp hmap
  obtain ⟨pattern, -, hfind⟩ := List.exists_of_findSome?_eq_some hf
  obtain ⟨hmem, himg⟩ := List.mem_filter.mp (List.mem_of_find?_eq_some hfind)
  rw [Bool.and_eq_true] at himg
  rw [Tree.mem_files, lookup_decompressAll _ himg.1, Option.or_eq_some_iff] at hmem
  rcases hmem with himage | ⟨-, hcompressed⟩
  · exact .inl (htree _ _ himage)
  · obtain ⟨compressed, hlookup, hlz4⟩ := Option.bind_eq_some_iff.mp hcompressed
    exact .inr ⟨compressed, htree _ _ hlookup, hlz4⟩

/-! ### One call -/

theorem IsSource.of_readme {d : Dir β} {c : β} {x : FileName × β}
    (h : IsSource (d.add (fileName "README.md") c) x) : IsSource d x := by
  have hne : x.1 ≠ fileName "README.md" := fun heq => h.name (congrArg Subtype.val heq)
  exact ⟨by rw [← d.lookup_add _ x.1 c hne, h.lookup], h.name⟩

theorem HasMember.of_readme {d : Dir β} {readme c : β}
    (h : HasMember v (d.add (fileName "README.md") readme) c) : HasMember v d c := by
  obtain ⟨x, hx, hmember⟩ := h
  exact ⟨x, hx.of_readme, hmember⟩

/-- The note for the operator is not staged. -/
theorem FromSource.of_readme {d : Dir β} {readme c : β}
    (h : FromSource v j (d.add (fileName "README.md") readme) c) : FromSource v j d c := by
  cases h with
  | file h => exact .file h.of_readme
  | member h => exact .member h.of_readme
  | decompressed hsamsung h hlz4 => exact .decompressed hsamsung h.of_readme hlz4

/-- What a session without earlier runs has to stage comes from `os-source`. -/
theorem collect_fromSource (hv : Extractable v) (ha : a.extracted = []) {a' : BuildArea β}
    {f : Found β} (h : collect v j a = .ok (a', f)) :
    ∀ s ∈ f.staged, FromSource v j (a.withReadme v).source s.2 := by
  intro s hs
  have hfolders : ∀ folder, Extracted v (a.withReadme v).source ((a.withReadme v).folder folder) := by
    intro folder
    have hempty : (a.withReadme v).folder folder = Tree.empty := by
      rw [BuildArea.folder, BuildArea.withReadme, ha]
      rfl
    rw [hempty]
    exact extracted_empty v _
  obtain ⟨zip, hzip, ⟨-, rfl, -⟩ | ⟨-, -, hext⟩⟩ := collect_cases h
  · exact .file (chooseFound_source hzip hs)
  · obtain ⟨hleft, hfound⟩ := extractFastbootFrom_extracted hv
      (fun n c => fastbootArchive_source (d := (a.withReadme v).source)) hfolders
    obtain ⟨folder, images, rfl, heq⟩ | ⟨a₁, heq, hrest⟩ := hext
    · rw [heq] at hfound
      obtain ⟨i, hi, rfl⟩ := List.mem_map.mp hs
      exact .member (hfound _ rfl i hi)
    · have hframe := (extractFastbootFrom_frame v (archiveFolder_ne_samsung (a.withReadme v).source)
        (a.withReadme v)).2.1
      rw [heq] at hleft hframe
      obtain ⟨hprefer, -, rfl⟩ | ⟨-, -, rfl⟩ := hrest
      · rcases eq_or_ne (extractSamsung v a₁).2 [] with hnil | hne
        · rw [hnil, chooseFound_nothing] at hs
          exact absurd hs List.not_mem_nil
        · rw [chooseFound_heimdall hne] at hs
          obtain ⟨i, hi, rfl⟩ := List.mem_map.mp hs
          rw [← hframe]
          rcases extractSamsung_extracted hv (hframe ▸ hleft samsungFolder) hi with
            hmember | ⟨compressed, hmember, hlz4⟩
          · exact .member hmember
          · exact .decompressed hprefer hmember hlz4
      · exact absurd hs List.not_mem_nil

theorem fresh_fromSource (hv : Extractable v) (ha : a.extracted = []) {out : BuildRun β}
    (h : buildImages v j a = .ok out) : ∀ s ∈ out.staged, FromSource v j a.source s.2 := by
  obtain ⟨f, hcollect, -, hstaged⟩ := buildImages_ok h
  intro s hs
  rw [hstaged] at hs
  have hmem : s ∈ f.staged := (mem_dictUpdate hs).resolve_left List.not_mem_nil
  exact (collect_fromSource hv ha hcollect s hmem).of_readme

/-! ### Runs -/

/-- In a run from an empty session in which no call meets something stale, every call stages what it
would stage in a session without earlier runs, and all of it comes from the files that the operator
has in `os-source` at that call. -/
theorem staged_fresh_run (hv : Extractable v) (source : Dir β) (events : List (Event β))
    (hclean : ∀ before j after, events = before ++ .build j :: after →
      NothingStale v j ((BuildArea.run v { source := source } before).withReadme v)) :
    ∀ before j after, events = before ++ .build j :: after →
      (buildImages v j (BuildArea.run v { source := source } before)).map BuildRun.staged =
        (buildImages v j (BuildArea.run v { source := source } before).fresh).map BuildRun.staged ∧
      ∀ out, buildImages v j (BuildArea.run v { source := source } before) = .ok out →
        ∀ s ∈ out.staged,
          FromSource v j (BuildArea.run v { source := source } before).fresh.source s.2 := by
  intro before j after hevents
  have hempty : CopiesTar ({ source := source } : BuildArea β) := fun n hn => by simp at hn
  have hsame := buildImages_fresh hv j (hempty.run before) (hclean before j after hevents)
  refine ⟨hsame, fun out hout s hs => ?_⟩
  rw [hout] at hsame
  cases hfresh : buildImages v j (BuildArea.run v { source := source } before).fresh with
  | error e =>
    rw [hfresh] at hsame
    cases hsame
  | ok out₀ =>
    rw [hfresh] at hsame
    have hstaged : out.staged = out₀.staged := Except.ok.inj hsame
    exact fresh_fromSource hv rfl hfresh s (hstaged ▸ hs)

/-! ### A firmware that is replaced -/

/-- Two releases of a firmware: the second one has no system image any more. -/
def romView : FileView String :=
  { textView with
    zip c :=
      if c = "old" then
        .members [{ name := "boot.img", bytes := some "old boot" },
          { name := "system.img", bytes := some "old system" }]
      else if c = "new" then .members [{ name := "boot.img", bytes := some "new boot" }]
      else .badZip }

theorem romView_extractable : Extractable romView where
  zip c ms h m hm hsel := by
    simp only [romView] at h
    split_ifs at h <;> cases h
    · rcases List.mem_cons.mp hm with rfl | hm
      · decide
      · rw [List.mem_singleton.mp hm]
        decide
    · rw [List.mem_singleton.mp hm]
      decide
  tar c ms h := by simp [romView, textView] at h

def rom : FileName := fileName "rom.zip"

def romJob : BuildJob := { sessionDir := "/s" }

/-- The same release twice: the second call overwrites what the first one left. -/
theorem staged_fresh_run_same_rom :
    (buildImages romView romJob (BuildArea.run romView { source := ⟨[], List.nodup_nil⟩ }
        [.put rom (.file "old"), .build romJob])).map BuildRun.staged =
      (buildImages romView romJob (BuildArea.run romView { source := ⟨[], List.nodup_nil⟩ }
        [.put rom (.file "old"), .build romJob]).fresh).map BuildRun.staged ∧
    ∀ out, buildImages romView romJob (BuildArea.run romView { source := ⟨[], List.nodup_nil⟩ }
        [.put rom (.file "old"), .build romJob]) = .ok out →
      ∀ s ∈ out.staged, FromSource romView romJob
        (BuildArea.run romView { source := ⟨[], List.nodup_nil⟩ }
          [.put rom (.file "old"), .build romJob]).fresh.source s.2 := by
  refine staged_fresh_run romView_extractable ⟨[], List.nodup_nil⟩
    [.put rom (.file "old"), .build romJob, .build romJob] ?_ _ romJob [] rfl
  intro before j after hevents
  have hprefer : j = romJob → preferHeimdall romView j ≠ true := by
    rintro rfl
    decide
  rcases before with _ | ⟨e₁, _ | ⟨e₂, _ | ⟨e₃, before⟩⟩⟩
  · simp at hevents
  · simp only [List.cons_append, List.nil_append, List.cons.injEq, Event.build.injEq] at hevents
    obtain ⟨rfl, rfl, -⟩ := hevents
    refine ⟨fun _ => ?_, fun _ h => absurd h (hprefer rfl)⟩
    unfold ArchivesFresh OverwritesFolder Overwrites
    decide
  · simp only [List.cons_append, List.nil_append, List.cons.injEq, Event.build.injEq] at hevents
    obtain ⟨rfl, rfl, rfl, -⟩ := hevents
    refine ⟨fun _ => ?_, fun _ h => absurd h (hprefer rfl)⟩
    unfold ArchivesFresh OverwritesFolder Overwrites
    decide
  · simp at hevents

/-- The operator replaces `rom.zip`; the second call stages the system image of the first. -/
theorem replaced_rom_stages_old_system :
    (buildImages romView romJob (BuildArea.run romView { source := ⟨[], List.nodup_nil⟩ }
        [.put rom (.file "old"), .build romJob, .put rom (.file "new")])).map BuildRun.staged =
      .ok [(fileName "boot.img", "new boot"), (fileName "system.img", "old system")] ∧
    (buildImages romView romJob (BuildArea.run romView { source := ⟨[], List.nodup_nil⟩ }
        [.put rom (.file "old"), .build romJob, .put rom (.file "new")]).fresh).map BuildRun.staged =
      .ok [(fileName "boot.img", "new boot")] := by
  constructor <;> rfl

end ForgeOS.Image
