import Mathlib.Data.List.AList
import Mathlib.Data.List.Sort
import Mathlib.Data.Rat.Defs
import ForgeOS.Python.Text

/-! `SourceResolverTool.run`. It takes the best of the trusted URLs, downloads it under a name of
its own in `os-source`, moves it to the name of the URL, and takes it away again if it is too small;
where it has no package, a local build may be started. What the URLs are, what a transfer gives and
what the build does to `os-source` are inputs. -/

namespace ForgeOS.Image.SourceResolver

open ForgeOS.Python

/-! ### The folder -/

/-- The files of `os-source`. -/
abbrev Folder := AList fun _ : String => List UInt8

/-- What was in the folder is in it unchanged. -/
def Kept (before after : Folder) : Prop :=
  ∀ name content, before.lookup name = some content → after.lookup name = some content

theorem Kept.refl (folder : Folder) : Kept folder folder := fun _ _ h => h

theorem Kept.trans {a b c : Folder} (h : Kept a b) (h' : Kept b c) : Kept a c :=
  fun name content hname => h' name content (h name content hname)

/-- 10 MiB -/
def minBytes : ℕ := 10 * 1024 * 1024

/-- `_built_outputs` -/
def builtOutputs (lower : String → String) (folder : Folder) : List String :=
  (folder.entries.filter fun e =>
    ([".zip", ".img", ".tar", ".tar.gz", ".tgz"].any (endsWith (lower e.1))) &&
      minBytes < e.2.length).map Sigma.fst |>.insertionSort (· ≤ ·)

/-! ### Candidates -/

/-- An entry of `ranked_urls`. -/
structure RankedUrl where
  url : String
  filename : String
  trusted : Bool
  score : ℚ
  deriving DecidableEq, Repr

/-- The higher score goes first, among equal ones the first file name. -/
def RankedUrl.Before (a b : RankedUrl) : Prop :=
  b.score < a.score ∨ (a.score = b.score ∧ a.filename ≤ b.filename)

instance : DecidableRel RankedUrl.Before := fun a b =>
  inferInstanceAs (Decidable (b.score < a.score ∨ (a.score = b.score ∧ a.filename ≤ b.filename)))

/-- The trusted candidates in the order in which they are ranked. -/
def ranked (candidates : List RankedUrl) : List RankedUrl :=
  (candidates.filter (·.trusted)).insertionSort RankedUrl.Before

/-! ### `_download` -/

/-- What becomes of a transfer: the folder cannot be made, nothing is opened, it breaks off behind
some bytes, the file cannot be moved, or it is complete. -/
inductive Transfer
  | noFolder
  | refused
  | broken (written : List UInt8)
  | stuck (content : List UInt8)
  | complete (content : List UInt8)
  deriving DecidableEq, Repr

/-- What can be done behind a transfer: files taken away, the build request written, the research
file dated anew. Where something cannot, an exception gets through. -/
structure Disk where
  unlinks : Bool
  requests : Bool
  touches : Bool
  deriving DecidableEq, Repr

/-- `destination.with_suffix(destination.suffix + ".part")` -/
def partName (filename : String) : String := filename ++ ".part"

/-- The folder behind a package that has been moved to its name. -/
def replaced (filename : String) (content : List UInt8) (folder : Folder) : Folder :=
  ((folder.insert (partName filename) content).erase (partName filename)).insert filename content

/-- The way out of a failed download; `none` where an exception gets through. -/
def removePart (disk : Disk) (filename : String) (folder : Folder) : Folder × Option Bool :=
  if (folder.lookup (partName filename)).isSome && !disk.unlinks then (folder, none)
  else (folder.erase (partName filename), some false)

/-- The folder behind a download and whether it has succeeded. -/
def download (disk : Disk) (filename : String) (folder : Folder) : Transfer → Folder × Option Bool
  | .noFolder => (folder, none)
  | .refused => removePart disk filename folder
  | .broken written => removePart disk filename (folder.insert (partName filename) written)
  | .stuck content => removePart disk filename (folder.insert (partName filename) content)
  | .complete content => (replaced filename content folder, some true)

/-! ### `run` -/

inductive Status
  | missingResearch
  | staleResearch
  | invalidResearch
  | buildRequired
  | ok
  /-- An exception -/
  | raised
  deriving DecidableEq, Repr

/-- The build command of the environment, if one is configured. It leaves alone what was there. -/
structure LocalBuild where
  command : Option (Folder → Folder)
  keeps : ∀ f, command = some f → ∀ folder, Kept folder (f folder)

def LocalBuild.notConfigured : LocalBuild where
  command := none
  keeps _ h := nomatch h

/-- `_run_configured_source_build`, with the staged files. -/
def LocalBuild.attempt (build : LocalBuild) (lower : String → String) (folder : Folder) :
    Folder × List String :=
  match build.command with
  | none => (folder, [])
  | some f => (f folder, builtOutputs lower (f folder))

/-- `_write_build_request` where nothing has been downloaded. -/
def LocalBuild.request (build : LocalBuild) (disk : Disk) (lower : String → String)
    (folder : Folder) : Folder × Status :=
  if disk.requests then ((build.attempt lower folder).1, .buildRequired) else (folder, .raised)

/-- The research file: there is none, it is too old or has no date, it is not JSON, an exception
gets through before the candidates are ranked (for JSON that is not an object), or it is read. -/
inductive Research
  | missing
  | stale
  | invalid
  | unreadable
  | read
  deriving DecidableEq, Repr

/-- `touch_fetched_at`, which does nothing where there is no research file. -/
def touched (disk : Disk) (research : Research) : Bool := research = .missing || disk.touches

/-- A package that is too small is taken away; `none` where that fails. -/
def checkSize (disk : Disk) (filename : String) (folder : Folder) : Folder × Option Bool :=
  if ((folder.lookup filename).getD []).length ≤ minBytes then
    if disk.unlinks then (folder.erase filename, some false) else (folder, none)
  else (folder, some true)

/-- The best candidate is downloaded. -/
def resolveBest (build : LocalBuild) (disk : Disk) (lower : String → String) (research : Research)
    (best : RankedUrl) (transfer : Transfer) (folder : Folder) : Folder × Status :=
  if !contains best.filename "." then build.request disk lower folder
  else
    match download disk best.filename folder transfer with
    | (folder, none) => (folder, .raised)
    | (folder, some false) => build.request disk lower folder
    | (folder, some true) =>
      match checkSize disk best.filename folder with
      | (folder, none) => (folder, .raised)
      | (folder, some false) => build.request disk lower folder
      | (folder, some true) => (folder, if touched disk research then .ok else .raised)

/-- `SourceResolverTool.run`, where `known` says that something is known about the device. -/
def run (build : LocalBuild) (disk : Disk) (lower : String → String) (known : Bool)
    (research : Research) (candidates : List RankedUrl) (transfer : Transfer) (folder : Folder) :
    Folder × Status :=
  if research = .missing ∧ !known then (folder, .missingResearch)
  else if research = .stale then (folder, .staleResearch)
  else if research = .invalid then (folder, .invalidResearch)
  else if research = .unreadable then (folder, .raised)
  else
    match ranked candidates with
    | [] =>
      if disk.requests then
        match build.attempt lower folder with
        | (folder, []) => (folder, .buildRequired)
        | (folder, _ :: _) => (folder, .ok)
      else (folder, .raised)
    | best :: _ => resolveBest build disk lower research best transfer folder

/-! ### What is kept -/

theorem partName_ne (filename : String) : partName filename ≠ filename := by
  intro h
  have hlength := congrArg (fun name : String => name.toList.length) h
  simp [partName] at hlength

theorem LocalBuild.kept (build : LocalBuild) (lower : String → String) (folder : Folder) :
    Kept folder (build.attempt lower folder).1 := by
  unfold LocalBuild.attempt
  cases hcommand : build.command with
  | none => exact Kept.refl folder
  | some f => exact build.keeps f hcommand folder

theorem LocalBuild.request_kept (build : LocalBuild) (disk : Disk) (lower : String → String)
    (folder : Folder) : Kept folder (build.request disk lower folder).1 := by
  unfold LocalBuild.request
  split_ifs
  · exact build.kept lower folder
  · exact Kept.refl folder

/-- Where nothing but some names is touched, what is kept is decided by these. -/
theorem kept_iff {before after : Folder} (names : List String)
    (hother : ∀ name, name ∉ names → after.lookup name = before.lookup name) :
    Kept before after ↔ ∀ name ∈ names, ∀ content, before.lookup name = some content →
      after.lookup name = some content := by
  refine ⟨fun h name _ => h name, fun h name content hname => ?_⟩
  by_cases hmem : name ∈ names
  · exact h name hmem content hname
  · rw [hother name hmem, hname]

/-- A file that has this content already, or none, is under the name. -/
def Holds (folder : Folder) (name : String) (content : List UInt8) : Prop :=
  ∀ old, folder.lookup name = some old → old = content

/-- What a download needs to leave the folder as it was, if the run does not end well. -/
def Harmless (disk : Disk) (research : Research) (filename : String) (folder : Folder) :
    Transfer → Prop
  | .noFolder => True
  | .refused => folder.lookup (partName filename) = none ∨ disk.unlinks = false
  | .broken written | .stuck written =>
    if disk.unlinks then folder.lookup (partName filename) = none
    else Holds folder (partName filename) written
  | .complete content =>
    (minBytes < content.length ∧ touched disk research = true) ∨
      (folder.lookup (partName filename) = none ∧
        if content.length ≤ minBytes ∧ disk.unlinks = true then folder.lookup filename = none
        else Holds folder filename content)

theorem kept_erase_iff (name : String) (before folder : Folder)
    (hother : ∀ other, other ≠ name → folder.lookup other = before.lookup other) :
    Kept before (folder.erase name) ↔ before.lookup name = none := by
  rw [kept_iff [name]]
  · simp [Option.eq_none_iff_forall_not_mem]
  · intro other hne
    rw [List.mem_singleton] at hne
    rw [AList.lookup_erase_ne hne, hother other hne]

theorem kept_insert_iff (name : String) (content : List UInt8) (folder : Folder) :
    Kept folder (folder.insert name content) ↔ Holds folder name content := by
  rw [kept_iff [name]]
  · simp [Holds, eq_comm]
  · intro other hne
    rw [List.mem_singleton] at hne
    exact AList.lookup_insert_ne hne

theorem lookup_replaced {filename other : String} (hpart : other ≠ partName filename)
    (hne : other ≠ filename) (content : List UInt8) (folder : Folder) :
    (replaced filename content folder).lookup other = folder.lookup other := by
  rw [replaced, AList.lookup_insert_ne hne, AList.lookup_erase_ne hpart, AList.lookup_insert_ne hpart]

theorem lookup_replaced_part (filename : String) (content : List UInt8) (folder : Folder) :
    (replaced filename content folder).lookup (partName filename) = none := by
  rw [replaced, AList.lookup_insert_ne (partName_ne filename), AList.lookup_erase]

theorem kept_replaced_iff (filename : String) (content : List UInt8) (folder : Folder) :
    Kept folder (replaced filename content folder) ↔
      folder.lookup (partName filename) = none ∧ Holds folder filename content := by
  rw [kept_iff [partName filename, filename]]
  · simp only [List.mem_cons, List.not_mem_nil, or_false, forall_eq_or_imp, forall_eq,
      lookup_replaced_part, Holds, Option.eq_none_iff_forall_not_mem, Option.mem_def]
    simp [replaced, AList.lookup_insert, eq_comm]
  · intro other hne
    simp only [List.mem_cons, List.not_mem_nil, or_false, not_or] at hne
    exact lookup_replaced hne.1 hne.2 content folder

/-- The folder behind a package that has been moved to its name and taken away. -/
theorem kept_small_iff (filename : String) (content : List UInt8) (folder : Folder) :
    Kept folder ((replaced filename content folder).erase filename) ↔
      folder.lookup (partName filename) = none ∧ folder.lookup filename = none := by
  rw [kept_iff [partName filename, filename]]
  · simp only [List.mem_cons, List.not_mem_nil, or_false, forall_eq_or_imp, forall_eq,
      AList.lookup_erase, AList.lookup_erase_ne (partName_ne filename), lookup_replaced_part,
      Option.eq_none_iff_forall_not_mem, Option.mem_def, reduceCtorEq, imp_false]
  · intro other hne
    simp only [List.mem_cons, List.not_mem_nil, or_false, not_or] at hne
    rw [AList.lookup_erase_ne hne.2, lookup_replaced hne.1 hne.2]

/-- Where a build may be requested next, something is kept if it was before. -/
theorem forall_request_iff (disk : Disk) (lower : String → String) (before folder : Folder) :
    (∀ build : LocalBuild, (build.request disk lower folder).2 ≠ .ok →
        Kept before (build.request disk lower folder).1) ↔ Kept before folder := by
  have hstatus (build : LocalBuild) : (build.request disk lower folder).2 ≠ .ok := by
    unfold LocalBuild.request
    split_ifs <;> exact Status.noConfusion
  refine ⟨fun h => ?_, fun h build _ => h.trans (build.request_kept disk lower folder)⟩
  have hkept := h LocalBuild.notConfigured (hstatus _)
  unfold LocalBuild.request at hkept
  split_ifs at hkept <;> exact hkept

/-- Behind an exception, something is kept if it was before. -/
theorem forall_raised_iff (before folder : Folder) :
    (∀ _build : LocalBuild, Status.raised ≠ Status.ok → Kept before folder) ↔ Kept before folder :=
  ⟨fun h => h LocalBuild.notConfigured Status.noConfusion, fun h _ _ => h⟩

/-- The part of a transfer that has broken off is taken away, or is left where it cannot be. -/
theorem broken_keeps_iff (disk : Disk) (lower : String → String) {best : RankedUrl}
    (hname : contains best.filename "." = true) (research : Research) {transfer : Transfer}
    {written : List UInt8} (folder : Folder)
    (h : download disk best.filename folder transfer =
      removePart disk best.filename (folder.insert (partName best.filename) written)) :
    (∀ build : LocalBuild, (resolveBest build disk lower research best transfer folder).2 ≠ .ok →
        Kept folder (resolveBest build disk lower research best transfer folder).1) ↔
      if disk.unlinks then folder.lookup (partName best.filename) = none
      else Holds folder (partName best.filename) written := by
  simp only [resolveBest, hname, h, removePart, AList.lookup_insert, Option.isSome_some,
    Bool.true_and, Bool.not_true, Bool.false_eq_true, if_false]
  cases disk.unlinks with
  | true =>
    simp only [Bool.not_true, Bool.false_eq_true, if_false, if_true]
    rw [forall_request_iff, kept_erase_iff]
    exact fun other hne => AList.lookup_insert_ne hne
  | false =>
    simp only [Bool.not_false, Bool.false_eq_true, if_false, if_true]
    rw [forall_raised_iff, kept_insert_iff]

theorem complete_keeps_iff (disk : Disk) (lower : String → String) {best : RankedUrl}
    (hname : contains best.filename "." = true) (research : Research) (content : List UInt8)
    (folder : Folder) :
    (∀ build : LocalBuild,
      (resolveBest build disk lower research best (.complete content) folder).2 ≠ .ok →
        Kept folder (resolveBest build disk lower research best (.complete content) folder).1) ↔
      Harmless disk research best.filename folder (.complete content) := by
  have hcontent : ((replaced best.filename content folder).lookup best.filename).getD [] = content := by
    rw [replaced, AList.lookup_insert, Option.getD_some]
  simp only [resolveBest, hname, download, Harmless, checkSize, hcontent, Bool.not_true,
    Bool.false_eq_true, if_false]
  by_cases hsmall : content.length ≤ minBytes
  · simp only [hsmall, true_and, if_true, Nat.not_lt.mpr hsmall, false_and, false_or]
    cases disk.unlinks with
    | true =>
      simp only [if_true]
      rw [forall_request_iff, kept_small_iff]
    | false =>
      simp only [Bool.false_eq_true, if_false]
      rw [forall_raised_iff, kept_replaced_iff]
  · simp only [hsmall, Nat.lt_of_not_le hsmall, true_and, false_and, if_false]
    cases touched disk research with
    | true => exact iff_of_true (fun _ h => absurd rfl h) (.inl rfl)
    | false =>
      simp only [Bool.false_eq_true, if_false, false_or]
      rw [forall_raised_iff, kept_replaced_iff]

theorem resolveBest_keeps_iff (disk : Disk) (lower : String → String) {best : RankedUrl}
    (hname : contains best.filename "." = true) (research : Research) (transfer : Transfer)
    (folder : Folder) :
    (∀ build : LocalBuild, (resolveBest build disk lower research best transfer folder).2 ≠ .ok →
        Kept folder (resolveBest build disk lower research best transfer folder).1) ↔
      Harmless disk research best.filename folder transfer := by
  cases transfer with
  | noFolder =>
    simp only [resolveBest, hname, download, Harmless, Bool.not_true, Bool.false_eq_true, if_false]
    exact iff_of_true (fun _ _ => Kept.refl folder) trivial
  | refused =>
    simp only [resolveBest, hname, download, Harmless, removePart, Bool.not_true, Bool.false_eq_true,
      if_false]
    by_cases hleft : ((folder.lookup (partName best.filename)).isSome && !disk.unlinks) = true
    · simp only [if_pos hleft]
      rw [Bool.and_eq_true, Bool.not_eq_true'] at hleft
      exact iff_of_true (fun _ _ => Kept.refl folder) (.inr hleft.2)
    · simp only [if_neg hleft]
      rw [forall_request_iff, kept_erase_iff _ _ _ fun _ _ => rfl]
      refine ⟨.inl, fun h => h.elim id fun hunlinks => ?_⟩
      rw [Bool.not_eq_true, hunlinks, Bool.not_false, Bool.and_true, Option.isSome_eq_false_iff,
        Option.isNone_iff_eq_none] at hleft
      exact hleft
  | broken written => exact broken_keeps_iff disk lower hname research folder rfl
  | stuck content => exact broken_keeps_iff disk lower hname research folder rfl
  | complete content => exact complete_keeps_iff disk lower hname research content folder

/-- A download is made, of this candidate. -/
def Downloads (known : Bool) (research : Research) (candidates : List RankedUrl)
    (best : RankedUrl) : Prop :=
  ¬(research = .missing ∧ known = false) ∧ research ∉ [.stale, .invalid, .unreadable] ∧
    (ranked candidates).head? = some best ∧ contains best.filename "." = true

/-- Whatever build is configured, a run that does not end well leaves all files of `os-source` as
they were exactly if its download, where it makes one, is harmless. -/
theorem run_keeps_iff (disk : Disk) (lower : String → String) (known : Bool) (research : Research)
    (candidates : List RankedUrl) (transfer : Transfer) (folder : Folder) :
    (∀ build : LocalBuild,
      (run build disk lower known research candidates transfer folder).2 ≠ .ok →
        Kept folder (run build disk lower known research candidates transfer folder).1) ↔
      ∀ best, Downloads known research candidates best →
        Harmless disk research best.filename folder transfer := by
  have hnone (f : LocalBuild → Status) : (∀ build, f build ≠ .ok → Kept folder folder) :=
    fun _ _ => Kept.refl folder
  unfold run
  by_cases hmissing : research = .missing ∧ (!known) = true
  · simp only [if_pos hmissing]
    rw [Bool.not_eq_true'] at hmissing
    exact iff_of_true (hnone _) fun best h => absurd hmissing h.1
  by_cases hearly : research ∈ [.stale, .invalid, .unreadable]
  · refine iff_of_true (fun build _ => ?_) fun best h => absurd hearly h.2.1
    simp only [List.mem_cons, List.not_mem_nil, or_false] at hearly
    obtain rfl | rfl | rfl := hearly <;> exact Kept.refl folder
  have hread : research ≠ .stale ∧ research ≠ .invalid ∧ research ≠ .unreadable := by
    simpa only [List.mem_cons, List.not_mem_nil, or_false, not_or] using hearly
  simp only [if_neg hmissing, if_neg hread.1, if_neg hread.2.1, if_neg hread.2.2]
  rw [Bool.not_eq_true'] at hmissing
  cases hranked : ranked candidates with
  | nil =>
    refine iff_of_true (fun build _ => ?_) fun best h => ?_
    · have hkept := build.kept lower folder
      dsimp only
      split_ifs
      · split
        next after heq => rwa [heq] at hkept
        next after _ _ heq => rwa [heq] at hkept
      · exact Kept.refl folder
    · have hhead := h.2.2.1
      rw [hranked] at hhead
      cases hhead
  | cons best rest =>
    have hdownloads (b : RankedUrl) : Downloads known research candidates b ↔
        best = b ∧ contains b.filename "." = true := by
      simp [Downloads, hmissing, hread, hranked]
    dsimp only
    by_cases hname : contains best.filename "." = true
    · rw [resolveBest_keeps_iff disk lower hname]
      constructor
      · intro h b hb
        obtain ⟨rfl, -⟩ := (hdownloads b).mp hb
        exact h
      · exact fun h => h best ((hdownloads best).mpr ⟨rfl, hname⟩)
    · refine iff_of_true (fun build _ => ?_) fun b hb => ?_
      · rw [resolveBest, if_pos (by rw [Bool.eq_false_iff.mpr hname]; rfl)]
        exact build.request_kept disk lower folder
      · obtain ⟨rfl, hb⟩ := (hdownloads b).mp hb
        exact absurd hb hname

/-- A package that was staged before. -/
def stagedBefore : Folder := (∅ : Folder).insert "update.zip" [80, 75]

def sameName : RankedUrl where
  url := "https://download.lineageos.org/demo/update.zip"
  filename := "update.zip"
  trusted := true
  score := 13 / 2

/-- A package of the same name is downloaded and turns out to be too small: both are gone. -/
theorem staged_package_lost :
    ¬∀ (build : LocalBuild) (disk : Disk) (lower : String → String) (known : Bool)
      (research : Research) (candidates : List RankedUrl) (transfer : Transfer) (folder : Folder),
        (run build disk lower known research candidates transfer folder).2 ≠ .ok →
          Kept folder (run build disk lower known research candidates transfer folder).1 := by
  intro h
  have hkept := h LocalBuild.notConfigured ⟨true, true, true⟩ id true .read [sameName] (.complete [])
    stagedBefore (by decide) "update.zip" [80, 75] (by decide)
  exact absurd hkept (by decide)

end ForgeOS.Image.SourceResolver
