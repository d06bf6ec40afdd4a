import ForgeOS.Galaxy.Paths
import ForgeOS.Library.Links

/-! `safePath` on a file system with symbolic links. It asks `existsSync` before it asks whether a part
of the path is a link, and `existsSync` follows links: of a link that leads nowhere it knows nothing. -/

namespace ForgeOS.Galaxy

open ForgeOS.Library.Links

/-- How many links the kernel follows on one path. -/
def maxLinks : ℕ := 40

abbrev Files := FileSystem String

/-- The parts of an absolute path. -/
def pathSteps (path : String) : List (Step String) :=
  (splitSlash path).map fun part =>
    if part = "" ∨ part = "." then .here else if part = ".." then .up else .down part

/-- `realpathSync`, which throws where there is nothing. -/
def realpathSync (fs : Files) (path : String) : Option File :=
  fs.walk false maxLinks [] (pathSteps path)

/-- `existsSync` -/
def existsSync (fs : Files) (file : File) : Bool :=
  (fs.walk false maxLinks [] (file.map .down)).isSome

/-- What `safePath` sees of the file system below a directory. -/
def diskAt (fs : Files) (base : File) : Disk where
  realpath _ := base
  isSymbolicLink file := existsSync fs file && fs.isLink file

/-- `safePath`, which looks for the root after it has looked at the input. -/
def safePathIn (fs : Files) (root input : String) : Except String File :=
  match realpathSync fs root with
  | some base => safePath (diskAt fs base) root input
  | none =>
    match safePath ⟨fun _ => [], fun _ => false⟩ root input with
    | .ok _ => .error s!"ENOENT: no such file or directory, lstat '{root}'"
    | .error message => .error message

/-- Where an open or a write of a path ends, which makes the file if it is not there. -/
def opened (fs : Files) (file : File) : Option File := fs.walk true maxLinks [] (file.map .down)

/-- A link that leads to nothing, or to itself. -/
def Dangling (fs : Files) (file : File) : Prop := fs.isLink file ∧ ¬existsSync fs file

/-- The path is in the directory, no part of it is a link, and so no open leaves the directory. -/
structure Contained (fs : Files) (base file : File) : Prop where
  inside : base <+: file
  plain : ∀ p, p <+: file → ¬fs.isLink p
  stays : ∀ target ∈ opened fs file, base <+: target

section Contained

variable {fs : Files} {root input : String} {base file : File}

theorem realpathSync_plain (h : realpathSync fs root = some base) {p : File} (hp : p <+: base) :
    ¬fs.isLink p := by
  have hbase := FileSystem.entry_of_walk fs.root h
  obtain ⟨q, rfl⟩ := hp
  by_cases hq : q = []
  · rw [hq, List.append_nil] at hbase
    rw [FileSystem.isLink]
    rcases hbase with hbase | hbase <;> simp [hbase, Entry.isLink]
  · refine FileSystem.not_isLink_above (q := q) ?_ hq
    rcases hbase with hbase | hbase <;> simp [hbase]

theorem contained_of_plain (hinside : base <+: file) (h : ∀ p, p <+: file → ¬fs.isLink p) :
    Contained fs base file where
  inside := hinside
  plain := h
  stays := by
    intro target htarget
    have hplain : ∀ q, q <+: file → ¬fs.isLink ([] ++ q) := by simpa using h
    rw [FileSystem.walk_down hplain htarget, List.nil_append]
    exact hinside

/-- Every part behind the root has been asked for. -/
theorem safePath_checked {disk : Disk} (h : safePath disk root input = .ok file) {p : File}
    (hp : p <+: file) : p <+: disk.realpath root ∨ disk.isSymbolicLink p = false := by
  unfold safePath at h
  split at h
  · cases h
  · dsimp only at h
    split at h
    · cases h
    · next hlinks =>
      cases h
      rcases List.prefix_or_prefix_of_prefix hp (List.prefix_append _ _) with hbase | ⟨rest, rfl⟩
      · exact .inl hbase
      · rw [List.prefix_append_right_inj] at hp
        cases rest with
        | nil =>
          rw [List.append_nil]
          exact .inl (List.prefix_refl _)
        | cons name rest =>
          refine .inr ?_
          simp only [List.any_eq_true, not_exists, not_and, Bool.not_eq_true] at hlinks
          refine hlinks _ ?_
          have hmem := (List.mem_inits _ _).mpr hp
          revert hmem
          cases (splitSlash input).filter (· != "") with
          | nil => simp
          | cons first parts => simp

theorem safePathIn_ok (h : safePathIn fs root input = .ok file) :
    ∃ base ∈ realpathSync fs root, safePath (diskAt fs base) root input = .ok file := by
  unfold safePathIn at h
  split at h
  · next base hbase => exact ⟨base, hbase, h⟩
  · split at h <;> cases h

/-- A path that `safePath` returns is contained in the root exactly when no part of it is a link that
leads nowhere. -/
theorem safePath_contained_iff (h : safePathIn fs root input = .ok file) :
    (∃ base ∈ realpathSync fs root, Contained fs base file) ↔ ∀ p, p <+: file → ¬Dangling fs p := by
  constructor
  · rintro ⟨base, -, hcontained⟩ p hp hdangling
    exact hcontained.plain p hp hdangling.1
  · intro hnone
    obtain ⟨base, hbase, hpath⟩ := safePathIn_ok h
    refine ⟨base, hbase, contained_of_plain ?_ fun p hp hlink => ?_⟩
    · obtain ⟨parts, hfile, -⟩ := safePath_inside hpath
      exact ⟨parts, hfile.symm⟩
    · rcases safePath_checked hpath hp with hp' | hunseen
      · exact realpathSync_plain hbase hp' hlink
      · refine hnone p hp ⟨hlink, fun hexists => ?_⟩
        have hseen : (diskAt fs base).isSymbolicLink p = true := by
          simp [diskAt, hexists, hlink]
        rw [hseen] at hunseen
        cases hunseen

end Contained

/-- A workspace with a file and with a link to a file elsewhere that does not exist. -/
def leakyFiles : Files :=
  .ofList [(["work"], .directory), (["elsewhere"], .directory), (["work", "notes.txt"], .file),
    (["work", "report.md"], .link ⟨true, [.down "elsewhere", .down "report.md"]⟩)] (by decide)

theorem leaky_entries :
    leakyFiles.entry ["work"] = some .directory ∧ leakyFiles.entry ["elsewhere"] = some .directory ∧
      leakyFiles.entry ["work", "notes.txt"] = some .file ∧
      leakyFiles.entry ["work", "report.md"] =
        some (.link ⟨true, [.down "elsewhere", .down "report.md"]⟩) ∧
      leakyFiles.entry ["elsewhere", "report.md"] = none := by
  decide

theorem leaky_root : realpathSync leakyFiles "/work" = some ["work"] := by
  have hsteps : pathSteps "/work" = [.here, .down "work"] := by decide
  simp [realpathSync, hsteps, FileSystem.walk, leaky_entries]

theorem leaky_exists :
    existsSync leakyFiles ["work", "notes.txt"] = true ∧
      existsSync leakyFiles ["work", "report.md"] = false := by
  simp [existsSync, maxLinks, FileSystem.walk, leaky_entries]

theorem leaky_isLink :
    leakyFiles.isLink [] = false ∧ leakyFiles.isLink ["work"] = false ∧
      leakyFiles.isLink ["work", "notes.txt"] = false ∧
      leakyFiles.isLink ["work", "report.md"] = true := by
  decide

/-- What `safePath` makes of a visible name in the workspace. -/
theorem leaky_safePath {name : String} (h : splitSlash name = [name])
    (hname : visible name ∧ name ≠ "" ∧ name ≠ ".." ∧ ¬['/'].isPrefixOf name.toList ∧
      '\x00' ∉ name.toList ∧ '\\' ∉ name.toList)
    (hlink : (existsSync leakyFiles ["work", name] && leakyFiles.isLink ["work", name]) = false) :
    safePathIn leakyFiles "/work" name = .ok ["work", name] := by
  rw [safePathIn, leaky_root]
  simp [safePath, diskAt, h, hname, hlink]

/-- A file of the workspace is contained in it. -/
theorem notes_contained :
    ∃ base ∈ realpathSync leakyFiles "/work", Contained leakyFiles base ["work", "notes.txt"] := by
  have hpath : safePathIn leakyFiles "/work" "notes.txt" = .ok ["work", "notes.txt"] :=
    leaky_safePath (by decide) (by decide) (by simp [leaky_isLink])
  refine (safePath_contained_iff hpath).mpr fun p hp hdangling => ?_
  have hplain : ∀ p ∈ ["work", "notes.txt"].inits, leakyFiles.isLink p = false := by decide
  rw [Dangling, hplain p ((List.mem_inits _ _).mpr hp)] at hdangling
  cases hdangling.1

/-- The link is let through, and a write through it makes a file elsewhere. -/
theorem report_escapes :
    safePathIn leakyFiles "/work" "report.md" = .ok ["work", "report.md"] ∧
      opened leakyFiles ["work", "report.md"] = some ["elsewhere", "report.md"] ∧
      ¬∃ base ∈ realpathSync leakyFiles "/work", Contained leakyFiles base ["work", "report.md"] := by
  refine ⟨leaky_safePath (by decide) (by decide) (by simp [leaky_exists]), ?_, ?_⟩
  · simp [opened, maxLinks, FileSystem.walk, leaky_entries]
  · rintro ⟨base, -, hcontained⟩
    exact hcontained.plain _ (List.prefix_refl _) leaky_isLink.2.2.2

end ForgeOS.Galaxy
