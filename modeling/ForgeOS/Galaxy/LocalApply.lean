import Mathlib.Logic.Function.Basic
import ForgeOS.Galaxy.Snapshots

/-! `applyLocalChange` from its first line to its last, with what may fail in it. It puts the file of
the draft in the place of the source and then has git record it; the baseline follows when git is done. -/

namespace ForgeOS.Galaxy.Changes

/-- A draft with its baseline and what git has of it, and the folder it was copied from. -/
structure Workspace where
  manifest : Manifest
  head : Folder
  draft : Tree
  source : Folder

/-- What fails: git when it is asked for a file, the copy or the rename, and git when it is to record
the file. -/
structure Faults where
  lost : String → Bool
  install : Bool
  add : Bool
  commit : Bool

def noneLost : String → Bool := fun _ => false

section Digest

variable (digest : Bytes → String)

/-- `changes`, where git does not find some of the files. -/
def Workspace.changes (lost : String → Bool) (w : Workspace) : Except String (List Change) :=
  allChanges digest w.manifest (fun path => if lost path then none else w.head path) w.draft w.source

def cannotApply : String :=
  "This change cannot be applied from the pilot. Deletions and binary changes require manual review."

def sourceChanged : String :=
  "The source changed since this draft started. Your draft is preserved; reconcile it before applying."

/-- `checkpointDraft` -/
def checkpointDraft (f : Faults) (path : String) (w : Workspace) : Except String Unit × Workspace :=
  match w.draft.folder path with
  | none => (.error "ENOENT", w)
  | some content =>
    if f.add then (.error "Command failed", w)
    else if f.commit then (.error "Command failed", w)
    else
      (.ok (), { w with
        manifest := w.manifest.set path (digest content)
        head := Function.update w.head path (some content) })

/-- `applyLocalChange` -/
def applyLocalChange (f : Faults) (path : String) (w : Workspace) : Except String Unit × Workspace :=
  match w.changes digest f.lost with
  | .error message => (.error message, w)
  | .ok result =>
    match result.find? (·.path = path) with
    | none => (.error cannotApply, w)
    | some ch =>
      if !ch.applicable then (.error cannotApply, w)
      else if ch.conflict then (.error sourceChanged, w)
      else if f.install then (.error "EIO", w)
      else
        match w.draft.folder path with
        | none => (.error "ENOENT", w)
        | some content =>
          checkpointDraft digest f path { w with source := Function.update w.source path (some content) }

/-- All or nothing: an error leaves the source and the baseline as they were, and otherwise the source
has the file of the draft and `changes` does not list it any more. -/
def Whole (path : String) (w : Workspace) : Except String Unit × Workspace → Prop
  | (.error _, w') => w'.source = w.source ∧ w'.manifest = w.manifest
  | (.ok _, w') => w'.source path = w.draft.folder path ∧
    ∃ result, w'.changes digest noneLost = .ok result ∧ path ∉ result.map Change.path

/-- The change is listed without a conflict, and its file is copied. -/
def Applies (f : Faults) (path : String) (w : Workspace) : Prop :=
  ∃ result ch, w.changes digest f.lost = .ok result ∧ result.find? (·.path = path) = some ch ∧
    ch.applicable = true ∧ ch.conflict = false ∧ f.install = false

end Digest

variable {digest : Bytes → String} {f : Faults} {path : String} {w : Workspace}

/-- A change that can be applied has a file in the draft that the baseline does not know, and the
source is as the baseline says. -/
theorem changeAt_applicable {d : Draft} {source : Folder} {ch : Change}
    (h : changeAt digest d source path = some ch) (happlicable : ch.applicable = true)
    (hconflict : ch.conflict = false) :
    ∃ after, d.read path = some after ∧ d.manifest.get path ≠ some (digest after) ∧
      (source path).map digest = d.manifest.get path ∧
      ((d.manifest.get path).isSome ∨ path ≠ "__proto__") := by
  have hclean : ∀ kind applicable,
      (change digest d.manifest source path kind applicable).conflict = false →
        (source path).map digest = d.manifest.get path ∧
          ((d.manifest.get path).isSome ∨ path ≠ "__proto__") := by
    intro kind applicable hc
    refine ⟨change_agrees hc, ?_⟩
    by_contra hboth
    obtain ⟨hget, rfl⟩ : d.manifest.get path = none ∧ path = "__proto__" := by
      simpa using hboth
    simp [change, hget, Manifest.has, Manifest.inherited] at hc
  unfold changeAt at h
  split at h
  · next after hread =>
    split at h
    · cases h
    · next hne =>
      split at h <;> cases h <;> exact ⟨after, hread, hne, hclean _ _ hconflict⟩
  · split at h <;> cases h
    cases happlicable

/-- The list has the file because the loop has found it there. -/
theorem changeAt_of_find {lost : String → Bool} {result : List Change} {ch : Change}
    (hresult : w.changes digest lost = .ok result) (hfind : result.find? (·.path = path) = some ch) :
    changeAt digest ⟨w.manifest, w.draft.files⟩ w.source path = some ch := by
  obtain ⟨-, -, -, rfl⟩ := allChanges_ok_iff.mp hresult
  obtain ⟨p, -, hp⟩ := List.mem_filterMap.mp (List.mem_of_find?_eq_some hfind)
  have hpath := List.find?_some hfind
  rw [decide_eq_true_eq, path_of_changeAt hp] at hpath
  rwa [hpath] at hp

/-- The state behind an apply that comes to its end. -/
def Workspace.applied (digest : Bytes → String) (path : String) (after : Bytes) (w : Workspace) :
    Workspace :=
  { w with
    source := Function.update w.source path (some after)
    manifest := w.manifest.set path (digest after)
    head := Function.update w.head path (some after) }

/-- Behind it `changes` returns a list again, without the file. -/
theorem changes_applied {lost : String → Bool} {result : List Change} {after : Bytes}
    (hresult : w.changes digest lost = .ok result) (hafter : w.draft.folder path = some after)
    (hset : (w.manifest.get path).isSome ∨ path ≠ "__proto__") :
    ∃ result, (w.applied digest path after).changes digest noneLost = .ok result ∧
      path ∉ result.map Change.path := by
  obtain ⟨hslash, hlimits, hshows, -⟩ := allChanges_ok_iff.mp hresult
  let d : Draft := ⟨w.manifest, w.draft.files⟩
  let d' : Draft := ⟨w.manifest.set path (digest after), w.draft.files⟩
  have hread : ∀ p, d'.read p = d.read p := fun _ => rfl
  have hself : d'.manifest.get path = some (digest after) := by
    rw [Manifest.get_set, if_pos ⟨rfl, hset⟩]
  have hother : ∀ p, p ≠ path → d'.manifest.get p = d.manifest.get p := by
    intro p hp
    rw [Manifest.get_set, if_neg fun h => hp h.1]
  have hfile : d'.read path = some after := hafter
  refine ⟨_, allChanges_ok_iff.mpr ⟨hslash, hlimits, List.all_eq_true.mpr fun p hp => ?_, rfl⟩, ?_⟩
  · -- git has the file that was applied, and is asked for the others as before
    rw [Bool.or_eq_true, Bool.not_eq_true']
    by_cases hpath : p = path
    · refine .inl ?_
      rw [hpath]
      show asksGit digest d' path = false
      rw [asksGit, hfile, hself]
      simp
    · have hmem : p ∈ paths d := by
        rw [mem_paths, ← hother p hpath]
        exact mem_paths.mp hp
      have hshown := List.all_eq_true.mp hshows p hmem
      rw [Bool.or_eq_true, Bool.not_eq_true'] at hshown
      rcases hshown with hask | hhead
      · refine .inl ?_
        show asksGit digest d' p = false
        rw [asksGit, Manifest.has, hother p hpath, hread]
        exact hask
      · refine .inr ?_
        dsimp only at hhead
        split at hhead
        · cases hhead
        · simpa [noneLost, Workspace.applied, Function.update_of_ne hpath] using hhead
  · rw [map_path_filterMap, List.mem_filter]
    rintro ⟨-, hchange⟩
    have hnone : changeAt digest d' (w.applied digest path after).source path = none := by
      rw [changeAt, hfile, hself]
      simp
    have hsome : (changeAt digest d' (w.applied digest path after).source path).isSome := hchange
    rw [hnone] at hsome
    cases hsome

/-- What `applyLocalChange` does when the change is listed: it refuses it, or it fails before the
rename, or it has renamed and goes on to git. -/
theorem apply_listed {result : List Change} {ch : Change}
    (hresult : w.changes digest f.lost = .ok result)
    (hfind : result.find? (·.path = path) = some ch) :
    (¬Applies digest f path w ∧ ∃ message, applyLocalChange digest f path w = (.error message, w)) ∨
    (Applies digest f path w ∧ ∃ after, w.draft.folder path = some after ∧
      (w.source path).map digest ≠ some (digest after) ∧
      ((w.manifest.get path).isSome ∨ path ≠ "__proto__") ∧
      applyLocalChange digest f path w =
        if f.add || f.commit then
          (.error "Command failed", { w with source := Function.update w.source path (some after) })
        else (.ok (), w.applied digest path after)) := by
  have happlies : Applies digest f path w ↔
      ch.applicable = true ∧ ch.conflict = false ∧ f.install = false := by
    constructor
    · rintro ⟨result', ch', hok, hfind', h⟩
      rw [hresult] at hok
      cases hok
      rw [hfind] at hfind'
      cases hfind'
      exact h
    · intro h
      exact ⟨result, ch, hresult, hfind, h⟩
  rw [happlies, applyLocalChange, hresult]
  simp only [hfind]
  by_cases happlicable : ch.applicable = true
  · by_cases hconflict : ch.conflict = false
    · by_cases hinstall : f.install = false
      · refine .inr ⟨⟨happlicable, hconflict, hinstall⟩, ?_⟩
        obtain ⟨after, hread, hne, hsame, hset⟩ :=
          changeAt_applicable (changeAt_of_find hresult hfind) happlicable hconflict
        have hfile : w.draft.folder path = some after := hread
        refine ⟨after, hfile, hsame ▸ hne, hset, ?_⟩
        simp only [happlicable, hconflict, hinstall, hfile, checkpointDraft]
        cases f.add
        · cases f.commit <;> rfl
        · rfl
      · exact .inl ⟨fun h => hinstall h.2.2, _, by simp [happlicable, hconflict, hinstall]; rfl⟩
    · exact .inl ⟨fun h => hconflict h.2.1, _, by simp [happlicable, hconflict]; rfl⟩
  · exact .inl ⟨fun h => happlicable h.1, _, by simp [happlicable]; rfl⟩

/-- For every draft, path and failure: `applyLocalChange` is all or nothing exactly when git does not
fail behind the rename. -/
theorem apply_whole_iff (digest : Bytes → String) (f : Faults) (path : String) (w : Workspace) :
    Whole digest path w (applyLocalChange digest f path w) ↔
      (Applies digest f path w → f.add = false ∧ f.commit = false) := by
  cases hresult : w.changes digest f.lost with
  | error message =>
    have hnot : ¬Applies digest f path w := by
      rintro ⟨result, ch, hok, -⟩
      rw [hresult] at hok
      cases hok
    rw [applyLocalChange, hresult]
    exact iff_of_true ⟨rfl, rfl⟩ fun h => absurd h hnot
  | ok result =>
    cases hfind : result.find? (·.path = path) with
    | none =>
      have hnot : ¬Applies digest f path w := by
        rintro ⟨result', ch, hok, hfind', -⟩
        rw [hresult] at hok
        cases hok
        rw [hfind] at hfind'
        cases hfind'
      rw [applyLocalChange, hresult]
      simp only [hfind]
      exact iff_of_true ⟨rfl, rfl⟩ fun h => absurd h hnot
    | some ch =>
      rcases apply_listed hresult hfind with ⟨hnot, message, hrun⟩ | ⟨happlies, after, hfile, hne, hset, hrun⟩
      · rw [hrun]
        exact iff_of_true ⟨rfl, rfl⟩ fun h => absurd h hnot
      · rw [hrun]
        by_cases hgit : f.add = false ∧ f.commit = false
        · rw [hgit.1, hgit.2]
          refine iff_of_true ⟨?_, changes_applied hresult hfile hset⟩ fun _ => ⟨rfl, rfl⟩
          rw [hfile]
          exact Function.update_self path _ _
        · have hfails : (f.add || f.commit) = true := by
            rw [Bool.or_eq_true]
            by_contra hnone
            exact hgit (by simpa using hnone)
          rw [if_pos hfails]
          refine iff_of_false ?_ fun h => hgit (h happlies)
          rintro ⟨hsource, -⟩
          refine hne ?_
          rw [← hsource]
          simp

/-- The folder with one file, and its draft in which the file is changed. -/
def changedNotes : Workspace :=
  ⟨snapshot spelled notes.files, notes.folder, ⟨[("notes.md", some [66])], by decide⟩, notes.folder⟩

/-- `git commit` fails: the source is written and the baseline is not, and the list then has the file as
a conflict with itself. -/
theorem commit_fails_halfway :
    let after := applyLocalChange spelled ⟨noneLost, false, false, true⟩ "notes.md" changedNotes
    ¬Whole spelled "notes.md" changedNotes after ∧ after.2.source "notes.md" = some [66] ∧
      after.2.changes spelled noneLost = .ok [⟨"notes.md", .modified, true, true⟩] := by
  intro after
  have hsource : after.2.source "notes.md" = some [66] := rfl
  refine ⟨fun h => ?_, hsource, rfl⟩
  have hsame : after.2.source = notes.folder := h.1
  rw [hsame] at hsource
  exact absurd hsource (by decide)

end ForgeOS.Galaxy.Changes
