import Mathlib.Algebra.GroupWithZero.Nat
import ForgeOS.Galaxy.Changes

/-! The list of changes against the snapshot from which a draft began. `createDraft` puts the digests
into an object, and `changes` looks for paths in it with `in`, which finds the names that every object
has; the prototype is a name under which nothing can be put. -/

namespace ForgeOS.Galaxy.Changes

/-! ### Folders -/

/-- The visible entries of a folder that are no links, in the order of the walk: folders, and files
with their bytes. -/
structure Tree where
  items : List (String × Option Bytes)
  nodup : (items.map Prod.fst).Nodup

def Tree.files (t : Tree) : List (String × Bytes) := t.items.filterMap fun e => e.2.map (e.1, ·)

def Tree.folder (t : Tree) : Folder := fun path => t.files.lookup path

/-- How many entries one folder, and how many files and bytes all of it may have. -/
def Tree.withinLimits (t : Tree) : Bool :=
  (t.items.all fun e =>
    t.items.countP (fun f => (splitSlash f.1).dropLast = (splitSlash e.1).dropLast) ≤ 2000) &&
  t.files.length ≤ 2000 && (t.files.map fun f => f.2.length).sum ≤ 60000000

/-- `inventory`. The walk asks `safePath` for every entry, which refuses a backslash. -/
def inventory (t : Tree) : Except String (List (String × Bytes)) :=
  if t.items.any fun e => e.1.toList.contains '\\' then
    .error "This path is not available in the workspace."
  else if t.withinLimits then .ok t.files
  else .error "This folder is too large for a pilot draft."

section Digest

variable (digest : Bytes → String)

/-- The baseline that `createDraft` writes. -/
def snapshot (files : List (String × Bytes)) : Manifest :=
  files.foldl (fun m f => m.set f.1 (digest f.2)) []

/-- `createDraft`: the baseline, and what git shows from then on. -/
def createDraft (original : Tree) : Except String (Manifest × Folder) :=
  match inventory original with
  | .ok files => .ok (snapshot digest files, fun path => files.lookup path)
  | .error message => .error message

/-- The rest of `changes`, with at most so many files that git is asked for. -/
def listAll (head : Folder) (d : Draft) (source : Folder) : ℕ → Progress → Except String (List Change)
  | _, .listed result => .ok result
  | 0, .shows _ => .error "Command failed"
  | n + 1, .shows l =>
    if (head l.path).isSome then listAll head d source n (l.shown digest d source)
    else .error "Command failed"

/-- `changes` from its first line to its last, with the draft and the source as they are. -/
def allChanges (m : Manifest) (head : Folder) (draft : Tree) (source : Folder) :
    Except String (List Change) :=
  match inventory draft with
  | .ok files =>
    let d : Draft := ⟨m, files⟩
    listAll digest head d source (paths d).length (changes digest d source)
  | .error message => .error message

/-- What the loop finds at one path. -/
def changeAt (d : Draft) (source : Folder) (path : String) : Option Change :=
  match d.read path with
  | some after =>
    if d.manifest.get path = some (digest after) then none
    else if d.manifest.has path then
      some (change digest d.manifest source path .modified (text path after))
    else some (change digest d.manifest source path .added (text path after))
  | none =>
    if d.manifest.has path then some (change digest d.manifest source path .deleted false) else none

/-- The loop asks git at this path. -/
def asksGit (d : Draft) (path : String) : Bool :=
  d.manifest.has path &&
    match d.read path with
    | some after => d.manifest.get path != some (digest after)
    | none => true

end Digest

/-! ### The loop -/

variable {digest : Bytes → String} {d : Draft} {source : Folder} {path : String}

theorem path_of_changeAt {ch : Change} (h : changeAt digest d source path = some ch) : ch.path = path := by
  unfold changeAt at h
  split at h
  · split at h
    · cases h
    · split at h <;> cases h <;> rfl
  · split at h
    · cases h
      rfl
    · cases h

/-- Git has a file wherever the loop asks for one. -/
def shows (digest : Bytes → String) (head : Folder) (d : Draft) (ps : List String) : Bool :=
  ps.all fun p => !asksGit digest d p || (head p).isSome

/-- The loop either is refused a file by git or comes to the end with a change for every path that has
one. -/
theorem listAll_scan (head : Folder) {ps : List String} {n : ℕ} {result : List Change}
    (hn : ps.length ≤ n) :
    listAll digest head d source n (scan digest d source d.manifest ps result) =
      if shows digest head d ps then .ok (result ++ ps.filterMap (changeAt digest d source))
      else .error "Command failed" := by
  induction ps generalizing n result with
  | nil =>
    rw [scan, List.filterMap_nil, List.append_nil]
    cases n <;> rfl
  | cons path rest ih =>
    rw [List.length_cons] at hn
    have hpass : ∀ {result}, listAll digest head d source n (scan digest d source d.manifest rest result) =
        if shows digest head d rest then
          .ok (result ++ rest.filterMap (changeAt digest d source))
        else .error "Command failed" := ih (by omega)
    -- git is asked, and the change is added when it has answered
    have hasked : ∀ kind applicable,
        listAll digest head d source n (.shows ⟨d.manifest, path, kind, applicable, rest, result⟩) =
          if (head path).isSome && shows digest head d rest then
            .ok (result ++ change digest d.manifest source path kind applicable ::
              rest.filterMap (changeAt digest d source))
          else .error "Command failed" := by
      intro kind applicable
      obtain ⟨k, rfl⟩ : ∃ k, n = k + 1 := ⟨n - 1, by omega⟩
      rw [listAll, Listing.shown, ih (by omega), List.append_assoc, List.singleton_append]
      cases (head path).isSome <;> rfl
    have hcons : shows digest head d (path :: rest) =
        ((!asksGit digest d path || (head path).isSome) && shows digest head d rest) := rfl
    rw [scan, hcons, asksGit, List.filterMap_cons, changeAt]
    cases d.read path with
    | some after =>
      dsimp only
      by_cases hsame : d.manifest.get path = some (digest after)
      · simp [hsame, hpass]
      · by_cases hhas : d.manifest.has path
        · simp [hsame, hhas, hasked]
        · simp [hsame, hhas, hpass]
    | none =>
      by_cases hhas : d.manifest.has path
      · simp [hhas, hasked]
      · simp [hhas, hpass]

/-! ### Baselines and paths -/

theorem isSome_lookup {β : Type*} (l : List (String × β)) (key : String) :
    (l.lookup key).isSome ↔ key ∈ l.map Prod.fst := by
  rw [List.lookup_isSome_iff, List.mem_map]
  constructor
  · rintro ⟨e, he, hkey⟩
    exact ⟨e, he, (eq_of_beq hkey).symm⟩
  · rintro ⟨e, he, hkey⟩
    exact ⟨e, he, beq_iff_eq.mpr hkey.symm⟩

namespace Manifest

variable {m : Manifest}

theorem get_cons (e : String × String) (m : Manifest) (path : String) :
    Manifest.get (e :: m) path = if path = e.1 then some e.2 else m.get path := by
  rw [Manifest.get, List.lookup_cons]
  by_cases h : path = e.1
  · simp [h]
  · simp [h, beq_false_of_ne h, Manifest.get]

theorem get_map (m : Manifest) (q hash path : String) :
    Manifest.get (m.map fun e => if e.1 = q then (q, hash) else e) path =
      if path = q then (m.get q).map fun _ => hash else m.get path := by
  induction m with
  | nil => by_cases h : path = q <;> simp [Manifest.get, h]
  | cons e m ih =>
    rw [List.map_cons, get_cons, ih, get_cons, get_cons]
    by_cases hpath : path = q
    · by_cases he : e.1 = q
      · simp [hpath, he]
      · simp [hpath, he, Ne.symm he]
    · by_cases he : e.1 = q
      · simp [hpath, he]
      · simp [hpath, he]

theorem get_append (m : Manifest) (q hash path : String) (h : m.get q = none) :
    Manifest.get (m ++ [(q, hash)]) path = if path = q then some hash else m.get path := by
  induction m with
  | nil =>
    rw [List.nil_append, get_cons]
  | cons e m ih =>
    rw [get_cons] at h
    have hne : q ≠ e.1 := fun hq => by simp [hq] at h
    rw [if_neg hne] at h
    rw [List.cons_append, get_cons, get_cons, ih h]
    by_cases hpath : path = q
    · simp [hpath, hne]
    · simp [hpath]

/-- An entry that is put under a name is found under it. -/
theorem get_set (m : Manifest) (q hash path : String) :
    (m.set q hash).get path =
      if path = q ∧ ((m.get q).isSome ∨ q ≠ "__proto__") then some hash else m.get path := by
  rw [Manifest.set]
  by_cases hq : (m.get q).isSome
  · obtain ⟨old, hold⟩ := Option.isSome_iff_exists.mp hq
    rw [if_pos hq, get_map, hold]
    simp
  · by_cases hproto : q = "__proto__"
    · rw [if_neg hq, if_pos hproto, if_neg]
      rintro ⟨-, hsome | hne⟩
      · exact hq hsome
      · exact hne hproto
    · rw [if_neg hq, if_neg hproto, get_append _ _ _ _ (Option.not_isSome_iff_eq_none.mp hq)]
      simp [hproto]

theorem mem_keys (m : Manifest) (path : String) : path ∈ m.keys ↔ (m.get path).isSome := by
  rw [Manifest.get, isSome_lookup, keys, List.mem_append, List.mem_insertionSort, List.mem_filter, List.mem_filter]
  cases (index path) <;> simp

end Manifest

/-- The baseline has the digests of the files, except under the name of the prototype. -/
theorem get_snapshot {files : List (String × Bytes)} (h : (files.map Prod.fst).Nodup) (path : String) :
    (snapshot digest files).get path =
      if path = "__proto__" then none else (files.lookup path).map digest := by
  have hfold : ∀ m : Manifest, m.get "__proto__" = none →
      (files.foldl (fun m f => m.set f.1 (digest f.2)) m).get path =
        if path = "__proto__" then none
        else ((files.lookup path).map digest).or (m.get path) := by
    induction files with
    | nil =>
      intro m hm
      by_cases hproto : path = "__proto__"
      · simp [hproto, hm]
      · simp [hproto]
    | cons f files ih =>
      intro m hm
      rw [List.map_cons, List.nodup_cons] at h
      have hset : ((m.set f.1 (digest f.2)).get "__proto__") = none := by
        rw [Manifest.get_set, if_neg, hm]
        rintro ⟨hname, hsome | hne⟩
        · simp [← hname, hm] at hsome
        · exact hne hname.symm
      rw [List.foldl_cons, ih h.2 _ hset, Manifest.get_set, List.lookup_cons]
      by_cases hproto : path = "__proto__"
      · simp [hproto]
      · by_cases hpath : path = f.1
        · have hnone : files.lookup f.1 = none := by
            rw [← Option.not_isSome_iff_eq_none, isSome_lookup]
            exact h.1
          simp [← hpath, hproto, hpath ▸ hnone]
        · simp [hpath, hproto, beq_false_of_ne hpath]
  rw [snapshot, hfold [] rfl]
  simp [Manifest.get]

theorem nodup_eraseDups (l : List String) : l.eraseDups.Nodup := by
  induction hn : l.length using Nat.strong_induction_on generalizing l with
  | _ n ih =>
    cases l with
    | nil => simp
    | cons x l =>
      rw [List.eraseDups_cons, List.nodup_cons]
      have hlen := List.length_filter_le (fun y => !y == x) l
      rw [List.length_cons] at hn
      exact ⟨by simp, ih _ (by omega) _ rfl⟩

theorem mem_paths : path ∈ paths d ↔ (d.manifest.get path).isSome ∨ (d.read path).isSome := by
  rw [paths, List.mem_eraseDups, List.mem_append, Manifest.mem_keys, Draft.read, isSome_lookup]

theorem Tree.nodup_files (t : Tree) : (t.files.map Prod.fst).Nodup := by
  have hsub : ∀ items : List (String × Option Bytes),
      ((items.filterMap fun e => e.2.map (e.1, ·)).map Prod.fst).Sublist (items.map Prod.fst) := by
    intro items
    induction items with
    | nil => exact .slnil
    | cons e items ih =>
      obtain ⟨path, content⟩ := e
      cases content with
      | none => simpa using ih.cons path
      | some bytes => simpa using ih.cons_cons path
  exact (hsub t.items).nodup t.nodup

/-- `changes` returns where the inventory goes through and git has every file that it is asked for. -/
theorem allChanges_ok_iff {m : Manifest} {head : Folder} {draft : Tree} {result : List Change} :
    allChanges digest m head draft source = .ok result ↔
      (∀ e ∈ draft.items, '\\' ∉ e.1.toList) ∧ draft.withinLimits ∧
        shows digest head ⟨m, draft.files⟩ (paths ⟨m, draft.files⟩) ∧
        result = (paths ⟨m, draft.files⟩).filterMap (changeAt digest ⟨m, draft.files⟩ source) := by
  unfold allChanges inventory
  by_cases hslash : ∀ e ∈ draft.items, '\\' ∉ e.1.toList
  · rw [if_neg (by simpa using hslash)]
    by_cases hlimits : draft.withinLimits
    · rw [if_pos hlimits]
      dsimp only
      rw [changes, listAll_scan head (d := ⟨m, draft.files⟩) le_rfl]
      split
      · next hshows =>
        rw [List.nil_append, Except.ok.injEq, eq_comm]
        exact ⟨fun h => ⟨hslash, hlimits, hshows, h⟩, fun h => h.2.2.2⟩
      · next hshows => simp [hshows]
    · simp [hlimits]
  · rw [if_pos (by simpa using hslash)]
    constructor
    · intro h
      cases h
    · intro h
      exact absurd h.1 hslash

/-! ### What the list should be -/

/-- What has become of a file, from what it was and what it is. -/
def kindOf : Option Bytes → Option Bytes → Kind
  | none, _ => .added
  | some _, none => .deleted
  | some _, some _ => .modified

/-- The list has the paths at which the draft is not what the snapshot is, each once, with what has
become of them, and with a conflict where the source is not what the snapshot is either. -/
structure Exact (original draft source : Folder) (result : List Change) : Prop where
  nodup : (result.map Change.path).Nodup
  listed : ∀ path, path ∈ result.map Change.path ↔ original path ≠ draft path
  kind : ∀ ch ∈ result, ch.kind = kindOf (original ch.path) (draft ch.path)
  conflict : ∀ ch ∈ result, ch.conflict ↔ source ch.path ≠ original ch.path

/-- Nothing in the draft has a backslash in its name, no file has been added under a name that every
object has, and a file with the name of the prototype has been changed on both sides. -/
structure Ordinary (original : Folder) (draft : Tree) (source : Folder) : Prop where
  slashes : ∀ e ∈ draft.items, '\\' ∉ e.1.toList
  inherited : ∀ name ∈ Manifest.inherited, original name = none → draft.folder name = none
  prototype : ∀ content ∈ original "__proto__", draft.folder "__proto__" ≠ none ∧
    draft.folder "__proto__" ≠ some content ∧ source "__proto__" ≠ some content

section Snapshot

variable {original draft : Tree}

/-- The draft as `changes` meets it. -/
def Tree.draftOf (digest : Bytes → String) (original draft : Tree) : Draft :=
  ⟨snapshot digest original.files, draft.files⟩

theorem get_draftOf (path : String) :
    (original.draftOf digest draft).manifest.get path =
      if path = "__proto__" then none else (original.folder path).map digest :=
  get_snapshot original.nodup_files path

theorem has_draftOf (path : String) :
    (original.draftOf digest draft).manifest.has path =
      ((original.folder path).isSome || Manifest.inherited.contains path) := by
  rw [Manifest.has, get_draftOf]
  by_cases hproto : path = "__proto__"
  · rw [hproto]
    cases (original.folder "__proto__").isSome <;> rfl
  · simp [hproto]

/-- At a path whose name no object has, or which the snapshot has, except under the name of the
prototype. -/
theorem changeAt_plain (hdigest : Function.Injective digest) (hproto : path ≠ "__proto__")
    (hname : path ∈ Manifest.inherited → (original.folder path).isSome) :
    (changeAt digest (original.draftOf digest draft) source path = none ↔
      original.folder path = draft.folder path) ∧
    ∀ ch, changeAt digest (original.draftOf digest draft) source path = some ch →
      ch.kind = kindOf (original.folder path) (draft.folder path) ∧
        (ch.conflict ↔ source path ≠ original.folder path) := by
  have hhas : (original.draftOf digest draft).manifest.has path = (original.folder path).isSome := by
    rw [has_draftOf]
    by_cases hmem : path ∈ Manifest.inherited
    · rw [hname hmem, Bool.true_or]
    · simp [hmem]
  have hget : (original.draftOf digest draft).manifest.get path = (original.folder path).map digest := by
    rw [get_draftOf, if_neg hproto]
  have hread : (original.draftOf digest draft).read path = draft.folder path := rfl
  -- the digests of the source and of the snapshot tell whether they are the same
  have hconflict : ∀ kind applicable,
      ((change digest (original.draftOf digest draft).manifest source path kind applicable).conflict ↔
        source path ≠ original.folder path) := by
    intro kind applicable
    have hnone : ((((original.draftOf digest draft).manifest.get path).isNone &&
        (original.draftOf digest draft).manifest.has path) = true) = False := by
      rw [hhas, hget]
      cases original.folder path <;> simp
    rw [change, Bool.or_eq_true, hnone, or_false, hget, bne_iff_ne,
      (Option.map_injective hdigest).ne_iff]
  rw [changeAt, hread, hhas, hget]
  cases hS : original.folder path with
  | none =>
    rw [hS] at hconflict
    cases hD : draft.folder path with
    | none => simp
    | some after =>
      simp only [Option.map_none, reduceCtorEq, if_false, Option.isSome_none, Bool.false_eq_true,
        Option.some.injEq, true_and]
      rintro ch rfl
      exact ⟨rfl, hconflict _ _⟩
  | some content =>
    rw [hS] at hconflict
    cases hD : draft.folder path with
    | none =>
      simp only [Option.isSome_some, if_true, Option.some.injEq, reduceCtorEq, true_and]
      rintro ch rfl
      exact ⟨rfl, hconflict _ _⟩
    | some after =>
      simp only [Option.map_some, Option.some.injEq, Option.isSome_some, if_true]
      by_cases hsame : content = after
      · simp [hsame]
      · rw [if_neg fun h => hsame (hdigest h)]
        simp only [reduceCtorEq, hsame, Option.some.injEq, true_and]
        rintro ch rfl
        exact ⟨rfl, hconflict _ _⟩

/-- The prototype is taken for something that the baseline has, and that no source agrees with. -/
theorem changeAt_prototype (digest : Bytes → String) (source : Folder) {content after : Bytes}
    (hS : original.folder "__proto__" = some content) (hD : draft.folder "__proto__" = some after) :
    ∃ ch, changeAt digest (original.draftOf digest draft) source "__proto__" = some ch ∧
      ch.kind = .modified ∧ ch.conflict = true := by
  have hget : (original.draftOf digest draft).manifest.get "__proto__" = none := get_draftOf _
  have hhas : (original.draftOf digest draft).manifest.has "__proto__" = true := by
    rw [has_draftOf, hS, Option.isSome_some, Bool.true_or]
  have hread : (original.draftOf digest draft).read "__proto__" = some after := hD
  refine ⟨_, by rw [changeAt, hread, hget, hhas]; rfl, rfl, ?_⟩
  rw [change, hget, hhas, Option.isNone_none, Bool.and_self, Bool.or_true]

theorem mem_paths_draftOf :
    path ∈ paths (original.draftOf digest draft) ↔
      (path ≠ "__proto__" ∧ (original.folder path).isSome) ∨ (draft.folder path).isSome := by
  rw [mem_paths, get_draftOf]
  by_cases hproto : path = "__proto__"
  · simp [hproto, Tree.draftOf, Draft.read, Tree.folder]
  · simp [hproto, Tree.draftOf, Draft.read, Tree.folder]

/-- The paths at which the list has a change are those of the loop that have one. -/
theorem map_path_filterMap (d : Draft) (source : Folder) (ps : List String) :
    (ps.filterMap (changeAt digest d source)).map Change.path =
      ps.filter fun p => (changeAt digest d source p).isSome := by
  induction ps with
  | nil => rfl
  | cons p ps ih =>
    cases hp : changeAt digest d source p with
    | none => rw [List.filterMap_cons_none hp, ih, List.filter_cons_of_neg (by simp [hp])]
    | some ch =>
      rw [List.filterMap_cons_some hp, List.map_cons, ih, List.filter_cons_of_pos (by simp [hp]),
        path_of_changeAt hp]

/-- Every name that all objects have and that the loop comes to is in the snapshot. -/
theorem Ordinary.mem_paths (h : Ordinary original.folder draft source)
    (hpath : path ∈ paths (original.draftOf digest draft)) (hname : path ∈ Manifest.inherited) :
    (original.folder path).isSome := by
  by_contra hnone
  rw [Option.not_isSome_iff_eq_none] at hnone
  have hdraft := h.inherited path hname hnone
  rw [mem_paths_draftOf, hnone, hdraft] at hpath
  simp at hpath

theorem Ordinary.shows (h : Ordinary original.folder draft source) :
    shows digest original.folder (original.draftOf digest draft)
      (paths (original.draftOf digest draft)) := by
  refine List.all_eq_true.mpr fun path hpath => ?_
  rw [Bool.or_eq_true]
  by_cases hask : asksGit digest (original.draftOf digest draft) path
  · refine .inr ?_
    rw [asksGit, Bool.and_eq_true, has_draftOf, Bool.or_eq_true] at hask
    rcases hask.1 with hsome | hname
    · exact hsome
    · exact h.mem_paths hpath (List.contains_iff_mem.mp hname)
  · exact .inl (by simpa using hask)

/-- What the loop finds at each of its paths. -/
theorem Ordinary.changeAt (hdigest : Function.Injective digest)
    (h : Ordinary original.folder draft source)
    (hpath : path ∈ paths (original.draftOf digest draft)) :
    (changeAt digest (original.draftOf digest draft) source path = none ↔
      original.folder path = draft.folder path) ∧
    ∀ ch, Changes.changeAt digest (original.draftOf digest draft) source path = some ch →
      ch.kind = kindOf (original.folder path) (draft.folder path) ∧
        (ch.conflict ↔ source path ≠ original.folder path) := by
  by_cases hproto : path = "__proto__"
  · subst hproto
    have hS := h.mem_paths hpath (by decide)
    obtain ⟨content, hcontent⟩ := Option.isSome_iff_exists.mp hS
    obtain ⟨hdraft, hchanged, hsource⟩ := h.prototype content hcontent
    obtain ⟨after, hafter⟩ := Option.ne_none_iff_exists'.mp hdraft
    obtain ⟨ch, hch, hkind, hconflict⟩ :=
      changeAt_prototype digest source hcontent hafter
    rw [hch, hcontent, hafter]
    refine ⟨iff_of_false (by simp) fun heq => hchanged (hafter.trans heq.symm), ?_⟩
    rintro ch' h'
    cases h'
    exact ⟨hkind, iff_of_true hconflict hsource⟩
  · exact changeAt_plain hdigest hproto fun hname => h.mem_paths hpath hname

theorem exact_of_ordinary (hdigest : Function.Injective digest)
    (h : Ordinary original.folder draft source) :
    Exact original.folder draft.folder source
      ((paths (original.draftOf digest draft)).filterMap
        (changeAt digest (original.draftOf digest draft) source)) where
  nodup := by
    rw [map_path_filterMap]
    exact (nodup_eraseDups _).filter _
  listed := by
    intro path
    rw [map_path_filterMap, List.mem_filter, Option.isSome_iff_ne_none]
    constructor
    · rintro ⟨hpath, hchange⟩ heq
      exact hchange ((h.changeAt hdigest hpath).1.mpr heq)
    · intro hne
      have hpath : path ∈ paths (original.draftOf digest draft) := by
        by_contra hout
        rw [mem_paths_draftOf, not_or, not_and] at hout
        have hdraft := Option.not_isSome_iff_eq_none.mp hout.2
        rw [hdraft] at hne
        by_cases hproto : path = "__proto__"
        · obtain ⟨content, hcontent⟩ := Option.ne_none_iff_exists'.mp hne
          rw [hproto] at hcontent hdraft
          exact (h.prototype content hcontent).1 hdraft
        · exact hne (Option.not_isSome_iff_eq_none.mp (hout.1 hproto))
      exact ⟨hpath, fun hnone => hne ((h.changeAt hdigest hpath).1.mp hnone)⟩
  kind := by
    intro ch hch
    obtain ⟨path, hpath, hchange⟩ := List.mem_filterMap.mp hch
    rw [path_of_changeAt hchange]
    exact ((h.changeAt hdigest hpath).2 ch hchange).1
  conflict := by
    intro ch hch
    obtain ⟨path, hpath, hchange⟩ := List.mem_filterMap.mp hch
    rw [path_of_changeAt hchange]
    exact ((h.changeAt hdigest hpath).2 ch hchange).2

theorem ordinary_of_exact (hslash : ∀ e ∈ draft.items, '\\' ∉ e.1.toList)
    (hshows : shows digest original.folder (original.draftOf digest draft)
      (paths (original.draftOf digest draft)))
    (hexact : Exact original.folder draft.folder source
      ((paths (original.draftOf digest draft)).filterMap
        (changeAt digest (original.draftOf digest draft) source))) :
    Ordinary original.folder draft source where
  slashes := hslash
  inherited := by
    intro name hname hnone
    by_contra hdraft
    obtain ⟨after, hafter⟩ := Option.ne_none_iff_exists'.mp hdraft
    have hpath : name ∈ paths (original.draftOf digest draft) :=
      mem_paths_draftOf.mpr (.inr (by rw [hafter]; rfl))
    -- nobody has committed the file that git is asked for
    have hask : asksGit digest (original.draftOf digest draft) name = true := by
      have hread : (original.draftOf digest draft).read name = some after := hafter
      rw [asksGit, has_draftOf, hread, get_draftOf, hnone, List.contains_iff_mem.mpr hname]
      simp
    have hshown := List.all_eq_true.mp hshows name hpath
    rw [hask, hnone] at hshown
    cases hshown
  prototype := by
    intro content hcontent
    have hlisted := hexact.listed "__proto__"
    rw [map_path_filterMap, List.mem_filter, hcontent] at hlisted
    cases hdraft : draft.folder "__proto__" with
    | none =>
      have hpath := (hlisted.mpr (by simp [hdraft])).1
      rw [mem_paths_draftOf, hdraft] at hpath
      simp at hpath
    | some after =>
      obtain ⟨ch, hch, -, hconflict⟩ :=
        changeAt_prototype digest source hcontent hdraft
      have hpath : "__proto__" ∈ paths (original.draftOf digest draft) :=
        mem_paths_draftOf.mpr (.inr (by rw [hdraft]; rfl))
      have hne := hlisted.mp ⟨hpath, by rw [hch]; rfl⟩
      have hsource := (hexact.conflict ch (List.mem_filterMap.mpr ⟨_, hpath, hch⟩)).mp hconflict
      rw [path_of_changeAt hch, hcontent] at hsource
      rw [hdraft] at hne
      exact ⟨by simp, hne.symm, hsource⟩

/-- For every folder that `createDraft` accepts and every later state of the draft and of the source,
within the limits of the inventory: `changes` returns the list that it should exactly when the names are
ordinary. -/
theorem changes_exact_iff (hdigest : Function.Injective digest) {m : Manifest} {head : Folder}
    (hcreate : createDraft digest original = .ok (m, head)) (hlimits : draft.withinLimits)
    (source : Folder) :
    (∃ result, allChanges digest m head draft source = .ok result ∧
      Exact original.folder draft.folder source result) ↔ Ordinary original.folder draft source := by
  obtain ⟨rfl, rfl⟩ : m = snapshot digest original.files ∧ head = original.folder := by
    unfold createDraft inventory at hcreate
    split at hcreate
    · next files hfiles =>
      split at hfiles
      · cases hfiles
      · split at hfiles
        · cases hfiles
          cases hcreate
          exact ⟨rfl, rfl⟩
        · cases hfiles
    · cases hcreate
  constructor
  · rintro ⟨result, hresult, hexact⟩
    obtain ⟨hslash, -, hshows, rfl⟩ := allChanges_ok_iff.mp hresult
    exact ordinary_of_exact hslash hshows hexact
  · intro h
    exact ⟨_, allChanges_ok_iff.mpr ⟨h.slashes, hlimits, h.shows, rfl⟩, exact_of_ordinary hdigest h⟩

end Snapshot

theorem spelled_injective : Function.Injective spelled := by
  intro a b h
  have hlist : a.map (fun x => Char.ofNat x.toNat) = b.map fun x => Char.ofNat x.toNat :=
    String.ofList_injective h
  refine List.map_injective_iff.mpr (fun x y hxy => ?_) hlist
  have hnat : ∀ z : UInt8, (Char.ofNat z.toNat).toNat = z.toNat := by
    intro z
    have hz := z.toNat_lt
    have hvalid : z.toNat.isValidChar := .inl (by omega)
    rw [Char.ofNat, dif_pos hvalid]
    rfl
  have hchar := congrArg Char.toNat hxy
  rw [hnat, hnat] at hchar
  exact UInt8.toNat_inj.mp hchar

/-- A folder with one file. -/
def notes : Tree := ⟨[("notes.md", some [65])], by decide⟩

/-- Its draft, with the file changed and another one added. -/
def notesDraft (added : String) (h : added ≠ "notes.md") : Tree :=
  ⟨[("notes.md", some [66]), (added, some [67])], by simp [h.symm]⟩

/-- An added file with an ordinary name is listed. -/
theorem notes_listed :
    ∃ result, allChanges spelled (snapshot spelled notes.files) notes.folder
        (notesDraft "plan.md" (by decide)) notes.folder = .ok result ∧
      Exact notes.folder (notesDraft "plan.md" (by decide)).folder notes.folder result := by
  have hcreate : createDraft spelled notes = .ok (snapshot spelled notes.files, notes.folder) := rfl
  refine (changes_exact_iff spelled_injective hcreate (by decide) notes.folder).mpr
    ⟨by decide, by decide, fun content h => ?_⟩
  cases h

/-- Where the added file has a name that every object has, git is asked for a file that nobody has
committed, and there is no list. -/
theorem constructor_unlisted :
    createDraft spelled notes = .ok (snapshot spelled notes.files, notes.folder) ∧
      (notesDraft "constructor" (by decide)).withinLimits ∧
      ¬∃ result, allChanges spelled (snapshot spelled notes.files) notes.folder
          (notesDraft "constructor" (by decide)) notes.folder = .ok result ∧
        Exact notes.folder (notesDraft "constructor" (by decide)).folder notes.folder result := by
  have hfails : allChanges spelled (snapshot spelled notes.files) notes.folder
      (notesDraft "constructor" (by decide)) notes.folder = .error "Command failed" := rfl
  refine ⟨rfl, by decide, ?_⟩
  rintro ⟨result, hresult, -⟩
  rw [hfails] at hresult
  cases hresult

end ForgeOS.Galaxy.Changes
