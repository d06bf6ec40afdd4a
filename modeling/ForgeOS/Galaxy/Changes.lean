import Mathlib.Data.List.Sort
import ForgeOS.Galaxy.Paths

/-! The changes of a draft against the folder that it was copied from. The list waits for git at every
changed file that the baseline knows; what it says of the source is read after that wait, and other
files may follow. -/

namespace ForgeOS.Galaxy.Changes

abbrev Bytes := List UInt8

/-- Files by path. -/
abbrev Folder := String → Option Bytes

/-! ### Baselines -/

/-- The digests by path, in the order in which they have been set. -/
abbrev Manifest := List (String × String)

namespace Manifest

def get (m : Manifest) (path : String) : Option String := m.lookup path

/-- `manifest[path] = hash`. Under the name of the prototype it makes no entry. -/
def set (m : Manifest) (path hash : String) : Manifest :=
  if (m.get path).isSome then m.map fun e => if e.1 = path then (path, hash) else e
  else if path = "__proto__" then m
  else m ++ [(path, hash)]

/-- A key that is the index of an array. -/
def index (key : String) : Option ℕ :=
  if key.toList.all Char.isDigit && key != "" && (key.toList.head? != some '0' || key == "0") then
    let n := key.toList.foldl (fun n d => 10 * n + (d.toNat - '0'.toNat)) 0
    if n < 4294967295 then some n else none
  else none

/-- `Object.keys`: indices come first. -/
def keys (m : Manifest) : List String :=
  let names := m.map Prod.fst
  (names.filter fun k => (index k).isSome).insertionSort (fun k l => (index k).getD 0 ≤ (index l).getD 0) ++
    names.filter fun k => (index k).isNone

example : keys [("b", "1"), ("10", "2"), ("02", "3"), ("2", "4")] = ["2", "10", "b", "02"] := by
  decide

/-- Names that every object has. -/
def inherited : List String :=
  ["constructor", "hasOwnProperty", "isPrototypeOf", "propertyIsEnumerable", "toLocaleString",
    "toString", "valueOf", "__defineGetter__", "__defineSetter__", "__lookupGetter__",
    "__lookupSetter__", "__proto__"]

/-- `path in baseline` -/
def has (m : Manifest) (path : String) : Bool := (m.get path).isSome || inherited.contains path

end Manifest

/-- The directory of a draft, its visible files in the order of the inventory, and its baseline. -/
structure Draft where
  manifest : Manifest
  files : List (String × Bytes)
  deriving DecidableEq, Repr

def Draft.read (d : Draft) (path : String) : Option Bytes := d.files.lookup path

/-! ### Changes -/

inductive Kind
  | deleted
  | added
  | modified
  deriving DecidableEq, Repr

/-- A change without its diff. -/
structure Change where
  path : String
  kind : Kind
  applicable : Bool
  conflict : Bool
  deriving DecidableEq, Repr

/-- `changes` while it waits for git to show the file, with the baseline that it has read. -/
structure Listing where
  manifest : Manifest
  path : String
  kind : Kind
  applicable : Bool
  rest : List String
  result : List Change
  deriving DecidableEq, Repr

inductive Progress
  | shows (l : Listing)
  | listed (result : List Change)
  deriving DecidableEq, Repr

def extname (path : String) : List Char :=
  let base := ((path.toList.splitOn '/').getLast?).getD []
  let parts := base.splitOn '.'
  if parts.length ≤ 1 || (parts.length == 2 && parts.head? == some []) then []
  else '.' :: (parts.getLast?).getD []

def text (path : String) (after : Bytes) : Bool :=
  !after.contains 0 && after.length < 500000 &&
    !([".docx", ".pdf"].any fun ext => ext.toList == (extname path).map Char.toLower)

example : text "notes/a.b.PDF" [65] = false ∧ text "notes/pdf" [65] = true := by decide

section Digest

variable (digest : Bytes → String)

/-- The source is compared with the baseline, where an inherited name has something else than a
digest. -/
def change (m : Manifest) (source : Folder) (path : String) (kind : Kind) (applicable : Bool) :
    Change where
  path
  kind
  applicable
  conflict := (source path).map digest != m.get path || ((m.get path).isNone && m.has path)

/-- The loop of `changes` up to its next wait. -/
def scan (d : Draft) (source : Folder) (m : Manifest) : List String → List Change → Progress
  | [], result => .listed result
  | path :: rest, result =>
    match d.read path with
    | some after =>
      if m.get path = some (digest after) then scan d source m rest result
      else if m.has path then .shows ⟨m, path, .modified, text path after, rest, result⟩
      else scan d source m rest (result ++ [change digest m source path .added (text path after)])
    | none =>
      if m.has path then .shows ⟨m, path, .deleted, false, rest, result⟩
      else scan d source m rest result

def paths (d : Draft) : List String := (d.manifest.keys ++ d.files.map Prod.fst).eraseDups

/-- `changes` of a draft. -/
def changes (d : Draft) (source : Folder) : Progress := scan digest d source d.manifest (paths d) []

/-- Git has shown the file. -/
def Listing.shown (l : Listing) (d : Draft) (source : Folder) : Progress :=
  scan digest d source l.manifest l.rest
    (l.result ++ [change digest l.manifest source l.path l.kind l.applicable])

/-- `checkpointDraft` up to its wait: the baseline that it is going to write. -/
def checkpoint (d : Draft) (path : String) (content : Bytes) : Manifest :=
  d.manifest.set path (digest content)

end Digest

/-! ### What a list has seen -/

def Progress.result : Progress → List Change
  | .shows l => l.result
  | .listed result => result

variable {digest : Bytes → String}

/-- Each change that is added says what the source is like now. -/
theorem mem_scan {d : Draft} {source : Folder} {m : Manifest} {ps : List String}
    {result : List Change} {ch : Change} (h : ch ∈ (scan digest d source m ps result).result) :
    ch ∈ result ∨ ∃ path kind applicable, ch = change digest m source path kind applicable := by
  induction ps generalizing result with
  | nil => exact .inl h
  | cons path rest ih =>
    rw [scan] at h
    split at h
    · split at h
      · exact ih h
      · split at h
        · exact .inl h
        · rcases ih h with hmem | hnew
          · rcases List.mem_append.mp hmem with hmem | hmem
            · exact .inl hmem
            · exact .inr ⟨_, _, _, List.mem_singleton.mp hmem⟩
          · exact .inr hnew
    · split at h
      · exact .inl h
      · exact ih h

theorem scan_manifest {d : Draft} {source : Folder} {m : Manifest} {ps : List String}
    {result : List Change} {l : Listing} (h : scan digest d source m ps result = .shows l) :
    l.manifest = m := by
  induction ps generalizing result with
  | nil => cases h
  | cons path rest ih =>
    rw [scan] at h
    split at h
    · split at h
      · exact ih h
      · split at h
        · cases h
          rfl
        · exact ih h
    · split at h
      · cases h
        rfl
      · exact ih h

theorem change_agrees {m : Manifest} {source : Folder} {path : String} {kind : Kind}
    {applicable : Bool} (h : (change digest m source path kind applicable).conflict = false) :
    (source path).map digest = m.get path := by
  simp only [change, Bool.or_eq_false_iff, bne_eq_false_iff_eq] at h
  exact h.1

/-- The list has found the file and no conflict in it. -/
def found (result : List Change) (path : String) : Bool :=
  result.any fun ch => ch.path == path && !ch.conflict

/-- A list that has found the file unchanged in the source has compared it, in this stretch or in an
earlier one. -/
theorem found_scan {d : Draft} {source : Folder} {m : Manifest} {ps : List String}
    {result : List Change} {path : String}
    (h : found (scan digest d source m ps result).result path) :
    found result path ∨ (source path).map digest = m.get path := by
  obtain ⟨ch, hch, hpath⟩ := List.any_eq_true.mp h
  rcases mem_scan hch with hmem | ⟨p, kind, applicable, rfl⟩
  · exact .inl (List.any_eq_true.mpr ⟨ch, hmem, hpath⟩)
  · simp only [Bool.and_eq_true, beq_iff_eq, Bool.not_eq_true'] at hpath
    obtain ⟨rfl, hconflict⟩ := hpath
    exact .inr (change_agrees hconflict)

theorem found_changes {d : Draft} {source : Folder} {path : String}
    (h : found (changes digest d source).result path) :
    (source path).map digest = d.manifest.get path :=
  (found_scan h).resolve_left Bool.false_ne_true

theorem found_shown {l : Listing} {d : Draft} {source : Folder} {path : String}
    (h : found (l.shown digest d source).result path) :
    found l.result path ∨ (source path).map digest = l.manifest.get path := by
  rcases found_scan h with hfound | hsame
  · rw [found, List.any_append, Bool.or_eq_true] at hfound
    rcases hfound with hfound | hnew
    · exact .inl hfound
    · simp only [List.any_cons, List.any_nil, Bool.or_false, Bool.and_eq_true, beq_iff_eq,
        Bool.not_eq_true'] at hnew
      obtain ⟨rfl, hconflict⟩ := hnew
      exact .inr (change_agrees hconflict)
  · exact .inr hsame

theorem found_of_find? {result : List Change} {path : String} {ch : Change}
    (h : result.find? (·.path = path) = some ch) (hconflict : ch.conflict = false) :
    found result path := by
  refine List.any_eq_true.mpr ⟨ch, List.mem_of_find?_eq_some h, ?_⟩
  have hpath := List.find?_some h
  simp only [decide_eq_true_eq] at hpath
  simp [hpath, hconflict]

/-- A digest that tells all files apart, to try lists out. -/
def spelled (b : Bytes) : String := String.ofList (b.map fun x => Char.ofNat x.toNat)

end ForgeOS.Galaxy.Changes
