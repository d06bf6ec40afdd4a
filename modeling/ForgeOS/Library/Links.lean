import Mathlib.Data.List.Induction
import Mathlib.Data.List.Infix

/-! File systems with symbolic links, and how the kernel goes along a path: a link is replaced by the
path it holds, a limited number of times. -/

namespace ForgeOS.Library.Links

variable {ν : Type*}

/-- One part of a path: the directory itself, the one above it, or a name. -/
inductive Step (ν : Type*)
  | here
  | up
  | down (name : ν)
  deriving DecidableEq, Repr

structure Target (ν : Type*) where
  absolute : Bool
  steps : List (Step ν)
  deriving DecidableEq, Repr

inductive Entry (ν : Type*)
  | directory
  | file
  | link (target : Target ν)
  deriving DecidableEq, Repr

def Entry.isLink : Entry ν → Bool
  | .link _ => true
  | _ => false

/-- The entries by the names on the way to them from the root. Whatever exists is in a directory. -/
structure FileSystem (ν : Type*) where
  entry : List ν → Option (Entry ν)
  root : entry [] = some .directory
  parent : ∀ p name, (entry (p ++ [name])).isSome → entry p = some .directory

/-- The file system with the entries of a list. -/
def FileSystem.ofList [DecidableEq ν] (entries : List (List ν × Entry ν))
    (h : ∀ e ∈ entries, e.1.dropLast = [] ∨ entries.lookup e.1.dropLast = some .directory) :
    FileSystem ν where
  entry p := if p = [] then some .directory else entries.lookup p
  root := if_pos rfl
  parent := by
    intro p name hname
    rw [if_neg (by simp), List.lookup_isSome_iff] at hname
    obtain ⟨e, he, hpath⟩ := hname
    have hparent := h e he
    rw [← eq_of_beq hpath, List.dropLast_concat] at hparent
    split
    · rfl
    · next hne => exact hparent.resolve_left hne

def FileSystem.isLink (fs : FileSystem ν) (p : List ν) : Bool := (fs.entry p).any Entry.isLink

/-- The entry that a path leads to from a directory. With `create` the last name of the path need not
exist. -/
def FileSystem.walk (fs : FileSystem ν) (create : Bool) : ℕ → List ν → List (Step ν) → Option (List ν)
  | _, cur, [] => some cur
  | links, cur, .here :: steps => fs.walk create links cur steps
  | links, cur, .up :: steps => fs.walk create links cur.dropLast steps
  | links, cur, .down name :: steps =>
    match fs.entry (cur ++ [name]) with
    | none => if create && steps.isEmpty then some (cur ++ [name]) else none
    | some .directory => fs.walk create links (cur ++ [name]) steps
    | some .file => if steps.isEmpty then some (cur ++ [name]) else none
    | some (.link target) =>
      match links with
      | 0 => none
      | links + 1 =>
        fs.walk create links (if target.absolute then [] else cur) (target.steps ++ steps)
termination_by links _ steps => (links, steps.length)

variable {fs : FileSystem ν} {create : Bool} {links : ℕ} {cur p q : List ν} {steps : List (Step ν)}

theorem FileSystem.parent_dropLast (h : (fs.entry p).isSome) (hne : p ≠ []) :
    fs.entry p.dropLast = some .directory := by
  refine fs.parent p.dropLast (p.getLast hne) ?_
  rwa [List.dropLast_append_getLast hne]

/-- On the way to an entry there are only directories. -/
theorem FileSystem.directory_above (h : (fs.entry (p ++ q)).isSome) (hq : q ≠ []) :
    fs.entry p = some .directory := by
  induction q using List.reverseRecOn with
  | nil => exact absurd rfl hq
  | append_singleton q name ih =>
    rw [← List.append_assoc] at h
    have hparent := fs.parent (p ++ q) name h
    cases q with
    | nil => rwa [List.append_nil] at hparent
    | cons first q => exact ih (by rw [hparent]; rfl) (by simp)

theorem FileSystem.not_isLink_above (h : (fs.entry (p ++ q)).isSome) (hq : q ≠ []) : ¬fs.isLink p := by
  rw [FileSystem.isLink, FileSystem.directory_above h hq]
  simp [Entry.isLink]

/-- A walk that creates nothing ends at an entry that is no link. -/
theorem FileSystem.entry_of_walk (hcur : fs.entry cur = some .directory)
    (h : fs.walk false links cur steps = some p) :
    fs.entry p = some .directory ∨ fs.entry p = some .file := by
  induction links, cur, steps using FileSystem.walk.induct fs false with
  | case1 links cur =>
    rw [FileSystem.walk, Option.some.injEq] at h
    exact .inl (h ▸ hcur)
  | case2 links cur steps ih =>
    rw [FileSystem.walk] at h
    exact ih hcur h
  | case3 links cur steps ih =>
    rw [FileSystem.walk] at h
    refine ih ?_ h
    by_cases hne : cur = []
    · rw [hne]
      exact fs.root
    · exact FileSystem.parent_dropLast (by rw [hcur]; rfl) hne
  | case4 links cur name steps hentry hcreate => cases hcreate
  | case5 links cur name steps hentry hcreate =>
    rw [FileSystem.walk, hentry] at h
    cases h
  | case6 links cur name steps hentry ih =>
    rw [FileSystem.walk, hentry] at h
    exact ih hentry h
  | case7 links cur name steps hentry hlast =>
    rw [FileSystem.walk, hentry] at h
    simp only [hlast, if_true, Option.some.injEq] at h
    exact .inr (h ▸ hentry)
  | case8 links cur name steps hentry hlast =>
    rw [FileSystem.walk, hentry] at h
    simp only [if_neg hlast] at h
    cases h
  | case9 cur name steps target hentry =>
    rw [FileSystem.walk, hentry] at h
    cases h
  | case10 cur name steps target hentry links ih =>
    rw [FileSystem.walk, hentry] at h
    refine ih ?_ h
    split
    · exact fs.root
    · exact hcur

/-- Where no link is on the way, a path leads where it says. -/
theorem FileSystem.walk_down {names : List ν} (h : ∀ q, q <+: names → ¬fs.isLink (cur ++ q))
    (hwalk : fs.walk create links cur (names.map .down) = some p) : p = cur ++ names := by
  induction names generalizing cur with
  | nil =>
    rw [List.map_nil, FileSystem.walk, Option.some.injEq] at hwalk
    rw [List.append_nil, hwalk]
  | cons name names ih =>
    rw [List.map_cons, FileSystem.walk] at hwalk
    have hrest : ∀ q, q <+: names → ¬fs.isLink (cur ++ [name] ++ q) := by
      intro q hq
      rw [List.append_assoc]
      exact h (name :: q) (List.cons_prefix_cons.mpr ⟨rfl, hq⟩)
    have hlast : (names.map Step.down).isEmpty → names = [] := by simp
    split at hwalk
    · split at hwalk
      · next hempty =>
        rw [Bool.and_eq_true] at hempty
        rw [hlast hempty.2]
        exact (Option.some.inj hwalk).symm
      · cases hwalk
    · rw [ih hrest hwalk, List.append_assoc]
      rfl
    · split at hwalk
      · next hempty =>
        rw [hlast hempty]
        exact (Option.some.inj hwalk).symm
      · cases hwalk
    · next target hentry =>
      have hlink := h [name] (List.cons_prefix_cons.mpr ⟨rfl, List.nil_prefix⟩)
      simp [FileSystem.isLink, hentry, Entry.isLink] at hlink

end ForgeOS.Library.Links
