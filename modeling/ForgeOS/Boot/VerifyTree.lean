import Mathlib.Data.List.Induction
import Mathlib.Data.List.Nodup
import Mathlib.Data.List.Perm.Subperm

/-! `verify_tree`, which decides whether a file tree has been moved completely before the original is
given up. It walks the first tree and looks every entry up in the second; of the second it only counts
the entries. -/

namespace ForgeOS.Boot.VerifyTree

/-! ### File trees -/

/-- What `lstat` tells of an entry, and the bytes it holds: the contents of a file, or the target of a
link. -/
structure Inode where
  mode : ℕ
  uid : ℕ
  gid : ℕ
  rdev : ℕ
  bytes : List UInt8
  deriving DecidableEq, Repr

/-- `S_IFMT` -/
def fileType (mode : ℕ) : ℕ := mode &&& 0xf000

/-- `S_ISDIR`, `S_ISLNK`, `S_ISREG` -/
def Inode.isDir (i : Inode) : Bool := fileType i.mode = 0x4000
def Inode.isLink (i : Inode) : Bool := fileType i.mode = 0xa000
def Inode.isFile (i : Inode) : Bool := fileType i.mode = 0x8000

abbrev Name := List UInt8

/-- The names on the way from the root of a tree. -/
abbrev Path := List Name

/-- What `readdir` returns: the directory itself, the one above it, or an entry. -/
inductive Dirent
  | self
  | above
  | entry (name : Name)
  deriving DecidableEq, Repr

def Dirent.name? : Dirent → Option Name
  | .entry name => some name
  | _ => none

/-- A tree as the kernel shows it. A directory is listed in an order of its own, each entry once. -/
structure Tree where
  lstat : Path → Option Inode
  readdir : Path → List Dirent
  root : (lstat []).isSome
  nodup : ∀ p, (readdir p).Nodup
  listed : ∀ p name, .entry name ∈ readdir p ↔ (lstat (p ++ [name])).isSome
  parent : ∀ p name, (lstat (p ++ [name])).isSome → ∃ i ∈ lstat p, i.isDir

/-- What the loop over a directory does not skip. -/
def Tree.names (t : Tree) (p : Path) : List Name := (t.readdir p).filterMap Dirent.name?

section Tree

variable {t : Tree} {p q : Path} {name : Name}

theorem Tree.mem_names : name ∈ t.names p ↔ (t.lstat (p ++ [name])).isSome := by
  rw [Tree.names, List.mem_filterMap, ← t.listed]
  constructor
  · rintro ⟨d, hd, hname⟩
    cases d with
    | entry n =>
      cases hname
      exact hd
    | self => cases hname
    | above => cases hname
  · intro h
    exact ⟨_, h, rfl⟩

theorem Tree.nodup_names (t : Tree) (p : Path) : (t.names p).Nodup := by
  refine (t.nodup p).filterMap fun d e name hd he => ?_
  cases d with
  | entry n =>
    cases e with
    | entry m =>
      cases hd
      cases he
      rfl
    | self => cases he
    | above => cases he
  | self => cases hd
  | above => cases hd

/-- Nothing lies behind what does not exist. -/
theorem Tree.lstat_append_none (h : t.lstat p = none) (q : Path) : t.lstat (p ++ q) = none := by
  induction q using List.reverseRecOn with
  | nil => rwa [List.append_nil]
  | append_singleton q name ih =>
    by_contra hne
    rw [← List.append_assoc] at hne
    obtain ⟨i, hi, -⟩ := t.parent (p ++ q) name (Option.isSome_iff_ne_none.mpr hne)
    rw [ih] at hi
    cases hi

/-- Nothing lies in what is not a directory. -/
theorem Tree.lstat_cons_none {i : Inode} (h : t.lstat p = some i) (hdir : ¬i.isDir) (name : Name)
    (q : Path) : t.lstat (p ++ name :: q) = none := by
  have hchild : t.lstat (p ++ [name]) = none := by
    by_contra hne
    obtain ⟨j, hj, hjdir⟩ := t.parent p name (Option.isSome_iff_ne_none.mpr hne)
    rw [h] at hj
    cases hj
    exact hdir hjdir
  have hbehind := Tree.lstat_append_none hchild q
  rwa [List.append_assoc] at hbehind

end Tree

/-! ### Comparison -/

/-- A buffer of `char u[32768]` -/
def bufferSize : ℕ := 32768

/-- `char p[4096]` -/
def targetSize : ℕ := 4096

/-- The loop over two files that have been opened. -/
def sameContents (a b : List UInt8) : Bool :=
  let u := a.take bufferSize
  let v := b.take bufferSize
  if u ≠ v then false
  else if u = [] then true
  else sameContents (a.drop bufferSize) (b.drop bufferSize)
termination_by a.length
decreasing_by
  rename_i hu
  have ha : a ≠ [] := fun ha => hu (by simp [u, ha])
  have hpos := List.length_pos_iff.mpr ha
  rw [List.length_drop, bufferSize]
  omega

/-- Links, each read into a buffer that must not be full. -/
def sameTargets (a b : List UInt8) : Bool :=
  let p := a.take targetSize
  let q := b.take targetSize
  q.length = p.length ∧ p.length ≠ targetSize ∧ p = q

/-- `compare`, with the number of levels that are left to go down; where none is left `depth > 64`
holds. Both paths have the same names behind their roots. -/
def compareFrom (a b : Tree) : ℕ → Path → Bool
  | 0, _ => false
  | left + 1, p =>
    match a.lstat p, b.lstat p with
    | some x, some y =>
      if x.mode ≠ y.mode ∨ x.uid ≠ y.uid ∨ x.gid ≠ y.gid then false
      else if x.isDir then
        (a.names p).all (fun name => compareFrom a b left (p ++ [name])) &&
          (a.names p).length == (b.names p).length
      else if x.isLink then sameTargets x.bytes y.bytes
      else if x.isFile then x.bytes.length == y.bytes.length && sameContents x.bytes y.bytes
      else x.rdev == y.rdev
    | _, _ => false

/-- `compare` as `main` calls it, with the depth `0`; `true` stands for the result `0`. -/
def compare (a b : Tree) : Bool := compareFrom a b 65 []

/-! ### What is the same -/

/-- What matters of an entry besides its mode and its owners. -/
inductive Content
  | directory
  | link (target : List UInt8)
  | file (contents : List UInt8)
  | device (rdev : ℕ)
  deriving DecidableEq, Repr

def Inode.content (i : Inode) : Content :=
  if i.isDir then .directory
  else if i.isLink then .link i.bytes
  else if i.isFile then .file i.bytes
  else .device i.rdev

/-- The mode, which includes the type, the owners and the content. -/
def Inode.shown (i : Inode) : ℕ × ℕ × ℕ × Content := (i.mode, i.uid, i.gid, i.content)

def Tree.shown (t : Tree) (p : Path) : Option (ℕ × ℕ × ℕ × Content) := (t.lstat p).map Inode.shown

theorem eq_nil_of_take {l : List UInt8} {n : ℕ} (hn : 0 < n) (h : l.take n = []) : l = [] := by
  rcases List.take_eq_nil_iff.mp h with hzero | hl
  · omega
  · exact hl

/-- The loop compares the files to their ends. -/
theorem sameContents_iff (a b : List UInt8) : sameContents a b ↔ a = b := by
  induction a, b using sameContents.induct with
  | case1 a b u v h =>
    rw [sameContents, if_pos h]
    refine iff_of_false Bool.false_ne_true fun heq => h ?_
    simp only [u, v, heq]
  | case2 a b u v h hu =>
    rw [sameContents, if_neg h, if_pos hu]
    have hv : v = [] := (not_not.mp h) ▸ hu
    have ha : a = [] := eq_nil_of_take (by decide) hu
    have hb : b = [] := eq_nil_of_take (by decide) hv
    exact iff_of_true rfl (ha.trans hb.symm)
  | case3 a b u v h hu ih =>
    rw [sameContents, if_neg h, if_neg hu, ih]
    constructor
    · intro hrest
      calc a = u ++ a.drop bufferSize := (List.take_append_drop bufferSize a).symm
        _ = v ++ b.drop bufferSize := by rw [not_not.mp h, hrest]
        _ = b := List.take_append_drop bufferSize b
    · intro heq
      rw [heq]

/-- A link is read completely if it is shorter than the buffer. -/
theorem sameTargets_iff (a b : List UInt8) :
    sameTargets a b ↔ a = b ∧ a.length < targetSize := by
  simp only [sameTargets, Bool.decide_and, Bool.and_eq_true, decide_eq_true_eq, List.length_take]
  constructor
  · rintro ⟨hlen, hfull, hsame⟩
    have ha : a.length < targetSize := by omega
    have hb : b.length < targetSize := by omega
    rw [List.take_of_length_le (Nat.le_of_lt ha), List.take_of_length_le (Nat.le_of_lt hb)] at hsame
    exact ⟨hsame, ha⟩
  · rintro ⟨rfl, ha⟩
    exact ⟨rfl, by omega, rfl⟩

/-- Two entries for which `compare` goes no deeper. -/
def sameEntry (x y : Inode) : Bool :=
  if x.isLink then sameTargets x.bytes y.bytes
  else if x.isFile then x.bytes.length == y.bytes.length && sameContents x.bytes y.bytes
  else x.rdev == y.rdev

theorem content_of_mode {x y : Inode} (h : x.mode = y.mode) :
    y.content = if x.isDir then .directory else if x.isLink then .link y.bytes
      else if x.isFile then .file y.bytes else .device y.rdev := by
  have hdir : x.isDir = y.isDir := by rw [Inode.isDir, Inode.isDir, h]
  have hlink : x.isLink = y.isLink := by rw [Inode.isLink, Inode.isLink, h]
  have hfile : x.isFile = y.isFile := by rw [Inode.isFile, Inode.isFile, h]
  rw [Inode.content, hdir, hlink, hfile]

theorem sameEntry_iff {x y : Inode} (h : x.mode = y.mode) (hdir : ¬x.isDir) :
    sameEntry x y ↔ x.content = y.content ∧ (x.isLink → x.bytes.length < targetSize) := by
  rw [content_of_mode h, Inode.content, if_neg hdir, if_neg hdir, sameEntry]
  by_cases hlink : x.isLink
  · simp only [if_pos hlink, sameTargets_iff, Content.link.injEq]
    simp [hlink]
  · simp only [if_neg hlink]
    by_cases hfile : x.isFile
    · simp only [if_pos hfile, Bool.and_eq_true, beq_iff_eq, sameContents_iff, Content.file.injEq]
      constructor
      · rintro ⟨-, heq⟩
        exact ⟨heq, fun hl => absurd hl hlink⟩
      · rintro ⟨heq, -⟩
        exact ⟨congrArg List.length heq, heq⟩
    · simp [hlink, hfile]

/-- The trees are the same from a position on. -/
def SameBelow (a b : Tree) (p : Path) : Prop := ∀ q, a.shown (p ++ q) = b.shown (p ++ q)

/-- What `compare` can walk from a position on: not more levels than are left, and no link that fills
the buffer. -/
def Walkable (t : Tree) (left : ℕ) (p : Path) : Prop :=
  ∀ q, ∀ i ∈ t.lstat (p ++ q), q.length < left ∧ (i.isLink → i.bytes.length < targetSize)

section Compare

variable {a b : Tree} {p : Path}

theorem sameBelow_iff : SameBelow a b p ↔ a.shown p = b.shown p ∧ ∀ name, SameBelow a b (p ++ [name]) := by
  constructor
  · intro h
    refine ⟨?_, fun name q => ?_⟩
    · have hroot := h []
      rwa [List.append_nil] at hroot
    · rw [List.append_assoc]
      exact h _
  · rintro ⟨hroot, hbelow⟩ q
    cases q with
    | nil => rwa [List.append_nil]
    | cons name q =>
      have hq := hbelow name q
      rwa [List.append_assoc] at hq

theorem walkable_succ_iff {left : ℕ} {x : Inode} (hx : a.lstat p = some x) :
    Walkable a (left + 1) p ↔
      (x.isLink → x.bytes.length < targetSize) ∧ ∀ name, Walkable a left (p ++ [name]) := by
  constructor
  · intro h
    refine ⟨?_, fun name q i hi => ?_⟩
    · exact (h [] x (by rwa [List.append_nil])).2
    · rw [List.append_assoc] at hi
      obtain ⟨hlen, hlink⟩ := h _ i hi
      rw [List.length_append, List.length_singleton] at hlen
      exact ⟨by omega, hlink⟩
  · rintro ⟨hroot, hbelow⟩ q i hi
    cases q with
    | nil =>
      rw [List.append_nil, hx] at hi
      cases hi
      exact ⟨Nat.succ_pos left, hroot⟩
    | cons name q =>
      have hq := hbelow name q i (by rwa [List.append_assoc])
      rw [List.length_cons]
      exact ⟨by omega, hq.2⟩

/-- Where nothing is, nothing stands in the way. -/
theorem sameBelow_of_none (ha : a.lstat p = none) (hb : b.lstat p = none) : SameBelow a b p := by
  intro q
  rw [Tree.shown, Tree.shown, Tree.lstat_append_none ha, Tree.lstat_append_none hb]

theorem walkable_of_none (ha : a.lstat p = none) (left : ℕ) : Walkable a left p := by
  intro q i hi
  rw [Tree.lstat_append_none ha] at hi
  cases hi

theorem isSome_of_sameBelow (h : SameBelow a b p) : (a.lstat p).isSome = (b.lstat p).isSome := by
  have hroot := congrArg Option.isSome (sameBelow_iff.mp h).1
  simpa [Tree.shown] using hroot

/-- All that is listed on one side is on the other, and both list equally much: then neither side has
anything more. -/
theorem names_subset_iff (h : ∀ name ∈ a.names p, SameBelow a b (p ++ [name])) :
    (a.names p).length = (b.names p).length ↔ ∀ name, name ∈ b.names p → name ∈ a.names p := by
  have hsub : a.names p ⊆ b.names p := by
    intro name hname
    rw [Tree.mem_names, ← isSome_of_sameBelow (h name hname), ← Tree.mem_names]
    exact hname
  have hperm := (a.nodup_names p).subperm hsub
  constructor
  · intro hlen name hname
    exact (hperm.perm_of_length_le (Nat.le_of_eq hlen.symm)).mem_iff.mpr hname
  · intro hsup
    exact Nat.le_antisymm hperm.length_le ((b.nodup_names p).subperm hsup).length_le

/-- The loop over a directory and the count behind it, with what they find of each entry. -/
theorem directory_iff {left : ℕ} (h : ∀ name ∈ a.names p,
    (compareFrom a b left (p ++ [name]) ↔
      SameBelow a b (p ++ [name]) ∧ Walkable a left (p ++ [name]))) :
    ((a.names p).all (fun name => compareFrom a b left (p ++ [name])) &&
        (a.names p).length == (b.names p).length) = true ↔
      (∀ name, SameBelow a b (p ++ [name])) ∧ ∀ name, Walkable a left (p ++ [name]) := by
  have hnone : ∀ {t : Tree} {name}, name ∉ t.names p → t.lstat (p ++ [name]) = none := by
    intro t name hname
    rw [Tree.mem_names, Option.not_isSome_iff_eq_none] at hname
    exact hname
  simp only [Bool.and_eq_true, List.all_eq_true, beq_iff_eq]
  constructor
  · rintro ⟨hall, hlen⟩
    have hlisted : ∀ name ∈ a.names p, SameBelow a b (p ++ [name]) := fun name hname =>
      ((h name hname).mp (hall name hname)).1
    have hback := (names_subset_iff hlisted).mp hlen
    refine ⟨fun name => ?_, fun name => ?_⟩
    · by_cases hname : name ∈ a.names p
      · exact hlisted name hname
      · exact sameBelow_of_none (hnone hname) (hnone fun hb => hname (hback name hb))
    · by_cases hname : name ∈ a.names p
      · exact ((h name hname).mp (hall name hname)).2
      · exact walkable_of_none (hnone hname) left
  · rintro ⟨hsame, hwalk⟩
    refine ⟨fun name hname => (h name hname).mpr ⟨hsame name, hwalk name⟩, ?_⟩
    refine (names_subset_iff fun name _ => hsame name).mpr fun name hname => ?_
    rw [Tree.mem_names] at hname ⊢
    rwa [isSome_of_sameBelow (hsame name)]

/-- Behind an entry that is no directory there is nothing. -/
theorem below_of_not_dir {x y : Inode} (hx : a.lstat p = some x) (hy : b.lstat p = some y)
    (hxdir : ¬x.isDir) (hydir : ¬y.isDir) (left : ℕ) :
    (∀ name, SameBelow a b (p ++ [name])) ∧ ∀ name, Walkable a left (p ++ [name]) := by
  have hnone : ∀ name, a.lstat (p ++ [name]) = none := fun name =>
    Tree.lstat_cons_none hx hxdir name []
  exact ⟨fun name => sameBelow_of_none (hnone name) (Tree.lstat_cons_none hy hydir name []),
    fun name => walkable_of_none (hnone name) left⟩

end Compare

theorem not_link_of_dir {x : Inode} (h : x.isDir) : ¬x.isLink := by
  intro hlink
  simp only [Inode.isDir, Inode.isLink, decide_eq_true_eq] at h hlink
  omega

theorem shown_iff {x y : Inode} :
    x.shown = y.shown ↔ ¬(x.mode ≠ y.mode ∨ x.uid ≠ y.uid ∨ x.gid ≠ y.gid) ∧ x.content = y.content := by
  simp [Inode.shown, and_assoc]

/-- `compare` finds no difference below an entry exactly when there is none and it can walk that far. -/
theorem compareFrom_iff {a b : Tree} {left : ℕ} {p : Path} (h : (a.lstat p).isSome) :
    compareFrom a b left p ↔ SameBelow a b p ∧ Walkable a left p := by
  induction left generalizing p with
  | zero =>
    obtain ⟨x, hx⟩ := Option.isSome_iff_exists.mp h
    refine iff_of_false Bool.false_ne_true fun hboth => ?_
    have hzero := (hboth.2 [] x (by rwa [List.append_nil])).1
    exact Nat.not_lt_zero _ hzero
  | succ left ih =>
    obtain ⟨x, hx⟩ := Option.isSome_iff_exists.mp h
    rw [compareFrom, hx, walkable_succ_iff hx, sameBelow_iff, Tree.shown, Tree.shown, hx]
    cases hy : b.lstat p with
    | none => simp
    | some y =>
      simp only [Option.map_some, Option.some.injEq, shown_iff]
      by_cases hmeta : x.mode ≠ y.mode ∨ x.uid ≠ y.uid ∨ x.gid ≠ y.gid
      · rw [if_pos hmeta]
        exact iff_of_false Bool.false_ne_true fun hboth => hboth.1.1.1 hmeta
      · rw [if_neg hmeta]
        have hmode : x.mode = y.mode := by
          by_contra hne
          exact hmeta (.inl hne)
        by_cases hdir : x.isDir
        · have hcontent : x.content = y.content := by
            rw [content_of_mode hmode, Inode.content, if_pos hdir, if_pos hdir]
          rw [if_pos hdir, directory_iff fun name hname => ih (Tree.mem_names.mp hname)]
          constructor
          · rintro ⟨hsame, hwalk⟩
            exact ⟨⟨⟨hmeta, hcontent⟩, hsame⟩, fun hl => absurd hl (not_link_of_dir hdir), hwalk⟩
          · rintro ⟨⟨-, hsame⟩, -, hwalk⟩
            exact ⟨hsame, hwalk⟩
        · rw [if_neg hdir]
          show sameEntry x y = true ↔ _
          rw [sameEntry_iff hmode hdir]
          have hydir : ¬y.isDir := by rwa [Inode.isDir, ← hmode]
          obtain ⟨hsame, hwalk⟩ := below_of_not_dir hx hy hdir hydir left
          constructor
          · rintro ⟨hcontent, hlink⟩
            exact ⟨⟨⟨hmeta, hcontent⟩, hsame⟩, hlink, hwalk⟩
          · rintro ⟨⟨⟨-, hcontent⟩, -⟩, hlink, -⟩
            exact ⟨hcontent, hlink⟩

/-- For every pair of trees: `compare` returns `0` exactly when they are the same at every position,
nothing in them lies deeper than sixty-four levels and no link fills the buffer. -/
theorem compare_iff (a b : Tree) :
    compare a b ↔ (∀ p, a.shown p = b.shown p) ∧ Walkable a 65 [] :=
  compareFrom_iff a.root

/-- Two trees, not too deep and with targets that fit, are verified exactly when they have the same
entries at every position. -/
theorem compare_complete {a b : Tree} (hdepth : ∀ p, (a.lstat p).isSome → p.length ≤ 64)
    (hlinks : ∀ p, ∀ i ∈ a.lstat p, i.isLink → i.bytes.length < targetSize) :
    compare a b ↔ ∀ p, a.shown p = b.shown p := by
  rw [compare_iff, and_iff_left]
  intro q i hi
  rw [List.nil_append] at hi
  exact ⟨Nat.lt_succ_of_le (hdepth q (Option.isSome_of_mem hi)), hlinks q i hi⟩

/-- A directory that holds no directory. -/
def Tree.flat (files : List (Name × Inode)) (h : (files.map Prod.fst).Nodup) : Tree where
  lstat
    | [] => some ⟨0x41c0, 0, 0, 0, []⟩
    | [name] => files.lookup name
    | _ => none
  readdir
    | [] => .self :: .above :: files.map fun f => .entry f.1
    | _ => []
  root := rfl
  nodup := by
    intro p
    cases p with
    | nil =>
      have hentries : (files.map fun f => Dirent.entry f.1).Nodup := by
        have hmap : files.map (fun f => Dirent.entry f.1) = (files.map Prod.fst).map .entry := by
          rw [List.map_map]
          rfl
        rw [hmap]
        exact h.map fun _ _ heq => Dirent.entry.inj heq
      simp [hentries]
    | cons name p => exact List.nodup_nil
  listed := by
    intro p name
    cases p with
    | nil => simp [List.lookup_isSome_iff]
    | cons first p => cases p <;> simp
  parent := by
    intro p name hname
    cases p with
    | nil => exact ⟨_, rfl, rfl⟩
    | cons first p => cases p <;> cases hname

def exampleFile : Name × Inode := ([97], ⟨0x8180, 0, 0, 0, [1, 2]⟩)

def exampleLink : Name × Inode := ([98], ⟨0xa1ff, 0, 0, 0, [97]⟩)

def original : Tree := .flat [exampleFile, exampleLink] (by decide)

def reordered : Tree := .flat [exampleLink, exampleFile] (by decide)

theorem lookup_original (name : Name) :
    original.lstat [name] =
      if name = [97] then some exampleFile.2 else if name = [98] then some exampleLink.2 else none := by
  simp only [original, Tree.flat, exampleFile, exampleLink, List.lookup_cons, List.lookup_nil]
  by_cases ha : name = [97]
  · simp [ha]
  · by_cases hb : name = [98]
    · simp [hb]
    · simp [ha, hb, beq_false_of_ne ha, beq_false_of_ne hb]

theorem lookup_reordered (name : Name) : reordered.lstat [name] = original.lstat [name] := by
  rw [lookup_original]
  simp only [reordered, Tree.flat, exampleFile, exampleLink, List.lookup_cons, List.lookup_nil]
  by_cases ha : name = [97]
  · simp [ha]
  · by_cases hb : name = [98]
    · simp [hb]
    · simp [ha, hb, beq_false_of_ne ha, beq_false_of_ne hb]

/-- The order of the entries does not matter. -/
theorem compare_reordered : compare original reordered := by
  refine (compare_complete (fun p hp => ?_) fun p i hi _ => ?_).mpr fun p => ?_
  · rcases p with _ | ⟨name, _ | ⟨second, p⟩⟩
    · decide
    · simp
    · cases hp
  · rcases p with _ | ⟨name, _ | ⟨second, p⟩⟩
    · cases hi
      decide
    · rw [lookup_original] at hi
      split at hi
      · cases hi
        decide
      · split at hi
        · cases hi
          decide
        · cases hi
    · cases hi
  · rcases p with _ | ⟨name, _ | ⟨second, p⟩⟩
    · rfl
    · rw [Tree.shown, Tree.shown, lookup_reordered]
    · rfl

end ForgeOS.Boot.VerifyTree
