import Mathlib.Data.String.Basic
import Mathlib.Data.List.Sort
import ForgeOS.Python.Dict
import ForgeOS.Python.Text

/-! Files, directories and archives as the image builder sees them. A directory
is a list of entries with distinct, well-formed names; an extraction folder is a
tree of files by relative path. The bytes of a file stay abstract: a `FileView`
says what the code can find out about them, namely the size, the first bytes,
the members when they are an archive, and what `lz4` makes of them. -/

namespace ForgeOS.Image

open ForgeOS.Python

/-- A name of a directory entry. -/
abbrev FileName := {s : String // IsFileName s}

instance : LawfulBEq FileName := inferInstance

def fileName (s : String) (h : IsFileName s := by decide) : FileName := ⟨s, h⟩

def toFileName? (s : String) : Option FileName := if h : IsFileName s then some ⟨s, h⟩ else none

inductive Entry (β : Type*)
  | file (c : β)
  | folder
  deriving DecidableEq, Repr

structure Dir (β : Type*) where
  entries : List (FileName × Entry β)
  nodup : (entries.map Prod.fst).Nodup

/-- The files of an extraction folder by their path in it. -/
structure Tree (β : Type*) where
  entries : List (List FileName × β)
  nodup : (entries.map Prod.fst).Nodup

/-- A member of an archive. `bytes` is `none` when reading it raises. -/
structure Member (β : Type*) where
  name : String
  isFile : Bool := true
  bytes : Option β
  deriving DecidableEq, Repr

inductive ZipListing (β : Type*)
  | members (ms : List (Member β))
  | badZip
  | fails (error : String)

structure FileView (β : Type*) where
  size : β → ℕ
  /-- The first 256 bytes. -/
  head : β → List UInt8
  zip : β → ZipListing β
  /-- `none` when the bytes are no tar archive. -/
  tar : β → Option (List (Member β))
  lz4 : β → Option β
  text : String → β
  /-- A directory lists its names by this rank. -/
  rank : FileName → ℕ
  rank_injective : Function.Injective rank
  lower : String → String
  /-- Extracting a member that is no readable file with a relative name, with or without the
  flat copy, and whether that raised. It differs between versions of Python. -/
  oddFlat : Member β → Tree β → Tree β × Bool
  oddNested : Member β → Tree β → Tree β × Bool

variable {β : Type*}

def Dir.lookup (d : Dir β) (n : FileName) : Option (Entry β) := dictGet d.entries n

def Dir.file? (d : Dir β) (n : FileName) : Option β :=
  match d.lookup n with
  | some (.file c) => some c
  | _ => none

/-- The plain files of a directory in listing order. -/
def Dir.files (v : FileView β) (d : Dir β) : List (FileName × β) :=
  (d.entries.filterMap fun e => match e.2 with
    | .file c => some (e.1, c)
    | .folder => none).insertionSort fun a b => v.rank a.1 ≤ v.rank b.1

/-- The entries that match a pattern, sorted by name. -/
def Dir.sortedGlob (d : Dir β) (pattern : String) : List (FileName × Entry β) :=
  (d.entries.filter fun e => fnmatch e.1.val pattern).insertionSort
    fun a b => a.1.val.toList ≤ b.1.val.toList

/-- Add a file under a name that is not there yet. -/
def Dir.add (d : Dir β) (n : FileName) (c : β) : Dir β :=
  if h : n ∈ d.entries.map Prod.fst then d
  else
    { entries := d.entries ++ [(n, .file c)]
      nodup := by
        rw [List.map_append, List.nodup_append]
        refine ⟨d.nodup, by simp, fun a ha b hb => ?_⟩
        rintro rfl
        simp only [List.map_cons, List.map_nil, List.mem_singleton] at hb
        exact h (hb ▸ ha) }

def Tree.empty : Tree β := ⟨[], List.nodup_nil⟩

def Tree.lookup (t : Tree β) (path : List FileName) : Option β := dictGet t.entries path

def Tree.write (t : Tree β) (path : List FileName) (c : β) : Tree β :=
  ⟨dictSet t.entries path c, nodup_dictSet t.nodup path c⟩

/-- The files directly in an extraction folder, in listing order. -/
def Tree.files (v : FileView β) (t : Tree β) : List (FileName × β) :=
  (t.entries.filterMap fun e => match e.1 with
    | [n] => some (n, e.2)
    | _ => none).insertionSort fun a b => v.rank a.1 ≤ v.rank b.1

/-- The place of a member in an extraction folder, for a relative name without `..`. -/
def memberPath (name : String) : Option (List FileName) :=
  if root name.toList = [] ∧ parts name ≠ [] then
    (parts name).mapM fun cs => toFileName? (String.ofList cs)
  else none

/-- A member that every version of Python extracts to its own place. -/
def Member.place (m : Member β) : Option (List FileName × β) :=
  if m.isFile then
    match memberPath m.name, m.bytes with
    | some path, some c => some (path, c)
    | _, _ => none
  else none

/-- A number with digits below the base is determined by its digits. -/
theorem digit_unique {base a b x y : ℕ} (hx : x < base) (hy : y < base)
    (h : a * base + x = b * base + y) : a = b ∧ x = y := by
  have hmod := congrArg (· % base) h
  simp only [Nat.mul_add_mod_self_right, Nat.mod_eq_of_lt hx, Nat.mod_eq_of_lt hy] at hmod
  subst hmod
  exact ⟨Nat.eq_of_mul_eq_mul_right (Nat.zero_lt_of_lt hx) (Nat.add_right_cancel h), rfl⟩

/-- Characters as the digits of a number, the first one lowest. -/
def codeIn (base : ℕ) : List Char → ℕ
  | [] => 0
  | c :: cs => codeIn base cs * base + (c.toNat + 1)

theorem codeIn_injective {base : ℕ} (hbase : ∀ c : Char, c.toNat + 1 < base) :
    Function.Injective (codeIn base) := by
  intro cs
  induction cs with
  | nil =>
    intro ds h
    cases ds with
    | nil => rfl
    | cons d ds => simp [codeIn] at h
  | cons c cs ih =>
    intro ds h
    cases ds with
    | nil => simp [codeIn] at h
    | cons d ds =>
      obtain ⟨hcode, hdigit⟩ := digit_unique (hbase c) (hbase d) h
      rw [ih hcode, Char.toNat_inj.mp (Nat.succ.inj hdigit)]

/-- A rank that tells all names apart. -/
def nameRank (n : FileName) : ℕ := codeIn (2 ^ 32 + 1) n.val.toList

theorem nameRank_injective : Function.Injective nameRank := fun _ _ h =>
  Subtype.ext (String.toList_inj.mp
    (codeIn_injective (fun c => Nat.succ_lt_succ c.val.toNat_lt) h))

/-! ### Plausible images -/

def minImageBytes : ℕ := 1024 * 1024

/-- `bytes.lower` on one byte. -/
def lowerByte (b : UInt8) : UInt8 := if 65 ≤ b ∧ b ≤ 90 then b + 32 else b

def bytesOf (s : String) : List UInt8 := s.toList.map fun c => UInt8.ofNat c.toNat

/-- `_is_plausible_image` for a file that can be read. -/
def isPlausibleImage (v : FileView β) (c : β) : Bool :=
  if v.size c < minImageBytes then false
  else
    let lowered := (v.head c).map lowerByte
    !(["mock content", "simulated firmware content", "placeholder"].any fun text =>
      decide (bytesOf text <:+: lowered))

example : memberPath "img/./boot.img" = some [fileName "img", fileName "boot.img"] ∧
    memberPath "/boot.img" = none ∧ memberPath "../boot.img" = none := by decide

end ForgeOS.Image
