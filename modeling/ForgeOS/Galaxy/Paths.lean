import Mathlib.Data.List.Infix

/-! Paths of a workspace: which names are shown, and the file that a workspace-relative path is. -/

namespace ForgeOS.Galaxy

/-- A file by the names on the way to it from the root of the file system. -/
abbrev File := List String

/-- Where a directory really is, and which of the entries are symbolic links. -/
structure Disk where
  realpath : String → File
  isSymbolicLink : File → Bool

/-- `excluded` -/
def excluded : List String := ["node_modules", "dist", "build", "target", "__pycache__", "vendor"]

/-- The texts that a name may not begin with, if it ends there or a dot follows. -/
def credentialNames : List String := ["credentials", "secret", "secrets", "auth", "pairing-code"]

def keySuffixes : List String := [".pem", ".key", ".p12", ".pfx"]

def visible (name : String) : Bool :=
  let lower := name.toList.map Char.toLower
  !(['.'].isPrefixOf name.toList) && !excluded.contains name &&
    !credentialNames.any (fun w => w.toList == lower || (w.toList ++ ['.']).isPrefixOf lower) &&
    !keySuffixes.any fun w => w.toList.isSuffixOf lower

/-- `input.split("/")` -/
def splitSlash (input : String) : List String := (input.toList.splitOn '/').map String.ofList

/-- `safePath`. As no part begins with a dot, the target is never outside `root`. -/
def safePath (disk : Disk) (root input : String) : Except String File :=
  if ['/'].isPrefixOf input.toList || input.toList.contains '\x00' || input.toList.contains '\\' ||
      (splitSlash input).any (fun p => p == ".." || (p != "" && !visible p)) then
    .error "This path is not available in the workspace."
  else
    let parts := (splitSlash input).filter (· != "")
    if parts.inits.tail.any fun p => disk.isSymbolicLink (disk.realpath root ++ p) then
      .error "Symbolic links are not included in this pilot."
    else .ok (disk.realpath root ++ parts)

example : visible "Secrets.txt" = false ∧ visible "Secretary.txt" = true := by decide

/-- A path that is let through is in the workspace, and all of it is shown. -/
theorem safePath_inside {disk : Disk} {root input : String} {file : File}
    (h : safePath disk root input = .ok file) :
    ∃ parts, file = disk.realpath root ++ parts ∧ ∀ p ∈ parts, visible p := by
  unfold safePath at h
  split at h
  · cases h
  · next hinput =>
    dsimp only at h
    split at h
    · cases h
    · cases h
      refine ⟨_, rfl, fun p hp => ?_⟩
      obtain ⟨hmem, hne⟩ := List.mem_filter.mp hp
      simp only [Bool.or_eq_true, List.any_eq_true, not_or, not_exists, not_and] at hinput
      have hpart := hinput.2 p hmem
      simp only [beq_iff_eq, Bool.and_eq_true, Bool.not_eq_eq_eq_not, Bool.not_true] at hpart
      by_contra hv
      exact hpart.2 ⟨hne, by simpa using hv⟩

end ForgeOS.Galaxy
