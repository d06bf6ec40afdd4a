import ForgeOS.Python.Text

/-! Parts of a URL, as `urllib.parse.urlparse` finds them: leading blanks and all line ends and
tabs are taken off, a scheme ends at the first colon, and the network location stands between
two slashes and the next delimiter. -/

namespace ForgeOS.Python

open ForgeOS.Library.Words

def isLetter (c : Char) : Bool := ('a' ≤ c && c ≤ 'z') || ('A' ≤ c && c ≤ 'Z')

def isSchemeChar (c : Char) : Bool := isLetter c || ('0' ≤ c && c ≤ '9') || c ∈ ['+', '-', '.']

/-- What is read of a URL. -/
def urlChars (url : String) : List Char :=
  (url.toList.dropWhile fun c => c.toNat ≤ 0x20).filter fun c => c ∉ ['\t', '\r', '\n']

/-- What stands behind the scheme, if there is one. -/
def afterScheme (cs : List Char) : List Char :=
  match cs.span (· ≠ ':') with
  | (c :: scheme, _ :: rest) => if isLetter c && scheme.all isSchemeChar then rest else cs
  | _ => cs

/-- `urlparse(url).netloc` -/
def netloc (url : String) : String :=
  match afterScheme (urlChars url) with
  | '/' :: '/' :: rest => String.ofList (rest.takeWhile fun c => c ∉ ['/', '?', '#'])
  | _ => ""

/-- `url.split("/")[-1]` -/
def lastSegment (url : String) : String := (splitChar url '/').getLastD ""

/-- The last segment holds no slash. -/
theorem lastSegment_clean (url : String) : '/' ∉ (lastSegment url).toList := by
  cases hlast : (splitChar url '/').getLast? with
  | none =>
    rw [lastSegment, List.getLastD_eq_getLast?, hlast]
    exact List.not_mem_nil
  | some s =>
    obtain ⟨w, hw, rfl⟩ := List.mem_map.mp (List.mem_of_getLast? hlast)
    rw [lastSegment, List.getLastD_eq_getLast?, hlast, Option.getD_some, String.toList_ofList]
    exact notMem_of_mem_splitOn hw

example : netloc " HTTPS://dl.twrp.me/x/a.img" = "dl.twrp.me" ∧ netloc "//a.b:1?c" = "a.b:1" ∧
    netloc "a.b/c" = "" ∧ lastSegment "https://a.b/c/" = "" := by decide

end ForgeOS.Python
