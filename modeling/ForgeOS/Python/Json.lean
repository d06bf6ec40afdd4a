import Mathlib.Algebra.GroupWithZero.Nat
import Mathlib.Algebra.BigOperators.Group.List.Basic

/-! How long `json.dumps` makes a text or a dictionary, with its default escapes and
separators. -/

namespace ForgeOS.Python

/-- The characters that a character becomes in a JSON text. -/
def jsonCharLength (c : Char) : ℕ :=
  let n := c.toNat
  if n = 0x22 ∨ n = 0x5c ∨ n = 0x08 ∨ n = 0x09 ∨ n = 0x0a ∨ n = 0x0c ∨ n = 0x0d then 2
  else if 0x20 ≤ n ∧ n ≤ 0x7e then 1
  else if n < 0x10000 then 6
  else 12

def jsonTextLength (s : String) : ℕ := 2 + (s.toList.map jsonCharLength).sum

/-- The length of a dictionary, from its keys and the lengths of its values. -/
def jsonDictLength (fields : List (String × ℕ)) : ℕ :=
  2 + (fields.map fun p => jsonTextLength p.1 + 2 + p.2).sum + 2 * (fields.length - 1)

/-- The length of a dictionary of texts. -/
def jsonTextsLength (fields : List (String × String)) : ℕ :=
  jsonDictLength (fields.map fun p => (p.1, jsonTextLength p.2))

example : jsonTextsLength [("a", "b\n"), ("c", "é")] = 27 := by decide

end ForgeOS.Python
