import Mathlib.Algebra.GroupWithZero.Nat
import Mathlib.Data.Int.Notation
import Mathlib.Data.Nat.Notation

/-! What the server reads from a request: values of a parsed JSON text and the checks that every
route makes of them. -/

namespace ForgeOS.Galaxy

/-- A JavaScript value, as far as the server looks at it. -/
inductive Js
  | undefined
  | null
  | bool (b : Bool)
  | integer (n : ℤ)
  | fraction
  | string (s : String)
  | object
  deriving DecidableEq, Repr

def Js.truthy : Js → Bool
  | .undefined | .null => false
  | .bool b => b
  | .integer n => n != 0
  | .string s => s != ""
  | .fraction | .object => true

/-- `length` counts UTF-16 code units. -/
def utf16Length (s : String) : ℕ :=
  (s.toList.map fun c => if c.toNat < 0x10000 then 1 else 2).sum

/-- What `trim` takes away at both ends. -/
def isWhiteSpace (c : Char) : Bool :=
  let n := c.toNat
  (9 ≤ n && n ≤ 13) || n == 0x20 || n == 0xa0 || n == 0x1680 || (0x2000 ≤ n && n ≤ 0x200a) ||
    n == 0x2028 || n == 0x2029 || n == 0x202f || n == 0x205f || n == 0x3000 || n == 0xfeff

def trim (s : String) : String :=
  String.ofList ((s.toList.dropWhile isWhiteSpace).reverse.dropWhile isWhiteSpace).reverse

/-- `string` of `main.ts` -/
def string (value : Js) (max : ℕ) : Except String String :=
  match value with
  | .string s =>
    if trim s = "" ∨ max < utf16Length s then
      .error "A required field is missing or too long."
    else .ok (trim s)
  | _ => .error "A required field is missing or too long."

/-- `max = 16_000` -/
def defaultLength : ℕ := 16000

/-- The first of the texts that is not empty, `a || b || c`. -/
def firstText (texts : List (Option String)) (otherwise : String) : String :=
  ((texts.filterMap id).find? (· ≠ "")).getD otherwise

end ForgeOS.Galaxy
