import ForgeOS.Native.Scalars

/-! The JSON reader of the native bridge, `jvalue` and `jparse`. It fills a table of tokens, one
for each value, that say where in the text a value stands and where the values behind it
begin. The reader holds the text that is left; its position is how much of the text is gone. -/

namespace ForgeOS.Native

/-! ### The reader -/

/-- An offset as it is stored, in an `int` of 32 bits. -/
def cint (n : ℕ) : ℤ := Int.bmod n (2 ^ 32)

structure JsonToken where
  start : ℤ
  /-- `end` -/
  stop : ℤ
  next : ℕ
  kind : UInt8
  deriving DecidableEq, Repr

structure Json where
  length : ℕ
  /-- `s + pos` -/
  rest : Bytes
  t : List JsonToken
  deriving DecidableEq, Repr

namespace Json

def pos (j : Json) : ℕ := j.length - j.rest.length

def count (j : Json) : ℕ := j.t.length

end Json

def maxTokens : ℕ := 512

def maxDepth : ℕ := 24

def jspace (j : Json) : Json := { j with rest := j.rest.dropWhile (strchr blanks) }

def opening (object : Bool) : UInt8 := if object then 123 else 91

def closing (object : Bool) : UInt8 := if object then 125 else 93

section Entries

variable (value : Json → Option (ℕ × Json))

/-- A key and the colon behind it, in an object. -/
def key (object : Bool) (j : Json) : Option Json :=
  if object then do
    let j := jspace j
    if j.rest.head? = some 34 then
      let (_, j) ← value j
      let j := jspace j
      match j.rest with
      | 58 :: rest => some { j with rest }
      | _ => none
    else none
  else some j

/-- The loop over the entries of an object or an array, up to the closing bracket. -/
def entries (object : Bool) : ℕ → Json → Option Json
  | 0, _ => none
  | rounds + 1, j => do
    let j ← key value object j
    let (_, j) ← value j
    let j := jspace j
    match j.rest with
    | [] => none
    | c :: rest =>
      if c = closing object then some { j with rest }
      else if c = 44 then entries object rounds { j with rest }
      else none

/-- Behind the opening bracket. A round takes at least a byte, so there are no more rounds than
bytes in the text. -/
def contents (object : Bool) (j : Json) : Option Json :=
  let j := jspace j
  if j.rest.head? = some (closing object) then some { j with rest := j.rest.tail }
  else entries value object (j.length + 1) j

/-- Behind the first byte of a value, up to its end. -/
def inside (kind : UInt8) (j : Json) : Option Json :=
  if kind = 34 then (skipString j.rest).map fun rest => { j with rest }
  else if kind = opening true then contents value true j
  else if kind = opening false then contents value false j
  else (skipPlain (kind :: j.rest)).map fun rest => { j with rest }

end Entries

/-- The reader inside a value, whose token is not complete yet. -/
def Json.opened (j : Json) (kind : UInt8) (rest : Bytes) : Json :=
  { j with rest, t := j.t ++ [{ start := cint j.pos, stop := 0, next := 0, kind }] }

/-- The end of a value, and the number of the value behind it. -/
def close (index : ℕ) (j : Json) : Json :=
  { j with t := j.t.modify index fun token => { token with stop := cint j.pos, next := j.count } }

/-- `jvalue`, with `room` for so many levels from this one on. -/
def jvalue : ℕ → Json → Option (ℕ × Json)
  | 0, _ => none
  | room + 1, j =>
    let j := jspace j
    if maxTokens ≤ j.count then none
    else
      match j.rest with
      | [] => none
      | kind :: rest =>
        (inside (jvalue room) kind (j.opened kind rest)).map fun j' => (j.count, close j.count j')

/-- `jparse`, with the table of tokens if it returns zero. -/
def jparse (s : Bytes) : Option (List JsonToken) :=
  match jvalue (maxDepth + 1) { length := s.length, rest := s, t := [] } with
  | some (0, j) => if (jspace j).rest = [] then some j.t else none
  | _ => none

end ForgeOS.Native
