import Mathlib.Data.Rat.Defs
import ForgeOS.Library.Enumerations
import ForgeOS.Python.Dict

/-! The values that a dictionary of the source may hold: what a JSON text may say, and members of an
enumeration. A JSON value is one without members. Writing a JSON value as a text and reading it back
gives the same value, so a file is here the value that its text stands for. -/

namespace ForgeOS.Python

open ForgeOS.Library.Enumerations

inductive Value (μ : Type) where
  | none
  | bool (b : Bool)
  | int (n : ℤ)
  | float (x : ℚ)
  | str (s : String)
  | member (m : μ)
  | list (items : List (Value μ))
  | dict (fields : List (String × Value μ))

/-- What `json.loads` returns. -/
abbrev Json := Value Empty

/-- The exceptions that the modelled code meets. -/
inductive Error where
  | key (k : String) | value | type | attribute | fileNotFound
  deriving DecidableEq, Repr

@[simp] theorem ok_bind {α β : Type} (a : α) (f : α → Except Error β) :
    (Except.ok a >>= f) = f a := rfl

@[simp] theorem error_bind {α β : Type} (e : Error) (f : α → Except Error β) :
    ((Except.error e : Except Error α) >>= f) = .error e := rfl

/-- A computation that succeeds does so at each of its steps. -/
theorem bind_eq_ok {α β : Type} {x : Except Error α} {f : α → Except Error β} {b : β} :
    x >>= f = .ok b ↔ ∃ a, x = .ok a ∧ f a = .ok b := by
  cases x with
  | error e =>
    constructor
    · intro h
      cases h
    · rintro ⟨a, ha, -⟩
      cases ha
  | ok a => simp

namespace Value

variable {μ ν : Type}

/-- `bool(v)`; no member stands for the empty text. -/
def truthy : Value μ → Bool
  | none => false
  | bool b => b
  | int n => n ≠ 0
  | float x => x ≠ 0
  | str s => s ≠ ""
  | member _ => true
  | list items => !items.isEmpty
  | dict fields => !fields.isEmpty

/-- `v or default` -/
def orElse (v default : Value μ) : Value μ := if v.truthy then v else default

/-! ### Members -/

mutual

/-- The same value with other members. -/
def map (f : μ → ν) : Value μ → Value ν
  | none => none
  | bool b => bool b
  | int n => int n
  | float x => float x
  | str s => str s
  | member m => member (f m)
  | list items => list (mapItems f items)
  | dict fields => dict (mapFields f fields)

def mapItems (f : μ → ν) : List (Value μ) → List (Value ν)
  | [] => []
  | v :: items => map f v :: mapItems f items

def mapFields (f : μ → ν) : List (String × Value μ) → List (String × Value ν)
  | [] => []
  | (k, v) :: fields => (k, map f v) :: mapFields f fields

end

/-- A JSON value as a value of the program. -/
def lift : Json → Value μ := map Empty.elim

mutual

/-- `_serialize` on a value: a member becomes its text. -/
def serialize [Enumeration μ] : Value μ → Json
  | none => none
  | bool b => bool b
  | int n => int n
  | float x => float x
  | str s => str s
  | member m => str (value m)
  | list items => list (serializeItems items)
  | dict fields => dict (serializeFields fields)

def serializeItems [Enumeration μ] : List (Value μ) → List Json
  | [] => []
  | v :: items => serialize v :: serializeItems items

def serializeFields [Enumeration μ] : List (String × Value μ) → List (String × Json)
  | [] => []
  | (k, v) :: fields => (k, serialize v) :: serializeFields fields

end

mutual

/-- A value read from a file is written as it was read. -/
@[simp] theorem serialize_lift [Enumeration μ] : (v : Json) → serialize (lift v : Value μ) = v
  | none | bool _ | int _ | float _ | str _ => rfl
  | list items => congrArg list (serializeItems_lift items)
  | dict fields => congrArg dict (serializeFields_lift fields)

theorem serializeItems_lift [Enumeration μ] :
    (items : List Json) → serializeItems (mapItems (Empty.elim : Empty → μ) items) = items
  | [] => rfl
  | v :: items => congrArg₂ _ (serialize_lift v) (serializeItems_lift items)

theorem serializeFields_lift [Enumeration μ] :
    (fields : List (String × Json)) →
      serializeFields (mapFields (Empty.elim : Empty → μ) fields) = fields
  | [] => rfl
  | (k, v) :: fields =>
    congrArg₂ _ (congrArg (Prod.mk k) (serialize_lift v)) (serializeFields_lift fields)

end

mutual

/-- A JSON value is its own serialisation. -/
@[simp] theorem serialize_json : (v : Json) → serialize v = v
  | none | bool _ | int _ | float _ | str _ => rfl
  | list items => congrArg list (serializeItems_json items)
  | dict fields => congrArg dict (serializeFields_json fields)

theorem serializeItems_json : (items : List Json) → serializeItems items = items
  | [] => rfl
  | v :: items => congrArg₂ _ (serialize_json v) (serializeItems_json items)

theorem serializeFields_json : (fields : List (String × Json)) → serializeFields fields = fields
  | [] => rfl
  | (k, v) :: fields =>
    congrArg₂ _ (congrArg (Prod.mk k) (serialize_json v)) (serializeFields_json fields)

end

/-! ### Reading -/

/-- `v[k]`, for a text `k`. -/
def item (v : Json) (k : String) : Except Error Json :=
  match v with
  | dict fields => match dictGet fields k with
    | some v => .ok v
    | .none => .error (.key k)
  | _ => .error .type

/-- `d.get(k, default)` -/
def getD (fields : List (String × Value μ)) (k : String) (default : Value μ) : Value μ :=
  (dictGet fields k).getD default

/-- `d.get(k)` -/
abbrev get (fields : List (String × Value μ)) (k : String) : Value μ := getD fields k none

/-- The values that `for item in v` goes through. -/
def iterate : Json → Except Error (List Json)
  | list items => .ok items
  | dict fields => .ok (fields.map fun p => str p.1)
  | str s => .ok (s.toList.map fun c => str (String.singleton c))
  | _ => .error .type

/-- `len(v)` -/
def len (v : Json) : Except Error ℕ :=
  match v with
  | list items => .ok items.length
  | dict fields => .ok fields.length
  | str s => .ok s.length
  | _ => .error .type

/-- The call of an enumeration on a value. -/
def toMember (ε : Type) [Enumeration ε] : Json → Except Error ε
  | str s => match ofValue s with
    | some e => .ok e
    | .none => .error .value
  | _ => .error .value

@[simp] theorem toMember_value {ε : Type} [Enumeration ε] (e : ε) :
    toMember ε (str (value e)) = .ok e := by
  simp [toMember]

/-- `float(v)`, from how it reads a text. -/
def toFloat (parse : String → Option ℚ) : Json → Except Error ℚ
  | float x => .ok x
  | int n => .ok n
  | bool b => .ok (if b then 1 else 0)
  | str s => match parse s with
    | some x => .ok x
    | .none => .error .value
  | _ => .error .type

/-- `int(v)`, from how it reads a text. -/
def toInt (parse : String → Option ℤ) : Json → Except Error ℤ
  | int n => .ok n
  | float x => .ok (if 0 ≤ x then x.floor else x.ceil)
  | bool b => .ok (if b then 1 else 0)
  | str s => match parse s with
    | some n => .ok n
    | .none => .error .value
  | _ => .error .type

end Value

end ForgeOS.Python
