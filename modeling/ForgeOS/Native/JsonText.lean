import ForgeOS.Library.Slices
import ForgeOS.Native.Json

/-! JSON texts after RFC 8259, with every blank in its place. A text tells how many values it
holds, how deep they lie, and where each of them stands. -/

namespace ForgeOS.Native

open ForgeOS.Library.Slices

/-! ### Texts -/

abbrev Blank : Type := { text : Bytes // IsBlank text }

/-- What stands before the value of an entry in an object. -/
structure Key where
  before : Blank
  chars : { cs : Bytes // IsChars cs }
  after : Blank

/-- An object has keys, an array has none. -/
def KeyOf : Bool → Type
  | true => Key
  | false => Unit

mutual

inductive Value : Type
  | scalar (text : { text : Bytes // IsScalar text })
  | empty (object : Bool) (blank : Blank)
  | full (object : Bool) (items : Items object)

/-- The entries of an object or an array that has any. -/
inductive Items : Bool → Type
  | last {object : Bool} (key : KeyOf object) (before : Blank) (value : Value) (after : Blank) :
    Items object
  | cons {object : Bool} (key : KeyOf object) (before : Blank) (value : Value) (after : Blank)
    (rest : Items object) : Items object

end

/-- A rule for both at once. -/
theorem Value.induction {P : Value → Prop} {Q : ∀ object, Items object → Prop}
    (scalar : ∀ text, P (.scalar text)) (empty : ∀ object blank, P (.empty object blank))
    (full : ∀ object items, Q object items → P (.full object items))
    (last : ∀ object key before value after, P value → Q object (.last key before value after))
    (cons : ∀ object key before value after rest, P value → Q object rest →
      Q object (.cons key before value after rest)) (v : Value) : P v :=
  Value.rec scalar empty full (fun {object} => last object) (fun {object} => cons object) v

/-! ### What a text tells -/

/-- A place in the text that a value takes up, and the number of the value behind it. -/
structure Span where
  start : ℕ
  stop : ℕ
  next : ℕ
  kind : UInt8

/-- The token that is stored for a value. -/
def Span.token (s : Span) : JsonToken where
  start := cint s.start
  stop := cint s.stop
  next := s.next
  kind := s.kind

namespace KeyOf

/-- The string of the key, with the blanks around it and the colon. -/
def render : {object : Bool} → KeyOf object → Bytes
  | true, key => key.before.val ++ (34 :: (key.chars.val ++ [34]) ++ (key.after.val ++ [58]))
  | false, _ => []

def count : {object : Bool} → KeyOf object → ℕ
  | true, _ => 1
  | false, _ => 0

def spans : {object : Bool} → KeyOf object → ℕ → ℕ → List Span
  | true, key, start, index =>
    [{ start := start + key.before.val.length
       stop := start + key.before.val.length + (key.chars.val.length + 2)
       next := index + 1
       kind := 34 }]
  | false, _, _, _ => []

/-- The string of the key is a value. -/
def nodes : {object : Bool} → KeyOf object → List Value
  | true, key =>
    [.scalar ⟨34 :: (key.chars.val ++ [34]), .inr (.inr ⟨key.chars.val, key.chars.property, rfl⟩)⟩]
  | false, _ => []

end KeyOf

mutual

def Value.render : Value → Bytes
  | .scalar text => text.val
  | .empty object blank => opening object :: (blank.val ++ [closing object])
  | .full object items => opening object :: (items.render ++ [closing object])

def Items.render {object : Bool} : Items object → Bytes
  | .last key before value after => key.render ++ (before.val ++ (value.render ++ after.val))
  | .cons key before value after rest =>
    key.render ++ (before.val ++ (value.render ++ (after.val ++ (44 :: rest.render))))

end

mutual

/-- How many values there are, keys included. -/
def Value.count : Value → ℕ
  | .scalar _ => 1
  | .empty _ _ => 1
  | .full _ items => items.count + 1

def Items.count {object : Bool} : Items object → ℕ
  | .last key _ value _ => key.count + value.count
  | .cons key _ value _ rest => key.count + (value.count + rest.count)

end

mutual

/-- How many levels there are below the value. -/
def Value.depth : Value → ℕ
  | .scalar _ => 0
  | .empty _ _ => 0
  | .full _ items => items.depth + 1

def Items.depth {object : Bool} : Items object → ℕ
  | .last _ _ value _ => value.depth
  | .cons _ _ value _ rest => max value.depth rest.depth

end

def Value.kind : Value → UInt8
  | .scalar text => text.val.headD 0
  | .empty object _ => opening object
  | .full object _ => opening object

mutual

/-- The places of a value and of all values in it, in their order, when the value begins at
`start` and is the one with the number `index`. -/
def Value.spans (start index : ℕ) (v : Value) : List Span :=
  let span : Span :=
    { start, stop := start + v.render.length, next := index + v.count, kind := v.kind }
  match v with
  | .scalar _ => [span]
  | .empty _ _ => [span]
  | .full _ items => span :: items.spans (start + 1) (index + 1)

def Items.spans {object : Bool} (start index : ℕ) : Items object → List Span
  | .last key before value _ =>
    key.spans start index ++
      value.spans (start + key.render.length + before.val.length) (index + key.count)
  | .cons key before value after rest =>
    key.spans start index ++
      (value.spans (start + key.render.length + before.val.length) (index + key.count) ++
        rest.spans
          (start + key.render.length + before.val.length + value.render.length +
            (after.val.length + 1))
          (index + key.count + value.count))

end

mutual

/-- A value and all values in it, in their order. -/
def Value.nodes (v : Value) : List Value :=
  match v with
  | .scalar _ => [v]
  | .empty _ _ => [v]
  | .full _ items => v :: items.nodes

def Items.nodes {object : Bool} : Items object → List Value
  | .last key _ value _ => key.nodes ++ value.nodes
  | .cons key _ value _ rest => key.nodes ++ (value.nodes ++ rest.nodes)

end

/-- A place in the text belongs to a value: the value stands there, and the number of the value
behind it is that of the value plus the values it holds. -/
structure Span.Belongs (s : Span) (text : Bytes) (index : ℕ) (v : Value) : Prop where
  range : slice text s.start (s.stop - s.start) = v.render
  stop : s.stop = s.start + v.render.length
  bound : s.stop ≤ text.length
  next : s.next = index + v.count
  kind : s.kind = v.kind

/-- The places belong to the values, one after the other. -/
def Belong (text : Bytes) : ℕ → List Span → List Value → Prop
  | _, [], [] => True
  | index, s :: spans, v :: values => s.Belongs text index v ∧ Belong text (index + 1) spans values
  | _, _, _ => False

/-- `JSON-text` -/
structure JsonText where
  before : Blank
  value : Value
  after : Blank

namespace JsonText

def render (text : JsonText) : Bytes := text.before.val ++ (text.value.render ++ text.after.val)

def spans (text : JsonText) : List Span := text.value.spans text.before.val.length 0

end JsonText

/-! ### The places are right -/

theorem KeyOf.length_spans {object : Bool} (key : KeyOf object) (start index : ℕ) :
    (key.spans start index).length = key.count := by
  cases object with
  | false => rfl
  | true => rfl

/-- There is a place for each value. -/
theorem Value.length_spans (v : Value) : ∀ start index, (v.spans start index).length = v.count := by
  refine Value.induction (P := fun v => ∀ start index, (v.spans start index).length = v.count)
    (Q := fun object items => ∀ start index, (items.spans start index).length = items.count)
    ?_ ?_ ?_ ?_ ?_ v
  · intro text start index
    rfl
  · intro object blank start index
    rfl
  · intro object items ih start index
    rw [Value.spans, Value.count, List.length_cons, ih]
  · intro object key before value after ih start index
    rw [Items.spans, Items.count, List.length_append, KeyOf.length_spans, ih]
  · intro object key before value after rest ihValue ihRest start index
    rw [Items.spans, Items.count, List.length_append, List.length_append, KeyOf.length_spans,
      ihValue, ihRest]

theorem Belong.append {text : Bytes} {index : ℕ} {spans spans' : List Span}
    {values values' : List Value} (h : Belong text index spans values)
    (h' : Belong text (index + spans.length) spans' values') :
    Belong text index (spans ++ spans') (values ++ values') := by
  induction spans generalizing index values with
  | nil =>
    cases values with
    | nil => exact h'
    | cons v values => exact h.elim
  | cons s spans ih =>
    cases values with
    | nil => exact h.elim
    | cons v values =>
      refine ⟨h.1, ih h.2 ?_⟩
      rw [List.length_cons, Nat.add_comm spans.length 1, ← Nat.add_assoc] at h'
      exact h'

/-- A value that stands in the text has its place there. -/
theorem belongs_here (v : Value) {text before behind : Bytes}
    (h : text = before ++ (v.render ++ behind)) (index : ℕ) :
    Span.Belongs { start := before.length, stop := before.length + v.render.length,
                   next := index + v.count, kind := v.kind } text index v where
  range := by
    dsimp only
    rw [Nat.add_sub_cancel_left, h]
    exact slice_append rfl rfl
  stop := rfl
  bound := by
    rw [h, List.length_append, List.length_append]
    dsimp only
    omega
  next := rfl
  kind := rfl

theorem belong_key {object : Bool} (k : KeyOf object) {text before behind : Bytes}
    (h : text = before ++ (k.render ++ behind)) (index : ℕ) :
    Belong text index (k.spans before.length index) k.nodes := by
  cases object with
  | false => trivial
  | true =>
    obtain ⟨blank, chars, after⟩ := k
    have hstring : text = (before ++ blank.val) ++
        (34 :: (chars.val ++ [34]) ++ (after.val ++ [58] ++ behind)) := by
      rw [h]
      change before ++ (blank.val ++ (34 :: (chars.val ++ [34]) ++ (after.val ++ [58])) ++ behind) = _
      simp only [List.append_assoc]
    have hplace := belongs_here
      (.scalar ⟨34 :: (chars.val ++ [34]), .inr (.inr ⟨chars.val, chars.property, rfl⟩)⟩) hstring index
    have hlength : (Value.scalar ⟨34 :: (chars.val ++ [34]),
        .inr (.inr ⟨chars.val, chars.property, rfl⟩)⟩).render.length = chars.val.length + 2 := by
      rw [Value.render, List.length_cons, List.length_append]
      rfl
    rw [hlength, List.length_append] at hplace
    exact ⟨hplace, trivial⟩

/-- The places of the values in a text are where the values stand. -/
theorem Value.belong (v : Value) : ∀ (text before behind : Bytes) (index : ℕ),
    text = before ++ (v.render ++ behind) →
    Belong text index (v.spans before.length index) v.nodes := by
  refine Value.induction
    (P := fun v => ∀ (text before behind : Bytes) (index : ℕ),
      text = before ++ (v.render ++ behind) →
      Belong text index (v.spans before.length index) v.nodes)
    (Q := fun object items => ∀ (text before behind : Bytes) (index : ℕ),
      text = before ++ (items.render ++ behind) →
      Belong text index (items.spans before.length index) items.nodes)
    ?scalar ?empty ?full ?last ?cons v
  case scalar =>
    intro scalar text before behind index h
    exact ⟨belongs_here (.scalar scalar) h index, trivial⟩
  case empty =>
    intro object blank text before behind index h
    exact ⟨belongs_here (.empty object blank) h index, trivial⟩
  case full =>
    intro object items ih text before behind index h
    have hinner : text = (before ++ [opening object]) ++ (items.render ++ (closing object :: behind)) := by
      rw [h, Value.render]
      simp only [List.append_assoc, List.cons_append, List.nil_append]
    have hitems := ih text _ _ (index + 1) hinner
    rw [List.length_append] at hitems
    rw [Value.spans, Value.nodes]
    exact ⟨belongs_here (.full object items) h index, hitems⟩
  case last =>
    intro object key before' value after ih text before behind index h
    rw [Items.render] at h
    rw [Items.spans, Items.nodes]
    have hkey : text = before ++ (key.render ++
        (before'.val ++ (value.render ++ after.val) ++ behind)) := by
      rw [h]
      simp only [List.append_assoc]
    have hvalue : text = (before ++ (key.render ++ before'.val)) ++
        (value.render ++ (after.val ++ behind)) := by
      rw [h]
      simp only [List.append_assoc]
    refine (belong_key key hkey index).append ?_
    have hplace := ih text _ _ (index + key.count) hvalue
    rw [List.length_append, List.length_append, ← Nat.add_assoc] at hplace
    rw [KeyOf.length_spans]
    exact hplace
  case cons =>
    intro object key before' value after items ihValue ihItems text before behind index h
    rw [Items.render] at h
    rw [Items.spans, Items.nodes]
    have hkey : text = before ++ (key.render ++ (before'.val ++
        (value.render ++ (after.val ++ 44 :: items.render)) ++ behind)) := by
      rw [h]
      simp only [List.append_assoc]
    have hvalue : text = (before ++ (key.render ++ before'.val)) ++
        (value.render ++ (after.val ++ 44 :: items.render ++ behind)) := by
      rw [h]
      simp only [List.append_assoc]
    have hitems : text = (before ++ (key.render ++ (before'.val ++ (value.render ++
        (after.val ++ [44]))))) ++ (items.render ++ behind) := by
      rw [h]
      simp only [List.append_assoc, List.cons_append, List.nil_append]
    refine (belong_key key hkey index).append ?_
    rw [KeyOf.length_spans]
    have hplace := ihValue text _ _ (index + key.count) hvalue
    rw [List.length_append, List.length_append, ← Nat.add_assoc] at hplace
    refine hplace.append ?_
    rw [Value.length_spans]
    have hplaces := ihItems text _ _ (index + key.count + value.count) hitems
    simp only [List.length_append, List.length_singleton, ← Nat.add_assoc] at hplaces ⊢
    exact hplaces

end ForgeOS.Native
