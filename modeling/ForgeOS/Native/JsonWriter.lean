import ForgeOS.Native.JsonLookup
import ForgeOS.Native.Quote

/-! Objects written without blanks, with the texts in them quoted as `jquote` quotes. What is looked
up in such an object is what was written under the name. -/

namespace ForgeOS.Native

def noBlank : Blank := ⟨[], isBlank_nil⟩

def Value.ofText (s : Bytes) : Value :=
  .scalar ⟨quoteText s, .inr (.inr ⟨quoted s, isChars_quoted s, rfl⟩)⟩

def KeyOf.ofText (s : Bytes) : KeyOf true :=
  { before := noBlank, chars := ⟨quoted s, isChars_quoted s⟩, after := noBlank }

def Items.ofFields : Bytes × Value → List (Bytes × Value) → Items true
  | f, [] => .last (KeyOf.ofText f.1) noBlank f.2 noBlank
  | f, g :: fields => .cons (KeyOf.ofText f.1) noBlank f.2 noBlank (ofFields g fields)

/-- An object of these fields, of which there is one. -/
def Value.ofFields (f : Bytes × Value) (fields : List (Bytes × Value)) : Value :=
  .full true (.ofFields f fields)

theorem Value.ofText_render (s : Bytes) : (Value.ofText s).render = quoteText s := rfl

theorem Value.ofText_string (s : Bytes) : (Value.ofText s).string = some (s.map shown) := by
  change (if some (34 : UInt8) = some 34 then some (decode (quoted s ++ [34]).dropLast) else none) =
    _
  rw [if_pos rfl, List.dropLast_concat, decode_quoted]

/-- A name with its value. -/
def fieldText (f : Bytes × Value) : Bytes := quoteText f.1 ++ 58 :: f.2.render

theorem KeyOf.ofText_render (s : Bytes) : (KeyOf.ofText s).render = quoteText s ++ [58] := by
  simp [KeyOf.render, KeyOf.ofText, noBlank, quoteText]

theorem Items.ofFields_last (f : Bytes × Value) :
    (Items.ofFields f []).render = fieldText f := by
  change (KeyOf.ofText f.1).render ++ ([] ++ (f.2.render ++ [])) = _
  rw [KeyOf.ofText_render, fieldText]
  simp

theorem Items.ofFields_cons (f g : Bytes × Value) (fields : List (Bytes × Value)) :
    (Items.ofFields f (g :: fields)).render =
      fieldText f ++ 44 :: (Items.ofFields g fields).render := by
  change (KeyOf.ofText f.1).render ++ ([] ++ (f.2.render ++ ([] ++
    (44 :: (Items.ofFields g fields).render)))) = _
  rw [KeyOf.ofText_render, fieldText]
  simp

theorem Items.ofFields_render (f : Bytes × Value) (fields : List (Bytes × Value)) :
    (Items.ofFields f fields).render =
      fieldText f ++ fields.flatMap fun g => 44 :: fieldText g := by
  induction fields generalizing f with
  | nil => rw [Items.ofFields_last, List.flatMap_nil, List.append_nil]
  | cons g fields ih => rw [Items.ofFields_cons, ih, List.flatMap_cons, List.cons_append]

theorem Value.ofFields_render (f : Bytes × Value) (fields : List (Bytes × Value)) :
    (Value.ofFields f fields).render =
      123 :: (fieldText f ++ (fields.flatMap fun g => 44 :: fieldText g) ++ [125]) := by
  rw [Value.ofFields, Value.render, Items.ofFields_render]
  rfl

theorem Items.members_ofFields (f : Bytes × Value) (fields : List (Bytes × Value)) (index : ℕ) :
    ((Items.ofFields f fields).members index).map (fun m => (m.name, m.value)) =
      (f :: fields).map fun g => (g.1.map shown, g.2) := by
  have hname : ∀ s : Bytes, (KeyOf.ofText s).name = s.map shown :=
    fun s => decode_quoted s
  induction fields generalizing f index with
  | nil =>
    change [((KeyOf.ofText f.1).name, f.2)] = _
    rw [hname]
    rfl
  | cons g fields ih =>
    change ((KeyOf.ofText f.1).name, f.2) ::
      ((Items.ofFields g fields).members (index + 1 + f.2.count)).map
        (fun m => (m.name, m.value)) = _
    rw [ih, hname]
    rfl

/-- The first field of the name is found. -/
theorem Value.get_ofFields (f : Bytes × Value) (fields : List (Bytes × Value)) (name : Bytes) :
    (Value.ofFields f fields).get name =
      ((f :: fields).find? fun g => g.1.map shown = name).map Prod.snd := by
  have hmembers := Items.members_ofFields f fields 1
  have hfind := congrArg (fun l : List (Bytes × Value) =>
    (l.find? fun g => decide (g.1 = name)).map Prod.snd) hmembers
  simp only [List.find?_map, Option.map_map] at hfind
  exact hfind

end ForgeOS.Native
