import Mathlib.Data.List.Nodup
import Mathlib.Data.Fintype.Defs

/-! Enumerations whose members are told apart by a text: the members in order, the text of each,
and the look up of a member by its text, which finds the member that a text was taken from. -/

namespace ForgeOS.Library.Enumerations

class Enumeration (ε : Type) where
  value : ε → String
  members : List ε
  mem_members : ∀ e, e ∈ members
  nodup_values : (members.map value).Nodup

export Enumeration (value members)

variable {ε : Type} [Enumeration ε]

/-- The member with a text. -/
def ofValue (s : String) : Option ε := members.find? fun e => value e = s

theorem value_of_ofValue {s : String} {e : ε} (h : ofValue s = some e) : value e = s := by
  simpa using List.find?_some h

theorem value_injective : Function.Injective (value : ε → String) := by
  intro a b h
  exact List.inj_on_of_nodup_map Enumeration.nodup_values (Enumeration.mem_members a)
    (Enumeration.mem_members b) h

@[simp] theorem ofValue_value (e : ε) : ofValue (value e) = some e := by
  cases h : (ofValue (value e) : Option ε) with
  | none =>
    have hne := List.find?_eq_none.mp h e (Enumeration.mem_members e)
    simp at hne
  | some a => rw [value_injective (value_of_ofValue h)]

instance : Enumeration Empty where
  value := Empty.elim
  members := []
  mem_members := Empty.rec _
  nodup_values := List.nodup_nil

end ForgeOS.Library.Enumerations
