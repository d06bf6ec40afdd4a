import ForgeOS.Native.Numbers

/-! What `jkey`, `jstring` and `juint` find, as lookups in the value itself: over tokens and offsets
they look up the first member of a name, the characters of a string and a number without a sign. A
value that stands in the text has its tokens from its number on. -/

namespace ForgeOS.Native

/-! ### Lookups -/

/-- The value of the first member of this name. -/
def Value.get (v : Value) (name : Bytes) : Option Value :=
  ((v.members 0).find? fun m => m.name = name).map Member.value

/-- What the characters stand for, of a string. -/
def Value.string : Value → Option Bytes
  | .scalar text => if text.val.head? = some 34 then some (decode text.val.tail.dropLast) else none
  | _ => none

/-- The string of the first member of this name, if there is room for it. -/
def Value.field (v : Value) (name : Bytes) (cap : ℕ) : Option Bytes :=
  ((v.get name).bind Value.string).bind (fitting cap)

/-- What the digits say, of a number of nothing else that fits 64 bits. -/
def Value.uint (v : Value) : Option ℕ :=
  if v.render.all isdigit ∧ Numbers.value v.render < 2 ^ 64 then some (Numbers.value v.render)
  else none

/-- `jstring` of what `jkey` finds. -/
def memberString (s : Bytes) (t : List JsonToken) (object : ℤ) (name : Bytes) (cap : ℕ) :
    Option (Option Bytes) :=
  (jkey s t object name).bind fun k => jstring s t k cap

/-- A member at a later place. -/
def Member.shift (k : ℕ) (m : Member) : Member := { m with index := m.index + k }

theorem Items.members_shift {object : Bool} (k : ℕ) : ∀ (items : Items object) (index : ℕ),
    items.members (index + k) = (items.members index).map (Member.shift k)
  | .last key _ value _, index => by
    simp only [Items.members, List.map_cons, List.map_nil, Member.shift]
    rw [Nat.add_right_comm]
  | .cons key _ value _ rest, index => by
    have ih := Items.members_shift k rest (index + key.count + value.count)
    simp only [Items.members, List.map_cons, Member.shift]
    rw [← ih, Nat.add_right_comm index k, Nat.add_right_comm (index + key.count) k]

theorem Value.members_shift (v : Value) (k : ℕ) :
    v.members k = (v.members 0).map (Member.shift k) := by
  cases v with
  | scalar text => rfl
  | empty object blank => cases object <;> rfl
  | full object items =>
    cases object with
    | false => rfl
    | true =>
      have := Items.members_shift k items 1
      rw [Nat.add_comm 1 k] at this
      exact this

theorem Value.find_members (v : Value) (k : ℕ) (name : Bytes) :
    (v.members k).find? (fun m => m.name = name) =
      ((v.members 0).find? fun m => m.name = name).map (Member.shift k) := by
  rw [v.members_shift k, List.find?_map]
  rfl

theorem Value.members_of_kind {v : Value} (h : v.kind ≠ 123) (k : ℕ) : v.members k = [] := by
  cases v with
  | scalar text => rfl
  | empty object blank => cases object <;> rfl
  | full object items =>
    cases object with
    | false => rfl
    | true => exact absurd rfl h

/-- Only strings begin with a quotation mark. -/
theorem string_of_kind {v : Value} (h : v.kind = 34) :
    ∃ cs, IsChars cs ∧ v.render = 34 :: (cs ++ [34]) ∧ v.string = some (decode cs) := by
  cases v with
  | empty object blank =>
    cases object with
    | false => exact absurd h (by decide : (91 : UInt8) ≠ 34)
    | true => exact absurd h (by decide : (123 : UInt8) ≠ 34)
  | full object items =>
    cases object with
    | false => exact absurd h (by decide : (91 : UInt8) ≠ 34)
    | true => exact absurd h (by decide : (123 : UInt8) ≠ 34)
  | scalar text =>
    rcases scalar_cases text.property with hplain | ⟨cs, hcs, htext⟩
    · obtain ⟨c, cs, hc, hquote, -⟩ := plain_head hplain
      rw [Value.kind, hc] at h
      exact absurd h hquote
    · refine ⟨cs, hcs, htext, ?_⟩
      rw [Value.string, htext, List.head?_cons, if_pos rfl, List.tail_cons, List.dropLast_concat]

theorem string_of_other {v : Value} (h : v.kind ≠ 34) : v.string = none := by
  cases v with
  | empty object blank => rfl
  | full object items => rfl
  | scalar text =>
    obtain ⟨c, cs, hc, -⟩ := text.property.head
    rw [Value.kind, hc] at h
    rw [Value.string, hc, List.head?_cons, if_neg]
    exact fun e => h (Option.some.inj e)

/-- Only an array begins with a bracket. -/
theorem array_of_kind {v : Value} (h : v.kind = 91) :
    (∃ blank, v = .empty false blank) ∨ ∃ items, v = .full false items := by
  cases v with
  | scalar text =>
    rcases scalar_cases text.property with hplain | ⟨cs, -, htext⟩
    · obtain ⟨c, cs, hc, -, -, hbracket⟩ := plain_head hplain
      rw [Value.kind, hc] at h
      exact absurd h hbracket
    · rw [Value.kind, htext] at h
      exact absurd h (by decide : (34 : UInt8) ≠ 91)
  | empty object blank =>
    cases object with
    | false => exact .inl ⟨blank, rfl⟩
    | true => exact absurd h (by decide : (123 : UInt8) ≠ 91)
  | full object items =>
    cases object with
    | false => exact .inr ⟨items, rfl⟩
    | true => exact absurd h (by decide : (123 : UInt8) ≠ 91)

/-! ### Over the tokens -/

section Placed

variable {s : Bytes} {t : List JsonToken} {index : ℕ} {v : Value}

theorem jkey_of_get_none (h : Placed s t index v) (hlength : s.length < 2 ^ 31) {name : Bytes}
    (hname : name.length < 80) (hget : v.get name = none) : jkey s t index name = some (-1) := by
  by_cases hkind : v.kind = 123
  · rw [Value.get, Option.map_eq_none_iff] at hget
    rw [jkey_of_placed hlength hname h hkind, v.find_members index, hget]
    rfl
  · obtain ⟨o, ho, hok, -⟩ := h.token
    have hnonneg : ¬((index : ℕ) : ℤ) < 0 := by omega
    rw [jkey, if_neg hnonneg, ho]
    simp [hok, hkind]

theorem jkey_of_get (h : Placed s t index v) (hlength : s.length < 2 ^ 31) {name : Bytes}
    (hname : name.length < 80) {w : Value} (hget : v.get name = some w) :
    ∃ k : ℕ, jkey s t index name = some (k : ℤ) ∧ Placed s t k w := by
  have hkind : v.kind = 123 := by
    by_contra hno
    rw [Value.get, Value.members_of_kind hno] at hget
    cases hget
  obtain ⟨m, hm, rfl⟩ := Option.map_eq_some_iff.mp hget
  have hfind : (v.members index).find? (fun m => m.name = name) = some (m.shift index) := by
    rw [v.find_members index, hm]
    rfl
  refine ⟨(m.shift index).index, ?_, ?_⟩
  · rw [jkey_of_placed hlength hname h hkind, hfind]
    rfl
  · exact h.member _ (List.mem_of_find?_eq_some hfind)

theorem jkey_absent (name : Bytes) : jkey s t (-1) name = some (-1) := if_pos (by decide)

theorem jstring_absent (cap : ℕ) : jstring s t (-1) cap = some none := rfl

theorem span_token_exact (span : Span) (hstart : span.start < 2 ^ 31) (hstop : span.stop < 2 ^ 31) :
    span.token.start = span.start ∧ span.token.stop = span.stop := by
  have hstart' : cint span.start = span.start := cint_of_lt hstart
  have hstop' : cint span.stop = span.stop := cint_of_lt hstop
  simp only [Span.token, hstart', hstop', and_self]

/-- The first token of a value, where nothing wraps. -/
theorem placed_range (h : Placed s t index v) (hlength : s.length < 2 ^ 31) :
    ∃ before behind, s = before ++ (v.render ++ behind) ∧
      ∃ o, token t index = some o ∧ o.kind = v.kind ∧ o.start = before.length ∧
        o.stop = before.length + v.render.length := by
  obtain ⟨before, behind, pre, post, hs, ht, hpre⟩ := h
  have hbound : before.length + v.render.length ≤ s.length := by
    rw [hs, List.length_append, List.length_append]
    omega
  let span : Span := { start := before.length, stop := before.length + v.render.length
                       next := index + v.count, kind := v.kind }
  have hstart : span.start < 2 ^ 31 := by
    change before.length < _
    omega
  have hstop : span.stop < 2 ^ 31 := by
    change before.length + v.render.length < _
    omega
  obtain ⟨hstart', hstop'⟩ := span_token_exact span hstart hstop
  refine ⟨before, behind, hs, span.token, ?_, rfl, hstart', hstop'.trans (Nat.cast_add _ _)⟩
  rw [Value.spans_eq, List.map_cons] at ht
  rw [ht]
  exact token_append hpre 0

theorem jstring_placed (h : Placed s t index v) (hlength : s.length < 2 ^ 31) {cap : ℕ}
    (hcap : 0 < cap) : jstring s t index cap = some (v.string.bind (fitting cap)) := by
  obtain ⟨before, behind, hs, o, ho, hkind, hstart, hstop⟩ := placed_range h hlength
  by_cases hquote : v.kind = 34
  · obtain ⟨cs, hcs, hrender, hstring⟩ := string_of_kind hquote
    rw [hrender] at hs hstop
    rw [hstring, Option.bind_some]
    refine jstring_eq hcs hs ho (hkind.trans hquote) hstart ?_ hcap
    rw [hstop, List.length_cons, List.length_append, List.length_singleton]
    rfl
  · rw [string_of_other hquote, jstring, ho, Option.bind_none]
    exact if_pos (.inl (by rw [hkind]; exact hquote))

theorem jstring_field (h : Placed s t index v) (hlength : s.length < 2 ^ 31) {name : Bytes}
    (hname : name.length < 80) {cap : ℕ} (hcap : 0 < cap) :
    memberString s t index name cap = some (v.field name cap) := by
  rw [memberString]
  cases hget : v.get name with
  | none =>
    rw [jkey_of_get_none h hlength hname hget, Value.field, hget]
    exact jstring_absent (s := s) (t := t) cap
  | some w =>
    obtain ⟨k, hk, hw⟩ := jkey_of_get h hlength hname hget
    rw [hk, Value.field, hget]
    exact jstring_placed hw hlength hcap

theorem juint_placed (h : Placed s t index v) (hlength : s.length < 2 ^ 31) :
    ∃ out : Option UInt64, (Numbers.juint s t index).value = some out ∧
      out.map UInt64.toNat = v.uint := by
  obtain ⟨before, behind, pre, post, hs, ht, hpre⟩ := h
  let span : Span := { start := before.length, stop := before.length + v.render.length
                       next := index + v.count, kind := v.kind }
  have hplace : span.Belongs s index v := belongs_here v hs index
  have hbound : before.length + v.render.length ≤ s.length := hplace.bound
  have hstart : span.start < 2 ^ 31 := by
    change before.length < _
    omega
  have hstop : span.stop < 2 ^ 31 := by
    change before.length + v.render.length < _
    omega
  obtain ⟨hstart', hstop'⟩ := span_token_exact span hstart hstop
  rw [Value.spans_eq, List.map_cons] at ht
  have htoken : t[index]? = some span.token := by
    rw [ht, List.getElem?_append_right (by omega), hpre, Nat.sub_self]
    rfl
  obtain ⟨⟨out, hout, hreads⟩, -⟩ := Numbers.juint_here htoken hplace hstart' hstop'
  refine ⟨out, hout, ?_⟩
  obtain ⟨cs, hcs, -⟩ := v.head
  have hdigits : IsDigits v.render ↔ v.render.all isdigit = true := by
    rw [IsDigits, List.all_eq_true, and_iff_right]
    rw [hcs]
    exact List.cons_ne_nil _ _
  rw [Value.uint]
  split_ifs with hfits
  · have hread := (hreads (.ofNat (Numbers.value v.render))).mpr
      ⟨hdigits.mpr hfits.1, by omega, UInt64.toNat_ofNat_of_lt' hfits.2⟩
    rw [hread, Option.map_some, UInt64.toNat_ofNat_of_lt' hfits.2]
  · cases out with
    | none => rfl
    | some n =>
      obtain ⟨hall, hle, -⟩ := (hreads n).mp rfl
      exact absurd ⟨hdigits.mp hall, by omega⟩ hfits

end Placed

end ForgeOS.Native
