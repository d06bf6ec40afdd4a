import Mathlib.Data.List.DropRight
import ForgeOS.Native.JsonText

/-! `jparse` accepts the JSON texts with at most 512 values, none of them deeper than 24
levels, and fills in a token for each value. One direction is by induction on the text, the
other by induction on the levels and, inside a level, on the rounds of the loop. -/

namespace ForgeOS.Native

/-! ### What a text begins with -/

theorem IsScalar.head {text : Bytes} (h : IsScalar text) :
    ∃ c cs, text = c :: cs ∧ strchr blanks c = false ∧ c ≠ 93 := by
  rcases h with (rfl | rfl | rfl) | hnumber | ⟨cs, -, rfl⟩
  · exact ⟨_, _, rfl, by decide⟩
  · exact ⟨_, _, rfl, by decide⟩
  · exact ⟨_, _, rfl, by decide⟩
  · obtain ⟨c, cs, rfl, hc⟩ := hnumber.head
    refine ⟨c, cs, rfl, ?_⟩
    rcases hc with rfl | hdigit
    · decide
    · rw [Bool.eq_false_iff]
      constructor
      · intro hblank
        rw [strchr, Bool.or_eq_true, List.contains_iff_mem, beq_iff_eq] at hblank
        simp only [blanks, List.mem_cons, List.not_mem_nil, or_false] at hblank
        rcases hblank with rfl | rfl | rfl | rfl | rfl
        all_goals
          revert hdigit
          decide
      · rintro rfl
        revert hdigit
        decide
  · exact ⟨34, _, rfl, by decide⟩

theorem strchr_opening (object : Bool) :
    strchr blanks (opening object) = false ∧ opening object ≠ 93 := by
  revert object
  decide

/-- A value begins with the byte that its token names, which is neither a blank nor the end of
an array. -/
theorem Value.head (v : Value) :
    ∃ cs, v.render = v.kind :: cs ∧ strchr blanks v.kind = false ∧ v.kind ≠ 93 := by
  cases v with
  | scalar text =>
    obtain ⟨text, htext⟩ := text
    obtain ⟨c, cs, rfl, hc⟩ := htext.head
    exact ⟨cs, rfl, hc⟩
  | empty object blank => exact ⟨_, rfl, strchr_opening object⟩
  | full object items => exact ⟨_, rfl, strchr_opening object⟩

/-- The places of the values inside a value. -/
def Value.inner (start index : ℕ) : Value → List Span
  | .full _ items => items.spans (start + 1) (index + 1)
  | _ => []

theorem Value.spans_eq (v : Value) (start index : ℕ) :
    v.spans start index =
      { start, stop := start + v.render.length, next := index + v.count, kind := v.kind } ::
        v.inner start index := by
  cases v with
  | scalar text => rfl
  | empty object blank => rfl
  | full object items => rw [Value.spans, Value.inner]

/-! ### The state of the reader -/

namespace Json

/-- The reader at a later place, with tokens for the values in between. -/
def after (j : Json) (rest : Bytes) (spans : List Span) : Json :=
  { j with rest, t := j.t ++ spans.map Span.token }

variable {j : Json} {rest rest' : Bytes} {spans spans' : List Span}

theorem after_nil (j : Json) (rest : Bytes) : j.after rest [] = { j with rest } := by
  rw [after, List.map_nil, List.append_nil]

theorem after_after (j : Json) (rest rest' : Bytes) (spans spans' : List Span) :
    (j.after rest spans).after rest' spans' = j.after rest' (spans ++ spans') := by
  simp only [after, List.map_append, List.append_assoc]

theorem after_here (j : Json) : j.after j.rest [] = j := after_nil j j.rest

theorem count_after (j : Json) (rest : Bytes) (spans : List Span) :
    (j.after rest spans).count = j.count + spans.length := by
  rw [after, count, List.length_append, List.length_map]
  rfl

theorem pos_after {text : Bytes} (hfits : j.rest.length ≤ j.length) (h : j.rest = text ++ rest)
    (spans : List Span) : (j.after rest spans).pos = j.pos + text.length := by
  have hlength := congrArg List.length h
  rw [List.length_append] at hlength
  change j.length - rest.length = j.length - j.rest.length + text.length
  omega

theorem fits_after {text : Bytes} (hfits : j.rest.length ≤ j.length) (h : j.rest = text ++ rest)
    (spans : List Span) : (j.after rest spans).rest.length ≤ (j.after rest spans).length := by
  have hlength := congrArg List.length h
  rw [List.length_append] at hlength
  change rest.length ≤ j.length
  omega

end Json

theorem strchr_of_mem {chars : Bytes} {c : UInt8} (h : c ∈ chars) : strchr chars c = true := by
  rw [strchr, Bool.or_eq_true, List.contains_iff_mem]
  exact .inr h

/-- Blanks are skipped up to what is not blank. -/
theorem jspace_eq {j : Json} {blank rest : Bytes} (hblank : IsBlank blank)
    (hrest : ∀ c ∈ rest.head?, strchr blanks c = false) (h : j.rest = blank ++ rest) :
    jspace j = j.after rest [] := by
  rw [jspace, h, List.dropWhile_append_of_pos fun c hc => strchr_of_mem (hblank c hc), Json.after_nil]
  cases rest with
  | nil => rfl
  | cons c rest => rw [List.dropWhile_cons_of_neg (by simp [hrest c rfl])]

theorem modify_append_cons {α : Type} (xs ys : List α) (a : α) (f : α → α) :
    (xs ++ a :: ys).modify xs.length f = xs ++ f a :: ys := by
  induction xs with
  | nil => rfl
  | cons x xs ih => rw [List.cons_append, List.length_cons, List.modify_succ_cons, ih, List.cons_append]

theorem Json.opened_count (j : Json) (kind : UInt8) (rest : Bytes) :
    (j.opened kind rest).count = j.count + 1 := by
  rw [opened, count, List.length_append]
  rfl

/-- The token of a value that is left takes the place in front of those of its entries. -/
theorem close_opened (j : Json) (kind : UInt8) (inner rest : Bytes) (spans : List Span) :
    close j.count ((j.opened kind inner).after rest spans) =
      j.after rest ({ start := j.pos
                      stop := (j.after rest spans).pos
                      next := j.count + 1 + spans.length
                      kind } :: spans) := by
  have hcount : ((j.opened kind inner).after rest spans).count = j.count + 1 + spans.length := by
    rw [Json.count_after, Json.opened_count]
  have htokens : ((j.opened kind inner).after rest spans).t =
      j.t ++ { start := cint j.pos, stop := 0, next := 0, kind } :: spans.map Span.token :=
    List.append_assoc ..
  have hpos : ((j.opened kind inner).after rest spans).pos = (j.after rest spans).pos := rfl
  have hj : j.count = j.t.length := rfl
  unfold close
  rw [htokens, hcount, hpos, hj, modify_append_cons]
  unfold Json.after Json.opened
  rw [List.map_cons, Span.token]

/-! ### From texts to tokens -/

theorem ends_cons {c : UInt8} (h : isdigit c = false ∧ c ≠ 46 ∧ c ≠ 101 ∧ c ≠ 69) (rest : Bytes) :
    Ends (c :: rest) := by
  intro c' hc'
  obtain rfl : c = c' := Option.some.inj hc'
  exact h

theorem ends_blank {blank rest : Bytes} (hblank : IsBlank blank) (hrest : Ends rest) :
    Ends (blank ++ rest) := by
  cases blank with
  | nil => exact hrest
  | cons c blank =>
    refine ends_cons ?_ _
    have hc := hblank c List.mem_cons_self
    revert hc
    simp only [blanks, List.mem_cons, List.not_mem_nil, or_false]
    rintro (rfl | rfl | rfl | rfl) <;> decide

section Room

variable {room : ℕ} {j : Json} {before rest : Bytes}

/-- To read a value is to read what is inside of it. -/
theorem jvalue_of_inside {kind : UInt8} {inner : Bytes} {spans : List Span}
    (hbefore : IsBlank before) (hkind : strchr blanks kind = false)
    (hj : j.rest = before ++ kind :: inner) (hcount : j.count < maxTokens)
    (hinside : inside (jvalue room) kind ((j.after (kind :: inner) []).opened kind inner) =
      some (((j.after (kind :: inner) []).opened kind inner).after rest spans)) :
    jvalue (room + 1) j =
      some (j.count, j.after rest ({ start := (j.after (kind :: inner) []).pos
                                     stop := (j.after rest spans).pos
                                     next := j.count + 1 + spans.length
                                     kind } :: spans)) := by
  have hspace : jspace j = j.after (kind :: inner) [] := by
    refine jspace_eq hbefore (fun c hc => ?_) hj
    obtain rfl : kind = c := Option.some.inj hc
    exact hkind
  have hsame : (j.after (kind :: inner) []).count = j.count := by
    rw [Json.count_after]
    rfl
  have hrest : (j.after (kind :: inner) []).rest = kind :: inner := rfl
  rw [jvalue]
  simp only [hspace, hsame, Nat.not_le.mpr hcount, if_false, hrest, hinside, Option.map_some]
  have hclose := close_opened (j.after (kind :: inner) []) kind inner rest spans
  rw [hsame] at hclose
  rw [hclose, Json.after_after, List.nil_append, Json.after_after, List.nil_append]

/-- The same for a value that stands behind blanks. -/
theorem jvalue_eq (v : Value) {tail : Bytes} (htail : v.render = v.kind :: tail)
    (hfits : j.rest.length ≤ j.length) (hbefore : IsBlank before)
    (hj : j.rest = before ++ (v.render ++ rest)) (hcount : j.count + v.count ≤ maxTokens)
    (hinside : inside (jvalue room) v.kind
        ((j.after (v.render ++ rest) []).opened v.kind (tail ++ rest)) =
      some (((j.after (v.render ++ rest) []).opened v.kind (tail ++ rest)).after rest
        (v.inner (j.pos + before.length) j.count))) :
    jvalue (room + 1) j =
      some (j.count, j.after rest (v.spans (j.pos + before.length) j.count)) := by
  have hinner : v.count = 1 + (v.inner (j.pos + before.length) j.count).length := by
    rw [← v.length_spans (j.pos + before.length) j.count, v.spans_eq, List.length_cons]
    omega
  have hrow : v.render ++ rest = v.kind :: (tail ++ rest) := by rw [htail, List.cons_append]
  have hstop : j.rest = (before ++ v.render) ++ rest := by rw [hj, List.append_assoc]
  rw [hrow] at hj hinside
  rw [jvalue_of_inside hbefore v.head.choose_spec.2.1 hj (by omega) hinside, v.spans_eq,
    Json.pos_after hfits hj, Json.pos_after hfits hstop, hinner, List.length_append]
  simp only [Nat.add_assoc]

theorem scalar_cases {text : Bytes} (h : IsScalar text) :
    (IsWord text ∨ IsNumber text) ∨ ∃ cs, IsChars cs ∧ text = 34 :: (cs ++ [34]) :=
  or_assoc.mpr h

variable (room) in
theorem jvalue_scalar (text : { text : Bytes // IsScalar text })
    (hfits : j.rest.length ≤ j.length) (hbefore : IsBlank before) (hrest : Ends rest)
    (hj : j.rest = before ++ (text.val ++ rest)) (hcount : j.count < maxTokens) :
    jvalue (room + 1) j =
      some (j.count, j.after rest ((Value.scalar text).spans (j.pos + before.length) j.count)) := by
  obtain ⟨tail, htail, -⟩ := (Value.scalar text).head
  refine jvalue_eq (.scalar text) htail hfits hbefore hj hcount ?_
  have htext : text.val = (Value.scalar text).kind :: tail := htail
  have hinner : (Value.scalar text).inner (j.pos + before.length) j.count = [] := rfl
  have hopened : ∀ inner : Bytes, ((j.after ((Value.scalar text).render ++ rest) []).opened
      (Value.scalar text).kind inner).rest = inner := fun inner => rfl
  rw [inside, hinner, hopened]
  rcases scalar_cases text.property with hplain | ⟨cs, hcs, hstring⟩
  · obtain ⟨c, cs, hc, hquote, hbrace, hbracket⟩ := plain_head hplain
    have hkind : (Value.scalar text).kind = c := (List.cons.inj (htext.symm.trans hc)).1
    have hskip := skipPlain_append hplain hrest
    rw [htext, List.cons_append] at hskip
    rw [if_neg (hkind ▸ hquote), if_neg (hkind ▸ hbrace), if_neg (hkind ▸ hbracket), hskip]
    exact congrArg some (Json.after_nil _ rest).symm
  · obtain ⟨hkind, htail⟩ := List.cons.inj (htext.symm.trans hstring)
    have hskip : skipString (tail ++ rest) = some rest := by
      rw [htail, List.append_assoc]
      exact skipString_of_chars hcs rest
    rw [if_pos hkind, hskip]
    exact congrArg some (Json.after_nil _ rest).symm

/-- The string of a key is a value of its own. -/
def KeyOf.string (k : Key) : Value :=
  .scalar ⟨34 :: (k.chars.val ++ [34]), .inr (.inr ⟨k.chars.val, k.chars.property, rfl⟩)⟩

theorem isBlank_nil : IsBlank [] := fun _ hc => absurd hc List.not_mem_nil

variable (room) in
/-- What stands before the value of an entry. -/
theorem key_of_render {object : Bool} (k : KeyOf object) (hfits : j.rest.length ≤ j.length)
    (hj : j.rest = k.render ++ rest) (hcount : j.count + k.count ≤ maxTokens) :
    key (jvalue (room + 1)) object j = some (j.after rest (k.spans j.pos j.count)) := by
  cases object with
  | false =>
    have hrest : j.rest = rest := hj
    rw [← hrest]
    exact congrArg some j.after_here.symm
  | true =>
    obtain ⟨before, chars, after⟩ := k
    have hcolon : Ends (58 :: rest) := ends_cons (by decide) rest
    have hrow : j.rest = before.val ++ (34 :: (chars.val ++ [34]) ++ (after.val ++ 58 :: rest)) := by
      rw [hj]
      change before.val ++ (34 :: (chars.val ++ [34]) ++ (after.val ++ [58])) ++ rest = _
      simp only [List.append_assoc, List.cons_append, List.nil_append]
    have hspace := jspace_eq before.property (fun c hc => by
      obtain rfl : 34 = c := Option.some.inj hc
      decide) hrow
    have hfits' := Json.fits_after hfits hrow []
    have hcount' : (j.after (34 :: (chars.val ++ [34]) ++ (after.val ++ 58 :: rest)) []).count =
        j.count := Json.count_after j _ []
    have hstring := jvalue_scalar room
      ⟨34 :: (chars.val ++ [34]), .inr (.inr ⟨chars.val, chars.property, rfl⟩)⟩ hfits' isBlank_nil
      (ends_blank after.property hcolon) rfl (by rw [hcount']; exact hcount)
    rw [hcount', Json.pos_after hfits hrow, Json.after_after] at hstring
    have hspace' : ∀ spans, jspace (j.after (after.val ++ 58 :: rest) spans) =
        j.after (58 :: rest) spans := by
      intro spans
      rw [jspace_eq after.property (fun c hc => by
        obtain rfl : 58 = c := Option.some.inj hc
        decide) rfl, Json.after_after, List.append_nil]
    have hhead : (j.after (34 :: (chars.val ++ [34]) ++ (after.val ++ 58 :: rest)) []).rest.head? =
        some 34 := rfl
    have hspans : (Value.scalar ⟨34 :: (chars.val ++ [34]),
          .inr (.inr ⟨chars.val, chars.property, rfl⟩)⟩).spans
        (j.pos + before.val.length + ([] : Bytes).length) j.count =
        @KeyOf.spans true ⟨before, chars, after⟩ j.pos j.count := by
      simp [Value.spans, KeyOf.spans, Value.render, Value.count, Value.kind]
    rw [hspans] at hstring
    rw [key, if_pos rfl, hspace]
    dsimp only
    rw [if_pos hhead, hstring]
    simp only [List.nil_append, Option.bind_eq_bind, Option.bind_some, hspace']
    rfl

end Room

/-- The reader gets behind the value, wherever there is room for it. -/
def Value.IsRead (v : Value) : Prop :=
  ∀ room, v.depth < room → ∀ (j : Json) (before rest : Bytes), j.rest.length ≤ j.length →
    IsBlank before → Ends rest → j.rest = before ++ (v.render ++ rest) →
    j.count + v.count ≤ maxTokens →
    jvalue room j = some (j.count, j.after rest (v.spans (j.pos + before.length) j.count))

/-- The loop gets behind the closing bracket. -/
def Items.IsRead {object : Bool} (items : Items object) : Prop :=
  ∀ room, items.depth < room → ∀ (j : Json) (rest : Bytes) (rounds : ℕ), j.rest.length ≤ j.length →
    j.rest = items.render ++ closing object :: rest → j.count + items.count ≤ maxTokens →
    items.render.length ≤ rounds →
    entries (jvalue room) object rounds j = some (j.after rest (items.spans j.pos j.count))

section Round

variable {object : Bool} {k : KeyOf object} {before after : Blank} {v : Value} {room : ℕ} {j : Json}

/-- A separator or a closing bracket ends what stands before it. -/
theorem ends_separator (object : Bool) {c : UInt8} (hc : c = closing object ∨ c = 44) (rest : Bytes) :
    Ends (c :: rest) ∧ strchr blanks c = false := by
  rcases hc with rfl | rfl
  · cases object with
    | false => exact ⟨ends_cons (by decide) rest, by decide⟩
    | true => exact ⟨ends_cons (by decide) rest, by decide⟩
  · exact ⟨ends_cons (by decide) rest, by decide⟩

/-- One round of the loop: an entry and the byte behind it. -/
theorem entries_succ (hv : v.IsRead) (hroom : v.depth < room) {c : UInt8} {rest : Bytes}
    (hc : c = closing object ∨ c = 44) (hfits : j.rest.length ≤ j.length)
    (hj : j.rest = k.render ++ (before.val ++ (v.render ++ (after.val ++ c :: rest))))
    (hcount : j.count + (k.count + v.count) ≤ maxTokens) (rounds : ℕ) :
    entries (jvalue room) object (rounds + 1) j =
      let next := j.after rest (k.spans j.pos j.count ++
        v.spans (j.pos + k.render.length + before.val.length) (j.count + k.count))
      if c = closing object then some next
      else entries (jvalue room) object rounds next := by
  obtain ⟨room, rfl⟩ := Nat.exists_eq_succ_of_ne_zero (Nat.ne_zero_of_lt hroom)
  obtain ⟨hends, hblank⟩ := ends_separator object hc rest
  have hkey := key_of_render room k hfits hj (by omega)
  have hfits' := Json.fits_after hfits hj (k.spans j.pos j.count)
  have hcount' : (j.after (before.val ++ (v.render ++ (after.val ++ c :: rest)))
      (k.spans j.pos j.count)).count = j.count + k.count := by
    rw [Json.count_after, KeyOf.length_spans]
  have hvalue := hv _ hroom _ before.val (after.val ++ c :: rest) hfits' before.property
    (ends_blank after.property hends) rfl (by rw [hcount']; omega)
  rw [hcount', Json.pos_after hfits hj, Json.after_after] at hvalue
  have hspace : ∀ spans, jspace (j.after (after.val ++ c :: rest) spans) =
      j.after (c :: rest) spans := by
    intro spans
    rw [jspace_eq after.property (fun c' hc' => by
      obtain rfl : c = c' := Option.some.inj hc'
      exact hblank) rfl, Json.after_after, List.append_nil]
  rw [entries, hkey]
  simp only [Option.bind_eq_bind, Option.bind_some, hvalue, hspace]
  have hrest : ∀ spans, (j.after (c :: rest) spans).rest = c :: rest := fun spans => rfl
  rw [hrest]
  dsimp only
  split_ifs with hclosing hcomma
  · rfl
  · rfl
  · exact absurd (hc.resolve_left hclosing) hcomma

end Round

/-! ### Blanks in front -/

theorem jspace_jspace (j : Json) : jspace (jspace j) = jspace j := by
  rw [jspace, jspace, List.dropWhile_idempotent]

theorem jvalue_jspace (room : ℕ) (j : Json) : jvalue room (jspace j) = jvalue room j := by
  cases room with
  | zero => rfl
  | succ room => rw [jvalue, jvalue, jspace_jspace]

theorem key_jspace (value : Json → Option (ℕ × Json)) (j : Json) :
    key value true (jspace j) = key value true j := by
  rw [key, key, if_pos rfl, if_pos rfl, jspace_jspace]

/-- The loop skips blanks by itself. -/
theorem entries_jspace (room : ℕ) (object : Bool) (rounds : ℕ) (j : Json) :
    entries (jvalue room) object rounds (jspace j) = entries (jvalue room) object rounds j := by
  cases rounds with
  | zero => rfl
  | succ rounds =>
    cases object with
    | false =>
      have hkey : ∀ j, key (jvalue room) false j = some j := fun j => rfl
      rw [entries, entries, hkey, hkey]
      simp only [Option.bind_eq_bind, Option.bind_some, jvalue_jspace]
    | true => rw [entries, entries, key_jspace]

theorem inside_opening (value : Json → Option (ℕ × Json)) (object : Bool) (j : Json) :
    inside value (opening object) j = contents value object j := by
  cases object with
  | false => rfl
  | true => rfl

/-- The first entry does not begin with the closing bracket. -/
theorem Items.head {object : Bool} (items : Items object) :
    ∃ blank c cs, IsBlank blank ∧ items.render = blank ++ c :: cs ∧ strchr blanks c = false ∧
      c ≠ closing object := by
  have hentry : ∀ (k : KeyOf object) (before : Blank) (v : Value) (rest : Bytes),
      ∃ blank c cs, IsBlank blank ∧ k.render ++ (before.val ++ (v.render ++ rest)) =
        blank ++ c :: cs ∧ strchr blanks c = false ∧ c ≠ closing object := by
    intro k before v rest
    cases object with
    | false =>
      obtain ⟨tail, htail, hblank, hbracket⟩ := v.head
      refine ⟨before.val, v.kind, tail ++ rest, before.property, ?_, hblank, hbracket⟩
      rw [htail]
      rfl
    | true =>
      refine ⟨k.before.val, 34,
        k.chars.val ++ [34] ++ (k.after.val ++ [58]) ++ (before.val ++ (v.render ++ rest)),
        k.before.property, ?_, by decide, by decide⟩
      change k.before.val ++ (34 :: (k.chars.val ++ [34]) ++ (k.after.val ++ [58])) ++ _ = _
      simp only [List.append_assoc, List.cons_append]
  cases items with
  | last k before v after =>
    rw [Items.render]
    exact hentry k before v after.val
  | cons k before v after rest =>
    rw [Items.render]
    exact hentry k before v _

theorem contents_empty (value : Json → Option (ℕ × Json)) {object : Bool} {j : Json}
    {blank rest : Bytes} (hblank : IsBlank blank) (hj : j.rest = blank ++ closing object :: rest) :
    contents value object j = some (j.after rest []) := by
  obtain ⟨-, hclosing⟩ := ends_separator object (.inl rfl) rest
  have hspace : jspace j = j.after (closing object :: rest) [] := by
    refine jspace_eq hblank (fun c hc => ?_) hj
    obtain rfl : closing object = c := Option.some.inj hc
    exact hclosing
  have hhead : (j.after (closing object :: rest) []).rest.head? = some (closing object) := rfl
  rw [contents, hspace, if_pos hhead, Json.after_nil, Json.after_nil]
  rfl

theorem contents_full (room : ℕ) {object : Bool} (items : Items object) {j : Json} {rest : Bytes}
    (hj : j.rest = items.render ++ rest) :
    contents (jvalue room) object j = entries (jvalue room) object (j.length + 1) j := by
  obtain ⟨blank, c, cs, hblank, hrender, hc, hclosing⟩ := items.head
  have hspace : jspace j = j.after (c :: (cs ++ rest)) [] := by
    refine jspace_eq hblank (fun c' hc' => ?_) ?_
    · obtain rfl : c = c' := Option.some.inj hc'
      exact hc
    · rw [hj, hrender, List.append_assoc, List.cons_append]
  have hhead : (jspace j).rest.head? ≠ some (closing object) := by
    rw [hspace]
    exact fun h => hclosing (Option.some.inj h)
  have hlength : (jspace j).length = j.length := rfl
  rw [contents, if_neg hhead, hlength, entries_jspace]

/-! ### Every value is read -/

theorem Value.isRead_scalar (text : { text : Bytes // IsScalar text }) :
    (Value.scalar text).IsRead := by
  intro room hroom j before rest hfits hbefore hrest hj hcount
  obtain ⟨room, rfl⟩ := Nat.exists_eq_succ_of_ne_zero (Nat.ne_zero_of_lt hroom)
  exact jvalue_scalar room text hfits hbefore hrest hj hcount

theorem Value.isRead_empty (object : Bool) (blank : Blank) : (Value.empty object blank).IsRead := by
  intro room hroom j before rest hfits hbefore hrest hj hcount
  obtain ⟨room, rfl⟩ := Nat.exists_eq_succ_of_ne_zero (Nat.ne_zero_of_lt hroom)
  refine jvalue_eq (.empty object blank) rfl hfits hbefore hj hcount ?_
  change inside (jvalue room) (opening object) _ = _
  rw [inside_opening]
  exact contents_empty (jvalue room) blank.property (List.append_assoc ..)

/-- Behind its opening bracket an object or an array is its entries and the closing one. -/
theorem Value.isRead_full {object : Bool} {items : Items object} (ih : items.IsRead) :
    (Value.full object items).IsRead := by
  intro room hroom j before rest hfits hbefore hrest hj hcount
  obtain ⟨room, rfl⟩ := Nat.exists_eq_succ_of_ne_zero (Nat.ne_zero_of_lt hroom)
  refine jvalue_eq (.full object items) rfl hfits hbefore hj hcount ?_
  have hrow : j.rest = (before ++ [opening object]) ++
      (items.render ++ closing object :: rest) := by
    rw [hj, Value.render]
    simp only [List.append_assoc, List.cons_append, List.nil_append]
  have hinner : items.render ++ [closing object] ++ rest =
      items.render ++ closing object :: rest := List.append_assoc ..
  change inside (jvalue room) (opening object) _ = _
  rw [inside_opening, hinner, contents_full room items rfl]
  have hpos : ((j.after ((Value.full object items).render ++ rest) []).opened (opening object)
      (items.render ++ closing object :: rest)).pos = j.pos + before.length + 1 := by
    have hpos := Json.pos_after hfits hrow []
    rw [List.length_append] at hpos
    exact hpos
  have hcount' : ((j.after ((Value.full object items).render ++ rest) []).opened (opening object)
      (items.render ++ closing object :: rest)).count = j.count + 1 := by
    rw [Json.opened_count, Json.count_after]
    rfl
  have hfits' := Json.fits_after hfits hrow []
  rw [Value.count] at hcount
  have hrounds : items.render.length ≤ j.length + 1 := by
    have hlength := hfits'
    change (items.render ++ closing object :: rest).length ≤ j.length at hlength
    rw [List.length_append] at hlength
    omega
  have hread := ih room (Nat.lt_of_succ_lt_succ hroom)
    ((j.after ((Value.full object items).render ++ rest) []).opened (opening object)
      (items.render ++ closing object :: rest)) rest (j.length + 1) hfits' rfl
    (by rw [hcount']; omega) hrounds
  rw [hpos, hcount'] at hread
  exact hread

/-- The loop has a round left as long as there is an entry. -/
theorem Items.exists_round {object : Bool} (items : Items object) {rounds : ℕ}
    (h : items.render.length ≤ rounds) : ∃ r, rounds = r + 1 := by
  obtain ⟨blank, c, cs, -, hrender, -, -⟩ := items.head
  rw [hrender, List.length_append, List.length_cons] at h
  exact ⟨rounds - 1, by omega⟩

section Entry

variable {object : Bool} {k : KeyOf object} {before after : Blank} {v : Value}

theorem Items.isRead_last (ih : v.IsRead) : (Items.last k before v after).IsRead := by
  intro room hroom j rest rounds hfits hj hcount hrounds
  obtain ⟨rounds, rfl⟩ := Items.exists_round _ hrounds
  rw [Items.render] at hj
  simp only [List.append_assoc] at hj
  rw [entries_succ ih hroom (.inl rfl) hfits hj hcount]
  exact if_pos rfl

/-- A round reads the first entry and its comma, the rounds behind it the others. -/
theorem Items.isRead_cons {items : Items object} (ih : v.IsRead) (ihItems : items.IsRead) :
    (Items.cons k before v after items).IsRead := by
  intro room hroom j rest rounds hfits hj hcount hrounds
  obtain ⟨rounds, rfl⟩ := Items.exists_round _ hrounds
  rw [Items.render] at hj hrounds
  rw [Items.depth] at hroom
  rw [Items.count] at hcount
  simp only [List.append_assoc, List.cons_append] at hj
  rw [entries_succ ih (lt_of_le_of_lt (le_max_left _ _) hroom) (.inr rfl) hfits hj (by omega)]
  dsimp only
  rw [if_neg (by cases object <;> decide)]
  have hrow : j.rest = (k.render ++ (before.val ++ (v.render ++ (after.val ++ [44])))) ++
      (items.render ++ closing object :: rest) := by
    rw [hj]
    simp only [List.append_assoc, List.cons_append, List.nil_append]
  have hcount' : (j.after (items.render ++ closing object :: rest) (k.spans j.pos j.count ++
      v.spans (j.pos + k.render.length + before.val.length) (j.count + k.count))).count +
        items.count ≤ maxTokens := by
    rw [Json.count_after, List.length_append, KeyOf.length_spans, v.length_spans]
    omega
  have hrounds' : items.render.length ≤ rounds := by
    simp only [List.length_append, List.length_cons] at hrounds
    omega
  have hnext := ihItems room (lt_of_le_of_lt (le_max_right _ _) hroom) _ rest rounds
    (Json.fits_after hfits hrow (k.spans j.pos j.count ++
      v.spans (j.pos + k.render.length + before.val.length) (j.count + k.count))) rfl hcount' hrounds'
  rw [hnext, Json.after_after, Json.pos_after hfits hrow, Json.count_after, Items.spans]
  simp only [List.length_append, KeyOf.length_spans, Value.length_spans, List.length_singleton,
    List.append_assoc, Nat.add_assoc]

end Entry

/-- Every value is read where there is room. -/
theorem Value.isRead (v : Value) : v.IsRead :=
  Value.induction (P := Value.IsRead) (Q := fun _ items => items.IsRead)
    Value.isRead_scalar Value.isRead_empty (fun _ _ ih => Value.isRead_full ih)
    (fun _ _ _ _ _ ih => Items.isRead_last ih) (fun _ _ _ _ _ _ ih ihItems =>
      Items.isRead_cons ih ihItems) v

/-! ### From tokens to texts -/

/-- Between two states the reader has passed a piece of text and counted `n` values. -/
structure Json.Passed (j j' : Json) (text : Bytes) (n : ℕ) : Prop where
  rest : j.rest = text ++ j'.rest
  count : j'.count = j.count + n
  limit : j.count ≤ maxTokens → j'.count ≤ maxTokens

namespace Json.Passed

variable {j j' j'' : Json} {text text' : Bytes} {n n' : ℕ}

theorem trans (h : j.Passed j' text n) (h' : j'.Passed j'' text' n') :
    j.Passed j'' (text ++ text') (n + n') where
  rest := by rw [h.rest, h'.rest, List.append_assoc]
  count := by rw [h'.count, h.count, Nat.add_assoc]
  limit := fun hj => h'.limit (h.limit hj)

theorem refl (j : Json) : j.Passed j [] 0 where
  rest := rfl
  count := rfl
  limit := id

theorem noZero (h : j.Passed j' text n) (hzero : 0 ∉ j.rest) : 0 ∉ j'.rest := by
  rw [h.rest, List.mem_append, not_or] at hzero
  exact hzero.2

/-- The byte at the front is passed. -/
theorem cons {c : UInt8} {rest : Bytes} (h : j.rest = c :: rest) :
    j.Passed { j with rest } [c] 0 where
  rest := h
  count := rfl
  limit := id

end Json.Passed

theorem passed_jspace {j : Json} (hzero : 0 ∉ j.rest) :
    ∃ blank, IsBlank blank ∧ j.Passed (jspace j) blank 0 := by
  refine ⟨j.rest.takeWhile (strchr blanks), ?_, List.takeWhile_append_dropWhile.symm, rfl, id⟩
  intro c hc
  have hne : c ≠ 0 := by
    rintro rfl
    exact hzero ((List.takeWhile_sublist _).subset hc)
  exact (strchr_iff hne).mp (List.mem_takeWhile_imp hc)

/-- What the reader has passed is a value behind blanks. -/
def Json.PassedValue (j j' : Json) (room : ℕ) : Prop :=
  ∃ (before : Bytes) (v : Value), IsBlank before ∧ v.depth < room ∧
    j.Passed j' (before ++ v.render) v.count

section Sound

variable {room : ℕ} {j j' : Json}

/-- A value that begins with a quotation mark is a string. -/
theorem string_of_head {v : Value} {before rest rest' : Bytes} (hbefore : IsBlank before)
    (h : 34 :: rest = before ++ (v.render ++ rest')) :
    before = [] ∧ ∃ cs, IsChars cs ∧ v.render = 34 :: (cs ++ [34]) ∧ v.count = 1 := by
  obtain ⟨tail, htail, -, -⟩ := v.head
  have hnil : before = [] := by
    cases before with
    | nil => rfl
    | cons c before =>
      have hc := hbefore c List.mem_cons_self
      rw [← (List.cons.inj h).1] at hc
      exact absurd hc (by decide)
  subst hnil
  rw [htail] at h
  have hkind : v.kind = 34 := (List.cons.inj h).1.symm
  refine ⟨rfl, ?_⟩
  cases v with
  | scalar text =>
    rcases scalar_cases text.property with hplain | ⟨cs, hcs, hstring⟩
    · obtain ⟨c, cs, hc, hquote, -⟩ := plain_head hplain
      refine absurd ?_ hquote
      rw [← hkind, Value.kind, hc]
      rfl
    · exact ⟨cs, hcs, hstring, rfl⟩
  | empty object blank =>
    cases object with
    | false => exact absurd hkind (by change ¬ (91 : UInt8) = 34; decide)
    | true => exact absurd hkind (by change ¬ (123 : UInt8) = 34; decide)
  | full object items =>
    cases object with
    | false => exact absurd hkind (by change ¬ (91 : UInt8) = 34; decide)
    | true => exact absurd hkind (by change ¬ (123 : UInt8) = 34; decide)

/-- What stands before the value of an entry is a key, in an object. -/
theorem render_of_key (hvalue : ∀ (j : Json) out, 0 ∉ j.rest → jvalue room j = some out →
      j.PassedValue out.2 room) {object : Bool} (hzero : 0 ∉ j.rest)
    (h : key (jvalue room) object j = some j') :
    ∃ k : KeyOf object, j.Passed j' k.render k.count := by
  cases object with
  | false =>
    obtain rfl := Option.some.inj h
    exact ⟨(), .refl j⟩
  | true =>
    rw [key, if_pos rfl] at h
    dsimp only at h
    split_ifs at h with hhead
    obtain ⟨out, hout, h⟩ := Option.bind_eq_some_iff.mp h
    obtain ⟨before, hbefore, hspace⟩ := passed_jspace hzero
    obtain ⟨inner, v, hinner, -, hpassed⟩ := hvalue _ out (hspace.noZero hzero) hout
    obtain ⟨tail, htail⟩ := List.head?_eq_some_iff.mp hhead
    obtain ⟨rfl, cs, hcs, hrender, hcount⟩ := string_of_head hinner
      (htail.symm.trans (hpassed.rest.trans (List.append_assoc ..)))
    obtain ⟨after, hafter, hspace'⟩ := passed_jspace (hpassed.noZero (hspace.noZero hzero))
    split at h
    · next rest hcolon =>
      obtain rfl := Option.some.inj h
      refine ⟨Key.mk ⟨before, hbefore⟩ ⟨cs, hcs⟩ ⟨after, hafter⟩, ?_⟩
      have hall := ((hspace.trans hpassed).trans hspace').trans (.cons hcolon)
      rw [hrender, hcount] at hall
      change j.Passed _ (before ++ (34 :: (cs ++ [34]) ++ (after ++ [58]))) 1
      simpa only [List.append_assoc, List.nil_append] using hall
    · cases h

/-- What the loop has passed are entries and the closing bracket. -/
theorem render_of_entries (hvalue : ∀ (j : Json) out, 0 ∉ j.rest → jvalue room j = some out →
      j.PassedValue out.2 room) {object : Bool} {rounds : ℕ} (hzero : 0 ∉ j.rest)
    (h : entries (jvalue room) object rounds j = some j') :
    ∃ items : Items object, items.depth < room ∧
      j.Passed j' (items.render ++ [closing object]) items.count := by
  induction rounds generalizing j with
  | zero => cases h
  | succ rounds ih =>
    rw [entries] at h
    obtain ⟨j₁, hkey, h⟩ := Option.bind_eq_some_iff.mp h
    obtain ⟨out, hout, h⟩ := Option.bind_eq_some_iff.mp h
    obtain ⟨k, hpassed₁⟩ := render_of_key hvalue hzero hkey
    obtain ⟨before, v, hbefore, hdepth, hpassed₂⟩ := hvalue _ out (hpassed₁.noZero hzero) hout
    have hzero₂ := hpassed₂.noZero (hpassed₁.noZero hzero)
    obtain ⟨after, hafter, hspace⟩ := passed_jspace hzero₂
    have hall := (hpassed₁.trans hpassed₂).trans hspace
    dsimp only at h
    split at h
    · cases h
    · next c rest hrest =>
      have hbyte := hall.trans (.cons hrest)
      split_ifs at h with hclosing hcomma
      · obtain rfl := Option.some.inj h
        refine ⟨.last k ⟨before, hbefore⟩ v ⟨after, hafter⟩, hdepth, ?_⟩
        rw [Items.render, Items.count]
        rw [hclosing] at hbyte
        simpa only [List.append_assoc, Nat.add_zero] using hbyte
      · obtain ⟨items, hitems, hpassed⟩ := ih (hbyte.noZero hzero) h
        refine ⟨.cons k ⟨before, hbefore⟩ v ⟨after, hafter⟩ items, ?_, ?_⟩
        · rw [Items.depth]
          exact max_lt hdepth hitems
        · rw [Items.render, Items.count]
          rw [hcomma] at hbyte
          simpa only [List.append_assoc, List.cons_append, List.nil_append, Nat.add_zero,
            Nat.add_assoc] using hbyte.trans hpassed

/-- What is inside of an object or an array. -/
theorem render_of_contents (hvalue : ∀ (j : Json) out, 0 ∉ j.rest → jvalue room j = some out →
      j.PassedValue out.2 room) {object : Bool} (hzero : 0 ∉ j.rest)
    (h : contents (jvalue room) object j = some j') :
    ∃ (v : Value) (tail : Bytes), v.depth < room + 1 ∧ v.render = opening object :: tail ∧
      ∃ n, v.count = n + 1 ∧ j.Passed j' tail n := by
  rw [contents] at h
  obtain ⟨blank, hblank, hspace⟩ := passed_jspace hzero
  split_ifs at h with hhead
  · obtain rfl := Option.some.inj h
    obtain ⟨tail, htail⟩ := List.head?_eq_some_iff.mp hhead
    refine ⟨.empty object ⟨blank, hblank⟩, _, Nat.succ_pos room, rfl, 0, rfl, ?_⟩
    rw [htail]
    exact hspace.trans (.cons htail)
  · rw [entries_jspace] at h
    obtain ⟨items, hdepth, hpassed⟩ := render_of_entries hvalue hzero h
    exact ⟨.full object items, _, Nat.succ_lt_succ hdepth, rfl, items.count, rfl, hpassed⟩

theorem render_of_inside (hvalue : ∀ (j : Json) out, 0 ∉ j.rest → jvalue room j = some out →
      j.PassedValue out.2 room) {kind : UInt8} (hzero : 0 ∉ j.rest)
    (h : inside (jvalue room) kind j = some j') :
    ∃ (v : Value) (tail : Bytes), v.depth < room + 1 ∧ v.render = kind :: tail ∧
      ∃ n, v.count = n + 1 ∧ j.Passed j' tail n := by
  rw [inside] at h
  split_ifs at h with hquote hbrace hbracket
  · obtain ⟨rest, hskip, rfl⟩ := Option.map_eq_some_iff.mp h
    obtain ⟨cs, hcs, htext⟩ := chars_of_skipString hzero hskip
    refine ⟨.scalar ⟨34 :: (cs ++ [34]), .inr (.inr ⟨cs, hcs, rfl⟩)⟩, cs ++ [34], Nat.succ_pos room,
      by rw [hquote]; rfl, 0, rfl, ?_, rfl, id⟩
    rw [htext, List.append_assoc]
    rfl
  · rw [hbrace]
    exact render_of_contents hvalue hzero h
  · rw [hbracket]
    exact render_of_contents hvalue hzero h
  · obtain ⟨rest, hskip, rfl⟩ := Option.map_eq_some_iff.mp h
    obtain ⟨plain, hplain, htext⟩ := plain_of_skipPlain hskip
    obtain ⟨c, cs, rfl, -⟩ := plain_head hplain
    obtain ⟨rfl, hrest⟩ := List.cons.inj htext
    exact ⟨.scalar ⟨_, or_assoc.mp (.inl hplain)⟩, cs, Nat.succ_pos room, rfl, 0, rfl, hrest, rfl, id⟩

end Sound

/-- Whatever the reader passes is a value. -/
theorem passed_of_jvalue (room : ℕ) (j : Json) (out : ℕ × Json) (hzero : 0 ∉ j.rest)
    (h : jvalue room j = some out) : j.PassedValue out.2 room := by
  induction room generalizing j out with
  | zero => cases h
  | succ room ih =>
    obtain ⟨before, hbefore, hspace⟩ := passed_jspace hzero
    rw [jvalue] at h
    split_ifs at h with hfull
    split at h
    · cases h
    · next kind rest hrest =>
      obtain ⟨j', hinside, rfl⟩ := Option.map_eq_some_iff.mp h
      have hzero' : 0 ∉ rest := fun hmem =>
        hspace.noZero hzero (hrest ▸ List.mem_cons_of_mem kind hmem)
      obtain ⟨v, tail, hdepth, hrender, n, hcount, hpassed⟩ := render_of_inside ih hzero' hinside
      have hclose : (close (jspace j).count j').count = j'.count := List.length_modify ..
      have hopened : ((jspace j).opened kind rest).count = j.count + 1 := by
        rw [Json.opened_count, hspace.count]
      have hlimit : ((jspace j).opened kind rest).count ≤ maxTokens := by
        have hcount := hspace.count
        omega
      refine ⟨before, v, hbefore, hdepth, ?_, ?_, ?_⟩
      · have hrow : rest = tail ++ j'.rest := hpassed.rest
        rw [hspace.rest, hrest, hrow, hrender]
        simp only [List.append_assoc, List.cons_append]
        rfl
      · rw [hclose, hpassed.count, hopened, hcount]
        omega
      · intro _
        rw [hclose]
        exact hpassed.limit hlimit

/-! ### The whole text -/

theorem ends_of_blank {blank : Bytes} (hblank : IsBlank blank) : Ends blank := by
  have hends : Ends (blank ++ []) := ends_blank hblank fun c hc => absurd hc (by simp)
  rwa [List.append_nil] at hends

/-- Where there is no more than blanks, nothing is left. -/
theorem jspace_blank {j : Json} (hblank : IsBlank j.rest) : (jspace j).rest = [] := by
  have hspace : jspace j = j.after [] [] :=
    jspace_eq hblank (fun c hc => absurd hc (by simp)) (List.append_nil _).symm
  rw [hspace]
  rfl

/-- A text that keeps the limits is read. -/
theorem jparse_render (text : JsonText) (hcount : text.value.count ≤ maxTokens)
    (hdepth : text.value.depth ≤ maxDepth) :
    jparse text.render = some (text.spans.map Span.token) := by
  have hread := text.value.isRead (maxDepth + 1) (Nat.lt_succ_of_le hdepth)
    { length := text.render.length, rest := text.render, t := [] } text.before.val text.after.val
    le_rfl text.before.property (ends_of_blank text.after.property) rfl
    (by
      change 0 + text.value.count ≤ maxTokens
      omega)
  have hpos : ({ length := text.render.length, rest := text.render, t := [] } : Json).pos = 0 :=
    Nat.sub_self _
  rw [hpos, Nat.zero_add] at hread
  have hend : (jspace (({ length := text.render.length, rest := text.render, t := [] } : Json).after
      text.after.val (text.value.spans text.before.val.length 0))).rest = [] :=
    jspace_blank text.after.property
  rw [jparse, hread]
  exact if_pos hend

/-- What is read is a text that keeps the limits. -/
theorem render_of_jparse {s : Bytes} (hzero : 0 ∉ s) {tokens : List JsonToken}
    (h : jparse s = some tokens) :
    ∃ text : JsonText, text.render = s ∧ text.value.count ≤ maxTokens ∧
      text.value.depth ≤ maxDepth := by
  rw [jparse] at h
  split at h
  · next j hj =>
    split_ifs at h with hend
    obtain ⟨before, v, hbefore, hdepth, hpassed⟩ := passed_of_jvalue _ _ _ hzero hj
    obtain ⟨after, hafter, hspace⟩ := passed_jspace (hpassed.noZero hzero)
    have hcount := hpassed.count
    have hlimit := hpassed.limit (Nat.zero_le _)
    refine ⟨⟨⟨before, hbefore⟩, v, ⟨after, hafter⟩⟩, ?_, ?_, Nat.le_of_lt_succ hdepth⟩
    · have hrow := hpassed.rest
      have hrow' := hspace.rest
      rw [hend, List.append_nil] at hrow'
      dsimp only at hrow hrow'
      rw [hrow', List.append_assoc] at hrow
      exact hrow.symm
    · change j.count = 0 + v.count at hcount
      dsimp only at hlimit ⊢
      omega
  · cases h

/-- With blanks in front and behind, the reader passes exactly the JSON texts that keep the
limits. -/
theorem jparse_eq_some {s : Bytes} (hzero : 0 ∉ s) {tokens : List JsonToken} :
    jparse s = some tokens ↔
      ∃ text : JsonText, text.render = s ∧ text.value.count ≤ maxTokens ∧
        text.value.depth ≤ maxDepth ∧ tokens = text.spans.map Span.token := by
  constructor
  · intro h
    obtain ⟨text, rfl, hcount, hdepth⟩ := render_of_jparse hzero h
    rw [jparse_render text hcount hdepth] at h
    exact ⟨text, rfl, hcount, hdepth, (Option.some.inj h).symm⟩
  · rintro ⟨text, rfl, hcount, hdepth, rfl⟩
    exact jparse_render text hcount hdepth

/-! ### Offsets -/

theorem bmod_of_lt {n m : ℕ} (h : n * 2 < m) : Int.bmod n m = n :=
  Int.bmod_eq_of_le_mul_two (by omega) (by omega)

theorem cint_of_lt {n : ℕ} (h : n < 2 ^ 31) : cint n = n := bmod_of_lt (by omega)

/-- Every place lies in the text. -/
theorem Belong.bound {text : Bytes} {index : ℕ} {spans : List Span} {values : List Value}
    (h : Belong text index spans values) : ∀ s ∈ spans, s.start ≤ s.stop ∧ s.stop ≤ text.length := by
  induction spans generalizing index values with
  | nil => exact fun s hs => absurd hs List.not_mem_nil
  | cons s spans ih =>
    cases values with
    | nil => exact h.elim
    | cons v values =>
      refine List.forall_mem_cons.mpr ⟨⟨?_, h.1.bound⟩, ih h.2⟩
      rw [h.1.stop]
      omega

/-- Zero is returned exactly for the JSON texts within the limits. The tokens are then those of
the values in their order, with offsets as they are stored in an `int`, which are exact for a
text of less than 2 GiB. -/
theorem jparse_spec {s : Bytes} (hzero : 0 ∉ s) :
    ((jparse s).isSome ↔ ∃ text : JsonText, text.render = s ∧ text.value.count ≤ maxTokens ∧
      text.value.depth ≤ maxDepth) ∧
    ∀ tokens, jparse s = some tokens →
      ∃ text : JsonText, text.render = s ∧ tokens = text.spans.map Span.token ∧
        Belong s 0 text.spans text.value.nodes ∧
        (s.length < 2 ^ 31 →
          ∀ span ∈ text.spans, span.token.start = span.start ∧ span.token.stop = span.stop) := by
  constructor
  · constructor
    · intro h
      obtain ⟨tokens, htokens⟩ := Option.isSome_iff_exists.mp h
      exact render_of_jparse hzero htokens
    · rintro ⟨text, rfl, hcount, hdepth⟩
      rw [jparse_render text hcount hdepth]
      rfl
  · intro tokens h
    obtain ⟨text, rfl, -, -, htokens⟩ := (jparse_eq_some hzero).mp h
    have hbelong : Belong text.render 0 text.spans text.value.nodes :=
      text.value.belong text.render text.before.val text.after.val 0 rfl
    refine ⟨text, rfl, htokens, hbelong, fun hlength span hspan => ?_⟩
    obtain ⟨hstart, hstop⟩ := hbelong.bound span hspan
    have hstart' : cint span.start = span.start := cint_of_lt (by omega)
    have hstop' : cint span.stop = span.stop := cint_of_lt (by omega)
    simp only [Span.token, hstart', hstop', and_self]

/-- `{"a": [1, true]}` -/
def smallText : Bytes := [123, 34, 97, 34, 58, 32, 91, 49, 44, 32, 116, 114, 117, 101, 93, 125]

theorem smallText_tokens :
    ∃ text : JsonText, text.render = smallText ∧
      text.spans.map Span.token =
        [⟨0, 16, 5, 123⟩, ⟨1, 4, 2, 34⟩, ⟨6, 15, 5, 91⟩, ⟨7, 8, 4, 49⟩, ⟨10, 14, 5, 116⟩] := by
  obtain ⟨text, htext, htokens, -⟩ := (jparse_spec (s := smallText) (by decide)).2
    [⟨0, 16, 5, 123⟩, ⟨1, 4, 2, 34⟩, ⟨6, 15, 5, 91⟩, ⟨7, 8, 4, 49⟩, ⟨10, 14, 5, 116⟩]
    (by decide)
  exact ⟨text, htext, htokens.symm⟩

/-- A zero behind blanks. -/
theorem jparse_blanks (n : ℕ) :
    jparse (List.replicate n 32 ++ [48]) =
      some [{ start := cint n, stop := cint (n + 1), next := 1, kind := 48 }] := by
  have hblank : IsBlank (List.replicate n 32) := by
    intro c hc
    rw [List.eq_of_mem_replicate hc]
    decide
  have hzero : IsScalar [48] :=
    .inr (.inl ⟨[], [48], [], [], .inl rfl, .inl rfl, .inl rfl, .inl rfl, rfl⟩)
  have hread := jparse_render
    { before := ⟨List.replicate n 32, hblank⟩, value := .scalar ⟨[48], hzero⟩,
      after := ⟨[], isBlank_nil⟩ } (show 1 ≤ maxTokens by decide) (Nat.zero_le _)
  simp only [JsonText.render, JsonText.spans, Value.render, Value.spans, Value.count, Value.kind,
    List.length_replicate, List.length_singleton, List.append_nil, List.map_cons, List.map_nil,
    Span.token, List.headD_cons, Nat.zero_add] at hread
  exact hread

theorem cint_wrap : cint (2 ^ 31) = -2147483648 ∧ cint (2 ^ 31 + 1) = -2147483647 := by
  decide

/-- Behind 2 GiB of blanks the offsets of a value are negative. -/
theorem offsets_negative :
    jparse (List.replicate (2 ^ 31) 32 ++ [48]) =
      some [{ start := -2147483648, stop := -2147483647, next := 1, kind := 48 }] := by
  rw [jparse_blanks, cint_wrap.1, cint_wrap.2]

end ForgeOS.Native
