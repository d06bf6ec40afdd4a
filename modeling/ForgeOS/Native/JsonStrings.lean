import ForgeOS.Native.JsonParser

/-! Strings of a JSON text and members of an object, `jstring` and `jkey`, over the tokens that the
reader has stored. Both go through the text by offsets; every byte and every token that they look at
is read under a check here, and outside of the text and the table there is nothing to read. -/

namespace ForgeOS.Native

/-! ### Strings -/

/-- `j->s[p]`, in the text. -/
def byte (s : Bytes) (p : ℤ) : Option UInt8 := if 0 ≤ p then s[p.toNat]? else none

/-- `j->t[at]`, among those that are parsed. -/
def token (t : List JsonToken) (index : ℤ) : Option JsonToken :=
  if 0 ≤ index then t[index.toNat]? else none

/-- What stands for itself behind a backslash, and what does not. -/
def unescape (c : UInt8) : UInt8 :=
  if c = 110 then 10
  else if c = 114 then 13
  else if c = 116 then 9
  else if c = 98 then 8
  else if c = 102 then 12
  else c

/-- `v = v * 16 + …` -/
def hexStep (v : UInt32) (d : UInt8) : UInt32 :=
  v * 16 + if d ≤ 57 then d.toUInt32 - 48 else (d ||| 32).toUInt32 - 97 + 10

def hexValue (digits : Bytes) : UInt32 := digits.foldl hexStep 0

/-- A question mark for what is not printable. -/
def charOfCode (v : UInt32) : UInt8 := if 32 ≤ v ∧ v ≤ 126 then v.toUInt8 else 63

/-- The character at `p`, and where its last byte is. -/
def jchar (s : Bytes) (p : ℤ) : Option (UInt8 × ℤ) := do
  let c ← byte s p
  if c = 92 then
    let c ← byte s (p + 1)
    if c = 117 then
      let h₁ ← byte s (p + 2)
      let h₂ ← byte s (p + 3)
      let h₃ ← byte s (p + 4)
      let h₄ ← byte s (p + 5)
      return (charOfCode (hexValue [h₁, h₂, h₃, h₄]), p + 5)
    else return (unescape c, p + 1)
  else return (c, p)

/-- The loop of `jstring`. Nothing is returned where it would read outside of the text. -/
def copyString (s : Bytes) (stop : ℤ) (cap : ℕ) : ℕ → ℤ → Bytes → Option (Option Bytes)
  | 0, _, _ => none
  | rounds + 1, p, out =>
    if p < stop then do
      let (c, p) ← jchar s p
      if cap ≤ out.length + 1 then return none
      copyString s stop cap rounds (p + 1) (out ++ [c])
    else some (some out)

/-- `jstring`, with the string that is left in `out` if it returns zero. -/
def jstring (s : Bytes) (t : List JsonToken) (index : ℤ) (cap : ℕ) : Option (Option Bytes) :=
  match token t index with
  | none => some none
  | some string =>
    if string.kind ≠ 34 ∨ cap = 0 then some none
    else
      copyString s (string.stop - 1) cap ((string.stop - string.start).toNat + 1)
        (string.start + 1) []

/-- What the characters of a string stand for. -/
def decode : Bytes → Bytes
  | 92 :: 117 :: h₁ :: h₂ :: h₃ :: h₄ :: cs => charOfCode (hexValue [h₁, h₂, h₃, h₄]) :: decode cs
  | 92 :: c :: cs => unescape c :: decode cs
  | c :: cs => c :: decode cs
  | [] => []

/-! ### Members -/

/-- The loop of `jkey`. -/
def searchKey (s : Bytes) (t : List JsonToken) (key : Bytes) (next : ℕ) : ℕ → ℕ → Option ℤ
  | 0, _ => none
  | rounds + 1, p =>
    if p < next then do
      let value := p + 1
      if t.length ≤ value then return -1
      let name ← jstring s t p 80
      if name = some key then return value
      let v ← token t value
      searchKey s t key next rounds v.next
    else some (-1)

/-- `jkey`. Nothing is returned where it would read outside of the text or of the parsed tokens. -/
def jkey (s : Bytes) (t : List JsonToken) (object : ℤ) (key : Bytes) : Option ℤ :=
  if object < 0 then some (-1)
  else do
    let o ← token t object
    if o.kind ≠ 123 then return -1
    searchKey s t key o.next (t.length + 1) (object.toNat + 1)

/-! ### Characters -/

theorem byte_append (before cs : Bytes) (k : ℕ) :
    byte (before ++ cs) (before.length + k) = cs[k]? := by
  have hpos : (0 : ℤ) ≤ before.length + k := by omega
  have hnat : ((before.length : ℤ) + k).toNat = before.length + k := by omega
  rw [byte, if_pos hpos, hnat, List.getElem?_append_right (Nat.le_add_right _ _),
    Nat.add_sub_cancel_left]

theorem byte_here (before : Bytes) (c : UInt8) (cs : Bytes) :
    byte (before ++ c :: cs) before.length = some c := byte_append before (c :: cs) 0

theorem jchar_plain {c : UInt8} (hc : c ≠ 92) (before cs : Bytes) :
    jchar (before ++ c :: cs) before.length = some (c, (before.length : ℤ)) := by
  simp only [jchar, byte_here, Option.bind_eq_bind, Option.bind_some, if_neg hc, Option.pure_def]

theorem jchar_escape {c : UInt8} (hc : c ≠ 117) (before cs : Bytes) :
    jchar (before ++ 92 :: c :: cs) before.length =
      some (unescape c, (before.length : ℤ) + 1) := by
  have hsecond : byte (before ++ 92 :: c :: cs) (before.length + 1) = some c :=
    byte_append before _ 1
  simp only [jchar, byte_here, hsecond, Option.bind_eq_bind, Option.bind_some, if_true, if_neg hc,
    Option.pure_def]

theorem jchar_unicode (before cs : Bytes) (h₁ h₂ h₃ h₄ : UInt8) :
    jchar (before ++ 92 :: 117 :: h₁ :: h₂ :: h₃ :: h₄ :: cs) before.length =
      some (charOfCode (hexValue [h₁, h₂, h₃, h₄]), (before.length : ℤ) + 5) := by
  have hbyte := byte_append before (92 :: 117 :: h₁ :: h₂ :: h₃ :: h₄ :: cs)
  have h1 : byte (before ++ 92 :: 117 :: h₁ :: h₂ :: h₃ :: h₄ :: cs) (before.length + 1) =
    some 117 := hbyte 1
  have h2 : byte (before ++ 92 :: 117 :: h₁ :: h₂ :: h₃ :: h₄ :: cs) (before.length + 2) =
    some h₁ := hbyte 2
  have h3 : byte (before ++ 92 :: 117 :: h₁ :: h₂ :: h₃ :: h₄ :: cs) (before.length + 3) =
    some h₂ := hbyte 3
  have h4 : byte (before ++ 92 :: 117 :: h₁ :: h₂ :: h₃ :: h₄ :: cs) (before.length + 4) =
    some h₃ := hbyte 4
  have h5 : byte (before ++ 92 :: 117 :: h₁ :: h₂ :: h₃ :: h₄ :: cs) (before.length + 5) =
    some h₄ := hbyte 5
  simp only [jchar, byte_here, h1, h2, h3, h4, h5, Option.bind_eq_bind, Option.bind_some, if_true,
    Option.pure_def]

theorem decode_plain {c : UInt8} (hc : c ≠ 92) (cs : Bytes) : decode (c :: cs) = c :: decode cs := by
  rw [decode.eq_def]
  split
  · next heq =>
    cases heq
    exact absurd rfl hc
  · next heq =>
    cases heq
    exact absurd rfl hc
  · next heq =>
    cases heq
    rfl
  · next heq => cases heq

theorem decode_escape {c : UInt8} (hc : c ≠ 117) (cs : Bytes) :
    decode (92 :: c :: cs) = unescape c :: decode cs := by
  rw [decode.eq_def]
  split
  · next heq =>
    cases heq
    exact absurd rfl hc
  · next heq =>
    cases heq
    rfl
  · next hno heq =>
    cases heq
    exact absurd rfl (hno c cs rfl)
  · next heq => cases heq

theorem decode_unicode (h₁ h₂ h₃ h₄ : UInt8) (cs : Bytes) :
    decode (92 :: 117 :: h₁ :: h₂ :: h₃ :: h₄ :: cs) =
      charOfCode (hexValue [h₁, h₂, h₃, h₄]) :: decode cs := by
  rw [decode.eq_def]
  rfl

/-- One round of the loop, over the bytes of a character. -/
theorem copyString_succ {s : Bytes} {stop p p' : ℤ} {cap rounds : ℕ} {out : Bytes} {c : UInt8}
    (hp : p < stop) (hc : jchar s p = some (c, p')) :
    copyString s stop cap (rounds + 1) p out =
      if cap ≤ out.length + 1 then some none
      else copyString s stop cap rounds (p' + 1) (out ++ [c]) := by
  simp only [copyString, if_pos hp, hc, Option.bind_eq_bind, Option.bind_some, Option.pure_def]

/-- What the loop leaves in `out` for a string that is decoded to so much. -/
def fitting (cap : ℕ) (out : Bytes) : Option Bytes := if out.length < cap then some out else none

theorem fitting_of_le {cap : ℕ} {out : Bytes} (c : UInt8) (cs : Bytes) (h : cap ≤ out.length + 1) :
    fitting cap (out ++ c :: cs) = none := by
  rw [fitting, if_neg]
  rw [List.length_append, List.length_cons]
  omega

/-- A character that is longer than the loop has gone so far. -/
theorem copyString_chars {cs : Bytes} (h : IsChars cs) {s before behind : Bytes} {stop : ℤ}
    {cap rounds : ℕ} {out : Bytes} (hs : s = before ++ (cs ++ behind))
    (hstop : stop = before.length + cs.length) (hrounds : cs.length < rounds)
    (hout : out.length < cap) :
    copyString s stop cap rounds before.length out = some (fitting cap (out ++ decode cs)) := by
  induction h generalizing before rounds out with
  | nil =>
    obtain ⟨rounds, rfl⟩ : ∃ n, rounds = n + 1 := ⟨rounds - 1, by omega⟩
    have hp : ¬(before.length : ℤ) < stop := by
      rw [hstop, List.length_nil]
      omega
    rw [copyString, if_neg hp, decode, List.append_nil, fitting, if_pos hout]
  | @plain c cs hc hcs ih =>
    obtain ⟨rounds, rfl⟩ : ∃ n, rounds = n + 1 := ⟨rounds - 1, by omega⟩
    rw [List.length_cons] at hstop hrounds
    have hp : (before.length : ℤ) < stop := by omega
    have hchar : jchar s before.length = some (c, (before.length : ℤ)) := by
      rw [hs]
      exact jchar_plain hc.2.2 before (cs ++ behind)
    rw [copyString_succ hp hchar, decode_plain hc.2.2]
    split_ifs with hcap
    · rw [fitting_of_le c (decode cs) hcap]
    · have hnext : copyString s stop cap rounds (before ++ [c]).length (out ++ [c]) = _ := ih
        (by rw [hs]; simp) (by rw [hstop, List.length_append, List.length_singleton]; omega)
        (by omega) (by rw [List.length_append, List.length_singleton]; omega)
      rw [List.length_append, List.length_singleton, List.append_assoc] at hnext
      exact hnext
  | @escape c cs hc hcs ih =>
    obtain ⟨rounds, rfl⟩ : ∃ n, rounds = n + 1 := ⟨rounds - 1, by omega⟩
    have hu : c ≠ 117 := by
      rintro rfl
      revert hc
      decide
    rw [List.length_cons, List.length_cons] at hstop hrounds
    have hp : (before.length : ℤ) < stop := by omega
    have hchar : jchar s before.length = some (unescape c, (before.length : ℤ) + 1) := by
      rw [hs]
      exact jchar_escape hu before (cs ++ behind)
    rw [copyString_succ hp hchar, decode_escape hu]
    split_ifs with hcap
    · rw [fitting_of_le _ (decode cs) hcap]
    · have hnext : copyString s stop cap rounds (before ++ [92, c]).length (out ++ [unescape c]) = _ :=
        ih (by rw [hs]; simp) (by rw [hstop, List.length_append]; simp; omega)
        (by omega) (by rw [List.length_append, List.length_singleton]; omega)
      rw [List.length_append, List.append_assoc] at hnext
      exact hnext
  | @unicode h₁ h₂ h₃ h₄ cs hh hcs ih =>
    obtain ⟨rounds, rfl⟩ : ∃ n, rounds = n + 1 := ⟨rounds - 1, by omega⟩
    simp only [List.length_cons] at hstop hrounds
    have hp : (before.length : ℤ) < stop := by omega
    have hchar : jchar s before.length =
        some (charOfCode (hexValue [h₁, h₂, h₃, h₄]), (before.length : ℤ) + 5) := by
      rw [hs]
      exact jchar_unicode before (cs ++ behind) h₁ h₂ h₃ h₄
    rw [copyString_succ hp hchar, decode_unicode]
    split_ifs with hcap
    · rw [fitting_of_le _ (decode cs) hcap]
    · have hnext : copyString s stop cap rounds (before ++ [92, 117, h₁, h₂, h₃, h₄]).length
          (out ++ [charOfCode (hexValue [h₁, h₂, h₃, h₄])]) = _ := ih
        (by rw [hs]; simp) (by rw [hstop, List.length_append]; simp; omega)
        (by omega) (by rw [List.length_append, List.length_singleton]; omega)
      rw [List.length_append, List.append_assoc] at hnext
      exact hnext

/-- The string that a token is for, if there is room for it. -/
theorem jstring_eq {s before cs behind : Bytes} {t : List JsonToken} {index : ℤ} {string : JsonToken}
    {cap : ℕ} (h : IsChars cs) (hs : s = before ++ (34 :: (cs ++ [34]) ++ behind))
    (htoken : token t index = some string) (hkind : string.kind = 34)
    (hstart : string.start = before.length)
    (hstop : string.stop = before.length + (cs.length + 2)) (hcap : 0 < cap) :
    jstring s t index cap = some (fitting cap (decode cs)) := by
  have hchars : s = (before ++ [34]) ++ (cs ++ (34 :: behind)) := by
    rw [hs]
    simp
  have hbegin : string.start + 1 = ((before ++ [34]).length : ℤ) := by
    rw [hstart, List.length_append]
    rfl
  have hend : string.stop - 1 = ((before ++ [34]).length : ℤ) + cs.length := by
    rw [hstop, List.length_append, List.length_singleton]
    omega
  have hrounds : cs.length < (string.stop - string.start).toNat + 1 := by omega
  have hno : ¬(string.kind ≠ 34 ∨ cap = 0) := by
    rintro (hne | h0)
    · exact hne hkind
    · omega
  rw [jstring, htoken]
  dsimp only
  rw [if_neg hno, hbegin, copyString_chars h hchars hend hrounds hcap, List.nil_append]

/-! ### Direct members -/

/-- What a key stands for. -/
def KeyOf.name : {object : Bool} → KeyOf object → Bytes
  | true, key => decode key.chars.val
  | false, _ => []

/-- A member of an object, with the number of its value. -/
structure Member where
  name : Bytes
  index : ℕ
  value : Value

/-- The entries that begin with the value of this number. -/
def Items.members {object : Bool} (index : ℕ) : Items object → List Member
  | .last key _ value _ => [{ name := key.name, index := index + key.count, value }]
  | .cons key _ value _ rest =>
    { name := key.name, index := index + key.count, value } ::
      rest.members (index + key.count + value.count)

/-- The members of the value with this number, which has some only if it is an object. -/
def Value.members (index : ℕ) : Value → List Member
  | .full true items => items.members (index + 1)
  | _ => []

/-- The number of the value that is found, as `jkey` returns it. -/
def found (member : Option Member) : ℤ := (member.map fun m => (m.index : ℤ)).getD (-1)

theorem token_append {pre post : List JsonToken} {index : ℕ} (hindex : pre.length = index) (k : ℕ) :
    token (pre ++ post) ((index + k : ℕ) : ℤ) = post[k]? := by
  have hpos : (0 : ℤ) ≤ ((index + k : ℕ) : ℤ) := by omega
  rw [token, if_pos hpos, Int.toNat_natCast, List.getElem?_append_right (by omega)]
  congr 1
  omega

theorem fitting_eq {cap : ℕ} {name key : Bytes} (hkey : key.length < cap) :
    fitting cap name = some key ↔ name = key := by
  unfold fitting
  split_ifs with h
  · exact Option.some_inj
  · constructor
    · intro hnone
      cases hnone
    · rintro rfl
      exact absurd hkey h

section Search

variable {s key : Bytes} {t : List JsonToken}

/-- One member is looked at, and the next one is behind its value. -/
theorem searchKey_succ {k : KeyOf true} {value : Value} {before blank behind : Bytes}
    {pre post : List JsonToken} {index next start rounds : ℕ}
    (hs : s = before ++ (k.render ++ (blank ++ behind)))
    (hlength : s.length < 2 ^ 31)
    (ht : t = pre ++ ((k.spans before.length index).map Span.token ++
      ((value.spans start (index + 1)).map Span.token ++ post)))
    (hpre : pre.length = index) (hnext : index < next) (hkey : key.length < 80) :
    searchKey s t key next (rounds + 1) index =
      if k.name = key then some ((index + 1 : ℕ) : ℤ)
      else searchKey s t key next rounds (index + 1 + value.count) := by
  rw [Value.spans_eq, List.map_cons] at ht
  obtain ⟨kbefore, chars, kafter⟩ := k
  have hrow : s = (before ++ kbefore.val) ++
      (34 :: (chars.val ++ [34]) ++ (kafter.val ++ 58 :: (blank ++ behind))) := by
    rw [hs]
    simp [KeyOf.render]
  have hsize := congrArg List.length hrow
  simp only [List.length_append, List.length_cons, List.length_nil] at hsize
  have htokens : t = pre ++
      ({ start := cint (before.length + kbefore.val.length)
         stop := cint (before.length + kbefore.val.length + (chars.val.length + 2))
         next := index + 1, kind := 34 } ::
        { start := cint start, stop := cint (start + value.render.length)
          next := index + 1 + value.count, kind := value.kind } ::
          ((value.inner start (index + 1)).map Span.token ++ post)) := ht
  have hstring : token t ((index : ℕ) : ℤ) =
      some { start := cint (before.length + kbefore.val.length)
             stop := cint (before.length + kbefore.val.length + (chars.val.length + 2))
             next := index + 1, kind := 34 } := by
    rw [htokens]
    exact token_append hpre 0
  have hname : jstring s t ((index : ℕ) : ℤ) 80 = some (fitting 80 (decode chars.val)) := by
    have hstart : before.length + kbefore.val.length < 2 ^ 31 := by omega
    have hstop : before.length + kbefore.val.length + (chars.val.length + 2) < 2 ^ 31 := by omega
    refine jstring_eq chars.property hrow hstring rfl ?_ ?_ (by omega)
    · dsimp only
      rw [cint_of_lt hstart, List.length_append]
    · dsimp only
      rw [cint_of_lt hstop, List.length_append]
      omega
  have hvalue : token t ((index + 1 : ℕ) : ℤ) =
      some { start := cint start, stop := cint (start + value.render.length)
             next := index + 1 + value.count, kind := value.kind } := by
    rw [htokens]
    exact token_append hpre 1
  have hcount : ¬t.length ≤ index + 1 := by
    rw [htokens, List.length_append, List.length_cons, List.length_cons]
    omega
  rw [searchKey, if_pos hnext]
  simp only [hcount, if_false, hname, hvalue, Option.bind_eq_bind, Option.bind_some, Option.pure_def,
    fitting_eq hkey]
  rfl

/-- Behind the last member there is none. -/
theorem searchKey_end {next rounds : ℕ} (hrounds : 0 < rounds) :
    searchKey s t key next rounds next = some (-1) := by
  obtain ⟨rounds, rfl⟩ : ∃ n, rounds = n + 1 := ⟨rounds - 1, by omega⟩
  rw [searchKey, if_neg (Nat.lt_irrefl next)]

/-- The loop finds the first member of this name, from a key on to the end of the object. -/
theorem searchKey_items (hlength : s.length < 2 ^ 31) (hkey : key.length < 80) :
    ∀ (items : Items true) {before behind : Bytes} {pre post : List JsonToken} {index rounds : ℕ},
      s = before ++ (items.render ++ behind) →
      t = pre ++ ((items.spans before.length index).map Span.token ++ post) →
      pre.length = index → items.count < rounds →
      searchKey s t key (index + items.count) rounds index =
        some (found ((items.members index).find? fun m => m.name = key))
  | .last k blank value after, before, behind, pre, post, index, rounds, hs, ht, hpre, hrounds => by
    obtain ⟨rounds, rfl⟩ : ∃ n, rounds = n + 1 := ⟨rounds - 1, by omega⟩
    rw [Items.count] at hrounds ⊢
    have hcount : k.count = 1 := rfl
    have hrow : s = before ++ (k.render ++ (blank.val ++ (value.render ++ (after.val ++ behind)))) := by
      rw [hs, Items.render]
      simp only [List.append_assoc]
    rw [Items.spans, List.map_append, List.append_assoc] at ht
    rw [searchKey_succ hrow hlength ht hpre (by omega) hkey, Items.members, hcount]
    by_cases hname : k.name = key
    · rw [if_pos hname, List.find?_cons_of_pos (by simp [hname])]
      rfl
    · rw [if_neg hname, List.find?_cons_of_neg (by simp [hname]), ← Nat.add_assoc,
        searchKey_end (by omega)]
      rfl
  | .cons k blank value after rest, before, behind, pre, post, index, rounds, hs, ht, hpre,
      hrounds => by
    obtain ⟨rounds, rfl⟩ : ∃ n, rounds = n + 1 := ⟨rounds - 1, by omega⟩
    rw [Items.count] at hrounds ⊢
    have hcount : k.count = 1 := rfl
    have hrow : s = before ++ (k.render ++ (blank.val ++
        (value.render ++ (after.val ++ (44 :: rest.render ++ behind))))) := by
      rw [hs, Items.render]
      simp only [List.append_assoc]
    have hrest : s = (before ++ (k.render ++ (blank.val ++ (value.render ++ (after.val ++ [44]))))) ++
        (rest.render ++ behind) := by
      rw [hs, Items.render]
      simp only [List.append_assoc, List.cons_append, List.nil_append]
    rw [Items.spans, List.map_append, List.map_append, List.append_assoc, List.append_assoc] at ht
    rw [searchKey_succ hrow hlength ht hpre (by omega) hkey, Items.members, hcount]
    by_cases hname : k.name = key
    · rw [if_pos hname, List.find?_cons_of_pos (by simp [hname])]
      rfl
    · rw [if_neg hname, List.find?_cons_of_neg (by simp [hname])]
      have hplaces : t = (pre ++ ((k.spans before.length index).map Span.token ++
          (value.spans (before.length + k.render.length + blank.val.length)
            (index + k.count)).map Span.token)) ++
          ((rest.spans (before ++ (k.render ++ (blank.val ++ (value.render ++
            (after.val ++ [44]))))).length (index + 1 + value.count)).map Span.token ++ post) := by
        rw [ht]
        simp only [List.append_assoc, List.length_append, List.length_singleton, ← Nat.add_assoc,
          hcount]
      have hnext : searchKey s t key (index + 1 + value.count + rest.count) rounds
          (index + 1 + value.count) = _ := searchKey_items hlength hkey rest hrest hplaces
        (by simp only [List.length_append, List.length_map, KeyOf.length_spans, Value.length_spans]
            omega) (by omega)
      rw [← hnext]
      congr 1
      omega

end Search

/-! ### Where a value stands -/

/-- The value is in the text, and the tokens from this number on are for it. -/
def Placed (s : Bytes) (t : List JsonToken) (index : ℕ) (v : Value) : Prop :=
  ∃ before behind pre post, s = before ++ (v.render ++ behind) ∧
    t = pre ++ ((v.spans before.length index).map Span.token ++ post) ∧ pre.length = index

def PlacedItems (s : Bytes) (t : List JsonToken) (index : ℕ) {object : Bool} (items : Items object) :
    Prop :=
  ∃ before behind pre post, s = before ++ (items.render ++ behind) ∧
    t = pre ++ ((items.spans before.length index).map Span.token ++ post) ∧ pre.length = index

section Placed

variable {s : Bytes} {t : List JsonToken} {index : ℕ}

theorem Placed.items {object : Bool} {items : Items object} (h : Placed s t index (.full object items)) :
    PlacedItems s t (index + 1) items := by
  obtain ⟨before, behind, pre, post, hs, ht, hpre⟩ := h
  obtain ⟨first, hfirst⟩ : ∃ first, (Value.full object items).spans before.length index =
      first :: items.spans (before.length + 1) (index + 1) := ⟨_, by rw [Value.spans]⟩
  rw [hfirst, List.map_cons, List.cons_append] at ht
  refine ⟨before ++ [opening object], closing object :: behind, pre ++ [first.token], post,
    ?_, ?_, ?_⟩
  · rw [hs, Value.render]
    simp only [List.append_assoc, List.cons_append, List.nil_append]
  · rw [ht, List.length_append, List.append_assoc]
    rfl
  · rw [List.length_append, hpre]
    rfl

/-- The value of the last entry. -/
theorem PlacedItems.last {object : Bool} {key : KeyOf object} {blank after : Blank} {value : Value}
    (h : PlacedItems s t index (.last key blank value after)) :
    Placed s t (index + key.count) value := by
  obtain ⟨before, behind, pre, post, hs, ht, hpre⟩ := h
  rw [Items.spans, List.map_append, List.append_assoc] at ht
  refine ⟨before ++ (key.render ++ blank.val), after.val ++ behind,
    pre ++ (key.spans before.length index).map Span.token, post, ?_, ?_, ?_⟩
  · rw [hs, Items.render]
    simp only [List.append_assoc]
  · rw [ht]
    simp only [List.append_assoc, List.length_append, ← Nat.add_assoc]
  · rw [List.length_append, List.length_map, KeyOf.length_spans, hpre]

/-- The value of an entry, and the entries behind it. -/
theorem PlacedItems.cons {object : Bool} {key : KeyOf object} {blank after : Blank} {value : Value}
    {rest : Items object} (h : PlacedItems s t index (.cons key blank value after rest)) :
    Placed s t (index + key.count) value ∧
      PlacedItems s t (index + key.count + value.count) rest := by
  obtain ⟨before, behind, pre, post, hs, ht, hpre⟩ := h
  rw [Items.spans, List.map_append, List.map_append, List.append_assoc, List.append_assoc] at ht
  constructor
  · refine ⟨before ++ (key.render ++ blank.val), after.val ++ (44 :: rest.render ++ behind),
      pre ++ (key.spans before.length index).map Span.token,
      (rest.spans (before.length + key.render.length + blank.val.length + value.render.length +
        (after.val.length + 1)) (index + key.count + value.count)).map Span.token ++ post,
      ?_, ?_, ?_⟩
    · rw [hs, Items.render]
      simp only [List.append_assoc]
    · rw [ht]
      simp only [List.append_assoc, List.length_append, ← Nat.add_assoc]
    · rw [List.length_append, List.length_map, KeyOf.length_spans, hpre]
  · refine ⟨before ++ (key.render ++ (blank.val ++ (value.render ++ (after.val ++ [44])))), behind,
      pre ++ ((key.spans before.length index).map Span.token ++
        (value.spans (before.length + key.render.length + blank.val.length)
          (index + key.count)).map Span.token), post, ?_, ?_, ?_⟩
    · rw [hs, Items.render]
      simp only [List.append_assoc, List.cons_append, List.nil_append]
    · rw [ht]
      simp only [List.append_assoc, List.length_append, List.length_singleton, ← Nat.add_assoc]
    · simp only [List.length_append, List.length_map, KeyOf.length_spans, Value.length_spans, hpre,
        ← Nat.add_assoc]

theorem KeyOf.nodes_kind {object : Bool} (key : KeyOf object) : ∀ v ∈ key.nodes, v.kind = 34 := by
  cases object with
  | false => exact fun v hv => absurd hv List.not_mem_nil
  | true =>
    intro v hv
    rw [List.mem_singleton.mp hv]
    rfl

theorem KeyOf.length_nodes {object : Bool} (key : KeyOf object) : key.nodes.length = key.count := by
  cases object with
  | false => rfl
  | true => rfl

theorem Value.length_nodes (v : Value) : v.nodes.length = v.count := by
  refine Value.induction (P := fun v => v.nodes.length = v.count)
    (Q := fun object items => items.nodes.length = items.count) ?_ ?_ ?_ ?_ ?_ v
  · exact fun text => rfl
  · exact fun object blank => rfl
  · intro object items ih
    rw [Value.nodes, Value.count, List.length_cons, ih]
  · intro object key before value after ih
    rw [Items.nodes, Items.count, List.length_append, KeyOf.length_nodes, ih]
  · intro object key before value after rest ihValue ihRest
    rw [Items.nodes, Items.count, List.length_append, List.length_append, KeyOf.length_nodes,
      ihValue, ihRest]

/-- Every value in a value that stands somewhere stands at its own number, keys apart. -/
theorem Value.placed_node (v : Value) {w : Value} (hkind : w.kind ≠ 34) : ∀ {index i : ℕ},
    Placed s t index v → v.nodes[i]? = some w → Placed s t (index + i) w := by
  refine Value.induction
    (P := fun v => ∀ {index i : ℕ}, Placed s t index v → v.nodes[i]? = some w →
      Placed s t (index + i) w)
    (Q := fun object items => ∀ {index i : ℕ}, PlacedItems s t index items →
      items.nodes[i]? = some w → Placed s t (index + i) w) ?scalar ?empty ?full ?last ?cons v
  case scalar =>
    intro text index i h hw
    cases i with
    | zero =>
      cases hw
      exact h
    | succ i => cases hw
  case empty =>
    intro object blank index i h hw
    cases i with
    | zero =>
      cases hw
      exact h
    | succ i => cases hw
  case full =>
    intro object items ih index i h hw
    cases i with
    | zero =>
      cases hw
      exact h
    | succ i =>
      rw [Value.nodes, List.getElem?_cons_succ] at hw
      have hplaced := ih h.items hw
      rwa [Nat.add_right_comm, Nat.add_assoc] at hplaced
  case last =>
    intro object key before value after ih index i h hw
    rw [Items.nodes] at hw
    by_cases hi : i < key.nodes.length
    · rw [List.getElem?_append_left hi] at hw
      exact absurd (key.nodes_kind w (List.mem_of_getElem? hw)) hkind
    · rw [List.getElem?_append_right (by omega)] at hw
      have hplaced := ih h.last hw
      rw [KeyOf.length_nodes] at hi hplaced
      rwa [show index + key.count + (i - key.count) = index + i by omega] at hplaced
  case cons =>
    intro object key before value after rest ihValue ihRest index i h hw
    rw [Items.nodes] at hw
    by_cases hi : i < key.nodes.length
    · rw [List.getElem?_append_left hi] at hw
      exact absurd (key.nodes_kind w (List.mem_of_getElem? hw)) hkind
    · rw [List.getElem?_append_right (by omega)] at hw
      by_cases hj : i - key.nodes.length < value.nodes.length
      · rw [List.getElem?_append_left hj] at hw
        have hplaced := ihValue h.cons.1 hw
        rw [KeyOf.length_nodes] at hi hplaced
        rwa [show index + key.count + (i - key.count) = index + i by omega] at hplaced
      · rw [List.getElem?_append_right (by omega)] at hw
        have hplaced := ihRest h.cons.2 hw
        rw [KeyOf.length_nodes] at hi hj hplaced
        rw [Value.length_nodes] at hj hplaced
        rwa [show index + key.count + value.count + (i - key.count - value.count) = index + i by
          omega] at hplaced

/-- What the first token of a value says. -/
theorem Placed.token {v : Value} (h : Placed s t index v) :
    ∃ o, ForgeOS.Native.token t index = some o ∧ o.kind = v.kind ∧ o.next = index + v.count := by
  obtain ⟨before, behind, pre, post, -, ht, hpre⟩ := h
  rw [Value.spans_eq, List.map_cons] at ht
  have hfirst : ForgeOS.Native.token t index = some (Span.token
      { start := before.length, stop := before.length + v.render.length
        next := index + v.count, kind := v.kind }) := by
    rw [ht]
    exact token_append hpre 0
  exact ⟨_, hfirst, rfl, rfl⟩

theorem Placed.count_le {v : Value} (h : Placed s t index v) : index + v.count ≤ t.length := by
  obtain ⟨before, behind, pre, post, -, rfl, hpre⟩ := h
  rw [List.length_append, List.length_append, List.length_map, Value.length_spans]
  omega

/-- The tokens of a member are those of its value. -/
theorem PlacedItems.member {object : Bool} : ∀ (items : Items object) {index : ℕ},
    PlacedItems s t index items → ∀ m ∈ items.members index, Placed s t m.index m.value
  | .last _ _ _ _, _, h, m, hm => by
    rw [Items.members, List.mem_singleton] at hm
    rw [hm]
    exact h.last
  | .cons _ _ _ _ rest, _, h, m, hm => by
    rw [Items.members, List.mem_cons] at hm
    rcases hm with rfl | hm
    · exact h.cons.1
    · exact PlacedItems.member rest h.cons.2 m hm

theorem Placed.member {v : Value} (h : Placed s t index v) :
    ∀ m ∈ v.members index, Placed s t m.index m.value := by
  intro m hm
  cases v with
  | full object items =>
    cases object with
    | true => exact PlacedItems.member items h.items m hm
    | false => exact absurd hm List.not_mem_nil
  | _ => exact absurd hm List.not_mem_nil

end Placed

theorem Belong.get {text : Bytes} {spans : List Span} {values : List Value} {index i : ℕ}
    {span : Span} {v : Value} (h : Belong text index spans values) (hspan : spans[i]? = some span)
    (hv : values[i]? = some v) : span.Belongs text (index + i) v := by
  induction i generalizing index spans values with
  | zero =>
    cases spans with
    | nil => cases hspan
    | cons s spans =>
      cases values with
      | nil => cases hv
      | cons v' values =>
        cases hspan
        cases hv
        exact h.1
  | succ i ih =>
    cases spans with
    | nil => cases hspan
    | cons s spans =>
      cases values with
      | nil => cases hv
      | cons v' values =>
        have hbelongs := ih h.2 hspan hv
        rwa [Nat.add_right_comm, Nat.add_assoc] at hbelongs

/-- Only an object begins with a brace. -/
theorem object_of_kind {v : Value} (h : v.kind = 123) :
    (∃ blank, v = .empty true blank) ∨ ∃ items, v = .full true items := by
  cases v with
  | scalar text =>
    obtain ⟨text, hword | hnumber | ⟨cs, hcs, rfl⟩⟩ := text
    · obtain ⟨c, cs, rfl, -, hc, -⟩ := plain_head (.inl hword)
      exact absurd h hc
    · obtain ⟨c, cs, rfl, -, hc, -⟩ := plain_head (.inr hnumber)
      exact absurd h hc
    · exact absurd h (by decide : (34 : UInt8) ≠ 123)
  | empty object blank =>
    cases object with
    | false => exact absurd h (by decide : (91 : UInt8) ≠ 123)
    | true => exact .inl ⟨blank, rfl⟩
  | full object items =>
    cases object with
    | false => exact absurd h (by decide : (91 : UInt8) ≠ 123)
    | true => exact .inr ⟨items, rfl⟩

/-- The search over an object that stands in the text. -/
theorem jkey_of_placed {s key : Bytes} {t : List JsonToken} (hlength : s.length < 2 ^ 31)
    (hkey : key.length < 80) {object : ℕ} {v : Value} (h : Placed s t object v)
    (hkind : v.kind = 123) :
    jkey s t object key = some (found ((v.members object).find? fun m => m.name = key)) := by
  obtain ⟨o, ho, hok, hnext⟩ := h.token
  have hroom := h.count_le
  have hnonneg : ¬((object : ℕ) : ℤ) < 0 := by omega
  have hobject : ¬o.kind ≠ 123 := by
    rw [hok]
    exact not_not.mpr hkind
  rw [jkey, if_neg hnonneg, ho, Int.toNat_natCast]
  simp only [Option.bind_eq_bind, Option.bind_some, hobject, if_false, hnext]
  obtain ⟨blank, rfl⟩ | ⟨items, rfl⟩ := object_of_kind hkind
  · exact searchKey_end (Nat.succ_pos _)
  · obtain ⟨before, behind, pre, post, hs, ht, hpre⟩ := h.items
    rw [Value.count] at hroom ⊢
    have hsearch : searchKey s t key (object + 1 + items.count) (t.length + 1) (object + 1) = _ :=
      searchKey_items hlength hkey items hs ht hpre (by omega)
    rw [Value.members, ← hsearch]
    congr 1
    omega

/-- For an object in a text of less than 2 GiB, the value of the first direct member of this name is
found, or minus one is returned; and nothing is read outside of the text or of the parsed tokens. -/
theorem jkey_spec {s key : Bytes} (hzero : 0 ∉ s) (hlength : s.length < 2 ^ 31)
    (hkey : key.length < 80) {tokens : List JsonToken} (htokens : jparse s = some tokens)
    {object : ℕ} {o : JsonToken} (hobject : tokens[object]? = some o) (hkind : o.kind = 123) :
    ∃ text : JsonText, text.render = s ∧ tokens = text.spans.map Span.token ∧
      ∃ v, text.value.nodes[object]? = some v ∧
        jkey s tokens object key =
          some (found ((v.members object).find? fun m => m.name = key)) ∧
        ∀ m ∈ v.members object, Placed s tokens m.index m.value := by
  obtain ⟨text, rfl, -, -, rfl⟩ := (jparse_eq_some hzero).mp htokens
  have hbelong : Belong text.render 0 text.spans text.value.nodes :=
    text.value.belong text.render text.before.val text.after.val 0 rfl
  rw [List.getElem?_map, Option.map_eq_some_iff] at hobject
  obtain ⟨span, hspan, rfl⟩ := hobject
  obtain ⟨hlt, -⟩ := List.getElem?_eq_some_iff.mp hspan
  have hcount : text.spans.length = text.value.nodes.length := by
    rw [JsonText.spans, Value.length_spans, Value.length_nodes]
  obtain ⟨v, hv⟩ : ∃ v, text.value.nodes[object]? = some v :=
    ⟨_, List.getElem?_eq_getElem (hcount ▸ hlt)⟩
  have hvkind : v.kind = 123 := (hbelong.get hspan hv).kind.symm.trans hkind
  have hroot : Placed text.render (text.spans.map Span.token) 0 text.value :=
    ⟨text.before.val, text.after.val, [], [], rfl, by simp [JsonText.spans], rfl⟩
  have hplaced := text.value.placed_node (by rw [hvkind]; decide) hroot hv
  rw [Nat.zero_add] at hplaced
  exact ⟨text, rfl, rfl, v, hv, jkey_of_placed hlength hkey hplaced hvkind, hplaced.member⟩

theorem jkey_small :
    ∃ text : JsonText, text.render = smallText ∧ ∃ v, text.value.nodes[0]? = some v ∧
      found ((v.members 0).find? fun m => m.name = [97]) = 2 := by
  have htokens : jparse smallText =
      some [⟨0, 16, 5, 123⟩, ⟨1, 4, 2, 34⟩, ⟨6, 15, 5, 91⟩, ⟨7, 8, 4, 49⟩, ⟨10, 14, 5, 116⟩] := by
    decide
  obtain ⟨text, htext, -, v, hv, hfound, -⟩ := jkey_spec (by decide) (by decide)
    (show ([97] : Bytes).length < 80 by decide) htokens (List.getElem?_cons_zero) rfl
  have hvalue : jkey smallText
      [⟨0, 16, 5, 123⟩, ⟨1, 4, 2, 34⟩, ⟨6, 15, 5, 91⟩, ⟨7, 8, 4, 49⟩, ⟨10, 14, 5, 116⟩] (0 : ℕ) [97] =
      some 2 := by decide
  rw [hvalue] at hfound
  exact ⟨text, htext, v, hv, (Option.some.inj hfound).symm⟩

/-- `{"a":0}` behind blanks. -/
theorem jparse_blank_object (n : ℕ) :
    jparse (List.replicate n 32 ++ [123, 34, 97, 34, 58, 48, 125]) =
      some [{ start := cint n, stop := cint (n + 7), next := 3, kind := 123 },
        { start := cint (n + 1), stop := cint (n + 4), next := 2, kind := 34 },
        { start := cint (n + 5), stop := cint (n + 6), next := 3, kind := 48 }] := by
  have hblank : IsBlank (List.replicate n 32) := by
    intro c hc
    rw [List.eq_of_mem_replicate hc]
    decide
  have hzero : IsScalar [48] :=
    .inr (.inl ⟨[], [48], [], [], .inl rfl, .inl rfl, .inl rfl, .inl rfl, rfl⟩)
  have hname : IsChars [97] := .plain (by decide) .nil
  let key : KeyOf true := { before := ⟨[], isBlank_nil⟩, chars := ⟨[97], hname⟩, after := ⟨[], isBlank_nil⟩ }
  have hread := jparse_render
    { before := ⟨List.replicate n 32, hblank⟩
      value := .full true (.last key ⟨[], isBlank_nil⟩ (.scalar ⟨[48], hzero⟩) ⟨[], isBlank_nil⟩)
      after := ⟨[], isBlank_nil⟩ } (show 3 ≤ maxTokens by decide) (show 1 ≤ maxDepth by decide)
  simp [JsonText.render, JsonText.spans, Value.render, Value.spans, Value.count, Value.kind,
    Items.render, Items.spans, Items.count, KeyOf.render, KeyOf.spans, KeyOf.count, key, opening,
    closing, Span.token] at hread
  exact hread

/-- Behind 2 GiB of blanks the name of a member would be read in front of the text. -/
theorem jkey_outside :
    let s := List.replicate (2 ^ 31) 32 ++ [123, 34, 97, 34, 58, 48, 125]
    ∃ tokens o, jparse s = some tokens ∧ tokens[0]? = some o ∧ o.kind = 123 ∧
      jkey s tokens 0 [97] = none := by
  intro s
  refine ⟨_, _, jparse_blank_object (2 ^ 31), rfl, rfl, ?_⟩
  have hstart : cint 2147483649 = -2147483647 := by decide
  have hstop : cint 2147483652 = -2147483644 := by decide
  have hbyte : byte s (-2147483646) = none := if_neg (by decide)
  simp [jkey, searchKey, jstring, token, copyString, jchar, hstart, hstop, hbyte]

end ForgeOS.Native
