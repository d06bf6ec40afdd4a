import ForgeOS.Library.UrlPaths
import Mathlib.Data.List.Forall2

/-! Percent-encoding of a text that is one component of a URL, and the decoding that reads it back:
an escape is the octets of one character. An escaped slash is read as a slash, so that a decoded
text has its segments where the encoded one has slashes of either kind. -/

namespace ForgeOS.Library.PercentCoding

open UrlPaths

/-- Letters, digits and `-`, `_`, `.`, `!`, `~`, `*`, the apostrophe and parentheses. -/
def unreserved (c : Char) : Bool :=
  c.isAlphanum || [0x2D, 0x5F, 0x2E, 0x21, 0x7E, 0x2A, 0x27, 0x28, 0x29].contains c.toNat

def encodeComponent (text : List Char) : List Char := encode (fun c => !unreserved c) text

def unhex (c : Char) : Option ℕ :=
  if '0' ≤ c ∧ c ≤ '9' then some (c.toNat - 0x30)
  else if 'A' ≤ c ∧ c ≤ 'F' then some (c.toNat - 0x37)
  else if 'a' ≤ c ∧ c ≤ 'f' then some (c.toNat - 0x57)
  else none

/-- The octets that the text begins with. -/
def octets : List Char → List UInt8
  | '%' :: a :: b :: rest =>
    match unhex a, unhex b with
    | some x, some y => UInt8.ofNat (16 * x + y) :: octets rest
    | _, _ => []
  | _ => []

def decodeFrom : ℕ → List Char → Option (List Char)
  | _, [] => some []
  | 0, _ :: _ => none
  | n + 1, c :: rest =>
    if c = '%' then
      (ByteArray.utf8DecodeChar? (octets (c :: rest)).toByteArray 0).bind fun d =>
        (decodeFrom n ((c :: rest).drop (3 * d.utf8Size))).map (d :: ·)
    else (decodeFrom n rest).map (c :: ·)

/-- There is none where an escape is cut short or its octets are not those of a character. -/
def decode (text : List Char) : Option (List Char) := decodeFrom text.length text

/-! ### Escapes -/

/-- The text is these octets, each as an escape. -/
inductive Escapes : List Char → List UInt8 → Prop where
  | nil : Escapes [] []
  | cons {a b : Char} {x y : ℕ} {text : List Char} {bytes : List UInt8} (ha : unhex a = some x)
      (hb : unhex b = some y) (h : Escapes text bytes) :
      Escapes ('%' :: a :: b :: text) (UInt8.ofNat (16 * x + y) :: bytes)

/-- The text is read as these characters. -/
inductive Decodes : List Char → List Char → Prop where
  | nil : Decodes [] []
  | plain {c : Char} {text chars : List Char} (hc : c ≠ '%') (h : Decodes text chars) :
      Decodes (c :: text) (c :: chars)
  | escape {e text chars : List Char} {d : Char} (he : Escapes e (String.utf8EncodeChar d))
      (h : Decodes text chars) : Decodes (e ++ text) (d :: chars)

variable {e text chars : List Char} {bytes : List UInt8} {c d : Char}

theorem Escapes.length (h : Escapes e bytes) : e.length = 3 * bytes.length := by
  induction h with
  | nil => rfl
  | cons ha hb h ih => simp [ih]; omega

theorem Escapes.octets_append (h : Escapes e bytes) (text : List Char) :
    octets (e ++ text) = bytes ++ octets text := by
  induction h with
  | nil => rfl
  | cons ha hb h ih => simp [octets, ha, hb, ih]

/-- The octets at the front of a text are escapes that the text begins with. -/
theorem exists_escapes {text : List Char} {front back : List UInt8}
    (h : octets text = front ++ back) : ∃ e rest, text = e ++ rest ∧ Escapes e front := by
  induction text using octets.induct generalizing front with
  | case1 a b rest x y hy hx ih =>
    cases front with
    | nil => exact ⟨[], _, rfl, .nil⟩
    | cons byte front =>
      simp only [octets, hx, hy, List.cons_append, List.cons.injEq] at h
      obtain ⟨rfl, h⟩ := h
      obtain ⟨e, tail, rfl, he⟩ := ih h
      exact ⟨'%' :: a :: b :: e, tail, rfl, .cons hx hy he⟩
  | case2 a b rest hnone =>
    have hnil : octets ('%' :: a :: b :: rest) = [] := by
      rw [octets]
      split
      · next x y hx hy => exact (hnone x y hx hy).elim
      · rfl
    rw [hnil] at h
    exact ⟨[], _, rfl, (List.nil_eq_append_iff.mp h).1 ▸ .nil⟩
  | case3 text hshort =>
    have hnil : octets text = [] := by
      rw [octets]
      exact hshort
    rw [hnil] at h
    exact ⟨[], _, rfl, (List.nil_eq_append_iff.mp h).1 ▸ .nil⟩

/-- A character is decoded at the front of a text exactly when the text begins with escapes of its
octets. -/
theorem utf8DecodeChar?_octets :
    ByteArray.utf8DecodeChar? (octets text).toByteArray 0 = some d ↔
      ∃ e rest, text = e ++ rest ∧ Escapes e (String.utf8EncodeChar d) := by
  constructor
  · intro h
    obtain ⟨back, hback⟩ := ByteArray.exists_of_utf8DecodeChar?_eq_some h
    have hbytes : octets text = String.utf8EncodeChar d ++ back.data.toList := by
      apply List.toByteArray_inj.mp
      rw [hback, List.toByteArray_append]
      congr 1
      ext1
      simp
    exact exists_escapes hbytes
  · rintro ⟨e, rest, rfl, he⟩
    rw [he.octets_append, List.toByteArray_append]
    exact ByteArray.utf8DecodeChar?_utf8EncodeChar_append

/-- The escapes of a character are as long as its octets say, and begin with a percent sign. -/
theorem Escapes.of_char (h : Escapes e (String.utf8EncodeChar d)) :
    e.length = 3 * d.utf8Size ∧ ∃ tail, e = '%' :: tail := by
  constructor
  · rw [h.length, String.length_utf8EncodeChar]
  · generalize hbytes : String.utf8EncodeChar d = bytes at h
    cases h with
    | nil => exact absurd hbytes String.utf8EncodeChar_ne_nil
    | cons ha hb h => exact ⟨_, rfl⟩

/-! ### What is decoded -/

theorem decodes_of_decodeFrom {n : ℕ} (h : decodeFrom n text = some chars) :
    Decodes text chars := by
  induction n, text using decodeFrom.induct generalizing chars with
  | case1 n =>
    simp only [decodeFrom, Option.some.injEq] at h
    exact h ▸ .nil
  | case2 c rest => simp [decodeFrom] at h
  | case3 n rest ih =>
    simp only [decodeFrom, if_pos, Option.bind_eq_some_iff, Option.map_eq_some_iff] at h
    obtain ⟨d, hd, tail, htail, rfl⟩ := h
    obtain ⟨e, rest', htext, he⟩ := utf8DecodeChar?_octets.mp hd
    have hrest := ih d htail
    rw [htext, ← he.of_char.1, List.drop_left] at hrest
    rw [htext]
    exact .escape he hrest
  | case4 n c rest hc ih =>
    simp only [decodeFrom, if_neg hc, Option.map_eq_some_iff] at h
    obtain ⟨tail, htail, rfl⟩ := h
    exact .plain hc (ih htail)

theorem Decodes.decodeFrom_eq (h : Decodes text chars) :
    ∀ n, text.length ≤ n → decodeFrom n text = some chars := by
  induction h with
  | nil =>
    intro n hn
    cases n <;> rfl
  | plain hc h ih =>
    intro n hn
    cases n with
    | zero => simp at hn
    | succ n =>
      have hrest := ih n (by simpa using hn)
      simp [decodeFrom, hc, hrest]
  | @escape e text chars d he h ih =>
    intro n hn
    obtain ⟨hlength, tail, rfl⟩ := he.of_char
    cases n with
    | zero => simp at hn
    | succ n =>
      have hrest := ih n (by simp at hn; omega)
      have hread :
          ByteArray.utf8DecodeChar? (octets ('%' :: (tail ++ text))).toByteArray 0 = some d :=
        utf8DecodeChar?_octets.mpr ⟨_, text, rfl, he⟩
      have hdrop : ('%' :: (tail ++ text)).drop (3 * d.utf8Size) = text := by
        rw [← hlength]
        exact List.drop_left
      rw [List.cons_append, decodeFrom, if_pos rfl, hread, Option.bind_some, hdrop, hrest]
      rfl

theorem decode_eq_some : decode text = some chars ↔ Decodes text chars :=
  ⟨decodes_of_decodeFrom, fun h => h.decodeFrom_eq _ le_rfl⟩

theorem Decodes.unique {chars' : List Char} (h : Decodes text chars) (h' : Decodes text chars') :
    chars = chars' :=
  Option.some.inj ((decode_eq_some.mpr h).symm.trans (decode_eq_some.mpr h'))

theorem Decodes.append {text' chars' : List Char} (h : Decodes text chars)
    (h' : Decodes text' chars') : Decodes (text ++ text') (chars ++ chars') := by
  induction h with
  | nil => exact h'
  | plain hc h ih => exact .plain hc ih
  | escape he h ih =>
    rw [List.append_assoc]
    exact .escape he ih

/-! ### What has been encoded is decoded to what it was -/

theorem unhex_hexDigit : ∀ n < 16, unhex (hexDigit n) = some n := by decide

theorem escapes_percentEncode (c : Char) : Escapes (percentEncode c) (String.utf8EncodeChar c) := by
  rw [percentEncode]
  induction String.utf8EncodeChar c with
  | nil => exact .nil
  | cons b bytes ih =>
    have hb := b.toNat_lt
    have hvalue : UInt8.ofNat (16 * (b.toNat / 16) + b.toNat % 16) = b := by
      rw [Nat.div_add_mod, UInt8.ofNat_toNat]
    have h := Escapes.cons (unhex_hexDigit (b.toNat / 16) (by omega))
      (unhex_hexDigit (b.toNat % 16) (by omega)) ih
    rw [hvalue] at h
    exact h

/-- Whatever else is escaped, when percent signs are. -/
theorem decodes_encode {set : Char → Bool} (hset : set '%' = true) (text : List Char) :
    Decodes (encode set text) text := by
  induction text with
  | nil => exact .nil
  | cons c text ih =>
    rw [encode, List.flatMap_cons]
    split
    · exact .escape (escapes_percentEncode c) ih
    · next hc =>
      apply Decodes.plain _ ih
      rintro rfl
      exact hc hset

theorem decodes_encodeComponent (text : List Char) : Decodes (encodeComponent text) text :=
  decodes_encode rfl text

/-! ### Slashes -/

/-- The text with every escaped slash read as a slash. -/
def slashes : List Char → List Char
  | '%' :: a :: b :: rest =>
    if a = '2' ∧ (b = 'F' ∨ b = 'f') then '/' :: slashes rest else '%' :: slashes (a :: b :: rest)
  | c :: rest => c :: slashes rest
  | [] => []

theorem slashes_of_ne (hc : c ≠ '%') (text : List Char) :
    slashes (c :: text) = c :: slashes text := by
  rw [slashes]
  rintro a b rest rfl
  exact absurd rfl hc

/-- The digits of a value, of either case. -/
theorem eq_of_unhex {x : ℕ} (h : unhex c = some x) :
    x < 16 ∧ (c = hexDigit x ∨ c = (hexDigit x).toLower) := by
  have hrange : (List.range 0x67).all (fun n => (unhex (Char.ofNat n)).all fun y =>
      decide (y < 16) && (Char.ofNat n == hexDigit y || Char.ofNat n == (hexDigit y).toLower)) =
        true := by rfl
  have hlt : c.toNat < 0x67 := by
    rw [unhex] at h
    by_contra hge
    have hnot : ∀ l u : Char, u.toNat < 0x67 → ¬(l ≤ c ∧ c ≤ u) := by
      rintro l u hu ⟨-, hc⟩
      exact hge (Nat.lt_of_le_of_lt hc hu)
    rw [if_neg (hnot _ _ (by decide)), if_neg (hnot _ _ (by decide)),
      if_neg (hnot _ _ (by decide))] at h
    cases h
  have hc := List.all_eq_true.mp hrange c.toNat (List.mem_range.mpr hlt)
  rw [Char.ofNat_toNat, h] at hc
  simpa using hc

/-- A slash is the only character with the octet of a slash. -/
theorem slash_of_mem (h : 0x2F ∈ String.utf8EncodeChar d) : d = '/' := by
  have hbyte : ∀ n < 256, (0x2F : UInt8) = UInt8.ofNat n → n = 0x2F := by
    intro n hn h
    have htoNat := congrArg UInt8.toNat h
    rw [UInt8.toNat_ofNat', Nat.mod_eq_of_lt hn] at htoNat
    exact htoNat.symm
  have hother : ∀ n, 0x80 ≤ n → n < 256 → (0x2F : UInt8) ≠ UInt8.ofNat n := by
    intro n hge hlt h
    have hn := hbyte n hlt h
    omega
  have hn : d.toNat = 0x2F := by
    simp only [String.utf8EncodeChar] at h
    split_ifs at h with hone
    · exact hbyte _ (Nat.lt_of_le_of_lt hone (by decide)) (List.mem_singleton.mp h)
    all_goals simp (disch := omega) only [List.mem_cons, List.not_mem_nil, hother, or_self] at h
  rw [← Char.ofNat_toNat d, hn]

/-- Escapes of other octets have no slash, escaped or not. -/
theorem Escapes.slashes_append (h : Escapes e bytes) (hbytes : 0x2F ∉ bytes) (text : List Char) :
    slashes (e ++ text) = e ++ slashes text ∧ '/' ∉ e := by
  induction h with
  | nil => exact ⟨rfl, List.not_mem_nil⟩
  | @cons a b x y e bytes ha hb h ih =>
    have hdigit : ∀ {c : Char} {z : ℕ}, unhex c = some z → c ≠ '%' ∧ c ≠ '/' := by
      intro c z hc
      constructor <;> (rintro rfl; cases hc)
    have hother : ¬(a = '2' ∧ (b = 'F' ∨ b = 'f')) := by
      rintro ⟨rfl, rfl | rfl⟩
      · cases ha
        cases hb
        exact hbytes List.mem_cons_self
      · cases ha
        cases hb
        exact hbytes List.mem_cons_self
    obtain ⟨hrest, hmem⟩ := ih fun hmem => hbytes (List.mem_cons_of_mem _ hmem)
    constructor
    · rw [List.cons_append, List.cons_append, List.cons_append, slashes, if_neg hother,
        slashes_of_ne (hdigit ha).1, slashes_of_ne (hdigit hb).1, hrest]
      rfl
    · simp only [List.mem_cons, not_or]
      exact ⟨by decide, (hdigit ha).2.symm, (hdigit hb).2.symm, hmem⟩

/-- The escape of a single octet. -/
theorem Escapes.singleton {n : ℕ} (hn : n < 256) (h : Escapes e [UInt8.ofNat n]) :
    ∃ a b, e = ['%', a, b] ∧ (a = hexDigit (n / 16) ∨ a = (hexDigit (n / 16)).toLower) ∧
      (b = hexDigit (n % 16) ∨ b = (hexDigit (n % 16)).toLower) := by
  generalize hbytes : [UInt8.ofNat n] = bytes at h
  cases h with
  | nil => cases hbytes
  | @cons a b x y text bytes ha hb h =>
    obtain ⟨hx, ha⟩ := eq_of_unhex ha
    obtain ⟨hy, hb⟩ := eq_of_unhex hb
    obtain ⟨hbyte, rfl⟩ := List.cons.inj hbytes
    have hn : 16 * x + y = n := by
      have htoNat := congrArg UInt8.toNat hbyte
      rw [UInt8.toNat_ofNat', UInt8.toNat_ofNat', Nat.mod_eq_of_lt hn, Nat.mod_eq_of_lt (by omega)]
        at htoNat
      exact htoNat.symm
    obtain rfl : x = n / 16 := by omega
    obtain rfl : y = n % 16 := by omega
    cases h
    exact ⟨a, b, rfl, ha, hb⟩

theorem splitOn_append (he : '/' ∉ e) (text : List Char) :
    (e ++ text).splitOn '/' = (text.splitOn '/').modifyHead (e ++ ·) := by
  induction e with
  | nil =>
    rw [List.nil_append]
    cases text.splitOn '/' <;> rfl
  | cons c e ih =>
    rw [List.mem_cons, not_or] at he
    rw [List.cons_append, List.splitOn_cons_eq_if_modifyHead, if_neg (by simpa using Ne.symm he.1),
      ih he.2]
    cases text.splitOn '/' <;> rfl

theorem forall₂_modifyHead {α β : Type*} {R : α → β → Prop} {f : α → α} {g : β → β}
    (hR : ∀ a b, R a b → R (f a) (g b)) {as : List α} {bs : List β} (h : List.Forall₂ R as bs) :
    List.Forall₂ R (as.modifyHead f) (bs.modifyHead g) := by
  cases h with
  | nil => exact .nil
  | cons hab h => exact .cons (hR _ _ hab) h

/-- The escapes of a slash are read as one, and those of another character are left. -/
theorem Escapes.slashes_char (h : Escapes e (String.utf8EncodeChar d)) (text : List Char) :
    (d = '/' ∧ slashes (e ++ text) = '/' :: slashes text) ∨
      (d ≠ '/' ∧ '/' ∉ e ∧ slashes (e ++ text) = e ++ slashes text) := by
  by_cases hd : d = '/'
  · subst hd
    obtain ⟨a, b, rfl, ha, hb⟩ := h.singleton (n := 0x2F) (by decide)
    have ha : a = '2' := by rcases ha with rfl | rfl <;> rfl
    have hb : b = 'F' ∨ b = 'f' := by rcases hb with rfl | rfl <;> decide
    left
    refine ⟨rfl, ?_⟩
    show slashes ('%' :: a :: b :: text) = _
    rw [slashes, if_pos ⟨ha, hb⟩]
  · obtain ⟨hslashes, hmem⟩ := h.slashes_append (fun h => hd (slash_of_mem h)) text
    exact .inr ⟨hd, hmem, hslashes⟩

/-- The segments of what is decoded are decoded from those between the slashes, escaped or not. -/
theorem Decodes.splitOn (h : Decodes text chars) :
    List.Forall₂ Decodes ((slashes text).splitOn '/') (chars.splitOn '/') := by
  induction h with
  | nil => exact .cons .nil .nil
  | @plain c text chars hc h ih =>
    rw [slashes_of_ne hc, List.splitOn_cons_eq_if_modifyHead, List.splitOn_cons_eq_if_modifyHead]
    split
    · exact .cons .nil ih
    · exact forall₂_modifyHead (fun a b hab => .plain hc hab) ih
  | @escape e text chars d he h ih =>
    rw [List.splitOn_cons_eq_if_modifyHead]
    rcases he.slashes_char text with ⟨rfl, hslashes⟩ | ⟨hd, hmem, hslashes⟩
    · rw [hslashes, List.splitOn_cons_eq_if_modifyHead]
      exact .cons .nil ih
    · rw [hslashes, splitOn_append hmem, if_neg (by simpa using hd)]
      exact forall₂_modifyHead (fun a b hab => .escape he hab) ih

theorem Decodes.head_slash (h : Decodes text chars) :
    (slashes text).head? = some '/' ↔ chars.head? = some '/' := by
  cases h with
  | nil => rfl
  | plain hc h =>
    rw [slashes_of_ne hc]
    simp
  | @escape e text chars d he h =>
    obtain ⟨-, tail, rfl⟩ := he.of_char
    rcases he.slashes_char text with ⟨rfl, hslashes⟩ | ⟨hd, -, hslashes⟩
    · rw [hslashes]
      simp
    · rw [hslashes]
      simpa using hd

/-! ### Dots -/

theorem of_toLower (h : c.toLower = d) :
    c = d ∨ 0x41 ≤ c.toNat ∧ c.toNat ≤ 0x5A ∧ c.toNat + 0x20 = d.toNat := by
  delta Char.toLower at h
  split at h
  · next hupper =>
    have hle : c.toNat ≤ 0x5A := hupper.2
    have hsum : (c.val + 0x20).toNat = c.toNat + 0x20 := by
      rw [UInt32.toNat_add]
      exact Nat.mod_eq_of_lt (by simp only [UInt32.reduceToNat, Char.toNat_val]; omega)
    exact .inr ⟨hupper.1, hle, h ▸ hsum.symm⟩
  · exact .inl h

theorem eq_of_toLower (h : c.toLower = d) (hd : d.toNat < 0x61) : c = d := by
  rcases of_toLower h with h | ⟨hge, -, hsum⟩
  · exact h
  · omega

theorem decodes_nil : Decodes text [] ↔ text = [] := by
  constructor
  · intro h
    cases h
    rfl
  · rintro rfl
    exact .nil

theorem decodes_cons : Decodes text (c :: chars) ↔
    ∃ e rest, text = e ++ rest ∧ Decodes e [c] ∧ Decodes rest chars := by
  constructor
  · intro h
    cases h with
    | plain hc h => exact ⟨[c], _, rfl, .plain hc .nil, h⟩
    | @escape e rest _ _ he h =>
      exact ⟨e, rest, rfl, by simpa using Decodes.escape he .nil, h⟩
  · rintro ⟨e, rest, rfl, he, h⟩
    exact he.append h

theorem decodes_dot : Decodes text ['.'] ↔
    text = ['.'] ∨ text = ['%', '2', 'e'] ∨ text = ['%', '2', 'E'] := by
  constructor
  · intro h
    cases h with
    | plain hc h => exact .inl (congrArg _ (decodes_nil.mp h))
    | escape he h =>
      obtain ⟨a, b, rfl, ha, hb⟩ := he.singleton (n := 0x2E) (by decide)
      have ha : a = '2' := by rcases ha with rfl | rfl <;> rfl
      have hb : b = 'E' ∨ b = 'e' := by rcases hb with rfl | rfl <;> decide
      rcases hb with rfl | rfl
      · simp [ha, decodes_nil.mp h]
      · simp [ha, decodes_nil.mp h]
  · have hescape : ∀ b, unhex b = some 14 → Decodes ['%', '2', b] ['.'] :=
      fun b hb => .escape (e := ['%', '2', b]) (.cons (x := 2) rfl hb .nil) .nil
    rintro (rfl | rfl | rfl)
    · exact .plain (by decide) .nil
    · exact hescape 'e' rfl
    · exact hescape 'E' rfl

theorem singleDot_eq_true {segment : Segment} : singleDot segment = true ↔
    segment.map Char.toLower = ['.'] ∨ segment.map Char.toLower = ['%', '2', 'e'] := by
  simp only [singleDot, List.any_cons, List.any_nil, Bool.or_false, Bool.or_eq_true, beq_iff_eq,
    @eq_comm _ _ (segment.map Char.toLower)]
  rfl

/-- What is a dot segment before it is decoded is one afterwards, and the other way round. -/
theorem singleDot_iff {segment : Segment} : singleDot segment = true ↔ Decodes segment ['.'] := by
  rw [singleDot_eq_true, decodes_dot]
  constructor
  · rintro (h | h)
    · obtain ⟨c, rfl, hc⟩ := List.map_eq_singleton_iff.mp h
      left
      rw [eq_of_toLower hc (by decide)]
    · obtain ⟨c, rest, rfl, hc, h⟩ := List.map_eq_cons_iff.mp h
      obtain ⟨c', rest, rfl, hc', h⟩ := List.map_eq_cons_iff.mp h
      obtain ⟨c'', rfl, hc''⟩ := List.map_eq_singleton_iff.mp h
      rw [eq_of_toLower hc (by decide), eq_of_toLower hc' (by decide)]
      right
      rcases of_toLower hc'' with rfl | ⟨-, -, hsum⟩
      · exact .inl rfl
      · right
        have hn : c''.toNat = 0x45 := Nat.add_right_cancel hsum
        rw [← Char.ofNat_toNat c'', hn]
  · rintro (rfl | rfl | rfl)
    · exact .inl rfl
    · exact .inr rfl
    · exact .inr rfl

theorem doubleDot_eq_true {segment : Segment} : doubleDot segment = true ↔
    ∃ first last, segment = first ++ last ∧ singleDot first = true ∧ singleDot last = true := by
  constructor
  · intro h
    have hforms : ∃ f l, segment.map Char.toLower = f ++ l ∧ (f = ['.'] ∨ f = ['%', '2', 'e']) ∧
        (l = ['.'] ∨ l = ['%', '2', 'e']) := by
      simp only [doubleDot, List.any_cons, List.any_nil, Bool.or_false, Bool.or_eq_true, beq_iff_eq,
        @eq_comm _ _ (segment.map Char.toLower)] at h
      rcases h with h | h | h | h
      · exact ⟨['.'], ['.'], h, .inl rfl, .inl rfl⟩
      · exact ⟨['.'], ['%', '2', 'e'], h, .inl rfl, .inr rfl⟩
      · exact ⟨['%', '2', 'e'], ['.'], h, .inr rfl, .inl rfl⟩
      · exact ⟨['%', '2', 'e'], ['%', '2', 'e'], h, .inr rfl, .inr rfl⟩
    obtain ⟨f, l, hmap, hf, hl⟩ := hforms
    obtain ⟨first, last, rfl, rfl, rfl⟩ := List.map_eq_append_iff.mp hmap
    exact ⟨first, last, rfl, singleDot_eq_true.mpr hf, singleDot_eq_true.mpr hl⟩
  · rintro ⟨first, last, rfl, hfirst, hlast⟩
    rw [doubleDot, List.map_append]
    rcases singleDot_eq_true.mp hfirst with h | h <;> rcases singleDot_eq_true.mp hlast with h' | h'
    all_goals
      rw [h, h']
      rfl

theorem doubleDot_iff {segment : Segment} :
    doubleDot segment = true ↔ Decodes segment ['.', '.'] := by
  rw [doubleDot_eq_true, decodes_cons]
  simp only [singleDot_iff]

/-- An encoded component is a dot segment only when the component is. -/
theorem singleDot_encodeComponent : singleDot (encodeComponent chars) = true ↔ chars = ['.'] := by
  rw [singleDot_iff]
  constructor
  · intro h
    exact (decodes_encodeComponent chars).unique h
  · rintro rfl
    exact decodes_encodeComponent _

theorem doubleDot_encodeComponent :
    doubleDot (encodeComponent chars) = true ↔ chars = ['.', '.'] := by
  rw [doubleDot_iff]
  constructor
  · intro h
    exact (decodes_encodeComponent chars).unique h
  · rintro rfl
    exact decodes_encodeComponent _

/-! ### The components of a path -/

def encodePath (path : List Char) : List Char :=
  ['/'].intercalate ((path.splitOn '/').map encodeComponent)

theorem intercalate_modifyHead (front : List Char) {parts : List (List Char)} (h : parts ≠ []) :
    ['/'].intercalate (parts.modifyHead (front ++ ·)) = front ++ ['/'].intercalate parts := by
  match parts with
  | [] => exact absurd rfl h
  | [part] => simp [List.intercalate]
  | part :: next :: rest => simp [List.intercalate]

/-- Slashes are left, and everything else is encoded as in a component. -/
theorem encodePath_eq (path : List Char) :
    encodePath path = encode (fun c => !unreserved c && c != '/') path := by
  induction path with
  | nil => rfl
  | cons c path ih =>
    have hparts : (path.splitOn '/').map encodeComponent ≠ [] := by
      simp [List.splitOn_ne_nil]
    have hstep : encodePath (c :: path) =
        (if !unreserved c && c != '/' then percentEncode c else [c]) ++ encodePath path := by
      rw [encodePath, List.splitOn_cons_eq_if_modifyHead]
      by_cases hc : c = '/'
      · subst hc
        cases hsplit : path.splitOn '/' with
        | nil => exact absurd hsplit (List.splitOn_ne_nil _ _)
        | cons part rest => simp [encodePath, hsplit, encodeComponent, encode, List.intercalate]
      · have hhead : ((path.splitOn '/').modifyHead (c :: ·)).map encodeComponent =
            ((path.splitOn '/').map encodeComponent).modifyHead (encodeComponent [c] ++ ·) := by
          cases path.splitOn '/' <;> simp [encodeComponent, encode]
        rw [if_neg (by simpa using hc), hhead, intercalate_modifyHead _ hparts, ← encodePath]
        simp [encodeComponent, encode, hc]
    rw [hstep, ih]
    rfl

theorem decodes_encodePath (path : List Char) : Decodes (encodePath path) path := by
  rw [encodePath_eq]
  exact decodes_encode rfl path

theorem encodePath_intercalate {parts : List (List Char)} (hne : parts ≠ [])
    (h : ∀ part ∈ parts, '/' ∉ part) :
    encodePath (['/'].intercalate parts) = ['/'].intercalate (parts.map encodeComponent) := by
  rw [encodePath, List.splitOn_intercalate '/' h hne]

end ForgeOS.Library.PercentCoding
