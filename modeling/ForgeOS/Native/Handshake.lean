import ForgeOS.Library.Base64
import ForgeOS.Library.Search
import ForgeOS.Native.Quote
import ForgeOS.Native.Sha1

/-! `ws_open` of the music bridge: it asks a server for a WebSocket and looks at the head of the
answer. The bytes that come from the server are a stream, of which it takes no more than the
head. -/

namespace ForgeOS.Native.Handshake

open Library.Base64 Library.Search Sha1

/-! ### Base64 -/

/-- The letters of `b64`. -/
def letters : Bytes := ascii "ABCDEFGHIJKLMNOPQRSTUVWXYZabcdefghijklmnopqrstuvwxyz0123456789+/"

/-- A turn of `b64`, at the place `i` of `p`. -/
def b64Turn (p : Bytes) (i : ℕ) : Bytes :=
  let n := p.length
  let v := (p.getD i 0).toNat <<< 16 |||
    (if i + 1 < n then (p.getD (i + 1) 0).toNat <<< 8 else 0) |||
    (if i + 2 < n then (p.getD (i + 2) 0).toNat else 0)
  [letters.getD (v >>> 18) 0, letters.getD (v >>> 12 &&& 63) 0,
    if i + 1 < n then letters.getD (v >>> 6 &&& 63) 0 else 61,
    if i + 2 < n then letters.getD (v &&& 63) 0 else 61]

/-- `b64` -/
def b64 (p : Bytes) : Bytes := (List.range ((p.length + 2) / 3)).flatMap fun k => b64Turn p (3 * k)

/-- The alphabet of RFC 4648. -/
def alphabet : Alphabet UInt8 where
  letter d := letters.getD d 0
  value c := if c ∈ letters then some (letters.idxOf c) else none
  pad := 61
  value_letter := by decide
  value_pad := by decide

theorem group_eq (x y z : UInt8) : x.toNat <<< 16 ||| y.toNat <<< 8 ||| z.toNat =
    x.toNat * 65536 + y.toNat * 256 + z.toNat := by
  have hy := y.toNat_lt
  have hz := z.toNat_lt
  rw [Nat.or_assoc, shiftLeft_or (by omega) y.toNat, shiftLeft_or (by omega) x.toNat]
  omega

theorem and_sixtyThree (n : ℕ) : n &&& 63 = n % 64 := Nat.and_two_pow_sub_one_eq_mod n 6

/-- The four digits of a group. -/
theorem group_digits (x y z : UInt8) :
    (x.toNat <<< 16 ||| y.toNat <<< 8 ||| z.toNat) >>> 18 = x.toNat / 4 ∧
    (x.toNat <<< 16 ||| y.toNat <<< 8 ||| z.toNat) >>> 12 &&& 63 =
      x.toNat % 4 * 16 + y.toNat / 16 ∧
    (x.toNat <<< 16 ||| y.toNat <<< 8 ||| z.toNat) >>> 6 &&& 63 =
      y.toNat % 16 * 4 + z.toNat / 64 ∧
    (x.toNat <<< 16 ||| y.toNat <<< 8 ||| z.toNat) &&& 63 = z.toNat % 64 := by
  have hx := x.toNat_lt
  have hy := y.toNat_lt
  have hz := z.toNat_lt
  simp only [group_eq, and_sixtyThree, Nat.shiftRight_eq_div_pow]
  omega

theorem b64Turn_three (x y z : UInt8) (rest : Bytes) :
    b64Turn (x :: y :: z :: rest) 0 = [alphabet.letter (x.toNat / 4),
      alphabet.letter (x.toNat % 4 * 16 + y.toNat / 16),
      alphabet.letter (y.toNat % 16 * 4 + z.toNat / 64), alphabet.letter (z.toNat % 64)] := by
  obtain ⟨h₁, h₂, h₃, h₄⟩ := group_digits x y z
  simp only [b64Turn, List.length_cons, List.getD_cons_zero, List.getD_cons_succ, Nat.zero_add,
    show 1 < rest.length + 1 + 1 + 1 by omega, show 2 < rest.length + 1 + 1 + 1 by omega, if_true,
    h₁, h₂, h₃, h₄]
  rfl

theorem b64Turn_add (x y z : UInt8) (rest : Bytes) (i : ℕ) :
    b64Turn (x :: y :: z :: rest) (i + 3) = b64Turn rest i := by
  have hshift : ∀ j, (x :: y :: z :: rest).getD (j + 3) 0 = rest.getD j 0 := fun j => rfl
  have hlen : ∀ j, j + 3 < (x :: y :: z :: rest).length ↔ j < rest.length := by simp
  simp only [b64Turn, hshift, Nat.add_right_comm i 3, hlen]

theorem b64Turn_one (x : UInt8) : b64Turn [x] 0 =
    [alphabet.letter (x.toNat / 4), alphabet.letter (x.toNat % 4 * 16), 61, 61] := by
  obtain ⟨h₁, h₂, -⟩ := group_digits x 0 0
  simp only [UInt8.toNat_zero, Nat.zero_shiftLeft, Nat.zero_div, Nat.add_zero] at h₁ h₂
  simp only [b64Turn, List.length_singleton, List.getD_cons_zero, show ¬0 + 1 < 1 by omega,
    show ¬0 + 2 < 1 by omega, if_false, h₁, h₂]
  rfl

theorem b64Turn_two (x y : UInt8) : b64Turn [x, y] 0 =
    [alphabet.letter (x.toNat / 4), alphabet.letter (x.toNat % 4 * 16 + y.toNat / 16),
      alphabet.letter (y.toNat % 16 * 4), 61] := by
  obtain ⟨h₁, h₂, h₃, -⟩ := group_digits x y 0
  simp only [UInt8.toNat_zero, Nat.zero_div, Nat.add_zero] at h₁ h₂ h₃
  simp only [b64Turn, List.length_cons, List.length_nil, List.getD_cons_zero, List.getD_cons_succ,
    Nat.zero_add, show 1 < 1 + 1 by omega, show ¬2 < 1 + 1 by omega, if_true, if_false, h₁, h₂, h₃]
  rfl

theorem b64_eq (p : Bytes) : b64 p = encode alphabet p := by
  induction p using encode.induct with
  | case1 => simp [b64, encode]
  | case2 x =>
    have hone : b64 [x] = b64Turn [x] 0 := by simp [b64]
    rw [encode, hone, b64Turn_one]
    rfl
  | case3 x y =>
    have hone : b64 [x, y] = b64Turn [x, y] 0 := by simp [b64]
    rw [encode, hone, b64Turn_two]
    rfl
  | case4 x y z rest ih =>
    have hrange : ((x :: y :: z :: rest).length + 2) / 3 = (rest.length + 2) / 3 + 1 := by
      simp only [List.length_cons]
      omega
    rw [b64, hrange, List.range_succ_eq_map, List.flatMap_cons, b64Turn_three, List.flatMap_map,
      encode, ← ih, b64]
    simp only [Nat.succ_eq_add_one, Nat.mul_add, Nat.mul_one, b64Turn_add]
    rfl

/-! ### Heads -/

def crlf : Bytes := [13, 10]

/-- The loop of `http_header`, with the room that is left and what has been read. -/
def headerLoop : ℕ → Bytes → Bytes → Option (Bytes × Bytes)
  | 0, _, _ => none
  | _ + 1, _, [] => none
  | room + 1, out, c :: stream =>
    if crlf ++ crlf <:+ out ++ [c] then some (out ++ [c], stream)
    else headerLoop room (out ++ [c]) stream

/-- `http_header`: the head and what is behind it in the stream. -/
def httpHeader (cap : ℕ) (stream : Bytes) : Option (Bytes × Bytes) :=
  headerLoop (cap - 1) [] stream

/-- `tolower` -/
def toLower (c : UInt8) : UInt8 := if 65 ≤ c ∧ c ≤ 90 then c + 32 else c

/-- Equality but for the case of letters. -/
def sameLetters (s t : Bytes) : Bool := s.map toLower == t.map toLower

/-- The loop of `header_value`, from a line end on. -/
def valueLoop (name : Bytes) (cap : ℕ) (p : Bytes) : Option Bytes :=
  let text := p.drop 2
  if text = [] then none
  else
    match h : search crlf text with
    | none => none
    | some rest =>
      if sameLetters (text.take name.length) name ∧ text[name.length]? = some 58 then
        let line := text.take (text.length - rest.length)
        let value := (line.drop (name.length + 1)).dropWhile fun c => c == 32 || c == 9
        if cap ≤ value.length then none else some value
      else valueLoop name cap rest
termination_by p.length
decreasing_by
  have hle := (search_eq_some h).1.length_le
  have : p.drop 2 ≠ [] := ‹_›
  have := List.length_pos_iff.mpr this
  rw [List.length_drop] at *
  omega

/-- `header_value` -/
def headerValue (header name : Bytes) (cap : ℕ) : Option Bytes :=
  match search crlf header with
  | none => none
  | some p => valueLoop name cap p

/-- A line of a head. -/
structure Plain (line : Bytes) : Prop where
  ne_nil : line ≠ []
  noReturn : 13 ∉ line
  noFeed : 10 ∉ line
  noZero : 0 ∉ line

/-- A head of these lines. -/
def renderHead (lines : List Bytes) : Bytes := lines.flatMap (· ++ crlf) ++ crlf

theorem ends_concat (out : Bytes) (c : UInt8) :
    crlf ++ crlf <:+ out ++ [c] ↔ c = 10 ∧ [13, 10, 13] <:+ out := by
  rw [List.suffix_concat_iff]
  constructor
  · rintro (h | ⟨t, h, ht⟩)
    · cases h
    · have h : [13, 10, 13] ++ [10] = t ++ [c] := h
      obtain ⟨rfl, hc⟩ := List.append_inj' h rfl
      exact ⟨(List.singleton_inj.mp hc).symm, ht⟩
  · rintro ⟨rfl, h⟩
    exact .inr ⟨[13, 10, 13], rfl, h⟩

/-- Bytes of a line are read. -/
theorem headerLoop_line {line : Bytes} (hfeed : 10 ∉ line) (room : ℕ) (out stream : Bytes) :
    headerLoop (line.length + room) out (line ++ stream) =
      headerLoop room (out ++ line) stream := by
  induction line generalizing out with
  | nil => simp
  | cons c line ih =>
    rw [List.mem_cons, not_or] at hfeed
    have hend : ¬crlf ++ crlf <:+ out ++ [c] := fun h => hfeed.1 ((ends_concat out c).mp h).1.symm
    rw [List.length_cons, Nat.add_right_comm, List.cons_append, headerLoop, if_neg hend, ih hfeed.2,
      List.append_assoc]
    rfl

/-- The end of a line does not end the head, unless the line is empty. -/
theorem headerLoop_crlf (room : ℕ) {out : Bytes} (hout : ¬crlf <:+ out) (stream : Bytes) :
    headerLoop (room + 2) out (crlf ++ stream) = headerLoop room (out ++ crlf) stream := by
  have hfirst : ¬crlf ++ crlf <:+ out ++ [13] := fun h => by
    have hc := ((ends_concat out 13).mp h).1
    cases hc
  have hsecond : ¬crlf ++ crlf <:+ out ++ [13] ++ [10] := fun h => by
    have hrest := ((ends_concat (out ++ [13]) 10).mp h).2
    obtain h | ⟨t, h, ht⟩ := List.suffix_concat_iff.mp hrest
    · cases h
    · have h : [13, 10] ++ [13] = t ++ [13] := h
      obtain ⟨rfl, -⟩ := List.append_inj' h rfl
      exact hout ht
  change headerLoop (room + 1 + 1) out (13 :: 10 :: stream) = _
  rw [headerLoop, if_neg hfirst, headerLoop, if_neg hsecond, List.append_assoc]
  rfl

/-- The empty line ends the head. -/
theorem headerLoop_end (room : ℕ) {out : Bytes} (hout : crlf <:+ out) (stream : Bytes) :
    headerLoop (room + 2) out (crlf ++ stream) = some (out ++ crlf, stream) := by
  have hfirst : ¬crlf ++ crlf <:+ out ++ [13] := fun h => by
    have hc := ((ends_concat out 13).mp h).1
    cases hc
  have hsecond : crlf ++ crlf <:+ out ++ [13] ++ [10] := by
    obtain ⟨o, rfl⟩ := hout
    exact ⟨o, by simp [crlf]⟩
  change headerLoop (room + 1 + 1) out (13 :: 10 :: stream) = _
  rw [headerLoop, if_neg hfirst, headerLoop, if_pos hsecond, List.append_assoc]
  rfl

theorem Plain.not_ends {line : Bytes} (h : Plain line) (out : Bytes) : ¬crlf <:+ out ++ line := by
  obtain hnil | ⟨start, c, rfl⟩ := List.eq_nil_or_concat line
  · exact absurd hnil h.ne_nil
  · rw [List.concat_eq_append, ← List.append_assoc, List.suffix_concat_iff]
    rintro (hc | ⟨t, ht, -⟩)
    · cases hc
    · have ht : [13] ++ [10] = t ++ [c] := ht
      obtain ⟨-, hc⟩ := List.append_inj' ht rfl
      exact h.noFeed (by simp [← List.singleton_inj.mp hc])

theorem renderHead_cons (line : Bytes) (lines : List Bytes) :
    renderHead (line :: lines) = line ++ (crlf ++ renderHead lines) := by
  simp [renderHead]

/-- A head is read to its end, and no further. -/
theorem headerLoop_render {lines : List Bytes} (hlines : ∀ line ∈ lines, Plain line) {room : ℕ}
    {out : Bytes} (hout : crlf <:+ out ∨ lines ≠ []) (hroom : (renderHead lines).length ≤ room)
    (rest : Bytes) :
    headerLoop room out (renderHead lines ++ rest) = some (out ++ renderHead lines, rest) := by
  induction lines generalizing room out with
  | nil =>
    have hout : crlf <:+ out := by simpa using hout
    obtain ⟨room, rfl⟩ : ∃ room', room = room' + 2 := ⟨room - 2, by
      simp only [renderHead, crlf, List.flatMap_nil, List.nil_append, List.length_cons,
        List.length_nil] at hroom
      omega⟩
    exact headerLoop_end room hout rest
  | cons line lines ih =>
    have hline := hlines line (List.mem_cons_self ..)
    rw [renderHead_cons, List.length_append, List.length_append] at hroom
    obtain ⟨room, rfl⟩ : ∃ room', room = line.length + (room' + 2) :=
      ⟨room - line.length - 2, by
        simp only [crlf, List.length_cons, List.length_nil] at hroom
        omega⟩
    rw [renderHead_cons, List.append_assoc, List.append_assoc, headerLoop_line hline.noFeed,
      headerLoop_crlf room (hline.not_ends out),
      ih (fun l hl => hlines l (List.mem_cons_of_mem _ hl)) (.inl (List.suffix_append _ _)) (by
          simp only [crlf, List.length_cons, List.length_nil] at hroom
          omega)]
    simp

theorem httpHeader_render {lines : List Bytes} (hlines : ∀ line ∈ lines, Plain line)
    (hne : lines ≠ []) {cap : ℕ} (hcap : (renderHead lines).length < cap) (rest : Bytes) :
    httpHeader cap (renderHead lines ++ rest) = some (renderHead lines, rest) :=
  headerLoop_render hlines (.inr hne) (by omega) rest

/-- More room changes nothing about a head that is read, and none is longer than the room. -/
theorem headerLoop_some {room : ℕ} {out stream head rest : Bytes}
    (h : headerLoop room out stream = some (head, rest)) (more : ℕ) :
    headerLoop (room + more) out stream = some (head, rest) ∧ head.length ≤ out.length + room := by
  induction room generalizing out stream with
  | zero => cases h
  | succ room ih =>
    cases stream with
    | nil => cases h
    | cons c stream =>
      rw [headerLoop] at h
      rw [Nat.add_right_comm, headerLoop]
      split_ifs at h ⊢ with hend
      · cases h
        refine ⟨rfl, ?_⟩
        rw [List.length_append, List.length_singleton]
        omega
      · obtain ⟨hmore, hlen⟩ := ih h
        rw [List.length_append, List.length_singleton] at hlen
        exact ⟨hmore, by omega⟩

/-- A head for which there is no room is not accepted, whatever follows. -/
theorem httpHeader_long {lines : List Bytes} (hlines : ∀ line ∈ lines, Plain line)
    (hne : lines ≠ []) {cap : ℕ} (hcap : cap ≤ (renderHead lines).length) (rest : Bytes) :
    httpHeader cap (renderHead lines ++ rest) = none := by
  cases h : httpHeader cap (renderHead lines ++ rest) with
  | none => rfl
  | some found =>
    obtain ⟨hmore, hlen⟩ := headerLoop_some h ((renderHead lines).length - (cap - 1))
    rw [headerLoop_render hlines (.inr hne) (by omega) rest, List.nil_append] at hmore
    rw [← (Prod.mk.inj (Option.some.inj hmore)).1, List.length_nil] at hlen
    have hpos : 0 < (renderHead lines).length := by simp [renderHead, crlf]
    omega

/-! ### Fields -/

/-- The value of a line, if it is a field of the name. -/
def fieldValue (name field : Bytes) : Option Bytes :=
  if sameLetters (field.take name.length) name ∧ field[name.length]? = some 58 then
    some ((field.drop (name.length + 1)).dropWhile fun c => c == 32 || c == 9)
  else none

/-- The same for what stands in `text` up to `rest`. -/
def fieldAt (name text rest : Bytes) : Option Bytes :=
  if sameLetters (text.take name.length) name ∧ text[name.length]? = some 58 then
    some (((text.take (text.length - rest.length)).drop (name.length + 1)).dropWhile fun c =>
      c == 32 || c == 9)
  else none

theorem marker_crlf : Marker 13 crlf := ⟨[10], rfl, by decide⟩

theorem search_line {line : Bytes} (h : Plain line) (rest : Bytes) :
    search crlf (line ++ (crlf ++ rest)) = some (crlf ++ rest) := by
  rw [marker_crlf.search_clean h.noReturn, search_append_self]

theorem valueLoop_of_search (name : Bytes) (cap : ℕ) {p rest : Bytes} (hp : p.drop 2 ≠ [])
    (h : search crlf (p.drop 2) = some rest) :
    valueLoop name cap p =
      match fieldAt name (p.drop 2) rest with
      | some value => if cap ≤ value.length then none else some value
      | none => valueLoop name cap rest := by
  rw [valueLoop]
  dsimp only
  rw [if_neg hp]
  split
  · rename_i hnone
    rw [h] at hnone
    cases hnone
  · rename_i rest' hsome
    rw [h] at hsome
    cases hsome
    unfold fieldAt
    by_cases hfield : sameLetters ((p.drop 2).take name.length) name = true ∧
        (p.drop 2)[name.length]? = some 58
    · rw [if_pos hfield, if_pos hfield]
    · rw [if_neg hfield, if_neg hfield]

set_option maxRecDepth 4000 in
theorem toLower_return : ∀ n < 256, toLower (.ofNat n) = 13 → UInt8.ofNat n = 13 := by decide

theorem mem_of_sameLetters {s t : Bytes} (h : sameLetters s t = true) (hs : 13 ∈ s) : 13 ∈ t := by
  have hmap : s.map toLower = t.map toLower := beq_iff_eq.mp h
  have hm : toLower 13 ∈ t.map toLower := hmap ▸ List.mem_map_of_mem hs
  obtain ⟨c, hc, heq⟩ := List.mem_map.mp hm
  have hcr := toLower_return c.toNat c.toNat_lt
  rw [UInt8.ofNat_toNat] at hcr
  exact hcr heq ▸ hc

/-- A name is compared with what stands there, and never beyond the line. -/
theorem fieldAt_line {name : Bytes} (hname : 13 ∉ name) (field rest : Bytes) :
    fieldAt name (field ++ (crlf ++ rest)) (crlf ++ rest) = fieldValue name field := by
  have hfield : (field ++ (crlf ++ rest)).take
      ((field ++ (crlf ++ rest)).length - (crlf ++ rest).length) = field := by
    have hlen : (field ++ (crlf ++ rest)).length = field.length + (crlf ++ rest).length :=
      List.length_append
    rw [hlen, Nat.add_sub_cancel, List.take_left]
  unfold fieldAt fieldValue
  rw [hfield]
  rcases Nat.lt_trichotomy name.length field.length with hlt | heq | hgt
  · rw [List.take_append_of_le_length (by omega), List.getElem?_append_left hlt]
  · have hnone : field[name.length]? = none := List.getElem?_eq_none (by omega)
    have hcr : (field ++ (crlf ++ rest))[name.length]? = some 13 := by
      rw [heq, List.getElem?_append_right (le_refl _), Nat.sub_self]
      rfl
    rw [hnone, hcr]
    simp
  · have hnone : field[name.length]? = none := List.getElem?_eq_none (by omega)
    have hcr : 13 ∈ (field ++ (crlf ++ rest)).take name.length := by
      rw [List.take_append, List.mem_append]
      right
      obtain ⟨k, hk⟩ : ∃ k, name.length - field.length = k + 1 :=
        ⟨name.length - field.length - 1, by omega⟩
      rw [hk]
      exact List.mem_cons_self ..
    rw [if_neg fun h => hname (mem_of_sameLetters h.1 hcr), hnone]
    simp

/-- The first field of the name counts. -/
theorem valueLoop_render {name : Bytes} (hname : 13 ∉ name) (cap : ℕ) {lines : List Bytes}
    (hlines : ∀ line ∈ lines, Plain line) :
    valueLoop name cap (crlf ++ renderHead lines) =
      (lines.findSome? (fieldValue name)).bind fun value =>
        if cap ≤ value.length then none else some value := by
  have hdrop : ∀ text, (crlf ++ text).drop 2 = text := fun _ => rfl
  induction lines with
  | nil =>
    have hend : valueLoop name cap crlf = none := by
      rw [valueLoop]
      exact if_pos rfl
    have hfield : fieldAt name crlf crlf = none := by
      have h := fieldAt_line hname [] []
      simpa [fieldValue] using h
    have hsearch : search crlf ((crlf ++ renderHead []).drop 2) = some crlf :=
      search_append_self crlf []
    rw [valueLoop_of_search name cap (by simp [renderHead, crlf]) hsearch]
    change (match fieldAt name crlf crlf with
      | some value => if cap ≤ value.length then none else some value
      | none => valueLoop name cap crlf) = none
    rw [hfield]
    exact hend
  | cons line lines ih =>
    have hline := hlines line (List.mem_cons_self ..)
    rw [renderHead_cons, valueLoop_of_search name cap (by simp [crlf]) (by
      rw [hdrop]
      exact search_line hline _), hdrop, fieldAt_line hname, List.findSome?_cons]
    cases fieldValue name line with
    | none => exact ih fun l hl => hlines l (List.mem_cons_of_mem _ hl)
    | some value => rfl

theorem headerValue_render (name : Bytes) (hname : 13 ∉ name) (cap : ℕ) {status : Bytes}
    {lines : List Bytes} (hstatus : Plain status) (hlines : ∀ line ∈ lines, Plain line) :
    headerValue (renderHead (status :: lines)) name cap =
      (lines.findSome? (fieldValue name)).bind fun value =>
        if cap ≤ value.length then none else some value := by
  rw [headerValue, renderHead_cons, search_line hstatus]
  exact valueLoop_render hname cap hlines

/-! ### `ws_open` -/

def guid : Bytes := ascii "258EAFA5-E914-47DA-95CA-C5AB0DC85B11"

/-- The request for a WebSocket. -/
def requestText (port : ℕ) (path key : Bytes) : Bytes :=
  ascii "GET " ++ path ++ ascii " HTTP/1.1" ++ crlf ++ ascii "Host: 127.0.0.1:" ++ decimal port ++
    crlf ++ ascii "Upgrade: websocket" ++ crlf ++ ascii "Connection: Upgrade" ++ crlf ++
    ascii "Sec-WebSocket-Version: 13" ++ crlf ++ ascii "Sec-WebSocket-Key: " ++ key ++ crlf ++ crlf

/-- The key and the answer that is expected to it, from what `random_bytes` has brought. -/
def handshakeKeys (random : Bytes) : Option (Bytes × Bytes) :=
  let key := b64 random
  let input := cstr (snprintf 96 (key ++ guid)).2
  (shaDigest input).map fun digest => (key, b64 digest)

/-- `ws_open`: what was sent, and the stream behind the head of the answer. Sending may fail. -/
def wsOpen (random : Bytes) (port : ℕ) (path : Bytes) (sends : Bool) (stream : Bytes) :
    Option (Bytes × Bytes) := do
  let (key, expected) ← handshakeKeys random
  let (n, request) := snprintf 512 (requestText port path key)
  if 512 ≤ n || !sends then none
  else
    let (header, rest) ← httpHeader 2048 stream
    let header := cstr header
    if (ascii "HTTP/1.1 101 ").isPrefixOf header then
      let accept ← headerValue header (ascii "Sec-WebSocket-Accept") 64
      if accept = expected then
        let upgrade ← headerValue header (ascii "Upgrade") 32
        if sameLetters upgrade (ascii "websocket") then some (request.take n, rest) else none
      else none
    else none

/-! ### What the server is asked -/

theorem letter_printable {d : ℕ} (hd : d < 64) : 31 < letters.getD d 0 := by
  have hall : (List.range 64).all (fun d => 31 < letters.getD d 0) = true := rfl
  exact of_decide_eq_true (List.all_eq_true.mp hall d (List.mem_range.mpr hd))

/-- A key is made of printable signs. -/
theorem mem_key {random : Bytes} {c : UInt8} (h : c ∈ encode alphabet random) : 31 < c := by
  rcases mem_encode alphabet h with rfl | ⟨d, hd, rfl⟩
  · decide
  · exact letter_printable hd

theorem mem_guid {c : UInt8} (h : c ∈ guid) : 31 < c := by
  have hall : guid.all (31 < ·) = true := rfl
  exact of_decide_eq_true (List.all_eq_true.mp hall c h)

theorem cstr_eq {text : Bytes} (h : 0 ∉ text) (rest : Bytes) : cstr (text ++ 0 :: rest) = text := by
  have hall : ∀ c ∈ text, (c != 0) = true := by
    intro c hc
    rw [bne_iff_ne]
    rintro rfl
    exact h hc
  rw [cstr, List.takeWhile_append_of_pos hall]
  simp

theorem cstr_self {text : Bytes} (h : 0 ∉ text) : cstr text = text := by
  rw [cstr, List.takeWhile_eq_self_iff]
  intro c hc
  rw [bne_iff_ne]
  rintro rfl
  exact h hc

/-- The answer that RFC 6455 requires to a key. -/
def acceptFor (key : Bytes) : Bytes := encode alphabet (sha1 (key ++ guid))

set_option maxRecDepth 8000 in
/-- The example of RFC 6455. -/
example : acceptFor (ascii "dGhlIHNhbXBsZSBub25jZQ==") = ascii "s3pPLMBiTxaQ9kYGzzhZRbK+xOo=" := by
  rw [acceptFor, sha1, ← shaBlock_eq]
  rfl

/-- The key and the answer to it fit into their buffers. -/
theorem handshakeKeys_eq {random : Bytes} (h : random.length = 16) :
    handshakeKeys random = some (encode alphabet random, acceptFor (encode alphabet random)) := by
  have hlen : (encode alphabet random ++ guid).length = 60 := by
    rw [List.length_append, length_encode, h]
    rfl
  have hzero : 0 ∉ encode alphabet random ++ guid := by
    intro hm
    rcases List.mem_append.mp hm with hm | hm
    · exact absurd (mem_key hm) (by decide)
    · exact absurd (mem_guid hm) (by decide)
  have hinput : cstr (snprintf 96 (encode alphabet random ++ guid)).2 =
      encode alphabet random ++ guid := by
    rw [snprintf, if_neg (by decide), List.take_of_length_le (by omega)]
    exact cstr_eq hzero []
  rw [handshakeKeys, b64_eq, hinput, shaDigest_eq, Option.map_some, b64_eq]
  rfl

/-- The lines of the request. -/
def requestLines (port : ℕ) (path key : Bytes) : List Bytes :=
  [ascii "GET " ++ path ++ ascii " HTTP/1.1", ascii "Host: 127.0.0.1:" ++ decimal port,
    ascii "Upgrade: websocket", ascii "Connection: Upgrade", ascii "Sec-WebSocket-Version: 13",
    ascii "Sec-WebSocket-Key: " ++ key]

theorem requestText_eq (port : ℕ) (path key : Bytes) :
    requestText port path key = renderHead (requestLines port path key) := by
  simp [requestText, renderHead, requestLines]

theorem plain_of_printable {line : Bytes} (hne : line ≠ []) (h : ∀ c ∈ line, 31 < c) :
    Plain line :=
  ⟨hne, fun hm => absurd (h _ hm) (by decide), fun hm => absurd (h _ hm) (by decide),
    fun hm => absurd (h _ hm) (by decide)⟩

/-- What `cdp_path` lets pass in a path. -/
def pathSign (c : UInt8) : Bool :=
  isdigit c || (65 ≤ c && c ≤ 90) || (97 ≤ c && c ≤ 122) || (ascii "/_-").contains c

theorem pathSign_printable {c : UInt8} (h : pathSign c = true) : 31 < c := by
  simp only [pathSign, isdigit, Bool.or_eq_true, Bool.and_eq_true, decide_eq_true_eq,
    List.contains_iff_mem] at h
  rcases h with ((h | h) | h) | h
  · exact UInt8.lt_of_lt_of_le (show 31 < 48 by decide) h.1
  · exact UInt8.lt_of_lt_of_le (show 31 < 65 by decide) h.1
  · exact UInt8.lt_of_lt_of_le (show 31 < 97 by decide) h.1
  · have hall : (ascii "/_-").all (31 < ·) = true := rfl
    exact of_decide_eq_true (List.all_eq_true.mp hall c h)

theorem decimal_printable {n : ℕ} {c : UInt8} (h : c ∈ decimal n) : 31 < c := by
  have hd := decimal_isdigit n c h
  simp only [isdigit, Bool.and_eq_true, decide_eq_true_eq] at hd
  exact UInt8.lt_of_lt_of_le (show 31 < 48 by decide) hd.1

theorem printable_append {s t : Bytes} (hs : ∀ c ∈ s, 31 < c) (ht : ∀ c ∈ t, 31 < c) :
    ∀ c ∈ s ++ t, 31 < c := by
  intro c hc
  exact (List.mem_append.mp hc).elim (hs c) (ht c)

theorem printable_ascii {text : String} (h : (ascii text).all (31 < ·) = true) :
    ∀ c ∈ ascii text, 31 < c := by
  intro c hc
  exact of_decide_eq_true (List.all_eq_true.mp h c hc)

/-- The path and the key cannot add a line to the request. -/
theorem requestLines_plain (port : ℕ) {path : Bytes} (random : Bytes)
    (hpath : ∀ c ∈ path, pathSign c = true) :
    ∀ line ∈ requestLines port path (encode alphabet random), Plain line := by
  intro line hline
  simp only [requestLines, List.mem_cons, List.not_mem_nil, or_false] at hline
  rcases hline with rfl | rfl | rfl | rfl | rfl | rfl
  · apply plain_of_printable (by simp [ascii])
    exact printable_append (printable_append (printable_ascii rfl) fun c hc =>
      pathSign_printable (hpath c hc)) (printable_ascii rfl)
  · apply plain_of_printable (by simp [ascii])
    exact printable_append (printable_ascii rfl) fun c hc => decimal_printable hc
  · exact plain_of_printable (by simp [ascii]) (printable_ascii rfl)
  · exact plain_of_printable (by simp [ascii]) (printable_ascii rfl)
  · exact plain_of_printable (by simp [ascii]) (printable_ascii rfl)
  · apply plain_of_printable (by simp [ascii])
    exact printable_append (printable_ascii rfl) fun c hc => mem_key hc

theorem length_requestText {random path : Bytes} {port : ℕ} (hrandom : random.length = 16)
    (hpath : path.length < 256) (hport : port < 65536) :
    (requestText port path (encode alphabet random)).length < 512 := by
  have hdecimal := decimal_length (k := 5) (n := port) (by omega) (by omega)
  have hlength : ∀ text : String, (ascii text).length = text.toList.length := by simp [ascii]
  simp only [requestText, List.length_append, length_encode, hrandom, hlength, crlf]
  simp
  omega

/-! ### The answer of the server -/

theorem renderHead_noZero {lines : List Bytes} (h : ∀ line ∈ lines, Plain line) :
    0 ∉ renderHead lines := by
  intro hm
  rcases List.mem_append.mp hm with hm | hm
  · obtain ⟨line, hline, hm⟩ := List.mem_flatMap.mp hm
    rcases List.mem_append.mp hm with hm | hm
    · exact (h line hline).noZero hm
    · exact absurd hm (by decide)
  · exact absurd hm (by decide)

/-- The head begins as its first line does. -/
theorem isPrefixOf_renderHead (start : Bytes) {status : Bytes} (hstart : 13 ∉ start)
    (lines : List Bytes) :
    start.isPrefixOf (renderHead (status :: lines)) = true ↔ start <+: status := by
  rw [List.isPrefixOf_iff_prefix, renderHead_cons]
  constructor
  · intro h
    rcases List.prefix_or_prefix_of_prefix h (List.prefix_append status _) with hle | hle
    · exact hle
    · obtain ⟨tail, rfl⟩ := hle
      rw [List.prefix_append_right_inj] at h
      cases tail with
      | nil => rw [List.append_nil]
      | cons c tail =>
        obtain ⟨rfl, -⟩ := List.cons_prefix_cons.mp h
        exact absurd (List.mem_append_right _ (List.mem_cons_self ..)) hstart
  · exact fun h => h.trans (List.prefix_append _ _)

/-- What the lines of an answer must be. -/
structure Accepts (key status : Bytes) (fields : List Bytes) : Prop where
  switches : ascii "HTTP/1.1 101 " <+: status
  accept : fields.findSome? (fieldValue (ascii "Sec-WebSocket-Accept")) = some (acceptFor key)
  upgrade : ∃ value, fields.findSome? (fieldValue (ascii "Upgrade")) = some value ∧
    sameLetters value (ascii "websocket") = true
  room : (renderHead (status :: fields)).length < 2048

/-- The request is sent whole; what is left is to look at the answer. -/
theorem wsOpen_eq {random path : Bytes} {port : ℕ} (hrandom : random.length = 16)
    (hlen : path.length < 256) (hport : port < 65536) (stream : Bytes) :
    wsOpen random port path true stream = (do
      let (header, rest) ← httpHeader 2048 stream
      if (ascii "HTTP/1.1 101 ").isPrefixOf (cstr header) then
        let accept ← headerValue (cstr header) (ascii "Sec-WebSocket-Accept") 64
        if accept = acceptFor (encode alphabet random) then
          let upgrade ← headerValue (cstr header) (ascii "Upgrade") 32
          if sameLetters upgrade (ascii "websocket") then
            some (requestText port path (encode alphabet random), rest)
          else none
        else none
      else none) := by
  have htext := length_requestText hrandom hlen hport
  have hprint : snprintf 512 (requestText port path (encode alphabet random)) =
      ((requestText port path (encode alphabet random)).length,
        requestText port path (encode alphabet random) ++ [0]) := by
    rw [snprintf, if_neg (by decide), List.take_of_length_le (by omega)]
  have hfit : ¬(decide (512 ≤ (requestText port path (encode alphabet random)).length) ||
      !true) = true := by
    simp only [Bool.not_true, Bool.or_false, decide_eq_true_eq]
    omega
  rw [wsOpen, handshakeKeys_eq hrandom]
  simp only [Option.bind_eq_bind, Option.bind_some, hprint]
  rw [if_neg hfit, List.take_left]

theorem length_acceptFor (key : Bytes) : (acceptFor key).length = 28 := by
  have hsha : (sha1 (key ++ guid)).length = 20 := by simp [sha1, wordBytes, Words.toList]
  rw [acceptFor, length_encode, hsha]

theorem sameLetters_length {s t : Bytes} (h : sameLetters s t = true) : s.length = t.length := by
  have hmap : s.map toLower = t.map toLower := beq_iff_eq.mp h
  simpa using congrArg List.length hmap

/-- The answer as the lines tell it. -/
theorem wsOpen_render {random path : Bytes} {port : ℕ} (hrandom : random.length = 16)
    (hlen : path.length < 256) (hport : port < 65536) {status : Bytes} {fields : List Bytes}
    (hstatus : Plain status) (hfields : ∀ line ∈ fields, Plain line) (rest : Bytes) :
    (Accepts (encode alphabet random) status fields →
      wsOpen random port path true (renderHead (status :: fields) ++ rest) =
        some (requestText port path (encode alphabet random), rest)) ∧
    (¬Accepts (encode alphabet random) status fields →
      wsOpen random port path true (renderHead (status :: fields) ++ rest) = none) := by
  have hlines : ∀ line ∈ status :: fields, Plain line := by
    intro line hline
    rcases List.mem_cons.mp hline with rfl | hline
    · exact hstatus
    · exact hfields line hline
  rw [wsOpen_eq hrandom hlen hport]
  by_cases hroom : (renderHead (status :: fields)).length < 2048
  swap
  · rw [httpHeader_long hlines (by simp) (by omega)]
    exact ⟨fun h => absurd h.room hroom, fun _ => rfl⟩
  rw [httpHeader_render hlines (by simp) hroom]
  simp only [Option.bind_eq_bind, Option.bind_some, cstr_self (renderHead_noZero hlines),
    isPrefixOf_renderHead (ascii "HTTP/1.1 101 ") (by decide),
    headerValue_render (ascii "Sec-WebSocket-Accept") (by decide) 64 hstatus hfields,
    headerValue_render (ascii "Upgrade") (by decide) 32 hstatus hfields]
  by_cases hswitch : ascii "HTTP/1.1 101 " <+: status
  swap
  · rw [if_neg hswitch]
    exact ⟨fun h => absurd h.switches hswitch, fun _ => rfl⟩
  rw [if_pos hswitch]
  by_cases haccept : fields.findSome? (fieldValue (ascii "Sec-WebSocket-Accept")) =
      some (acceptFor (encode alphabet random))
  swap
  · refine ⟨fun h => absurd h.accept haccept, fun _ => ?_⟩
    cases hvalue : fields.findSome? (fieldValue (ascii "Sec-WebSocket-Accept")) with
    | none => rfl
    | some value =>
      have hne : value ≠ acceptFor (encode alphabet random) := fun h => haccept (h ▸ hvalue)
      rw [Option.bind_some]
      split_ifs
      · rfl
      · rw [Option.bind_some, if_neg hne]
  rw [haccept, Option.bind_some, if_neg (by rw [length_acceptFor]; omega), Option.bind_some,
    if_pos rfl]
  cases hupgrade : fields.findSome? (fieldValue (ascii "Upgrade")) with
  | none =>
    refine ⟨fun h => ?_, fun _ => rfl⟩
    obtain ⟨value, hvalue, -⟩ := h.upgrade
    rw [hupgrade] at hvalue
    cases hvalue
  | some value =>
    by_cases hsame : sameLetters value (ascii "websocket") = true
    · have hvalue : value.length = 9 := (sameLetters_length hsame).trans (by simp [ascii])
      rw [Option.bind_some, if_neg (by omega), Option.bind_some, if_pos hsame]
      exact ⟨fun _ => rfl, fun h => absurd ⟨hswitch, haccept, ⟨value, hupgrade, hsame⟩, hroom⟩ h⟩
    · refine ⟨fun h => ?_, fun _ => ?_⟩
      · obtain ⟨value', hvalue, hsame'⟩ := h.upgrade
        rw [hupgrade] at hvalue
        exact absurd (Option.some.inj hvalue ▸ hsame') hsame
      · rw [Option.bind_some]
        split_ifs
        · rfl
        · rw [Option.bind_some, if_neg hsame]

/-- Whatever lines a server answers with: the socket is opened exactly if they accept the key. What
was sent is then the request, complete and in its six lines, with the random bytes in the key; and
nothing behind the head has been taken from the stream. -/
theorem wsOpen_iff {random path : Bytes} {port : ℕ} (hrandom : random.length = 16)
    (hpath : ∀ c ∈ path, pathSign c = true) (hlen : path.length < 256) (hport : port < 65536)
    {status : Bytes} {fields : List Bytes} (hstatus : Plain status)
    (hfields : ∀ line ∈ fields, Plain line) (rest : Bytes) :
    ((∃ found, wsOpen random port path true (renderHead (status :: fields) ++ rest) = some found) ↔
      Accepts (encode alphabet random) status fields) ∧
    (∀ request rest', wsOpen random port path true (renderHead (status :: fields) ++ rest) =
        some (request, rest') →
      rest' = rest ∧ httpHeader 512 request = some (request, []) ∧
        request = renderHead (requestLines port path (encode alphabet random)) ∧
        (∀ line ∈ requestLines port path (encode alphabet random), Plain line) ∧
        Library.Base64.decode alphabet (encode alphabet random) = some random) := by
  obtain ⟨hyes, hno⟩ := wsOpen_render hrandom hlen hport hstatus hfields rest
  by_cases h : Accepts (encode alphabet random) status fields
  · have hplain := requestLines_plain port random hpath
    have htext := length_requestText hrandom hlen hport
    rw [hyes h]
    refine ⟨⟨fun _ => h, fun _ => ⟨_, rfl⟩⟩, ?_⟩
    rintro request rest' heq
    obtain ⟨rfl, rfl⟩ := Prod.mk.inj (Option.some.inj heq)
    rw [requestText_eq] at htext ⊢
    have hread := httpHeader_render hplain (by simp [requestLines]) htext []
    rw [List.append_nil] at hread
    exact ⟨rfl, hread, rfl, hplain, decode_encode alphabet random⟩
  · rw [hno h]
    refine ⟨⟨?_, fun h' => absurd h' h⟩, ?_⟩
    · rintro ⟨found, hfound⟩
      cases hfound
    · intro request rest' heq
      cases heq

/-- A server that does not say what it makes of the key. -/
theorem refused_silent : ¬∃ found, wsOpen (List.replicate 16 0) 9222 (ascii "/devtools/page/A") true
    (renderHead [ascii "HTTP/1.1 101 Switching", ascii "Upgrade: websocket"] ++ []) =
      some found := by
  have hplain : ∀ line ∈ [ascii "HTTP/1.1 101 Switching", ascii "Upgrade: websocket"],
      Plain line := by
    intro line hline
    simp only [List.mem_cons, List.not_mem_nil, or_false] at hline
    rcases hline with rfl | rfl <;>
      exact plain_of_printable (by simp [ascii]) (printable_ascii rfl)
  intro h
  have hpath : (ascii "/devtools/page/A").all pathSign = true := rfl
  have haccepts := (wsOpen_iff (by decide) (List.all_eq_true.mp hpath) (by decide) (by decide)
    (hplain _ (List.mem_cons_self ..)) (fun line hl => hplain line (List.mem_cons_of_mem _ hl))
    []).1.mp h |>.accept
  have hnone : [ascii "Upgrade: websocket"].findSome?
      (fieldValue (ascii "Sec-WebSocket-Accept")) = none := rfl
  rw [hnone] at haccepts
  cases haccepts

end ForgeOS.Native.Handshake
