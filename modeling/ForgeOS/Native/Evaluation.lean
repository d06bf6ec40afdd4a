import ForgeOS.Native.MaskedFrames

/-! `evaluate` of the music bridge: it opens a socket to the page, sends its request in one masked
frame and reads messages until one of them answers it. -/

namespace ForgeOS.Native.Evaluation

open DevTools Handshake MaskedFrames WebSocket
open Library.Base64 (encode)

/-! ### Replies -/

/-- What a message is to the loop of `evaluate`: nothing, a failure, or what it ends with. -/
inductive Reading
  | again
  | failed
  | done
  | value (v : Bytes)
  deriving DecidableEq, Repr

/-- What the result of the reply comes to. -/
def conclude (s : Bytes) (t : List JsonToken) (expression : Bool) (cap : ℕ) (outer : ℤ) :
    Option Reading := do
  let exception ← jkey s t outer (ascii "exceptionDetails")
  if 0 ≤ exception then return .failed
  if !expression then return .done
  let inner ← jkey s t outer (ascii "result")
  let type ← memberString s t inner (ascii "type") 16
  if type ≠ some (ascii "string") then return .failed
  let out ← memberString s t inner (ascii "value") cap
  return out.elim .failed .value

/-- The body of the loop, for the text of a message. -/
def reply (s : Bytes) (expression : Bool) (cap : ℕ) : Option Reading :=
  match jparse s with
  | none => some .failed
  | some t => do
    let token ← jkey s t 0 (ascii "id")
    if token < 0 then return .again
    let id ← (Numbers.juint s t token).value
    if id ≠ some 1 then return .again
    let outer ← jkey s t 0 (ascii "result")
    if outer < 0 then return .failed
    conclude s t expression cap outer

/-- The text that stands in a buffer of this size. -/
def textIn (size : ℕ) (buffer : ℕ → UInt8) : Bytes := cstr ((List.range size).map buffer)

/-- What `ws_message` leaves of the stream. -/
def behind : ℕ → Bytes → Bytes
  | 0, stream => stream
  | packets + 1, stream =>
    match header stream with
    | none => stream
    | some (final, opcode, n, rest) =>
      if opcode < 8 ∧ final then rest.drop n else behind packets (rest.drop n)

/-- The loop over the messages. -/
def replyLoop (pong : Bytes → Bool) (expression : Bool) (cap : ℕ) :
    ℕ → Bytes → (ℕ → UInt8) → Option Reading
  | 0, _, _ => some .failed
  | events + 1, stream, response =>
    let w := wsMessage pong limit stream response
    if w.result ≠ 0 then some .failed
    else do
      let response := storeAll w.stores response
      match ← reply (textIn limit response) expression cap with
      | .again => replyLoop pong expression cap events (behind 32 stream) response
      | r => return r

def conclusion (expression : Bool) (cap : ℕ) (outer : Value) : Reading :=
  if (outer.get (ascii "exceptionDetails")).isSome then .failed
  else if !expression then .done
  else
    match outer.get (ascii "result") with
    | none => .failed
    | some inner =>
      if inner.field (ascii "type") 16 ≠ some (ascii "string") then .failed
      else (inner.field (ascii "value") cap).elim .failed .value

/-- What a message says to the request: its number, and a string that fits. -/
def reading (expression : Bool) (cap : ℕ) (v : Value) : Reading :=
  if (v.get (ascii "id")).bind Value.uint ≠ some 1 then .again
  else (v.get (ascii "result")).elim .failed (conclusion expression cap)

theorem conclude_placed {s : Bytes} {t : List JsonToken} {index : ℕ} {outer : Value}
    (h : Placed s t index outer) (hlength : s.length < 2 ^ 31) (expression : Bool) {cap : ℕ}
    (hcap : 0 < cap) :
    conclude s t expression cap index = some (conclusion expression cap outer) := by
  simp only [conclude, conclusion, Option.bind_eq_bind, Option.pure_def]
  cases hexception : outer.get (ascii "exceptionDetails") with
  | some exception =>
    obtain ⟨n, hn, -⟩ := jkey_of_get h hlength (by decide) hexception
    rw [hn, Option.bind_some, if_pos (by omega)]
    rfl
  | none =>
    rw [jkey_of_get_none h hlength (by decide) hexception, Option.bind_some, if_neg (by omega)]
    cases expression with
    | false => rfl
    | true =>
      cases hinner : outer.get (ascii "result") with
      | none =>
        have habsent : memberString s t (-1) (ascii "type") 16 = some none := by
          rw [memberString, jkey_absent]
          rfl
        rw [jkey_of_get_none h hlength (by decide) hinner, Option.bind_some, habsent]
        rfl
      | some inner =>
        obtain ⟨n, hn, hin⟩ := jkey_of_get h hlength (by decide) hinner
        rw [hn, Option.bind_some, jstring_field hin hlength (by decide) (by decide),
          jstring_field hin hlength (by decide) hcap]
        simp only [Option.bind_some, Option.isSome_none, Bool.false_eq_true, if_false,
          Bool.not_true]
        split <;> rfl

theorem reply_readable {text : JsonText} {s : Bytes} (h : Readable text s)
    (hlength : s.length < 2 ^ 31) (expression : Bool) {cap : ℕ} (hcap : 0 < cap) :
    reply s expression cap = some (reading expression cap text.value) := by
  have hroot := h.placed
  rw [reply, h.jparse]
  generalize text.spans.map Span.token = t at hroot
  simp only [Option.bind_eq_bind, Option.pure_def]
  cases hid : text.value.get (ascii "id") with
  | none =>
    have hkey : jkey s t 0 (ascii "id") = some (-1) :=
      jkey_of_get_none hroot hlength (by decide) hid
    rw [reading, hid, hkey]
    rfl
  | some id =>
    obtain ⟨k, hk, hplaced⟩ := jkey_of_get hroot hlength (by decide) hid
    have hkey : jkey s t 0 (ascii "id") = some (k : ℤ) := hk
    obtain ⟨out, hout, huint⟩ := juint_placed hplaced hlength
    have hone : out = some 1 ↔ (some id).bind Value.uint = some 1 := by
      rw [Option.bind_some, ← huint, Option.map_eq_some_iff]
      constructor
      · rintro rfl
        exact ⟨1, rfl, rfl⟩
      · rintro ⟨n, rfl, hn⟩
        rw [UInt64.toNat_inj.mp (hn.trans UInt64.toNat_one.symm)]
    rw [reading, hid, hkey, Option.bind_some, if_neg (by omega), hout, Option.bind_some]
    by_cases hother : out = some 1
    · rw [if_neg (not_not.mpr hother), if_neg (not_not.mpr (hone.mp hother))]
      cases houter : text.value.get (ascii "result") with
      | none =>
        have hkey : jkey s t 0 (ascii "result") = some (-1) :=
          jkey_of_get_none hroot hlength (by decide) houter
        rw [hkey]
        rfl
      | some outer =>
        obtain ⟨n, hn, hplaced⟩ := jkey_of_get hroot hlength (by decide) houter
        have hkey : jkey s t 0 (ascii "result") = some (n : ℤ) := hn
        rw [hkey, Option.bind_some, if_neg (by omega)]
        exact conclude_placed hplaced hlength expression hcap
    · rw [if_pos hother, if_pos (mt hone.mpr hother)]

theorem reply_unreadable {s : Bytes} (hzero : 0 ∉ s) (h : ¬∃ text, Readable text s)
    (expression : Bool) (cap : ℕ) : reply s expression cap = some .failed := by
  cases hparse : jparse s with
  | none => rw [reply, hparse]
  | some t =>
    obtain ⟨text, hrender, hcount, hdepth, -⟩ := (jparse_eq_some hzero).mp hparse
    exact absurd ⟨text, hrender, hcount, hdepth⟩ h

/-! ### The messages -/

theorem textIn_put (buffer : ℕ → UInt8) {size : ℕ} {data : Bytes} (hfits : data.length < size)
    (hzero : 0 ∉ data) : textIn size (put buffer 0 (data ++ [0])) = data := by
  have hlist : (List.range size).map (put buffer 0 (data ++ [0])) =
      data ++ 0 :: (List.range (size - data.length - 1)).map
        (fun i => buffer (data.length + 1 + i)) := by
    apply List.ext_getElem
    · simp only [List.length_map, List.length_range, List.length_append, List.length_cons]
      omega
    · intro i h₁ h₂
      rw [List.getElem_map, List.getElem_range, put, if_pos (Nat.zero_le i), Nat.sub_zero]
      rcases Nat.lt_trichotomy i data.length with hi | rfl | hi
      · rw [List.getElem_append_left hi, List.getElem?_append_left hi, List.getElem?_eq_getElem hi]
        rfl
      · rw [List.getElem_append_right (Nat.le_refl _), List.getElem?_append_right (Nat.le_refl _)]
        simp only [Nat.sub_self, List.getElem?_cons_zero, Option.getD_some, List.getElem_cons_zero]
      · obtain ⟨k, rfl⟩ : ∃ k, i = data.length + 1 + k := ⟨i - data.length - 1, by omega⟩
        have hk : data.length + 1 + k - data.length = k + 1 := by omega
        have hnone : (data ++ [0])[data.length + 1 + k]? = none := by
          rw [List.getElem?_eq_none_iff, List.length_append, List.length_singleton]
          omega
        rw [hnone, Option.getD_none, List.getElem_append_right (by omega)]
        simp only [hk, List.getElem_cons_succ, List.getElem_map, List.getElem_range]
  rw [textIn, hlist, cstr_eq hzero]

theorem behind_brings {fragmented : Bool} {frames : List Frame} {data : Bytes}
    (h : Brings fragmented frames data) : ∀ {packets : ℕ} (rest : Bytes),
      frames.length ≤ packets → behind packets (frames.flatMap Frame.render ++ rest) = rest := by
  induction h with
  | @control fragmented f fs data hf h ih =>
    intro packets rest hpackets
    rw [List.length_cons] at hpackets
    obtain ⟨packets, rfl⟩ : ∃ k, packets = k + 1 := ⟨packets - 1, by omega⟩
    have hopcode : ¬f.opcode < 8 := by
      rcases hf.opcode with hop | hop <;> rw [hop] <;> decide
    rw [List.flatMap_cons, List.append_assoc, behind, header_render]
    simp only [hopcode, false_and, if_false, List.drop_left]
    exact ih rest (by omega)
  | @last fragmented f hop hfinal =>
    intro packets rest hpackets
    rw [List.length_singleton] at hpackets
    obtain ⟨packets, rfl⟩ : ∃ k, packets = k + 1 := ⟨packets - 1, by omega⟩
    have hopcode : f.opcode < 8 := by
      rw [hop]
      cases fragmented <;> decide
    rw [List.flatMap_cons, List.flatMap_nil, List.append_nil, behind, header_render]
    simp only [hopcode, hfinal, and_self, if_true, List.drop_left]
  | @part fragmented f fs data hop hfinal h ih =>
    intro packets rest hpackets
    rw [List.length_cons] at hpackets
    obtain ⟨packets, rfl⟩ : ∃ k, packets = k + 1 := ⟨packets - 1, by omega⟩
    rw [List.flatMap_cons, List.append_assoc, behind, header_render]
    simp only [hfinal, Bool.false_eq_true, and_false, if_false, List.drop_left]
    exact ih rest (by omega)

/-- What a message comes to. -/
def Says (expression : Bool) (cap : ℕ) (data : Bytes) (r : Reading) : Prop :=
  ∃ text, Readable text data ∧ reading expression cap text.value = r

/-- Among so many messages there is one that ends the loop, behind others that say nothing. -/
inductive Answers (expression : Bool) (cap : ℕ) (r : Reading) : ℕ → Bytes → Prop
  | here {n : ℕ} {frames : List Frame} {data rest : Bytes}
    (hm : Message limit (frames.flatMap Frame.render ++ rest) frames data)
    (hsaid : Says expression cap data r) :
    Answers expression cap r (n + 1) (frames.flatMap Frame.render ++ rest)
  | later {n : ℕ} {frames : List Frame} {data rest : Bytes}
    (hm : Message limit (frames.flatMap Frame.render ++ rest) frames data)
    (hsaid : Says expression cap data .again) (h : Answers expression cap r n rest) :
    Answers expression cap r (n + 1) (frames.flatMap Frame.render ++ rest)

section Loop

variable {pong : Bytes → Bool} {expression : Bool} {cap : ℕ}

/-- One turn of the loop for a message. -/
theorem replyLoop_message (expression : Bool) (cap : ℕ)
    (hpong : ∀ payload, pong payload = true) {frames : List Frame} {data rest : Bytes}
    (hm : Message limit (frames.flatMap Frame.render ++ rest) frames data)
    (events : ℕ) (response : ℕ → UInt8) :
    ∃ response', replyLoop pong expression cap (events + 1) (frames.flatMap Frame.render ++ rest)
        response =
      (reply data expression cap).bind fun r =>
        if r = .again then replyLoop pong expression cap events rest response' else some r := by
  obtain ⟨hresult, hmemory, -⟩ := wsMessage_spec hpong limit (frames.flatMap Frame.render ++ rest)
    response
  refine ⟨put response 0 (data ++ [0]), ?_⟩
  rw [replyLoop, if_neg (not_not.mpr (hresult.mpr ⟨frames, data, hm⟩)), hmemory frames data hm]
  simp only [textIn_put response hm.fits hm.noZero, behind_brings hm.brings rest hm.count,
    Option.bind_eq_bind, Option.pure_def]
  congr 1
  funext r
  cases r <;> rfl

/-- No turn reads outside of a message. -/
theorem reply_total {data : Bytes} (hzero : 0 ∉ data) (hlength : data.length < 2 ^ 31)
    (expression : Bool) (hcap : 0 < cap) : ∃ r, reply data expression cap = some r ∧
      (r ≠ .failed → Says expression cap data r) := by
  by_cases h : ∃ text, Readable text data
  · obtain ⟨text, htext⟩ := h
    exact ⟨_, reply_readable htext hlength expression hcap, fun _ => ⟨text, htext, rfl⟩⟩
  · exact ⟨_, reply_unreadable hzero h expression cap, fun hne => absurd rfl hne⟩

theorem reply_of_says {data : Bytes} (hlength : data.length < 2 ^ 31) (hcap : 0 < cap) {r : Reading}
    (h : Says expression cap data r) : reply data expression cap = some r := by
  obtain ⟨text, htext, rfl⟩ := h
  exact reply_readable htext hlength expression hcap

theorem length_lt_of_fits {data : Bytes} (h : data.length < limit) : data.length < 2 ^ 31 :=
  h.trans (by decide)

/-- The loop ends for every stream, with no read outside of a message, and what it ends with is
said by the first message that answers. -/
theorem replyLoop_total (hpong : ∀ payload, pong payload = true) (expression : Bool)
    (hcap : 0 < cap) (events : ℕ) : ∀ (stream : Bytes) (response : ℕ → UInt8),
      ∃ r, replyLoop pong expression cap events stream response = some r ∧ r ≠ .again ∧
        (r ≠ .failed → Answers expression cap r events stream) := by
  induction events with
  | zero => exact fun stream response => ⟨.failed, rfl, by decide, fun h => absurd rfl h⟩
  | succ events ih =>
    intro stream response
    by_cases hmessage : ∃ frames data, Message limit stream frames data
    · obtain ⟨frames, data, hm⟩ := hmessage
      obtain ⟨rest, rfl⟩ := hm.starts
      obtain ⟨response', hloop⟩ := replyLoop_message expression cap hpong
        hm events response
      obtain ⟨r, hr, hsaid⟩ := reply_total hm.noZero (length_lt_of_fits hm.fits) expression hcap
      rw [hloop, hr, Option.bind_some]
      by_cases hagain : r = .again
      · subst hagain
        rw [if_pos rfl]
        obtain ⟨r, hr, hne, hanswers⟩ := ih rest response'
        exact ⟨r, hr, hne, fun hok => .later hm (hsaid (by decide)) (hanswers hok)⟩
      · rw [if_neg hagain]
        exact ⟨r, rfl, hagain, fun hok => .here hm (hsaid hok)⟩
    · have hfail : (wsMessage pong limit stream response).result ≠ 0 := fun h =>
        hmessage ((wsMessage_spec hpong limit stream response).1.mp h)
      rw [replyLoop, if_pos hfail]
      exact ⟨.failed, rfl, by decide, fun h => absurd rfl h⟩

theorem replyLoop_answers (hpong : ∀ payload, pong payload = true) (hcap : 0 < cap) {r : Reading}
    (hagain : r ≠ .again) {events : ℕ} {stream : Bytes}
    (h : Answers expression cap r events stream) : ∀ response : ℕ → UInt8,
      replyLoop pong expression cap events stream response = some r := by
  induction h with
  | here hm hsaid =>
    intro response
    obtain ⟨response', hloop⟩ := replyLoop_message expression cap hpong
      hm _ response
    rw [hloop, reply_of_says (length_lt_of_fits hm.fits) hcap hsaid, Option.bind_some,
      if_neg hagain]
  | later hm hsaid h ih =>
    intro response
    obtain ⟨response', hloop⟩ := replyLoop_message expression cap hpong
      hm _ response
    rw [hloop, reply_of_says (length_lt_of_fits hm.fits) hcap hsaid, Option.bind_some, if_pos rfl]
    exact ih response'

theorem replyLoop_iff (hpong : ∀ payload, pong payload = true) (expression : Bool)
    (hcap : 0 < cap) {r : Reading}
    (hfailed : r ≠ .failed) (hagain : r ≠ .again) (events : ℕ) (stream : Bytes)
    (response : ℕ → UInt8) :
    replyLoop pong expression cap events stream response = some r ↔
      Answers expression cap r events stream := by
  constructor
  · intro h
    obtain ⟨r', hr', -, hanswers⟩ := replyLoop_total hpong expression hcap events
      stream response
    rw [h, Option.some.injEq] at hr'
    exact hr' ▸ hanswers (hr' ▸ hfailed)
  · exact fun h => replyLoop_answers hpong hcap hagain h response

end Loop

/-! ### The request -/

/-- The request, around the quoted text of the expression if there is one. -/
def requestOf : Option Bytes → Bytes
  | some text =>
    ascii "\x7b\"id\":1,\"method\":\"Runtime.evaluate\",\"params\":\x7b\"expression\":" ++
      text ++ ascii ",\"returnByValue\":true,\"awaitPromise\":true,\"userGesture\":true\x7d\x7d"
  | none => ascii "\x7b\"id\":1,\"method\":\"Page.bringToFront\"\x7d"

/-- The quoted text of the expression, as it stands in its buffer. A store behind the buffer ends
everything. -/
def quotedIn (buffer : ℕ → UInt8) (expression : Bytes) : Option (Option Bytes) :=
  let w := jquote expression 8192
  if w.stores.any (8192 ≤ ·.1) then none
  else if w.result = 0 then some (some (textIn 8192 (storeAll w.stores buffer)))
  else some none

theorem isDigits_one : IsDigits [49] := by
  refine ⟨List.cons_ne_nil _ _, fun c hc => ?_⟩
  rw [List.mem_singleton.mp hc]
  rfl

def one : Value := .scalar ⟨[49], .inr (.inl ⟨[], [49], [], [], .inl rfl,
  .inr ⟨isDigits_one, by decide⟩, .inl rfl, .inl rfl, rfl⟩)⟩

def yes : Value := .scalar ⟨wordTrue, .inl (.inl rfl)⟩

/-- The request as a value. -/
def requestValue : Option Bytes → Value
  | some expression => .ofFields (ascii "id", one)
      [(ascii "method", .ofText (ascii "Runtime.evaluate")),
        (ascii "params", .ofFields (ascii "expression", .ofText expression)
          [(ascii "returnByValue", yes), (ascii "awaitPromise", yes), (ascii "userGesture", yes)])]
  | none => .ofFields (ascii "id", one) [(ascii "method", .ofText (ascii "Page.bringToFront"))]

theorem requestOf_render (expression : Option Bytes) :
    requestOf (expression.map quoteText) = (requestValue expression).render := by
  cases expression with
  | none => rfl
  | some e =>
    rw [Option.map_some, requestOf, List.append_assoc]
    simp only [requestValue, Value.ofFields_render, fieldText, Value.ofText_render,
      List.flatMap_cons, List.flatMap_nil, List.append_nil, List.append_assoc, List.cons_append]
    rfl

/-- A request is one JSON text, in which the expression is the text of one string: whatever signs it
is made of, it cannot end before the quotation mark behind it. -/
structure Asks (text : Bytes) (expression : Option Bytes) : Prop where
  readable : ∃ json, Readable json text ∧ json.value = requestValue expression
  id : ((requestValue expression).get (ascii "id")).bind Value.uint = some 1
  method : ((requestValue expression).get (ascii "method")).bind Value.string =
    some (expression.elim (ascii "Page.bringToFront") fun _ => ascii "Runtime.evaluate")
  expression : ((requestValue expression).get (ascii "params")).bind
    (Value.get · (ascii "expression")) = expression.map Value.ofText

theorem requestOf_asks (expression : Option Bytes) :
    Asks (requestOf (expression.map quoteText)) expression := by
  constructor
  · refine ⟨⟨noBlank, requestValue expression, noBlank⟩, ⟨?_, ?_, ?_⟩, rfl⟩
    · rw [requestOf_render]
      exact List.append_nil _
    · cases expression with
      | none => exact (by decide : 5 ≤ maxTokens)
      | some e => exact (by decide : 15 ≤ maxTokens)
    · cases expression with
      | none => exact (by decide : 1 ≤ maxDepth)
      | some e => exact (by decide : 2 ≤ maxDepth)
  · cases expression <;> rw [requestValue, Value.get_ofFields] <;> rfl
  · cases expression with
    | none =>
      rw [requestValue, Value.get_ofFields]
      exact Value.ofText_string (ascii "Page.bringToFront")
    | some e =>
      rw [requestValue, Value.get_ofFields]
      exact Value.ofText_string (ascii "Runtime.evaluate")
  · cases expression <;> rw [requestValue, Value.get_ofFields] <;> rfl

theorem length_ascii (text : String) : (ascii text).length = text.toList.length := by
  simp [ascii]

theorem length_requestOf {text : Option Bytes} (h : ∀ q ∈ text, q.length < 8192) :
    (requestOf text).length < 9000 := by
  cases text with
  | none =>
    rw [requestOf, length_ascii]
    decide
  | some q =>
    have hq := h q rfl
    rw [requestOf, List.length_append, List.length_append, length_ascii, length_ascii]
    simp
    omega

/-! ### `evaluate` -/

/-- What `evaluate` comes to, and what it has sent on the socket by then. -/
structure Evaluated where
  result : Reading
  sent : List Bytes

/-- The part of `evaluate` that has a socket. -/
def exchange (pong : Bytes → Bool) (mask : Bytes) (text : Option Bytes) (cap : ℕ) (stream : Bytes)
    (response : ℕ → UInt8) : Option Evaluated :=
  let (n, request) := snprintf 9000 (requestOf text)
  if 9000 ≤ n then some ⟨.failed, []⟩
  else
    match wsSend 1 mask (request.take n) with
    | none => some ⟨.failed, []⟩
    | some sent => (replyLoop pong text.isSome cap 16 stream response).map (⟨·, [sent]⟩)

/-- The quoted expression if there is one. -/
def quotedOf (buffer : ℕ → UInt8) : Option Bytes → Option (Option (Option Bytes))
  | none => some (some none)
  | some e => (quotedIn buffer e).map (·.map some)

/-- `evaluate`, on what the browser sends when it is asked for its pages and on the socket. -/
def evaluate (bits port : ℕ) (pong : Bytes → Bool) (expression : Option Bytes) (cap : ℕ)
    (random mask listed stream : Bytes) (buffer response : ℕ → UInt8) : Option Evaluated := do
  match ← cdpPath bits port 256 listed with
  | none => return ⟨.failed, []⟩
  | some path =>
    match ← quotedOf buffer expression with
    | none => return ⟨.failed, []⟩
    | some text =>
      match wsOpen random port path true stream with
      | none => return ⟨.failed, []⟩
      | some (request, rest) =>
        let e ← exchange pong mask text cap rest response
        return { e with sent := request :: e.sent }

/-- An answer over HTTP: the lines of its head, and what comes behind it. -/
structure Answer where
  status : Bytes
  fields : List Bytes
  rest : Bytes
  status_plain : Plain status
  fields_plain : ∀ line ∈ fields, Plain line

def Answer.stream (a : Answer) : Bytes := renderHead (a.status :: a.fields) ++ a.rest

theorem quotedIn_eq (buffer : ℕ → UInt8) {e : Bytes} (h : ¬OneTooLong e 8192) :
    quotedIn buffer e =
      some (if (quoteText e).length < 8192 then some (quoteText e) else none) := by
  have hinside : ((jquote e 8192).stores.any (8192 ≤ ·.1)) = false := by
    rw [List.any_eq_false]
    intro w hw
    have hlt := ((jquote_inside_iff e 8192).mpr h).1 w hw
    simpa using hlt
  rw [quotedIn, hinside, if_neg Bool.false_ne_true]
  split_ifs with hresult hroom hroom
  · rw [jquote_memory hresult, textIn_put buffer hroom (quoteText_noZero e)]
  · exact absurd (((jquote_result e 8192).mp hresult).resolve_right h) hroom
  · exact absurd ((jquote_result e 8192).mpr (.inl hroom)) hresult
  · rfl

theorem exchange_eq (pong : Bytes → Bool) (mask : Bytes) {text : Option Bytes}
    (h : ∀ q ∈ text, q.length < 8192) (cap : ℕ) (stream : Bytes) (response : ℕ → UInt8) :
    exchange pong mask text cap stream response =
      (replyLoop pong text.isSome cap 16 stream response).map
        (⟨·, [frame 1 mask (requestOf text)]⟩) := by
  have hlength := length_requestOf h
  have hlimit : ¬limit < (requestOf text).length := by
    rw [limit]
    omega
  rw [exchange, snprintf, if_neg (by decide), List.take_of_length_le (by omega)]
  simp only [if_neg (Nat.not_le.mpr hlength), List.take_left, wsSend, if_neg hlimit]

theorem quotedOf_eq (buffer : ℕ → UInt8) {expression : Option Bytes}
    (h : ∀ e ∈ expression, ¬OneTooLong e 8192) :
    quotedOf buffer expression = some (if ∀ e ∈ expression, (quoteText e).length < 8192 then
      some (expression.map quoteText) else none) := by
  cases expression with
  | none => simp [quotedOf]
  | some e =>
    rw [quotedOf, quotedIn_eq buffer (h e rfl)]
    by_cases hroom : (quoteText e).length < 8192
    · simp [hroom]
    · simp [hroom]

section Evaluate

variable {bits port cap : ℕ} {pong : Bytes → Bool} {expression : Option Bytes} {random mask : Bytes}
  {listed opened : Answer} {buffer response : ℕ → UInt8}

/-- What must come together before a request is sent: one page, an expression that fits, and a
server that takes the key. -/
structure Reaches (bits port : ℕ) (expression : Option Bytes) (random : Bytes)
    (listed opened : Answer) : Prop where
  page : ∃ path, Lists bits port 256 listed.status listed.fields listed.rest path
  room : ∀ e ∈ expression, (quoteText e).length < 8192
  accepts : Accepts (encode alphabet random) opened.status opened.fields

theorem evaluate_failed (h : cdpPath bits port 256 listed.stream = some none ∨
    (∃ path, cdpPath bits port 256 listed.stream = some (some path) ∧
      (quotedOf buffer expression = some none ∨
        ∃ text, quotedOf buffer expression = some (some text) ∧
          wsOpen random port path true opened.stream = none))) :
    evaluate bits port pong expression cap random mask listed.stream opened.stream buffer response =
      some ⟨.failed, []⟩ := by
  rw [evaluate]
  rcases h with h | ⟨path, h, hq | ⟨text, hq, ho⟩⟩
  · rw [h]
    rfl
  · simp only [h, hq, Option.bind_eq_bind, Option.bind_some]
    rfl
  · simp only [h, hq, ho, Option.bind_eq_bind, Option.bind_some]
    rfl

/-- The request goes out and the messages decide. -/
theorem evaluate_opened {path : Bytes} (hport : port < 65536) (hrandom : random.length = 16)
    (hquote : ∀ e ∈ expression, ¬OneTooLong e 8192)
    (hpage : Lists bits port 256 listed.status listed.fields listed.rest path)
    (hroom : ∀ e ∈ expression, (quoteText e).length < 8192)
    (haccepts : Accepts (encode alphabet random) opened.status opened.fields) :
    evaluate bits port pong expression cap random mask listed.stream opened.stream buffer response =
      (replyLoop pong expression.isSome cap 16 opened.rest response).map
        (⟨·, [requestText port path (encode alphabet random),
          frame 1 mask (requestOf (expression.map quoteText))]⟩) := by
  have hfound := cdpPath_of_lists listed.status_plain listed.fields_plain hpage
  have hopen := (wsOpen_render hrandom hpage.path.2.2 hport opened.status_plain
    opened.fields_plain opened.rest).1 haccepts
  have htext : ∀ q ∈ expression.map quoteText, q.length < 8192 := by
    intro q hq
    obtain ⟨e, he, rfl⟩ := Option.map_eq_some_iff.mp hq
    exact hroom e he
  have hsome : (expression.map quoteText).isSome = expression.isSome := Option.isSome_map
  rw [evaluate, Answer.stream, hfound, quotedOf_eq buffer hquote, if_pos hroom, Answer.stream]
  simp only [Option.bind_eq_bind, Option.bind_some, hopen, exchange_eq pong mask htext, hsome]
  cases replyLoop pong expression.isSome cap 16 opened.rest response <;> rfl

/-- Without any of these, there is no request. -/
theorem evaluate_refused (hport : port < 65536) (hrandom : random.length = 16)
    (hquote : ∀ e ∈ expression, ¬OneTooLong e 8192)
    (h : ¬Reaches bits port expression random listed opened) :
    evaluate bits port pong expression cap random mask listed.stream opened.stream buffer response =
      some ⟨.failed, []⟩ := by
  obtain ⟨found, hfound, hpaths⟩ : ∃ found, cdpPath bits port 256 listed.stream = some found ∧
      ∀ path, found = some path ↔
        Lists bits port 256 listed.status listed.fields listed.rest path :=
    cdpPath_total listed.status_plain listed.fields_plain listed.rest
  apply evaluate_failed
  cases found with
  | none => exact .inl hfound
  | some path =>
    have hpage := (hpaths path).mp rfl
    refine .inr ⟨path, hfound, ?_⟩
    rw [quotedOf_eq buffer hquote]
    by_cases hroom : ∀ e ∈ expression, (quoteText e).length < 8192
    · rw [if_pos hroom]
      refine .inr ⟨_, rfl, ?_⟩
      exact (wsOpen_render hrandom hpage.path.2.2 hport opened.status_plain opened.fields_plain
        opened.rest).2 fun haccepts => h ⟨⟨path, hpage⟩, hroom, haccepts⟩
    · rw [if_neg hroom]
      exact .inl rfl

/-- Whatever the browser answers, `evaluate` ends without a read or a store outside of its buffers.
It comes to a result exactly if the browser lists one page that may be controlled, the expression
fits, the server takes the key and one of the next sixteen messages says this result. What the
server has been sent by then is the request for a socket and one frame, in which it reads the
expression as one string. -/
theorem evaluate_iff (hpong : ∀ payload, pong payload = true) (hcap : 0 < cap)
    (hport : port < 65536) (hrandom : random.length = 16) (hmask : mask.length = 4)
    (hquote : ∀ e ∈ expression, ¬OneTooLong e 8192) {r : Reading} (hfailed : r ≠ .failed)
    (hagain : r ≠ .again) :
    (∃ e, evaluate bits port pong expression cap random mask listed.stream opened.stream buffer
      response = some e) ∧
    ((∃ sent, evaluate bits port pong expression cap random mask listed.stream opened.stream buffer
        response = some ⟨r, sent⟩) ↔
      Reaches bits port expression random listed opened ∧
        Answers expression.isSome cap r 16 opened.rest) ∧
    ∀ sent, evaluate bits port pong expression cap random mask listed.stream opened.stream buffer
        response = some ⟨r, sent⟩ →
      ∃ path text, Lists bits port 256 listed.status listed.fields listed.rest path ∧
        sent = [requestText port path (encode alphabet random), frame 1 mask text] ∧
        Asks text expression ∧ readMasked (frame 1 mask text) = some (true, 1, text, []) := by
  by_cases h : Reaches bits port expression random listed opened
  · obtain ⟨⟨path, hpage⟩, hroom, haccepts⟩ := id h
    obtain ⟨r', hr', -⟩ := replyLoop_total hpong expression.isSome hcap 16
      opened.rest response
    have hiff := replyLoop_iff hpong expression.isSome hcap hfailed hagain 16
      opened.rest response
    have htext : ∀ q ∈ expression.map quoteText, q.length < 8192 := by
      intro q hq
      obtain ⟨e, he, rfl⟩ := Option.map_eq_some_iff.mp hq
      exact hroom e he
    have hlength := length_requestOf htext
    rw [hr', Option.some.injEq] at hiff
    rw [evaluate_opened hport hrandom hquote hpage hroom haccepts, hr', Option.map_some]
    refine ⟨⟨_, rfl⟩, ?_, ?_⟩
    · rw [and_iff_right h, ← hiff]
      constructor
      · rintro ⟨sent, hsent⟩
        exact congrArg Evaluated.result (Option.some.inj hsent)
      · rintro rfl
        exact ⟨_, rfl⟩
    · intro sent hsent
      have hframe : readMasked (frame 1 mask (requestOf (expression.map quoteText)) ++ []) =
          some (true, 1, requestOf (expression.map quoteText), []) :=
        readMasked_frame (by decide) hmask (by omega) []
      rw [List.append_nil] at hframe
      exact ⟨path, _, hpage, (congrArg Evaluated.sent (Option.some.inj hsent)).symm,
        requestOf_asks expression, hframe⟩
  · rw [evaluate_refused hport hrandom hquote h]
    refine ⟨⟨_, rfl⟩, ⟨?_, fun h' => absurd h'.1 h⟩, ?_⟩
    · rintro ⟨sent, hsent⟩
      exact absurd (congrArg Evaluated.result (Option.some.inj hsent)).symm hfailed
    · intro sent hsent
      exact absurd (congrArg Evaluated.result (Option.some.inj hsent)).symm hfailed

end Evaluate

/-- A page that answers with a text. -/
def okReply : Value := .ofFields (ascii "id", one)
  [(ascii "result", .ofFields (ascii "result", .ofFields (ascii "type", .ofText (ascii "string"))
    [(ascii "value", .ofText (ascii "ok"))]) [])]

def okFrame : Frame where
  final := true
  opcode := 1
  length := [.ofNat okReply.render.length]
  payload := okReply.render
  opcode_lt := by decide
  length_bytes := .short (show okReply.render.length < 126 by decide)

def okListed : Answer where
  status := ascii "HTTP/1.1 200 OK"
  fields := [ascii "Content-Length: 113"]
  rest := onlyPage.render
  status_plain := plain_of_printable (by simp [ascii]) (printable_ascii rfl)
  fields_plain := by
    intro line hline
    rw [List.mem_singleton.mp hline]
    exact plain_of_printable (by simp [ascii]) (printable_ascii rfl)

def okOpened : Answer where
  status := ascii "HTTP/1.1 101 Switching Protocols"
  fields := [ascii "Upgrade: websocket", ascii "Connection: Upgrade",
    ascii "Sec-WebSocket-Accept: s3pPLMBiTxaQ9kYGzzhZRbK+xOo="]
  rest := okFrame.render
  status_plain := plain_of_printable (by simp [ascii]) (printable_ascii rfl)
  fields_plain := by
    intro line hline
    simp only [List.mem_cons, List.not_mem_nil, or_false] at hline
    rcases hline with rfl | rfl | rfl <;>
      exact plain_of_printable (by simp [ascii]) (printable_ascii rfl)

set_option maxRecDepth 8000 in
theorem ok_accepts : Accepts (encode alphabet (ascii "the sample nonce")) okOpened.status
    okOpened.fields := by
  have haccept : acceptFor (encode alphabet (ascii "the sample nonce")) =
      ascii "s3pPLMBiTxaQ9kYGzzhZRbK+xOo=" := by
    rw [acceptFor, Sha1.sha1, ← Sha1.shaBlock_eq]
    rfl
  refine ⟨⟨ascii "Switching Protocols", rfl⟩, ?_, ⟨ascii "websocket", rfl, rfl⟩, ?_⟩
  · rw [haccept]
    rfl
  · simp [ascii, renderHead, crlf, okOpened]

theorem ok_answers : Answers true 16 (.value (ascii "ok")) 16 okFrame.render := by
  have hreads : Readable ⟨noBlank, okReply, noBlank⟩ okReply.render := by
    refine ⟨List.append_nil _, ?_, ?_⟩
    · exact (by decide : 11 ≤ maxTokens)
    · exact (by decide : 3 ≤ maxDepth)
  have hmessage : Message limit ([okFrame].flatMap Frame.render ++ []) [okFrame] okReply.render :=
    ⟨List.prefix_append _ _, .last rfl rfl, by decide, by decide, by decide⟩
  have hsaid : Says true 16 okReply.render (.value (ascii "ok")) := ⟨_, hreads, rfl⟩
  have hframe : [okFrame].flatMap Frame.render ++ [] = okFrame.render := by simp
  rw [← hframe]
  exact .here hmessage hsaid

theorem ok_evaluated : ∃ sent, evaluate 64 9222 (fun _ => true) (some (ascii "1")) 16
    (ascii "the sample nonce") [1, 2, 3, 4] okListed.stream okOpened.stream (fun _ => 0)
    (fun _ => 0) = some ⟨.value (ascii "ok"), sent⟩ := by
  have hone : ∀ e ∈ some (ascii "1"), (quoteText e).length = 3 := by
    rintro e he
    rw [← Option.some.inj he]
    rfl
  exact (evaluate_iff (fun _ => rfl) (by decide) (by decide) rfl rfl
    (fun e he h => absurd ((hone e he).symm.trans h.1) (by decide)) (by decide)
    (by decide)).2.1.mpr ⟨⟨⟨_, onlyPage_lists⟩, fun e he => by rw [hone e he]; decide, ok_accepts⟩,
      ok_answers⟩

end ForgeOS.Native.Evaluation
