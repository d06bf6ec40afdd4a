import ForgeOS.Native.Handshake
import ForgeOS.Native.JsonWriter

/-! `cdp_path` of the music bridge: it asks the browser for the list of its pages and takes the path
of the one that may be controlled. What the browser answers is a stream. -/

namespace ForgeOS.Native.DevTools

open Handshake

/-- `LIMIT` -/
def limit : ℕ := 16384

/-! ### The page -/

def originOk (s : Bytes) : Bool :=
  let base := ascii "https://music.youtube.com"
  base.isPrefixOf s && ((s.drop base.length).headD 0 ∈ [0, 47, 63, 35])

/-- One turn of the loop over the pages: the path of the page if it may be controlled. -/
def candidate (s : Bytes) (t : List JsonToken) (port cap : ℕ) (page : ℤ) :
    Option (Option Bytes) := do
  let type ← memberString s t page (ascii "type") 32
  if type ≠ some (ascii "page") then return none
  let url ← memberString s t page (ascii "url") 2048
  if !url.any originOk then return none
  let ws ← memberString s t page (ascii "webSocketDebuggerUrl") 256
  return ws.bind fun ws =>
    if (ascii "ws://127.0.0.1:" ++ decimal port ++ ascii "/devtools/page/").isPrefixOf ws then
      let slash := (ws.drop 5).dropWhile (· != 47)
      if slash = [] ∨ cap ≤ slash.length ∨ !slash.all pathSign then none else some slash
    else none

/-- The loop, with the page that is selected so far. A second one ends it without any. -/
def pageLoop (s : Bytes) (t : List JsonToken) (port cap next : ℕ) :
    ℕ → ℕ → Option Bytes → Option (Option Bytes)
  | 0, _, _ => none
  | rounds + 1, index, selected =>
    if index < next then do
      let page ← candidate s t port cap index
      if page.isSome ∧ selected.isSome then return none
      let v ← token t index
      pageLoop s t port cap next rounds v.next (page.or selected)
    else some selected

/-- What `cdp_path` makes of the body. -/
def pageOf (port cap : ℕ) (body : Bytes) : Option (Option Bytes) :=
  match jparse body with
  | none => some none
  | some t => do
    let root ← token t 0
    if root.kind ≠ 91 then return none
    pageLoop body t port cap root.next (t.length + 1) 1 none

/-- `strtoul` in base ten, where `errno` is not set. -/
def strtoul (bits : ℕ) (text : Bytes) : Option (ℕ × Bytes) :=
  let text := skipSpace text
  let negative := text.head? == some 45
  let unsigned := if negative || text.head? == some 43 then text.drop 1 else text
  let digits := unsigned.takeWhile isdigit
  let value := digitsValue digits
  if digits = [] ∨ 2 ^ bits ≤ value then none
  else some (if negative then (2 ^ bits - value) % 2 ^ bits else value, unsigned.dropWhile isdigit)

def listRequest (port : ℕ) : Bytes :=
  ascii "GET /json/list HTTP/1.1\r\nHost: 127.0.0.1:" ++ decimal port ++
    ascii "\r\nConnection: close\r\n\r\n"

/-- `cdp_path`, on the stream that a connection brings if the request can be sent. -/
def cdpPath (bits port cap : ℕ) (stream : Bytes) : Option (Option Bytes) :=
  match httpHeader 2048 stream with
  | none => some none
  | some (head, rest) =>
    let header := cstr head
    if !(ascii "HTTP/1.1 200 ").isPrefixOf header then some none
    else
      match (headerValue header (ascii "Content-Length") 32).bind (strtoul bits) with
      | some (bytes, []) =>
        if bytes = 0 ∨ limit ≤ bytes ∨ rest.length < bytes then some none
        else pageOf port cap (cstr (rest.take bytes))
      | _ => some none

/-! ### The page in terms of values -/

/-- The path of a page that may be controlled. -/
def target (port cap : ℕ) (page : Value) : Option Bytes :=
  if page.field (ascii "type") 32 = some (ascii "page") ∧
      (page.field (ascii "url") 2048).any originOk then
    (page.field (ascii "webSocketDebuggerUrl") 256).bind fun ws =>
      if (ascii "ws://127.0.0.1:" ++ decimal port ++ ascii "/devtools/page/").isPrefixOf ws then
        let slash := (ws.drop 5).dropWhile (· != 47)
        if slash = [] ∨ cap ≤ slash.length ∨ !slash.all pathSign then none else some slash
      else none
  else none

/-- The one that there is. -/
def single {α : Type*} : List α → Option α
  | [a] => some a
  | _ => none

section Page

variable {s : Bytes} {t : List JsonToken} {port cap index : ℕ} {v : Value}

theorem candidate_eq (h : Placed s t index v) (hlength : s.length < 2 ^ 31) :
    candidate s t port cap index = some (target port cap v) := by
  have htype : memberString s t index (ascii "type") 32 = some (v.field (ascii "type") 32) :=
    jstring_field h hlength (by decide) (by decide)
  have hurl : memberString s t index (ascii "url") 2048 = some (v.field (ascii "url") 2048) :=
    jstring_field h hlength (by decide) (by decide)
  have hws : memberString s t index (ascii "webSocketDebuggerUrl") 256 =
      some (v.field (ascii "webSocketDebuggerUrl") 256) :=
    jstring_field h hlength (by decide) (by decide)
  rw [candidate, htype]
  simp only [Option.bind_eq_bind, Option.bind_some, Option.pure_def, hurl, hws, target]
  by_cases hkind : v.field (ascii "type") 32 = some (ascii "page")
  · cases horigin : (v.field (ascii "url") 2048).any originOk with
    | false => simp [hkind]
    | true =>
      simp only [hkind, ne_eq, not_true_eq_false, if_false, Bool.not_true, Bool.false_eq_true,
        and_self, if_true]
  · simp [hkind]

theorem pageLoop_turn (h : Placed s t index v) (hlength : s.length < 2 ^ 31) {next : ℕ}
    (hlt : index < next) (rounds : ℕ) (selected : Option Bytes) :
    pageLoop s t port cap next (rounds + 1) index selected =
      if (target port cap v).isSome ∧ selected.isSome then some none
      else pageLoop s t port cap next rounds (index + v.count)
        ((target port cap v).or selected) := by
  obtain ⟨o, ho, -, hnext⟩ := h.token
  rw [pageLoop, if_pos hlt, candidate_eq h hlength]
  simp only [Option.bind_eq_bind, Option.bind_some, ho, hnext]
  rfl

theorem single_cons {α : Type*} (selected : Option α) (page : Option α) (pages : List α) :
    (if page.isSome ∧ selected.isSome then none
      else single ((page.or selected).toList ++ pages)) =
    single (selected.toList ++ (page.toList ++ pages)) := by
  cases selected with
  | none => cases page <;> simp
  | some a =>
    cases page with
    | none => simp
    | some b => simp [single]

theorem single_eq_some {α : Type*} {l : List α} {a : α} : single l = some a ↔ l = [a] := by
  match l with
  | [] => simp [single]
  | [b] => simp [single]
  | b :: c :: l => simp [single]

theorem single_toList {α : Type*} (selected : Option α) : single selected.toList = selected := by
  cases selected <;> rfl

theorem Value.count_pos (v : Value) : 0 < v.count := by
  cases v with
  | scalar text => exact Nat.one_pos
  | empty object blank => exact Nat.one_pos
  | full object items => exact Nat.succ_pos _

/-- A turn, and the loop over what is behind the page. -/
theorem pageLoop_step (h : Placed s t index v) (hlength : s.length < 2 ^ 31) {next rounds : ℕ}
    (hlt : index < next) {selected : Option Bytes} {pages : List Bytes}
    (hrest : ∀ selected : Option Bytes,
      pageLoop s t port cap next rounds (index + v.count) selected =
        some (single (selected.toList ++ pages))) :
    pageLoop s t port cap next (rounds + 1) index selected =
      some (single (selected.toList ++ ((target port cap v).toList ++ pages))) := by
  rw [pageLoop_turn h hlength hlt, hrest, ← single_cons]
  split <;> rfl

theorem pageLoop_items (hlength : s.length < 2 ^ 31) : ∀ (items : Items false) {index : ℕ},
    PlacedItems s t index items → ∀ {rounds : ℕ} (selected : Option Bytes), items.count < rounds →
      pageLoop s t port cap (index + items.count) rounds index selected =
        some (single (selected.toList ++
          (items.members index).flatMap fun m => (target port cap m.value).toList))
  | .last key before value after, index, h, rounds, selected, hrounds => by
    have hplaced : Placed s t index value := h.last
    have hcount : (Items.last key before value after).count = value.count := Nat.zero_add _
    have hpos := Value.count_pos value
    rw [hcount] at hrounds ⊢
    obtain ⟨rounds, rfl⟩ : ∃ k, rounds = k + 2 := ⟨rounds - 2, by omega⟩
    rw [Items.members, List.flatMap_cons, List.flatMap_nil]
    refine pageLoop_step hplaced hlength (by omega) fun selected => ?_
    rw [pageLoop, if_neg (Nat.lt_irrefl _), List.append_nil, single_toList]
  | .cons key before value after rest, index, h, rounds, selected, hrounds => by
    have hplaced : Placed s t index value := h.cons.1
    have hrest : PlacedItems s t (index + value.count) rest := h.cons.2
    have hcount : (Items.cons key before value after rest).count = value.count + rest.count :=
      Nat.zero_add _
    have hpos := Value.count_pos value
    rw [hcount] at hrounds ⊢
    obtain ⟨rounds, rfl⟩ : ∃ k, rounds = k + 1 := ⟨rounds - 1, by omega⟩
    rw [Items.members, List.flatMap_cons]
    refine pageLoop_step hplaced hlength (by omega) fun selected => ?_
    rw [← Nat.add_assoc]
    exact pageLoop_items hlength rest hrest selected (by omega)

end Page

/-- The paths of the pages that may be controlled, in a list of pages. -/
def pages (port cap : ℕ) : Value → List Bytes
  | .full false items => (items.members 1).flatMap fun m => (target port cap m.value).toList
  | _ => []

/-- A text within the limits of the parser. -/
structure Readable (text : JsonText) (s : Bytes) : Prop where
  render : text.render = s
  count : text.value.count ≤ maxTokens
  depth : text.value.depth ≤ maxDepth

theorem Readable.jparse {text : JsonText} {s : Bytes} (h : Readable text s) :
    jparse s = some (text.spans.map Span.token) := by
  rw [← h.render]
  exact jparse_render text h.count h.depth

theorem Readable.placed {text : JsonText} {s : Bytes} (h : Readable text s) :
    Placed s (text.spans.map Span.token) 0 text.value :=
  ⟨text.before.val, text.after.val, [], [], h.render.symm, by simp [JsonText.spans], rfl⟩

theorem pageOf_readable {port cap : ℕ} {text : JsonText} {body : Bytes} (h : Readable text body)
    (hlength : body.length < 2 ^ 31) :
    pageOf port cap body = some (single (pages port cap text.value)) := by
  obtain ⟨o, ho, hkind, hnext⟩ := h.placed.token
  have hroot : token (text.spans.map Span.token) 0 = some o := ho
  rw [pageOf, h.jparse]
  simp only [Option.bind_eq_bind, hroot, Option.bind_some, hkind, hnext, Nat.zero_add]
  by_cases harray : text.value.kind = 91
  · rw [if_neg (not_not.mpr harray)]
    have hplaced := h.placed
    have hcount := hplaced.count_le
    obtain ⟨blank, hv⟩ | ⟨items, hv⟩ := array_of_kind harray
    · rw [hv]
      rfl
    · rw [hv] at hplaced hcount ⊢
      have hsize : (Value.full false items).count = 1 + items.count := Nat.add_comm ..
      rw [hsize] at hcount ⊢
      exact pageLoop_items hlength items hplaced.items none (by omega)
  · have hnone : pages port cap text.value = [] := by
      generalize text.value = v at harray
      cases v with
      | scalar text => rfl
      | empty object blank => rfl
      | full object items =>
        cases object with
        | false => exact absurd rfl harray
        | true => rfl
    rw [if_pos harray, hnone]
    rfl

theorem pageOf_unreadable {port cap : ℕ} {body : Bytes} (hzero : 0 ∉ body)
    (h : ¬∃ text, Readable text body) : pageOf port cap body = some none := by
  cases hparse : jparse body with
  | none => rw [pageOf, hparse]
  | some t =>
    obtain ⟨text, hrender, hcount, hdepth, -⟩ := (jparse_eq_some hzero).mp hparse
    exact absurd ⟨text, hrender, hcount, hdepth⟩ h

theorem slash_decimal (port : ℕ) (page : Bytes) :
    ((ascii "ws://127.0.0.1:" ++ decimal port ++ ascii "/devtools/page/" ++ page).drop 5).dropWhile
      (· != 47) = ascii "/devtools/page/" ++ page := by
  have hhost : (ascii "127.0.0.1:").all (· != 47) = true := rfl
  have hdigits : ∀ c ∈ decimal port, (c != 47) = true := by
    intro c hc
    rw [bne_iff_ne]
    rintro rfl
    exact absurd (decimal_isdigit port 47 hc) (by decide)
  have hdrop : (ascii "ws://127.0.0.1:" ++ decimal port ++ ascii "/devtools/page/" ++ page).drop 5 =
      ascii "127.0.0.1:" ++ (decimal port ++ (ascii "/devtools/page/" ++ page)) := by
    rw [List.append_assoc, List.append_assoc]
    rfl
  rw [hdrop, List.dropWhile_append_of_pos (List.all_eq_true.mp hhost),
    List.dropWhile_append_of_pos hdigits]
  rfl

theorem target_path {port cap : ℕ} {v : Value} {path : Bytes} (h : target port cap v = some path) :
    (∃ page, path = ascii "/devtools/page/" ++ page) ∧ (∀ c ∈ path, pathSign c = true) ∧
      path.length < cap := by
  rw [target] at h
  split_ifs at h with hpage
  obtain ⟨ws, -, h⟩ := Option.bind_eq_some_iff.mp h
  dsimp only at h
  split_ifs at h with hstart hbad
  obtain rfl := Option.some.inj h
  rw [not_or, not_or] at hbad
  obtain ⟨-, hroom, hsigns⟩ := hbad
  refine ⟨?_, List.all_eq_true.mp (by simpa using hsigns), by omega⟩
  obtain ⟨page, rfl⟩ := List.isPrefixOf_iff_prefix.mp hstart
  exact ⟨page, slash_decimal port page⟩

/-- The paths are those of the browser's pages, and they can stand in a request. -/
theorem pages_path {port cap : ℕ} {v : Value} {path : Bytes} (h : path ∈ pages port cap v) :
    (∃ page, path = ascii "/devtools/page/" ++ page) ∧ (∀ c ∈ path, pathSign c = true) ∧
      path.length < cap := by
  cases v with
  | scalar text => cases h
  | empty object blank => cases h
  | full object items =>
    cases object with
    | true => cases h
    | false =>
      obtain ⟨m, -, hm⟩ := List.mem_flatMap.mp h
      exact target_path (Option.mem_toList.mp hm)

theorem cstr_noZero (text : Bytes) : 0 ∉ cstr text := by
  intro h
  have hne := List.mem_takeWhile_imp h
  exact absurd hne (by decide)

theorem length_cstr (text : Bytes) : (cstr text).length ≤ text.length :=
  (List.takeWhile_sublist _).length_le

/-- What is found in a body: the one path, if it is a list of pages. -/
theorem pageOf_total (port cap : ℕ) {body : Bytes} (hzero : 0 ∉ body)
    (hlength : body.length < 2 ^ 31) : ∃ found, pageOf port cap body = some found ∧
      ∀ path, found = some path ↔
        ∃ text, Readable text body ∧ pages port cap text.value = [path] := by
  by_cases h : ∃ text, Readable text body
  · obtain ⟨text, htext⟩ := h
    refine ⟨_, pageOf_readable htext hlength, fun path => ⟨fun hpath => ?_, ?_⟩⟩
    · exact ⟨text, htext, single_eq_some.mp hpath⟩
    · rintro ⟨text', htext', hpages⟩
      have hsame : some (single (pages port cap text.value)) =
          some (single (pages port cap text'.value)) :=
        (pageOf_readable htext hlength).symm.trans (pageOf_readable htext' hlength)
      rw [Option.some.inj hsame, hpages]
      rfl
  · refine ⟨none, pageOf_unreadable hzero h, fun path => ⟨fun hpath => ?_, ?_⟩⟩
    · cases hpath
    · rintro ⟨text, htext, -⟩
      exact absurd ⟨text, htext⟩ h

/-- What the lines of an answer and the body must be, so that this is the path of the page. -/
structure Lists (bits port cap : ℕ) (status : Bytes) (fields : List Bytes) (rest path : Bytes) :
    Prop where
  ok : ascii "HTTP/1.1 200 " <+: status
  room : (renderHead (status :: fields)).length < 2048
  body : ∃ length bytes text, fields.findSome? (fieldValue (ascii "Content-Length")) = some length ∧
    length.length < 32 ∧ strtoul bits length = some (bytes, []) ∧ 0 < bytes ∧ bytes < limit ∧
    bytes ≤ rest.length ∧ Readable text (cstr (rest.take bytes)) ∧
    pages port cap text.value = [path]

theorem Lists.path {bits port cap : ℕ} {status : Bytes} {fields : List Bytes} {rest path : Bytes}
    (h : Lists bits port cap status fields rest path) :
    (∃ page, path = ascii "/devtools/page/" ++ page) ∧ (∀ c ∈ path, pathSign c = true) ∧
      path.length < cap := by
  obtain ⟨length, bytes, text, -, -, -, -, -, -, -, hpages⟩ := h.body
  apply pages_path (v := text.value)
  rw [hpages]
  exact List.mem_singleton_self path

theorem cdpPath_total {bits port cap : ℕ} {status : Bytes} {fields : List Bytes}
    (hstatus : Plain status) (hfields : ∀ line ∈ fields, Plain line) (rest : Bytes) :
    ∃ found, cdpPath bits port cap (renderHead (status :: fields) ++ rest) = some found ∧
      ∀ path, found = some path ↔ Lists bits port cap status fields rest path := by
  have hlines : ∀ line ∈ status :: fields, Plain line := List.forall_mem_cons.mpr ⟨hstatus, hfields⟩
  have hnone : (∀ path, ¬Lists bits port cap status fields rest path) →
      ∀ path, (none : Option Bytes) = some path ↔ Lists bits port cap status fields rest path := by
    intro h path
    constructor
    · intro hpath
      cases hpath
    · exact fun hpath => absurd hpath (h path)
  rw [cdpPath]
  by_cases hroom : (renderHead (status :: fields)).length < 2048
  swap
  · rw [httpHeader_long hlines (by simp) (by omega)]
    exact ⟨none, rfl, hnone fun path h => hroom h.room⟩
  rw [httpHeader_render hlines (by simp) hroom]
  dsimp only
  rw [cstr_self (renderHead_noZero hlines)]
  by_cases hok : ascii "HTTP/1.1 200 " <+: status
  swap
  · have hbegins : (ascii "HTTP/1.1 200 ").isPrefixOf (renderHead (status :: fields)) = false := by
      rw [Bool.eq_false_iff]
      exact fun h => hok ((isPrefixOf_renderHead _ (by decide) fields).mp h)
    rw [hbegins]
    exact ⟨none, rfl, hnone fun path h => hok h.ok⟩
  rw [(isPrefixOf_renderHead _ (by decide) fields).mpr hok,
    headerValue_render (ascii "Content-Length") (by decide) 32 hstatus hfields]
  simp only [Bool.not_true, Bool.false_eq_true, if_false]
  -- The body counts only where the announced length is a number, and all of it comes.
  have hbody : ∀ {read : Option (ℕ × Bytes)},
      ((fields.findSome? (fieldValue (ascii "Content-Length"))).bind fun value =>
        if 32 ≤ value.length then none else some value).bind (strtoul bits) = read →
      ∀ path, Lists bits port cap status fields rest path →
        ∃ bytes text, read = some (bytes, []) ∧
          ¬(bytes = 0 ∨ limit ≤ bytes ∨ rest.length < bytes) ∧
          Readable text (cstr (rest.take bytes)) ∧ pages port cap text.value = [path] := by
    rintro read hread path ⟨-, -, length, bytes, text, hlength, hshort, hvalue, hpos, hlimit, hrest,
      htext, hpages⟩
    rw [hlength, Option.bind_some, if_neg (by omega), Option.bind_some, hvalue] at hread
    exact ⟨bytes, text, hread.symm, by omega, htext, hpages⟩
  split
  · rename_i bytes hread
    obtain ⟨value, hvalue, hnumber⟩ := Option.bind_eq_some_iff.mp hread
    obtain ⟨length, hlength, hshort⟩ := Option.bind_eq_some_iff.mp hvalue
    split_ifs at hshort with hlong
    obtain rfl := Option.some.inj hshort
    by_cases hbad : bytes = 0 ∨ limit ≤ bytes ∨ rest.length < bytes
    · rw [if_pos hbad]
      refine ⟨none, rfl, hnone fun path h => ?_⟩
      obtain ⟨bytes', text, heq, hgood, -⟩ := hbody hread path h
      obtain rfl := (Prod.mk.inj (Option.some.inj heq)).1
      exact hgood hbad
    · rw [if_neg hbad]
      have hlimit : limit < 2 ^ 31 := by decide
      have hsize : (cstr (rest.take bytes)).length < 2 ^ 31 := by
        have hcut := length_cstr (rest.take bytes)
        rw [List.length_take] at hcut
        omega
      obtain ⟨found, hfound, hpaths⟩ := pageOf_total port cap (cstr_noZero (rest.take bytes)) hsize
      refine ⟨found, hfound, fun path => (hpaths path).trans ⟨?_, fun h => ?_⟩⟩
      · rintro ⟨text, htext, hpages⟩
        exact ⟨hok, hroom, length, bytes, text, hlength, by omega, hnumber, by omega, by omega,
          by omega, htext, hpages⟩
      · obtain ⟨bytes', text, heq, -, htext, hpages⟩ := hbody hread path h
        obtain rfl := (Prod.mk.inj (Option.some.inj heq)).1
        exact ⟨text, htext, hpages⟩
  · rename_i hother
    refine ⟨none, rfl, hnone fun path h => ?_⟩
    obtain ⟨bytes, text, heq, -⟩ := hbody rfl path h
    exact hother bytes heq

theorem cdpPath_of_lists {bits port cap : ℕ} {status : Bytes} {fields : List Bytes}
    (hstatus : Plain status) (hfields : ∀ line ∈ fields, Plain line) {rest path : Bytes}
    (h : Lists bits port cap status fields rest path) :
    cdpPath bits port cap (renderHead (status :: fields) ++ rest) = some (some path) := by
  obtain ⟨found, hfound, hpaths⟩ := cdpPath_total hstatus hfields rest
  rw [hfound, (hpaths path).mpr h]

/-- Whatever the browser answers, no byte outside of a text is read. A path is returned exactly for
an answer that lists one page which may be controlled, and it is a path of the browser's pages that
fits its buffer and can stand in a request. -/
theorem cdpPath_iff {bits port cap : ℕ} {status : Bytes} {fields : List Bytes}
    (hstatus : Plain status) (hfields : ∀ line ∈ fields, Plain line) (rest : Bytes) :
    (∃ found, cdpPath bits port cap (renderHead (status :: fields) ++ rest) = some found) ∧
    ∀ path, (cdpPath bits port cap (renderHead (status :: fields) ++ rest) = some (some path) ↔
        Lists bits port cap status fields rest path) ∧
      (Lists bits port cap status fields rest path →
        (∃ page, path = ascii "/devtools/page/" ++ page) ∧ (∀ c ∈ path, pathSign c = true) ∧
          path.length < cap) := by
  obtain ⟨found, hfound, hpaths⟩ := cdpPath_total hstatus hfields rest
  refine ⟨⟨found, hfound⟩, fun path => ⟨?_, Lists.path⟩⟩
  rw [hfound, Option.some.injEq]
  exact hpaths path

/-- A list of one page of the player. -/
def onlyPage : JsonText where
  before := noBlank
  value := .full false (.last () noBlank (.ofFields (ascii "type", .ofText (ascii "page"))
    [(ascii "url", .ofText (ascii "https://music.youtube.com/")),
      (ascii "webSocketDebuggerUrl", .ofText (ascii "ws://127.0.0.1:9222/devtools/page/A"))])
    noBlank)
  after := noBlank

theorem onlyPage_lists : Lists 64 9222 256 (ascii "HTTP/1.1 200 OK") [ascii "Content-Length: 113"]
    onlyPage.render (ascii "/devtools/page/A") := by
  have hread : Readable onlyPage (cstr (onlyPage.render.take 113)) := by
    refine ⟨rfl, ?_, ?_⟩
    · exact (by decide : 8 ≤ maxTokens)
    · exact (by decide : 2 ≤ maxDepth)
  exact ⟨⟨ascii "OK", rfl⟩, by simp [ascii, renderHead, crlf], ascii "113", 113, onlyPage, rfl,
    by decide, rfl, by decide, by decide, Nat.le_of_eq rfl, hread, rfl⟩

theorem onlyPage_listed :
    cdpPath 64 9222 256 (renderHead [ascii "HTTP/1.1 200 OK", ascii "Content-Length: 113"] ++
      onlyPage.render) = some (some (ascii "/devtools/page/A")) := by
  have hstatus : Plain (ascii "HTTP/1.1 200 OK") :=
    plain_of_printable (by simp [ascii]) (printable_ascii rfl)
  have hfields : ∀ line ∈ [ascii "Content-Length: 113"], Plain line := by
    intro line hline
    rw [List.mem_singleton.mp hline]
    exact plain_of_printable (by simp [ascii]) (printable_ascii rfl)
  exact ((cdpPath_iff hstatus hfields onlyPage.render).2 _).1.mpr onlyPage_lists

end ForgeOS.Native.DevTools
