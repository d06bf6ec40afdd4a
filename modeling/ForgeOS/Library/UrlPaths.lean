import Mathlib.Data.List.DropRight
import ForgeOS.Library.Words

/-! The part of a URL after its authority, for schemes such as `https`, as the URL standard parses
it: what cannot stand in a path is percent-encoded, and dot segments are resolved. What is written
out of a parsed path is parsed to it again. -/

namespace ForgeOS.Library.UrlPaths

open Words (mem_splitOnP)

abbrev Segment := List Char

/-! ### Percent-encoding -/

def hexDigits : List Char :=
  ['0', '1', '2', '3', '4', '5', '6', '7', '8', '9', 'A', 'B', 'C', 'D', 'E', 'F']

def hexDigit (n : ℕ) : Char := (hexDigits[n]?).getD '0'

def percentEncode (c : Char) : List Char :=
  (String.utf8EncodeChar c).flatMap fun b =>
    ['%', hexDigit (b.toNat / 16), hexDigit (b.toNat % 16)]

/-- Controls, the blank and what is not ASCII. -/
def controlOrBlank (c : Char) : Bool := c.toNat ≤ 0x20

def nonAscii (c : Char) : Bool := 0x7E < c.toNat

/-- The fragment set: also the double quote, less-than, greater-than and the backtick. -/
def fragmentEncodes (c : Char) : Bool :=
  controlOrBlank c || nonAscii c || [0x22, 0x3C, 0x3E, 0x60].contains c.toNat

/-- The special-query set: also the double quote, the hash, the apostrophe, less-than and
greater-than. -/
def queryEncodes (c : Char) : Bool :=
  controlOrBlank c || nonAscii c || [0x22, 0x23, 0x27, 0x3C, 0x3E].contains c.toNat

/-- The path set: also the double quote, the hash, less-than, greater-than, the question mark, the
caret, the backtick and curly brackets. -/
def pathEncodes (c : Char) : Bool :=
  controlOrBlank c || nonAscii c ||
    [0x22, 0x23, 0x3C, 0x3E, 0x3F, 0x5E, 0x60, 0x7B, 0x7D].contains c.toNat

def encode (set : Char → Bool) (text : List Char) : List Char :=
  text.flatMap fun c => if set c then percentEncode c else [c]

theorem mem_percentEncode {c d : Char} (h : d ∈ percentEncode c) : d ∈ '%' :: hexDigits := by
  have hdigit : ∀ n, hexDigit n ∈ hexDigits := by
    intro n
    rw [hexDigit]
    cases hn : hexDigits[n]? with
    | none => decide
    | some d => exact List.mem_of_getElem? hn
  obtain ⟨b, -, hd⟩ := List.mem_flatMap.mp h
  simp only [List.mem_cons, List.not_mem_nil, or_false] at hd
  rcases hd with rfl | rfl | rfl
  · exact List.mem_cons_self
  · exact List.mem_cons_of_mem _ (hdigit _)
  · exact List.mem_cons_of_mem _ (hdigit _)

/-- A property of the percent sign, of the digits and of what is left as it is. -/
theorem forall_mem_encode {P : Char → Prop} {set : Char → Bool} {text : List Char}
    (hcodes : ∀ d ∈ '%' :: hexDigits, P d) (htext : ∀ c ∈ text, set c = false → P c) :
    ∀ d ∈ encode set text, P d := by
  intro d hd
  obtain ⟨c, hc, hdc⟩ := List.mem_flatMap.mp hd
  split at hdc
  · exact hcodes d (mem_percentEncode hdc)
  · next hset =>
    rw [List.mem_singleton.mp hdc]
    exact htext c hc (Bool.not_eq_true _ ▸ hset)

theorem encode_of_forall {set : Char → Bool} {text : List Char} (h : ∀ c ∈ text, set c = false) :
    encode set text = text := by
  induction text with
  | nil => rfl
  | cons c text ih =>
    rw [encode, List.flatMap_cons, if_neg (by simp [h c List.mem_cons_self]), List.singleton_append]
    exact congrArg _ (ih fun d hd => h d (List.mem_cons_of_mem _ hd))

/-! ### Paths -/

def separator (c : Char) : Bool := c == '/' || c == '\\'

def singleDot (segment : Segment) : Bool :=
  [".", "%2e"].any fun d => d.toList == segment.map Char.toLower

def doubleDot (segment : Segment) : Bool :=
  ["..", ".%2e", "%2e.", "%2e%2e"].any fun d => d.toList == segment.map Char.toLower

/-- The path that has been read is followed by segments. A dot segment at the end leaves an empty
one. -/
def walk : List Segment → List Segment → List Segment
  | path, [] => path
  | path, [last] =>
    if doubleDot last then path.dropLast ++ [[]]
    else if singleDot last then path ++ [[]]
    else path ++ [last]
  | path, segment :: next :: rest =>
    if doubleDot segment then walk path.dropLast (next :: rest)
    else if singleDot segment then walk path (next :: rest)
    else walk (path ++ [segment]) (next :: rest)

/-- The path after its first slash. -/
def parsePath (text : List Char) : List Segment :=
  walk [] ((text.splitOnP separator).map (encode pathEncodes))

def renderPath (path : List Segment) : List Char := path.flatMap ('/' :: ·)

/-- What a parsed path is made of. -/
structure Clean (segment : Segment) : Prop where
  chars : ∀ c ∈ segment, separator c = false ∧ pathEncodes c = false
  single : singleDot segment = false
  double : doubleDot segment = false

theorem clean_nil : Clean [] := ⟨nofun, rfl, rfl⟩

theorem chars_split (text : List Char) :
    ∀ segment ∈ (text.splitOnP separator).map (encode pathEncodes),
      ∀ c ∈ segment, separator c = false ∧ pathEncodes c = false := by
  intro segment hsegment
  obtain ⟨part, hpart, rfl⟩ := List.mem_map.mp hsegment
  have hescape : ∀ d ∈ '%' :: hexDigits, separator d = false ∧ pathEncodes d = false :=
    fun d hd => by
      have hall : ('%' :: hexDigits).all (fun d => !separator d && !pathEncodes d) = true := by
        decide
      simpa using List.all_eq_true.mp hall d hd
  exact forall_mem_encode hescape fun c hc hset => ⟨(mem_splitOnP part hpart c hc).2, hset⟩

/-- Walking leaves the segments of the path and those that are no dot segments, and may leave an
empty one. -/
theorem forall_mem_walk {P : Segment → Prop} (hnil : P []) {path segments : List Segment}
    (hpath : ∀ s ∈ path, P s)
    (hsegments : ∀ s ∈ segments, singleDot s = false → doubleDot s = false → P s) :
    ∀ s ∈ walk path segments, P s := by
  have hsnoc : ∀ {p : List Segment} {s : Segment}, (∀ s ∈ p, P s) → P s → ∀ t ∈ p ++ [s], P t := by
    intro p s hp hs t ht
    rcases List.mem_append.mp ht with ht | ht
    · exact hp t ht
    · rw [List.mem_singleton.mp ht]
      exact hs
  have hdrop : ∀ {p : List Segment}, (∀ s ∈ p, P s) → ∀ s ∈ p.dropLast, P s :=
    fun {p} hp s hs => hp s ((List.dropLast_sublist p).subset hs)
  induction path, segments using walk.induct with
  | case1 path => exact hpath
  | case2 path last hdouble =>
    rw [walk, if_pos hdouble]
    exact hsnoc (hdrop hpath) hnil
  | case3 path last hdouble hsingle =>
    rw [walk, if_neg hdouble, if_pos hsingle]
    exact hsnoc hpath hnil
  | case4 path last hdouble hsingle =>
    rw [walk, if_neg hdouble, if_neg hsingle]
    exact hsnoc hpath (hsegments last List.mem_cons_self (Bool.not_eq_true _ ▸ hsingle)
      (Bool.not_eq_true _ ▸ hdouble))
  | case5 path segment next rest hdouble ih =>
    rw [walk, if_pos hdouble]
    exact ih (hdrop hpath) fun s hs => hsegments s (List.mem_cons_of_mem _ hs)
  | case6 path segment next rest hdouble hsingle ih =>
    rw [walk, if_neg hdouble, if_pos hsingle]
    exact ih hpath fun s hs => hsegments s (List.mem_cons_of_mem _ hs)
  | case7 path segment next rest hdouble hsingle ih =>
    rw [walk, if_neg hdouble, if_neg hsingle]
    exact ih (hsnoc hpath (hsegments segment List.mem_cons_self (Bool.not_eq_true _ ▸ hsingle)
      (Bool.not_eq_true _ ▸ hdouble))) fun s hs => hsegments s (List.mem_cons_of_mem _ hs)

theorem walk_clean {path segments : List Segment} (hpath : ∀ s ∈ path, Clean s)
    (hsegments : ∀ s ∈ segments, ∀ c ∈ s, separator c = false ∧ pathEncodes c = false) :
    ∀ s ∈ walk path segments, Clean s :=
  forall_mem_walk clean_nil hpath fun s hs hsingle hdouble => ⟨hsegments s hs, hsingle, hdouble⟩

theorem length_walk_le (path segments : List Segment) :
    (walk path segments).length ≤ path.length + segments.length := by
  induction path, segments using walk.induct with
  | case1 path => simp [walk]
  | case2 path last hdouble => simp [walk, hdouble]
  | case3 path last hdouble hsingle => simp [walk, hdouble, hsingle]
  | case4 path last hdouble hsingle => simp [walk, hdouble, hsingle]
  | case5 path segment next rest hdouble ih =>
    rw [walk, if_pos hdouble]
    simp at ih ⊢
    omega
  | case6 path segment next rest hdouble hsingle ih =>
    rw [walk, if_neg hdouble, if_pos hsingle]
    simp at ih ⊢
    omega
  | case7 path segment next rest hdouble hsingle ih =>
    rw [walk, if_neg hdouble, if_neg hsingle]
    simp at ih ⊢
    omega

theorem walk_ne_nil {path segments : List Segment} (h : segments ≠ []) :
    walk path segments ≠ [] := by
  induction path, segments using walk.induct with
  | case1 path => exact absurd rfl h
  | case2 path last hdouble =>
    rw [walk, if_pos hdouble]
    simp
  | case3 path last hdouble hsingle =>
    rw [walk, if_neg hdouble, if_pos hsingle]
    simp
  | case4 path last hdouble hsingle =>
    rw [walk, if_neg hdouble, if_neg hsingle]
    simp
  | case5 path segment next rest hdouble ih =>
    rw [walk, if_pos hdouble]
    exact ih (List.cons_ne_nil _ _)
  | case6 path segment next rest hdouble hsingle ih =>
    rw [walk, if_neg hdouble, if_pos hsingle]
    exact ih (List.cons_ne_nil _ _)
  | case7 path segment next rest hdouble hsingle ih =>
    rw [walk, if_neg hdouble, if_neg hsingle]
    exact ih (List.cons_ne_nil _ _)

/-- Clean segments are taken as they are. -/
theorem walk_of_clean {path segments : List Segment} (h : ∀ s ∈ segments, Clean s) :
    walk path segments = path ++ segments := by
  induction path, segments using walk.induct with
  | case1 path => rw [walk, List.append_nil]
  | case2 path last hdouble =>
    rw [(h last List.mem_cons_self).double] at hdouble
    cases hdouble
  | case3 path last hdouble hsingle =>
    rw [(h last List.mem_cons_self).single] at hsingle
    cases hsingle
  | case4 path last hdouble hsingle => rw [walk, if_neg hdouble, if_neg hsingle]
  | case5 path segment next rest hdouble ih =>
    rw [(h segment List.mem_cons_self).double] at hdouble
    cases hdouble
  | case6 path segment next rest hdouble hsingle ih =>
    rw [(h segment List.mem_cons_self).single] at hsingle
    cases hsingle
  | case7 path segment next rest hdouble hsingle ih =>
    rw [walk, if_neg hdouble, if_neg hsingle, ih fun s hs => h s (List.mem_cons_of_mem _ hs),
      List.append_assoc, List.singleton_append]

theorem clean_parsePath (text : List Char) : ∀ s ∈ parsePath text, Clean s :=
  walk_clean nofun (chars_split text)

theorem parsePath_ne_nil (text : List Char) : parsePath text ≠ [] :=
  walk_ne_nil fun h => List.splitOnP_ne_nil _ _ (List.map_eq_nil_iff.mp h)

theorem renderPath_eq {path : List Segment} (h : path ≠ []) :
    renderPath path = '/' :: ['/'].intercalate path := by
  induction path with
  | nil => exact absurd rfl h
  | cons segment rest ih =>
    cases rest with
    | nil => simp [renderPath, List.intercalate]
    | cons next rest =>
      have hrest : renderPath (next :: rest) = '/' :: ['/'].intercalate (next :: rest) :=
        ih (List.cons_ne_nil _ _)
      rw [renderPath, List.flatMap_cons, ← renderPath, hrest]
      simp [List.intercalate]

theorem splitOnP_renderPath {path : List Segment} (hne : path ≠ [])
    (h : ∀ s ∈ path, ∀ c ∈ s, separator c = false) :
    (renderPath path).tail.splitOnP separator = path := by
  induction path with
  | nil => exact absurd rfl hne
  | cons segment rest ih =>
    have hsegment := h segment List.mem_cons_self
    cases rest with
    | nil =>
      show (segment ++ []).splitOnP separator = _
      rw [List.append_nil, List.splitOnP_eq_singleton hsegment]
    | cons next rest =>
      have hnext : (renderPath (next :: rest)).tail.splitOnP separator = next :: rest :=
        ih (List.cons_ne_nil _ _) fun s hs => h s (List.mem_cons_of_mem _ hs)
      show (segment ++ '/' :: (renderPath (next :: rest)).tail).splitOnP separator = _
      rw [List.splitOnP_append_cons_of_forall_mem hsegment '/' rfl, hnext]

/-- What is written out of a clean path is parsed to it. -/
theorem parsePath_renderPath {path : List Segment} (hne : path ≠ []) (h : ∀ s ∈ path, Clean s) :
    parsePath (renderPath path).tail = path := by
  have hencode : path.map (encode pathEncodes) = path := by
    refine (List.map_congr_left fun s hs => ?_).trans (List.map_id path)
    exact encode_of_forall fun c hc => ((h s hs).chars c hc).2
  have hsplit : (renderPath path).tail.splitOnP separator = path :=
    splitOnP_renderPath hne fun s hs c hc => ((h s hs).chars c hc).1
  rw [parsePath, hsplit, hencode, walk_of_clean h, List.nil_append]

end ForgeOS.Library.UrlPaths
