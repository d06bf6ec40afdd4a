import ForgeOS.Library.UrlPaths

/-! An address is resolved against an `https` one as the URL standard parses it. What an authority
names and the addresses of other schemes are parameters. -/

namespace ForgeOS.Library.UrlResolution

open UrlPaths
open Words (mem_splitOnP)

structure Url where
  origin : String
  pathname : List Char

structure Web where
  /-- The origin of an `https` address with this authority, unless it is refused. -/
  authority : List Char → Option String
  /-- An address of another scheme, by what follows the colon. -/
  other : List Char → List Char → Option Url

/-- Controls and blanks at the ends are dropped, and tabs and line breaks everywhere. -/
def cleaned (href : List Char) : List Char :=
  ((href.dropWhile controlOrBlank).rdropWhile controlOrBlank).filter fun c =>
    !List.contains [0x9, 0xA, 0xD] c.toNat

def schemeChar (c : Char) : Bool := c.isAlphanum || c == '+' || c == '-' || c == '.'

/-- The scheme and what follows its colon. -/
def splitScheme : List Char → Option (List Char × List Char)
  | [] => none
  | c :: text =>
    if c.isAlpha then
      match (c :: text).dropWhile schemeChar with
      | ':' :: rest => some (((c :: text).takeWhile schemeChar).map Char.toLower, rest)
      | _ => none
    else none

/-- A query or a fragment begins. -/
def ending (c : Char) : Bool := c == '?' || c == '#'

/-- The path that has been read is followed by a text. -/
def readPath (path : List Segment) (text : List Char) : List Char :=
  renderPath (walk path
    (((text.takeWhile fun c => !ending c).splitOnP separator).map (encode pathEncodes)))

/-- What follows two slashes. Further ones are skipped. -/
def absolute (web : Web) (text : List Char) : Option Url :=
  let address := text.dropWhile separator
  let rest := address.dropWhile fun c => !(separator c || ending c)
  (web.authority (address.takeWhile fun c => !(separator c || ending c))).map fun origin =>
    ⟨origin, readPath [] (if rest.head?.any separator then rest.tail else rest)⟩

/-- An address without a scheme. -/
def relative (web : Web) (origin : String) (base : List Segment) : List Char → Option Url
  | [] => some ⟨origin, renderPath base⟩
  | c :: rest =>
    if separator c then
      if rest.head?.any separator then absolute web rest.tail
      else some ⟨origin, readPath [] rest⟩
    else if ending c then some ⟨origin, renderPath base⟩
    else some ⟨origin, readPath base.dropLast (c :: rest)⟩

/-- The base is an `https` address of this origin and with this path. -/
def resolve (web : Web) (origin : String) (base : List Segment) (href : List Char) : Option Url :=
  match splitScheme (cleaned href) with
  | none => relative web origin base (cleaned href)
  | some (scheme, rest) =>
    if scheme = ['h', 't', 't', 'p', 's'] then
      match rest with
      | '/' :: '/' :: after => absolute web after
      | _ => relative web origin base rest
    else web.other scheme rest

/-! ### Texts that are parsed as they are -/

/-- A character of which the parser makes nothing else. A slash is one too. -/
def Verbatim (c : Char) : Prop :=
  controlOrBlank c = false ∧ ending c = false ∧ pathEncodes c = false

variable {web : Web} {origin : String} {base : List Segment} {text : List Char}

theorem cleaned_of_printable (h : ∀ c ∈ text, controlOrBlank c = false) : cleaned text = text := by
  have hfront : text.dropWhile controlOrBlank = text := by
    cases text with
    | nil => rfl
    | cons c text =>
      rw [List.dropWhile_cons, if_neg (by simp [h c List.mem_cons_self])]
  have hback : text.rdropWhile controlOrBlank = text := by
    rw [List.rdropWhile_eq_self_iff]
    intro hne
    simp [h _ (List.getLast_mem hne)]
  rw [cleaned, hfront, hback, List.filter_eq_self]
  intro c hc
  have hprints : 0x20 < c.toNat := by simpa [controlOrBlank] using h c hc
  simp
  omega

theorem verbatim_slash : Verbatim '/' := ⟨rfl, rfl, rfl⟩

theorem resolve_of_slash (h : ∀ c ∈ text, Verbatim c) :
    resolve web origin base ('/' :: text) =
      if text.head?.any separator then absolute web text.tail
      else some ⟨origin, readPath [] text⟩ := by
  have hclean : cleaned ('/' :: text) = '/' :: text :=
    cleaned_of_printable fun c hc =>
      (List.forall_mem_cons.mpr ⟨verbatim_slash, h⟩ c hc : Verbatim c).1
  rw [resolve, hclean]
  rfl

theorem readPath_of_verbatim (h : ∀ c ∈ text, Verbatim c) (path : List Segment) :
    readPath path text = renderPath (walk path (text.splitOnP separator)) := by
  have hall : text.takeWhile (fun c => !ending c) = text := by
    apply List.takeWhile_eq_self_iff.mpr
    intro c hc
    simp [(h c hc).2.1]
  have hmap : (text.splitOnP separator).map (encode pathEncodes) = text.splitOnP separator := by
    refine (List.map_congr_left fun part hpart => ?_).trans (List.map_id _)
    apply encode_of_forall
    intro c hc
    exact (h c (mem_splitOnP part hpart c hc).1).2.2
  rw [readPath, hall, hmap]

/-- The path of an address is read from what follows the first separator after its authority, and is
a slash where there is none. -/
theorem absolute_of_verbatim (h : ∀ c ∈ text, Verbatim c) {u : Url}
    (hu : absolute web text = some u) :
    u.pathname = ['/'] ∨
      ∃ front c back, text = front ++ c :: back ∧ separator c = true ∧
        u.pathname = renderPath (walk [] (back.splitOnP separator)) := by
  obtain ⟨o, -, rfl⟩ := Option.map_eq_some_iff.mp hu
  generalize hrest :
    (text.dropWhile separator).dropWhile (fun c => !(separator c || ending c)) = rest
  have hsuffix : rest <:+ text := hrest ▸ (List.dropWhile_suffix _).trans (List.dropWhile_suffix _)
  cases rest with
  | nil => exact .inl rfl
  | cons c back =>
    have hstop : (!(separator c || ending c)) = false := by
      have hhead := List.head?_dropWhile_not (fun c => !(separator c || ending c))
        (text.dropWhile separator)
      rw [hrest] at hhead
      exact hhead
    have hc : separator c = true := by
      have hending := (h c (hsuffix.subset List.mem_cons_self)).2.1
      simpa [hending] using hstop
    obtain ⟨front, rfl⟩ := hsuffix
    have hback : ∀ d ∈ back, Verbatim d := fun d hd => h d (by simp [hd])
    right
    refine ⟨front, c, back, rfl, hc, ?_⟩
    simp only [List.head?_cons, Option.any_some, hc, if_true, List.tail_cons]
    exact readPath_of_verbatim hback []

end ForgeOS.Library.UrlResolution
