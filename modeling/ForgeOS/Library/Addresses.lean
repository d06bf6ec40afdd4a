import ForgeOS.Library.UrlResolution

/-! The text of an `https` address of one host: what the URL standard parses it to, and what it
writes out. What is written out is parsed to the same path. -/

namespace ForgeOS.Library.Addresses

open UrlPaths UrlResolution

/-- A path that has been parsed, a query and a fragment. -/
structure Address where
  path : List Segment
  query : Option (List Char)
  fragment : Option (List Char)
  path_ne : path ≠ []
  path_clean : ∀ s ∈ path, Clean s
  query_clean : ∀ text ∈ query, ∀ c ∈ text, queryEncodes c = false
  fragment_clean : ∀ text ∈ fragment, ∀ c ∈ text, fragmentEncodes c = false

/-- What stands before the first of these characters and what stands behind it. -/
def cut (c : Char) (text : List Char) : List Char × Option (List Char) :=
  (text.takeWhile (· != c), if c ∈ text then some (text.dropWhile (· != c)).tail else none)

theorem encode_clean {set : Char → Bool} (hcodes : ∀ d ∈ '%' :: hexDigits, set d = false)
    (text : Option (List Char)) :
    ∀ encoded ∈ text.map (encode set), ∀ c ∈ encoded, set c = false := by
  intro encoded h
  obtain ⟨plain, -, rfl⟩ := Option.map_eq_some_iff.mp h
  exact forall_mem_encode hcodes fun c _ hc => hc

theorem codes_clean :
    ∀ d ∈ '%' :: hexDigits, queryEncodes d = false ∧ fragmentEncodes d = false := by
  have hall : ('%' :: hexDigits).all (fun d => !queryEncodes d && !fragmentEncodes d) = true := rfl
  intro d hd
  simpa using List.all_eq_true.mp hall d hd

/-- What follows the slash after the host. -/
def parseAddress (text : List Char) : Address where
  path := parsePath (cut '?' (cut '#' text).1).1
  query := (cut '?' (cut '#' text).1).2.map (encode queryEncodes)
  fragment := (cut '#' text).2.map (encode fragmentEncodes)
  path_ne := parsePath_ne_nil _
  path_clean := clean_parsePath _
  query_clean := encode_clean (fun d hd => (codes_clean d hd).1) _
  fragment_clean := encode_clean (fun d hd => (codes_clean d hd).2) _

/-- The path is replaced, `pathname = …`. -/
def Address.withPath (a : Address) (pathname : List Char) : Address :=
  { a with
    path := parsePath pathname.tail
    path_ne := parsePath_ne_nil _
    path_clean := clean_parsePath _ }

def Address.pathname (a : Address) : List Char := renderPath a.path

def mark (c : Char) (text : Option (List Char)) : List Char := (text.map (c :: ·)).getD []

def Address.render (a : Address) : List Char :=
  a.pathname ++ (mark '?' a.query ++ mark '#' a.fragment)

/-- The address of a text, if it is one of the host. -/
def readAddress (origin text : List Char) : Option Address :=
  if (origin ++ ['/']).isPrefixOf (cleaned text) then
    some (parseAddress ((cleaned text).drop (origin.length + 1)))
  else none

/-! ### What is written out -/

variable {a : Address} {c : Char} {front : List Char} {text : Option (List Char)}

theorem cut_mark (h : c ∉ front) : cut c (front ++ mark c text) = (front, text) := by
  have hfront : ∀ d ∈ front, (d != c) = true := by
    intro d hd
    rw [bne_iff_ne]
    rintro rfl
    exact h hd
  cases text with
  | none =>
    rw [cut, mark, Option.map_none, Option.getD_none, List.append_nil, if_neg h,
      List.takeWhile_eq_self_iff.mpr hfront]
  | some text =>
    rw [cut, mark, Option.map_some, Option.getD_some, if_pos (by simp),
      List.takeWhile_append_of_pos hfront, List.dropWhile_append_of_pos hfront]
    simp

theorem forall_mem_mark {P : Char → Prop} (hc : P c) (htext : ∀ t ∈ text, ∀ d ∈ t, P d) :
    ∀ d ∈ mark c text, P d := by
  cases text with
  | none => simp [mark]
  | some t => exact List.forall_mem_cons.mpr ⟨hc, htext t rfl⟩

theorem Address.pathname_eq (a : Address) : ∃ tail, a.pathname = '/' :: tail ∧
    ∀ c ∈ tail, pathEncodes c = false := by
  refine ⟨['/'].intercalate a.path, renderPath_eq a.path_ne, fun c hc => ?_⟩
  have hmem : c ∈ a.pathname := by
    rw [Address.pathname, renderPath_eq a.path_ne]
    exact List.mem_cons_of_mem _ hc
  obtain ⟨s, hs, hcs⟩ := List.mem_flatMap.mp hmem
  rcases List.mem_cons.mp hcs with rfl | hcs
  · rfl
  · exact ((a.path_clean s hs).chars c hcs).2

/-- No blank and no control is in what is written out. -/
theorem Address.render_printable (a : Address) : ∀ c ∈ a.render, controlOrBlank c = false := by
  obtain ⟨tail, htail, hpath⟩ := a.pathname_eq
  have hblank : ∀ c : Char, pathEncodes c = false ∨ queryEncodes c = false ∨
      fragmentEncodes c = false → controlOrBlank c = false := by
    intro c
    simp only [pathEncodes, queryEncodes, fragmentEncodes, Bool.or_eq_false_iff]
    rintro (h | h | h)
    · exact h.1.1
    · exact h.1.1
    · exact h.1.1
  rw [Address.render, htail]
  intro c hc
  rcases List.mem_append.mp hc with hc | hc
  · rcases List.mem_cons.mp hc with rfl | hc
    · rfl
    · exact hblank c (.inl (hpath c hc))
  · rcases List.mem_append.mp hc with hc | hc
    · exact forall_mem_mark (P := fun c => controlOrBlank c = false) rfl
        (fun t ht d hd => hblank d (.inr (.inl (a.query_clean t ht d hd)))) c hc
    · exact forall_mem_mark (P := fun c => controlOrBlank c = false) rfl
        (fun t ht d hd => hblank d (.inr (.inr (a.fragment_clean t ht d hd)))) c hc

/-- What is written out is parsed to the same path. -/
theorem readAddress_render (a : Address) {origin : List Char}
    (horigin : ∀ c ∈ origin, controlOrBlank c = false) :
    ∃ b, readAddress origin (origin ++ a.render) = some b ∧ b.pathname = a.pathname := by
  obtain ⟨tail, htail, hpath⟩ := a.pathname_eq
  have hclean : cleaned (origin ++ a.render) = origin ++ a.render :=
    cleaned_of_printable (List.forall_mem_append.mpr ⟨horigin, a.render_printable⟩)
  have hrender : origin ++ a.render =
      origin ++ ['/'] ++ (tail ++ mark '?' a.query ++ mark '#' a.fragment) := by
    simp [Address.render, htail]
  have hdrop : (origin ++ a.render).drop (origin.length + 1) =
      tail ++ mark '?' a.query ++ mark '#' a.fragment := by
    rw [hrender]
    exact List.drop_left' (by simp)
  have hhash : '#' ∉ tail ++ mark '?' a.query := by
    have hquery : ∀ d ∈ mark '?' a.query, d ≠ '#' := by
      apply forall_mem_mark (P := fun d => d ≠ '#') (by decide)
      rintro t ht d hd rfl
      cases a.query_clean t ht '#' hd
    intro h
    rcases List.mem_append.mp h with h | h
    · cases hpath _ h
    · exact hquery '#' h rfl
  have hmark : '?' ∉ tail := fun h => by cases hpath _ h
  refine ⟨_, if_pos ?_, ?_⟩
  · rw [hclean, hrender]
    simp
  · show renderPath (parsePath (cut '?' (cut '#' _).1).1) = _
    rw [hclean, hdrop, cut_mark hhash, cut_mark hmark]
    have hsame := parsePath_renderPath a.path_ne a.path_clean
    rw [show (renderPath a.path).tail = tail from congrArg List.tail htail] at hsame
    rw [hsame]
    rfl

end ForgeOS.Library.Addresses
