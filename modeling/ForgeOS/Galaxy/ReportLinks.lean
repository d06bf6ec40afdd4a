import ForgeOS.Library.PercentCoding
import ForgeOS.Library.UrlResolution

/-! The links of a chat answer that becomes a report. An address that names a document of the
workspace is written again from the root, so that it names the document from any report. It does so
unless a slash or a dot of the document's name was escaped and is none afterwards. -/

namespace ForgeOS.Galaxy.ReportLinks

open Library.UrlPaths Library.PercentCoding Library.UrlResolution
open Library.Words (notMem_of_mem_splitOn)

/-! ### Documents -/

def origin : String := "https://workspace.invalid"

/-- The path of the document's own address. -/
def basePath (documentPath : List Char) : List Segment := parsePath (encodePath documentPath)

def documentLink (web : Web) (documentPath href : List Char) : Option (List Char) :=
  (resolve web origin (basePath documentPath) href).bind fun resolved =>
    if resolved.origin ≠ origin then none else decode (resolved.pathname.drop 1)

/-! ### Answers -/

/-- What the tree of an answer has of interest: links, definitions and everything else. -/
inductive Node where
  | link (url : List Char) (children : List Node)
  | definition (url : List Char)
  | other (children : List Node)

/-- The address has a scheme or begins with two slashes. -/
def external (url : List Char) : Bool :=
  (splitScheme url).isSome || ['/', '/'].isPrefixOf url

/-- The address that takes the place of this one. -/
def rewrite (web : Web) (url : List Char) : Option (List Char) :=
  if url.head? = some '#' || external url then none
  else (documentLink web [] url).map fun path => '/' :: encodePath path

mutual
def visit (web : Web) : Node → Node
  | .link url children => .link ((rewrite web url).getD url) (visitAll web children)
  | .definition url => .definition ((rewrite web url).getD url)
  | .other children => .other (visitAll web children)
def visitAll (web : Web) : List Node → List Node
  | [] => []
  | node :: rest => visit web node :: visitAll web rest
end

mutual
/-- The addresses of the links and definitions, in their order. -/
def addresses : Node → List (List Char)
  | .link url children => url :: addressesAll children
  | .definition url => [url]
  | .other children => addressesAll children
def addressesAll : List Node → List (List Char)
  | [] => []
  | node :: rest => addresses node ++ addressesAll rest
end

mutual
/-- Every address of the answer has been rewritten where it is to be. -/
theorem addresses_visit (web : Web) (node : Node) :
    addresses (visit web node) = (addresses node).map fun url => (rewrite web url).getD url := by
  cases node with
  | link url children => simp [visit, addresses, addressesAll_visitAll web children]
  | definition url => rfl
  | other children => simp [visit, addresses, addressesAll_visitAll web children]
theorem addressesAll_visitAll (web : Web) (nodes : List Node) :
    addressesAll (visitAll web nodes) =
      (addressesAll nodes).map fun url => (rewrite web url).getD url := by
  cases nodes with
  | nil => rfl
  | cons node rest =>
    simp [visitAll, addressesAll, addresses_visit web node, addressesAll_visitAll web rest]
end

/-! ### Encoded paths -/

variable {web : Web} {report url url' path : List Char}

theorem unreserved_plain {c : Char} (h : unreserved c = true) :
    Verbatim c ∧ separator c = false := by
  have hrange : (List.range 0x80).all (fun n => !unreserved (Char.ofNat n) ||
      (!controlOrBlank (Char.ofNat n) && !ending (Char.ofNat n) && !pathEncodes (Char.ofNat n) &&
        !separator (Char.ofNat n))) = true := by rfl
  have hlt : c.toNat < 0x80 := by
    simp only [unreserved, Char.isAlphanum] at h
    delta Char.isAlpha Char.isUpper Char.isLower at h
    simp [Char.isDigit, UInt32.le_iff_toNat_le] at h
    omega
  have hc := List.all_eq_true.mp hrange c.toNat (List.mem_range.mpr hlt)
  rw [Char.ofNat_toNat, h] at hc
  simpa [Verbatim, and_assoc] using hc

theorem codes_plain : ∀ d ∈ '%' :: hexDigits, Verbatim d ∧ separator d = false := by
  intro d hd
  have hall : ('%' :: hexDigits).all (fun d =>
      !controlOrBlank d && !ending d && !pathEncodes d && !separator d) = true := by rfl
  simpa [Verbatim, and_assoc] using List.all_eq_true.mp hall d hd

theorem verbatim_encodePath (path : List Char) : ∀ c ∈ encodePath path, Verbatim c := by
  rw [encodePath_eq]
  apply forall_mem_encode fun d hd => (codes_plain d hd).1
  intro c _ hc
  by_cases hslash : c = '/'
  · exact hslash ▸ verbatim_slash
  · exact (unreserved_plain (by simpa [hslash] using hc)).1

theorem encodeComponent_plain (part : List Char) :
    ∀ c ∈ encodeComponent part, Verbatim c ∧ separator c = false := by
  apply forall_mem_encode codes_plain
  intro c _ hc
  exact unreserved_plain (by simpa using hc)

/-- The parser finds the components that have been encoded. -/
theorem splitOnP_encodePath (path : List Char) :
    (encodePath path).splitOnP separator = (path.splitOn '/').map encodeComponent := by
  have hne : (path.splitOn '/').map encodeComponent ≠ [] := by simp [List.splitOn_ne_nil]
  have hsplit := splitOnP_renderPath hne (by
    intro s hs
    obtain ⟨part, -, rfl⟩ := List.mem_map.mp hs
    exact fun c hc => (encodeComponent_plain part c hc).2)
  rwa [renderPath_eq hne] at hsplit

/-! ### Resolving an encoded path -/

def Dots (part : List Char) : Prop := part = ['.'] ∨ part = ['.', '.']

theorem exists_map_eq {α β : Type*} {f : β → α} {P : β → Prop} {as : List α}
    (h : ∀ a ∈ as, ∃ b, f b = a ∧ P b) : ∃ bs : List β, bs.map f = as ∧ ∀ b ∈ bs, P b := by
  induction as with
  | nil => exact ⟨[], rfl, by simp⟩
  | cons a as ih =>
    obtain ⟨b, rfl, hb⟩ := h a List.mem_cons_self
    obtain ⟨bs, rfl, hbs⟩ := ih fun a ha => h a (List.mem_cons_of_mem _ ha)
    exact ⟨b :: bs, rfl, List.forall_mem_cons.mpr ⟨hb, hbs⟩⟩

/-- The parts that the parser leaves are some of those encoded, and none of them is a dot
segment. -/
theorem walk_encoded {parts : List (List Char)} (hne : parts ≠ [])
    (hparts : ∀ part ∈ parts, '/' ∉ part) :
    ∃ left : List (List Char), walk [] (parts.map encodeComponent) = left.map encodeComponent ∧
      left ≠ [] ∧ left.length ≤ parts.length ∧ ∀ part ∈ left, '/' ∉ part ∧ ¬Dots part := by
  have hwalk : ∀ s ∈ walk [] (parts.map encodeComponent),
      ∃ part, encodeComponent part = s ∧ '/' ∉ part ∧ ¬Dots part := by
    apply forall_mem_walk
    · exact ⟨[], rfl, by simp, by simp [Dots]⟩
    · simp
    · intro s hs hsingle hdouble
      obtain ⟨part, hpart, rfl⟩ := List.mem_map.mp hs
      refine ⟨part, rfl, hparts part hpart, ?_⟩
      rintro (rfl | rfl)
      · simp [singleDot_encodeComponent.mpr rfl] at hsingle
      · simp [doubleDot_encodeComponent.mpr rfl] at hdouble
  obtain ⟨left, hleft, hall⟩ := exists_map_eq hwalk
  have hlength := length_walk_le [] (parts.map encodeComponent)
  refine ⟨left, hleft.symm, ?_, ?_, hall⟩
  · rintro rfl
    have hencoded : parts.map encodeComponent ≠ [] := by simpa using hne
    exact walk_ne_nil hencoded hleft.symm
  · rw [← hleft] at hlength
    simpa using hlength

/-- What an address with these parts names has no more parts, and none of them is a dot segment. -/
theorem exists_document {parts : List (List Char)} (hne : parts ≠ [])
    (hparts : ∀ part ∈ parts, '/' ∉ part) :
    ∃ document, decode ((renderPath (walk [] (parts.map encodeComponent))).drop 1) = some document ∧
      (document.splitOn '/').length ≤ parts.length ∧
        ∀ part ∈ document.splitOn '/', ¬Dots part := by
  obtain ⟨left, hleft, hleftne, hlength, hall⟩ := walk_encoded hne hparts
  have hsplit : (['/'].intercalate left).splitOn '/' = left :=
    List.splitOn_intercalate '/' (fun part hpart => (hall part hpart).1) hleftne
  have hencoded : (renderPath (left.map encodeComponent)).drop 1 =
      encodePath (['/'].intercalate left) := by
    rw [encodePath_intercalate hleftne fun part hpart => (hall part hpart).1,
      renderPath_eq (by simpa using hleftne)]
    rfl
  refine ⟨['/'].intercalate left, ?_, ?_, ?_⟩
  · rw [hleft, hencoded]
    exact decode_eq_some.mpr (decodes_encodePath _)
  · rwa [hsplit]
  · rw [hsplit]
    exact fun part hpart => (hall part hpart).2

/-- A path without dot segments is read as it is. -/
theorem walk_of_no_dots (h : ∀ part ∈ path.splitOn '/', ¬Dots part) :
    (renderPath (walk [] ((path.splitOn '/').map encodeComponent))).drop 1 = encodePath path := by
  have hclean : ∀ s ∈ (path.splitOn '/').map encodeComponent, Clean s := by
    intro s hs
    obtain ⟨part, hpart, rfl⟩ := List.mem_map.mp hs
    have hdots := h part hpart
    refine ⟨?_, ?_, ?_⟩
    · intro c hc
      obtain ⟨hverbatim, hseparator⟩ := encodeComponent_plain part c hc
      exact ⟨hseparator, hverbatim.2.2⟩
    · apply Bool.eq_false_iff.mpr
      exact fun hsingle => hdots (.inl (singleDot_encodeComponent.mp hsingle))
    · apply Bool.eq_false_iff.mpr
      exact fun hdouble => hdots (.inr (doubleDot_encodeComponent.mp hdouble))
  rw [walk_of_clean hclean, List.nil_append, renderPath_eq (by simp [List.splitOn_ne_nil])]
  rfl

theorem head_encodePath (path : List Char) :
    (encodePath path).head?.any separator = true ↔ path.head? = some '/' := by
  rw [encodePath_eq]
  cases path with
  | nil => simp [encode]
  | cons c path =>
    rw [encode, List.flatMap_cons]
    split
    · next hc =>
      have hslash : c ≠ '/' := by
        rintro rfl
        cases hc
      obtain ⟨-, tail, htail⟩ := (escapes_percentEncode c).of_char
      rw [htail]
      simpa [separator] using hslash
    · next hc =>
      have hplain : separator c = true ↔ c = '/' := by
        constructor
        · intro hseparator
          by_contra hslash
          have hnot := (unreserved_plain (c := c) (by simpa [hslash] using hc)).2
          rw [hnot] at hseparator
          cases hseparator
        · rintro rfl
          rfl
      simpa using hplain

/-- After two slashes the first part is taken for an authority, and what is left has no more parts
than there were. -/
theorem length_of_absolute {document : List Char} {u : Url}
    (hu : absolute web (encodePath path) = some u)
    (hdocument : decode (u.pathname.drop 1) = some document) :
    (document.splitOn '/').length ≤ (path.splitOn '/').length := by
  rcases absolute_of_verbatim (verbatim_encodePath path) hu with
    hroot | ⟨front, c, back, hpath, hc, hpathname⟩
  · rw [hroot] at hdocument
    obtain rfl : [] = document := Option.some.inj hdocument
    exact List.length_pos_iff.mpr (List.splitOn_ne_nil '/' path)
  · have hsplit := splitOnP_encodePath path
    rw [hpath, List.splitOnP_append_cons _ _ hc] at hsplit
    obtain ⟨before, after, hparts, -, hafter⟩ := List.map_eq_append_iff.mp hsplit.symm
    have hne : after ≠ [] := by
      rintro rfl
      exact List.splitOnP_ne_nil separator back hafter.symm
    have hmem : ∀ part ∈ after, '/' ∉ part := by
      intro part hpart
      have hmem : part ∈ path.splitOn '/' := by simp [hparts, hpart]
      exact notMem_of_mem_splitOn hmem
    obtain ⟨document', hdocument', hlength, -⟩ := exists_document hne hmem
    rw [hpathname, ← hafter, hdocument'] at hdocument
    obtain rfl := Option.some.inj hdocument
    rw [hparts, List.length_append]
    omega

/-- A document named by its path from the root is found again exactly when the path does not begin
with a slash and has no dot segment. -/
theorem documentLink_encodePath :
    documentLink web report ('/' :: encodePath path) = some path ↔
      (∀ part ∈ path.splitOn '/', ¬Dots part) ∧ path.head? ≠ some '/' := by
  rw [documentLink, resolve_of_slash (verbatim_encodePath path)]
  by_cases hhead : path.head? = some '/'
  · rw [if_pos ((head_encodePath path).mpr hhead)]
    obtain ⟨rest, rfl⟩ : ∃ rest, path = '/' :: rest := List.head?_eq_some_iff.mp hhead
    have hsplit : ('/' :: rest).splitOn '/' = [] :: rest.splitOn '/' := by
      rw [List.splitOn_cons_eq_if_modifyHead]
      rfl
    have htail : (encodePath ('/' :: rest)).tail = encodePath rest := by
      rw [encodePath_eq, encodePath_eq]
      rfl
    refine iff_of_false ?_ fun h => h.2 hhead
    intro h
    obtain ⟨u, hu, hdocument⟩ := Option.bind_eq_some_iff.mp h
    rw [htail] at hu
    split at hdocument
    · cases hdocument
    · have hlength := length_of_absolute hu hdocument
      rw [hsplit, List.length_cons] at hlength
      omega
  · rw [if_neg (mt (head_encodePath path).mp hhead), Option.bind_some, if_neg fun h => h rfl,
      readPath_of_verbatim (verbatim_encodePath path), splitOnP_encodePath, and_iff_left hhead]
    constructor
    · intro h
      obtain ⟨document, hdocument, -, hdots⟩ :=
        exists_document (List.splitOn_ne_nil '/' path) fun _ hpart => notMem_of_mem_splitOn hpart
      obtain rfl := Option.some.inj (h.symm.trans hdocument)
      exact hdots
    · intro hdots
      rw [walk_of_no_dots hdots]
      exact decode_eq_some.mpr (decodes_encodePath path)

/-! ### Rewritten addresses -/

/-- With every escaped slash read as one, no segment of the path is a dot segment, and the first is
not empty unless it is the only one. -/
structure Plain (pathname : List Char) : Prop where
  dots : ∀ s ∈ (slashes (pathname.drop 1)).splitOn '/', singleDot s = false ∧ doubleDot s = false
  first : (slashes (pathname.drop 1)).head? ≠ some '/'

theorem forall_of_forall₂ {α β : Type*} {R : α → β → Prop} {P : α → Prop} {Q : β → Prop}
    (hPQ : ∀ a b, R a b → (P a ↔ Q b)) {as : List α} {bs : List β} (h : List.Forall₂ R as bs) :
    (∀ a ∈ as, P a) ↔ ∀ b ∈ bs, Q b := by
  induction h with
  | nil => simp
  | cons hab h ih => rw [List.forall_mem_cons, List.forall_mem_cons, hPQ _ _ hab, ih]

/-- What is plain before it is decoded has no dot segments afterwards. -/
theorem plain_iff {pathname : List Char} (h : Decodes (pathname.drop 1) path) :
    Plain pathname ↔ (∀ part ∈ path.splitOn '/', ¬Dots part) ∧ path.head? ≠ some '/' := by
  have hsegment : ∀ s part, Decodes s part →
      (singleDot s = false ∧ doubleDot s = false ↔ ¬Dots part) := by
    intro s part hs
    have hsame : ∀ chars, Decodes s chars ↔ part = chars :=
      fun chars => ⟨hs.unique, fun hpart => hpart ▸ hs⟩
    rw [← Bool.not_eq_true, ← Bool.not_eq_true, singleDot_iff, doubleDot_iff, hsame, hsame, Dots,
      not_or]
  rw [← forall_of_forall₂ hsegment h.splitOn, ne_eq, ← not_congr h.head_slash]
  exact ⟨fun h => ⟨h.dots, h.first⟩, fun h => ⟨h.1, h.2⟩⟩

/-- From any report, the address that has been rewritten names what the original one names from the
root exactly when the path that the original one is resolved to is plain. -/
theorem documentLink_rewrite_iff (h : rewrite web url = some url') :
    documentLink web report url' = documentLink web [] url ↔
      ∀ resolved, resolve web origin (basePath []) url = some resolved →
        Plain resolved.pathname := by
  rw [rewrite] at h
  split at h
  · cases h
  · obtain ⟨path, hpath, rfl⟩ := Option.map_eq_some_iff.mp h
    obtain ⟨resolved, hresolved, hdecode⟩ := Option.bind_eq_some_iff.mp hpath
    split at hdecode
    · cases hdecode
    · rw [hpath, documentLink_encodePath, ← plain_iff (decode_eq_some.mp hdecode)]
      simp [hresolved]

/-- Every authority that is not empty is taken, and no other scheme. -/
def openWeb : Web where
  authority host := if host = [] then none else some ("https://" ++ String.ofList host)
  other _ _ := none

theorem blank_kept :
    documentLink openWeb "Reports/Summary report.md".toList "/Pasted%20notes.txt".toList =
      documentLink openWeb [] "./Pasted notes.txt".toList := by
  have hurl : rewrite openWeb "./Pasted notes.txt".toList = some "/Pasted%20notes.txt".toList := by
    rfl
  have hresolve : resolve openWeb origin (basePath []) "./Pasted notes.txt".toList =
      some ⟨origin, "/Pasted%20notes.txt".toList⟩ := by rfl
  refine (documentLink_rewrite_iff hurl).mpr fun resolved hresolved => ?_
  obtain rfl := Option.some.inj (hresolve.symm.trans hresolved)
  exact ⟨by decide, by decide⟩

/-- A second slash makes a host of the document. -/
theorem doubled_slash_lost :
    ¬∀ (web : Web) (report url url' : List Char), rewrite web url = some url' →
      documentLink web report url' = documentLink web [] url := by
  intro h
  have hurl : rewrite openWeb ".//notes.txt".toList = some "//notes.txt".toList := by rfl
  have hsame := h openWeb "Reports/summary.md".toList _ _ hurl
  have hnone : documentLink openWeb "Reports/summary.md".toList "//notes.txt".toList = none := by
    rfl
  have hsome : documentLink openWeb [] ".//notes.txt".toList = some "/notes.txt".toList := by rfl
  rw [hnone, hsome] at hsame
  cases hsame

end ForgeOS.Galaxy.ReportLinks
