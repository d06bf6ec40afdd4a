import Mathlib.Data.List.DropRight
import Mathlib.Data.List.Infix
import ForgeOS.Library.Words

/-! The part of Python's text and path library the source uses, over the
characters of a string: `strip` and `split` at white space, `Path.name`,
`Path.suffix` and `Path.with_suffix`, joining a directory and a name, and file
name patterns built from literals and `*`. Case mappings are not fixed here: a
definition that calls `str.lower`, `str.upper` or `str.title` takes it as an
argument, and `asciiLower`, `asciiUpper` and `asciiTitle` are their values on
ASCII text. -/

namespace ForgeOS.Python

open ForgeOS.Library.Words

/-! ### White space -/

/-- `str.isspace` for one character: the separators of `str.split` and `str.strip`. -/
def isSpace (c : Char) : Bool :=
  let n := c.toNat
  (9 ≤ n && n ≤ 13) || (28 ≤ n && n ≤ 32) || n == 0x85 || n == 0xa0 || n == 0x1680 ||
    (0x2000 ≤ n && n ≤ 0x200a) || n == 0x2028 || n == 0x2029 || n == 0x202f || n == 0x205f ||
    n == 0x3000

def strip (s : String) : String := String.ofList ((s.toList.dropWhile isSpace).rdropWhile isSpace)

def split (s : String) : List String := (words isSpace s.toList).map String.ofList

/-- No character of the text is white space. -/
def Unspaced (s : String) : Prop := Clean isSpace s.toList

instance (s : String) : Decidable (Unspaced s) := by unfold Unspaced; infer_instance

/-- The word read back last is the text written last exactly when that text has
no white space in it. -/
theorem split_getLast_iff (s : String) {t : String} (hne : t ≠ "") :
    (split (s ++ " " ++ t)).getLast? = some t ↔ Unspaced t := by
  have hne' : t.toList ≠ [] := fun ht => hne (String.toList_inj.mp ht)
  have h : (s ++ " " ++ t).toList = s.toList ++ ' ' :: t.toList := by simp
  rw [split, h, List.getLast?_map, Unspaced,
    ← words_getLast_iff isSpace s.toList (c := ' ') (by decide) hne']
  constructor
  · intro ht
    obtain ⟨w, hw, hwt⟩ := Option.map_eq_some_iff.mp ht
    rw [hw, ← hwt, String.toList_ofList]
  · intro ht
    rw [ht, Option.map_some, String.ofList_toList]

/-- `value or default` for a text that may be missing. -/
def orText (value : Option String) (default : String) : String :=
  match value with
  | some "" | none => default
  | some text => text

theorem orText_of_ne {text : String} (h : text ≠ "") (default : String) :
    orText (some text) default = text := by
  unfold orText
  split
  · exact absurd (Option.some.inj ‹_›) h
  · contradiction
  · exact (Option.some.inj ‹_›).symm

theorem orText_cases (value : Option String) (default : String) :
    orText value default = default ∨ value = some (orText value default) := by
  unfold orText
  split
  · exact .inl rfl
  · exact .inl rfl
  · exact .inr rfl

/-! ### Affixes and patterns -/

def startsWith (s pre : String) : Bool := pre.toList.isPrefixOf s.toList

def endsWith (s suf : String) : Bool := suf.toList.isSuffixOf s.toList

/-- `s[n:]` -/
def sliceFrom (s : String) (n : ℕ) : String := String.ofList (s.toList.drop n)

/-- `s.removesuffix(suf)` -/
def removeSuffix (s suf : String) : String :=
  if endsWith s suf then String.ofList (s.toList.take (s.toList.length - suf.toList.length)) else s

/-- `s.replace(old, new)` for single characters. -/
def replaceChar (s : String) (old new : Char) : String :=
  String.ofList (s.toList.map fun c => if c == old then new else c)

/-- `sub in s` -/
def contains (s sub : String) : Bool := decide (sub.toList <:+: s.toList)

/-- `s.split(c)` for a single character. -/
def splitChar (s : String) (c : Char) : List String := (s.toList.splitOn c).map String.ofList

/-- Some tail of the text is accepted by `rest`. -/
def matchStar (rest : List Char → Bool) : List Char → Bool
  | [] => rest []
  | c :: cs => rest (c :: cs) || matchStar rest cs

/-- `fnmatch` for a pattern of literals and `*`. -/
def matchPattern : List Char → List Char → Bool
  | [], cs => cs.isEmpty
  | '*' :: ps, cs => matchStar (matchPattern ps) cs
  | p :: ps, c :: cs => p == c && matchPattern ps cs
  | _ :: _, [] => false

def fnmatch (name pattern : String) : Bool := matchPattern pattern.toList name.toList

theorem matchStar_iff (rest : List Char → Bool) (cs : List Char) :
    matchStar rest cs = true ↔ ∃ mid tail, cs = mid ++ tail ∧ rest tail = true := by
  induction cs with
  | nil =>
    rw [matchStar]
    constructor
    · intro h
      exact ⟨[], [], rfl, h⟩
    · rintro ⟨mid, tail, heq, h⟩
      rw [(List.append_eq_nil_iff.mp heq.symm).2] at h
      exact h
  | cons c cs ih =>
    rw [matchStar, Bool.or_eq_true, ih]
    constructor
    · rintro (h | ⟨mid, tail, rfl, h⟩)
      · exact ⟨[], c :: cs, rfl, h⟩
      · exact ⟨c :: mid, tail, rfl, h⟩
    · rintro ⟨mid, tail, heq, h⟩
      cases mid with
      | nil => exact .inl (by rw [← List.nil_append tail, ← heq] at h; exact h)
      | cons d mid =>
        obtain ⟨-, hcs⟩ := List.cons.inj heq
        exact .inr ⟨mid, tail, hcs, h⟩

theorem matchPattern_literal {ps : List Char} (hps : '*' ∉ ps) (cs : List Char) :
    matchPattern ps cs = true ↔ cs = ps := by
  induction ps generalizing cs with
  | nil => cases cs <;> simp [matchPattern]
  | cons p ps ih =>
    simp only [List.mem_cons, not_or] at hps
    have hp : p ≠ '*' := fun h => hps.1 h.symm
    cases cs with
    | nil => simp [matchPattern]
    | cons c cs =>
      rw [matchPattern]
      · rw [Bool.and_eq_true, beq_iff_eq, ih hps.2, List.cons.injEq, eq_comm]
      · exact fun h => hp h

/-- A literal, a star and a literal match what begins and ends with them. -/
theorem matchPattern_star_iff {pre post : List Char} (hpre : '*' ∉ pre) (hpost : '*' ∉ post)
    (cs : List Char) :
    matchPattern (pre ++ '*' :: post) cs = true ↔ ∃ mid, cs = pre ++ mid ++ post := by
  induction pre generalizing cs with
  | nil =>
    rw [List.nil_append, matchPattern, matchStar_iff]
    constructor
    · rintro ⟨mid, tail, rfl, h⟩
      rw [(matchPattern_literal hpost tail).mp h]
      exact ⟨mid, rfl⟩
    · rintro ⟨mid, rfl⟩
      exact ⟨mid, post, rfl, (matchPattern_literal hpost post).mpr rfl⟩
  | cons p pre ih =>
    simp only [List.mem_cons, not_or] at hpre
    have hp : p ≠ '*' := fun h => hpre.1 h.symm
    cases cs with
    | nil => simp [matchPattern]
    | cons c cs =>
      rw [List.cons_append, matchPattern]
      · rw [Bool.and_eq_true, beq_iff_eq, ih hpre.2]
        constructor
        · rintro ⟨rfl, mid, rfl⟩
          exact ⟨mid, rfl⟩
        · rintro ⟨mid, h⟩
          obtain ⟨hc, hcs⟩ := List.cons.inj h
          exact ⟨hc.symm, mid, hcs⟩
      · exact fun h => hp h

/-- A star and a literal match the names with that ending. -/
theorem fnmatch_star_iff {name pattern : String} (ending : List Char)
    (hpattern : pattern.toList = '*' :: ending) (hending : '*' ∉ ending) :
    fnmatch name pattern = true ↔ ∃ mid, name.toList = mid ++ ending := by
  rw [fnmatch, hpattern]
  exact matchPattern_star_iff (List.not_mem_nil) hending name.toList

/-! ### Paths -/

/-- The components of a path; empty ones and `.` do not count. -/
def parts (s : String) : List (List Char) := (words (· == '/') s.toList).filter (· ≠ ['.'])

/-- The leading slashes that a path keeps: exactly two stay two. -/
def root : List Char → List Char
  | '/' :: '/' :: '/' :: _ => ['/']
  | '/' :: '/' :: _ => ['/', '/']
  | '/' :: _ => ['/']
  | _ => []

def render (root : List Char) (parts : List (List Char)) : String :=
  let cs := root ++ ['/'].intercalate parts
  if cs = [] then "." else String.ofList cs

/-- `str(Path(s))` -/
def pathStr (s : String) : String := render (root s.toList) (parts s)

/-- `Path(s).name` -/
def pathName (s : String) : String := String.ofList ((parts s).getLastD [])

/-- `str(Path(dir) / name)` for a relative name. -/
def join (dir name : String) : String := pathStr (dir ++ "/" ++ name)

def notDot (c : Char) : Bool := c != '.'

/-- The characters after the last dot and those before it. -/
def splitDot (s : String) : List Char × List Char :=
  let r := s.toList.reverse
  ((r.takeWhile notDot).reverse, ((r.dropWhile notDot).drop 1).reverse)

/-- `Path(s).suffix` of a file name. -/
def suffix (s : String) : String :=
  let (tail, stem) := splitDot s
  if tail ≠ [] ∧ stem ≠ [] then String.ofList ('.' :: tail) else ""

/-- `Path(s).with_suffix("")` of a file name. -/
def withoutSuffix (s : String) : String := removeSuffix s (suffix s)

theorem splitDot_append (s : String) (h : (splitDot s).2 ≠ []) :
    s.toList = (splitDot s).2 ++ '.' :: (splitDot s).1 := by
  have hsplit := List.takeWhile_append_dropWhile (p := notDot) (l := s.toList.reverse)
  cases hdrop : s.toList.reverse.dropWhile notDot with
  | nil => simp [splitDot, hdrop] at h
  | cons c rest =>
    have hc : c = '.' := by
      have := List.head_dropWhile_not (l := s.toList.reverse) notDot (by simp [hdrop])
      simpa [hdrop, notDot] using this
    rw [hdrop, hc] at hsplit
    have hlist := congrArg List.reverse hsplit
    rw [List.reverse_reverse] at hlist
    rw [← hlist]
    simp [splitDot, hdrop]

theorem removeSuffix_append {s suf : String} (h : endsWith s suf = true) :
    removeSuffix s suf ++ suf = s := by
  have hsuf : suf.toList <:+ s.toList := List.isSuffixOf_iff_suffix.mp h
  obtain ⟨pre, hpre⟩ := hsuf
  rw [removeSuffix, if_pos h, ← String.toList_inj, String.toList_append, String.toList_ofList,
    ← hpre]
  simp

/-- A file name is its name without the suffix and the suffix. -/
theorem withoutSuffix_append (s : String) : withoutSuffix s ++ suffix s = s := by
  refine removeSuffix_append (List.isSuffixOf_iff_suffix.mpr ?_)
  simp only [suffix]
  split_ifs with h
  · rw [String.toList_ofList]
    exact ⟨(splitDot s).2, (splitDot_append s h.2).symm⟩
  · exact ⟨s.toList, by simp⟩

/-- The suffix of a name that ends in a dot and letters behind something. -/
theorem suffix_of_append {s : String} {stem tail : List Char} (hs : s.toList = stem ++ '.' :: tail)
    (hstem : stem ≠ []) (htail : tail ≠ []) (hdot : '.' ∉ tail) :
    suffix s = String.ofList ('.' :: tail) := by
  have hrev : s.toList.reverse = tail.reverse ++ '.' :: stem.reverse := by simp [hs]
  have hall : ∀ c ∈ tail.reverse, notDot c = true := by
    intro c hc
    simp only [notDot, bne_iff_ne]
    rintro rfl
    exact hdot (List.mem_reverse.mp hc)
  have hsplit : splitDot s = (tail, stem) := by
    simp only [splitDot, hrev]
    rw [List.takeWhile_append_of_pos hall, List.dropWhile_append_of_pos hall]
    simp [notDot]
  simp [suffix, hsplit, hstem, htail]

/-- A name that a directory entry can have. -/
def IsFileName (s : String) : Prop :=
  s ≠ "" ∧ s ≠ "." ∧ s ≠ ".." ∧ '/' ∉ s.toList

instance (s : String) : Decidable (IsFileName s) := by unfold IsFileName; infer_instance

theorem parts_clean {s : String} {w : List Char} (hw : w ∈ parts s) : Clean (· == '/') w :=
  words_mem_clean _ (List.mem_of_mem_filter hw)

theorem parts_ne_nil {s : String} {w : List Char} (hw : w ∈ parts s) : w ≠ [] :=
  words_mem_ne_nil _ (List.mem_of_mem_filter hw)

theorem root_cases (cs : List Char) : root cs = [] ∨ root cs = ['/'] ∨ root cs = ['/', '/'] := by
  unfold root
  split <;> simp

theorem words_root_append (cs body : List Char) :
    words (· == '/') (root cs ++ body) = words (· == '/') body := by
  rcases root_cases cs with h | h | h <;>
    simp [h, words_sep_cons]

/-- Joined components do not start with a slash. -/
theorem intercalate_head {ws : List (List Char)} (hclean : ∀ w ∈ ws, Clean (· == '/') w)
    (hne : ∀ w ∈ ws, w ≠ []) {cs : List Char} : ['/'].intercalate ws ≠ '/' :: cs := by
  intro h
  cases ws with
  | nil => simp at h
  | cons w ws =>
    obtain ⟨c, w', rfl⟩ := List.exists_cons_of_ne_nil (hne w (by simp))
    have hc : c = '/' := by
      cases ws with
      | nil => simp at h; exact h.1
      | cons v vs =>
        rw [List.intercalate_cons_cons] at h
        exact (List.cons.inj h).1
    have := hclean (c :: w') (by simp) c (by simp)
    simp [hc] at this

theorem root_root_append (cs body : List Char) (hbody : ∀ t, body ≠ '/' :: t) :
    root (root cs ++ body) = root cs := by
  cases body with
  | nil => rcases root_cases cs with h | h | h <;> rw [h] <;> rfl
  | cons c t =>
    have hc : c ≠ '/' := fun hc => hbody t (by rw [hc])
    rcases root_cases cs with h | h | h <;> rw [h] <;> simp [root, hc]

theorem parts_pathStr (s : String) : parts (pathStr s) = parts s := by
  have hwords : words (· == '/') (['/'].intercalate (parts s)) = parts s :=
    words_intercalate _ (by decide) _ (fun w hw => parts_clean hw) fun w hw => parts_ne_nil hw
  have hdots : (parts s).filter (· ≠ ['.']) = parts s := by simp [parts]
  simp only [pathStr, render]
  split_ifs with h
  · have hnil : parts s = [] := by
      rw [← hwords, (List.append_eq_nil_iff.mp h).2]
      rfl
    rw [hnil]
    decide
  · rw [parts, String.toList_ofList, words_root_append, hwords, hdots]

theorem root_pathStr (s : String) : root (pathStr s).toList = root s.toList := by
  simp only [pathStr, render]
  split_ifs with h
  · rw [(List.append_eq_nil_iff.mp h).1]
    decide
  · rw [String.toList_ofList]
    exact root_root_append _ _ fun t =>
      intercalate_head (fun w hw => parts_clean hw) fun w hw => parts_ne_nil hw

/-- Making a path of a path's text changes nothing. -/
@[simp] theorem pathStr_pathStr (s : String) : pathStr (pathStr s) = pathStr s := by
  conv_lhs => rw [pathStr]
  rw [root_pathStr, parts_pathStr, ← pathStr]

@[simp] theorem pathStr_join (dir name : String) : pathStr (join dir name) = join dir name :=
  pathStr_pathStr _

/-- The name of an entry is the last component of its path. -/
theorem pathName_join (dir : String) {name : String} (h : IsFileName name) :
    pathName (join dir name) = name := by
  obtain ⟨hne, hdot, -, hslash⟩ := h
  have hne' : name.toList ≠ [] := fun hs => hne (String.toList_inj.mp hs)
  have hdot' : name.toList ≠ ['.'] := fun hs => hdot (String.toList_inj.mp hs)
  have hclean : Clean (· == '/') name.toList := by
    intro c hc
    rcases eq_or_ne c '/' with rfl | hc'
    · exact absurd hc hslash
    · simpa using hc'
  have hlist : (dir ++ "/" ++ name).toList = dir.toList ++ '/' :: name.toList := by simp
  rw [pathName, join, parts_pathStr, parts, hlist, words_append_sep (· == '/') _ _ (by decide),
    words_clean _ hclean hne']
  simp [hdot']

/-! ### Case -/

def asciiLower (s : String) : String :=
  String.ofList (s.toList.map fun c => if 'A' ≤ c ∧ c ≤ 'Z' then Char.ofNat (c.toNat + 32) else c)

/-- What `str.lower` does to a text of small letters, digits and signs. -/
def KeepsSmall (lower : String → String) : Prop :=
  ∀ s : String, (∀ c ∈ s.toList, c.toNat < 128 ∧ ¬('A' ≤ c ∧ c ≤ 'Z')) → lower s = s

theorem asciiLower_keepsSmall : KeepsSmall asciiLower := by
  intro s hs
  have hmap : (s.toList.map fun c => if 'A' ≤ c ∧ c ≤ 'Z' then Char.ofNat (c.toNat + 32) else c) =
      s.toList := by
    rw [List.map_congr_left fun c hc => if_neg (hs c hc).2, List.map_id']
  rw [asciiLower, hmap, String.ofList_toList]

def asciiUpper (s : String) : String :=
  String.ofList (s.toList.map fun c => if 'a' ≤ c ∧ c ≤ 'z' then Char.ofNat (c.toNat - 32) else c)

/-- Capitals at the start of a run of letters, small letters inside it. -/
def titleFrom : Bool → List Char → List Char
  | _, [] => []
  | inside, c :: cs =>
    let small := if 'A' ≤ c ∧ c ≤ 'Z' then Char.ofNat (c.toNat + 32) else c
    let letter : Bool := 'a' ≤ small ∧ small ≤ 'z'
    (if letter ∧ inside = false then Char.ofNat (small.toNat - 32) else small) ::
      titleFrom letter cs

def asciiTitle (s : String) : String := String.ofList (titleFrom false s.toList)

example : asciiLower "SM-G960 Ä" = "sm-g960 Ä" ∧ asciiTitle "home CONTROL-panel" = "Home Control-Panel" ∧
    fnmatch "twrp-3.7.img" "twrp*.img" := by decide

end ForgeOS.Python
