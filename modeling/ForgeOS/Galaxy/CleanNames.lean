import ForgeOS.Galaxy.Staging
import ForgeOS.Library.Labels

/-! The names that an upload is staged under: how they begin and end, and whether a document keeps its
extension. -/

namespace ForgeOS.Galaxy.Staging

open ForgeOS.Library.Labels

/-! ### Ends of names -/

@[simp] theorem lower_append (s t : Units) : lower (s ++ t) = lower s ++ lower t :=
  List.map_append

/-- What ends a text and has no separator in it ends what stands after a separator. -/
theorem suffix_after {α : Type*} {w a b : List α} {x : α} (hx : x ∉ w) :
    w <:+ a ++ x :: b ↔ w <:+ b := by
  constructor
  · intro h
    have hb : b <:+ a ++ x :: b := (List.suffix_cons x b).trans (List.suffix_append a _)
    rcases Nat.le_total w.length b.length with hle | hle
    · exact List.suffix_of_suffix_length_le h hb hle
    · rcases Nat.lt_or_eq_of_le hle with hlt | heq
      · have hxb : x :: b <:+ w :=
          List.suffix_of_suffix_length_le (List.suffix_append a _) h (by rw [List.length_cons]; omega)
        exact absurd (hxb.subset List.mem_cons_self) hx
      · exact List.suffix_of_suffix_length_le h hb (Nat.le_of_eq heq.symm)
  · intro h
    exact h.trans ((List.suffix_cons x b).trans (List.suffix_append a _))

/-- A short end of a text is the end of what `slice` takes of it. -/
theorem suffix_rtake {α : Type*} {w l : List α} {n : ℕ} (hw : w.length ≤ n) :
    w <:+ l.rtake n ↔ w <:+ l := by
  constructor
  · intro h
    exact h.trans (List.drop_suffix _ l)
  · intro h
    have hle := h.length_le
    exact List.suffix_of_suffix_length_le h (List.drop_suffix _ l)
      (by rw [List.rtake, List.length_drop]; omega)

theorem lower_rtake (s : Units) (n : ℕ) : lower (s.rtake n) = (lower s).rtake n := by
  simp [lower, List.rtake]

theorem endsIn_iff {suffixes : List String} {name : Units} :
    endsIn suffixes name = true ↔ ∃ e ∈ suffixes, units e <:+ lower name := by
  simp [endsIn]

theorem isMail_iff {name : Units} : isMail name = true ↔ units ".eml" <:+ lower name := by
  simp [isMail, endsIn_iff]

/-- The end of a name decides about it, whatever stands before a separator. -/
theorem isMail_after (a b : Units) : isMail (a ++ 45 :: b) = isMail b := by
  rw [Bool.eq_iff_iff, isMail_iff, isMail_iff, lower_append]
  exact suffix_after (x := 45) (by decide)

theorem isMail_rtake (s : Units) : isMail (s.rtake 100) = isMail s := by
  rw [Bool.eq_iff_iff, isMail_iff, isMail_iff, lower_rtake]
  exact suffix_rtake (by decide)

theorem isMail_original (wide : ℕ → Bool) (i : ℕ) (name : Units) :
    isMail (originalName wide i name) = isMail (cleanFilename wide name) := by
  rw [originalName, label, List.map_append, List.append_assoc]
  exact isMail_after _ _

theorem isMail_attachment (wide : ℕ → Bool) (name : Units) (k : ℕ) (attachment : Units) :
    isMail (attachmentName wide name k attachment) = isMail (cleanFilename wide attachment) := by
  have hsplit : attachmentName wide name k attachment =
      (name.take 90 ++ (units "-attachment-" ++ digits k)) ++
        45 :: (cleanFilename wide attachment).rtake 100 := by
    simp [attachmentName, units]
  rw [hsplit, isMail_after, isMail_rtake]

theorem isMail_extracted (name : Units) : isMail (extractedName name) = false := by
  rw [← Bool.not_eq_true, isMail_iff, extractedName, lower_append]
  intro h
  have hlast := List.suffix_of_suffix_length_le h (List.suffix_append (lower name) _) (by decide)
  exact absurd hlast (by decide)

/-- A saved e-mail is no other document. -/
theorem isDocument_of_isMail {name : Units} (h : isMail name = true) : isDocument name = false := by
  rw [← Bool.not_eq_true, isDocument, endsIn_iff]
  rintro ⟨e, he, hsuffix⟩
  rw [isMail_iff] at h
  have hshort : ∀ e ∈ [".docx", ".xlsx", ".pptx", ".pdf"],
      ¬(units e <:+ units ".eml" ∨ units ".eml" <:+ units e) := by decide
  exact hshort e he (List.suffix_or_suffix_of_suffix hsuffix h)

/-! ### Labels -/

theorem map_toNat_injective : Function.Injective (List.map Char.toNat) :=
  List.map_injective_iff.mpr fun _ _ => Char.toNat_inj.mp

theorem not_mem_map_toNat {c : Char} {cs : List Char} (h : c ∉ cs) :
    c.toNat ∉ cs.map Char.toNat := by
  rw [List.mem_map]
  rintro ⟨d, hd, heq⟩
  rw [Char.toNat_inj.mp heq] at hd
  exact h hd

theorem label_apart : Apart label := by
  have hlabel : label = fun i =>
      ((Nat.toDigits 10 (i + 1)).leftpad 2 '0').map Char.toNat ++ ['-'.toNat] := by
    funext i
    rw [label, List.map_append]
    rfl
  rw [hlabel]
  apply apart_of_separator
  · intro i j h
    have hnext := leftpad_toDigits_injective 2 (map_toNat_injective h)
    omega
  · intro i
    exact not_mem_map_toNat (not_mem_leftpad rfl 2 (i + 1))

/-- How the name of the attachment with a number begins. -/
def attachmentLabel (name : Units) (k : ℕ) : Units :=
  name.take 90 ++ (units "-attachment-" ++ (digits k ++ units "-"))

theorem attachmentLabel_apart (name : Units) : Apart (attachmentLabel name) := by
  have hdigits : Apart fun k => digits k ++ ['-'.toNat] :=
    apart_of_separator '-'.toNat (fun j k h => toDigits_injective (map_toNat_injective h))
      fun k => not_mem_map_toNat (not_mem_toDigits rfl k)
  exact (hdigits.prepend (units "-attachment-")).prepend (name.take 90)

theorem attachmentName_eq (wide : ℕ → Bool) (name : Units) (k : ℕ) (attachment : Units) :
    attachmentName wide name k attachment =
      attachmentLabel name k ++ (cleanFilename wide attachment).rtake 100 := rfl

/-- What is staged of an attachment begins with its label. -/
theorem begins_attachmentLabel {wide : ℕ → Bool} {name : Units} {k : ℕ} {attachment x : Units}
    (h : x = attachmentName wide name k attachment ∨
      x = extractedName (attachmentName wide name k attachment)) : attachmentLabel name k <+: x := by
  have hname : attachmentLabel name k <+: attachmentName wide name k attachment :=
    List.prefix_append _ _
  rcases h with rfl | rfl
  · exact hname
  · exact hname.trans (List.prefix_append _ _)

theorem extractedName_ne (name : Units) : extractedName name ≠ name := by
  intro h
  have hlength := congrArg List.length h
  simp [extractedName, units] at hlength

/-- All names of the first fifty uploads begin with two digits and a sign. -/
theorem label_length {i : ℕ} (h : i < 50) : (label i).length = 3 := by
  have hall : ∀ i < 50, (label i).length = 3 := by decide
  exact hall i h

theorem label_prefix_original (wide : ℕ → Bool) (i : ℕ) (name : Units) :
    label i <+: originalName wide i name := List.prefix_append _ _

theorem label_prefix_attachment {i : ℕ} (h : i < 50) {name : Units} (hname : label i <+: name)
    (wide : ℕ → Bool) (k : ℕ) (attachment : Units) :
    label i <+: attachmentName wide name k attachment := by
  have htake : label i <+: name.take 90 := by
    refine List.prefix_take_iff.mpr ⟨hname, ?_⟩
    rw [label_length h]
    omega
  rw [attachmentName_eq, attachmentLabel, List.append_assoc]
  exact htake.trans (List.prefix_append _ _)

/-! ### Extensions -/

/-- What stands after the last separator. -/
theorem rtakeWhile_of_suffix {sep : ℕ} {t s : Units} (ht : sep ∉ t) (h : sep :: t <:+ s) :
    s.rtakeWhile (· != sep) = t := by
  have hprefix : t.reverse ++ [sep] <+: s.reverse := by simpa using List.reverse_prefix.mpr h
  rw [List.rtakeWhile, takeWhile_of_prefix (by simpa using ht) hprefix, List.reverse_reverse]

/-- The last separator of a text. -/
theorem split_last {sep : ℕ} {s : Units} (h : sep ∈ s) : ∃ a t, s = a ++ sep :: t ∧ sep ∉ t ∧
    s.rtakeWhile (· != sep) = t ∧ s.rdropWhile (· != sep) = a ++ [sep] := by
  obtain ⟨t, a, hsplit, ht⟩ := List.eq_append_cons_of_mem (List.mem_reverse.mpr h)
  have hs : s = a.reverse ++ sep :: t.reverse := by
    rw [← List.reverse_reverse s, hsplit]
    simp
  have hlast : sep ∉ t.reverse := by simpa using ht
  have htake := rtakeWhile_of_suffix hlast (s := s) (hs ▸ List.suffix_append _ _)
  refine ⟨a.reverse, t.reverse, hs, hlast, htake, ?_⟩
  have hboth : s.rdropWhile (· != sep) ++ t.reverse = (a.reverse ++ [sep]) ++ t.reverse := by
    rw [← htake, List.rdropWhile_append_rtakeWhile, htake, ← List.append_cons]
    exact hs
  exact List.append_cancel_right hboth

theorem lower_unit (u : ℕ) : (if 65 ≤ u ∧ u ≤ 90 then u + 32 else u) = 46 ↔ u = 46 := by
  split <;> omega

theorem lower_rtakeWhile (s : Units) :
    (lower s).rtakeWhile (· != dot) = lower (s.rtakeWhile (· != dot)) := by
  have hsame : (· != dot) ∘ (fun u => if 65 ≤ u ∧ u ≤ 90 then u + 32 else u) =
      (· != dot) := by
    funext u
    rw [Function.comp_apply, Bool.eq_iff_iff, bne_iff_ne, bne_iff_ne, ne_eq, ne_eq, not_iff_not]
    exact lower_unit u
  rw [List.rtakeWhile, List.rtakeWhile, lower, ← List.map_reverse, List.takeWhile_map, hsame, lower,
    List.map_reverse]

/-- A name without slashes that does not begin with a dot. -/
theorem extname_plain {s : Units} (hslash : slash ∉ s) (hhead : s.head? ≠ some dot) :
    extname s = if dot ∈ s then dot :: s.rtakeWhile (· != dot) else [] := by
  have hbase : (s.rdropWhile (· == slash)).rtakeWhile (· != slash) = s := by
    rw [List.rdropWhile_eq_self_iff.mpr fun hl => ?_, List.rtakeWhile_eq_self_iff.mpr fun x hx => ?_]
    · rw [bne_iff_ne]
      rintro rfl
      exact hslash hx
    · rw [beq_iff_eq]
      intro hlast
      exact hslash (hlast ▸ List.getLast_mem hl)
  rw [extname, hbase]
  split
  · next hnone =>
    rw [if_neg]
    intro hmem
    obtain ⟨a, t, hs, -, -, hdrop⟩ := split_last hmem
    rw [hdrop, Bool.or_eq_true, decide_eq_true_iff, beq_iff_eq] at hnone
    have ha : a ≠ [] := by
      rintro rfl
      simp [hs] at hhead
    rcases hnone with hshort | hdots
    · have := List.length_pos_iff.mpr ha
      rw [List.length_append, List.length_singleton] at hshort
      omega
    · rw [hdots] at hhead
      exact hhead rfl
  · next hsome =>
    rw [if_pos]
    by_contra hmem
    have hnil : s.rdropWhile (· != dot) = [] := by
      rw [List.rdropWhile_eq_nil_iff]
      intro x hx
      rw [bne_iff_ne]
      rintro rfl
      exact hmem hx
    simp [hnil] at hsome

/-- The extension of a document whose name is accepted, with what stands before and after it. -/
theorem extname_split {name : Units} (h : supported name = true) :
    ∃ before tail slashes, name = before ++ dot :: (tail ++ List.replicate slashes slash) ∧
      extname name = dot :: tail ∧ before ≠ [] ∧ tail ≠ [] ∧
        ∀ u ∈ tail, 65 ≤ u ∧ u ≤ 90 ∨ 97 ≤ u ∧ u ≤ 122 := by
  obtain ⟨e, he, heq⟩ := List.any_eq_true.mp h
  rw [beq_iff_eq] at heq
  have hext : extname name ≠ [] := by
    intro hnil
    rw [hnil] at heq
    have hall : ∀ e ∈ extensions, units e ≠ lower [] := by decide
    exact hall e he heq
  have hsplit := List.rdropWhile_append_rtakeWhile (p := (· == slash)) (l := name)
  have hslashes : name.rtakeWhile (· == slash) =
      List.replicate (name.rtakeWhile (· == slash)).length slash :=
    List.eq_replicate_of_mem fun u hu => by simpa using List.mem_rtakeWhile_imp hu
  obtain ⟨x, hx⟩ : (name.rdropWhile (· == slash)).rtakeWhile (· != slash) <:+
      name.rdropWhile (· == slash) := List.rtakeWhile_suffix _ _
  have hdef : extname name =
      let base := (name.rdropWhile (· == slash)).rtakeWhile (· != slash)
      if (base.rdropWhile (· != dot)).length ≤ 1 || base == units ".." then []
      else dot :: base.rtakeWhile (· != dot) := rfl
  dsimp only at hdef
  generalize (name.rdropWhile (· == slash)).rtakeWhile (· != slash) = base at hx hdef
  split at hdef
  · exact absurd hdef hext
  · next hlong =>
    rw [hdef] at heq
    rw [Bool.or_eq_true, decide_eq_true_iff, not_or, Nat.not_le] at hlong
    have hdot : dot ∈ base := by
      by_contra hmem
      have hnil : base.rdropWhile (· != dot) = [] := by
        rw [List.rdropWhile_eq_nil_iff]
        intro u hu
        rw [bne_iff_ne]
        rintro rfl
        exact hmem hu
      rw [hnil] at hlong
      simp at hlong
    obtain ⟨a, t, hbase, -, htake, hdrop⟩ := split_last hdot
    rw [htake] at heq
    have hletters : ∀ e ∈ extensions, 1 < (units e).length ∧
        ∀ u ∈ (units e).tail, 97 ≤ u ∧ u ≤ 122 := by decide
    obtain ⟨hlength, htail⟩ := hletters e he
    rw [heq] at hlength htail
    refine ⟨x ++ a, t, (name.rtakeWhile (· == slash)).length, ?_, ?_, ?_, ?_, ?_⟩
    · rw [← hslashes, ← List.cons_append, List.append_assoc, ← List.append_assoc a, ← hbase,
        ← List.append_assoc, hx, hsplit]
    · rw [hdef, htake]
    · rintro hnil
      rw [List.append_eq_nil_iff] at hnil
      rw [hdrop, hnil.2] at hlong
      simp at hlong
    · rintro rfl
      simp [lower] at hlength
    · intro u hu
      have hlow := htail _ (List.mem_map_of_mem hu)
      split at hlow <;> omega

/-! ### Cleaned names -/

theorem codePoints_append (s : Units) {t : Units} (h : ∀ u ∈ t.head?, lowSurrogate u = false) :
    codePoints (s ++ t) = codePoints s ++ codePoints t := by
  induction s using codePoints.induct with
  | case1 => rfl
  | case2 u =>
    cases t with
    | nil => rfl
    | cons v rest => simp [codePoints, h v rfl]
  | case3 u v rest hpair ih => simp [codePoints, hpair, ih]
  | case4 u v rest hpair ih =>
    rw [List.cons_append, List.cons_append, codePoints, if_neg hpair, codePoints, if_neg hpair,
      ← List.cons_append, ih, List.cons_append]

/-- Without surrogates every unit is a code point. -/
theorem codePoints_single {s : Units} (h : ∀ u ∈ s, lowSurrogate u = false) :
    codePoints s = s.map ([·]) := by
  induction s using codePoints.induct with
  | case1 => rfl
  | case2 u => rfl
  | case3 u v rest hpair ih => simp [h v (by simp)] at hpair
  | case4 u v rest hpair ih =>
    rw [codePoints, if_neg hpair, ih fun x hx => h x (List.mem_cons_of_mem _ hx)]
    rfl

/-- A code point is one unit, or two surrogates. -/
theorem codePoints_cases {s c : Units} (h : c ∈ codePoints s) :
    (∃ u, c = [u]) ∨ ∃ u v, c = [u, v] ∧ highSurrogate u = true ∧ lowSurrogate v = true := by
  induction s using codePoints.induct with
  | case1 => cases h
  | case2 u => exact .inl ⟨u, List.mem_singleton.mp h⟩
  | case3 u v rest hpair ih =>
    rw [codePoints, if_pos hpair, List.mem_cons] at h
    rcases h with rfl | h
    · exact .inr ⟨u, v, rfl, Bool.and_eq_true_iff.mp hpair⟩
    · exact ih h
  | case4 u v rest hpair ih =>
    rw [codePoints, if_neg hpair, List.mem_cons] at h
    rcases h with rfl | h
    · exact .inl ⟨u, rfl⟩
    · exact ih h

theorem replaced_append (wide : ℕ → Bool) (s : Units) {t : Units}
    (h : ∀ u ∈ t.head?, lowSurrogate u = false) :
    replaced wide (s ++ t) = replaced wide s ++ replaced wide t := by
  rw [replaced, codePoints_append s h, List.flatMap_append, replaced, replaced]

/-- The extension stays. -/
theorem replaced_extension (wide : ℕ → Bool) {tail : Units}
    (h : ∀ u ∈ tail, 65 ≤ u ∧ u ≤ 90 ∨ 97 ≤ u ∧ u ≤ 122) :
    replaced wide (dot :: tail) = dot :: tail := by
  have hascii : ∀ u < 128, 65 ≤ u ∧ u ≤ 90 ∨ 97 ≤ u ∧ u ≤ 122 →
      (Char.ofNat u).isAlphanum = true := by decide
  have hkept : ∀ u ∈ dot :: tail,
      (letterOrNumber wide u || (units " ._-").contains u) = true ∧ lowSurrogate u = false := by
    intro u hu
    rcases List.mem_cons.mp hu with rfl | hu
    · exact ⟨by simp [units, dot], rfl⟩
    · have hlt : u < 128 := by have := h u hu; omega
      refine ⟨?_, by simp [lowSurrogate]; omega⟩
      rw [letterOrNumber, if_pos hlt, hascii u hlt (h u hu), Bool.true_or]
  rw [replaced, codePoints_single fun u hu => (hkept u hu).2, List.flatMap_map]
  have hsame : ∀ u ∈ dot :: tail, (if letterOrNumber wide (value [u]) ||
      (units " ._-").contains (value [u]) then [u] else units "_") = [u] :=
    fun u hu => if_pos (hkept u hu).1
  rw [List.flatMap_congr hsame]
  simp

theorem replaced_slashes (wide : ℕ → Bool) (n : ℕ) :
    replaced wide (List.replicate n slash) = List.replicate n '_'.toNat := by
  rw [replaced, codePoints_single fun u hu => by rw [List.eq_of_mem_replicate hu]; rfl,
    List.flatMap_map]
  induction n with
  | zero => rfl
  | succ n ih =>
    rw [List.replicate_succ, List.flatMap_cons, ih, List.replicate_succ]
    rfl

theorem slash_not_mem_replaced (wide : ℕ → Bool) (s : Units) : slash ∉ replaced wide s := by
  intro hmem
  obtain ⟨c, hc, hslash⟩ := List.mem_flatMap.mp hmem
  split at hslash
  · next hkept =>
    rcases codePoints_cases hc with ⟨u, rfl⟩ | ⟨u, v, rfl, hu, hv⟩
    · rw [List.mem_singleton] at hslash
      subst hslash
      have hnot : (letterOrNumber wide (value [slash]) ||
          (units " ._-").contains (value [slash])) = false := rfl
      rw [hnot] at hkept
      cases hkept
    · rcases List.mem_pair.mp hslash with hfirst | hsecond
      · rw [← hfirst] at hu
        exact absurd hu (by decide)
      · rw [← hsecond] at hv
        exact absurd hv (by decide)
  · exact absurd hslash (by decide)

theorem replaced_head (wide : ℕ → Bool) {s : Units} (h : s.head? ≠ some dot) :
    (replaced wide s).head? ≠ some dot := by
  have hfirst : ∀ c t, c.head? ≠ some dot → c ≠ [] →
      (((if letterOrNumber wide (value c) || (units " ._-").contains (value c) then c
        else units "_") ++ t : Units)).head? ≠ some dot := by
    intro c t hc hne
    split
    · cases c with
      | nil => exact absurd rfl hne
      | cons u us => exact hc
    · simp [units, dot]
  rw [replaced]
  cases s with
  | nil => simp [codePoints]
  | cons u rest =>
    cases rest with
    | nil => exact hfirst [u] [] h (by simp)
    | cons v rest =>
      rw [codePoints]
      split
      · exact hfirst [u, v] _ h (by simp)
      · exact hfirst [u] _ h (by simp)

/-- The document is staged with the extension of its name exactly if the name, cleaned as far as it
is not cut, ends in it: a name of at most 180 units where no slash ends it, and a longer one where the
first 180 units happen to end in the extension. -/
def KeepsExtension (wide : ℕ → Bool) (name : Units) : Prop :=
  if (replaced wide name).length ≤ 180 then name.getLast? ≠ some slash
  else lower (extname name) <:+ lower ((replaced wide name).take 180)

theorem visible_head {name : Units} (h : visible (text name) = true) : name.head? ≠ some dot := by
  intro hhead
  cases name with
  | nil => cases hhead
  | cons u rest =>
    rw [List.head?_cons, Option.some.injEq] at hhead
    subst hhead
    have hpoints : ∃ more, codePoints (dot :: rest) = [dot] :: more := by
      cases rest with
      | nil => exact ⟨[], rfl⟩
      | cons v rest => exact ⟨codePoints (v :: rest), rfl⟩
    obtain ⟨more, hmore⟩ := hpoints
    have htext : ∃ tail, (text (dot :: rest)).toList = '.' :: tail := by
      rw [text, characters, hmore, String.toList_ofList]
      exact ⟨_, rfl⟩
    obtain ⟨tail, htail⟩ := htext
    simp only [visible, Bool.and_eq_true, Bool.not_eq_true'] at h
    rw [htail] at h
    exact absurd h.1.1.1 (by simp [List.isPrefixOf])

theorem not_mem_label {c : Char} (hc : c.isDigit = false) (hdash : c ≠ '-') (i : ℕ) :
    c.toNat ∉ label i := by
  rw [label]
  apply not_mem_map_toNat
  rw [List.mem_append, not_or]
  exact ⟨not_mem_leftpad hc 2 (i + 1), by simpa using hdash⟩

/-- The cleaned name of an accepted document. -/
theorem cleanFilename_eq (wide : ℕ → Bool) {name : Units} (hvisible : visible (text name) = true)
    (hne : replaced wide name ≠ []) : cleanFilename wide name = (replaced wide name).take 180 := by
  have hdrop : (replaced wide name).dropWhile (· == dot) = replaced wide name := by
    cases hr : replaced wide name with
    | nil => exact absurd hr hne
    | cons u rest =>
      have hhead := replaced_head wide (visible_head hvisible)
      rw [hr, List.head?_cons] at hhead
      rw [List.dropWhile_cons_of_neg]
      simpa using hhead
  rw [cleanFilename, hdrop]
  exact if_neg (by simpa using hne)

/-- The end of a text after a sign. -/
theorem lower_suffix_label {e : Units} (he : '-'.toNat ∉ lower e) (i : ℕ) (s : Units) :
    lower e <:+ lower (label i ++ s) ↔ lower e <:+ lower s := by
  have hlabel : lower (label i ++ s) =
      lower (((Nat.toDigits 10 (i + 1)).leftpad 2 '0').map Char.toNat) ++ '-'.toNat :: lower s := by
    rw [label, List.map_append, List.append_assoc, lower_append, lower_append]
    rfl
  rw [hlabel]
  exact suffix_after he

theorem replaced_split (wide : ℕ → Bool) (before : Units) {tail : Units} (slashes : ℕ)
    (h : ∀ u ∈ tail, 65 ≤ u ∧ u ≤ 90 ∨ 97 ≤ u ∧ u ≤ 122) :
    replaced wide (before ++ dot :: (tail ++ List.replicate slashes slash)) =
      replaced wide before ++ (dot :: tail ++ List.replicate slashes '_'.toNat) := by
  have hfirst : lowSurrogate dot = false := rfl
  have hslash : ∀ u ∈ (List.replicate slashes slash).head?, lowSurrogate u = false := by
    intro u hu
    rw [List.eq_of_mem_replicate (List.mem_of_head? hu)]
    rfl
  rw [replaced_append wide before (by simpa using hfirst), ← List.cons_append,
    replaced_append wide (dot :: tail) hslash, replaced_extension wide h, replaced_slashes]

theorem getLast?_of_suffix {w s : Units} (h : w <:+ s) (hw : w ≠ []) : s.getLast? = w.getLast? := by
  obtain ⟨a, rfl⟩ := h
  exact List.getLast?_append_of_ne_nil a hw

theorem keepsExtension_iff (wide : ℕ → Bool) {name : Units} (hsupported : supported name = true) :
    KeepsExtension wide name ↔ lower (extname name) <:+ lower ((replaced wide name).take 180) := by
  obtain ⟨before, tail, slashes, hname, hext, hbefore, htail, hletters⟩ :=
    extname_split hsupported
  rw [KeepsExtension]
  split
  · next hshort =>
    obtain ⟨front, last, rfl⟩ := (List.eq_nil_or_concat' tail).resolve_left htail
    have hlast := hletters last (by simp)
    rw [List.take_of_length_le hshort, hext]
    cases slashes with
    | zero =>
      apply iff_of_true
      · have hend : name.getLast? = some last := by
          rw [hname, List.replicate_zero, List.append_nil, ← List.cons_append, ← List.append_assoc]
          exact List.getLast?_concat
        rw [hend, ne_eq, Option.some.injEq]
        rintro rfl
        exact absurd hlast (by decide)
      · rw [hname, replaced_split wide before 0 hletters, lower_append]
        simp
    | succ n =>
      apply iff_of_false
      · rw [not_not, hname, List.replicate_succ', ← List.append_assoc, ← List.cons_append,
          ← List.append_assoc]
        exact List.getLast?_concat
      · intro h
        have hend := getLast?_of_suffix h (by simp [lower])
        rw [hname, replaced_split wide before (n + 1) hletters, List.replicate_succ'] at hend
        simp only [lower, List.map_append, ← List.append_assoc, List.map_cons, List.map_nil,
          List.getLast?_concat, List.getLast?_cons, Option.some.injEq] at hend
        simp at hend
        split at hend <;> omega
  · exact Iff.rfl

theorem extname_original_iff (wide : ℕ → Bool) (i : ℕ) {name : Units}
    (hvisible : visible (text name) = true) (hsupported : supported name = true) :
    lower (extname (originalName wide i name)) = lower (extname name) ↔
      KeepsExtension wide name := by
  obtain ⟨before, tail, slashes, hname, hext, hbefore, htail, hletters⟩ :=
    extname_split hsupported
  have hlow : lower (extname name) = dot :: lower tail := by
    rw [hext]
    rfl
  have hrange : ∀ u ∈ lower tail, 97 ≤ u ∧ u ≤ 122 := by
    intro u hu
    obtain ⟨v, hv, rfl⟩ := List.mem_map.mp hu
    have := hletters v hv
    split <;> omega
  have hdot : dot ∉ lower tail := fun hmem => absurd (hrange _ hmem) (by decide)
  have hdash : '-'.toNat ∉ lower (extname name) := by
    rw [hlow, List.mem_cons, not_or]
    exact ⟨by decide, fun hmem => absurd (hrange _ hmem) (by decide)⟩
  have hne : replaced wide name ≠ [] := by
    rw [hname, replaced_split wide before slashes hletters]
    simp
  rw [originalName, cleanFilename_eq wide hvisible hne, keepsExtension_iff wide hsupported,
    ← lower_suffix_label hdash i]
  have hslash : slash ∉ label i ++ (replaced wide name).take 180 := by
    rw [List.mem_append, not_or]
    exact ⟨not_mem_label rfl (by decide) i,
      fun hmem => slash_not_mem_replaced wide name (List.mem_of_mem_take hmem)⟩
  have hhead : (label i ++ (replaced wide name).take 180).head? ≠ some dot := by
    have hlabel : label i ≠ [] := by simp [label]
    rw [List.head?_append_of_ne_nil _ hlabel]
    intro hdigit
    exact not_mem_label rfl (by decide) i (List.mem_of_head? hdigit)
  rw [extname_plain hslash hhead]
  generalize label i ++ (replaced wide name).take 180 = s
  constructor
  · intro h
    split at h
    · next hmem =>
      obtain ⟨a, t, hs, -, htake, -⟩ := split_last hmem
      rw [← h, htake, hs, lower_append]
      exact List.suffix_append _ _
    · rw [hlow] at h
      cases h
  · intro h
    rw [hlow] at h ⊢
    have hmem : dot ∈ s := by
      obtain ⟨u, hu, heq⟩ := List.mem_map.mp (h.subset List.mem_cons_self)
      have hu' : u = dot := (lower_unit u).mp heq
      exact hu' ▸ hu
    rw [if_pos hmem]
    have htake := rtakeWhile_of_suffix hdot h
    rw [lower_rtakeWhile] at htake
    rw [← htake]
    rfl

end ForgeOS.Galaxy.Staging
