import ForgeOS.Native.JsonStrings
import ForgeOS.Native.Stores

/-! Quoting of a text for the JSON of a request, `jquote`, and what `jstring` makes of it. The stores
into `out` are kept one by one, so that it can be said where they go. -/

namespace ForgeOS.Native

/-! ### `jquote` -/

/-- `c < 32 || c == '"' || c == '\\'` -/
def special (c : UInt8) : Bool := c < 32 || c == 34 || c == 92

def hexDigit (d : UInt8) : UInt8 := if d < 10 then 48 + d else 87 + d

/-- `"\\u%04x"` -/
def unicode (c : UInt8) : Bytes := [92, 117, 48, 48, hexDigit (c / 16), hexDigit (c % 16)]

/-- `snprintf` with a text that is made already: its length, and the bytes that are stored. -/
def snprintf (size : ℕ) (text : Bytes) : ℕ × Bytes :=
  (text.length, if size = 0 then [] else text.take (size - 1) ++ [0])

/-- The loop of `jquote` and what is behind it. -/
def quoteLoop (cap : ℕ) : ℕ → Bytes → Written
  | n, [] => { result := 0, stores := storeFrom n [34, 0] }
  | n, c :: cs =>
    if special c then
      if cap ≤ n + 6 then { result := -1, stores := [] }
      else
        let (k, bytes) := snprintf (cap - n) (unicode c)
        if k ≠ 6 then { result := -1, stores := storeFrom n bytes }
        else (quoteLoop cap (n + 6) cs).after (storeFrom n bytes)
    else if cap ≤ n + 2 then { result := -1, stores := [] }
    else (quoteLoop cap (n + 1) cs).after (storeFrom n [c])

def jquote (s : Bytes) (cap : ℕ) : Written :=
  if cap < 3 then { result := -1, stores := [] }
  else (quoteLoop cap 1 s).after (storeFrom 0 [34])

/-! ### The quoted text -/

/-- What stands for a character. -/
def escaped (c : UInt8) : Bytes := if special c then unicode c else [c]

/-- The quoted text between its quotation marks. -/
def quoted (s : Bytes) : Bytes := s.flatMap escaped

def quoteText (s : Bytes) : Bytes := 34 :: (quoted s ++ [34])

/-- The text ends with a character that is not written as it is. -/
def endsSpecial (s : Bytes) : Bool := s.getLast?.any special

theorem quoted_special {c : UInt8} (h : special c = true) (cs : Bytes) :
    quoted (c :: cs) = unicode c ++ quoted cs := by
  rw [quoted, List.flatMap_cons, escaped, if_pos h]
  rfl

theorem quoted_plain {c : UInt8} (h : special c = false) (cs : Bytes) :
    quoted (c :: cs) = c :: quoted cs := by
  rw [quoted, List.flatMap_cons, escaped, if_neg (by simp [h])]
  rfl

theorem length_unicode (c : UInt8) : (unicode c).length = 6 := rfl

theorem length_quoteText (s : Bytes) : (quoteText s).length = (quoted s).length + 2 := by
  rw [quoteText, List.length_cons, List.length_append]
  rfl

theorem endsSpecial_singleton (c : UInt8) : endsSpecial [c] = special c := rfl

theorem endsSpecial_cons (c : UInt8) {cs : Bytes} (hcs : cs ≠ []) :
    endsSpecial (c :: cs) = endsSpecial cs := by
  obtain ⟨d, ds, rfl⟩ := List.exists_cons_of_ne_nil hcs
  rw [endsSpecial, endsSpecial, List.getLast?_cons_cons]

theorem length_quoted_pos {s : Bytes} (hs : s ≠ []) : 0 < (quoted s).length := by
  obtain ⟨c, cs, rfl⟩ := List.exists_cons_of_ne_nil hs
  cases hc : special c with
  | true =>
    rw [quoted_special hc, List.length_append, length_unicode]
    omega
  | false =>
    rw [quoted_plain hc, List.length_cons]
    omega

/-- Six bytes at least are written where the last character is not written as it is. -/
theorem length_quoted_special {s : Bytes} (hs : endsSpecial s = true) : 6 ≤ (quoted s).length := by
  induction s with
  | nil => cases hs
  | cons c cs ih =>
    by_cases hcs : cs = []
    · subst hcs
      rw [endsSpecial_singleton] at hs
      rw [quoted_special hs, List.length_append, length_unicode]
      omega
    · have hrest := ih (by rwa [endsSpecial_cons c hcs] at hs)
      cases hc : special c with
      | true =>
        rw [quoted_special hc, List.length_append]
        omega
      | false =>
        rw [quoted_plain hc, List.length_cons]
        omega

/-! ### One character -/

section Loop

variable {cap n : ℕ} {c : UInt8} {cs : Bytes}

theorem quoteLoop_special (hc : special c = true) (hroom : n + 6 < cap) :
    quoteLoop cap n (c :: cs) =
      (quoteLoop cap (n + 6) cs).after (storeFrom n (unicode c ++ [0])) := by
  have htake : (unicode c).take (cap - n - 1) = unicode c :=
    List.take_of_length_le (by rw [length_unicode]; omega)
  have hsize : ¬cap - n = 0 := by omega
  simp only [quoteLoop, hc, if_true, Nat.not_le.mpr hroom, if_false, snprintf, length_unicode,
    ne_eq, not_true_eq_false, hsize, htake]

theorem quoteLoop_plain (hc : special c = false) (hroom : n + 2 < cap) :
    quoteLoop cap n (c :: cs) = (quoteLoop cap (n + 1) cs).after (storeFrom n [c]) := by
  simp only [quoteLoop, hc, Bool.false_eq_true, if_false, Nat.not_le.mpr hroom]

theorem quoteLoop_full (hfull : if special c then cap ≤ n + 6 else cap ≤ n + 2) :
    quoteLoop cap n (c :: cs) = { result := -1, stores := [] } := by
  cases hc : special c with
  | true =>
    rw [hc] at hfull
    simp only [if_true] at hfull
    simp only [quoteLoop, hc, if_true, hfull]
  | false =>
    rw [hc] at hfull
    simp only [Bool.false_eq_true, if_false] at hfull
    simp only [quoteLoop, hc, Bool.false_eq_true, if_false, hfull, if_true]

/-- A character is written, or the loop ends without writing it. -/
theorem quoteLoop_cases (cap n : ℕ) (c : UInt8) (cs : Bytes) :
    (special c = true ∧ n + 6 < cap ∧ quoteLoop cap n (c :: cs) =
      (quoteLoop cap (n + 6) cs).after (storeFrom n (unicode c ++ [0]))) ∨
    (special c = false ∧ n + 2 < cap ∧ quoteLoop cap n (c :: cs) =
      (quoteLoop cap (n + 1) cs).after (storeFrom n [c])) ∨
    (quoteLoop cap n (c :: cs) = { result := -1, stores := [] } ∧
      if special c then cap ≤ n + 6 else cap ≤ n + 2) := by
  by_cases hfull : if special c then cap ≤ n + 6 else cap ≤ n + 2
  · exact .inr (.inr ⟨quoteLoop_full hfull, hfull⟩)
  · cases hc : special c with
    | true =>
      rw [hc, if_pos rfl, Nat.not_le] at hfull
      exact .inl ⟨rfl, hfull, quoteLoop_special hc hfull⟩
    | false =>
      rw [hc, if_neg (by decide), Nat.not_le] at hfull
      exact .inr (.inl ⟨rfl, hfull, quoteLoop_plain hc hfull⟩)

end Loop

/-- The stores of the characters are in the range; those behind the loop are where the text ends. -/
theorem quoteLoop_stores (cap : ℕ) (s : Bytes) : ∀ n, ∀ w ∈ (quoteLoop cap n s).stores,
    w.1 < cap ∨ (quoteLoop cap n s).result = 0 ∧ w.1 < n + (quoted s).length + 2 := by
  induction s with
  | nil =>
    intro n w hw
    exact .inr ⟨rfl, mem_storeFrom hw⟩
  | cons c cs ih =>
    intro n w hw
    obtain ⟨hc, hroom, heq⟩ | ⟨hc, hroom, heq⟩ | ⟨heq, -⟩ := quoteLoop_cases cap n c cs
    · rw [heq] at hw ⊢
      rw [quoted_special hc, List.length_append, length_unicode]
      rcases List.mem_append.mp hw with hw | hw
      · have hlast := mem_storeFrom hw
        rw [List.length_append, length_unicode, List.length_singleton] at hlast
        exact .inl (by omega)
      · refine (ih (n + 6) w hw).imp_right fun h => ⟨h.1, ?_⟩
        omega
    · rw [heq] at hw ⊢
      rw [quoted_plain hc, List.length_cons]
      rcases List.mem_append.mp hw with hw | hw
      · have hlast := mem_storeFrom hw
        rw [List.length_singleton] at hlast
        exact .inl (by omega)
      · refine (ih (n + 1) w hw).imp_right fun h => ⟨h.1, ?_⟩
        omega
    · rw [heq] at hw
      cases hw

/-- There is no check behind the last character: the text may end one byte too late if its last
character is not written as it is. -/
theorem quoteLoop_end (cap : ℕ) (s : Bytes) : ∀ n, s ≠ [] → (quoteLoop cap n s).result = 0 →
    n + (quoted s).length + 1 < cap ∨ n + (quoted s).length + 1 = cap ∧ endsSpecial s = true := by
  induction s with
  | nil => exact fun n hs => absurd rfl hs
  | cons c cs ih =>
    intro n _ hresult
    obtain ⟨hc, hroom, heq⟩ | ⟨hc, hroom, heq⟩ | ⟨heq, -⟩ := quoteLoop_cases cap n c cs
    · rw [heq] at hresult
      rw [quoted_special hc, List.length_append, length_unicode]
      by_cases hcs : cs = []
      · subst hcs
        rw [endsSpecial_singleton, hc]
        change n + 6 + 1 < cap ∨ n + 6 + 1 = cap ∧ true = true
        rw [and_iff_left rfl]
        omega
      · rw [endsSpecial_cons c hcs, ← Nat.add_assoc]
        exact ih (n + 6) hcs hresult
    · rw [heq] at hresult
      rw [quoted_plain hc, List.length_cons]
      by_cases hcs : cs = []
      · subst hcs
        exact .inl hroom
      · rw [endsSpecial_cons c hcs, show n + ((quoted cs).length + 1) = n + 1 + (quoted cs).length by omega]
        exact ih (n + 1) hcs hresult
    · rw [heq] at hresult
      cases hresult

/-- A text for which there is room, or that ends at the last place with a character that is not
written as it is, is quoted. -/
theorem quoteLoop_result (cap : ℕ) (s : Bytes) : ∀ n,
    n + (quoted s).length + 1 < cap ∨ n + (quoted s).length + 1 = cap ∧ endsSpecial s = true →
      (quoteLoop cap n s).result = 0 := by
  induction s with
  | nil => exact fun n _ => rfl
  | cons c cs ih =>
    intro n hroom
    cases hc : special c with
    | true =>
      rw [quoted_special hc, List.length_append, length_unicode] at hroom
      rw [quoteLoop_special hc (by omega)]
      by_cases hcs : cs = []
      · subst hcs
        rfl
      · rw [endsSpecial_cons c hcs] at hroom
        exact ih (n + 6) (hroom.imp (by omega) fun h => ⟨by omega, h.2⟩)
    | false =>
      rw [quoted_plain hc, List.length_cons] at hroom
      by_cases hcs : cs = []
      · subst hcs
        rw [endsSpecial_singleton, hc] at hroom
        rw [quoteLoop_plain hc (hroom.elim (fun h => h) fun h => absurd h.2 (by decide))]
        rfl
      · rw [endsSpecial_cons c hcs] at hroom
        have hlong : n + 2 < cap := by
          rcases hroom with h | ⟨h, hspecial⟩
          · have hpos := length_quoted_pos hcs
            omega
          · have hsix := length_quoted_special hspecial
            omega
        rw [quoteLoop_plain hc hlong]
        exact ih (n + 1) (hroom.imp (by omega) fun h => ⟨by omega, h.2⟩)

/-! ### What is in `out` -/

/-- When the loop returns zero, the text stands in `out` with its quotation mark and its zero. -/
theorem quoteLoop_memory (cap : ℕ) (s : Bytes) : ∀ (n : ℕ) (out : ℕ → UInt8),
    (quoteLoop cap n s).result = 0 →
      storeAll (quoteLoop cap n s).stores out = put out n (quoted s ++ [34, 0]) := by
  induction s with
  | nil => exact fun n out _ => storeAll_storeFrom _ n out
  | cons c cs ih =>
    intro n out hresult
    obtain ⟨hc, hroom, heq⟩ | ⟨hc, hroom, heq⟩ | ⟨heq, -⟩ := quoteLoop_cases cap n c cs
    · rw [heq] at hresult ⊢
      change storeAll (storeFrom n (unicode c ++ [0]) ++ (quoteLoop cap (n + 6) cs).stores) out = _
      rw [storeAll_append, storeAll_storeFrom, ih (n + 6) _ hresult, quoted_special hc]
      obtain ⟨d, ds, hds⟩ : ∃ d ds, quoted cs ++ [34, 0] = d :: ds :=
        List.exists_cons_of_ne_nil (by simp)
      rw [List.append_assoc, hds]
      exact put_put out n (unicode c) d ds [0] le_rfl
    · rw [heq] at hresult ⊢
      change storeAll (storeFrom n [c] ++ (quoteLoop cap (n + 1) cs).stores) out = _
      rw [storeAll_append, storeAll_storeFrom, ih (n + 1) _ hresult, quoted_plain hc]
      obtain ⟨d, ds, hds⟩ : ∃ d ds, quoted cs ++ [34, 0] = d :: ds :=
        List.exists_cons_of_ne_nil (by simp)
      rw [List.cons_append, hds]
      exact put_put out n [c] d ds [] (Nat.zero_le 1)
    · rw [heq] at hresult
      cases hresult

/-! ### The range of `out` -/

/-- The quoted text ends with its zero just behind `out`. -/
def OneTooLong (s : Bytes) (cap : ℕ) : Prop :=
  (quoteText s).length = cap ∧ endsSpecial s = true

theorem jquote_eq {s : Bytes} {cap : ℕ} (hcap : 3 ≤ cap) :
    jquote s cap = (quoteLoop cap 1 s).after (storeFrom 0 [34]) := if_neg (by omega)

/-- Zero is returned when there is room, and when the text is one byte too long in this way. -/
theorem jquote_result (s : Bytes) (cap : ℕ) :
    (jquote s cap).result = 0 ↔ (quoteText s).length < cap ∨ OneTooLong s cap := by
  rw [OneTooLong, length_quoteText]
  by_cases hcap : cap < 3
  · rw [jquote, if_pos hcap]
    constructor
    · intro h
      cases h
    · rintro (h | ⟨h, hspecial⟩)
      · omega
      · have hsix := length_quoted_special hspecial
        omega
  · rw [jquote_eq (by omega)]
    by_cases hs : s = []
    · subst hs
      exact ⟨fun _ => .inl (by change 2 < cap; omega), fun _ => rfl⟩
    · constructor
      · intro h
        exact (quoteLoop_end cap s 1 hs h).imp (by omega) fun h => ⟨by omega, h.2⟩
      · intro h
        exact quoteLoop_result cap s 1 (h.imp (by omega) fun h => ⟨by omega, h.2⟩)

/-- The text that is left in `out`. -/
theorem jquote_memory {s : Bytes} {cap : ℕ} (h : (jquote s cap).result = 0) (out : ℕ → UInt8) :
    storeAll (jquote s cap).stores out = put out 0 (quoteText s ++ [0]) := by
  by_cases hcap : cap < 3
  · rw [jquote, if_pos hcap] at h
    cases h
  · rw [jquote_eq (by omega)] at h ⊢
    change storeAll (storeFrom 0 [34] ++ (quoteLoop cap 1 s).stores) out = _
    rw [storeAll_append, storeAll_storeFrom, quoteLoop_memory cap s 1 _ h]
    obtain ⟨d, ds, hds⟩ : ∃ d ds, quoted s ++ [34, 0] = d :: ds :=
      List.exists_cons_of_ne_nil (by simp)
    have htext : quoteText s ++ [0] = [34] ++ d :: ds := by
      rw [← hds, quoteText]
      simp
    rw [htext, hds]
    exact put_put out 0 [34] d ds [] (Nat.zero_le 1)

/-- Every byte is stored inside of `out`, and a text that is returned is in there as a whole. -/
def Inside (s : Bytes) (cap : ℕ) : Prop :=
  (∀ w ∈ (jquote s cap).stores, w.1 < cap) ∧
    ((jquote s cap).result = 0 → (quoteText s ++ [0]).length ≤ cap ∧
      ∀ out i c, (quoteText s ++ [0])[i]? = some c → storeAll (jquote s cap).stores out i = c)

/-- The range is kept unless the quoted text, without its zero, is exactly as long as `out` and its
last character is not written as it is. -/
theorem jquote_inside_iff (s : Bytes) (cap : ℕ) : Inside s cap ↔ ¬OneTooLong s cap := by
  constructor
  · rintro ⟨-, hlength⟩ hlong
    obtain ⟨hend, -⟩ := hlength ((jquote_result s cap).mpr (.inr hlong))
    rw [List.length_append, hlong.1] at hend
    exact absurd hend (by simp)
  · intro hlong
    constructor
    · intro w hw
      by_cases hcap : cap < 3
      · rw [jquote, if_pos hcap] at hw
        cases hw
      · rw [jquote_eq (by omega)] at hw
        rcases List.mem_append.mp hw with hw | hw
        · have hfirst := mem_storeFrom hw
          rw [List.length_singleton] at hfirst
          omega
        · obtain h | ⟨hresult, hlast⟩ := quoteLoop_stores cap s 1 w hw
          · exact h
          · have hzero : (jquote s cap).result = 0 := by
              rw [jquote_eq (by omega)]
              exact hresult
            have hroom := ((jquote_result s cap).mp hzero).resolve_right hlong
            rw [length_quoteText] at hroom
            omega
    · intro hresult
      have hroom := ((jquote_result s cap).mp hresult).resolve_right hlong
      refine ⟨by rw [List.length_append]; exact hroom, fun out i c hc => ?_⟩
      rw [jquote_memory hresult, put, if_pos (Nat.zero_le i), Nat.sub_zero, hc]
      rfl

/-- A control character in a buffer of eight bytes: the zero goes to the ninth. -/
theorem jquote_outside :
    (jquote [1] 8).result = 0 ∧ (8, 0) ∈ (jquote [1] 8).stores ∧ ¬Inside [1] 8 := by
  have hstored : (8, 0) ∈ (jquote [1] 8).stores := by decide
  exact ⟨by decide, hstored, fun h => absurd (h.1 _ hstored) (by decide)⟩

/-! ### What is read back -/

/-- What `jstring` makes of a character that was quoted: a control character has become a question
mark. -/
def shown (c : UInt8) : UInt8 := if c < 32 then 63 else c

theorem special_cases {c : UInt8} (h : special c = true) : ∃ n < 93, c = .ofNat n := by
  refine ⟨c.toNat, ?_, (UInt8.ofNat_toNat).symm⟩
  simp only [special, Bool.or_eq_true, decide_eq_true_eq, beq_iff_eq, UInt8.lt_iff_toNat_lt] at h
  rcases h with (h | rfl) | rfl
  · change c.toNat < 32 at h
    omega
  · decide
  · decide

theorem unicode_back : ∀ n < 93, special (.ofNat n) = true →
    (isxdigit (hexDigit (.ofNat n / 16)) && isxdigit (hexDigit (.ofNat n % 16))) = true ∧
      charOfCode (hexValue [48, 48, hexDigit (.ofNat n / 16), hexDigit (.ofNat n % 16)]) =
        shown (.ofNat n) := by
  decide

theorem plain_iff {c : UInt8} : special c = false ↔ 32 ≤ c ∧ c ≠ 34 ∧ c ≠ 92 := by
  simp [special, UInt8.not_lt, and_assoc]

theorem isChars_quoted (s : Bytes) : IsChars (quoted s) := by
  induction s with
  | nil => exact .nil
  | cons c cs ih =>
    cases hc : special c with
    | true =>
      obtain ⟨n, hn, rfl⟩ := special_cases hc
      obtain ⟨hdigits, -⟩ := unicode_back n hn hc
      rw [Bool.and_eq_true] at hdigits
      rw [quoted_special hc]
      exact .unicode ⟨rfl, rfl, hdigits.1, hdigits.2⟩ ih
    | false =>
      rw [quoted_plain hc]
      exact .plain (plain_iff.mp hc) ih

theorem decode_quoted (s : Bytes) : decode (quoted s) = s.map shown := by
  induction s with
  | nil => rfl
  | cons c cs ih =>
    cases hc : special c with
    | true =>
      obtain ⟨n, hn, rfl⟩ := special_cases hc
      rw [quoted_special hc, List.map_cons, ← (unicode_back n hn hc).2, ← ih]
      exact decode_unicode _ _ _ _ (quoted cs)
    | false =>
      have hplain := plain_iff.mp hc
      rw [quoted_plain hc, decode_plain hplain.2.2, ih, List.map_cons, shown,
        if_neg (UInt8.not_lt.mpr hplain.1)]

/-- The quoted text is a JSON text of one value. -/
theorem jparse_quoteText (s : Bytes) :
    jparse (quoteText s) =
      some [{ start := cint 0, stop := cint (quoteText s).length, next := 1, kind := 34 }] := by
  have hscalar : IsScalar (quoteText s) := .inr (.inr ⟨quoted s, isChars_quoted s, rfl⟩)
  have hread := jparse_render
    { before := ⟨[], isBlank_nil⟩, value := .scalar ⟨quoteText s, hscalar⟩, after := ⟨[], isBlank_nil⟩ }
    (show 1 ≤ maxTokens by decide) (Nat.zero_le _)
  simp only [JsonText.render, JsonText.spans, Value.render, Value.spans, Value.count, Value.kind,
    List.nil_append, List.append_nil, List.map_cons, List.map_nil, Span.token, List.length_nil,
    Nat.zero_add] at hread
  exact hread

theorem IsChars.noZero {cs : Bytes} (h : IsChars cs) : 0 ∉ cs := by
  have hdigit : ∀ d, isxdigit d = true → d ≠ 0 := by
    rintro d hd rfl
    revert hd
    decide
  induction h with
  | nil => exact List.not_mem_nil
  | @plain c cs hc hcs ih =>
    have hne : c ≠ 0 := by
      rintro rfl
      exact absurd hc.1 (by decide)
    rw [List.mem_cons, not_or]
    exact ⟨hne.symm, ih⟩
  | @escape c cs hc hcs ih =>
    have hne : c ≠ 0 := by
      rintro rfl
      revert hc
      decide
    rw [List.mem_cons, List.mem_cons, not_or, not_or]
    exact ⟨by decide, hne.symm, ih⟩
  | @unicode h₁ h₂ h₃ h₄ cs hh hcs ih =>
    simp only [List.mem_cons, not_or]
    exact ⟨by decide, by decide, (hdigit _ hh.1).symm, (hdigit _ hh.2.1).symm,
      (hdigit _ hh.2.2.1).symm, (hdigit _ hh.2.2.2).symm, ih⟩

theorem quoteText_noZero (s : Bytes) : 0 ∉ quoteText s := by
  have hchars := (isChars_quoted s).noZero
  rw [quoteText, List.mem_cons, List.mem_append, List.mem_singleton, not_or, not_or]
  exact ⟨by decide, hchars, by decide⟩

/-- A string that is the whole text. -/
theorem jstring_of_start {cs s : Bytes} {cap : ℕ} (h : IsChars cs)
    (hs : s = [] ++ (34 :: (cs ++ [34]) ++ [])) (hsize : s.length < 2 ^ 31) (hcap : 0 < cap) :
    jstring s [{ start := cint 0, stop := cint s.length, next := 1, kind := 34 }] 0 cap =
      some (fitting cap (decode cs)) := by
  have hstart : cint 0 = 0 := by decide
  have hlength : s.length = cs.length + 2 := by
    rw [hs]
    simp
  rw [hstart, cint_of_lt hsize]
  refine jstring_eq h hs rfl rfl rfl ?_ hcap
  change (s.length : ℤ) = 0 + (cs.length + 2)
  omega

/-- A text for which there is room comes back as it was, with question marks for its control
characters. -/
theorem jstring_jquote {s : Bytes} {cap cap' : ℕ} (hroom : (quoteText s).length < cap)
    (hsize : cap ≤ 2 ^ 31) (hcap : s.length < cap') (out : ℕ → UInt8) :
    (jquote s cap).result = 0 ∧
    storeAll (jquote s cap).stores out = put out 0 (quoteText s ++ [0]) ∧ 0 ∉ quoteText s ∧
    ∃ tokens, jparse (quoteText s) = some tokens ∧
      jstring (quoteText s) tokens 0 cap' = some (some (s.map shown)) := by
  have hresult := (jquote_result s cap).mpr (.inl hroom)
  refine ⟨hresult, jquote_memory hresult out, quoteText_noZero s, _, jparse_quoteText s, ?_⟩
  have hsmall : (quoteText s).length < 2 ^ 31 := by omega
  have htext : quoteText s = [] ++ (34 :: (quoted s ++ [34]) ++ []) := by
    rw [quoteText, List.nil_append, List.append_nil]
  have hread := jstring_of_start (isChars_quoted s) htext hsmall (Nat.zero_lt_of_lt hcap)
  rw [hread, decode_quoted, fitting, if_pos (by rwa [List.length_map])]

/-- `a"` -/
theorem jstring_jquote_small :
    (jquote [97, 34] 16).result = 0 ∧
    storeAll (jquote [97, 34] 16).stores (fun _ => 0) =
      put (fun _ => 0) 0 (quoteText [97, 34] ++ [0]) ∧ 0 ∉ quoteText [97, 34] ∧
    ∃ tokens, jparse (quoteText [97, 34]) = some tokens ∧
      jstring (quoteText [97, 34]) tokens 0 3 = some (some ([97, 34].map shown)) :=
  jstring_jquote (by decide) (by decide) (by decide) _

/-- A line feed does not come back. -/
theorem jstring_jquote_control :
    (jquote [10] 16).result = 0 ∧ ∃ tokens, jparse (quoteText [10]) = some tokens ∧
      jstring (quoteText [10]) tokens 0 16 = some (some [63]) ∧
      jstring (quoteText [10]) tokens 0 16 ≠ some (some [10]) := by
  exact ⟨by decide, [{ start := 0, stop := 8, next := 1, kind := 34 }], by decide, by decide,
    by decide⟩

end ForgeOS.Native
