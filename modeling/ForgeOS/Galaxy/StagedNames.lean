import ForgeOS.Galaxy.CleanNames

/-! Which files an upload stages, and when their paths are all different. -/

namespace ForgeOS.Galaxy.Staging

open ForgeOS.Library.Labels

/-! ### What one upload stages -/

section Stage

variable (tools : Tools)

@[simp] theorem names_append (s t : Staged) : (s.append t).names = s.names ++ t.names :=
  List.map_append

theorem privateWrite_name {tools : Tools} {name : Units} {content : Content} {w : Write}
    (h : privateWrite tools name content = .ok w) : w.name = name := by
  unfold privateWrite at h
  cases hpath : safePath ⟨fun _ => [], fun _ => false⟩ "" (text name) with
  | error m => simp [hpath, bind, Except.bind] at h
  | ok file =>
    simp only [hpath, bind, Except.bind] at h
    split at h
    · cases h
    · cases h
      rfl

theorem extractDocument_names (name : Units) (content : Bytes) :
    (extractDocument tools name content).names = [] ∨
      (extractDocument tools name content).names = [extractedName name] := by
  unfold extractDocument
  split
  · exact .inl rfl
  · dsimp only
    split
    · exact .inl rfl
    · next w hw => exact .inr (by rw [Staged.names, List.map_singleton, privateWrite_name hw])

/-- A text is extracted, or nothing is. -/
theorem extract_plain {name : Units} (hname : isMail name = false) {content : Bytes} {st : Staged}
    (h : extractMaterial tools name content = .ok st) :
    st.names = [] ∨ st.names = [extractedName name] := by
  rw [extractMaterial] at h
  split at h
  · cases h
    exact extractDocument_names tools name content
  · rw [if_neg (by simp [hname])] at h
    cases h
    exact .inl rfl

theorem extract_mail {name : Units} (hname : isMail name = true) {content : Bytes} {st : Staged}
    (h : extractMaterial tools name content = .ok st) :
    ∃ mail rest, tools.readMail content = .ok mail ∧
      stageAttachments tools Subtype.val
        (fun itsName (a : { a // a ∈ mail.attachments }) =>
          extractMaterial tools itsName a.val.content) name 0 mail.attachments.attach = .ok rest ∧
      st.names = extractedName name :: rest.names := by
  rw [extractMaterial, if_neg (by simp [isDocument_of_isMail hname]), if_pos hname] at h
  split at h
  · cases h
  · next mail hmail =>
    simp only [bind, Except.bind] at h
    split at h
    · cases h
    · next w hw =>
      split at h
      · cases h
      · next rest hrest =>
        cases h
        refine ⟨mail, rest, hmail, hrest, ?_⟩
        rw [names_append, Staged.names, List.map_singleton, privateWrite_name hw]
        rfl

section Attachments

variable {tools} {σ : Type} {item : σ → Attachment} {extract : Units → σ → Except String Staged}
  {name : Units}

/-- The loop over the attachments: one that is not taken is left out, one that is taken is written
first and read then. -/
theorem stageAttachments_cons {i : ℕ} {a : σ} {as : List σ} {st : Staged}
    (h : stageAttachments tools item extract name i (a :: as) = .ok st) :
    ∃ rest, stageAttachments tools item extract name (i + 1) as = .ok rest ∧
      (taken (item a) = false ∧ st.names = rest.names ∨
        taken (item a) = true ∧ ∃ own,
          extract (attachmentName tools.wide name (i + 1) (item a).name) a = .ok own ∧
          st.names = attachmentName tools.wide name (i + 1) (item a).name ::
            (own.names ++ rest.names)) := by
  rw [stageAttachments] at h
  split at h
  · next hnot =>
    simp only [bind, Except.bind] at h
    split at h
    · cases h
    · next rest hrest =>
      cases h
      exact ⟨rest, hrest, .inl ⟨by simpa using hnot, by rw [names_append]; rfl⟩⟩
  · next htaken =>
    split at h
    · cases h
    · simp only [bind, Except.bind] at h
      split at h
      · cases h
      · next w hw =>
        split at h
        · cases h
        · next own hown =>
          split at h
          · cases h
          · next rest hrest =>
            cases h
            refine ⟨rest, hrest, .inr ⟨by simpa using htaken, own, hown, ?_⟩⟩
            rw [names_append, Staged.names, List.map_cons, privateWrite_name hw]
            rfl

theorem stageAttachments_mem {i j : ℕ} {as : List σ} {st : Staged} {a : σ}
    (h : stageAttachments tools item extract name i as = .ok st) (ha : as[j]? = some a)
    (htaken : taken (item a) = true) :
    attachmentName tools.wide name (i + j + 1) (item a).name ∈ st.names := by
  induction as generalizing i j st with
  | nil => simp at ha
  | cons b as ih =>
    obtain ⟨rest, hrest, hcases⟩ := stageAttachments_cons h
    cases j with
    | zero =>
      rw [List.getElem?_cons_zero, Option.some.injEq] at ha
      subst ha
      rcases hcases with ⟨hnot, -⟩ | ⟨-, own, -, hnames⟩
      · rw [htaken] at hnot
        cases hnot
      · rw [hnames]
        exact List.mem_cons_self
    | succ j =>
      have hmem := ih hrest ha
      rw [show i + 1 + j + 1 = i + (j + 1) + 1 by omega] at hmem
      rcases hcases with ⟨-, hnames⟩ | ⟨-, own, -, hnames⟩
      · rw [hnames]
        exact hmem
      · rw [hnames]
        exact List.mem_cons_of_mem _ (List.mem_append_right _ hmem)

/-- Where no attachment is staged as an e-mail, the attachments are staged under names of their own,
each with at most one text. -/
theorem stageAttachments_nodup
    (hextract : ∀ itsName a st, isMail itsName = false → extract itsName a = .ok st →
      st.names = [] ∨ st.names = [extractedName itsName])
    {i : ℕ} {as : List σ} {st : Staged}
    (h : stageAttachments tools item extract name i as = .ok st)
    (hmails : ∀ a ∈ as, taken (item a) = true →
      isMail (cleanFilename tools.wide (item a).name) = false) :
    st.names.Nodup ∧ ∀ x ∈ st.names, ∃ j a, as[j]? = some a ∧ taken (item a) = true ∧
      (x = attachmentName tools.wide name (i + j + 1) (item a).name ∨
        x = extractedName (attachmentName tools.wide name (i + j + 1) (item a).name)) := by
  induction as generalizing i st with
  | nil =>
    cases h
    exact ⟨List.nodup_nil, fun x hx => absurd hx List.not_mem_nil⟩
  | cons a as ih =>
    obtain ⟨rest, hrest, hcases⟩ := stageAttachments_cons h
    obtain ⟨hnodup, hnamed⟩ := ih hrest fun b hb => hmails b (List.mem_cons_of_mem _ hb)
    have hlater : ∀ x ∈ rest.names, ∃ j b, (a :: as)[j]? = some b ∧ taken (item b) = true ∧
        0 < j ∧ (x = attachmentName tools.wide name (i + j + 1) (item b).name ∨
          x = extractedName (attachmentName tools.wide name (i + j + 1) (item b).name)) := by
      intro x hx
      obtain ⟨j, b, hb, htaken, hxb⟩ := hnamed x hx
      rw [show i + 1 + j + 1 = i + (j + 1) + 1 by omega] at hxb
      exact ⟨j + 1, b, hb, htaken, Nat.succ_pos j, hxb⟩
    rcases hcases with ⟨hnot, hnames⟩ | ⟨htaken, own, hown, hnames⟩
    · rw [hnames]
      refine ⟨hnodup, fun x hx => ?_⟩
      obtain ⟨j, b, hb, htaken, -, hxb⟩ := hlater x hx
      exact ⟨j, b, hb, htaken, hxb⟩
    · have hplain : isMail (attachmentName tools.wide name (i + 1) (item a).name) = false := by
        rw [isMail_attachment]
        exact hmails a List.mem_cons_self htaken
      have hown := hextract _ _ _ hplain hown
      have hfirst : ∀ x ∈ attachmentName tools.wide name (i + 1) (item a).name :: own.names,
          x = attachmentName tools.wide name (i + 1) (item a).name ∨
            x = extractedName (attachmentName tools.wide name (i + 1) (item a).name) := by
        intro x hx
        rcases List.mem_cons.mp hx with rfl | hx
        · exact .inl rfl
        · rcases hown with hnil | hone
          · rw [hnil] at hx
            cases hx
          · rw [hone, List.mem_singleton] at hx
            exact .inr hx
      rw [hnames, ← List.cons_append]
      constructor
      · rw [List.nodup_append]
        refine ⟨?_, hnodup, ?_⟩
        · rw [List.nodup_cons]
          rcases hown with hnil | hone
          · rw [hnil]
            exact ⟨List.not_mem_nil, List.nodup_nil⟩
          · rw [hone, List.mem_singleton]
            exact ⟨(extractedName_ne _).symm, List.nodup_singleton _⟩
        · rintro x hx y hy rfl
          obtain ⟨j, b, -, -, hpos, hxb⟩ := hlater x hy
          have hnumber := attachmentLabel_apart name _ _ x
            (begins_attachmentLabel (hfirst x hx)) (begins_attachmentLabel hxb)
          omega
      · intro x hx
        rcases List.mem_append.mp hx with hx | hx
        · exact ⟨0, a, rfl, htaken, hfirst x hx⟩
        · obtain ⟨j, b, hb, htaken', -, hxb⟩ := hlater x hx
          exact ⟨j, b, hb, htaken', hxb⟩

end Attachments

variable {tools}

theorem getElem?_of_attach {α : Type*} {l : List α} {j : ℕ} {a : { a // a ∈ l }}
    (h : l.attach[j]? = some a) : l[j]? = some a.val := by
  calc
    l[j]? = (l.attach.map Subtype.val)[j]? := by rw [List.attach_map_subtype_val]
    _ = some a.val := by rw [List.getElem?_map, h, Option.map_some]

theorem extractedName_injective : Function.Injective extractedName :=
  fun _ _ h => List.append_cancel_right h

/-- Where no attachment of an e-mail is staged as an e-mail, its files have different names unless an
attachment takes the name of the text of the e-mail. -/
theorem mail_nodup {name : Units} {content : Bytes} {st : Staged} (hname : isMail name = true)
    (h : extractMaterial tools name content = .ok st)
    (hclear : ∀ mail, tools.readMail content = .ok mail → ∀ (k : ℕ) a,
      mail.attachments[k]? = some a → taken a = true →
        attachmentName tools.wide name (k + 1) a.name ≠ extractedName name)
    (hplain : ∀ mail, tools.readMail content = .ok mail → ∀ a ∈ mail.attachments,
      taken a = true → isMail (cleanFilename tools.wide a.name) = false) :
    (name :: st.names).Nodup ∧ ∀ x ∈ st.names, x = extractedName name ∨
      ∃ k a, x = attachmentName tools.wide name k a ∨
        x = extractedName (attachmentName tools.wide name k a) := by
  obtain ⟨mail, rest, hmail, hrest, hnames⟩ := extract_mail tools hname h
  obtain ⟨hnodup, hnamed⟩ := stageAttachments_nodup
    (fun itsName a st hits hst => extract_plain tools hits hst) hrest
    fun a _ htaken => hplain mail hmail a.val a.property htaken
  have hkind : ∀ a : { a // a ∈ mail.attachments }, taken a.val = true → ∀ k,
      isMail (attachmentName tools.wide name k a.val.name) = false := by
    intro a htaken k
    rw [isMail_attachment]
    exact hplain mail hmail a.val a.property htaken
  rw [hnames]
  constructor
  · rw [List.nodup_cons, List.nodup_cons, List.mem_cons, not_or]
    refine ⟨⟨(extractedName_ne name).symm, fun hmem => ?_⟩, fun hmem => ?_, hnodup⟩
    · -- an e-mail is no attachment and no text
      obtain ⟨j, a, ha, htaken, hx | hx⟩ := hnamed _ hmem
      · rw [hx, hkind a htaken] at hname
        cases hname
      · rw [hx, isMail_extracted] at hname
        cases hname
    · obtain ⟨j, a, ha, htaken, hx | hx⟩ := hnamed _ hmem
      · rw [Nat.zero_add] at hx
        exact hclear mail hmail j a.val (getElem?_of_attach ha) htaken hx.symm
      · rw [extractedName_injective hx, hkind a htaken] at hname
        cases hname
  · intro x hx
    rcases List.mem_cons.mp hx with rfl | hx
    · exact .inl rfl
    · obtain ⟨j, a, -, -, hx⟩ := hnamed x hx
      exact .inr ⟨0 + j + 1, a.val.name, hx⟩

/-- Files with different names: no attachment takes the name of the text of the e-mail. -/
theorem clear_of_nodup {name : Units} {content : Bytes} {st : Staged} (hname : isMail name = true)
    (h : extractMaterial tools name content = .ok st) (hnodup : (name :: st.names).Nodup) {mail : Mail}
    (hmail : tools.readMail content = .ok mail) {k : ℕ} {a : Attachment}
    (ha : mail.attachments[k]? = some a) (htaken : taken a = true) :
    attachmentName tools.wide name (k + 1) a.name ≠ extractedName name := by
  obtain ⟨mail', rest, hmail', hrest, hnames⟩ := extract_mail tools hname h
  rw [hmail, Except.ok.injEq] at hmail'
  subst hmail'
  intro heq
  rw [hnames, List.nodup_cons, List.nodup_cons] at hnodup
  have hmem : a ∈ mail.attachments := List.mem_of_getElem? ha
  have hattached : mail.attachments.attach[k]? = some ⟨a, hmem⟩ := by
    obtain ⟨hk, hget⟩ := List.getElem?_eq_some_iff.mp ha
    refine List.getElem?_eq_some_iff.mpr ⟨by simpa using hk, ?_⟩
    simp [hget]
  have hfound := stageAttachments_mem hrest hattached htaken
  rw [Nat.zero_add] at hfound
  exact hnodup.2.1 (heq ▸ hfound)

/-! ### What a list of uploads stages -/

/-- The e-mail that is staged for an upload under its name. -/
structure Holds (tools : Tools) (file : Upload) (name : Units) (mail : Mail) : Prop where
  named : file.name = some name
  saved : isMail (cleanFilename tools.wide name) = true
  read : ∃ data, file.data = some data ∧ tools.readMail (tools.decode data) = .ok mail

/-- The name is kept in its extension. -/
def Upload.Keeps (tools : Tools) (file : Upload) : Prop :=
  ∀ name, file.name = some name → KeepsExtension tools.wide name

/-- No attachment has a number and a name that make what the name of the e-mail has after its first
87 units, and then `.extracted.txt`. -/
def Upload.Unclaimed (tools : Tools) (file : Upload) : Prop :=
  ∀ name mail, Holds tools file name mail → ∀ (k : ℕ) a, mail.attachments[k]? = some a →
    taken a = true → units "-attachment-" ++ (digits (k + 1) ++ units "-") ++
      (cleanFilename tools.wide a.name).rtake 100 ≠
        (cleanFilename tools.wide name).drop 87 ++ units ".extracted.txt"

/-- No attachment has a name that ends in `.eml` when it is cleaned and cut. -/
def Upload.NoMailInside (tools : Tools) (file : Upload) : Prop :=
  ∀ name mail, Holds tools file name mail → ∀ a ∈ mail.attachments,
    taken a = true → isMail (cleanFilename tools.wide a.name) = false

/-- All paths are different, and each document is staged with the extension of its name. -/
structure Sound (tools : Tools) (files : List Upload) (stage : List Write) : Prop where
  distinct : (stage.map Write.name).Nodup
  extension : ∀ (i : ℕ) file name, files[i]? = some file → file.name = some name →
    originalName tools.wide i name ∈ stage.map Write.name ∧
      lower (extname (originalName tools.wide i name)) = lower (extname name)

theorem attachmentName_eq_extracted_iff {i : ℕ} (hi : i < 50) (name : Units) (k : ℕ)
    (attachment : Units) :
    attachmentName tools.wide (originalName tools.wide i name) k attachment =
        extractedName (originalName tools.wide i name) ↔
      units "-attachment-" ++ (digits k ++ units "-") ++
        (cleanFilename tools.wide attachment).rtake 100 =
          (cleanFilename tools.wide name).drop 87 ++ units ".extracted.txt" := by
  have hdrop : (originalName tools.wide i name).drop 90 = (cleanFilename tools.wide name).drop 87 := by
    rw [originalName, List.drop_append, label_length hi, List.drop_of_length_le
      (by rw [label_length hi]; omega), List.nil_append]
  have hsplit : extractedName (originalName tools.wide i name) =
      (originalName tools.wide i name).take 90 ++
        ((cleanFilename tools.wide name).drop 87 ++ units ".extracted.txt") := by
    rw [extractedName, ← hdrop, ← List.append_assoc, List.take_append_drop]
  rw [attachmentName, hsplit, List.append_assoc, List.append_cancel_left_eq]

/-- The names of what the upload at an index stages. -/
def groupNames (tools : Tools) (p : Upload × ℕ) : List Units :=
  match p.1.name, p.1.data with
  | some name, some data =>
    originalName tools.wide p.2 name ::
      match extractMaterial tools (originalName tools.wide p.2 name) (tools.decode data) with
      | .ok own => own.names
      | .error _ => []
  | _, _ => []

/-- The upload at an index is accepted and staged. -/
structure Accepted (tools : Tools) (p : Upload × ℕ) (name : Units) (data : Units) (own : Staged) :
    Prop where
  file : p.1 = ⟨some name, some data⟩
  visible : visible (text name) = true
  supported : supported name = true
  extract : extractMaterial tools (originalName tools.wide p.2 name) (tools.decode data) = .ok own

theorem Accepted.groupNames {p : Upload × ℕ} {name data : Units} {own : Staged}
    (h : Accepted tools p name data own) :
    groupNames tools p = originalName tools.wide p.2 name :: own.names := by
  simp [Staging.groupNames, h.file, h.extract]

theorem accept_ok {total : ℕ} {file : Upload} {name : Units} {content : Bytes}
    (h : accept tools total file = .ok (name, content)) :
    ∃ data, file = ⟨some name, some data⟩ ∧ visible (text name) = true ∧ supported name = true ∧
      content = tools.decode data := by
  obtain ⟨fileName, fileData⟩ := file
  unfold accept at h
  cases fileName with
  | none => cases h
  | some n =>
    dsimp only at h
    split at h
    · cases h
    · next hname =>
      cases fileData with
      | none => cases h
      | some data =>
        dsimp only at h
        split at h
        · cases h
        · split at h
          · cases h
          · split at h
            · cases h
            · cases h
              simp only [Bool.or_eq_true, not_or, Bool.not_eq_true', Bool.not_eq_false] at hname
              exact ⟨data, rfl, hname.1.2, hname.2, rfl⟩

theorem stageFiles_names {i total : ℕ} {files : List Upload} {st : Staged}
    (h : stageFiles tools i total files = .ok st) :
    st.names = (files.zipIdx i).flatMap (groupNames tools) ∧
      ∀ p ∈ files.zipIdx i, ∃ name data own, Accepted tools p name data own := by
  induction files generalizing i total st with
  | nil =>
    cases h
    exact ⟨rfl, fun p hp => absurd hp List.not_mem_nil⟩
  | cons file files ih =>
    rw [stageFiles] at h
    simp only [bind, Except.bind] at h
    split at h
    · cases h
    · next pair haccept =>
      obtain ⟨name, content⟩ := pair
      obtain ⟨data, hfile, hvisible, hsupported, rfl⟩ := accept_ok haccept
      dsimp only at h
      split at h
      · cases h
      · next w hw =>
        split at h
        · cases h
        · next own hown =>
          split at h
          · cases h
          · next rest hrest =>
            cases h
            obtain ⟨hnames, haccepted⟩ := ih hrest
            have hfirst : Accepted tools (file, i) name data own :=
              ⟨hfile, hvisible, hsupported, hown⟩
            constructor
            · rw [names_append, hnames, List.zipIdx_cons, List.flatMap_cons, hfirst.groupNames,
                Staged.names, List.map_cons, privateWrite_name hw]
              rfl
            · intro p hp
              rw [List.zipIdx_cons] at hp
              rcases List.mem_cons.mp hp with rfl | hp
              · exact ⟨name, data, own, hfirst⟩
              · exact haccepted p hp

theorem zipIdx_getElem? {files : List Upload} {p : Upload × ℕ} (h : p ∈ files.zipIdx) :
    files[p.2]? = some p.1 := by
  obtain ⟨file, i⟩ := p
  simpa [List.mem_zipIdx_iff_getElem?] using h

theorem stagePasted_names {email : Option Email} {st : Staged}
    (h : stagePasted tools email = .ok st) :
    st.names = [] ∨ st.names = [units "Pasted email.txt"] := by
  unfold stagePasted at h
  simp only [bind, Except.bind] at h
  split at h
  · cases h
  · split at h
    · cases h
      exact .inl rfl
    · split at h
      · cases h
      · split at h
        · cases h
        · next w hw =>
          cases h
          exact .inr (by rw [Staged.names, List.map_singleton, privateWrite_name hw])

/-- What stands in a stage: what the uploads stage, the pasted e-mail, the index. -/
theorem stageUploads_names {now : Units} {files : List Upload} {email : Option Email}
    {stage : List Write} (h : stageUploads tools now files email = .ok stage) :
    files.length ≤ 50 ∧ (∀ p ∈ files.zipIdx, ∃ name data own, Accepted tools p name data own) ∧
      ∃ pasted, (pasted = [] ∨ pasted = [units "Pasted email.txt"]) ∧
        stage.map Write.name =
          files.zipIdx.flatMap (groupNames tools) ++ (pasted ++ [units "SOURCE_INDEX.md"]) := by
  unfold stageUploads at h
  split at h
  · cases h
  · next hmany =>
    simp only [bind, Except.bind] at h
    split at h
    · cases h
    · split at h
      · cases h
      · split at h
        · cases h
        · next staged hstaged =>
          split at h
          · cases h
          · next pasted hpasted =>
            split at h
            · cases h
            · next index hindex =>
              cases h
              obtain ⟨hnames, haccepted⟩ := stageFiles_names hstaged
              refine ⟨by omega, haccepted, pasted.names, stagePasted_names hpasted, ?_⟩
              rw [← hnames, List.map_append, List.map_singleton, privateWrite_name hindex,
                ← List.append_assoc, ← names_append]
              rfl

/-- The files of an upload begin with its label, and differ under the conditions on its e-mail. -/
theorem groupNames_nodup {p : Upload × ℕ} {name data : Units} {own : Staged} (hi : p.2 < 50)
    (h : Accepted tools p name data own) (hunclaimed : p.1.Unclaimed tools)
    (hinside : p.1.NoMailInside tools) :
    (groupNames tools p).Nodup ∧ ∀ x ∈ groupNames tools p, label p.2 <+: x := by
  have hlabel := label_prefix_original tools.wide p.2 name
  have hextracted : label p.2 <+: extractedName (originalName tools.wide p.2 name) :=
    hlabel.trans (List.prefix_append _ _)
  rw [h.groupNames]
  cases hmail : isMail (originalName tools.wide p.2 name) with
  | false =>
    rcases extract_plain tools hmail h.extract with hnil | hone
    · rw [hnil]
      exact ⟨List.nodup_singleton _, by simpa using hlabel⟩
    · rw [hone]
      refine ⟨?_, by simpa using ⟨hlabel, hextracted⟩⟩
      simpa using (extractedName_ne (originalName tools.wide p.2 name)).symm
  | true =>
    have hclean := hmail
    rw [isMail_original] at hclean
    have hholds : ∀ mail, tools.readMail (tools.decode data) = .ok mail →
        Holds tools p.1 name mail := by
      intro mail hread
      rw [h.file]
      exact ⟨rfl, hclean, data, rfl, hread⟩
    obtain ⟨hnodup, hnamed⟩ := mail_nodup hmail h.extract
      (fun mail hread k a ha htaken heq =>
        hunclaimed name mail (hholds mail hread) k a ha htaken
          ((attachmentName_eq_extracted_iff hi name (k + 1) a.name).mp heq))
      fun mail hread => hinside name mail (hholds mail hread)
    refine ⟨hnodup, fun x hx => ?_⟩
    rcases List.mem_cons.mp hx with rfl | hx
    · exact hlabel
    · rcases hnamed x hx with rfl | ⟨k, attachment, hx⟩
      · exact hextracted
      · have hattachment := label_prefix_attachment hi hlabel tools.wide k attachment
        rcases hx with rfl | rfl
        · exact hattachment
        · exact hattachment.trans (List.prefix_append _ _)

/-- Different files: no attachment takes the name of the text of its e-mail. -/
theorem unclaimed_of_nodup {p : Upload × ℕ} {name data : Units} {own : Staged} (hi : p.2 < 50)
    (h : Accepted tools p name data own) (hnodup : (groupNames tools p).Nodup) :
    p.1.Unclaimed tools := by
  intro name' mail hholds k a ha htaken heq
  obtain ⟨hname, hmail, data', hdata, hread⟩ := hholds
  rw [h.file] at hname hdata
  cases hname
  cases hdata
  rw [h.groupNames] at hnodup
  rw [← isMail_original tools.wide p.2] at hmail
  exact clear_of_nodup hmail h.extract hnodup hread ha htaken
    ((attachmentName_eq_extracted_iff hi name (k + 1) a.name).mpr heq)

/-- In a list of uploads that is accepted, the staged paths are different and the documents keep their
extensions, if the names keep them, no attachment takes the name of the text of its e-mail, and none
is cut to the name of an e-mail. The first two of these are needed. -/
theorem stage_sound {now : Units} {files : List Upload} {email : Option Email} {stage : List Write}
    (h : stageUploads tools now files email = .ok stage) :
    ((∀ file ∈ files, file.Keeps tools ∧ file.Unclaimed tools ∧ file.NoMailInside tools) →
        Sound tools files stage) ∧
      (Sound tools files stage → ∀ file ∈ files, file.Keeps tools ∧ file.Unclaimed tools) := by
  obtain ⟨hfew, haccepted, pasted, hpasted, hnames⟩ := stageUploads_names h
  have hindex : ∀ p ∈ files.zipIdx, p.2 < 50 := by
    intro p hp
    obtain ⟨hlt, -⟩ := List.getElem?_eq_some_iff.mp (zipIdx_getElem? hp)
    omega
  have hextension : ∀ p ∈ files.zipIdx, ∀ name, p.1.name = some name →
      originalName tools.wide p.2 name ∈ groupNames tools p ∧
        (lower (extname (originalName tools.wide p.2 name)) = lower (extname name) ↔
          KeepsExtension tools.wide name) := by
    intro p hp name hname
    obtain ⟨name', data, own, hp'⟩ := haccepted p hp
    have heq : name' = name := by
      rw [hp'.file] at hname
      exact Option.some.inj hname
    subst heq
    rw [hp'.groupNames]
    exact ⟨List.mem_cons_self, extname_original_iff tools.wide p.2 hp'.visible hp'.supported⟩
  have hinFiles : ∀ p ∈ files.zipIdx, p.1 ∈ files := fun p hp =>
    List.mem_of_getElem? (zipIdx_getElem? hp)
  constructor
  · intro hall
    have hgroups : ∀ p ∈ files.zipIdx, (groupNames tools p).Nodup ∧
        ∀ x ∈ groupNames tools p, label p.2 <+: x := by
      intro p hp
      obtain ⟨name, data, own, hp'⟩ := haccepted p hp
      obtain ⟨-, hunclaimed, hinside⟩ := hall p.1 (hinFiles p hp)
      exact groupNames_nodup (hindex p hp) hp' hunclaimed hinside
    constructor
    · have hfiles : (files.zipIdx.flatMap (groupNames tools)).Nodup := by
        have hnumbers : (files.zipIdx.map Prod.snd).Nodup := by simp [List.nodup_range']
        rw [label_apart.nodup_flatMap_iff (fun p hp => (hgroups p hp).2) hnumbers]
        exact fun p hp => (hgroups p hp).1
      have hothers : (pasted ++ [units "SOURCE_INDEX.md"]).Nodup ∧
          ∀ x ∈ pasted ++ [units "SOURCE_INDEX.md"], ∀ i < 50, ¬label i <+: x := by
        rcases hpasted with rfl | rfl <;> decide
      rw [hnames, List.nodup_append]
      refine ⟨hfiles, hothers.1, ?_⟩
      rintro x hx y hy rfl
      obtain ⟨p, hp, hxp⟩ := List.mem_flatMap.mp hx
      exact hothers.2 x hy p.2 (hindex p hp) ((hgroups p hp).2 x hxp)
    · intro i file name hfile hname
      have hp : (file, i) ∈ files.zipIdx := List.mem_zipIdx_iff_getElem?.mpr hfile
      obtain ⟨hmem, hiff⟩ := hextension (file, i) hp name hname
      refine ⟨?_, hiff.mpr ((hall file (hinFiles _ hp)).1 name hname)⟩
      rw [hnames]
      exact List.mem_append_left _ (List.mem_flatMap.mpr ⟨(file, i), hp, hmem⟩)
  · intro hsound file hfile
    obtain ⟨i, hi⟩ := List.getElem?_of_mem hfile
    have hp : (file, i) ∈ files.zipIdx := List.mem_zipIdx_iff_getElem?.mpr hi
    obtain ⟨name, data, own, hp'⟩ := haccepted (file, i) hp
    have hdistinct := hsound.distinct
    rw [hnames, List.nodup_append] at hdistinct
    have hgroup := (List.nodup_flatMap.mp hdistinct.1).1 (file, i) hp
    refine ⟨fun name hname => ?_, unclaimed_of_nodup (hindex _ hp) hp' hgroup⟩
    exact (hextension (file, i) hp name hname).2.mp (hsound.extension i file name hi hname).2

end Stage

/-- `visible` by the characters of the name. -/
theorem visible_ofList (cs : List Char) :
    visible (String.ofList cs) = (!(['.'].isPrefixOf cs) && !excluded.any (·.toList == cs) &&
      !credentialNames.any (fun w => w.toList == cs.map Char.toLower ||
        (w.toList ++ ['.']).isPrefixOf (cs.map Char.toLower)) &&
      !keySuffixes.any fun w => w.toList.isSuffixOf (cs.map Char.toLower)) := by
  have hexcluded : excluded.contains (String.ofList cs) = excluded.any (·.toList == cs) := by
    rw [Bool.eq_iff_iff, List.contains_iff_mem, List.any_eq_true]
    constructor
    · intro h
      exact ⟨_, h, by simp⟩
    · rintro ⟨w, hw, heq⟩
      rw [beq_iff_eq] at heq
      rwa [← heq, String.ofList_toList]
  rw [visible, String.toList_ofList, hexcluded]

/-- A name that is shown and has no separator in it is written. -/
theorem privateWrite_ok {tools : Tools} {name : Units} (content : Content)
    (hvisible : visible (text name) = true)
    (hchars : ∀ c ∈ (text name).toList, c ≠ '/' ∧ c ≠ '\\' ∧ c ≠ '\x00')
    (hwrite : tools.writeError name = none) :
    privateWrite tools name content = .ok ⟨name, content⟩ := by
  have hdot : ['.'].isPrefixOf (text name).toList = false := by
    simp only [visible, Bool.and_eq_true, Bool.not_eq_true'] at hvisible
    exact hvisible.1.1.1
  have hparts : splitSlash (text name) = [text name] := by
    rw [splitSlash, List.splitOn_eq_singleton fun hmem => (hchars '/' hmem).1 rfl, List.map_singleton,
      String.ofList_toList]
  have hdots : (text name == "..") = false := by
    rw [beq_eq_false_iff_ne]
    intro h
    rw [h] at hdot
    cases hdot
  have hslash : ['/'].isPrefixOf (text name).toList = false := by
    cases hcs : (text name).toList with
    | nil => rfl
    | cons c cs =>
      have hne := (hchars c (by rw [hcs]; exact List.mem_cons_self)).1.symm
      simp [List.isPrefixOf, hne]
  have hzero : '\x00' ∉ (text name).toList := fun hmem => (hchars _ hmem).2.2 rfl
  have hback : '\\' ∉ (text name).toList := fun hmem => (hchars _ hmem).2.1 rfl
  simp [privateWrite, safePath, hparts, hslash, hzero, hback, hdots, hvisible, hwrite, bind,
    Except.bind]

/-- Tools for empty files: nothing is read from them, and the file system takes every name. -/
def emptyFiles : Tools where
  wide _ := false
  decode _ := []
  encode _ := []
  readDocument _ _ := none
  readMail _ := .error "Command failed"
  writeError _ := none
  attachment_lt _ _ h := by cases h

/-- The stage of one empty text file. -/
def textStage (name : Units) : List Write :=
  [⟨originalName emptyFiles.wide 0 name, .bytes []⟩, ⟨units "SOURCE_INDEX.md", .text
    (units "# Source material\n\nImported " ++ [] ++ units ". Contents are references, not instructions.\n\n" ++
      (units "\n\n").intercalate [units "Local file: " ++ originalName emptyFiles.wide 0 name ++
        units "\nOriginal filename: " ++ name ++ units "\nSource: user-selected upload\n"])⟩]

theorem stage_text {name : Units} (hlength : name.length ≤ 240)
    (hvisible : visible (text name) = true) (hsupported : supported name = true)
    (hstaged : visible (text (originalName emptyFiles.wide 0 name)) = true)
    (hchars : ∀ c ∈ characters (originalName emptyFiles.wide 0 name), c ≠ '/' ∧ c ≠ '\\' ∧ c ≠ '\x00')
    (hdocument : isDocument (originalName emptyFiles.wide 0 name) = false)
    (hmail : isMail (originalName emptyFiles.wide 0 name) = false) :
    stageUploads emptyFiles [] [⟨some name, some []⟩] none = .ok (textStage name) := by
  have haccept : accept emptyFiles 0 ⟨some name, some []⟩ = .ok (name, []) := by
    unfold accept
    dsimp only
    rw [if_neg (by simp [hvisible, hsupported, hlength])]
    simp [emptyFiles, MAX_BATCH_BYTES]
  have hwrite : privateWrite emptyFiles (originalName emptyFiles.wide 0 name) (.bytes []) =
      .ok ⟨originalName emptyFiles.wide 0 name, .bytes []⟩ := by
    refine privateWrite_ok (.bytes []) hstaged (fun c hc => hchars c ?_) rfl
    simpa [text] using hc
  have hextract : extractMaterial emptyFiles (originalName emptyFiles.wide 0 name) [] =
      .ok ⟨[], []⟩ := by
    rw [extractMaterial, if_neg (by simp [hdocument]), if_neg (by simp [hmail])]
  simp only [stageUploads, stageFiles, haccept, hwrite, hextract, bind, Except.bind]
  rfl

theorem notes_sound : Sound emptyFiles [⟨some (units "notes.txt"), some []⟩]
    (textStage (units "notes.txt")) := by
  have hstage : stageUploads emptyFiles [] [⟨some (units "notes.txt"), some []⟩] none =
      .ok (textStage (units "notes.txt")) := by
    have hchars : (characters (originalName emptyFiles.wide 0 (units "notes.txt"))).all
        (fun c => c ≠ '/' ∧ c ≠ '\\' ∧ c ≠ '\x00') = true := by rfl
    exact stage_text (by decide) (by decide) (by decide) (by decide) (by simpa using hchars)
      (by decide) (by decide)
  apply (stage_sound hstage).1
  intro file hfile
  rw [List.mem_singleton] at hfile
  subst hfile
  have hnone : ∀ name mail, ¬Holds emptyFiles ⟨some (units "notes.txt"), some []⟩ name mail := by
    intro name mail h
    obtain ⟨data, -, hread⟩ := h.read
    cases hread
  refine ⟨fun name hname => ?_, fun name mail h => absurd h (hnone name mail),
    fun name mail h => absurd h (hnone name mail)⟩
  cases hname
  rw [KeepsExtension, if_pos (by decide)]
  decide

/-- A text file whose name has 181 units. -/
def longName : Units := List.replicate 177 'a'.toNat ++ units ".txt"

set_option maxRecDepth 4000 in
/-- Its name is cut in the extension. -/
theorem long_name_loses_extension :
    stageUploads emptyFiles [] [⟨some longName, some []⟩] none = .ok (textStage longName) ∧
      ¬Sound emptyFiles [⟨some longName, some []⟩] (textStage longName) := by
  constructor
  · apply stage_text
    · decide
    · rw [text, visible_ofList]
      rfl
    · rfl
    · rw [text, visible_ofList]
      rfl
    · have hchars : (characters (originalName emptyFiles.wide 0 longName)).all
          (fun c => c ≠ '/' ∧ c ≠ '\\' ∧ c ≠ '\x00') = true := by rfl
      simpa using hchars
    · rfl
    · rfl
  · intro h
    have hkept := (h.extension 0 _ longName rfl rfl).2
    exact absurd hkept (by decide)

end ForgeOS.Galaxy.Staging
