import ForgeOS.Image.Downloader

/-! What the downloader can do to a session for every reply. A walk through folders ends where the
names alone say, so a path is written inside `os-source` exactly when its directory part leads
there. The host of the preferred asset, a name that leads elsewhere, and what lies at a path
already are the three ways in which a search can go wrong. -/

namespace ForgeOS.Image

open ForgeOS.Python ForgeOS.Library.Words

/-! ### Walks -/

def stepTo (here : Location) (name : String) : Location :=
  if name = ".." then here.dropLast else here ++ [name]

/-- Where the names lead. -/
def normalize (here : Location) (names : List String) : Location := names.foldl stepTo here

/-- A walk behind another one. -/
theorem walk_append (items : Items) (here : Location) (names names' : List String) :
    walk items here (names ++ names') =
      (walk items here names).bind fun there => walk items there names' := by
  induction names generalizing here with
  | nil => rfl
  | cons name names ih =>
    rw [List.cons_append, walk, walk]
    split_ifs
    · exact ih _
    · exact ih _
    · rfl

theorem walk_normalize {items : Items} {here there : Location} {names : List String}
    (h : walk items here names = some there) : there = normalize here names := by
  induction names generalizing here with
  | nil => exact (Option.some.inj h).symm
  | cons name names ih =>
    rw [walk] at h
    by_cases hfolder : items here = some .folder
    · rw [if_pos hfolder] at h
      exact ih h
    · rw [if_neg hfolder] at h
      cases h

/-- More folders do not stop a walk. -/
theorem walk_mono {items items' : Items}
    (hmono : ∀ here, items here = some .folder → items' here = some .folder) {here there : Location}
    {names : List String} (h : walk items here names = some there) :
    walk items' here names = some there := by
  induction names generalizing here with
  | nil => exact h
  | cons name names ih =>
    rw [walk] at h ⊢
    by_cases hfolder : items here = some .folder
    · rw [if_pos hfolder] at h
      rw [if_pos (hmono here hfolder)]
      exact ih h
    · rw [if_neg hfolder] at h
      cases h

/-- Everything above a location is a folder. -/
def FoldersAbove (items : Items) (here : Location) : Prop :=
  ∀ above, above <+: here → above ≠ here → items above = some .folder

theorem FoldersAbove.step {items : Items} {here : Location} (h : FoldersAbove items here)
    (hfolder : items here = some .folder) (name : String) :
    FoldersAbove items (stepTo here name) := by
  intro above hpre hne
  unfold stepTo at hpre hne
  split_ifs at hpre hne
  · have hhere : above <+: here := hpre.trans (List.dropLast_prefix here)
    by_cases heq : above = here
    · rw [heq]
      exact hfolder
    · exact h above hhere heq
  · rcases List.prefix_concat_iff.mp hpre with heq | hhere
    · exact absurd heq hne
    · by_cases heq : above = here
      · rw [heq]
        exact hfolder
      · exact h above hhere heq

theorem walk_foldersAbove {items : Items} {here there : Location} {names : List String}
    (habove : FoldersAbove items here) (h : walk items here names = some there) :
    FoldersAbove items there := by
  induction names generalizing here with
  | nil =>
    rw [← Option.some.inj h]
    exact habove
  | cons name names ih =>
    rw [walk] at h
    by_cases hfolder : items here = some .folder
    · rw [if_pos hfolder] at h
      exact ih (habove.step hfolder name) h
    · rw [if_neg hfolder] at h
      cases h

theorem foldersAbove_root (items : Items) : FoldersAbove items [] := by
  intro above hpre hne
  exact absurd (List.prefix_nil.mp hpre) hne

/-- The last name of a path is looked up in the folder that the others lead to. -/
theorem resolve_concat {items : Items} {front : List String} {name : String} {there : Location}
    (h : resolve items (front ++ [name]) = some there) :
    items (normalize [] front) = some .folder ∧ there = stepTo (normalize [] front) name ∧
      FoldersAbove items (normalize [] front) := by
  rw [resolve, walk_append] at h
  obtain ⟨mid, hmid, hlast⟩ := Option.bind_eq_some_iff.mp h
  have hwhere := walk_normalize hmid
  have habove := walk_foldersAbove (foldersAbove_root items) hmid
  rw [hwhere] at hlast habove
  rw [walk] at hlast
  by_cases hfolder : items (normalize [] front) = some .folder
  · rw [if_pos hfolder] at hlast
    exact ⟨hfolder, (Option.some.inj hlast).symm, habove⟩
  · rw [if_neg hfolder] at hlast
    cases hlast

/-- `..` leads to a folder. -/
theorem resolve_dots {items : Items} {front : List String} {there : Location}
    (h : resolve items (front ++ [".."]) = some there) : items there = some .folder := by
  obtain ⟨hfolder, hthere, habove⟩ := resolve_concat h
  rw [hthere, stepTo, if_pos rfl]
  by_cases heq : (normalize [] front).dropLast = normalize [] front
  · rw [heq]
    exact hfolder
  · exact habove _ (List.dropLast_prefix _) heq

/-! ### Paths into a directory -/

def IsChild (dest here : Location) : Prop := ∃ name, here = dest ++ [name]

/-- The directory part of the path leads to the directory. -/
def Inside (dest : Location) (path : List String) : Prop :=
  path ≠ [] ∧ normalize [] path.dropLast = dest

theorem isChild_concat {dest here : Location} {name : String} :
    IsChild dest (here ++ [name]) ↔ here = dest := by
  constructor
  · rintro ⟨name', h⟩
    exact (List.append_inj' h rfl).1
  · rintro rfl
    exact ⟨name, rfl⟩

theorem inside_concat {dest : Location} {front : List String} {name : String} :
    Inside dest (front ++ [name]) ↔ normalize [] front = dest := by
  rw [Inside, List.dropLast_concat]
  exact and_iff_right (List.append_ne_nil_of_right_ne_nil front (List.cons_ne_nil name []))

theorem withoutSuffix_part_ne (name : String) : withoutSuffix name ++ ".part" ≠ ".." := by
  intro h
  have hlength := congrArg String.length h
  rw [String.length_append] at hlength
  have hfive : ".part".length = 5 := by decide
  have htwo : "..".length = 2 := by decide
  omega

/-- The `.part` file of a path is a child of the directory exactly when the path leads into it. -/
theorem part_isChild {items : Items} {path part : List String} {dest here : Location}
    (hpart : partPath path = some part) (h : resolve items part = some here) :
    IsChild dest here ↔ Inside dest path := by
  obtain ⟨name, hname, rfl⟩ := Option.map_eq_some_iff.mp hpart
  obtain ⟨front, rfl⟩ := List.getLast?_eq_some_iff.mp hname
  rw [List.dropLast_concat] at h
  obtain ⟨-, hhere, -⟩ := resolve_concat h
  rw [hhere, stepTo, if_neg (withoutSuffix_part_ne name), isChild_concat, inside_concat]

/-- So is what lies at the path, unless it is a folder. -/
theorem item_isChild {items : Items} {path : List String} {dest here : Location}
    (h : resolve items path = some here) (hitem : items here ≠ some .folder) :
    IsChild dest here ↔ Inside dest path := by
  rcases List.eq_nil_or_concat' path with rfl | ⟨front, name, rfl⟩
  · cases h
    constructor
    · rintro ⟨name, hname⟩
      exact absurd hname.symm (List.append_ne_nil_of_right_ne_nil dest (List.cons_ne_nil name []))
    · exact fun hinside => absurd rfl hinside.1
  · by_cases hdots : name = ".."
    · rw [hdots] at h
      exact absurd (resolve_dots h) hitem
    · obtain ⟨-, hhere, -⟩ := resolve_concat h
      rw [hhere, stepTo, if_neg hdots, isChild_concat, inside_concat]

/-! ### One download -/

variable (x : Texts) (dest : Location)

/-- Image data came from trusted hosts, and what was written lies in the directory. -/
structure LogSafe (w : World) : Prop where
  trusted : ∀ url ∈ w.fetched, isTrustedHost x url = some true
  inside : ∀ here ∈ w.wrote, IsChild dest here

/-- A file of the directory that passed its size check is at the path. -/
def Staged (w : World) (path : List String) : Prop :=
  ∃ here, resolve w.items path = some here ∧ IsChild dest here ∧ w.items here = some (.file true)

structure AttemptSafe (r : World × Attempt) : Prop where
  log : LogSafe x dest r.1
  staged : ∀ path, r.2 = .staged path → Staged dest r.1 path

/-- What a download needs: a trusted host, if it is not known already, once there is an answer; and
a path into the directory, once a file is opened. -/
structure HarmlessDownload (net : Net) (checked : Bool) (t : Target) (path : List String)
    (w : World) : Prop where
  trusted : ∀ opens ending, net.transfer w.fetched t.url = .answered opens ending →
    checked = false → isTrustedHost x t.url = some true
  inside : ∀ ending, net.transfer w.fetched t.url = .answered true ending →
    ((partPath path).bind (writable w.items)).isSome → Inside dest path

variable {x dest}

theorem writable_eq_some {items : Items} {path : List String} {here : Location} :
    writable items path = some here ↔
      resolve items path = some here ∧ items here ≠ some .folder := by
  rw [writable, Option.filter_eq_some_iff, decide_eq_true_eq]

/-- Writing a file in place of no folder leaves all folders. -/
theorem folders_update {items : Items} {here : Location} (hhere : items here ≠ some .folder)
    (item : Option Item) :
    ∀ there, items there = some .folder → Function.update items here item there = some .folder := by
  intro there hthere
  by_cases heq : there = here
  · rw [heq] at hthere
    exact absurd hthere hhere
  · rw [Function.update_of_ne heq]
    exact hthere

theorem LogSafe.write {w : World} (h : LogSafe x dest w) {here : Location} (hhere : IsChild dest here)
    (passed : Bool) : LogSafe x dest (w.write here passed) where
  trusted := h.trusted
  inside := by
    intro there hthere
    rcases List.mem_append.mp hthere with hthere | hthere
    · exact h.inside there hthere
    · rw [List.mem_singleton.mp hthere]
      exact hhere

/-- A file moved to its place is found there. -/
theorem staged_move {w : World} {path : List String} {part here : Location}
    (hpart : w.items part ≠ some .folder) (hresolve : resolve w.items path = some here)
    (hfile : w.items here ≠ some .folder) (hchild : IsChild dest here) :
    Staged dest ((w.remove part).write here true) path := by
  have hremoved : (w.remove part).items here ≠ some .folder := by
    by_cases heq : here = part
    · rw [heq]
      change Function.update w.items part none part ≠ _
      rw [Function.update_self]
      exact fun h => by cases h
    · change Function.update w.items part none here ≠ _
      rw [Function.update_of_ne heq]
      exact hfile
  refine ⟨here, ?_, hchild, Function.update_self ..⟩
  have hkept : ∀ there, w.items there = some .folder →
      ((w.remove part).write here true).items there = some .folder := fun there hthere =>
    folders_update hremoved _ there (folders_update hpart none there hthere)
  exact walk_mono hkept hresolve

/-- Behind the opened file, a download that leads into the directory stays safe. -/
theorem finishDownload_safe {t : Target} {path : List String} {part : Location} {w : World}
    {ending : Ending} (hlog : LogSafe x dest w) (hpart : w.items part ≠ some .folder)
    (hinside : Inside dest path) :
    LogSafe x dest (finishDownload t path part w ending).1 ∧
      ((finishDownload t path part w ending).2 = true →
        Staged dest (finishDownload t path part w ending).1 path) := by
  cases ending with
  | broken => exact ⟨hlog, fun h => by cases h⟩
  | complete written moves =>
    simp only [finishDownload]
    by_cases hsmall : written < t.minBytes
    · rw [if_pos hsmall]
      exact ⟨⟨hlog.trusted, hlog.inside⟩, fun h => by cases h⟩
    · rw [if_neg hsmall]
      cases hwritable : writable w.items path with
      | none => exact ⟨hlog, fun h => by cases h⟩
      | some here =>
        obtain ⟨hresolve, hfile⟩ := writable_eq_some.mp hwritable
        have hchild : IsChild dest here := (item_isChild hresolve hfile).mpr hinside
        cases moves with
        | false => exact ⟨hlog, fun h => by cases h⟩
        | true =>
          have hremoved : LogSafe x dest (w.remove part) := ⟨hlog.trusted, hlog.inside⟩
          exact ⟨hremoved.write hchild true, fun _ => staged_move hpart hresolve hfile hchild⟩

/-- The log only grows. -/
structure Grows (w w' : World) : Prop where
  fetched : w.fetched ⊆ w'.fetched
  wrote : w.wrote ⊆ w'.wrote

theorem Grows.refl (w : World) : Grows w w := ⟨List.Subset.refl _, List.Subset.refl _⟩

theorem Grows.trans {w w' w'' : World} (h : Grows w w') (h' : Grows w' w'') : Grows w w'' :=
  ⟨fun _ hx => h'.fetched (h.fetched hx), fun _ hx => h'.wrote (h.wrote hx)⟩

theorem Grows.logSafe {w w' : World} (h : Grows w w') (hlog : LogSafe x dest w') : LogSafe x dest w :=
  ⟨fun url hurl => hlog.trusted url (h.fetched hurl),
    fun here hhere => hlog.inside here (h.wrote hhere)⟩

theorem finishDownload_grows (t : Target) (path : List String) (part : Location) (w : World)
    (ending : Ending) : Grows w (finishDownload t path part w ending).1 := by
  cases ending with
  | broken => exact Grows.refl w
  | complete written moves =>
    simp only [finishDownload]
    by_cases hsmall : written < t.minBytes
    · rw [if_pos hsmall]
      exact ⟨List.Subset.refl _, List.Subset.refl _⟩
    · rw [if_neg hsmall]
      cases writable w.items path with
      | none => exact Grows.refl w
      | some here =>
        cases moves with
        | false => exact Grows.refl w
        | true => exact ⟨List.Subset.refl _, List.subset_append_left _ _⟩

variable {net : Net} {t : Target} {path : List String} {w : World}

theorem download_grows : Grows w (download net t path w).1 := by
  unfold download
  cases net.transfer w.fetched t.url with
  | refused => exact Grows.refl w
  | answered opens ending =>
    have hanswer : Grows w { w with fetched := w.fetched ++ [t.url] } :=
      ⟨List.subset_append_left _ _, List.Subset.refl _⟩
    dsimp only
    cases (partPath path).bind (writable w.items) with
    | none => exact hanswer
    | some part =>
      cases opens with
      | false => exact hanswer
      | true =>
        have hwrite : Grows { w with fetched := w.fetched ++ [t.url] }
            (World.write { w with fetched := w.fetched ++ [t.url] } part false) :=
          ⟨List.Subset.refl _, List.subset_append_left _ _⟩
        exact (hanswer.trans hwrite).trans (finishDownload_grows t path part _ ending)

theorem attemptSafe_download : AttemptSafe x dest (attemptDownload net t path w) ↔
    LogSafe x dest (download net t path w).1 ∧
      ((download net t path w).2 = true → Staged dest (download net t path w).1 path) := by
  constructor
  · intro h
    refine ⟨h.log, fun hdone => h.staged path ?_⟩
    rw [attemptDownload, if_pos hdone]
  · rintro ⟨hlog, hstaged⟩
    refine ⟨hlog, fun path' hpath => ?_⟩
    by_cases hdone : (download net t path w).2 = true
    · rw [attemptDownload, if_pos hdone] at hpath
      cases hpath
      exact hstaged hdone
    · rw [attemptDownload, if_neg hdone] at hpath
      cases hpath

theorem logSafe_answer (hlog : LogSafe x dest w) :
    LogSafe x dest { w with fetched := w.fetched ++ [t.url] } ↔
      isTrustedHost x t.url = some true := by
  constructor
  · intro h
    exact h.trusted t.url (List.mem_append_right _ (List.mem_singleton.mpr rfl))
  · intro htrusted
    refine ⟨fun url hurl => ?_, hlog.inside⟩
    rcases List.mem_append.mp hurl with hurl | hurl
    · exact hlog.trusted url hurl
    · rw [List.mem_singleton.mp hurl]
      exact htrusted

theorem download_fetched {opens : Bool} {ending : Ending}
    (h : net.transfer w.fetched t.url = .answered opens ending) :
    w.fetched ++ [t.url] ⊆ (download net t path w).1.fetched := by
  simp only [download, h]
  cases (partPath path).bind (writable w.items) with
  | none => exact List.Subset.refl _
  | some part =>
    cases opens with
    | false => exact List.Subset.refl _
    | true =>
      exact (finishDownload_grows t path part
        (World.write { w with fetched := w.fetched ++ [t.url] } part false) ending).fetched

theorem download_wrote {ending : Ending} (h : net.transfer w.fetched t.url = .answered true ending)
    {part : Location} (hpart : (partPath path).bind (writable w.items) = some part) :
    part ∈ (download net t path w).1.wrote := by
  simp only [download, h, hpart]
  refine (finishDownload_grows t path part _ ending).wrote ?_
  exact List.mem_append_right _ (List.mem_singleton.mpr rfl)

/-- A download is safe exactly when it is harmless. -/
theorem attemptDownload_safe_iff {checked : Bool} (hlog : LogSafe x dest w)
    (hchecked : checked = true → isTrustedHost x t.url = some true) :
    AttemptSafe x dest (attemptDownload net t path w) ↔
      HarmlessDownload x dest net checked t path w := by
  rw [attemptSafe_download]
  constructor
  · rintro ⟨hsafe, -⟩
    constructor
    · intro opens ending htransfer _
      refine hsafe.trusted t.url (download_fetched htransfer ?_)
      exact List.mem_append_right _ (List.mem_singleton.mpr rfl)
    · intro ending htransfer hopened
      obtain ⟨part, hpart⟩ := Option.isSome_iff_exists.mp hopened
      obtain ⟨names, hnames, hwritable⟩ := Option.bind_eq_some_iff.mp hpart
      refine (part_isChild hnames (writable_eq_some.mp hwritable).1).mp ?_
      exact hsafe.inside part (download_wrote htransfer hpart)
  · intro hharmless
    unfold download
    cases htransfer : net.transfer w.fetched t.url with
    | refused => exact ⟨hlog, fun h => by cases h⟩
    | answered opens ending =>
      have htrusted : isTrustedHost x t.url = some true := by
        cases checked with
        | false => exact hharmless.trusted opens ending htransfer rfl
        | true => exact hchecked rfl
      have hanswer := (logSafe_answer (t := t) hlog).mpr htrusted
      dsimp only
      cases hpart : (partPath path).bind (writable w.items) with
      | none => exact ⟨hanswer, fun h => by cases h⟩
      | some part =>
        cases opens with
        | false => exact ⟨hanswer, fun h => by cases h⟩
        | true =>
          have hinside : Inside dest path := hharmless.inside ending htransfer (by rw [hpart]; rfl)
          obtain ⟨names, hnames, hwritable⟩ := Option.bind_eq_some_iff.mp hpart
          have hchild : IsChild dest part :=
            (part_isChild hnames (writable_eq_some.mp hwritable).1).mpr hinside
          refine finishDownload_safe (hanswer.write hchild false) ?_ hinside
          change Function.update w.items part (some (.file false)) part ≠ _
          rw [Function.update_self]
          exact fun h => by cases h

/-! ### Names -/

theorem normalize_plain {names : List String} (h : ".." ∉ names) (here : Location) :
    normalize here names = here ++ names := by
  induction names generalizing here with
  | nil => exact (List.append_nil here).symm
  | cons name names ih =>
    rw [List.mem_cons, not_or] at h
    rw [normalize, List.foldl_cons, stepTo, if_neg (Ne.symm h.1), List.append_cons here name names]
    exact ih h.2 _

theorem osSource_plain (sessionDir : SessionDir) : ".." ∉ osSource sessionDir := by
  rw [osSource, List.mem_append, not_or]
  refine ⟨fun h => ?_, by decide⟩
  obtain ⟨name, -, hname⟩ := List.mem_map.mp h
  exact name.property.2.2.1 hname

/-- A plain file name leads into the directory. -/
theorem inside_fileName (sessionDir : SessionDir) {name : String} (h : IsFileName name) :
    Inside (osSource sessionDir) (targetPath (osSource sessionDir) name) := by
  obtain ⟨hne, hdot, -, hslash⟩ := h
  have hne' : name.toList ≠ [] := fun hs => hne (String.toList_inj.mp hs)
  have hdot' : name.toList ≠ ['.'] := fun hs => hdot (String.toList_inj.mp hs)
  have hclean : Clean (· == '/') name.toList := by
    intro c hc
    rcases eq_or_ne c '/' with rfl | hc'
    · exact absurd hc hslash
    · simpa using hc'
  have hparts : parts name = [name.toList] := by
    rw [parts, words_clean _ hclean hne', List.filter_singleton, decide_eq_true hdot', cond_true]
  have hroot : root name.toList = [] := by
    cases hcs : name.toList with
    | nil => rfl
    | cons c cs =>
      have hc : c ≠ '/' := fun hc => hslash (by rw [hcs, hc]; exact List.mem_cons_self)
      simp [root, hc]
  rw [targetPath, if_pos hroot, hparts, List.map_singleton, inside_concat,
    normalize_plain (osSource_plain sessionDir)]
  rfl

/-- So does the last segment of a URL, unless it is a dot or two. -/
theorem inside_lastSegment (sessionDir : SessionDir) {url : String} (hempty : lastSegment url ≠ "")
    (hdot : lastSegment url ≠ ".") (hdots : lastSegment url ≠ "..") :
    Inside (osSource sessionDir) (targetPath (osSource sessionDir) (lastSegment url)) :=
  inside_fileName sessionDir ⟨hempty, hdot, hdots, lastSegment_clean url⟩

/-! ### A search -/

/-- What a source needs with its target: a file that it takes as it is lies in the directory and
passed its size check, and otherwise its download is harmless. -/
structure HarmlessTarget (x : Texts) (net : Net) (dest : Location) (s : Source x) (t : Target)
    (w : World) : Prop where
  reused : s.reuses = true → net.lookupFails (targetPath dest t.name) = false →
    ∀ item, existing w.items (targetPath dest t.name) = some item →
      Inside dest (targetPath dest t.name) ∧ item = .file true
  downloaded : (s.reuses = true → net.lookupFails (targetPath dest t.name) = false ∧
      existing w.items (targetPath dest t.name) = none) →
    HarmlessDownload x dest net s.checked t (targetPath dest t.name) w

def Source.Harmless (net : Net) (dest : Location) (s : Source x) (w : World) : Prop :=
  ∀ t, s.target = some (some t) → HarmlessTarget x net dest s t w

/-- Every source that is asked is harmless in the world as it finds it. -/
def HarmlessSearch (net : Net) (dest : Location) : List (Source x) → World → Prop
  | [], _ => True
  | s :: rest, w => s.Harmless net dest w ∧
    ((s.attempt net dest w).2 = .nothing → HarmlessSearch net dest rest (s.attempt net dest w).1)

/-- The contract of `resolve_and_download`. -/
structure SearchSafe (x : Texts) (dest : Location) (r : World × Option SearchResult) : Prop where
  log : LogSafe x dest r.1
  reported : ∀ result, r.2 = some result → result.status = "downloaded" →
    result.files ≠ [] ∧ ∀ path ∈ result.files, Staged dest r.1 path

theorem staged_existing {item : Item} (h : existing w.items path = some item) :
    Staged dest w path ↔ Inside dest path ∧ item = .file true := by
  obtain ⟨here, hresolve, hitem⟩ := Option.bind_eq_some_iff.mp h
  constructor
  · rintro ⟨here', hresolve', hchild, hfile⟩
    rw [hresolve] at hresolve'
    cases hresolve'
    rw [hitem] at hfile
    cases hfile
    exact ⟨(item_isChild hresolve (by rw [hitem]; exact fun h => by cases h)).mp hchild, rfl⟩
  · rintro ⟨hinside, rfl⟩
    exact ⟨here, hresolve, (item_isChild hresolve (by rw [hitem]; exact fun h => by cases h)).mpr hinside,
      hitem⟩

/-- An attempt that does no more than end changes nothing. -/
theorem attemptSafe_idle (hlog : LogSafe x dest w) {a : Attempt} (ha : ∀ path, a ≠ .staged path) :
    AttemptSafe x dest (w, a) := ⟨hlog, fun path hpath => absurd hpath (ha path)⟩

/-- A source is safe exactly when it is harmless. -/
theorem attempt_safe_iff (s : Source x) (hlog : LogSafe x dest w) :
    AttemptSafe x dest (s.attempt net dest w) ↔ s.Harmless net dest w := by
  unfold Source.attempt Source.Harmless
  rcases htarget : s.target with _ | _ | t
  · exact ⟨fun _ t ht => (by cases ht), fun _ => attemptSafe_idle hlog fun path h => by cases h⟩
  · exact ⟨fun _ t ht => (by cases ht), fun _ => attemptSafe_idle hlog fun path h => by cases h⟩
  · have hone : (∀ t', some (some t) = some (some t') → HarmlessTarget x net dest s t' w) ↔
        HarmlessTarget x net dest s t w :=
      ⟨fun h => h t rfl, fun h t' ht => by cases ht; exact h⟩
    have hdownload : AttemptSafe x dest (attemptDownload net t (targetPath dest t.name) w) ↔ _ :=
      attemptDownload_safe_iff hlog fun hchecked => s.trusted hchecked t htarget
    rw [hone]
    dsimp only
    have hmust : (s.reuses = true → net.lookupFails (targetPath dest t.name) = false ∧
          existing w.items (targetPath dest t.name) = none) →
        (AttemptSafe x dest (attemptDownload net t (targetPath dest t.name) w) ↔
          HarmlessTarget x net dest s t w) := by
      intro hnothing
      rw [hdownload]
      refine ⟨fun h => ⟨fun hreuses _ item hitem => ?_, fun _ => h⟩, fun h => h.downloaded hnothing⟩
      rw [(hnothing hreuses).2] at hitem
      cases hitem
    by_cases hreuses : s.reuses = true
    · rw [if_pos hreuses]
      cases hfails : net.lookupFails (targetPath dest t.name) with
      | true =>
        refine ⟨fun _ => ⟨fun _ hno => ?_, fun hno => ?_⟩, fun _ => attemptSafe_idle hlog fun path => ?_⟩
        · rw [hfails] at hno
          cases hno
        · rw [hfails] at hno
          cases (hno hreuses).1
        · cases s.catches <;> exact fun h => by cases h
      | false =>
        rw [if_neg Bool.false_ne_true]
        cases hitem : existing w.items (targetPath dest t.name) with
        | none => exact hmust fun _ => ⟨hfails, hitem⟩
        | some item =>
          rw [Option.isSome_some, if_pos rfl]
          constructor
          · intro hsafe
            refine ⟨fun _ _ item' hitem' => ?_, fun hno => ?_⟩
            · rw [hitem] at hitem'
              cases hitem'
              exact (staged_existing hitem).mp (hsafe.staged _ rfl)
            · rw [hitem] at hno
              cases (hno hreuses).2
          · intro hharmless
            refine ⟨hlog, fun path hpath => ?_⟩
            cases hpath
            exact (staged_existing hitem).mpr (hharmless.reused hreuses hfails item hitem)
    · rw [if_neg hreuses]
      exact hmust fun h => absurd h hreuses

theorem attempt_grows (s : Source x) (w : World) : Grows w (s.attempt net dest w).1 := by
  unfold Source.attempt
  rcases s.target with _ | _ | t
  · exact Grows.refl w
  · exact Grows.refl w
  · dsimp only
    split_ifs
    · exact Grows.refl w
    · exact Grows.refl w
    · exact Grows.refl w
    · exact download_grows
    · exact download_grows

theorem search_grows (sources : List (Source x)) (w : World) :
    Grows w (searchSources net dest sources w).1 := by
  induction sources generalizing w with
  | nil => exact Grows.refl w
  | cons s rest ih =>
    have hattempt : Grows w (s.attempt net dest w).1 := attempt_grows s w
    rw [searchSources]
    rcases hresult : s.attempt net dest w with ⟨w', a⟩
    rw [hresult] at hattempt
    cases a with
    | raised => exact hattempt
    | staged path => exact hattempt
    | nothing => exact hattempt.trans (ih w')

/-- A search is safe exactly when every source that is asked is harmless. -/
theorem searchSources_safe_iff (sources : List (Source x)) (hlog : LogSafe x dest w) :
    SearchSafe x dest (searchSources net dest sources w) ↔ HarmlessSearch net dest sources w := by
  induction sources generalizing w with
  | nil =>
    refine ⟨fun _ => trivial, fun _ => ⟨hlog, fun result hresult hstatus => ?_⟩⟩
    cases hresult
    exact absurd hstatus (by decide)
  | cons s rest ih =>
    have hattempt : AttemptSafe x dest (s.attempt net dest w) ↔ _ := attempt_safe_iff s hlog
    rw [searchSources, HarmlessSearch, ← hattempt]
    rcases hresult : s.attempt net dest w with ⟨w', a⟩
    cases a with
    | raised =>
      refine ⟨fun h => ⟨⟨h.log, fun path hpath => by cases hpath⟩, fun ha => by cases ha⟩, fun h => ?_⟩
      exact ⟨h.1.log, fun result hresult => by cases hresult⟩
    | staged path =>
      constructor
      · intro h
        refine ⟨⟨h.log, fun path' hpath => ?_⟩, fun ha => by cases ha⟩
        cases hpath
        exact (h.reported _ rfl rfl).2 path List.mem_cons_self
      · rintro ⟨h, -⟩
        refine ⟨h.log, fun result hresult _ => ?_⟩
        cases hresult
        refine ⟨List.cons_ne_nil _ _, fun path' hpath => ?_⟩
        rw [List.mem_singleton.mp hpath]
        exact h.staged path rfl
    | nothing =>
      constructor
      · intro h
        have hlog' : LogSafe x dest w' := (search_grows rest w').logSafe h.log
        have hidle : AttemptSafe x dest (w', .nothing) :=
          attemptSafe_idle hlog' fun path hpath => by cases hpath
        exact ⟨hidle, fun _ => (ih hlog').mp h⟩
      · rintro ⟨h, hrest⟩
        exact (ih h.log).mpr (hrest rfl)

variable (x)

/-- The downloader keeps its contract exactly when each source that is asked is harmless in the
world as it finds it. -/
theorem resolveAndDownload_safe_iff (net : Net) (codename : String) (r : Replies)
    (sessionDir : SessionDir) (items : Items) :
    SearchSafe x (osSource sessionDir) (resolveAndDownload x net codename r sessionDir items) ↔
      ∀ items', makeFolders items (osSource sessionDir) = some items' →
        HarmlessSearch net (osSource sessionDir) (sources x codename r) { items := items' } := by
  have hempty : ∀ items, LogSafe x (osSource sessionDir) { items } := fun items =>
    ⟨fun url hurl => absurd hurl List.not_mem_nil, fun here hhere => absurd hhere List.not_mem_nil⟩
  unfold resolveAndDownload
  cases makeFolders items (osSource sessionDir) with
  | none =>
    refine ⟨fun _ items' h => (by cases h), fun _ => ⟨hempty items, fun result h => by cases h⟩⟩
  | some items' =>
    dsimp only
    rw [searchSources_safe_iff _ (hempty items')]
    exact ⟨fun h items'' hitems => by cases hitems; exact h, fun h => h items' rfl⟩

/-! ### A preferred asset from elsewhere -/

def asciiTexts : Texts where
  lower := asciiLower
  sameLetter c c' := asciiLower (String.singleton c) == asciiLower (String.singleton c')
  refuses _ := false

/-- Every request is answered with so many bytes. -/
def answering (written : ℕ) : Net where
  transfer _ _ := .answered true (.complete written true)
  lookupFails _ := false

/-- A release with one image, at the URL. -/
def oneAsset (name url : String) : Replies where
  lineageos := some []
  twrp := none
  gsi := some [some { name, url := some url }]
  gemma := none

def sessionDir : SessionDir := [⟨"session", by decide⟩]

def onlyRoot : Items := fun here => if here = [] then some .folder else none

/-- The image is fetched although its host is not trusted. -/
theorem untrusted_asset_fetched :
    isTrustedHost asciiTexts "https://evil.example/system.img" = some false ∧
      (resolveAndDownload asciiTexts (answering (mebibytes 200)) "gteslte"
        (oneAsset "system-arm64-vanilla.img" "https://evil.example/system.img") sessionDir
        onlyRoot).1.fetched = ["https://evil.example/system.img"] ∧
      (resolveAndDownload asciiTexts (answering (mebibytes 200)) "gteslte"
        (oneAsset "system-arm64-vanilla.img" "https://evil.example/system.img") sessionDir
        onlyRoot).2 =
        some
          { status := "downloaded"
            files := [["session", "artifacts", "os-source", "system-arm64-vanilla.img"]]
            source := some "gsi_phhusson" } := by
  decide

end ForgeOS.Image
