import ForgeOS.Image.Starter
import ForgeOS.Image.Validation

/-! Whether what the builder takes from a session fits the device. The names that are fixed in the
builder fit every device, so it comes down to two files: the sideload package, when none of the
fixed names is one, and the recovery image of a Samsung device, when it is not `recovery.img`. -/

namespace ForgeOS.Image

open ForgeOS.Python ForgeOS.Flash ForgeOS.Library.Sorting

variable {β : Type*} {v : FileView β} {j : BuildJob} {s : HardwareSnapshot} {a a' : BuildArea β}
  {f : Found β}

/-! ### Fixed names -/

/-- The names in small letters that the builder asks for without a pattern. -/
def plainNames : List String :=
  ["boot.img", "init_boot.img", "vendor_boot.img", "dtbo.img", "vbmeta.img", "vbmeta_system.img",
    "recovery.img", "system.img", "vendor.img", "product.img", "super.img", "userdata.img",
    "cache.img", "bl.img", "bootloader.img", "cp.img", "modem.img", "update.zip", "ota.zip",
    "payload.zip"]

theorem lower_of_small {lower : String → String} (hlower : KeepsSmall lower) {text : String}
    (h : (text.toList.all fun c => c.toNat < 128 && !(65 ≤ c.toNat && c.toNat ≤ 90)) = true) :
    lower text = text := by
  refine hlower text fun c hc => ?_
  have hchar := List.all_eq_true.mp h c hc
  simp only [Bool.and_eq_true, Bool.not_eq_true', Bool.and_eq_false_iff, decide_eq_true_eq,
    decide_eq_false_iff_not] at hchar
  exact ⟨hchar.1, fun hupper => hchar.2.elim (· hupper.1) (· hupper.2)⟩

/-- No device rejects one of these names. -/
theorem plain_rejection {n : FileName} (hn : v.lower n.val ∈ plainNames) :
    s.rejection v.lower n = "" := by
  have hnames : ∀ name ∈ plainNames,
      contains name "arm64" = false ∧ contains name "-ab" = false ∧
        contains name "_ab" = false ∧ contains name "a-b" = false ∧
        endsWith name ".img.xz" = false := by
    decide
  obtain ⟨harm, hdash, hunder, hab, hxz⟩ := hnames _ hn
  simp only [HardwareSnapshot.rejection, artifactRejectionReason, harm, hdash, hunder, hab, hxz,
    Bool.false_and, Bool.or_self, Bool.false_eq_true, if_false]

theorem small_rejection (hlower : KeepsSmall v.lower) {n : FileName} (hn : n.val ∈ plainNames) :
    s.rejection v.lower n = "" := by
  have hsmall : ∀ name ∈ plainNames,
      (name.toList.all fun c => c.toNat < 128 && !(65 ≤ c.toNat && c.toNat ≤ 90)) = true := by
    decide
  refine plain_rejection ?_
  rwa [lower_of_small hlower (hsmall n.val hn)]

/-- No fastboot image has a name that is rejected. -/
theorem fastboot_rejection (hlower : KeepsSmall v.lower) {n : FileName} (hn : n ∈ fastbootOrder) :
    s.rejection v.lower n = "" := by
  have hplain : ∀ n ∈ fastbootOrder, n.val ∈ plainNames := by decide
  exact small_rejection hlower (hplain n hn)

/-! ### Recovery images -/

/-- A plausible image under a name that ends in `.img`. -/
def HasImage (v : FileView β) (look : FileName → Option β) (n : FileName) : Prop :=
  fnmatch n.val "*.img" = true ∧ (plausibleImage v (look n)).isSome = true

/-- The first image that is listed among those with the pattern. -/
structure FirstNamed (v : FileView β) (look : FileName → Option β) (pattern : String)
    (n : FileName) : Prop where
  image : HasImage v look n
  name : fnmatch (v.lower n.val) pattern = true
  first : ∀ m, HasImage v look m → fnmatch (v.lower m.val) pattern = true → v.rank n ≤ v.rank m

/-- With no image called `recovery.img`, the first one called `twrp*.img` or else the first one
called `recovery*.img` is for the recovery partition. -/
def TakenForRecovery (v : FileView β) (look : FileName → Option β) (n : FileName) : Prop :=
  (∀ m, HasImage v look m → v.lower m.val ≠ "recovery.img") ∧
    (FirstNamed v look "twrp*.img" n ∨
      (∀ m, HasImage v look m → fnmatch (v.lower m.val) "twrp*.img" = false) ∧
        FirstNamed v look "recovery*.img" n)

/-- That image has a name that fits the device. -/
def RecoveryFits (v : FileView β) (s : HardwareSnapshot) (look : FileName → Option β) : Prop :=
  ∀ n, TakenForRecovery v look n → s.rejection v.lower n = ""

/-- A listing of the files, in the order of their ranks. -/
structure Lists (v : FileView β) (files : List (FileName × β)) (look : FileName → Option β) :
    Prop where
  mem : ∀ f, f ∈ files ↔ look f.1 = some f.2
  sorted : files.Pairwise fun a b => v.rank a.1 ≤ v.rank b.1

theorem Dir.lists (d : Dir β) : Lists v (d.files v) d.file? where
  mem f := by rw [Dir.mem_files, Dir.file?_eq_some]
  sorted := by
    refine Sorts.pairwise (Sorts.of_rank fun a ha b hb hab => ?_)
    have hname : a.1 = b.1 := v.rank_injective hab
    have ha' := Dir.mem_files.mp ((List.mem_insertionSort _).mpr ha : a ∈ d.files v)
    have hb' := Dir.mem_files.mp ((List.mem_insertionSort _).mpr hb : b ∈ d.files v)
    rw [hname, hb'] at ha'
    exact Prod.ext hname (Entry.file.inj (Option.some.inj ha')).symm

theorem Tree.lists (t : Tree β) : Lists v (t.files v) fun n => t.lookup [n] where
  mem _ := Tree.mem_files
  sorted := t.files_sorted.2

section Listing

variable {files : List (FileName × β)} {look : FileName → Option β}

/-- The images of a listing that `findHeimdallImages` chooses from. -/
def imagesOf (v : FileView β) (files : List (FileName × β)) : List (FileName × β) :=
  files.filter fun f => fnmatch f.1.val "*.img" && isPlausibleImage v f.2

theorem Lists.mem_imagesOf (h : Lists v files look) {x : FileName × β} :
    x ∈ imagesOf v files ↔ fnmatch x.1.val "*.img" = true ∧ plausibleImage v (look x.1) = some x.2 := by
  rw [imagesOf, List.mem_filter, h.mem, Bool.and_eq_true, plausibleImage, Option.filter_eq_some_iff]
  tauto

theorem Lists.hasImage_iff (h : Lists v files look) {n : FileName} :
    HasImage v look n ↔ ∃ c, (n, c) ∈ imagesOf v files := by
  simp only [h.mem_imagesOf, HasImage, Option.isSome_iff_exists, exists_and_left]

theorem Lists.sorts (h : Lists v files look) :
    Sorts (fun a b : FileName × β => v.rank a.1 ≤ v.rank b.1) (imagesOf v files) := by
  refine Sorts.of_rank fun x hx y hy hxy => ?_
  have hname : x.1 = y.1 := v.rank_injective hxy
  have hx' := (h.mem_imagesOf.mp hx).2
  rw [hname, (h.mem_imagesOf.mp hy).2] at hx'
  exact Prod.ext hname (Option.some.inj hx').symm

/-- Searching the listing finds the image that is listed first. -/
theorem Lists.find_iff (h : Lists v files look) (pattern : String) (n : FileName) :
    (∃ c, (imagesOf v files).find? (fun f => fnmatch (v.lower f.1.val) pattern) = some (n, c)) ↔
      FirstNamed v look pattern n := by
  simp only [find?_eq_some_iff_least h.sorts (h.sorted.filter _)]
  constructor
  · rintro ⟨c, hmem, hname, hfirst⟩
    refine ⟨h.hasImage_iff.mpr ⟨c, hmem⟩, hname, fun m hm hmatch => ?_⟩
    obtain ⟨c', hc'⟩ := h.hasImage_iff.mp hm
    exact hfirst (m, c') hc' hmatch
  · rintro ⟨himage, hname, hfirst⟩
    obtain ⟨c, hmem⟩ := h.hasImage_iff.mp himage
    exact ⟨c, hmem, hname, fun x hx hmatch => hfirst x.1 (h.hasImage_iff.mpr ⟨x.2, hx⟩) hmatch⟩

theorem Lists.find_none_iff (h : Lists v files look) (pattern : String) :
    (imagesOf v files).find? (fun f => fnmatch (v.lower f.1.val) pattern) = none ↔
      ∀ m, HasImage v look m → fnmatch (v.lower m.val) pattern = false := by
  rw [List.find?_eq_none]
  constructor
  · intro hall m hm
    obtain ⟨c, hmem⟩ := h.hasImage_iff.mp hm
    exact Bool.eq_false_iff.mpr (hall _ hmem)
  · intro hall x hx
    rw [hall x.1 (h.hasImage_iff.mpr ⟨x.2, hx⟩)]
    exact Bool.false_ne_true

theorem fnmatch_plain {name pattern : String} (h : '*' ∉ pattern.toList) :
    fnmatch name pattern = true ↔ name = pattern := by
  rw [fnmatch, matchPattern_literal h, String.toList_inj]

/-- Without a pattern, the name found is the one asked for. -/
theorem find_plain_rejection {pattern : String} (hplain : pattern ∈ plainNames)
    (hstar : '*' ∉ pattern.toList) {n : FileName} {c : β}
    (hfound : (imagesOf v files).find? (fun f => fnmatch (v.lower f.1.val) pattern) = some (n, c)) :
    s.rejection v.lower n = "" := by
  have hname : fnmatch (v.lower n.val) pattern = true :=
    List.find?_some (p := fun f : FileName × β => fnmatch (v.lower f.1.val) pattern) hfound
  refine plain_rejection ?_
  rwa [(fnmatch_plain hstar).mp hname]

/-- The patterns of the builder stay as they are in small letters. -/
theorem lower_patterns (hlower : KeepsSmall v.lower) {entry : String × List String}
    (hentry : entry ∈ heimdallPartitionPatterns) : entry.2.map v.lower = entry.2 := by
  have hsmall : ∀ entry ∈ heimdallPartitionPatterns, ∀ pattern ∈ entry.2,
      (pattern.toList.all fun c => c.toNat < 128 && !(65 ≤ c.toNat && c.toNat ≤ 90)) = true := by
    decide
  rw [List.map_congr_left fun pattern hpattern => lower_of_small hlower (hsmall entry hentry pattern hpattern),
    List.map_id']

/-- The images that the builder finds for its partitions. -/
theorem mem_findHeimdall_iff (hlower : KeepsSmall v.lower) {i : FoundImage β} :
    i ∈ findHeimdallImages v files ↔ ∃ entry ∈ heimdallPartitionPatterns, i.partition = entry.1 ∧
      (entry.2.findSome? fun pattern =>
        (imagesOf v files).find? fun f => fnmatch (v.lower f.1.val) pattern) =
          some (i.name, i.content) := by
  rw [findHeimdallImages, List.mem_filterMap]
  refine exists_congr fun entry => and_congr_right fun hentry => ?_
  have hpatterns : (entry.2.findSome? fun pattern =>
        (imagesOf v files).find? fun f => fnmatch (v.lower f.1.val) (v.lower pattern)) =
      entry.2.findSome? fun pattern =>
        (imagesOf v files).find? fun f => fnmatch (v.lower f.1.val) pattern := by
    conv_rhs => rw [← lower_patterns hlower hentry, List.findSome?_map]
    rfl
  rw [← hpatterns, imagesOf]
  dsimp only
  rw [Option.map_eq_some_iff]
  constructor
  · rintro ⟨x, hx, rfl⟩
    exact ⟨rfl, hx⟩
  · rintro ⟨hpartition, hx⟩
    exact ⟨_, hx, by rw [← hpartition]⟩

/-- The first pattern of the recovery partition that finds an image. -/
theorem Lists.takenForRecovery_iff (h : Lists v files look) (n : FileName) :
    TakenForRecovery v look n ↔
      (imagesOf v files).find? (fun f => fnmatch (v.lower f.1.val) "recovery.img") = none ∧
        ∃ c, (["twrp*.img", "recovery*.img"].findSome? fun pattern =>
          (imagesOf v files).find? fun f => fnmatch (v.lower f.1.val) pattern) = some (n, c) := by
  have hplain : (∀ m, HasImage v look m → v.lower m.val ≠ "recovery.img") ↔
      (imagesOf v files).find? (fun f => fnmatch (v.lower f.1.val) "recovery.img") = none := by
    have hname : ∀ name, fnmatch name "recovery.img" = true ↔ name = "recovery.img" :=
      fun _ => fnmatch_plain (by decide)
    simp only [h.find_none_iff, ← Bool.not_eq_true, hname, ne_eq]
  rw [TakenForRecovery, hplain, ← h.find_iff, ← h.find_iff, ← h.find_none_iff]
  refine and_congr_right fun _ => ?_
  simp only [List.findSome?_cons, List.findSome?_nil]
  cases (imagesOf v files).find? fun f => fnmatch (v.lower f.1.val) "twrp*.img" with
  | some x => simp
  | none =>
    cases (imagesOf v files).find? fun f => fnmatch (v.lower f.1.val) "recovery*.img" <;> simp

/-- The images for the partitions fit the device exactly when the one for the recovery does. -/
theorem Lists.recoveryFits_iff (hlower : KeepsSmall v.lower) (h : Lists v files look) :
    RecoveryFits v s look ↔ ∀ i ∈ findHeimdallImages v files, s.rejection v.lower i.name = "" := by
  have hentries : ∀ entry ∈ heimdallPartitionPatterns,
      entry = ("RECOVERY", ["recovery.img", "twrp*.img", "recovery*.img"]) ∨
        ∀ pattern ∈ entry.2, pattern ∈ plainNames ∧ '*' ∉ pattern.toList := by
    decide
  constructor
  · intro hfits i hi
    obtain ⟨entry, hentry, -, hfound⟩ := (mem_findHeimdall_iff hlower).mp hi
    rcases hentries entry hentry with rfl | hplain
    · rw [List.findSome?_cons] at hfound
      cases hexact : (imagesOf v files).find? fun f => fnmatch (v.lower f.1.val) "recovery.img" with
      | some x =>
        rw [hexact] at hfound
        cases hfound
        exact find_plain_rejection (by decide) (by decide) hexact
      | none =>
        rw [hexact] at hfound
        exact hfits i.name ((h.takenForRecovery_iff i.name).mpr ⟨hexact, i.content, hfound⟩)
    · obtain ⟨pattern, hpattern, hfind⟩ := List.exists_of_findSome?_eq_some hfound
      exact find_plain_rejection (hplain pattern hpattern).1 (hplain pattern hpattern).2 hfind
  · intro hall n hn
    obtain ⟨hexact, c, hfound⟩ := (h.takenForRecovery_iff n).mp hn
    refine hall ⟨"RECOVERY", n, c⟩ ((mem_findHeimdall_iff hlower).mpr ⟨_, List.mem_cons_self, rfl, ?_⟩)
    rw [List.findSome?_cons, hexact]
    exact hfound

end Listing

/-! ### Sideload packages -/

/-- A file of `os-source` that the builder takes for a sideload package. -/
def IsPackage (v : FileView β) (d : Dir β) (n : FileName) : Prop :=
  ∃ c, d.lookup n = some (.file c) ∧ isAndroidSideloadZip v (.file c) = .ok true

/-- One of the three names is a package, or else the first package by name has one that fits. -/
def PackageFits (v : FileView β) (s : HardwareSnapshot) (d : Dir β) : Prop :=
  (∃ n : FileName, n.val ∈ ["update.zip", "ota.zip", "payload.zip"] ∧ IsPackage v d n) ∨
    ∀ n, IsPackage v d n → fnmatch n.val "*.zip" = true →
      (∀ m, IsPackage v d m → fnmatch m.val "*.zip" = true → n.val.toList ≤ m.val.toList) →
      s.rejection v.lower n = ""

/-- An entry that is taken for a package. -/
def packageEntry (v : FileView β) (x : FileName × Entry β) : Bool :=
  match isAndroidSideloadZip v x.2 with
  | .ok found => found
  | .error _ => false

theorem isPackage_iff {d : Dir β} {n : FileName} :
    IsPackage v d n ↔ ∃ e, d.lookup n = some e ∧ packageEntry v (n, e) = true := by
  constructor
  · rintro ⟨c, hc, hzip⟩
    exact ⟨_, hc, by rw [packageEntry, hzip]⟩
  · rintro ⟨e, he, hentry⟩
    cases e with
    | folder => exact absurd hentry Bool.false_ne_true
    | file c =>
      refine ⟨c, he, ?_⟩
      simp only [packageEntry] at hentry
      cases hzip : isAndroidSideloadZip v (.file c) with
      | ok found =>
        rw [hzip] at hentry
        exact congrArg Except.ok hentry
      | error e => simp [hzip] at hentry

/-- Where no archive raises, the search finds the first package. -/
theorem firstSideloadZip_find {candidates : List (FileName × Entry β)} {zip : Option (FileName × β)}
    (h : firstSideloadZip v candidates = .ok zip) :
    candidates.find? (packageEntry v) = zip.map fun z => (z.1, .file z.2) := by
  induction candidates with
  | nil =>
    cases h
    rfl
  | cons x rest ih =>
    obtain ⟨n, e⟩ := x
    cases e with
    | folder => simp [firstSideloadZip, isAndroidSideloadZip] at h
    | file c =>
      cases hzip : isAndroidSideloadZip v (.file c) with
      | error e => simp [firstSideloadZip, hzip] at h
      | ok found =>
        have hentry : packageEntry v (n, .file c) = found := by rw [packageEntry, hzip]
        cases found with
        | true =>
          simp only [firstSideloadZip, hzip] at h
          cases h
          rw [List.find?_cons_of_pos hentry]
          rfl
        | false =>
          simp only [firstSideloadZip, hzip] at h
          rw [List.find?_cons_of_neg (by simp [hentry]), ih h]

theorem find_glob_iff {d : Dir β} {pattern : String} {x : FileName × Entry β} :
    (d.sortedGlob pattern).find? (packageEntry v) = some x ↔
      (d.lookup x.1 = some x.2 ∧ fnmatch x.1.val pattern = true) ∧ packageEntry v x = true ∧
        ∀ m, IsPackage v d m → fnmatch m.val pattern = true → x.1.val.toList ≤ m.val.toList := by
  have hsorts := d.sorts_byName (l := d.entries.filter fun e => fnmatch e.1.val pattern)
    fun e he => List.mem_of_mem_filter he
  rw [Dir.sortedGlob, find?_insertionSort_eq_some_iff hsorts, List.mem_filter, ← d.mem_lookup]
  refine and_congr_right fun _ => and_congr_right fun _ => ?_
  constructor
  · intro hleast m hm hmatch
    obtain ⟨e, he, hentry⟩ := isPackage_iff.mp hm
    exact hleast (m, e) (List.mem_filter.mpr ⟨d.mem_lookup.mp he, hmatch⟩) hentry
  · intro hleast y hy hentry
    obtain ⟨hmem, hmatch⟩ := List.mem_filter.mp hy
    exact hleast y.1 (isPackage_iff.mpr ⟨y.2, d.mem_lookup.mpr hmem, hentry⟩) hmatch

/-- The entries under some names. -/
def namedEntries (d : Dir β) (names : List FileName) : List (FileName × Entry β) :=
  names.filterMap fun n => (d.lookup n).map fun e => (n, e)

theorem find_named {d : Dir β} {names : List FileName} {x : FileName × Entry β}
    (h : (namedEntries d names).find? (packageEntry v) = some x) :
    x.1 ∈ names ∧ IsPackage v d x.1 := by
  obtain ⟨n, hn, hx⟩ := List.mem_filterMap.mp (List.mem_of_find?_eq_some h)
  obtain ⟨e, he, rfl⟩ := Option.map_eq_some_iff.mp hx
  exact ⟨hn, isPackage_iff.mpr ⟨e, he, List.find?_some h⟩⟩

theorem find_named_none {d : Dir β} {names : List FileName}
    (h : (namedEntries d names).find? (packageEntry v) = none) :
    ¬∃ n ∈ names, IsPackage v d n := by
  rintro ⟨n, hn, hpackage⟩
  obtain ⟨e, he, hentry⟩ := isPackage_iff.mp hpackage
  refine List.find?_eq_none.mp h (n, e) (List.mem_filterMap.mpr ⟨n, hn, ?_⟩) hentry
  rw [he]
  rfl

/-- The package that the builder takes fits exactly when this holds of `os-source`. -/
theorem packageFits_iff (hlower : KeepsSmall v.lower) {d : Dir β} {zip : Option (FileName × β)}
    (h : findSideloadZip v d = .ok zip) :
    PackageFits v s d ↔ ∀ z, zip = some z → s.rejection v.lower z.1 = "" := by
  let names := [fileName "update.zip", fileName "ota.zip", fileName "payload.zip"]
  have hnames : ∀ n : FileName, n ∈ names ↔ n.val ∈ ["update.zip", "ota.zip", "payload.zip"] := by
    simp [names, fileName, Subtype.ext_iff]
  have hfind : (namedEntries d names ++ d.sortedGlob "*.zip").find? (packageEntry v) =
      zip.map fun z => (z.1, .file z.2) := firstSideloadZip_find h
  rw [List.find?_append] at hfind
  rw [PackageFits]
  simp only [← hnames]
  cases hnamed : (namedEntries d names).find? (packageEntry v) with
  | some x =>
    rw [hnamed, Option.some_or] at hfind
    obtain ⟨hname, hpackage⟩ := find_named hnamed
    have hplain : ∀ n ∈ names, n.val ∈ plainNames := by decide
    refine ⟨fun _ z hz => ?_, fun _ => .inl ⟨x.1, hname, hpackage⟩⟩
    rw [hz] at hfind
    cases hfind
    exact small_rejection hlower (hplain _ hname)
  | none =>
    rw [hnamed, Option.none_or] at hfind
    rw [or_iff_right (find_named_none hnamed)]
    constructor
    · rintro hfits z rfl
      obtain ⟨⟨hthere, hmatch⟩, hentry, hleast⟩ := find_glob_iff.mp hfind
      exact hfits z.1 (isPackage_iff.mpr ⟨_, hthere, hentry⟩) hmatch hleast
    · intro hall n hn hmatch hleast
      obtain ⟨e, he, hentry⟩ := isPackage_iff.mp hn
      have hfirst : (d.sortedGlob "*.zip").find? (packageEntry v) = some (n, e) :=
        find_glob_iff.mpr ⟨⟨he, hmatch⟩, hentry, hleast⟩
      rw [hfirst] at hfind
      obtain ⟨z, hz, hx⟩ := Option.map_eq_some_iff.mp hfind.symm
      have hname : z.1 = n := congrArg Prod.fst hx
      exact hname ▸ hall z hz

/-! ### Samsung archives -/

/-- The folder into which the Samsung archives of a session are unpacked, over what it holds. -/
def samsungTree (v : FileView β) (a : BuildArea β) : Tree β :=
  (extractSamsungFrom v a (a.folder samsungFolder) (samsungArchives a.source)).2

/-- The image under a name: as it was unpacked, or else as its compressed file holds it. -/
def samsungImage (v : FileView β) (a : BuildArea β) (n : FileName) : Option β :=
  ((samsungTree v a).lookup [n]).or (((samsungTree v a).lookup [compressedName n]).bind v.lz4)

theorem openSamsungArchive_congr {b : BuildArea β} (h : a.source = b.source) (n : FileName)
    (e : Entry β) : (openSamsungArchive a n e).1.source = (openSamsungArchive b n e).1.source := by
  unfold openSamsungArchive
  rw [h]
  split
  · split
    · exact h
    · split
      · exact h
      · exact h
      · rfl
      · exact h
  · split <;> exact h

/-- What is unpacked depends on `os-source` alone. -/
theorem extractSamsungFrom_congr {b : BuildArea β} (h : a.source = b.source) (t : Tree β)
    (archives : List (FileName × Entry β)) :
    (extractSamsungFrom v a t archives).2 = (extractSamsungFrom v b t archives).2 := by
  induction archives generalizing a b t with
  | nil => rfl
  | cons x rest ih =>
    have hbytes : (openSamsungArchive a x.1 x.2).2 = (openSamsungArchive b x.1 x.2).2 := by
      rw [openSamsungArchive_bytes, openSamsungArchive_bytes, h]
    have hsource := openSamsungArchive_congr h x.1 x.2
    simp only [extractSamsungFrom, hbytes]
    cases (openSamsungArchive b x.1 x.2).2.bind v.tar with
    | some ms => exact ih hsource _
    | none => exact ih hsource _

theorem samsungTree_unpacked (a : BuildArea β) :
    samsungTree v (extractFastbootFrom v a (fastbootArchives a.source)).1 = samsungTree v a := by
  obtain ⟨hfolder, hsource, -⟩ := extractFastbootFrom_frame v (archiveFolder_ne_samsung a.source) a
  rw [samsungTree, hfolder, hsource]
  exact extractSamsungFrom_congr hsource _ _

theorem recoveryFits_congr {look look' : FileName → Option β}
    (h : ∀ n : FileName, fnmatch n.val "*.img" = true → look n = look' n) :
    RecoveryFits v s look ↔ RecoveryFits v s look' := by
  have himage : HasImage v look = HasImage v look' := by
    funext n
    refine propext (and_congr_right fun hn => ?_)
    rw [h n hn]
  have htaken : TakenForRecovery v look = TakenForRecovery v look' := by
    have hfirst : ∀ pattern n, FirstNamed v look pattern n ↔ FirstNamed v look' pattern n := by
      intro pattern n
      constructor
      · rintro ⟨h₁, h₂, h₃⟩
        exact ⟨himage ▸ h₁, h₂, himage ▸ h₃⟩
      · rintro ⟨h₁, h₂, h₃⟩
        exact ⟨himage ▸ h₁, h₂, himage ▸ h₃⟩
    funext n
    simp only [TakenForRecovery, himage, hfirst]
  rw [RecoveryFits, RecoveryFits, htaken]

/-- The images of the Samsung archives fit exactly when the one for the recovery does. -/
theorem samsungFits_iff (hlower : KeepsSmall v.lower) (harchives : samsungArchives a.source ≠ []) :
    RecoveryFits v s (samsungImage v a) ↔
      ∀ i ∈ (extractSamsung v a).2, s.rejection v.lower i.name = "" := by
  have himages : (extractSamsung v a).2 =
      findHeimdallImages v ((decompressAll v (samsungTree v a)).files v) := by
    rw [extractSamsung, if_neg harchives, samsungTree]
  rw [himages, ← (Tree.lists _).recoveryFits_iff hlower]
  exact recoveryFits_congr fun n hn => (lookup_decompressAll (samsungTree v a) hn).symm

/-! ### What the builder takes -/

/-- What the builder takes from a session fits the device: the loose recovery image of a Samsung
device; without loose images for its partitions the sideload package; with nothing loose at all and
no fastboot images in the archives, the recovery image that the Samsung archives unpack to. -/
structure Fits (v : FileView β) (j : BuildJob) (s : HardwareSnapshot) (a : BuildArea β) : Prop where
  loose : preferHeimdall v j = true → RecoveryFits v s a.source.file?
  package : looseHeimdall v j a.source = [] → PackageFits v s a.source
  samsung : UsesArchives v j a → (extractFastbootFrom v a (fastbootArchives a.source)).2 = none →
    preferHeimdall v j = true → samsungArchives a.source ≠ [] → RecoveryFits v s (samsungImage v a)

/-- The staged files, each with the flash step that is for it. -/
def Found.stepsFor : Found β → List (FileName × ManifestStep)
  | .heimdall images _ => images.map fun i => (i.name, heimdallStep images)
  | .sideload n _ => [(n, sideloadStep n)]
  | .fastboot images _ => images.map fun i => (i.name, fastbootStep i)
  | .nothing => []

theorem Found.mem_flashSteps {f : Found β} {x : FileName × ManifestStep} (hx : x ∈ f.stepsFor) :
    x.2 ∈ f.flashSteps := by
  cases f with
  | heimdall images s =>
    obtain ⟨i, -, rfl⟩ := List.mem_map.mp hx
    exact List.mem_singleton.mpr rfl
  | sideload n c =>
    rw [List.mem_singleton.mp hx]
    exact List.mem_singleton.mpr rfl
  | fastboot images s =>
    obtain ⟨i, hi, rfl⟩ := List.mem_map.mp hx
    exact List.mem_map_of_mem hi
  | nothing => exact absurd hx List.not_mem_nil

theorem rejection_images {images : List (FoundImage β)} {step : FoundImage β → ManifestStep} :
    (∀ x ∈ images.map fun i => (i.name, step i), s.rejection v.lower x.1 = "") ↔
      ∀ i ∈ images, s.rejection v.lower i.name = "" := by
  simp only [List.mem_map, forall_exists_index, and_imp, forall_apply_eq_imp_iff₂]

theorem rejection_fastboot (hlower : KeepsSmall v.lower) (look : FileName → Option β) (text : String) :
    ∀ x ∈ (Found.fastboot (findFastbootImages v look) text).stepsFor,
      s.rejection v.lower x.1 = "" := by
  refine rejection_images.mpr fun i hi => fastboot_rejection hlower ?_
  exact (findFastbootImages_names look).subset (List.mem_map_of_mem hi)

theorem rejection_chosen {images : List (FoundImage β)} :
    (∀ x ∈ (chooseFound images none [] "").stepsFor, s.rejection v.lower x.1 = "") ↔
      ∀ i ∈ images, s.rejection v.lower i.name = "" := by
  rcases eq_or_ne images [] with rfl | hne
  · rw [chooseFound_nothing]
    exact ⟨fun _ i hi => absurd hi List.not_mem_nil, fun _ x hx => absurd hx List.not_mem_nil⟩
  · rw [chooseFound_heimdall hne, Found.stepsFor, rejection_images]

theorem looseFits_iff (hlower : KeepsSmall v.lower) {d : Dir β} :
    (preferHeimdall v j = true → RecoveryFits v s d.file?) ↔
      ∀ i ∈ looseHeimdall v j d, s.rejection v.lower i.name = "" := by
  rw [d.lists.recoveryFits_iff hlower]
  unfold looseHeimdall
  split_ifs with hprefer
  · exact forall_prop_of_true hprefer
  · exact ⟨fun _ i hi => absurd hi List.not_mem_nil, fun _ h => absurd h hprefer⟩

/-- The archives for fastboot images change nothing about the Samsung archives. -/
theorem unpackedFits_iff (hlower : KeepsSmall v.lower) (a : BuildArea β) :
    (samsungArchives a.source ≠ [] → RecoveryFits v s (samsungImage v a)) ↔
      ∀ i ∈ (extractSamsung v (extractFastbootFrom v a (fastbootArchives a.source)).1).2,
        s.rejection v.lower i.name = "" := by
  have hsource := (extractFastbootFrom_frame v (archiveFolder_ne_samsung a.source) a).2.1
  have hsame : samsungImage v (extractFastbootFrom v a (fastbootArchives a.source)).1 =
      samsungImage v a := by
    funext n
    rw [samsungImage, samsungImage, samsungTree_unpacked]
  generalize (extractFastbootFrom v a (fastbootArchives a.source)).1 = b at hsource hsame
  by_cases hnil : samsungArchives b.source = []
  · rw [extractSamsung, if_pos hnil, ← hsource]
    exact ⟨fun _ i hi => absurd hi List.not_mem_nil, fun _ hne => absurd hnil hne⟩
  · rw [← samsungFits_iff hlower hnil, hsame, ← hsource]
    exact forall_prop_of_true hnil

/-- With nothing loose, only the images of Samsung archives count. -/
theorem UsesArchives.fits_iff (hlower : KeepsSmall v.lower) (huses : UsesArchives v j a) :
    Fits v j s a ↔ ((extractFastbootFrom v a (fastbootArchives a.source)).2 = none →
      preferHeimdall v j = true →
      ∀ i ∈ (extractSamsung v (extractFastbootFrom v a (fastbootArchives a.source)).1).2,
        s.rejection v.lower i.name = "") := by
  simp only [← unpackedFits_iff hlower a]
  refine ⟨fun hfits => hfits.samsung huses, fun hsamsung => ⟨?_, fun _ => ?_, fun _ => hsamsung⟩⟩
  · rw [looseFits_iff hlower, huses.2.2]
    exact fun i hi => absurd hi List.not_mem_nil
  · exact (packageFits_iff hlower huses.1).mpr fun z hz => nomatch hz

/-- With something loose, that is what counts. -/
theorem fits_iff_loose (hlower : KeepsSmall v.lower) {zip : Option (FileName × β)}
    (hzip : findSideloadZip v a.source = .ok zip) (huses : ¬UsesArchives v j a) :
    Fits v j s a ↔ (∀ i ∈ looseHeimdall v j a.source, s.rejection v.lower i.name = "") ∧
      (looseHeimdall v j a.source = [] → ∀ z, zip = some z → s.rejection v.lower z.1 = "") := by
  rw [← looseFits_iff hlower, ← packageFits_iff hlower hzip]
  exact ⟨fun hfits => ⟨hfits.loose, hfits.package⟩,
    fun h => ⟨h.1, h.2, fun huses' => absurd huses' huses⟩⟩

theorem archivesFit_iff (hlower : KeepsSmall v.lower) (huses : UsesArchives v j a)
    (h : (match extractFastbootFrom v a (fastbootArchives a.source) with
      | (b, some (folder, images)) =>
        (.ok (b, .fastboot images (join j.extractedDir folder)) : Except String (BuildArea β × Found β))
      | (b, none) =>
        if preferHeimdall v j then
          .ok ((extractSamsung v b).1, chooseFound (extractSamsung v b).2 none [] "")
        else .ok (b, .nothing)) = .ok (a', f)) :
    Fits v j s a ↔ ∀ x ∈ f.stepsFor, s.rejection v.lower x.1 = "" := by
  rw [huses.fits_iff hlower]
  rcases hext : extractFastbootFrom v a (fastbootArchives a.source) with ⟨b, _ | ⟨folder, images⟩⟩
  · simp only [hext] at h
    split_ifs at h with hprefer
    · cases h
      rw [rejection_chosen]
      exact ⟨fun hall => hall rfl hprefer, fun hall _ _ => hall⟩
    · cases h
      exact ⟨fun _ x hx => absurd hx List.not_mem_nil, fun _ _ hprefer' => absurd hprefer' hprefer⟩
  · simp only [hext] at h
    cases h
    obtain ⟨look, rfl, -⟩ := extractFastbootFrom_images hext
    exact ⟨fun _ => rejection_fastboot hlower look _, fun _ hnone => nomatch hnone⟩

theorem looseFit_iff (hlower : KeepsSmall v.lower) {zip : Option (FileName × β)} {text : String}
    (hzip : findSideloadZip v a.source = .ok zip) (huses : ¬UsesArchives v j a) :
    Fits v j s a ↔ ∀ x ∈ (chooseFound (looseHeimdall v j a.source) zip
      (findFastbootImages v a.source.file?) text).stepsFor, s.rejection v.lower x.1 = "" := by
  rw [fits_iff_loose hlower hzip huses]
  rcases eq_or_ne (looseHeimdall v j a.source) [] with hnil | hne
  · rw [hnil, and_iff_right fun i hi => absurd hi List.not_mem_nil, forall_prop_of_true rfl]
    cases zip with
    | some z =>
      rw [chooseFound_sideload, Found.stepsFor, List.forall_mem_singleton]
      exact ⟨fun hall => hall z rfl, fun hz _ heq => Option.some.inj heq ▸ hz⟩
    | none =>
      have hfast : findFastbootImages v a.source.file? ≠ [] := fun hfast => huses ⟨hzip, hfast, hnil⟩
      rw [chooseFound_fastboot hfast]
      exact ⟨fun _ => rejection_fastboot hlower _ _, fun _ z hz => nomatch hz⟩
  · rw [chooseFound_heimdall hne, Found.stepsFor, rejection_images]
    exact ⟨fun hfits => hfits.1, fun hall => ⟨hall, fun hnil => absurd hnil hne⟩⟩

/-- The staged files fit the device exactly when what the builder takes from the session does. -/
theorem fits_iff (hlower : KeepsSmall v.lower) (h : collect v j a = .ok (a', f)) :
    Fits v j s (a.withReadme v) ↔ ∀ x ∈ f.stepsFor, s.rejection v.lower x.1 = "" := by
  simp only [collect] at h
  generalize a.withReadme v = b at h
  cases hzip : findSideloadZip v b.source with
  | error e =>
    simp only [hzip] at h
    cases h
  | ok zip =>
    simp only [hzip] at h
    by_cases hnothing : (zip.isNone && (findFastbootImages v b.source.file?).isEmpty &&
        (looseHeimdall v j b.source).isEmpty) = true
    · rw [if_pos hnothing] at h
      simp only [Bool.and_eq_true, Option.isNone_iff_eq_none, List.isEmpty_iff] at hnothing
      exact archivesFit_iff hlower ⟨by rw [hzip, hnothing.1.1], hnothing.1.2, hnothing.2⟩ h
    · rw [if_neg hnothing] at h
      cases h
      refine looseFit_iff hlower hzip ?_
      rintro ⟨hnone, hfast, hloose⟩
      rw [hzip] at hnone
      cases hnone
      exact hnothing (by rw [hfast, hloose]; rfl)

end ForgeOS.Image
