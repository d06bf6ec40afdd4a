import ForgeOS.Boot.Cpio

/-! The archives that `validate_gzip_newc` accepts. A row of entries in the strict form, where
a number is eight hexadecimal digits, is accepted as long as its names are short. Everything
that is accepted has this form, when numbers are read as `int` reads them. -/

namespace ForgeOS.Boot

open ForgeOS.Python ForgeOS.Library.Slices

instance (e : CpioEntry) : Decidable e.Short := inferInstanceAs (Decidable (_ ≤ _))

/-! ### From digits to numbers -/

theorem bind_int16_of_strictHex {field : Option Bytes} {n : ℤ}
    (h : field.bind strictHex = some n) : field.bind int16 = some n := by
  obtain ⟨f, rfl, hf⟩ := Option.bind_eq_some_iff.mp h
  exact int16_of_strictHex hf

theorem CpioEntry.Fits.loose {e : CpioEntry} (h : e.Fits strictHex) : e.Fits int16 where
  magic := h.magic
  fields := h.fields
  words := by
    intro f hf
    obtain ⟨hlength, hnumber⟩ := h.words f hf
    obtain ⟨n, hn⟩ := Option.isSome_iff_exists.mp hnumber
    exact ⟨hlength, Option.isSome_iff_exists.mpr ⟨n, int16_of_strictHex hn⟩⟩
  size := bind_int16_of_strictHex h.size
  nameSize := bind_int16_of_strictHex h.nameSize
  namePad := h.namePad
  path := h.path

theorem CpioEntry.Fits.read_loose {e : CpioEntry} (h : e.Fits strictHex) :
    e.read int16 = e.read strictHex := by
  have hlt : 1 < e.fields.length := by
    rw [h.fields]
    decide
  obtain ⟨n, hn⟩ := Option.isSome_iff_exists.mp (h.words _ (List.getElem_mem hlt)).2
  have hmode : e.fields[1]?.bind strictHex = some n := by
    rw [List.getElem?_eq_getElem hlt]
    exact hn
  rw [CpioEntry.read, CpioEntry.read, hmode, bind_int16_of_strictHex hmode]

theorem CpioArchive.Formed.loose {a : CpioArchive} (h : a.Formed strictHex) : a.Formed int16 where
  fits := fun e he => (h.fits e he).loose
  padded := h.padded
  names := h.names
  trailer := h.trailer

theorem CpioArchive.Bootable.loose {a : CpioArchive} (h : a.Bootable strictHex) :
    a.Bootable int16 where
  toFormed := h.toFormed.loose
  count := h.count
  init := by
    obtain ⟨e, he, hinit⟩ := h.init
    refine ⟨e, he, ?_⟩
    rw [(h.fits e (List.mem_append_left _ he)).read_loose]
    exact hinit

/-! ### Reading a whole archive -/

theorem readArchive_of_formed {a : CpioArchive} (ha : a.Formed int16)
    (hshort : ∀ e ∈ a.all, e.Short) (hcount : a.all.length ≤ maxCpioEntries) :
    readArchive a.bytes = .ok (a.entries.map (CpioEntry.read int16)) :=
  walk_of_formed ha hshort (Nat.dvd_zero 4) rfl hcount fun _ _ => List.not_mem_nil

/-- An archive is accepted exactly when it is a row of entries with an `init` among them. -/
theorem validateArchive_eq_ok {archive : Bytes} :
    validateArchive archive = .ok () ↔
      ∃ a : CpioArchive, a.Bootable int16 ∧ (∀ e ∈ a.all, e.Short) ∧ a.bytes = archive := by
  rw [validateArchive, bind_eq_ok]
  simp only [check_eq_ok, List.any_eq_true]
  constructor
  · rintro ⟨reads, hreads, r, hr, hinit⟩
    obtain ⟨a, hformed, hshort, harchive, hcount, -, rfl⟩ := formed_of_walk (Nat.dvd_zero 4) hreads
    obtain ⟨e, he, rfl⟩ := List.mem_map.mp hr
    exact ⟨a, ⟨hformed, hcount, e, he, hinit⟩, hshort, harchive.symm⟩
  · rintro ⟨a, ha, hshort, rfl⟩
    obtain ⟨e, he, hinit⟩ := ha.init
    exact ⟨_, readArchive_of_formed ha.toFormed hshort ha.count, e.read int16,
      List.mem_map_of_mem he, hinit⟩

/-! ### Long names -/

/-- No walk gets past an entry with a long name. -/
theorem short_of_walk {archive : Bytes} {a : CpioArchive} (ha : a.Formed int16) {pos : ℕ}
    (hpos : 4 ∣ pos) (harchive : archive.drop pos = a.bytes) {remaining : ℕ} {names : List Bytes}
    {reads : List CpioRead} (h : walk archive remaining pos names = .ok reads) :
    ∀ e ∈ a.all, e.Short := by
  obtain ⟨entries, trailer, zeros⟩ := a
  induction entries generalizing pos remaining names reads with
  | nil =>
    refine List.forall_mem_singleton.mpr ?_
    change trailer.name.length + 1 ≤ 4096
    rw [show trailer.name = trailerName from ha.trailer.1]
    decide
  | cons e entries ih =>
    obtain ⟨ha', he, hpad, hne⟩ :=
      CpioArchive.Formed.of_cons (a := ⟨entries, trailer, zeros⟩) (e := e) ha
    have hbytes : archive.drop pos = e.bytes ++ (CpioArchive.mk entries trailer zeros).bytes :=
      harchive.trans (CpioArchive.bytes_cons e ⟨entries, trailer, zeros⟩)
    have hbody : archive.drop pos =
        e.body ++ (e.dataPad ++ (CpioArchive.mk entries trailer zeros).bytes) := by
      rw [hbytes, CpioEntry.bytes, List.append_assoc]
    cases remaining with
    | zero => simp [walk] at h
    | succ remaining =>
      obtain ⟨out, hout, -⟩ := bind_eq_ok.mp (by rw [walk] at h; exact h)
      obtain ⟨hshort, hname⟩ := accepted_of_readEntry he hbody hout
      obtain ⟨hread, hrest⟩ := readEntry_of_bytes hpos he hpad hshort hname hbytes
      have hneTrailer : e.name ≠ trailerName := fun h =>
        hne trailer (List.mem_append_right _ (List.mem_singleton_self _)) (ha.trailer.1.trans h.symm)
      rw [walk_entry hread hneTrailer] at h
      obtain ⟨reads', hwalk, -⟩ := map_eq_ok.mp h
      have hshorts := ih (Nat.dvd_add hpos (dvd_bytes he hpad)) hwalk ha' hrest
      exact List.forall_mem_cons.mpr ⟨hshort, hshorts⟩

/-! ### Failures -/

/-- The failure of a computation is a `BootImageError`, if it fails. -/
def FailsAsBootImage {α : Type} (x : Except Failure α) : Prop :=
  ∀ e, x = .error e → ∃ message, e = .bootImage message

section Fails

variable {α β : Type}

theorem failsAsBootImage_ok (a : α) : FailsAsBootImage (.ok a) := by
  rintro e ⟨⟩

theorem failsAsBootImage_check (p : Prop) [Decidable p] (message : String) :
    FailsAsBootImage (check p message) := by
  intro e he
  rw [check] at he
  split_ifs at he
  exact ⟨message, (Except.error.inj he).symm⟩

theorem failsAsBootImage_range (data : Bytes) (start : ℕ) (length : ℤ) (label : String) :
    FailsAsBootImage (range data start length label) := by
  intro e he
  rw [range] at he
  split_ifs at he
  exact ⟨_, (Except.error.inj he).symm⟩

theorem FailsAsBootImage.bind {x : Except Failure α} {f : α → Except Failure β}
    (hx : FailsAsBootImage x) (hf : ∀ a, FailsAsBootImage (f a)) : FailsAsBootImage (x >>= f) := by
  intro e he
  cases x with
  | error e' => exact hx e (congrArg Except.error (Except.error.inj he))
  | ok a => exact hf a e he

end Fails

theorem failsAsBootImage_readEntry (archive : Bytes) (names : List Bytes) (pos : ℕ) :
    FailsAsBootImage (readEntry archive names pos) := by
  rw [readEntry]
  refine .bind (failsAsBootImage_range _ _ _ _) fun header => ?_
  refine .bind (failsAsBootImage_check _ _) fun _ => ?_
  refine .bind (failsAsBootImage_check _ _) fun _ => ?_
  refine .bind (failsAsBootImage_check _ _) fun _ => ?_
  refine .bind (failsAsBootImage_range _ _ _ _) fun nameRaw => ?_
  refine .bind (failsAsBootImage_check _ _) fun _ => ?_
  refine .bind (failsAsBootImage_check _ _) fun _ => ?_
  exact .bind (failsAsBootImage_range _ _ _ _) fun data => failsAsBootImage_ok _

theorem failsAsBootImage_walk (archive : Bytes) (remaining pos : ℕ) (names : List Bytes) :
    FailsAsBootImage (walk archive remaining pos names) := by
  induction remaining generalizing pos names with
  | zero => exact fun e he => ⟨_, (Except.error.inj he).symm⟩
  | succ remaining ih =>
    rw [walk]
    refine .bind (failsAsBootImage_readEntry _ _ _) ?_
    rintro ⟨entry, next⟩
    dsimp only
    split_ifs
    · exact .bind (failsAsBootImage_check _ _) fun _ => failsAsBootImage_ok _
    · exact .bind (ih _ _) fun entries => failsAsBootImage_ok _

theorem failsAsBootImage_validateArchive (archive : Bytes) :
    FailsAsBootImage (validateArchive archive) :=
  .bind (failsAsBootImage_walk _ _ _ _) fun _ => failsAsBootImage_check _ _

/-! ### The ramdisk -/

section Ramdisk

variable {gunzip : Gunzip} {ramdisk archive : Bytes}

/-- Behind the gzip stream nothing but the archive counts. -/
theorem validateGzipNewc_eq (hread : gunzip.read ramdisk = .ok archive)
    (hlength : archive.length ≤ maxCpioBytes) :
    validateGzipNewc gunzip ramdisk =
      if gzipMagic <+: ramdisk then validateArchive archive
      else .error (.bootImage "ramdisk is not gzip") := by
  rw [validateGzipNewc, hread]
  dsimp only
  rw [check, check, if_pos hlength]
  split_ifs <;> rfl

theorem bytes_ne_nil {a : CpioArchive} {number : Bytes → Option ℤ} (h : a.Formed number) :
    a.bytes ≠ [] := by
  have htrailer := body_ne_nil (h.fits a.trailer (List.mem_append_right _ (List.mem_singleton_self _)))
  intro hnil
  have hlength := congrArg List.length hnil
  rw [CpioArchive.bytes, CpioEntry.bytes] at hlength
  simp only [List.length_append, List.length_nil] at hlength
  omega

theorem validateGzipNewc_eq_ok (hread : gunzip.read ramdisk = .ok archive)
    (hlength : archive.length ≤ maxCpioBytes) :
    validateGzipNewc gunzip ramdisk = .ok () ↔
      ∃ a : CpioArchive, a.Bootable int16 ∧ (∀ e ∈ a.all, e.Short) ∧ a.bytes = archive := by
  rw [validateGzipNewc_eq hread hlength, ← validateArchive_eq_ok]
  split_ifs with hmagic
  · rfl
  · constructor
    · simp
    · intro h
      obtain ⟨a, ha, -, rfl⟩ := validateArchive_eq_ok.mp h
      exact absurd (gunzip.magic ramdisk _ hread (bytes_ne_nil ha.toFormed)) hmagic

theorem short_of_accepted {a : CpioArchive} (ha : a.Bootable int16)
    (hread : gunzip.read ramdisk = .ok a.bytes) (hlength : a.bytes.length ≤ maxCpioBytes)
    (h : validateGzipNewc gunzip ramdisk = .ok ()) : ∀ e ∈ a.all, e.Short := by
  have hmagic := gunzip.magic ramdisk _ hread (bytes_ne_nil ha.toFormed)
  rw [validateGzipNewc_eq hread hlength, if_pos hmagic] at h
  obtain ⟨reads, hreads, -⟩ := bind_eq_ok.mp h
  exact short_of_walk ha.toFormed (Nat.dvd_zero 4) rfl hreads

/-- A ramdisk whose archive has the strict form is accepted exactly if its names are short.
What is accepted has this form with numbers as `int` reads them, and all the rest is refused
with a `BootImageError`. -/
theorem validateGzipNewc_spec (hread : gunzip.read ramdisk = .ok archive)
    (hlength : archive.length ≤ maxCpioBytes) :
    (∀ a : CpioArchive, a.Bootable strictHex → a.bytes = archive →
      (validateGzipNewc gunzip ramdisk = .ok () ↔ ∀ e ∈ a.all, e.Short)) ∧
    (validateGzipNewc gunzip ramdisk = .ok () →
      ∃ a : CpioArchive, a.Bootable int16 ∧ (∀ e ∈ a.all, e.Short) ∧ a.bytes = archive) ∧
    (validateGzipNewc gunzip ramdisk ≠ .ok () →
      ∃ message, validateGzipNewc gunzip ramdisk = .error (.bootImage message)) := by
  refine ⟨?_, (validateGzipNewc_eq_ok hread hlength).mp, ?_⟩
  · rintro a ha rfl
    constructor
    · exact short_of_accepted ha.loose hread hlength
    · intro hshort
      exact (validateGzipNewc_eq_ok hread hlength).mpr ⟨a, ha.loose, hshort, rfl⟩
  · intro hnot
    have hfails : FailsAsBootImage (validateGzipNewc gunzip ramdisk) := by
      rw [validateGzipNewc_eq hread hlength]
      split_ifs
      · exact failsAsBootImage_validateArchive archive
      · exact fun e he => ⟨_, (Except.error.inj he).symm⟩
    cases h : validateGzipNewc gunzip ramdisk with
    | ok u => exact absurd h hnot
    | error e =>
      obtain ⟨message, rfl⟩ := hfails e h
      exact ⟨message, rfl⟩

end Ramdisk

/-! ### Two ramdisks -/

/-- A regular executable file without content. -/
def emptyProgram (name nameSize : Bytes) : CpioEntry where
  magic := newcMagic
  fields := [ascii "00000000", ascii "000081ed", ascii "00000000", ascii "00000000",
    ascii "00000000", ascii "00000000", ascii "00000000", ascii "00000000", ascii "00000000",
    ascii "00000000", ascii "00000000", nameSize, ascii "00000000"]
  name := name
  namePad := List.replicate (padding (110 + (name.length + 1)) 4) 0
  data := []
  dataPad := []

def initOnly : CpioArchive where
  entries := [emptyProgram (ascii "init") (ascii "00000005")]
  trailer := emptyProgram trailerName (ascii "0000000b")
  zeros := 0

/-- A reader that knows one stream. -/
def readerOf (stream archive : Bytes) (h : gzipMagic <+: stream) : Gunzip where
  read := fun s => if s = stream then .ok archive else .error .osError
  magic := by
    intro s archive' hread _
    split_ifs at hread with hs
    rw [hs]
    exact h

theorem emptyProgram_fits {name nameSize : Bytes} (hlength : nameSize.length = 8)
    (hsize : strictHex nameSize = some (name.length + 1 : ℤ)) (hpath : isUnsafePath name = false) :
    (emptyProgram name nameSize).Fits strictHex where
  magic := .inl rfl
  fields := rfl
  words := by
    have hzero : (ascii "00000000").length = 8 ∧ (strictHex (ascii "00000000")).isSome := by decide
    have hmode : (ascii "000081ed").length = 8 ∧ (strictHex (ascii "000081ed")).isSome := by decide
    have hname : nameSize.length = 8 ∧ (strictHex nameSize).isSome := by
      rw [hsize]
      exact ⟨hlength, rfl⟩
    simp only [emptyProgram, List.forall_mem_cons, hzero, hmode, hname, and_self, true_and]
    simp
  size := by
    change strictHex (ascii "00000000") = some 0
    decide
  nameSize := hsize
  namePad := List.length_replicate
  path := hpath

theorem initOnly_bootable : initOnly.Bootable strictHex where
  fits := by
    refine List.forall_mem_cons.mpr ⟨?_, List.forall_mem_singleton.mpr ?_⟩
    · exact emptyProgram_fits rfl (by decide) (by decide)
    · exact emptyProgram_fits rfl (by decide) (by decide)
  padded := List.forall_mem_cons.mpr ⟨rfl, List.forall_mem_singleton.mpr rfl⟩
  names := by decide
  trailer := ⟨rfl, rfl⟩
  count := by decide
  init := ⟨_, List.mem_cons_self, by decide⟩

theorem readerOf_read {stream archive : Bytes} (h : gzipMagic <+: stream) :
    (readerOf stream archive h).read stream = .ok archive := if_pos rfl

/-- What `gzip.compress` makes of the archive. -/
def initOnlyStream : Bytes :=
  [31, 139, 8, 0, 0, 0, 0, 0, 2, 3, 51, 48, 55, 48, 55, 48, 52, 64, 2, 22, 134, 169, 41, 6, 212, 5,
    166, 48, 70, 102, 94, 102, 9, 3, 131, 1, 61, 236, 76, 130, 49, 66, 130, 28, 61, 125, 92, 131,
    20, 21, 21, 25, 128, 0, 0, 13, 61, 209, 244, 240, 0, 0, 0]

theorem initOnly_length : initOnly.bytes.length = 240 := by
  set_option maxRecDepth 8000 in decide

theorem initOnly_accepted :
    validateGzipNewc (readerOf initOnlyStream initOnly.bytes (by decide)) initOnlyStream = .ok () :=
  ((validateGzipNewc_spec (readerOf_read _) (initOnly_length.trans_le (by decide))).1 initOnly
    initOnly_bootable rfl).mpr (by decide)

/-- The same archive with a file before `init` whose name takes 4097 bytes with its zero. -/
def longNamed : CpioArchive :=
  initOnly.cons (emptyProgram (List.replicate 4096 97) (ascii "00001001"))

def longNamedStream : Bytes :=
  [31, 139, 8, 0, 0, 0, 0, 0, 2, 3, 237, 216, 33, 14, 128, 48, 20, 131, 225, 119, 149, 119, 131,
    78, 144, 97, 17, 8, 18, 212, 194, 5, 32, 32, 102, 80, 220, 63, 204, 44, 112, 0, 64, 144, 255,
    83, 85, 173, 175, 162, 162, 130, 110, 218, 176, 173, 122, 80, 208, 213, 63, 3, 0, 0, 0, 0, 128,
    223, 51, 211, 235, 127, 67, 209, 212, 144, 247, 124, 124, 180, 185, 212, 48, 165, 110, 24, 251,
    228, 238, 86, 156, 135, 109, 227, 46, 96, 17, 0, 0]

theorem replicate_safe {n : ℕ} (hn : 2 < n) : isUnsafePath (List.replicate n 97) = false := by
  have hplain : ∀ b ∈ List.replicate n (97 : UInt8), b = 97 := fun b hb => List.eq_of_mem_replicate hb
  have hsplit : (List.replicate n (97 : UInt8)).splitOn 47 = [List.replicate n 97] := by
    rw [List.splitOn]
    refine List.splitOnP_eq_singleton fun b hb => ?_
    rw [hplain b hb]
    rfl
  have hparts : ∀ p : Bytes, p.length ≤ 2 → (List.replicate n 97 == p) = false := by
    intro p hp
    rw [beq_eq_false_iff_ne]
    rintro rfl
    rw [List.length_replicate] at hp
    omega
  have hzero : (0 : UInt8) ∉ List.replicate n (97 : UInt8) := fun h => by
    have := hplain 0 h
    contradiction
  have hhead : (List.replicate n (97 : UInt8)).head? = some 97 := by
    rw [List.head?_replicate, if_neg (by omega)]
  rw [isUnsafePath, hsplit, hhead]
  simp only [hzero, decide_false, Bool.false_or, List.any_cons, List.any_nil, Bool.or_false,
    hparts [] (by decide), hparts [46] (by decide), hparts [46, 46] (by decide)]
  rfl

theorem longNamed_bootable : longNamed.Bootable strictHex where
  toFormed := by
    refine initOnly_bootable.toFormed.cons
      (emptyProgram_fits rfl (by rw [List.length_replicate]; decide) (replicate_safe (by omega))) rfl ?_
    intro e he hsame
    have hlength := congrArg List.length hsame
    change e.name.length = (List.replicate 4096 (97 : UInt8)).length at hlength
    rw [List.length_replicate] at hlength
    have hall : ∀ e ∈ initOnly.all, e.name.length ≤ 10 := by decide
    have := hall e he
    omega
  count := by decide
  init := ⟨_, List.mem_cons_of_mem _ List.mem_cons_self, by decide⟩

/-- The limit on names keeps out an archive that has the form in every other respect. -/
theorem longNamed_refused :
    longNamed.Bootable strictHex ∧ longNamed.bytes.length ≤ maxCpioBytes ∧
      validateGzipNewc (readerOf longNamedStream longNamed.bytes (by decide)) longNamedStream ≠
        .ok () := by
  have hsize : longNamed.bytes.length ≤ maxCpioBytes := by
    have hfits := longNamed_bootable.fits _ List.mem_cons_self
    rw [longNamed, CpioArchive.bytes_cons, List.length_append, CpioEntry.bytes, List.length_append,
      length_body hfits]
    have hname : (emptyProgram (List.replicate 4096 97) (ascii "00001001")).name.length = 4096 :=
      List.length_replicate
    rw [initOnly_length, hname]
    decide
  refine ⟨longNamed_bootable, hsize, fun h => ?_⟩
  have hshort := short_of_accepted longNamed_bootable.loose (readerOf_read _) hsize h _
    List.mem_cons_self
  change (List.replicate 4096 (97 : UInt8)).length + 1 ≤ 4096 at hshort
  rw [List.length_replicate] at hshort
  omega

end ForgeOS.Boot
