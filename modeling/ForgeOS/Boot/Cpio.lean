import Mathlib.Data.Int.Bitwise
import Mathlib.Data.List.Nodup
import ForgeOS.Library.Slices
import ForgeOS.Python.Number

/-! `validate_gzip_newc`: which ramdisks may go into a boot image. The ramdisk is a gzip stream
of a cpio archive, whose entries begin with thirteen numbers in text form and are padded twice
to a multiple of four. What the archive has to look like is said once more without positions,
as a row of entries. -/

namespace ForgeOS.Boot

open ForgeOS.Python ForgeOS.Library.Slices

/-- Whether all bytes satisfy `p` is decided along the list, not over the type of bytes. -/
instance Bytes.decidableBall (p : UInt8 → Prop) [DecidablePred p] (bytes : Bytes) :
    Decidable (∀ b ∈ bytes, p b) :=
  List.decidableBAll p bytes

/-! ### Failures -/

inductive Failure
  /-- `BootImageError` -/
  | bootImage (message : String)
  /-- Any other exception. -/
  | other (exception : String)
  deriving DecidableEq, Repr

def check (p : Prop) [Decidable p] (message : String) : Except Failure Unit :=
  if p then .ok () else .error (.bootImage message)

/-- `_range` -/
def range (data : Bytes) (start : ℕ) (length : ℤ) (label : String) : Except Failure Bytes :=
  if length < 0 ∨ (data.length : ℤ) < start + length then
    .error (.bootImage ("truncated " ++ label))
  else .ok (slice data start length.toNat)

theorem bind_eq_ok {α β : Type} {x : Except Failure α} {f : α → Except Failure β} {b : β} :
    (x >>= f) = .ok b ↔ ∃ a, x = .ok a ∧ f a = .ok b := by
  cases x with
  | error e => simp [bind, Except.bind]
  | ok a => simp [bind, Except.bind]

theorem map_eq_ok {α β : Type} {x : Except Failure α} {f : α → β} {b : β} :
    x.map f = .ok b ↔ ∃ a, x = .ok a ∧ f a = b := by
  cases x with
  | error e => simp [Except.map]
  | ok a => simp [Except.map]

theorem check_eq_ok {p : Prop} [Decidable p] {message : String} {u : Unit} :
    check p message = .ok u ↔ p := by
  rw [check]
  split_ifs with h <;> simp [h]

theorem range_eq_ok {data : Bytes} {start : ℕ} {length : ℤ} {label : String} {b : Bytes} :
    range data start length label = .ok b ↔
      0 ≤ length ∧ start + length.toNat ≤ data.length ∧ b = slice data start length.toNat := by
  rw [range]
  split_ifs with h
  · simp only [false_iff, not_and]
    omega
  · rw [Except.ok.injEq, eq_comm (a := b)]
    constructor
    · intro hb
      exact ⟨by omega, by omega, hb⟩
    · exact fun hb => hb.2.2

/-! ### Reading -/

def ascii (text : String) : Bytes := text.toList.map fun c => UInt8.ofNat c.toNat

def maxCpioEntries : ℕ := 4096

def maxCpioBytes : ℕ := 64 * 1024 * 1024

def newcMagic : Bytes := ascii "070701"

def crcMagic : Bytes := ascii "070702"

def trailerName : Bytes := ascii "TRAILER!!!"

/-- A name that leaves the root of the archive, or names nothing in it. A name is compared
byte by byte, as decoding with `surrogateescape` loses no difference. -/
def isUnsafePath (name : Bytes) : Bool :=
  decide (0 ∈ name) || name.head? == some 47 ||
    (name.splitOn 47).any fun part => part == [] || part == [46] || part == [46, 46]

/-- What the validator reads of an entry. -/
structure CpioRead where
  name : Bytes
  mode : ℤ
  data : Bytes
  deriving DecidableEq, Repr

/-- The number in a header field, from the second to the fourteenth word of the header. -/
def headerNumber (header : Bytes) (i : ℕ) : Option ℤ := int16 (slice header (6 + 8 * i) 8)

/-- One round of the loop up to the payload, and where the next entry begins. -/
def readEntry (archive : Bytes) (names : List Bytes) (pos : ℕ) :
    Except Failure (CpioRead × ℕ) := do
  let header ← range archive pos 110 "cpio header"
  check (header.take 6 = newcMagic ∨ header.take 6 = crcMagic) "cpio is not newc/crc"
  check (∀ i ∈ List.range 13, (headerNumber header i).isSome) "non-hex cpio header"
  let mode := (headerNumber header 1).getD 0
  let size := (headerNumber header 6).getD 0
  let nameSize := (headerNumber header 11).getD 0
  check (1 ≤ nameSize ∧ nameSize ≤ 4096) "invalid cpio name length"
  let nameRaw ← range archive (pos + 110) nameSize "cpio name"
  check (nameRaw.getLast? = some 0) "unterminated cpio name"
  let name := nameRaw.dropLast
  check (name ∉ names ∧ isUnsafePath name = false) "unsafe cpio path"
  let dataStart := align (pos + 110 + nameSize.toNat) 4
  let data ← range archive dataStart size "cpio payload"
  pure ({ name, mode, data }, align (dataStart + size.toNat) 4)

/-- The loop over the entries, up to the trailer. -/
def walk (archive : Bytes) : ℕ → ℕ → List Bytes → Except Failure (List CpioRead)
  | 0, _, _ => .error (.bootImage "cpio entry limit exceeded")
  | remaining + 1, pos, names => do
    let (entry, next) ← readEntry archive names pos
    if entry.name = trailerName then
      check (entry.data = [] ∧ ∀ b ∈ archive.drop next, b = 0) "invalid cpio trailer"
      pure []
    else
      let entries ← walk archive remaining next (entry.name :: names)
      pure (entry :: entries)

/-- A regular file that may be executed. -/
def executable (mode : ℤ) : Bool :=
  Int.land mode 0o170000 == 0o100000 && Int.land mode 0o111 != 0

def CpioRead.isInit (e : CpioRead) : Bool := e.name == ascii "init" && executable e.mode

def readArchive (archive : Bytes) : Except Failure (List CpioRead) :=
  walk archive maxCpioEntries 0 []

def validateArchive (archive : Bytes) : Except Failure Unit := do
  let entries ← readArchive archive
  check (entries.any CpioRead.isInit) "cpio has no executable /init"

/-- How reading a gzip stream can fail. `OSError` and `EOFError` are told from the rest. -/
inductive GzipFailure
  | osError
  | eofError
  | other (exception : String)
  deriving DecidableEq, Repr

def gzipMagic : Bytes := [0x1f, 0x8b]

/-- A reader of gzip streams: what comes out of reading `MAX_CPIO_BYTES + 1` bytes. A stream
with anything in it begins with the two bytes of the format. -/
structure Gunzip where
  read : Bytes → Except GzipFailure Bytes
  magic : ∀ stream archive, read stream = .ok archive → archive ≠ [] → gzipMagic <+: stream

/-- `validate_gzip_newc` -/
def validateGzipNewc (gunzip : Gunzip) (ramdisk : Bytes) : Except Failure Unit := do
  check (gzipMagic <+: ramdisk) "ramdisk is not gzip"
  match gunzip.read ramdisk with
  | .error (.other exception) => .error (.other exception)
  | .error _ => .error (.bootImage "ramdisk gzip is invalid")
  | .ok archive =>
    check (archive.length ≤ maxCpioBytes) "cpio archive exceeds expanded limit"
    validateArchive archive

/-! ### Archives -/

/-- An entry of an archive, piece by piece. -/
structure CpioEntry where
  magic : Bytes
  fields : List Bytes
  name : Bytes
  namePad : Bytes
  data : Bytes
  dataPad : Bytes
  deriving DecidableEq, Repr

namespace CpioEntry

/-- Everything but the padding behind the payload. -/
def body (e : CpioEntry) : Bytes :=
  e.magic ++ (e.fields.flatten ++ (e.name ++ [0] ++ (e.namePad ++ e.data)))

def bytes (e : CpioEntry) : Bytes := e.body ++ e.dataPad

variable (number : Bytes → Option ℤ)

/-- The pieces fit together, when the header fields are read as `number` reads them. -/
structure Fits (e : CpioEntry) : Prop where
  magic : e.magic = newcMagic ∨ e.magic = crcMagic
  fields : e.fields.length = 13
  words : ∀ f ∈ e.fields, f.length = 8 ∧ (number f).isSome
  size : e.fields[6]?.bind number = some (e.data.length : ℤ)
  nameSize : e.fields[11]?.bind number = some (e.name.length + 1 : ℤ)
  namePad : e.namePad.length = padding (110 + (e.name.length + 1)) 4
  path : isUnsafePath e.name = false

/-- The name and the zero behind it take no more than 4096 bytes. -/
def Short (e : CpioEntry) : Prop := e.name.length + 1 ≤ 4096

def read (e : CpioEntry) : CpioRead where
  name := e.name
  mode := (e.fields[1]?.bind number).getD 0
  data := e.data

end CpioEntry

/-- Entries with a trailer and zeros behind them. -/
structure CpioArchive where
  entries : List CpioEntry
  trailer : CpioEntry
  zeros : ℕ

namespace CpioArchive

def all (a : CpioArchive) : List CpioEntry := a.entries ++ [a.trailer]

def bytes (a : CpioArchive) : Bytes :=
  a.entries.flatMap CpioEntry.bytes ++ (a.trailer.bytes ++ List.replicate a.zeros 0)

variable (number : Bytes → Option ℤ)

/-- The entries of an archive, without the demand for an `init`. -/
structure Formed (a : CpioArchive) : Prop where
  fits : ∀ e ∈ a.all, e.Fits number
  padded : ∀ e ∈ a.all, e.dataPad.length = padding e.data.length 4
  names : (a.all.map CpioEntry.name).Nodup
  trailer : a.trailer.name = trailerName ∧ a.trailer.data = []

/-- An archive that an appliance can boot from. -/
structure Bootable (a : CpioArchive) : Prop extends Formed number a where
  count : a.all.length ≤ maxCpioEntries
  init : ∃ e ∈ a.entries, (e.read number).isInit

end CpioArchive

/-! ### One entry -/

theorem pieces_flatten {e : CpioEntry} {number : Bytes → Option ℤ} (h : e.Fits number) :
    e.fields.flatten.length = 8 * 13 := by
  rw [List.length_flatten, List.map_congr_left (fun f hf => (h.words f hf).1), List.map_const',
    List.sum_replicate, h.fields]
  rfl

theorem length_magic {e : CpioEntry} {number : Bytes → Option ℤ} (h : e.Fits number) :
    e.magic.length = 6 := by
  rcases h.magic with hm | hm
  · rw [hm]
    rfl
  · rw [hm]
    rfl

theorem length_body {e : CpioEntry} {number : Bytes → Option ℤ} (h : e.Fits number) :
    e.body.length = 110 + (e.name.length + 1) + padding (110 + (e.name.length + 1)) 4 +
      e.data.length := by
  simp only [CpioEntry.body, List.length_append, List.length_singleton, length_magic h,
    pieces_flatten h, h.namePad]
  omega

/-- The header of an entry, as it stands in the archive. -/
theorem headerNumber_eq {e : CpioEntry} {number : Bytes → Option ℤ} (h : e.Fits number) {i : ℕ}
    (hi : i < 13) :
    headerNumber (e.magic ++ e.fields.flatten) i = e.fields[i]?.bind int16 := by
  have hlt : i < e.fields.length := by rw [h.fields]; exact hi
  have hslice : slice (e.magic ++ e.fields.flatten) (6 + 8 * i) 8 = e.fields[i] := by
    rw [← slice_drop, List.drop_left' (length_magic h)]
    exact slice_flatten (fun f hf => (h.words f hf).1) (List.getElem?_eq_getElem hlt)
  rw [headerNumber, hslice, List.getElem?_eq_getElem hlt]
  rfl

/-- What one round asks for, in order. -/
theorem readEntry_eq_ok {archive : Bytes} {names : List Bytes} {pos : ℕ} {out : CpioRead × ℕ} :
    readEntry archive names pos = .ok out ↔
      ∃ header nameRaw data,
        range archive pos 110 "cpio header" = .ok header ∧
        (header.take 6 = newcMagic ∨ header.take 6 = crcMagic) ∧
        (∀ i ∈ List.range 13, (headerNumber header i).isSome) ∧
        (1 ≤ (headerNumber header 11).getD 0 ∧ (headerNumber header 11).getD 0 ≤ 4096) ∧
        range archive (pos + 110) ((headerNumber header 11).getD 0) "cpio name" = .ok nameRaw ∧
        nameRaw.getLast? = some 0 ∧
        (nameRaw.dropLast ∉ names ∧ isUnsafePath nameRaw.dropLast = false) ∧
        range archive (align (pos + 110 + ((headerNumber header 11).getD 0).toNat) 4)
          ((headerNumber header 6).getD 0) "cpio payload" = .ok data ∧
        out = (⟨nameRaw.dropLast, (headerNumber header 1).getD 0, data⟩,
          align (align (pos + 110 + ((headerNumber header 11).getD 0).toNat) 4 +
            ((headerNumber header 6).getD 0).toNat) 4) := by
  simp only [readEntry, bind_eq_ok, check_eq_ok, exists_const, exists_and_left, pure, Except.pure,
    Except.ok.injEq, eq_comm (b := out)]

/-! ### Where the pieces stand -/

section Pieces

variable {archive : Bytes} {pos : ℕ} {e : CpioEntry} {number : Bytes → Option ℤ} {behind : Bytes}

theorem length_header (he : e.Fits number) : (e.magic ++ e.fields.flatten).length = 110 := by
  rw [List.length_append, length_magic he, pieces_flatten he]

theorem slice_header (he : e.Fits number) (harchive : archive.drop pos = e.body ++ behind) :
    slice archive pos 110 = e.magic ++ e.fields.flatten := by
  have hrow : archive.drop pos =
      [] ++ ((e.magic ++ e.fields.flatten) ++ (e.name ++ [0] ++ (e.namePad ++ e.data) ++ behind)) := by
    rw [harchive, CpioEntry.body]
    simp only [List.append_assoc, List.nil_append]
  exact slice_of_drop hrow rfl (length_header he)

theorem slice_name (he : e.Fits number) (harchive : archive.drop pos = e.body ++ behind) :
    slice archive (pos + 110) (e.name.length + 1) = e.name ++ [0] := by
  have hrow : archive.drop pos =
      (e.magic ++ e.fields.flatten) ++ ((e.name ++ [0]) ++ (e.namePad ++ e.data ++ behind)) := by
    rw [harchive, CpioEntry.body]
    simp only [List.append_assoc]
  exact slice_of_drop hrow (by rw [length_header he]) (by simp)

theorem align_name (hpos : 4 ∣ pos) (e : CpioEntry) :
    align (pos + 110 + (e.name.length + 1)) 4 =
      pos + (110 + (e.name.length + 1) + padding (110 + (e.name.length + 1)) 4) := by
  rw [Nat.add_assoc, align_add (by omega) hpos, align_eq (by omega)]

theorem slice_data (he : e.Fits number) (hpos : 4 ∣ pos)
    (harchive : archive.drop pos = e.body ++ behind) :
    slice archive (align (pos + 110 + (e.name.length + 1)) 4) e.data.length = e.data := by
  have hrow : archive.drop pos =
      (e.magic ++ e.fields.flatten ++ (e.name ++ [0]) ++ e.namePad) ++ (e.data ++ behind) := by
    rw [harchive, CpioEntry.body]
    simp only [List.append_assoc]
  refine slice_of_drop hrow ?_ rfl
  rw [align_name hpos, List.length_append, List.length_append, length_header he, he.namePad]
  simp

/-- The next entry begins behind the body and its padding. -/
theorem align_data (he : e.Fits number) (hpos : 4 ∣ pos) :
    align (align (pos + 110 + (e.name.length + 1)) 4 + e.data.length) 4 =
      pos + e.body.length + padding e.data.length 4 := by
  rw [align_add (by omega) (dvd_align _ _), align_eq (by omega) e.data.length, align_name hpos,
    length_body he]
  omega

theorem body_end (he : e.Fits number) (harchive : archive.drop pos = e.body ++ behind) :
    pos + e.body.length ≤ archive.length := by
  have hlength := length_body he
  have h := congrArg List.length harchive
  rw [List.length_drop, List.length_append] at h
  omega

theorem header_size (he : e.Fits int16) :
    (headerNumber (e.magic ++ e.fields.flatten) 6).getD 0 = e.data.length := by
  rw [headerNumber_eq he (by omega), he.size, Option.getD_some]

theorem header_nameSize (he : e.Fits int16) :
    (headerNumber (e.magic ++ e.fields.flatten) 11).getD 0 = e.name.length + 1 := by
  rw [headerNumber_eq he (by omega), he.nameSize, Option.getD_some]

end Pieces

/-- An entry that stands in the archive is read as it is. -/
theorem readEntry_of_body {archive : Bytes} {names : List Bytes} {pos : ℕ} (hpos : 4 ∣ pos)
    {e : CpioEntry} (he : e.Fits int16) (hshort : e.Short) (hname : e.name ∉ names)
    {behind : Bytes} (harchive : archive.drop pos = e.body ++ behind) :
    readEntry archive names pos =
      .ok (e.read int16, pos + e.body.length + padding e.data.length 4) := by
  have hlength := length_body he
  have hend := body_end he harchive
  have hdataStart := align_name hpos e
  have hnat : (e.name.length + 1 : ℤ).toNat = e.name.length + 1 := by omega
  rw [readEntry_eq_ok]
  refine ⟨e.magic ++ e.fields.flatten, e.name ++ [0], e.data, ?_, ?_, ?_, ?_, ?_, ?_, ?_, ?_, ?_⟩
  · rw [range_eq_ok]
    refine ⟨by omega, ?_, (slice_header he harchive).symm⟩
    change pos + 110 ≤ archive.length
    omega
  · rw [List.take_left' (length_magic he)]
    exact he.magic
  · intro i hi
    have hi' : i < 13 := List.mem_range.mp hi
    have hlt : i < e.fields.length := by rw [he.fields]; exact hi'
    rw [headerNumber_eq he hi', List.getElem?_eq_getElem hlt]
    exact (he.words _ (List.getElem_mem hlt)).2
  · rw [header_nameSize he]
    have hshort' : e.name.length + 1 ≤ 4096 := hshort
    omega
  · rw [header_nameSize he, range_eq_ok, hnat]
    refine ⟨by omega, ?_, (slice_name he harchive).symm⟩
    omega
  · simp
  · rw [List.dropLast_concat]
    exact ⟨hname, he.path⟩
  · rw [header_nameSize he, hnat, header_size he, range_eq_ok, Int.toNat_natCast]
    refine ⟨by omega, ?_, (slice_data he hpos harchive).symm⟩
    omega
  · rw [header_nameSize he, hnat, header_size he, Int.toNat_natCast, align_data he hpos,
      List.dropLast_concat, headerNumber_eq he (by omega)]
    rfl

/-- What the round has accepted of an entry that stands in the archive. -/
theorem accepted_of_readEntry {archive : Bytes} {names : List Bytes} {pos : ℕ} {e : CpioEntry}
    (he : e.Fits int16) {behind : Bytes} (harchive : archive.drop pos = e.body ++ behind)
    {out : CpioRead × ℕ} (h : readEntry archive names pos = .ok out) :
    e.Short ∧ e.name ∉ names := by
  obtain ⟨header, nameRaw, -, hheader, -, -, hnameSize, hnameRaw, -, hpath, -⟩ := readEntry_eq_ok.mp h
  obtain ⟨-, -, hheader⟩ := range_eq_ok.mp hheader
  obtain ⟨-, -, hnameRaw⟩ := range_eq_ok.mp hnameRaw
  have hnat : (e.name.length + 1 : ℤ).toNat = e.name.length + 1 := by omega
  rw [hheader.trans (slice_header he harchive), header_nameSize he] at hnameSize hnameRaw
  rw [hnat, slice_name he harchive] at hnameRaw
  rw [hnameRaw, List.dropLast_concat] at hpath
  refine ⟨?_, hpath.1⟩
  change e.name.length + 1 ≤ 4096
  omega

/-- What has been read is an entry that stands in the archive. -/
theorem body_of_readEntry {archive : Bytes} {names : List Bytes} {pos next : ℕ} (hpos : 4 ∣ pos)
    {r : CpioRead} (h : readEntry archive names pos = .ok (r, next)) :
    ∃ e : CpioEntry, ∃ behind, e.Fits int16 ∧ e.Short ∧ e.name ∉ names ∧
      archive.drop pos = e.body ++ behind ∧ r = e.read int16 ∧
      next = pos + e.body.length + padding e.data.length 4 := by
  obtain ⟨header, nameRaw, data, hheader, hmagic, hnumbers, hnameSize, hnameRaw, hzero,
    ⟨hfresh, hpath⟩, hdata, hout⟩ := readEntry_eq_ok.mp h
  obtain ⟨-, hheaderEnd, hheader⟩ := range_eq_ok.mp hheader
  obtain ⟨-, hnameEnd, hnameRaw⟩ := range_eq_ok.mp hnameRaw
  obtain ⟨hsize, hdataEnd, hdata⟩ := range_eq_ok.mp hdata
  change header = slice archive pos 110 at hheader
  change pos + 110 ≤ archive.length at hheaderEnd
  obtain ⟨nameSize, hname⟩ := Int.eq_ofNat_of_zero_le (show 0 ≤ (headerNumber header 11).getD 0 by omega)
  obtain ⟨size, hsize⟩ := Int.eq_ofNat_of_zero_le hsize
  rw [hname] at hnameSize hnameRaw hnameEnd hdata hdataEnd hout
  rw [hsize] at hdata hdataEnd hout
  simp only [Int.toNat_natCast] at hnameRaw hnameEnd hdata hdataEnd hout
  obtain ⟨hr, hnext⟩ := Prod.mk.inj hout
  have hheaderLength : header.length = 110 := by rw [hheader, length_slice hheaderEnd]
  have hnameLength : nameRaw.length = nameSize := by rw [hnameRaw, length_slice hnameEnd]
  have hdataLength : data.length = size := by rw [hdata, length_slice hdataEnd]
  have hnameSplit : nameRaw.dropLast ++ [0] = nameRaw := List.dropLast_append_getLast? 0 hzero
  have hnameDrop : nameRaw.dropLast.length + 1 = nameSize := by
    rw [← hnameLength, ← hnameSplit]
    simp
  have hwords : ((header.drop 6).length) = 8 * 13 := by
    rw [List.length_drop, hheaderLength]
  have hdataStart : align (pos + 110 + nameSize) 4 =
      pos + 110 + nameSize + padding (110 + nameSize) 4 := by
    rw [Nat.add_assoc, align_add (by omega) hpos, align_eq (by omega)]
    omega
  have hpadEnd : pos + 110 + nameSize + padding (110 + nameSize) 4 ≤ archive.length := by omega
  have hfield : ∀ i < 13, (pieces (header.drop 6) 8 13)[i]?.bind int16 = headerNumber header i := by
    intro i hi
    rw [getElem?_pieces hi, slice_drop]
    rfl
  let e : CpioEntry :=
    { magic := header.take 6
      fields := pieces (header.drop 6) 8 13
      name := nameRaw.dropLast
      namePad := slice archive (pos + 110 + nameSize) (padding (110 + nameSize) 4)
      data
      dataPad := [] }
  have hfits : e.Fits int16 := by
    constructor
    · exact hmagic
    · exact length_pieces _ 8 13
    · intro f hf
      refine ⟨length_of_mem_pieces hwords hf, ?_⟩
      obtain ⟨i, hi, rfl⟩ := List.mem_map.mp hf
      have hi' : i < 13 := List.mem_range.mp hi
      rw [slice_drop]
      exact hnumbers i hi
    · rw [hfield 6 (by omega), hdataLength, ← hsize]
      obtain ⟨n, hn⟩ := Option.isSome_iff_exists.mp (hnumbers 6 (by decide))
      rw [hn, Option.getD_some]
    · obtain ⟨n, hn⟩ := Option.isSome_iff_exists.mp (hnumbers 11 (by decide))
      have hcast : (nameRaw.dropLast.length + 1 : ℤ) = nameSize := by exact_mod_cast hnameDrop
      rw [hfield 11 (by omega), hcast, ← hname, hn, Option.getD_some]
    · change (slice archive (pos + 110 + nameSize) (padding (110 + nameSize) 4)).length =
        padding (110 + (nameRaw.dropLast.length + 1)) 4
      rw [hnameDrop, length_slice hpadEnd]
    · exact hpath
  have hbody : archive.drop pos = e.body ++ archive.drop (align (pos + 110 + nameSize) 4 + size) := by
    rw [drop_eq_slice_append archive pos 110, ← hheader,
      drop_eq_slice_append archive (pos + 110) nameSize, ← hnameRaw,
      drop_eq_slice_append archive (pos + 110 + nameSize) (padding (110 + nameSize) 4),
      ← hdataStart, drop_eq_slice_append archive (align (pos + 110 + nameSize) 4) size, ← hdata]
    simp only [CpioEntry.body, e, hnameSplit, flatten_pieces hwords, List.append_assoc]
    rw [← List.append_assoc (header.take 6), List.take_append_drop]
  have hlength := length_body hfits
  refine ⟨e, _, hfits, ?_, hfresh, hbody, ?_, ?_⟩
  · change nameRaw.dropLast.length + 1 ≤ 4096
    omega
  · rw [hr]
    change _ = CpioRead.mk nameRaw.dropLast (((pieces (header.drop 6) 8 13)[1]?.bind int16).getD 0) data
    rw [hfield 1 (by omega)]
  · have hname' : e.name.length + 1 = nameSize := hnameDrop
    have hdata' : e.data.length = size := hdataLength
    rw [hnext, align_add (by omega) (dvd_align _ _), align_eq (by omega) size, hdataStart, hlength,
      hname', hdata']
    omega

/-! ### The whole walk -/

/-- Nothing but its length depends on the padding. -/
theorem CpioEntry.Fits.pad {e : CpioEntry} {number : Bytes → Option ℤ} (h : e.Fits number)
    (dataPad : Bytes) : ({ e with dataPad := dataPad } : CpioEntry).Fits number :=
  ⟨h.magic, h.fields, h.words, h.size, h.nameSize, h.namePad, h.path⟩

namespace CpioArchive

/-- The archive with one more entry before the others. -/
def cons (e : CpioEntry) (a : CpioArchive) : CpioArchive := { a with entries := e :: a.entries }

theorem all_cons (e : CpioEntry) (a : CpioArchive) : (a.cons e).all = e :: a.all := rfl

theorem bytes_cons (e : CpioEntry) (a : CpioArchive) : (a.cons e).bytes = e.bytes ++ a.bytes := by
  rw [bytes, cons, List.flatMap_cons, List.append_assoc]
  rfl

variable {number : Bytes → Option ℤ} {a : CpioArchive} {e : CpioEntry}

theorem Formed.cons (h : a.Formed number) (he : e.Fits number)
    (hpad : e.dataPad.length = padding e.data.length 4) (hname : ∀ e' ∈ a.all, e'.name ≠ e.name) :
    (a.cons e).Formed number where
  fits := List.forall_mem_cons.mpr ⟨he, h.fits⟩
  padded := List.forall_mem_cons.mpr ⟨hpad, h.padded⟩
  names := by
    refine List.nodup_cons.mpr ⟨fun hmem => ?_, h.names⟩
    obtain ⟨e', he', hsame⟩ := List.mem_map.mp hmem
    exact hname e' he' hsame
  trailer := h.trailer

theorem Formed.of_cons (h : (a.cons e).Formed number) :
    a.Formed number ∧ e.Fits number ∧ e.dataPad.length = padding e.data.length 4 ∧
      ∀ e' ∈ a.all, e'.name ≠ e.name := by
  obtain ⟨he, hfits⟩ := List.forall_mem_cons.mp h.fits
  obtain ⟨hpad, hpadded⟩ := List.forall_mem_cons.mp h.padded
  obtain ⟨hname, hnames⟩ := List.nodup_cons.mp h.names
  exact ⟨⟨hfits, hpadded, hnames, h.trailer⟩, he, hpad, fun e' he' hsame =>
    hname (List.mem_map.mpr ⟨e', he', hsame⟩)⟩

theorem formed_trailer (he : e.Fits number) (hpad : e.dataPad = []) (hname : e.name = trailerName)
    (hdata : e.data = []) (zeros : ℕ) : (CpioArchive.mk [] e zeros).Formed number where
  fits := List.forall_mem_singleton.mpr he
  padded := List.forall_mem_singleton.mpr (by rw [hpad, hdata]; rfl)
  names := List.nodup_singleton _
  trailer := ⟨hname, hdata⟩

end CpioArchive

theorem body_ne_nil {e : CpioEntry} {number : Bytes → Option ℤ} (h : e.Fits number) :
    0 < e.body.length := by
  rw [length_body h]
  omega

theorem dvd_bytes {e : CpioEntry} {number : Bytes → Option ℤ} (h : e.Fits number)
    (hpad : e.dataPad.length = padding e.data.length 4) : 4 ∣ e.bytes.length := by
  have hname := align_eq (show 0 < 4 by omega) (110 + (e.name.length + 1))
  have hdata := align_eq (show 0 < 4 by omega) e.data.length
  have hname' := dvd_align (110 + (e.name.length + 1)) 4
  have hdata' := dvd_align e.data.length 4
  rw [CpioEntry.bytes, List.length_append, length_body h, hpad]
  omega

/-- An entry with its padding: the next one begins right behind it. -/
theorem readEntry_of_bytes {archive : Bytes} {names : List Bytes} {pos : ℕ} (hpos : 4 ∣ pos)
    {e : CpioEntry} (he : e.Fits int16) (hpad : e.dataPad.length = padding e.data.length 4)
    (hshort : e.Short) (hname : e.name ∉ names) {behind : Bytes}
    (harchive : archive.drop pos = e.bytes ++ behind) :
    readEntry archive names pos = .ok (e.read int16, pos + e.bytes.length) ∧
      archive.drop (pos + e.bytes.length) = behind := by
  have hbody : archive.drop pos = e.body ++ (e.dataPad ++ behind) := by
    rw [harchive, CpioEntry.bytes, List.append_assoc]
  constructor
  · rw [readEntry_of_body hpos he hshort hname hbody, CpioEntry.bytes, List.length_append, hpad,
      Nat.add_assoc]
  · rw [← List.drop_drop, harchive, List.drop_left]

/-- One round of the loop that reads a trailer. -/
theorem walk_trailer {archive : Bytes} {remaining pos next : ℕ} {names : List Bytes} {r : CpioRead}
    (h : readEntry archive names pos = .ok (r, next)) (hname : r.name = trailerName) :
    walk archive (remaining + 1) pos names =
      (check (r.data = [] ∧ ∀ b ∈ archive.drop next, b = 0) "invalid cpio trailer").map
        fun _ => [] := by
  rw [walk, h]
  simp only [bind, Except.bind, if_pos hname]
  cases check (r.data = [] ∧ ∀ b ∈ archive.drop next, b = 0) "invalid cpio trailer" <;> rfl

/-- One round of the loop that reads another entry. -/
theorem walk_entry {archive : Bytes} {remaining pos next : ℕ} {names : List Bytes} {r : CpioRead}
    (h : readEntry archive names pos = .ok (r, next)) (hname : r.name ≠ trailerName) :
    walk archive (remaining + 1) pos names =
      (walk archive remaining next (r.name :: names)).map (r :: ·) := by
  rw [walk, h]
  simp only [bind, Except.bind, if_neg hname]
  cases walk archive remaining next (r.name :: names) <;> rfl

/-- The entries of an archive that stands at a position are read in order. -/
theorem walk_of_formed {archive : Bytes} {a : CpioArchive} (ha : a.Formed int16)
    (hshort : ∀ e ∈ a.all, e.Short) {pos remaining : ℕ} {names : List Bytes} (hpos : 4 ∣ pos)
    (harchive : archive.drop pos = a.bytes) (hcount : a.all.length ≤ remaining)
    (hnames : ∀ e ∈ a.all, e.name ∉ names) :
    walk archive remaining pos names = .ok (a.entries.map (CpioEntry.read int16)) := by
  obtain ⟨entries, trailer, zeros⟩ := a
  induction entries generalizing pos remaining names with
  | nil =>
    obtain ⟨remaining, rfl⟩ := Nat.exists_eq_add_of_le' hcount
    have htrailer : trailer ∈ (CpioArchive.mk [] trailer zeros).all := List.mem_singleton_self _
    obtain ⟨hread, hzeros⟩ := readEntry_of_bytes hpos (ha.fits trailer htrailer)
      (ha.padded trailer htrailer) (hshort trailer htrailer) (hnames trailer htrailer) harchive
    have hcheck : check ((trailer.read int16).data = [] ∧
        ∀ b ∈ archive.drop (pos + trailer.bytes.length), b = 0) "invalid cpio trailer" = .ok () := by
      rw [check_eq_ok, hzeros]
      exact ⟨ha.trailer.2, fun b hb => List.eq_of_mem_replicate hb⟩
    rw [CpioArchive.all, List.nil_append, List.length_singleton, walk_trailer hread ha.trailer.1,
      hcheck]
    rfl
  | cons e entries ih =>
    obtain ⟨ha', he, hpad, hne⟩ :=
      CpioArchive.Formed.of_cons (a := ⟨entries, trailer, zeros⟩) (e := e) ha
    have hall : e ∈ (CpioArchive.mk (e :: entries) trailer zeros).all := List.mem_cons_self
    obtain ⟨hread, hrest⟩ := readEntry_of_bytes hpos he hpad (hshort e hall) (hnames e hall)
      (harchive.trans (CpioArchive.bytes_cons e ⟨entries, trailer, zeros⟩))
    have hneTrailer : e.name ≠ trailerName := fun h =>
      hne trailer (List.mem_append_right _ (List.mem_singleton_self _)) (ha.trailer.1.trans h.symm)
    obtain ⟨remaining, rfl⟩ := Nat.exists_eq_add_of_le' hcount
    have hnames' : ∀ e' ∈ (CpioArchive.mk entries trailer zeros).all,
        e'.name ∉ (e.read int16).name :: names := by
      intro e' he'
      rw [List.mem_cons, not_or]
      exact ⟨hne e' he', hnames e' (List.mem_cons_of_mem _ he')⟩
    have hlength : (CpioArchive.mk (e :: entries) trailer zeros).all.length =
        (CpioArchive.mk entries trailer zeros).all.length + 1 := rfl
    have hwalk := ih (Nat.dvd_add hpos (dvd_bytes he hpad)) ha'
      (fun e' he' => hshort e' (List.mem_cons_of_mem _ he')) hrest (Nat.le_add_left _ remaining)
      hnames'
    rw [hlength, ← Nat.add_assoc, walk_entry hread hneTrailer, hwalk]
    rfl

/-- What has been walked through is an archive that stands at the position. -/
theorem formed_of_walk {archive : Bytes} {remaining pos : ℕ} {names : List Bytes} (hpos : 4 ∣ pos)
    {reads : List CpioRead} (h : walk archive remaining pos names = .ok reads) :
    ∃ a : CpioArchive, a.Formed int16 ∧ (∀ e ∈ a.all, e.Short) ∧
      archive.drop pos = a.bytes ∧ a.all.length ≤ remaining ∧ (∀ e ∈ a.all, e.name ∉ names) ∧
      reads = a.entries.map (CpioEntry.read int16) := by
  induction remaining generalizing pos names reads with
  | zero => simp [walk] at h
  | succ remaining ih =>
    obtain ⟨⟨r, next⟩, hread⟩ : ∃ out, readEntry archive names pos = .ok out := by
      rw [walk] at h
      obtain ⟨out, hout, -⟩ := bind_eq_ok.mp h
      exact ⟨out, hout⟩
    obtain ⟨e, behind, hfits, hshort, hname, harchive, hr, hnext⟩ := body_of_readEntry hpos hread
    have hdrop : archive.drop (pos + e.body.length) = behind := by
      rw [← List.drop_drop, harchive, List.drop_left]
    subst hr
    by_cases htrailer : e.name = trailerName
    · rw [walk_trailer hread htrailer] at h
      obtain ⟨_, hcheck, hreads⟩ := map_eq_ok.mp h
      obtain ⟨hdata, hzeros⟩ := check_eq_ok.mp hcheck
      have hnone : padding e.data.length 4 = 0 := by
        rw [show e.data = [] from hdata]
        rfl
      have hbehind : behind = List.replicate behind.length 0 := by
        refine List.eq_replicate_of_mem fun b hb => hzeros b ?_
        rw [hnext, hnone, Nat.add_zero, hdrop]
        exact hb
      refine ⟨⟨[], { e with dataPad := [] }, behind.length⟩,
        CpioArchive.formed_trailer (hfits.pad []) rfl htrailer hdata _,
        List.forall_mem_singleton.mpr hshort, ?_, Nat.le_add_left 1 remaining,
        List.forall_mem_singleton.mpr hname, hreads.symm⟩
      rw [harchive, CpioArchive.bytes, CpioEntry.bytes, ← hbehind, List.append_nil]
      rfl
    · rw [walk_entry hread htrailer] at h
      obtain ⟨reads', hwalk, hreads⟩ := map_eq_ok.mp h
      have hdvd : 4 ∣ next := by
        have hbytes := dvd_bytes (hfits.pad (List.replicate (padding e.data.length 4) 0))
          List.length_replicate
        rw [CpioEntry.bytes, List.length_append, List.length_replicate] at hbytes
        rw [hnext, Nat.add_assoc]
        exact Nat.dvd_add hpos hbytes
      obtain ⟨a, hformed, hshorts, hrest, hcount, hnames, rfl⟩ := ih hdvd hwalk
      -- the padding of this entry lies inside the archive, as another entry follows it
      have hlt : next < archive.length := by
        have hlength := congrArg List.length hrest
        have hbody := body_ne_nil (hformed.fits a.trailer
          (List.mem_append_right _ (List.mem_singleton_self _)))
        rw [CpioArchive.bytes, CpioEntry.bytes, List.length_drop] at hlength
        simp only [List.length_append] at hlength
        omega
      have hpadEnd : pos + e.body.length + padding e.data.length 4 ≤ archive.length := by omega
      refine ⟨a.cons { e with
          dataPad := slice archive (pos + e.body.length) (padding e.data.length 4) },
        hformed.cons (hfits.pad _) (length_slice hpadEnd) fun e' he' hsame => ?_,
        List.forall_mem_cons.mpr ⟨hshort, hshorts⟩, ?_, ?_,
        List.forall_mem_cons.mpr ⟨hname, fun e' he' hmem => ?_⟩, ?_⟩
      · refine hnames e' he' ?_
        rw [hsame]
        exact List.mem_cons_self
      · rw [CpioArchive.bytes_cons, ← hrest, hnext, CpioEntry.bytes, List.append_assoc,
          ← drop_eq_slice_append, hdrop]
        exact harchive
      · rw [CpioArchive.all_cons, List.length_cons]
        omega
      · exact hnames e' he' (List.mem_cons_of_mem _ hmem)
      · rw [← hreads]
        rfl

end ForgeOS.Boot
