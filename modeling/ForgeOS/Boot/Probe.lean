import ForgeOS.Boot.Ramdisk

/-! `build_probe.archive`, which writes the ramdisk of the hardware probe. It pads the text it
has written so far, where the validator computes positions. What it writes is an archive in the
strict form, so the validator accepts it and reads the same entries from it. -/

namespace ForgeOS.Boot

open ForgeOS.Python ForgeOS.Library.Slices

/-! ### Writing -/

structure ProbeEntry where
  name : String
  mode : ℕ
  data : Bytes
  deriving DecidableEq

/-- `name.encode()` -/
def encode (name : String) : Bytes := name.toUTF8.data.toList

/-- `result + b'\0' * (-len(result) % 4)` -/
def padded (result : Bytes) : Bytes :=
  result ++ List.replicate ((-(result.length : ℤ)) % 4).toNat 0

namespace ProbeEntry

def encoded (e : ProbeEntry) : Bytes := encode e.name ++ [0]

def fields (e : ProbeEntry) (number : ℕ) : List ℕ :=
  let device := if e.name = "dev/kmsg" then [1, 11] else [0, 0]
  [number, e.mode, 0, 0, 1, 0, e.data.length, 0, 0] ++ device ++ [e.encoded.length, 0]

/-- One round of the loop. -/
def append (result : Bytes) (e : ProbeEntry) (number : ℕ) : Bytes :=
  let header := newcMagic ++ ((e.fields number).map format08x).flatten ++ e.encoded
  padded (padded (result ++ header) ++ e.data)

end ProbeEntry

def probeTrailer : ProbeEntry where
  name := "TRAILER!!!"
  mode := 0
  data := []

/-- What `archive` compresses. -/
def probeCpio (entries : List ProbeEntry) : Bytes :=
  ((entries ++ [probeTrailer]).zipIdx 1).foldl (fun result p => p.1.append result p.2) []

/-- A `gzip` that loses nothing: of what was compressed, a reader gets the whole, up to the
number of bytes it asks for. -/
structure Gzip extends Gunzip where
  compress : Bytes → Bytes
  read_compress : ∀ archive, read (compress archive) = .ok (archive.take (maxCpioBytes + 1))

/-- `archive` -/
def probeArchive (gzip : Gzip) (entries : List ProbeEntry) : Bytes :=
  gzip.compress (probeCpio entries)

/-! ### What is written -/

/-- The entry piece by piece. -/
def ProbeEntry.toCpio (e : ProbeEntry) (number : ℕ) : CpioEntry where
  magic := newcMagic
  fields := (e.fields number).map format08x
  name := encode e.name
  namePad := List.replicate (padding (110 + ((encode e.name).length + 1)) 4) 0
  data := e.data
  dataPad := List.replicate (padding e.data.length 4) 0

def probeCpioArchive (entries : List ProbeEntry) : CpioArchive where
  entries := (entries.zipIdx 1).map fun p => p.1.toCpio p.2
  trailer := probeTrailer.toCpio (entries.length + 1)
  zeros := 0

theorem padded_eq (result : Bytes) :
    padded result = result ++ List.replicate (padding result.length 4) 0 := by
  have hmod : ((-(result.length : ℤ)) % 4).toNat = padding result.length 4 := by
    rw [padding, align]
    omega
  rw [padded, hmod]

section Entry

variable {e : ProbeEntry} {number : ℕ}

theorem length_fields (e : ProbeEntry) (number : ℕ) : (e.fields number).length = 13 := by
  rw [ProbeEntry.fields]
  split_ifs <;> rfl

/-- Every number of an entry fits in its field. -/
theorem fields_lt (hnumber : number < 2 ^ 32) (hmode : e.mode < 2 ^ 32)
    (hdata : e.data.length < 2 ^ 32) (hname : (encode e.name).length + 1 < 2 ^ 32) :
    ∀ n ∈ e.fields number, n < 2 ^ 32 := by
  have hencoded : e.encoded.length < 2 ^ 32 := by
    rw [ProbeEntry.encoded, List.length_append]
    exact hname
  rw [ProbeEntry.fields]
  split_ifs
  · simp only [List.cons_append, List.nil_append, List.forall_mem_cons, List.not_mem_nil,
      IsEmpty.forall_iff, implies_true, and_true]
    omega
  · simp only [List.cons_append, List.nil_append, List.forall_mem_cons, List.not_mem_nil,
      IsEmpty.forall_iff, implies_true, and_true]
    omega

theorem fields_mode (e : ProbeEntry) (number : ℕ) : (e.fields number)[1]? = some e.mode := rfl

theorem fields_size (e : ProbeEntry) (number : ℕ) :
    (e.fields number)[6]? = some e.data.length := rfl

theorem fields_nameSize (e : ProbeEntry) (number : ℕ) :
    (e.fields number)[11]? = some ((encode e.name).length + 1) := by
  rw [ProbeEntry.fields, ProbeEntry.encoded, List.length_append]
  split_ifs <;> rfl

theorem length_toCpio_fields (hfields : ∀ n ∈ e.fields number, n < 2 ^ 32) :
    ((e.fields number).map format08x).flatten.length = 8 * 13 := by
  have hwords : ∀ f ∈ (e.fields number).map format08x, f.length = 8 := by
    intro f hf
    obtain ⟨n, hn, rfl⟩ := List.mem_map.mp hf
    exact length_format08x (hfields n hn)
  rw [List.length_flatten, List.map_congr_left hwords, List.map_const', List.sum_replicate,
    List.length_map, length_fields]
  rfl

/-- The number that the validator reads in a field. -/
theorem toCpio_field (hfields : ∀ n ∈ e.fields number, n < 2 ^ 32) {i n : ℕ}
    (hn : (e.fields number)[i]? = some n) :
    (e.toCpio number).fields[i]?.bind strictHex = some (n : ℤ) := by
  rw [ProbeEntry.toCpio, List.getElem?_map, hn]
  exact strictHex_format08x (hfields n (List.mem_of_getElem? hn))

theorem toCpio_fits (hfields : ∀ n ∈ e.fields number, n < 2 ^ 32)
    (hsafe : isUnsafePath (encode e.name) = false) : (e.toCpio number).Fits strictHex where
  magic := .inl rfl
  fields := by rw [ProbeEntry.toCpio, List.length_map, length_fields]
  words := by
    intro f hf
    obtain ⟨n, hn, rfl⟩ := List.mem_map.mp hf
    rw [strictHex_format08x (hfields n hn)]
    exact ⟨length_format08x (hfields n hn), rfl⟩
  size := toCpio_field hfields (fields_size e number)
  nameSize := by
    rw [toCpio_field hfields (fields_nameSize e number), Nat.cast_add]
    rfl
  namePad := List.length_replicate
  path := hsafe

/-- The reading of a written entry. -/
def ProbeEntry.reading (e : ProbeEntry) : CpioRead where
  name := encode e.name
  mode := e.mode
  data := e.data

theorem toCpio_read (hfields : ∀ n ∈ e.fields number, n < 2 ^ 32) :
    (e.toCpio number).read strictHex = e.reading := by
  rw [CpioEntry.read, toCpio_field hfields (fields_mode e number)]
  rfl

/-- Behind a multiple of four, a round appends the entry. -/
theorem append_eq (hfields : ∀ n ∈ e.fields number, n < 2 ^ 32) {result : Bytes}
    (hresult : 4 ∣ result.length) : e.append result number = result ++ (e.toCpio number).bytes := by
  have hheader : (newcMagic ++ ((e.fields number).map format08x).flatten ++ e.encoded).length =
      110 + ((encode e.name).length + 1) := by
    rw [List.length_append, List.length_append, length_toCpio_fields hfields, ProbeEntry.encoded,
      List.length_append]
    rfl
  have hname : 4 ∣ 110 + ((encode e.name).length + 1) +
      padding (110 + ((encode e.name).length + 1)) 4 := by
    rw [← align_eq (by omega)]
    exact dvd_align _ 4
  rw [ProbeEntry.append, padded_eq (result ++ _), List.length_append, hheader, padding_add (by omega) hresult,
    padded_eq]
  simp only [List.length_append, hheader, List.length_replicate]
  rw [Nat.add_assoc result.length, padding_add (by omega) (Nat.dvd_add hresult hname)]
  simp only [CpioEntry.bytes, CpioEntry.body, ProbeEntry.toCpio, ProbeEntry.encoded,
    List.append_assoc]

end Entry

/-- The loop writes the entries one behind the other. -/
theorem foldl_append {numbered : List (ProbeEntry × ℕ)} {result : Bytes}
    (hfields : ∀ p ∈ numbered, ∀ n ∈ p.1.fields p.2, n < 2 ^ 32)
    (hsafe : ∀ p ∈ numbered, isUnsafePath (encode p.1.name) = false)
    (hresult : 4 ∣ result.length) :
    numbered.foldl (fun result p => p.1.append result p.2) result =
      result ++ (numbered.map fun p => p.1.toCpio p.2).flatMap CpioEntry.bytes := by
  induction numbered generalizing result with
  | nil => simp
  | cons p numbered ih =>
    obtain ⟨hp, hfields⟩ := List.forall_mem_cons.mp hfields
    obtain ⟨hpath, hsafe⟩ := List.forall_mem_cons.mp hsafe
    have hdvd : 4 ∣ (p.1.append result p.2).length := by
      rw [append_eq hp hresult, List.length_append]
      exact Nat.dvd_add hresult (dvd_bytes (toCpio_fits hp hpath) List.length_replicate)
    rw [List.foldl_cons, ih hfields hsafe hdvd, append_eq hp hresult, List.map_cons,
      List.flatMap_cons, List.append_assoc]

/-! ### The whole archive -/

theorem encode_injective : Function.Injective encode := by
  intro s t h
  rw [encode, encode, Array.toList_inj] at h
  exact String.toByteArray_inj.mp (ByteArray.ext h)

theorem encode_trailer : encode probeTrailer.name = trailerName := by decide

theorem encode_init : encode "init" = ascii "init" := by decide

/-- The entries that a probe may be built from. -/
structure Writable (entries : List ProbeEntry) : Prop where
  count : entries.length < maxCpioEntries
  distinct : (entries.map ProbeEntry.name).Nodup
  safe : ∀ e ∈ entries, isUnsafePath (encode e.name) = false
  notTrailer : ∀ e ∈ entries, e.name ≠ "TRAILER!!!"
  short : ∀ e ∈ entries, (encode e.name).length < 4096
  mode : ∀ e ∈ entries, e.mode < 2 ^ 32
  size : ∀ e ∈ entries, e.data.length < 2 ^ 32
  init : ∃ e ∈ entries, e.name = "init" ∧ executable e.mode
  total : (probeCpio entries).length ≤ maxCpioBytes

section Archive

variable {entries : List ProbeEntry}

theorem mem_zipIdx {xs : List ProbeEntry} {p : ProbeEntry × ℕ} (h : p ∈ xs.zipIdx 1) :
    p.1 ∈ xs ∧ p.2 < xs.length + 1 := by
  obtain ⟨-, hlt, hget⟩ := List.mem_zipIdx h
  refine ⟨?_, by omega⟩
  rw [hget]
  exact List.getElem_mem _

theorem probeTrailer_fits (h : Writable entries) :
    ∀ n ∈ probeTrailer.fields (entries.length + 1), n < 2 ^ 32 := by
  have hcount := h.count
  rw [maxCpioEntries] at hcount
  refine fields_lt (by omega) (by decide) (by decide) ?_
  rw [encode_trailer]
  decide

theorem Writable.fields_lt (h : Writable entries) :
    ∀ p ∈ entries.zipIdx 1, ∀ n ∈ p.1.fields p.2, n < 2 ^ 32 := by
  intro p hp
  obtain ⟨hmem, hlt⟩ := mem_zipIdx hp
  have hcount := h.count
  rw [maxCpioEntries] at hcount
  have hshort := h.short p.1 hmem
  exact Boot.fields_lt (by omega) (h.mode p.1 hmem) (h.size p.1 hmem) (by omega)

theorem zipIdx_all (entries : List ProbeEntry) :
    (entries ++ [probeTrailer]).zipIdx 1 =
      entries.zipIdx 1 ++ [(probeTrailer, entries.length + 1)] := by
  rw [List.zipIdx_append, Nat.add_comm]
  rfl

theorem probeCpioArchive_all (entries : List ProbeEntry) :
    (probeCpioArchive entries).all =
      ((entries ++ [probeTrailer]).zipIdx 1).map fun p => p.1.toCpio p.2 := by
  rw [zipIdx_all, List.map_append]
  rfl

/-- What is written of every entry, the trailer included. -/
theorem Writable.all_fits (h : Writable entries) :
    ∀ p ∈ (entries ++ [probeTrailer]).zipIdx 1,
      (∀ n ∈ p.1.fields p.2, n < 2 ^ 32) ∧ isUnsafePath (encode p.1.name) = false ∧
        (encode p.1.name).length < 4096 := by
  rw [zipIdx_all, List.forall_mem_append, List.forall_mem_singleton]
  constructor
  · intro p hp
    obtain ⟨hmem, -⟩ := mem_zipIdx hp
    exact ⟨h.fields_lt p hp, h.safe p.1 hmem, h.short p.1 hmem⟩
  · refine ⟨probeTrailer_fits h, ?_⟩
    rw [encode_trailer]
    decide

theorem probeCpio_eq (h : Writable entries) :
    probeCpio entries = (probeCpioArchive entries).bytes := by
  rw [probeCpio, foldl_append (fun p hp => (h.all_fits p hp).1)
    (fun p hp => (h.all_fits p hp).2.1) (by decide), zipIdx_all]
  simp only [List.map_append, List.map_cons, List.map_nil, List.flatMap_append,
    List.flatMap_cons, List.flatMap_nil, List.append_nil, List.nil_append]
  rw [CpioArchive.bytes]
  simp only [probeCpioArchive, List.replicate_zero, List.append_nil]

theorem map_name_all (entries : List ProbeEntry) :
    (probeCpioArchive entries).all.map CpioEntry.name =
      ((entries ++ [probeTrailer]).map ProbeEntry.name).map encode := by
  have hfst : ((entries ++ [probeTrailer]).zipIdx 1).map Prod.fst = entries ++ [probeTrailer] :=
    List.zipIdx_map_fst 1 _
  rw [probeCpioArchive_all]
  nth_rw 2 [← hfst]
  rw [List.map_map, List.map_map, List.map_map]
  rfl

theorem Writable.bootable (h : Writable entries) : (probeCpioArchive entries).Bootable strictHex where
  fits := by
    rw [probeCpioArchive_all]
    intro e he
    obtain ⟨p, hp, rfl⟩ := List.mem_map.mp he
    exact toCpio_fits (h.all_fits p hp).1 (h.all_fits p hp).2.1
  padded := by
    rw [probeCpioArchive_all]
    intro e he
    obtain ⟨p, -, rfl⟩ := List.mem_map.mp he
    exact List.length_replicate
  names := by
    rw [map_name_all]
    refine List.Nodup.map encode_injective ?_
    rw [List.map_append, List.nodup_append]
    refine ⟨h.distinct, List.nodup_singleton _, ?_⟩
    intro name hname name' htrailer
    obtain ⟨e, he, rfl⟩ := List.mem_map.mp hname
    rw [List.mem_singleton.mp htrailer]
    exact h.notTrailer e he
  trailer := ⟨encode_trailer, rfl⟩
  count := by
    have hcount := h.count
    rw [probeCpioArchive_all, List.length_map, List.length_zipIdx, List.length_append]
    exact hcount
  init := by
    obtain ⟨e, he, hname, hexec⟩ := h.init
    obtain ⟨i, hi, rfl⟩ := List.getElem_of_mem he
    have hlt : i < (entries.zipIdx 1).length := by
      rw [List.length_zipIdx]
      exact hi
    have hmem : (entries[i], 1 + i) ∈ entries.zipIdx 1 := by
      rw [← List.getElem_zipIdx hlt]
      exact List.getElem_mem hlt
    refine ⟨_, List.mem_map_of_mem hmem, ?_⟩
    rw [toCpio_read (h.fields_lt _ hmem), CpioRead.isInit, ProbeEntry.reading]
    dsimp only
    rw [hname, encode_init, hexec]
    rfl

theorem Writable.shorts (h : Writable entries) : ∀ e ∈ (probeCpioArchive entries).all, e.Short := by
  rw [probeCpioArchive_all]
  intro e he
  obtain ⟨p, hp, rfl⟩ := List.mem_map.mp he
  exact (h.all_fits p hp).2.2

/-- The validator reads back what was written. -/
theorem readArchive_probeCpio (h : Writable entries) :
    readArchive (probeCpio entries) = .ok (entries.map ProbeEntry.reading) := by
  rw [probeCpio_eq h, readArchive_of_formed h.bootable.loose.toFormed h.shorts h.bootable.count]
  have hread : ∀ p ∈ entries.zipIdx 1,
      (CpioEntry.read int16 ∘ fun p => p.1.toCpio p.2) p = p.1.reading := by
    intro p hp
    obtain ⟨hmem, -⟩ := mem_zipIdx hp
    rw [Function.comp_apply, (toCpio_fits (h.fields_lt p hp) (h.safe p.1 hmem)).read_loose,
      toCpio_read (h.fields_lt p hp)]
  have hfst : (entries.zipIdx 1).map Prod.fst = entries := List.zipIdx_map_fst 1 _
  rw [probeCpioArchive, List.map_map, List.map_congr_left hread]
  nth_rw 2 [← hfst]
  rw [List.map_map]
  rfl

/-- The ramdisk of the probe passes the validator, whose walk gives back every entry. -/
theorem probeArchive_accepted (gzip : Gzip) (h : Writable entries) :
    validateGzipNewc gzip.toGunzip (probeArchive gzip entries) = .ok () ∧
      gzip.read (probeArchive gzip entries) = .ok (probeCpio entries) ∧
      readArchive (probeCpio entries) = .ok (entries.map ProbeEntry.reading) := by
  have hread : gzip.read (probeArchive gzip entries) = .ok (probeCpio entries) := by
    rw [probeArchive, gzip.read_compress, List.take_of_length_le]
    exact Nat.le_succ_of_le h.total
  refine ⟨?_, hread, readArchive_probeCpio h⟩
  exact (validateGzipNewc_eq_ok hread h.total).mpr
    ⟨probeCpioArchive entries, h.bootable.loose, h.shorts, (probeCpio_eq h).symm⟩

end Archive

/-! ### A small probe -/

def smallProbe : List ProbeEntry :=
  [{ name := "init", mode := 0o100755, data := [0x7f, 0x45, 0x4c, 0x46, 1] },
    { name := "dev/kmsg", mode := 0o020600, data := [] }]

/-- What `gzip.compress` makes of the small probe. -/
def smallProbeStream : Bytes :=
  [31, 139, 8, 0, 0, 0, 0, 0, 0, 3, 51, 48, 55, 48, 55, 48, 52, 128, 0, 48, 109, 97, 152, 154,
    98, 128, 29, 24, 162, 241, 77, 113, 168, 67, 7, 112, 117, 153, 121, 153, 37, 12, 12, 245, 174,
    62, 110, 140, 12, 12, 12, 6, 200, 118, 27, 129, 9, 67, 11, 92, 102, 160, 219, 77, 72, 93, 18,
    148, 182, 132, 73, 164, 164, 150, 233, 103, 231, 22, 167, 163, 217, 107, 76, 164, 121, 164, 2,
    152, 253, 6, 33, 65, 142, 158, 62, 174, 65, 138, 138, 138, 64, 47, 51, 0, 0, 218, 199, 117,
    186, 112, 1, 0, 0]

def storeCompress (archive : Bytes) : Bytes :=
  if archive = probeCpio smallProbe then smallProbeStream else gzipMagic ++ 0 :: archive

def storeRead (stream : Bytes) : Except GzipFailure Bytes :=
  if stream = smallProbeStream then .ok (probeCpio smallProbe)
  else if gzipMagic ++ [0] <+: stream then .ok ((stream.drop 3).take (maxCpioBytes + 1))
  else .error .osError

theorem smallProbe_length : (probeCpio smallProbe).length ≤ maxCpioBytes := by
  set_option maxRecDepth 8000 in decide

theorem smallProbeStream_ne (archive : Bytes) : gzipMagic ++ 0 :: archive ≠ smallProbeStream := by
  intro h
  have hthird := congrArg (fun s : Bytes => s[2]?) h
  simp [gzipMagic, smallProbeStream] at hthird

theorem storeRead_compress (archive : Bytes) :
    storeRead (storeCompress archive) = .ok (archive.take (maxCpioBytes + 1)) := by
  rw [storeCompress]
  split_ifs with h
  · rw [storeRead, if_pos rfl, h, List.take_of_length_le (Nat.le_succ_of_le smallProbe_length)]
  · rw [storeRead, if_neg (smallProbeStream_ne archive), if_pos ⟨archive, by simp⟩]
    rfl

theorem storeRead_magic {stream archive : Bytes} (h : storeRead stream = .ok archive) :
    gzipMagic <+: stream := by
  rw [storeRead] at h
  split_ifs at h with hsmall hstored
  · rw [hsmall]
    decide
  · exact (List.prefix_append gzipMagic [0]).trans hstored

/-- A `gzip` that compresses the small probe, and stores all other archives as they are. -/
def storingGzip : Gzip where
  compress := storeCompress
  read := storeRead
  magic := fun _ _ hread _ => storeRead_magic hread
  read_compress := storeRead_compress

theorem smallProbe_writable : Writable smallProbe where
  count := by decide
  distinct := by decide
  safe := by decide
  notTrailer := by decide
  short := by decide
  mode := by decide
  size := by decide
  init := ⟨_, List.mem_cons_self, rfl, by decide⟩
  total := by set_option maxRecDepth 8000 in decide

theorem smallProbe_accepted :
    validateGzipNewc storingGzip.toGunzip smallProbeStream = .ok () ∧
      storingGzip.read smallProbeStream = .ok (probeCpio smallProbe) ∧
      readArchive (probeCpio smallProbe) = .ok (smallProbe.map ProbeEntry.reading) := by
  have hstream : probeArchive storingGzip smallProbe = smallProbeStream := by
    have hcompress : storingGzip.compress = storeCompress := rfl
    rw [probeArchive, hcompress, storeCompress, if_pos rfl]
  rw [← hstream]
  exact probeArchive_accepted storingGzip smallProbe_writable

end ForgeOS.Boot
