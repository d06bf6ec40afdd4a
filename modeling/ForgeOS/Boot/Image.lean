import ForgeOS.Boot.Ramdisk

/-! `parse_image`: the legacy boot image. A page of header tells the sizes of four components,
each of which takes whole pages, and a tail follows that nothing in the header speaks of. An
identifier in the header is the SHA-1 of the components in one of two conventions. What parses
is said once more as a row of parts. -/

namespace ForgeOS.Boot

open ForgeOS.Python ForgeOS.Library.Slices

/-! ### Reading -/

def imageMagic : Bytes := ascii "ANDROID!"

def dtbhMagic : Bytes := ascii "DTBH"

def headerMin : ℕ := 608

def maxImage : ℕ := 13 * 1024 * 1024

/-- `_u32`, at an offset that lies in the data. -/
def u32 (data : Bytes) (offset : ℕ) : ℕ := unpack32 (slice data offset 4)

/-- What the code takes from outside: `hashlib.sha1` and the reader of gzip streams. -/
structure Host where
  sha1 : Bytes → Bytes
  length_sha1 : ∀ text, (sha1 text).length = 20
  gunzip : Gunzip

/-- The two conventions for the identifier. -/
inductive IdMode
  | dtSize
  | noDt
  deriving DecidableEq, Repr

/-- `_boot_id`. A digest of several updates is the digest of their concatenation. -/
def bootId (host : Host) (kernel ramdisk second dt : Bytes) (mode : IdMode) : Bytes :=
  let components := [kernel, ramdisk, second].flatMap fun payload =>
    payload ++ pack32 payload.length
  match mode with
  | .dtSize => host.sha1 (components ++ (dt ++ pack32 dt.length))
  | .noDt => host.sha1 components

/-- `_validate_dt` -/
def validateDt (dt : Bytes) : Except Failure Unit := do
  check (16 ≤ dt.length ∧ dt.take 4 = dtbhMagic ∧ u32 dt 4 = 2) "unsupported Samsung DTBH"
  let count := u32 dt 8
  check (1 ≤ count ∧ count ≤ 64 ∧ 16 + count * 32 ≤ dt.length) "invalid DTBH table"
  let greatestEnd ← (List.range count).foldlM (fun greatestEnd index => do
    let offset := u32 dt (32 + index * 32)
    let size := u32 dt (36 + index * 32)
    check (8 ≤ size ∧ 16 + count * 32 ≤ offset ∧ offset + size ≤ dt.length)
      "DTBH entry outside container"
    let magic ← range dt offset 4 "DTB magic"
    check (magic = [0xd0, 0x0d, 0xfe, 0xed]) "DTBH entry is not an FDT"
    pure (max greatestEnd (offset + size))) 0
  check (greatestEnd = dt.length) "DTBH has unaccounted content"

structure BootImage where
  raw : Bytes
  pageSize : ℕ
  kernelSize : ℕ
  ramdiskSize : ℕ
  secondSize : ℕ
  dtSize : ℕ
  fields : List ℕ
  kernelOffset : ℕ
  ramdiskOffset : ℕ
  secondOffset : ℕ
  dtOffset : ℕ
  tailOffset : ℕ
  idMode : IdMode
  deriving DecidableEq

namespace BootImage

def kernel (i : BootImage) : Except Failure Bytes :=
  range i.raw i.kernelOffset i.kernelSize "kernel"

def ramdisk (i : BootImage) : Except Failure Bytes :=
  range i.raw i.ramdiskOffset i.ramdiskSize "ramdisk"

def second (i : BootImage) : Except Failure Bytes :=
  range i.raw i.secondOffset i.secondSize "second stage"

def dt (i : BootImage) : Except Failure Bytes := range i.raw i.dtOffset i.dtSize "DTBH"

def tail (i : BootImage) : Bytes := i.raw.drop i.tailOffset

end BootImage

/-- The record that the header of an image describes. -/
def describe (raw : Bytes) (mode : IdMode) : BootImage :=
  let fields := (List.range 10).map fun i => u32 raw (8 + 4 * i)
  let kernelSize := u32 raw 8
  let ramdiskSize := u32 raw 16
  let secondSize := u32 raw 24
  let pageSize := u32 raw 36
  let dtSize := u32 raw 40
  let kernelOffset := pageSize
  let ramdiskOffset := kernelOffset + align kernelSize pageSize
  let secondOffset := ramdiskOffset + align ramdiskSize pageSize
  let dtOffset := secondOffset + align secondSize pageSize
  let tailOffset := dtOffset + align dtSize pageSize
  { raw, pageSize, kernelSize, ramdiskSize, secondSize, dtSize, fields, kernelOffset, ramdiskOffset,
    secondOffset, dtOffset, tailOffset, idMode := mode }

/-- Offset, size and name of the four components. -/
def BootImage.components (i : BootImage) : List (ℕ × ℕ × String) :=
  [(i.kernelOffset, i.kernelSize, "kernel"), (i.ramdiskOffset, i.ramdiskSize, "ramdisk"),
    (i.secondOffset, i.secondSize, "second"), (i.dtOffset, i.dtSize, "dt")]

/-- `parse_image` -/
def parseImage (host : Host) (raw : Bytes) : Except Failure BootImage := do
  check (raw.length ≤ maxImage) "image exceeds 13 MiB limit"
  check (headerMin ≤ raw.length ∧ raw.take 8 = imageMagic) "not a legacy Android boot image"
  let image := describe raw .dtSize
  check ((image.pageSize = 2048 ∨ image.pageSize = 4096) ∧ headerMin ≤ image.pageSize)
    "unsupported page size"
  image.components.forM fun (offset, size, name) => do
    let _ ← range raw offset size name
  check (image.tailOffset ≤ raw.length) "truncated component padding"
  image.components.forM fun (offset, size, name) =>
    check (∀ b ∈ slice raw (offset + size) (padding size image.pageSize), b = 0)
      ("nonzero " ++ name ++ " padding")
  let kernel ← range raw image.kernelOffset image.kernelSize "kernel"
  check (0x28 ≤ kernel.length ∧ slice kernel 0x24 4 = [0x18, 0x28, 0x6f, 0x01])
    "kernel lacks ARM zImage magic"
  let ramdisk ← range raw image.ramdiskOffset image.ramdiskSize "ramdisk"
  validateGzipNewc host.gunzip ramdisk
  let dt ← range raw image.dtOffset image.dtSize "dt"
  validateDt dt
  let second ← range raw image.secondOffset image.secondSize "second"
  let stored := slice raw 576 20
  let modes := [IdMode.dtSize, .noDt].filter fun mode =>
    bootId host kernel ramdisk second dt mode = stored
  check (modes.length = 1 ∧ ∀ b ∈ slice raw 596 12, b = 0) "unproven legacy boot ID convention"
  pure (describe raw (modes.headD .dtSize))

/-! ### Parts -/

/-- An image, part by part. -/
structure Parts where
  page : ℕ
  header : Bytes
  kernel : Bytes
  ramdisk : Bytes
  second : Bytes
  dt : Bytes
  tail : Bytes

namespace Parts

def bytes (p : Parts) : Bytes :=
  p.header ++ (block 0 p.page p.kernel ++ (block 0 p.page p.ramdisk ++
    (block 0 p.page p.second ++ (block 0 p.page p.dt ++ p.tail))))

/-- Everything before the tail. -/
def front (p : Parts) : Bytes :=
  p.header ++ (block 0 p.page p.kernel ++ (block 0 p.page p.ramdisk ++
    (block 0 p.page p.second ++ block 0 p.page p.dt)))

theorem bytes_eq (p : Parts) : p.bytes = p.front ++ p.tail := by
  simp only [bytes, front, List.append_assoc]

/-- The header tells the sizes of the parts. -/
structure Sized (p : Parts) : Prop where
  page : p.page = 2048 ∨ p.page = 4096
  header : p.header.length = p.page
  pageSize : u32 p.header 36 = p.page
  kernelSize : u32 p.header 8 = p.kernel.length
  ramdiskSize : u32 p.header 16 = p.ramdisk.length
  secondSize : u32 p.header 24 = p.second.length
  dtSize : u32 p.header 40 = p.dt.length

def id (host : Host) (p : Parts) (mode : IdMode) : Bytes :=
  bootId host p.kernel p.ramdisk p.second p.dt mode

/-- The parts make up an image in one of the two conventions, and not in the other. -/
structure Valid (host : Host) (p : Parts) (mode : IdMode) : Prop extends Sized p where
  length : p.bytes.length ≤ maxImage
  magic : p.header.take 8 = imageMagic
  kernelMagic : 0x28 ≤ p.kernel.length ∧ slice p.kernel 0x24 4 = [0x18, 0x28, 0x6f, 0x01]
  ramdisk : validateGzipNewc host.gunzip p.ramdisk = .ok ()
  dt : validateDt p.dt = .ok ()
  stored : ∀ mode', p.id host mode' = slice p.header 576 20 ↔ mode' = mode
  spare : slice p.header 596 12 = List.replicate 12 0

end Parts

/-! ### Where the parts stand -/

theorem forM_eq_ok {α : Type} {xs : List α} {f : α → Except Failure Unit} {u : Unit} :
    xs.forM f = .ok u ↔ ∀ x ∈ xs, f x = .ok () := by
  induction xs with
  | nil => exact iff_of_true rfl fun x hx => absurd hx List.not_mem_nil
  | cons x xs ih =>
    change (f x >>= fun _ => xs.forM f) = _ ↔ _
    rw [bind_eq_ok, List.forall_mem_cons]
    constructor
    · rintro ⟨⟨⟩, hx, hxs⟩
      exact ⟨hx, ih.mp hxs⟩
    · rintro ⟨hx, hxs⟩
      exact ⟨(), hx, ih.mpr hxs⟩

theorem u32_append {data : Bytes} {offset : ℕ} (h : offset + 4 ≤ data.length) (behind : Bytes) :
    u32 (data ++ behind) offset = u32 data offset := by
  rw [u32, u32, slice_append_left h]

theorem range_block {data piece behind : Bytes} {page start : ℕ} (hpage : 0 < page)
    (hstart : start ≤ data.length) (h : data.drop start = block 0 page piece ++ behind)
    (label : String) : range data start piece.length label = .ok piece := by
  have hend := block_end hpage hstart h
  have hle := le_align hpage piece.length
  rw [range_eq_ok, Int.toNat_natCast, slice_block h]
  exact ⟨by omega, by omega, rfl⟩

namespace Parts

def kernelOffset (p : Parts) : ℕ := p.page

def ramdiskOffset (p : Parts) : ℕ := p.kernelOffset + align p.kernel.length p.page

def secondOffset (p : Parts) : ℕ := p.ramdiskOffset + align p.ramdisk.length p.page

def dtOffset (p : Parts) : ℕ := p.secondOffset + align p.second.length p.page

def tailOffset (p : Parts) : ℕ := p.dtOffset + align p.dt.length p.page

section Sized

variable {p : Parts} (h : p.Sized)
include h

theorem Sized.page_pos : 0 < p.page := by
  rcases h.page with hpage | hpage <;> omega

theorem Sized.headerMin_le : headerMin ≤ p.header.length := by
  rw [h.header, headerMin]
  rcases h.page with hpage | hpage <;> omega

/-- The image begins with its header. -/
theorem Sized.slice_header {start length : ℕ} (hend : start + length ≤ p.page) :
    slice p.bytes start length = slice p.header start length :=
  slice_append_left (le_trans hend h.header.ge)

theorem Sized.slice_bytes (start length : ℕ) (hend : start + length ≤ headerMin) :
    slice p.bytes start length = slice p.header start length :=
  slice_append_left (le_trans hend h.headerMin_le)

theorem Sized.u32_bytes (offset : ℕ) (hoffset : offset + 4 ≤ headerMin) :
    u32 p.bytes offset = u32 p.header offset :=
  u32_append (le_trans hoffset h.headerMin_le) _

theorem Sized.describe_bytes (mode : IdMode) :
    describe p.bytes mode =
      { raw := p.bytes
        pageSize := p.page
        kernelSize := p.kernel.length
        ramdiskSize := p.ramdisk.length
        secondSize := p.second.length
        dtSize := p.dt.length
        fields := (List.range 10).map fun i => u32 p.bytes (8 + 4 * i)
        kernelOffset := p.kernelOffset
        ramdiskOffset := p.ramdiskOffset
        secondOffset := p.secondOffset
        dtOffset := p.dtOffset
        tailOffset := p.tailOffset
        idMode := mode } := by
  rw [describe]
  simp only [h.u32_bytes 36 (by decide), h.u32_bytes 8 (by decide),
    h.u32_bytes 16 (by decide), h.u32_bytes 24 (by decide),
    h.u32_bytes 40 (by decide), h.pageSize, h.kernelSize, h.ramdiskSize, h.secondSize,
    h.dtSize]
  rfl

theorem Sized.drop_kernel : p.bytes.drop p.kernelOffset = block 0 p.page p.kernel ++
    (block 0 p.page p.ramdisk ++ (block 0 p.page p.second ++ (block 0 p.page p.dt ++ p.tail))) :=
  List.drop_left' h.header

theorem Sized.drop_ramdisk : p.bytes.drop p.ramdiskOffset = block 0 p.page p.ramdisk ++
    (block 0 p.page p.second ++ (block 0 p.page p.dt ++ p.tail)) :=
  drop_block h.page_pos h.drop_kernel

theorem Sized.drop_second : p.bytes.drop p.secondOffset =
    block 0 p.page p.second ++ (block 0 p.page p.dt ++ p.tail) :=
  drop_block h.page_pos h.drop_ramdisk

theorem Sized.drop_dt : p.bytes.drop p.dtOffset = block 0 p.page p.dt ++ p.tail :=
  drop_block h.page_pos h.drop_second

theorem Sized.drop_tail : p.bytes.drop p.tailOffset = p.tail := drop_block h.page_pos h.drop_dt

theorem Sized.length_bytes : p.bytes.length = p.tailOffset + p.tail.length := by
  have hpos := h.page_pos
  simp only [bytes, List.length_append, length_block hpos, h.header, tailOffset, dtOffset,
    secondOffset, ramdiskOffset, kernelOffset]
  omega

theorem Sized.offsets_le : p.kernelOffset ≤ p.bytes.length ∧ p.ramdiskOffset ≤ p.bytes.length ∧
    p.secondOffset ≤ p.bytes.length ∧ p.dtOffset ≤ p.bytes.length ∧
    p.tailOffset ≤ p.bytes.length := by
  rw [h.length_bytes, tailOffset, dtOffset, secondOffset, ramdiskOffset]
  omega

theorem Sized.range_kernel (label : String) :
    range p.bytes p.kernelOffset p.kernel.length label = .ok p.kernel :=
  range_block h.page_pos h.offsets_le.1 h.drop_kernel label

theorem Sized.range_ramdisk (label : String) :
    range p.bytes p.ramdiskOffset p.ramdisk.length label = .ok p.ramdisk :=
  range_block h.page_pos h.offsets_le.2.1 h.drop_ramdisk label

theorem Sized.range_second (label : String) :
    range p.bytes p.secondOffset p.second.length label = .ok p.second :=
  range_block h.page_pos h.offsets_le.2.2.1 h.drop_second label

theorem Sized.range_dt (label : String) :
    range p.bytes p.dtOffset p.dt.length label = .ok p.dt :=
  range_block h.page_pos h.offsets_le.2.2.2.1 h.drop_dt label

/-- What the record of an image gives back. -/
theorem Sized.describe_parts (mode : IdMode) :
    (describe p.bytes mode).pageSize = p.page ∧
    (describe p.bytes mode).kernel = .ok p.kernel ∧
    (describe p.bytes mode).ramdisk = .ok p.ramdisk ∧
    (describe p.bytes mode).second = .ok p.second ∧
    (describe p.bytes mode).dt = .ok p.dt ∧
    (describe p.bytes mode).tail = p.tail := by
  rw [h.describe_bytes]
  exact ⟨rfl, h.range_kernel _, h.range_ramdisk _, h.range_second _, h.range_dt _, h.drop_tail⟩

/-- The sizes in the record are those of the parts. -/
theorem Sized.describe_sizes (mode : IdMode) :
    (describe p.bytes mode).kernelSize = p.kernel.length ∧
    (describe p.bytes mode).secondSize = p.second.length ∧
    (describe p.bytes mode).dtSize = p.dt.length := by
  rw [h.describe_bytes]
  exact ⟨rfl, rfl, rfl⟩

end Sized

/-- The bytes of an image determine its parts. -/
theorem Sized.eq_of_bytes {p q : Parts} (hp : p.Sized) (hq : q.Sized) (h : p.bytes = q.bytes) :
    p = q := by
  have hdescribe := (hp.describe_bytes .dtSize).symm.trans
    ((congrArg (describe · .dtSize) h).trans (hq.describe_bytes .dtSize))
  obtain ⟨-, hpage, hkernelSize, hramdiskSize, hsecondSize, hdtSize, -, hkernelOffset,
    hramdiskOffset, hsecondOffset, hdtOffset, htailOffset, -⟩ := BootImage.mk.inj hdescribe
  have hheader : p.header = q.header := by
    have hp' : p.bytes.take p.page = p.header := List.take_left' hp.header
    have hq' : q.bytes.take q.page = q.header := List.take_left' hq.header
    rw [← hp', ← hq', hpage, h]
  have hkernel := (hp.range_kernel "").symm
  have hramdisk := (hp.range_ramdisk "").symm
  have hsecond := (hp.range_second "").symm
  have hdt := (hp.range_dt "").symm
  rw [h, hkernelOffset, hkernelSize, hq.range_kernel, Except.ok.injEq] at hkernel
  rw [h, hramdiskOffset, hramdiskSize, hq.range_ramdisk, Except.ok.injEq] at hramdisk
  rw [h, hsecondOffset, hsecondSize, hq.range_second, Except.ok.injEq] at hsecond
  rw [h, hdtOffset, hdtSize, hq.range_dt, Except.ok.injEq] at hdt
  have htail : p.tail = q.tail := by rw [← hp.drop_tail, ← hq.drop_tail, h, htailOffset]
  cases p
  cases q
  simp only [Parts.mk.injEq] at *
  exact ⟨hpage, hheader, hkernel, hramdisk, hsecond, hdt, htail⟩

end Parts

/-! ### What parses -/

/-- Of two conventions one is left exactly if the identifier follows it and not the other. -/
theorem modes_eq {p : IdMode → Prop} [DecidablePred p] {mode : IdMode} :
    ([IdMode.dtSize, .noDt].filter p).length = 1 ∧
        ([IdMode.dtSize, .noDt].filter p).headD .dtSize = mode ↔
      ∀ mode', p mode' ↔ mode' = mode := by
  have hall : (∀ mode', p mode' ↔ mode' = mode) ↔
      (p .dtSize ↔ IdMode.dtSize = mode) ∧ (p .noDt ↔ IdMode.noDt = mode) := by
    constructor
    · exact fun h => ⟨h _, h _⟩
    · rintro ⟨hd, hn⟩ (_ | _)
      · exact hd
      · exact hn
  rw [hall]
  by_cases hd : p .dtSize <;> by_cases hn : p .noDt <;> cases mode <;> simp [hd, hn]

section Parse

variable {host : Host} {raw : Bytes}

/-- The parts that a header tells of, once their padding has been found to be zero. -/
def partsOf (raw : Bytes) : Parts :=
  let image := describe raw .dtSize
  { page := image.pageSize
    header := raw.take image.pageSize
    kernel := slice raw image.kernelOffset image.kernelSize
    ramdisk := slice raw image.ramdiskOffset image.ramdiskSize
    second := slice raw image.secondOffset image.secondSize
    dt := slice raw image.dtOffset image.dtSize
    tail := raw.drop image.tailOffset }

/-- The components stand behind each other, each on whole pages. -/
theorem describe_offsets (raw : Bytes) (mode : IdMode) :
    (describe raw mode).kernelOffset = (describe raw mode).pageSize ∧
    (describe raw mode).ramdiskOffset = (describe raw mode).kernelOffset +
      align (describe raw mode).kernelSize (describe raw mode).pageSize ∧
    (describe raw mode).secondOffset = (describe raw mode).ramdiskOffset +
      align (describe raw mode).ramdiskSize (describe raw mode).pageSize ∧
    (describe raw mode).dtOffset = (describe raw mode).secondOffset +
      align (describe raw mode).secondSize (describe raw mode).pageSize ∧
    (describe raw mode).tailOffset = (describe raw mode).dtOffset +
      align (describe raw mode).dtSize (describe raw mode).pageSize :=
  ⟨rfl, rfl, rfl, rfl, rfl⟩

theorem bytes_partsOf (hpage : 0 < (describe raw .dtSize).pageSize)
    (htail : (describe raw .dtSize).tailOffset ≤ raw.length)
    (hzeros : ∀ c ∈ (describe raw .dtSize).components,
      ∀ b ∈ slice raw (c.1 + c.2.1) (padding c.2.1 (describe raw .dtSize).pageSize), b = 0) :
    (partsOf raw).bytes = raw := by
  rw [BootImage.components] at hzeros
  obtain ⟨hkernel, hzeros⟩ := List.forall_mem_cons.mp hzeros
  obtain ⟨hramdisk, hzeros⟩ := List.forall_mem_cons.mp hzeros
  obtain ⟨hsecond, hdt⟩ := List.forall_mem_cons.mp hzeros
  rw [List.forall_mem_singleton] at hdt
  dsimp only at hkernel hramdisk hsecond hdt
  obtain ⟨hkernelOffset, hramdiskOffset, hsecondOffset, hdtOffset, htailOffset⟩ :=
    describe_offsets raw .dtSize
  rw [Parts.bytes, partsOf]
  dsimp only
  rw [htailOffset, ← drop_eq_block hpage (by omega) hdt, hdtOffset,
    ← drop_eq_block hpage (by omega) hsecond, hsecondOffset,
    ← drop_eq_block hpage (by omega) hramdisk, hramdiskOffset,
    ← drop_eq_block hpage (by omega) hkernel, hkernelOffset, List.take_append_drop]

theorem u32_take {offset page : ℕ} (h : offset + 4 ≤ page) (hraw : page ≤ raw.length) :
    u32 (raw.take page) offset = u32 raw offset := by
  conv_rhs => rw [← List.take_append_drop page raw]
  rw [u32_append]
  rw [List.length_take_of_le hraw]
  exact h

theorem sized_partsOf (hpage : (describe raw .dtSize).pageSize = 2048 ∨
      (describe raw .dtSize).pageSize = 4096)
    (htail : (describe raw .dtSize).tailOffset ≤ raw.length) : (partsOf raw).Sized := by
  obtain ⟨hkernelOffset, hramdiskOffset, hsecondOffset, hdtOffset, htailOffset⟩ :=
    describe_offsets raw .dtSize
  have hpos : 0 < (describe raw .dtSize).pageSize := by omega
  have hk := le_align hpos (describe raw .dtSize).kernelSize
  have hr := le_align hpos (describe raw .dtSize).ramdiskSize
  have hs := le_align hpos (describe raw .dtSize).secondSize
  have hd := le_align hpos (describe raw .dtSize).dtSize
  have hraw : (describe raw .dtSize).pageSize ≤ raw.length := by omega
  have hmin : 608 ≤ (describe raw .dtSize).pageSize := by omega
  have hheader : ∀ offset, offset + 4 ≤ 608 → u32 (partsOf raw).header offset = u32 raw offset :=
    fun offset hoffset => u32_take (le_trans hoffset hmin) hraw
  have hkernel : (partsOf raw).kernel.length = u32 raw 8 :=
    length_slice (show (describe raw .dtSize).kernelOffset + (describe raw .dtSize).kernelSize ≤ _ by
      omega)
  have hramdisk : (partsOf raw).ramdisk.length = u32 raw 16 :=
    length_slice (show (describe raw .dtSize).ramdiskOffset + (describe raw .dtSize).ramdiskSize ≤ _
      by omega)
  have hsecond : (partsOf raw).second.length = u32 raw 24 :=
    length_slice (show (describe raw .dtSize).secondOffset + (describe raw .dtSize).secondSize ≤ _ by
      omega)
  have hdt : (partsOf raw).dt.length = u32 raw 40 :=
    length_slice (show (describe raw .dtSize).dtOffset + (describe raw .dtSize).dtSize ≤ _ by omega)
  constructor
  · exact hpage
  · exact List.length_take_of_le hraw
  · exact hheader 36 (by decide)
  · rw [hheader 8 (by decide), hkernel]
  · rw [hheader 16 (by decide), hramdisk]
  · rw [hheader 24 (by decide), hsecond]
  · rw [hheader 40 (by decide), hdt]

/-- What parses is a row of parts. -/
theorem parts_of_parse {image : BootImage} (h : parseImage host raw = .ok image) :
    ∃ p : Parts, ∃ mode, p.Valid host mode ∧ p.bytes = raw ∧ image = describe raw mode := by
  rw [parseImage] at h
  obtain ⟨_, hlength, h⟩ := bind_eq_ok.mp h
  obtain ⟨_, hmagic, h⟩ := bind_eq_ok.mp h
  obtain ⟨_, hpage, h⟩ := bind_eq_ok.mp h
  obtain ⟨_, -, h⟩ := bind_eq_ok.mp h
  obtain ⟨_, htail, h⟩ := bind_eq_ok.mp h
  obtain ⟨_, hzeros, h⟩ := bind_eq_ok.mp h
  obtain ⟨kernel, hkernel, h⟩ := bind_eq_ok.mp h
  obtain ⟨_, hkernelMagic, h⟩ := bind_eq_ok.mp h
  obtain ⟨ramdisk, hramdisk, h⟩ := bind_eq_ok.mp h
  obtain ⟨_, hgzip, h⟩ := bind_eq_ok.mp h
  obtain ⟨dt, hdt, h⟩ := bind_eq_ok.mp h
  obtain ⟨_, hvalidate, h⟩ := bind_eq_ok.mp h
  obtain ⟨second, hsecond, h⟩ := bind_eq_ok.mp h
  obtain ⟨_, hmodes, h⟩ := bind_eq_ok.mp h
  rw [check_eq_ok] at hlength hmagic hpage htail hkernelMagic hmodes
  simp only [forM_eq_ok, check_eq_ok] at hzeros
  obtain ⟨-, -, rfl⟩ := range_eq_ok.mp hkernel
  obtain ⟨-, -, rfl⟩ := range_eq_ok.mp hramdisk
  obtain ⟨-, -, rfl⟩ := range_eq_ok.mp hdt
  obtain ⟨-, -, rfl⟩ := range_eq_ok.mp hsecond
  have hpos : 0 < (describe raw .dtSize).pageSize := by omega
  have hbytes := bytes_partsOf hpos htail hzeros
  have hsized := sized_partsOf hpage.1 htail
  have hslice : ∀ start length, start + length ≤ headerMin →
      slice (partsOf raw).header start length = slice raw start length := by
    intro start length hend
    rw [← hsized.slice_bytes start length hend, hbytes]
  refine ⟨partsOf raw, _, ?_, hbytes, (Except.ok.inj h).symm⟩
  constructor
  · exact hsized
  · rw [hbytes]
    exact hlength
  · rw [← slice_zero, hslice 0 8 (by decide), slice_zero]
    exact hmagic.2
  · exact hkernelMagic
  · exact hgzip
  · exact hvalidate
  · intro mode'
    rw [hslice 576 20 (by decide)]
    exact modes_eq.mp ⟨hmodes.1, rfl⟩ mode'
  · rw [hslice 596 12 (by decide)]
    refine List.eq_replicate_iff.mpr ⟨length_slice (le_trans (by decide) hmagic.1), hmodes.2⟩

/-- Every row of parts parses. -/
theorem parse_of_parts {p : Parts} {mode : IdMode} (h : p.Valid host mode) :
    parseImage host p.bytes = .ok (describe p.bytes mode) := by
  have hmin := h.headerMin_le
  have hlength : p.header.length ≤ p.bytes.length := by
    rw [h.header]
    exact h.offsets_le.1
  have hpage : headerMin ≤ p.page := by
    rw [← h.header]
    exact hmin
  have hmodes := modes_eq.mpr h.stored
  have hstored : slice p.bytes 576 20 = slice p.header 576 20 := h.slice_bytes 576 20 (by decide)
  have hspare : slice p.bytes 596 12 = List.replicate 12 0 :=
    (h.slice_bytes 596 12 (by decide)).trans h.spare
  rw [parseImage, h.describe_bytes]
  dsimp only [BootImage.components]
  rw [h.range_kernel, h.range_ramdisk, h.range_dt, h.range_second]
  refine bind_eq_ok.mpr ⟨(), check_eq_ok.mpr h.length, ?_⟩
  refine bind_eq_ok.mpr ⟨(), check_eq_ok.mpr ⟨le_trans hmin hlength, ?_⟩, ?_⟩
  · rw [← slice_zero, h.slice_bytes 0 8 (by decide)]
    exact h.magic
  refine bind_eq_ok.mpr ⟨(), check_eq_ok.mpr ⟨h.page, hpage⟩, ?_⟩
  refine bind_eq_ok.mpr ⟨(), forM_eq_ok.mpr ?_, ?_⟩
  · simp only [List.forall_mem_cons, h.range_kernel, h.range_ramdisk, h.range_dt, h.range_second]
    simp [bind, Except.bind, pure, Except.pure]
  refine bind_eq_ok.mpr ⟨(), check_eq_ok.mpr h.offsets_le.2.2.2.2, ?_⟩
  refine bind_eq_ok.mpr ⟨(), forM_eq_ok.mpr ?_, ?_⟩
  · simp only [List.forall_mem_cons, check_eq_ok, slice_filling h.drop_kernel,
      slice_filling h.drop_ramdisk, slice_filling h.drop_second, slice_filling h.drop_dt]
    simp
  refine bind_eq_ok.mpr ⟨p.kernel, rfl, ?_⟩
  refine bind_eq_ok.mpr ⟨(), check_eq_ok.mpr h.kernelMagic, ?_⟩
  refine bind_eq_ok.mpr ⟨p.ramdisk, rfl, ?_⟩
  refine bind_eq_ok.mpr ⟨(), h.ramdisk, ?_⟩
  refine bind_eq_ok.mpr ⟨p.dt, rfl, ?_⟩
  refine bind_eq_ok.mpr ⟨(), h.dt, ?_⟩
  refine bind_eq_ok.mpr ⟨p.second, rfl, ?_⟩
  rw [hstored, hspare]
  refine bind_eq_ok.mpr ⟨(), check_eq_ok.mpr ⟨hmodes.1, fun b hb => List.eq_of_mem_replicate hb⟩, ?_⟩
  exact congrArg (fun mode => Except.ok (describe p.bytes mode)) hmodes.2

end Parse

end ForgeOS.Boot
