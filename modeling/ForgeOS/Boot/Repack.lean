import ForgeOS.Boot.Image

/-! `repack` and `verify_against`: another ramdisk in an image. The size and the identifier in
the header change with it and every part behind it moves. What comes out is a row of parts
again, which differs from that of the source in the ramdisk and these two places alone. -/

namespace ForgeOS.Boot

open ForgeOS.Python ForgeOS.Library.Slices

/-! ### Writing -/

/-- `struct.pack_into("<I", header, offset, n)` -/
def packInto (header : Bytes) (offset n : ℕ) : Except Failure Bytes :=
  if n < 2 ^ 32 then .ok (patch header offset (pack32 n)) else .error (.other "struct.error")

/-- `repack` -/
def repack (host : Host) (source ramdisk : Bytes) : Except Failure Bytes := do
  let base ← parseImage host source
  validateGzipNewc host.gunzip ramdisk
  let header ← packInto (source.take base.pageSize) 16 ramdisk.length
  let kernel ← base.kernel
  let second ← base.second
  let dt ← base.dt
  let ident := bootId host kernel ramdisk second dt base.idMode
  let header := patch header 576 (ident ++ List.replicate 12 0)
  let zeros := fun size => List.replicate (align size base.pageSize - size) 0
  let result := header ++ kernel ++ zeros base.kernelSize
  let result := result ++ ramdisk ++ zeros ramdisk.length
  let result := result ++ second ++ zeros base.secondSize
  let result := result ++ dt ++ zeros base.dtSize
  let result := result ++ rstrip 0 base.tail
  check (result.length ≤ maxImage) "repacked image exceeds 13 MiB limit"
  let result := result ++ List.replicate (source.length - result.length) 0
  let candidate ← parseImage host result
  let candidateKernel ← candidate.kernel
  let candidateDt ← candidate.dt
  let candidateSecond ← candidate.second
  check (candidateKernel = kernel ∧ candidateDt = dt ∧ candidateSecond = second ∧
    rstrip 0 candidate.tail = rstrip 0 base.tail) "repack changed preserved payload"
  pure result

/-- `verify_against` -/
def verifyAgainst (host : Host) (source candidate : Bytes) : Except Failure BootImage := do
  let base ← parseImage host source
  let checked ← parseImage host candidate
  check (slice base.raw 8 8 = slice checked.raw 8 8 ∧
    slice base.raw 20 556 = slice checked.raw 20 556 ∧
    slice base.raw 608 (base.pageSize - 608) = slice checked.raw 608 (checked.pageSize - 608))
    "candidate changed preserved header fields"
  let kernel ← base.kernel
  let checkedKernel ← checked.kernel
  let second ← base.second
  let checkedSecond ← checked.second
  let dt ← base.dt
  let checkedDt ← checked.dt
  check (kernel = checkedKernel ∧ second = checkedSecond ∧ dt = checkedDt ∧
    rstrip 0 base.tail = rstrip 0 checked.tail)
    "candidate changed preserved payload or opaque tail"
  pure checked

/-! ### The parts of what is written -/

/-- The parts with another ramdisk, and `zeros` zeros at the end. -/
def Parts.repacked (host : Host) (p : Parts) (mode : IdMode) (ramdisk : Bytes) (zeros : ℕ) : Parts :=
  { p with
    header := patch (patch p.header 16 (pack32 ramdisk.length)) 576
      (bootId host p.kernel ramdisk p.second p.dt mode ++ List.replicate 12 0)
    ramdisk := ramdisk
    tail := rstrip 0 p.tail ++ List.replicate zeros 0 }

theorem length_bootId (host : Host) (kernel ramdisk second dt : Bytes) (mode : IdMode) :
    (bootId host kernel ramdisk second dt mode).length = 20 := by
  cases mode with
  | dtSize => exact host.length_sha1 _
  | noDt => exact host.length_sha1 _

/-- The identifier and the zeros behind it take up 32 bytes. -/
theorem length_ident (host : Host) (kernel ramdisk second dt : Bytes) (mode : IdMode) :
    (bootId host kernel ramdisk second dt mode ++ List.replicate 12 (0 : UInt8)).length = 32 := by
  rw [List.length_append, length_bootId, List.length_replicate]

theorem length_sizePatch {p : Parts} (h : p.Sized) (n : ℕ) :
    608 ≤ p.header.length ∧ (patch p.header 16 (pack32 n)).length = p.header.length := by
  have hmin := h.headerMin_le
  rw [headerMin] at hmin
  exact ⟨hmin, length_patch (by rw [length_pack32]; omega)⟩

section Repacked

variable {host : Host} {p : Parts} {mode : IdMode} {ramdisk : Bytes} {zeros : ℕ}

theorem length_repacked_header (h : p.Sized) :
    (p.repacked host mode ramdisk zeros).header.length = p.header.length := by
  obtain ⟨hmin, hsize⟩ := length_sizePatch h ramdisk.length
  rw [Parts.repacked]
  dsimp only
  rw [length_patch, hsize]
  rw [hsize, length_ident]
  omega

/-- The header keeps all but the size of the ramdisk and the identifier. -/
theorem repacked_header_slice (h : p.Sized) {start length : ℕ}
    (hplace : start + length ≤ 16 ∨ 20 ≤ start ∧ start + length ≤ 576 ∨ 608 ≤ start) :
    slice (p.repacked host mode ramdisk zeros).header start length = slice p.header start length := by
  obtain ⟨hmin, hsize⟩ := length_sizePatch h ramdisk.length
  rw [Parts.repacked]
  dsimp only
  rcases hplace with hplace | hplace | hplace
  · rw [slice_patch_before (by omega) (by omega), slice_patch_before hplace (by omega)]
  · rw [slice_patch_before (by omega) (by omega),
      slice_patch_behind (by rw [length_pack32]; omega) (by omega)]
  · rw [slice_patch_behind (by rw [length_ident]; omega) (by omega),
      slice_patch_behind (by rw [length_pack32]; omega) (by omega)]

theorem repacked_header_size (h : p.Sized) :
    slice (p.repacked host mode ramdisk zeros).header 16 4 = pack32 ramdisk.length := by
  obtain ⟨hmin, hsize⟩ := length_sizePatch h ramdisk.length
  rw [Parts.repacked]
  dsimp only
  rw [slice_patch_before (by omega) (by omega)]
  exact slice_patch (by omega)

variable (host mode ramdisk zeros) in
theorem repacked_header_ident (h : p.Sized) :
    slice (p.repacked host mode ramdisk zeros).header 576 32 =
      bootId host p.kernel ramdisk p.second p.dt mode ++ List.replicate 12 0 := by
  obtain ⟨hmin, hsize⟩ := length_sizePatch h ramdisk.length
  rw [← length_ident host p.kernel ramdisk p.second p.dt mode]
  exact slice_patch (by omega)

/-- The new header tells the size of the new ramdisk. -/
theorem Parts.Sized.repacked (h : p.Sized) (hramdisk : ramdisk.length < 2 ^ 32) :
    (p.repacked host mode ramdisk zeros).Sized where
  page := h.page
  header := (length_repacked_header h).trans h.header
  pageSize := by
    rw [u32, repacked_header_slice h (by omega)]
    exact h.pageSize
  kernelSize := by
    rw [u32, repacked_header_slice h (by omega)]
    exact h.kernelSize
  ramdiskSize := by
    rw [u32, repacked_header_size h, unpack32_pack32 hramdisk]
    rfl
  secondSize := by
    rw [u32, repacked_header_slice h (by omega)]
    exact h.secondSize
  dtSize := by
    rw [u32, repacked_header_slice h (by omega)]
    exact h.dtSize

/-- The identifier in the new header, and the zeros behind it. -/
theorem repacked_stored (h : p.Sized) :
    slice (p.repacked host mode ramdisk zeros).header 576 20 =
        (p.repacked host mode ramdisk zeros).id host mode ∧
      slice (p.repacked host mode ramdisk zeros).header 596 12 = List.replicate 12 0 := by
  obtain ⟨hident, hspare⟩ := slice_of_slice_append
    (repacked_header_ident host mode ramdisk zeros h)
  rw [length_bootId] at hident hspare
  rw [List.length_replicate] at hspare
  exact ⟨hident, hspare⟩

/-- The zeros at the end are of no account to the parts before them. -/
theorem bytes_repacked (zeros : ℕ) :
    (p.repacked host mode ramdisk zeros).bytes =
      (p.repacked host mode ramdisk 0).bytes ++ List.replicate zeros 0 := by
  simp only [Parts.bytes, Parts.repacked, List.replicate_zero, List.append_nil, List.append_assoc]

/-- The candidate is made up of the new parts, in the convention of the source. -/
theorem valid_of_parse (h : p.Sized) (hramdisk : ramdisk.length < 2 ^ 32) {candidate : BootImage}
    (hparse : parseImage host (p.repacked host mode ramdisk zeros).bytes = .ok candidate) :
    (p.repacked host mode ramdisk zeros).Valid host mode := by
  obtain ⟨q, mode', hq, hbytes, -⟩ := parts_of_parse hparse
  have hsame := hq.eq_of_bytes (h.repacked hramdisk) hbytes
  subst hsame
  have hmode := (hq.stored mode).mp (repacked_stored h).1.symm
  subst hmode
  exact hq

/-- Component behind component, the loop of additions lays out the new parts. -/
theorem bytes_result (p : Parts) (host : Host) (mode : IdMode) (ramdisk : Bytes) :
    patch (patch p.header 16 (pack32 ramdisk.length)) 576
        (bootId host p.kernel ramdisk p.second p.dt mode ++ List.replicate 12 0) ++
        p.kernel ++ List.replicate (align p.kernel.length p.page - p.kernel.length) 0 ++
        ramdisk ++ List.replicate (align ramdisk.length p.page - ramdisk.length) 0 ++
        p.second ++ List.replicate (align p.second.length p.page - p.second.length) 0 ++
        p.dt ++ List.replicate (align p.dt.length p.page - p.dt.length) 0 ++ rstrip 0 p.tail =
      (p.repacked host mode ramdisk 0).bytes := by
  simp only [Parts.bytes, Parts.repacked, block, padding, List.append_assoc, List.replicate_zero,
    List.append_nil]

/-- The rest of `repack`, once the parts of the source are known. -/
theorem repack_of_parts (h : p.Valid host mode) :
    repack host p.bytes ramdisk = (do
      validateGzipNewc host.gunzip ramdisk
      let _ ← packInto p.header 16 ramdisk.length
      let result := (p.repacked host mode ramdisk 0).bytes
      check (result.length ≤ maxImage) "repacked image exceeds 13 MiB limit"
      let result := result ++ List.replicate (p.bytes.length - result.length) 0
      let candidate ← parseImage host result
      let candidateKernel ← candidate.kernel
      let candidateDt ← candidate.dt
      let candidateSecond ← candidate.second
      check (candidateKernel = p.kernel ∧ candidateDt = p.dt ∧ candidateSecond = p.second ∧
        rstrip 0 candidate.tail = rstrip 0 p.tail) "repack changed preserved payload"
      pure result) := by
  obtain ⟨hpage, hkernel, -, hsecond, hdt, htail⟩ := h.describe_parts mode
  obtain ⟨hkernelSize, hsecondSize, hdtSize⟩ := h.describe_sizes mode
  have hheader : p.bytes.take p.page = p.header := List.take_left' h.header
  have hmode : (describe p.bytes mode).idMode = mode := rfl
  rw [repack, parse_of_parts h]
  simp only [bind, Except.bind, hpage, hkernel, hsecond, hdt, htail, hkernelSize, hsecondSize,
    hdtSize, hheader, hmode]
  cases hgzip : validateGzipNewc host.gunzip ramdisk with
  | error e => rfl
  | ok u =>
    dsimp only
    rw [packInto]
    split_ifs with hramdisk
    · dsimp only
      rw [bytes_result]
    · rfl

theorem packInto_eq_ok {header out : Bytes} {offset n : ℕ} :
    packInto header offset n = .ok out ↔ n < 2 ^ 32 ∧ out = patch header offset (pack32 n) := by
  rw [packInto]
  split_ifs with hn
  · rw [Except.ok.injEq, eq_comm, iff_and_self]
    exact fun _ => hn
  · exact iff_of_false nofun fun h => hn h.1

/-- How many zeros the new image needs to be as long as the source. -/
def Parts.lacking (host : Host) (p : Parts) (mode : IdMode) (ramdisk : Bytes) : ℕ :=
  p.bytes.length - (p.repacked host mode ramdisk 0).bytes.length

/-- What becomes of the parts of the source. -/
theorem repack_eq_ok (h : p.Valid host mode) {out : Bytes} :
    repack host p.bytes ramdisk = .ok out ↔
      ramdisk.length < 2 ^ 32 ∧ (p.repacked host mode ramdisk 0).bytes.length ≤ maxImage ∧
      (p.repacked host mode ramdisk (p.lacking host mode ramdisk)).Valid host mode ∧
      out = (p.repacked host mode ramdisk (p.lacking host mode ramdisk)).bytes := by
  rw [repack_of_parts h]
  dsimp only
  rw [← Parts.lacking, ← bytes_repacked]
  constructor
  · intro hout
    obtain ⟨_, -, hout⟩ := bind_eq_ok.mp hout
    obtain ⟨_, hpack, hout⟩ := bind_eq_ok.mp hout
    obtain ⟨_, hlength, hout⟩ := bind_eq_ok.mp hout
    obtain ⟨candidate, hparse, hout⟩ := bind_eq_ok.mp hout
    obtain ⟨_, -, hout⟩ := bind_eq_ok.mp hout
    obtain ⟨_, -, hout⟩ := bind_eq_ok.mp hout
    obtain ⟨_, -, hout⟩ := bind_eq_ok.mp hout
    obtain ⟨_, -, hout⟩ := bind_eq_ok.mp hout
    obtain ⟨hramdisk, -⟩ := packInto_eq_ok.mp hpack
    exact ⟨hramdisk, check_eq_ok.mp hlength, valid_of_parse h.toSized hramdisk hparse,
      (Except.ok.inj hout).symm⟩
  · rintro ⟨hramdisk, hlength, hvalid, rfl⟩
    obtain ⟨-, hkernel, -, hsecond, hdt, htail⟩ := hvalid.describe_parts mode
    refine bind_eq_ok.mpr ⟨(), hvalid.ramdisk, ?_⟩
    refine bind_eq_ok.mpr ⟨_, packInto_eq_ok.mpr ⟨hramdisk, rfl⟩, ?_⟩
    refine bind_eq_ok.mpr ⟨(), check_eq_ok.mpr hlength, ?_⟩
    refine bind_eq_ok.mpr ⟨_, parse_of_parts hvalid, ?_⟩
    refine bind_eq_ok.mpr ⟨_, hkernel, ?_⟩
    refine bind_eq_ok.mpr ⟨_, hdt, ?_⟩
    refine bind_eq_ok.mpr ⟨_, hsecond, ?_⟩
    refine bind_eq_ok.mpr ⟨(), check_eq_ok.mpr ⟨rfl, rfl, rfl, ?_⟩, rfl⟩
    rw [htail, Parts.repacked]
    dsimp only
    rw [rstrip_append_replicate, rstrip_rstrip]

end Repacked

/-! ### The three laws -/

section Laws

variable {host : Host} {p : Parts} {mode : IdMode}

/-- With its own ramdisk the header does not change. -/
theorem own_header (h : p.Valid host mode) (zeros : ℕ) :
    (p.repacked host mode p.ramdisk zeros).header = p.header := by
  have hsize : slice p.header 16 4 = pack32 p.ramdisk.length := by
    have hlength : (slice p.header 16 4).length = 4 :=
      length_slice (le_trans (by decide) h.headerMin_le)
    rw [← h.ramdiskSize, u32, pack32_unpack32 hlength]
  have hsizePatch : patch p.header 16 (pack32 p.ramdisk.length) = p.header := patch_self hsize
  have hident : bootId host p.kernel p.ramdisk p.second p.dt mode = slice p.header 576 20 :=
    (h.stored mode).mpr rfl
  rw [Parts.repacked]
  dsimp only
  rw [hsizePatch]
  refine patch_self ?_
  rw [length_ident, hident, ← h.spare]
  exact slice_add p.header 576 20 12

/-- With its own ramdisk an image has its own parts. -/
theorem repacked_own (h : p.Valid host mode) :
    p.repacked host mode p.ramdisk (p.lacking host mode p.ramdisk) = p := by
  have hparts : ∀ zeros, p.repacked host mode p.ramdisk zeros =
      { p with tail := rstrip 0 p.tail ++ List.replicate zeros 0 } := by
    intro zeros
    have hheader := own_header h zeros
    rw [Parts.repacked] at hheader ⊢
    dsimp only at hheader
    rw [hheader]
  have hfront : ∀ tail, ({ p with tail := tail } : Parts).bytes = p.front ++ tail :=
    fun tail => Parts.bytes_eq _
  have hlacking : p.lacking host mode p.ramdisk = p.tail.length - (rstrip 0 p.tail).length := by
    rw [Parts.lacking, hparts, p.bytes_eq, hfront, List.replicate_zero, List.append_nil,
      List.length_append, List.length_append]
    omega
  rw [hparts, hlacking, rstrip_append]

/-- A second ramdisk takes the place of the first. -/
theorem repacked_repacked (h : p.Sized) (r₁ r₂ : Bytes) (zeros₁ zeros₂ : ℕ) :
    (p.repacked host mode r₁ zeros₁).repacked host mode r₂ zeros₂ =
      p.repacked host mode r₂ zeros₂ := by
  obtain ⟨hmin, -⟩ := length_sizePatch h r₁.length
  have hident := fun r => length_ident host p.kernel r p.second p.dt mode
  have hheader : ((p.repacked host mode r₁ zeros₁).repacked host mode r₂ zeros₂).header =
      (p.repacked host mode r₂ zeros₂).header := by
    simp only [Parts.repacked]
    refine patch_patches rfl (by rw [hident, hident]) (by rw [length_pack32]; omega) ?_
    rw [hident]
    exact hmin
  have htail : rstrip 0 (rstrip 0 p.tail ++ List.replicate zeros₁ 0) = rstrip 0 p.tail := by
    rw [rstrip_append_replicate, rstrip_rstrip]
  simp only [Parts.repacked] at hheader ⊢
  rw [hheader, htail]

/-- The candidate keeps everything that `verify_against` compares. -/
theorem verifyAgainst_repacked (h : p.Valid host mode) {ramdisk : Bytes} {zeros : ℕ}
    (hvalid : (p.repacked host mode ramdisk zeros).Valid host mode) :
    verifyAgainst host p.bytes (p.repacked host mode ramdisk zeros).bytes =
      .ok (describe (p.repacked host mode ramdisk zeros).bytes mode) := by
  obtain ⟨hpage, hkernel, -, hsecond, hdt, htail⟩ := h.describe_parts mode
  obtain ⟨hpage', hkernel', -, hsecond', hdt', htail'⟩ := hvalid.describe_parts mode
  have hmin : 608 ≤ p.page := by
    rw [← h.header]
    exact h.headerMin_le
  have hslice : ∀ start length, start + length ≤ p.page →
      (start + length ≤ 16 ∨ 20 ≤ start ∧ start + length ≤ 576 ∨ 608 ≤ start) →
      slice p.bytes start length = slice (p.repacked host mode ramdisk zeros).bytes start length := by
    intro start length hend hplace
    rw [h.slice_header hend, hvalid.slice_header hend, repacked_header_slice h.toSized hplace]
  rw [verifyAgainst]
  refine bind_eq_ok.mpr ⟨_, parse_of_parts h, ?_⟩
  refine bind_eq_ok.mpr ⟨_, parse_of_parts hvalid, ?_⟩
  refine bind_eq_ok.mpr ⟨(), check_eq_ok.mpr ⟨?_, ?_, ?_⟩, ?_⟩
  · exact hslice 8 8 (by omega) (by omega)
  · exact hslice 20 556 (by omega) (by omega)
  · rw [hpage, hpage']
    exact hslice 608 (p.page - 608) (by omega) (by omega)
  refine bind_eq_ok.mpr ⟨_, hkernel, ?_⟩
  refine bind_eq_ok.mpr ⟨_, hkernel', ?_⟩
  refine bind_eq_ok.mpr ⟨_, hsecond, ?_⟩
  refine bind_eq_ok.mpr ⟨_, hsecond', ?_⟩
  refine bind_eq_ok.mpr ⟨_, hdt, ?_⟩
  refine bind_eq_ok.mpr ⟨_, hdt', ?_⟩
  refine bind_eq_ok.mpr ⟨(), check_eq_ok.mpr ⟨rfl, rfl, rfl, ?_⟩, rfl⟩
  rw [htail, htail', Parts.repacked]
  dsimp only
  rw [rstrip_append_replicate, rstrip_rstrip]

end Laws

section Images

variable {host : Host}

/-- An image repacked with its own ramdisk stays as it is. -/
theorem repack_own {source ramdisk : Bytes} {image : BootImage}
    (hparse : parseImage host source = .ok image) (hramdisk : image.ramdisk = .ok ramdisk) :
    repack host source ramdisk = .ok source := by
  obtain ⟨p, mode, h, rfl, rfl⟩ := parts_of_parse hparse
  obtain ⟨-, -, hown, -⟩ := h.describe_parts mode
  obtain rfl := Except.ok.inj (hown.symm.trans hramdisk)
  have hrepacked := repacked_own h
  have hlength : p.ramdisk.length < 2 ^ 32 := by
    obtain ⟨-, hend, -⟩ := range_eq_ok.mp (h.range_ramdisk "")
    have hmax := h.length
    rw [maxImage] at hmax
    omega
  refine (repack_eq_ok h).mpr ⟨hlength, ?_, ?_, ?_⟩
  · refine le_trans ?_ h.length
    conv_rhs => rw [← hrepacked, bytes_repacked]
    rw [List.length_append]
    omega
  · rw [hrepacked]
    exact h
  · rw [hrepacked]

/-- What has been repacked is verified against its source and holds the new ramdisk. -/
theorem verify_repack {source ramdisk out : Bytes} (hrepack : repack host source ramdisk = .ok out) :
    ∃ image, verifyAgainst host source out = .ok image ∧ image.ramdisk = .ok ramdisk := by
  obtain ⟨image, hparse, -⟩ := bind_eq_ok.mp (by rw [repack] at hrepack; exact hrepack)
  obtain ⟨p, mode, h, rfl, -⟩ := parts_of_parse hparse
  obtain ⟨-, -, hvalid, rfl⟩ := (repack_eq_ok h).mp hrepack
  obtain ⟨-, -, hnew, -⟩ := hvalid.describe_parts mode
  exact ⟨_, verifyAgainst_repacked h hvalid, hnew⟩

/-- Of two ramdisks, packed one after the other, the second counts. -/
theorem repack_repack {source r₁ r₂ once twice direct : Bytes}
    (honce : repack host source r₁ = .ok once) (htwice : repack host once r₂ = .ok twice)
    (hdirect : repack host source r₂ = .ok direct) : rstrip 0 twice = rstrip 0 direct := by
  obtain ⟨image, hparse, -⟩ := bind_eq_ok.mp (by rw [repack] at honce; exact honce)
  obtain ⟨p, mode, h, rfl, -⟩ := parts_of_parse hparse
  obtain ⟨-, -, hvalid, rfl⟩ := (repack_eq_ok h).mp honce
  obtain ⟨-, -, -, rfl⟩ := (repack_eq_ok hvalid).mp htwice
  obtain ⟨-, -, -, rfl⟩ := (repack_eq_ok h).mp hdirect
  have hstrip : ∀ zeros, rstrip 0 (p.repacked host mode r₂ zeros).bytes =
      rstrip 0 (p.repacked host mode r₂ 0).bytes := by
    intro zeros
    rw [bytes_repacked, rstrip_append_replicate]
  rw [repacked_repacked h.toSized]
  exact (hstrip _).trans (hstrip _).symm

/-- Another ramdisk in an image: its own changes nothing, any other is found in the candidate,
which is verified against the source, and a later one leaves no trace of an earlier. -/
theorem repack_laws (host : Host) (s r r₁ r₂ : Bytes) :
    (∀ image, parseImage host s = .ok image →
      ∃ own, image.ramdisk = .ok own ∧ repack host s own = .ok s) ∧
    (∀ out, repack host s r = .ok out →
      ∃ image, verifyAgainst host s out = .ok image ∧ image.ramdisk = .ok r) ∧
    (∀ once twice direct, repack host s r₁ = .ok once → repack host once r₂ = .ok twice →
      repack host s r₂ = .ok direct → rstrip 0 twice = rstrip 0 direct) := by
  refine ⟨fun image hparse => ?_, fun out => verify_repack, fun once twice direct => repack_repack⟩
  obtain ⟨p, mode, h, rfl, rfl⟩ := parts_of_parse hparse
  obtain ⟨-, -, hown, -⟩ := h.describe_parts mode
  exact ⟨p.ramdisk, hown, repack_own hparse hown⟩

end Images

/-! ### A small image -/

/-- An image whose identifier covers the device tree. -/
def smallParts : Parts where
  page := 2048
  header := imageMagic ++ ([40, 0, 63, 0, 1, 0, 0, 2048, 56, 0].flatMap pack32 ++
    (List.replicate 528 0 ++ ([234, 14, 192, 145, 33, 227, 209, 34, 122, 55, 193, 246, 155, 155, 85,
      26, 148, 21, 245, 31] ++ (List.replicate 12 0 ++ List.replicate 1440 0))))
  kernel := List.replicate 36 0 ++ [0x18, 0x28, 0x6f, 0x01]
  ramdisk := initOnlyStream
  second := [0x55]
  dt := dtbhMagic ++ ([2, 1, 0, 0, 0, 0, 0, 48, 8, 0, 0].flatMap pack32 ++
    [0xd0, 0x0d, 0xfe, 0xed, 0, 0, 0, 0])
  tail := [7, 0, 0]

/-- The same ramdisk, packed one second after the epoch. -/
def laterStream : Bytes := initOnlyStream.set 4 1

def smallComponents (ramdisk : Bytes) : Bytes :=
  [smallParts.kernel, ramdisk, smallParts.second].flatMap fun payload =>
    payload ++ pack32 payload.length

/-- The digests of the texts that are hashed for the two ramdisks. -/
def smallSha1 (text : Bytes) : Bytes :=
  let dt := smallParts.dt ++ pack32 smallParts.dt.length
  if text = smallComponents initOnlyStream ++ dt then
    [234, 14, 192, 145, 33, 227, 209, 34, 122, 55, 193, 246, 155, 155, 85, 26, 148, 21, 245, 31]
  else if text = smallComponents initOnlyStream then
    [233, 4, 40, 106, 81, 235, 3, 24, 195, 92, 234, 81, 12, 42, 155, 73, 168, 21, 159, 219]
  else if text = smallComponents laterStream ++ dt then
    [236, 83, 77, 76, 255, 0, 32, 147, 15, 133, 195, 198, 200, 51, 90, 81, 78, 149, 46, 76]
  else if text = smallComponents laterStream then
    [171, 122, 209, 176, 11, 54, 186, 65, 109, 203, 186, 102, 113, 153, 128, 107, 254, 225, 167,
    147]
  else List.replicate 20 0

def smallGunzip : Gunzip where
  read := fun stream =>
    if stream = initOnlyStream ∨ stream = laterStream then .ok initOnly.bytes else .error .osError
  magic := by
    intro stream archive hread _
    split_ifs at hread with hstream
    rcases hstream with rfl | rfl
    · decide
    · decide

def smallHost : Host where
  sha1 := smallSha1
  length_sha1 := by
    intro text
    rw [smallSha1]
    split_ifs <;> rfl
  gunzip := smallGunzip

theorem smallHost_accepts {stream : Bytes} (h : stream = initOnlyStream ∨ stream = laterStream) :
    validateGzipNewc smallHost.gunzip stream = .ok () :=
  (validateGzipNewc_eq_ok (if_pos h) (initOnly_length.trans_le (by decide))).mpr
    ⟨initOnly, initOnly_bootable.loose, by decide, rfl⟩

theorem smallParts_sized : smallParts.Sized where
  page := .inl rfl
  header := by set_option maxRecDepth 20000 in decide
  pageSize := by decide
  kernelSize := by decide
  ramdiskSize := by decide
  secondSize := by decide
  dtSize := by decide

theorem smallParts_valid : smallParts.Valid smallHost .dtSize where
  toSized := smallParts_sized
  length := by
    rw [smallParts_sized.length_bytes]
    decide
  magic := by decide
  kernelMagic := by decide
  ramdisk := smallHost_accepts (.inl rfl)
  dt := by decide
  stored := by
    rintro (_ | _)
    · exact iff_of_true (by set_option maxRecDepth 8000 in decide) rfl
    · exact iff_of_false (by set_option maxRecDepth 8000 in decide) nofun
  spare := by set_option maxRecDepth 8000 in decide

/-- The small image with the later ramdisk. -/
def laterParts : Parts := smallParts.repacked smallHost .dtSize laterStream 2

theorem laterParts_sized : laterParts.Sized := smallParts_sized.repacked (by decide)

theorem laterParts_valid : laterParts.Valid smallHost .dtSize where
  toSized := laterParts_sized
  length := by
    rw [laterParts_sized.length_bytes]
    decide
  magic := by decide
  kernelMagic := by decide
  ramdisk := smallHost_accepts (.inr rfl)
  dt := by decide
  stored := by
    rintro (_ | _)
    · exact iff_of_true (by set_option maxRecDepth 8000 in decide) rfl
    · exact iff_of_false (by set_option maxRecDepth 8000 in decide) nofun
  spare := by set_option maxRecDepth 8000 in decide

theorem repack_later : repack smallHost smallParts.bytes laterStream = .ok laterParts.bytes := by
  have hsized : (smallParts.repacked smallHost .dtSize laterStream 0).Sized :=
    smallParts_sized.repacked (by decide)
  have hlacking : smallParts.lacking smallHost .dtSize laterStream = 2 := by
    rw [Parts.lacking, smallParts_sized.length_bytes, hsized.length_bytes]
    decide
  refine (repack_eq_ok smallParts_valid).mpr ⟨by decide, ?_, ?_, ?_⟩
  · rw [hsized.length_bytes]
    decide
  · rw [hlacking]
    exact laterParts_valid
  · rw [hlacking]
    rfl

/-- Back to the first ramdisk. -/
theorem repack_back : repack smallHost laterParts.bytes initOnlyStream = .ok smallParts.bytes := by
  have hsized : (laterParts.repacked smallHost .dtSize initOnlyStream 0).Sized :=
    laterParts_sized.repacked (by decide)
  have hsized' : (smallParts.repacked smallHost .dtSize initOnlyStream 0).Sized :=
    smallParts_sized.repacked (by decide)
  have hlacking : laterParts.lacking smallHost .dtSize initOnlyStream =
      smallParts.lacking smallHost .dtSize initOnlyStream := by
    rw [Parts.lacking, Parts.lacking, smallParts_sized.length_bytes, laterParts_sized.length_bytes,
      hsized.length_bytes, hsized'.length_bytes]
    decide
  have hback : laterParts.repacked smallHost .dtSize initOnlyStream
      (laterParts.lacking smallHost .dtSize initOnlyStream) = smallParts := by
    rw [hlacking, laterParts, repacked_repacked smallParts_valid.toSized]
    exact repacked_own smallParts_valid
  refine (repack_eq_ok laterParts_valid).mpr ⟨by decide, ?_, ?_, ?_⟩
  · rw [hsized.length_bytes]
    decide
  · rw [hback]
    exact smallParts_valid
  · rw [hback]

theorem smallParts_laws :
    (∃ own, repack smallHost smallParts.bytes own = .ok smallParts.bytes) ∧
    (∃ image, verifyAgainst smallHost smallParts.bytes laterParts.bytes = .ok image ∧
      image.ramdisk = .ok laterStream) ∧
    ∃ direct, repack smallHost smallParts.bytes initOnlyStream = .ok direct ∧
      rstrip 0 smallParts.bytes = rstrip 0 direct := by
  obtain ⟨hown, hverify, htwice⟩ :=
    repack_laws smallHost smallParts.bytes laterStream laterStream initOnlyStream
  obtain ⟨own, hramdisk, hrepack⟩ := hown _ (parse_of_parts smallParts_valid)
  obtain ⟨-, -, hparts, -⟩ := smallParts_valid.describe_parts .dtSize
  obtain rfl := Except.ok.inj (hparts.symm.trans hramdisk)
  exact ⟨⟨_, hrepack⟩, hverify _ repack_later, _, hrepack,
    htwice _ _ _ repack_later repack_back hrepack⟩

end ForgeOS.Boot
