import ForgeOS.Library.Slices
import ForgeOS.Native.Engine

/-! The WAV file of the audio engine: `core_open_wav` goes through its chunks with two cursors, the
position in the file and a count, and `core_read_frames` reads the data chunk frame by frame. The
texts of the errors are left out. -/

namespace ForgeOS.Native.Wav

open ForgeOS.Library.Slices ForgeOS.Native.Engine

/-! ### The file -/

/-- A number whose least significant byte comes first; `le16` and `le32` -/
def littleEndian (bytes : Bytes) : ℕ := bytes.foldr (fun c v => c.toNat + 256 * v) 0

/-- `"RIFF"` -/
def riff : Bytes := [82, 73, 70, 70]

/-- `"WAVE"` -/
def wave : Bytes := [87, 65, 86, 69]

/-- `"fmt "` -/
def fmt : Bytes := [102, 109, 116, 32]

/-- `"data"` -/
def data : Bytes := [100, 97, 116, 97]

/-- A chunk with the byte that pads it to an even length. -/
structure Chunk where
  id : Bytes
  size : Bytes
  body : Bytes
  pad : Bytes
  length_id : id.length = 4
  length_size : size.length = 4
  size_eq : littleEndian size = body.length
  length_pad : pad.length = body.length % 2

def Chunk.render (c : Chunk) : Bytes := c.id ++ (c.size ++ (c.body ++ c.pad))

/-- PCM with two channels of 16 bits at 48 kHz, as the first sixteen bytes say it: the format, the
channels, the rate, the bytes in a second and in a frame, and the bits. -/
def pcm (format : Bytes) : Bool :=
  littleEndian (slice format 0 2) == 1 && littleEndian (slice format 2 2) == 2 &&
    littleEndian (slice format 4 4) == 48000 && littleEndian (slice format 8 4) == 192000 &&
    littleEndian (slice format 12 2) == 4 && littleEndian (slice format 14 2) == 16

/-- The chunks of a container that is as long as it says. -/
structure Container (file : Bytes) (chunks : List Chunk) : Prop where
  length : ∃ size : Bytes, size.length = 4 ∧ littleEndian size + 8 = file.length ∧
    file = riff ++ (size ++ (wave ++ chunks.flatMap Chunk.render))

/-- What `core_open_wav` asks of the chunks. -/
structure Playable (chunks : List Chunk) : Prop where
  fmt_once : chunks.countP (·.id = fmt) = 1
  fmt_pcm : ∀ c ∈ chunks, c.id = fmt → 16 ≤ c.body.length ∧ pcm (c.body.take 16) = true
  data_once : chunks.countP (·.id = data) = 1
  data_whole : ∀ c ∈ chunks, c.id = data → 0 < c.body.length ∧ c.body.length % frameBytes = 0

/-! ### `core_open_wav` -/

/-- `read_exact` at a position of the file. -/
def readExact (file : Bytes) (pos n : ℕ) : Option Bytes :=
  if pos + n ≤ file.length then some (slice file pos n) else none

/-- What the loop has found. -/
structure Found where
  gotFmt : Bool := false
  gotData : Bool := false
  dataOffset : ℕ := 0
  dataBytes : ℕ := 0
  deriving DecidableEq, Repr

/-- The loop looks at the body of a chunk. -/
def inspect (file : Bytes) (body length : ℕ) (id : Bytes) (f : Found) : Option Found :=
  if id = fmt then
    if f.gotFmt || length < 16 then none
    else
      match readExact file body 16 with
      | none => none
      | some format => if pcm format then some { f with gotFmt := true } else none
  else if id = data then
    if f.gotData || length % frameBytes != 0 then none
    else some { f with dataOffset := body, dataBytes := length, gotData := true }
  else some f

/-- The loop over the chunks. A round takes eight bytes at least, so there are no more rounds than
bytes. -/
def chunkLoop (file : Bytes) (riffEnd : ℕ) : ℕ → ℕ → ℕ → Found → Option Found
  | 0, _, _, _ => none
  | rounds + 1, cursor, pos, f =>
    if riffEnd ≤ cursor then some f
    else if riffEnd - cursor < 8 then none
    else
      match readExact file pos 8 with
      | none => none
      | some chunk =>
        let cursor := cursor + 8
        let body := pos + 8
        let length := littleEndian (slice chunk 4 4)
        let padded := length + length % 2
        if riffEnd - cursor < padded then none
        else
          match inspect file body length (chunk.take 4) f with
          | none => none
          | some f => chunkLoop file riffEnd rounds (cursor + padded) (body + padded) f

/-- `struct core_wav` with the position of the file. -/
structure CoreWav where
  dataOffset : ℕ
  dataBytes : ℕ
  positionFrames : ℕ
  pos : ℕ
  deriving DecidableEq, Repr

def coreOpenWav (file : Bytes) : Option CoreWav :=
  match readExact file 0 12 with
  | none => none
  | some header =>
    if header.take 4 ≠ riff ∨ slice header 8 4 ≠ wave then none
    else
      let riffEnd := littleEndian (slice header 4 4) + 8
      if riffEnd < 12 ∨ file.length ≠ riffEnd then none
      else
        match chunkLoop file riffEnd (file.length + 1) 12 12 {} with
        | none => none
        | some f =>
          if !f.gotFmt || !f.gotData || f.dataBytes == 0 then none
          else
            some { dataOffset := f.dataOffset, dataBytes := f.dataBytes, positionFrames := 0
                   pos := f.dataOffset }

/-- `core_rewind_wav` -/
def coreRewind (w : CoreWav) : CoreWav := { w with pos := w.dataOffset, positionFrames := 0 }

/-- `core_read_frames`, with what `read` gives at most, and the bytes that are delivered. -/
def coreRead (file : Bytes) (w : CoreWav) (frames : ℕ) (read : Option ℕ) : CoreWav × ℤ × Bytes :=
  let total := w.dataBytes / frameBytes
  if total ≤ w.positionFrames then (w, 0, [])
  else
    match read with
    | none => (w, -1, [])
    | some n =>
      let bytes := min frames (total - w.positionFrames) * frameBytes
      let got := min (min n bytes) (file.length - w.pos)
      if got = 0 ∨ got % frameBytes ≠ 0 then ({ w with pos := w.pos + got }, -1, [])
      else
        ({ w with pos := w.pos + got, positionFrames := w.positionFrames + got / frameBytes },
          ((got / frameBytes : ℕ) : ℤ), slice file w.pos got)

/-! ### One chunk -/

theorem Chunk.length_render (c : Chunk) :
    c.render.length = 8 + (c.body.length + c.body.length % 2) := by
  have hid := c.length_id
  have hsize := c.length_size
  have hpad := c.length_pad
  simp only [Chunk.render, List.length_append]
  omega

/-- What the loop does with a chunk whose body is at this place. -/
def scanChunk (offset : ℕ) (c : Chunk) (f : Found) : Option Found :=
  if c.id = fmt then
    if f.gotFmt || c.body.length < 16 || !pcm (c.body.take 16) then none
    else some { f with gotFmt := true }
  else if c.id = data then
    if f.gotData || c.body.length % frameBytes != 0 then none
    else some { f with dataOffset := offset, dataBytes := c.body.length, gotData := true }
  else some f

/-- The chunks from this place on. -/
def scan (offset : ℕ) : List Chunk → Found → Option Found
  | [], f => some f
  | c :: cs, f => (scanChunk (offset + 8) c f).bind (scan (offset + c.render.length) cs)

/-- Bytes that stand at a place are read there. -/
theorem readExact_append {file before bytes behind : Bytes} {pos n : ℕ}
    (hfile : file = before ++ (bytes ++ behind)) (hpos : before.length = pos)
    (hn : n ≤ bytes.length) : readExact file pos n = some (bytes.take n) := by
  have hlength := congrArg List.length hfile
  rw [List.length_append, List.length_append] at hlength
  rw [readExact, if_pos (by omega), slice, hfile, List.drop_left' hpos,
    List.take_append_of_le_length hn]

theorem readExact_eq_some {file bytes : Bytes} {pos n : ℕ} (h : readExact file pos n = some bytes) :
    bytes.length = n ∧ file.drop pos = bytes ++ file.drop (pos + n) := by
  unfold readExact at h
  split_ifs at h with hroom
  obtain rfl := Option.some.inj h
  refine ⟨length_slice hroom, ?_⟩
  rw [slice, ← List.drop_drop, List.take_append_drop]

theorem inspect_eq {file before behind : Bytes} {c : Chunk} {body : ℕ} (f : Found)
    (hfile : file = before ++ (c.body ++ behind)) (hbody : before.length = body) :
    inspect file body c.body.length c.id f = scanChunk body c f := by
  unfold inspect scanChunk
  by_cases hfmt : c.id = fmt
  · rw [if_pos hfmt, if_pos hfmt]
    by_cases hbad : (f.gotFmt || decide (c.body.length < 16)) = true
    · rw [if_pos hbad, if_pos (by rw [hbad]; rfl)]
    · have hlength : 16 ≤ c.body.length := by
        rw [Bool.or_eq_true, not_or, decide_eq_true_eq, Nat.not_lt] at hbad
        exact hbad.2
      rw [Bool.not_eq_true] at hbad
      rw [hbad, if_neg (by decide), readExact_append hfile hbody hlength]
      dsimp only
      cases hpcm : pcm (c.body.take 16)
      · rw [if_neg (by decide), if_pos (by decide)]
      · rw [if_pos rfl, if_neg (by decide)]
  · rw [if_neg hfmt, if_neg hfmt]

/-- One round of the loop over a chunk that is there. -/
theorem chunkLoop_succ {file before behind : Bytes} (c : Chunk) {riffEnd rounds pos : ℕ} (f : Found)
    (hfile : file = before ++ (c.render ++ behind)) (hpos : before.length = pos)
    (hend : riffEnd = file.length) :
    chunkLoop file riffEnd (rounds + 1) pos pos f =
      (scanChunk (pos + 8) c f).bind
        (chunkLoop file riffEnd rounds (pos + c.render.length) (pos + c.render.length)) := by
  have hlength := congrArg List.length hfile
  have hrender := c.length_render
  have hid := c.length_id
  have hsize := c.length_size
  rw [List.length_append, List.length_append] at hlength
  have hrow : file = before ++ ((c.id ++ c.size) ++ (c.body ++ c.pad ++ behind)) := by
    rw [hfile, Chunk.render]
    simp only [List.append_assoc]
  have hhead : readExact file pos 8 = some (c.id ++ c.size) := by
    have height : 8 = (c.id ++ c.size).length := by
      rw [List.length_append, hid, hsize]
    rw [readExact_append hrow hpos height.le, List.take_of_length_le height.ge]
  have hbody : file = (before ++ (c.id ++ c.size)) ++ (c.body ++ (c.pad ++ behind)) := by
    rw [hrow]
    simp only [List.append_assoc]
  have hname : (c.id ++ c.size).take 4 = c.id := List.take_left' hid
  have hnumber : slice (c.id ++ c.size) 4 4 = c.size := by
    rw [slice, List.drop_left' hid, List.take_of_length_le hsize.le]
  have hplace : (before ++ (c.id ++ c.size)).length = pos + 8 := by
    rw [List.length_append, List.length_append]
    omega
  have hnext : pos + 8 + (c.body.length + c.body.length % 2) = pos + c.render.length := by omega
  rw [chunkLoop, if_neg (by omega), if_neg (by omega), hhead]
  simp only [hname, hnumber, c.size_eq, inspect_eq f hbody hplace, hnext]
  rw [if_neg (by omega)]
  cases scanChunk (pos + 8) c f <;> rfl

/-- The loop reads chunks up to the end of the file. -/
theorem chunkLoop_chunks (chunks : List Chunk) {file : Bytes} {riffEnd : ℕ}
    (hend : riffEnd = file.length) :
    ∀ {before : Bytes} {rounds pos : ℕ} (f : Found), file = before ++ chunks.flatMap Chunk.render →
      before.length = pos → chunks.length < rounds →
      chunkLoop file riffEnd rounds pos pos f = scan pos chunks f := by
  induction chunks with
  | nil =>
    intro before rounds pos f hfile hpos hrounds
    obtain ⟨rounds, rfl⟩ : ∃ n, rounds = n + 1 := ⟨rounds - 1, by omega⟩
    rw [List.flatMap_nil, List.append_nil] at hfile
    rw [chunkLoop, if_pos (by rw [hend, hfile]; omega), scan]
  | cons c cs ih =>
    intro before rounds pos f hfile hpos hrounds
    rw [List.length_cons] at hrounds
    obtain ⟨rounds, rfl⟩ : ∃ n, rounds = n + 1 := ⟨rounds - 1, by omega⟩
    rw [List.flatMap_cons] at hfile
    rw [chunkLoop_succ c f hfile hpos hend, scan]
    congr 1
    funext f'
    have hrow : file = (before ++ c.render) ++ cs.flatMap Chunk.render := by
      rw [hfile, List.append_assoc]
    have hplace : (before ++ c.render).length = pos + c.render.length := by
      rw [List.length_append, hpos]
    exact ih f' hrow hplace (by omega)

/-- A head with as many bytes behind it as it says is a chunk. -/
theorem chunk_of_head {file head : Bytes} {pos : ℕ} (hhead : readExact file pos 8 = some head)
    (hroom : pos + 8 + (littleEndian (slice head 4 4) + littleEndian (slice head 4 4) % 2)
      ≤ file.length) :
    ∃ c : Chunk, file.drop pos = c.render ++ file.drop (pos + c.render.length) ∧
      c.render.length =
        8 + (littleEndian (slice head 4 4) + littleEndian (slice head 4 4) % 2) := by
  obtain ⟨hlength, hdrop⟩ := readExact_eq_some hhead
  generalize hsize : littleEndian (slice head 4 4) = length at *
  have hbody : (slice file (pos + 8) length).length = length := length_slice (by omega)
  have hpad : (slice file (pos + 8 + length) (length % 2)).length = length % 2 :=
    length_slice (by omega)
  have hsplit : head = head.take 4 ++ slice head 4 4 := by
    have hall : (head.drop 4).length ≤ 4 := by
      rw [List.length_drop, hlength]
    rw [slice, List.take_of_length_le hall, List.take_append_drop]
  let c : Chunk :=
    { id := head.take 4
      size := slice head 4 4
      body := slice file (pos + 8) length
      pad := slice file (pos + 8 + length) (length % 2)
      length_id := by rw [List.length_take, hlength]; rfl
      length_size := length_slice hlength.ge
      size_eq := by rw [hbody, hsize]
      length_pad := by rw [hbody, hpad] }
  have hrender : c.render.length = 8 + (length + length % 2) := by
    rw [Chunk.length_render]
    show 8 + ((slice file (pos + 8) length).length + _ % 2) = _
    rw [hbody]
  refine ⟨c, ?_, hrender⟩
  calc file.drop pos = head ++ file.drop (pos + 8) := hdrop
    _ = head ++ (slice file (pos + 8) length ++ (slice file (pos + 8 + length) (length % 2) ++
          file.drop (pos + 8 + length + length % 2))) := by
        rw [← drop_eq_slice_append, ← drop_eq_slice_append]
    _ = c.render ++ file.drop (pos + c.render.length) := by
        rw [hrender]
        nth_rewrite 1 [hsplit]
        simp only [Chunk.render, List.append_assoc, Nat.add_assoc, c]

/-- What the loop has gone through is a row of chunks. -/
theorem chunks_of_loop {file : Bytes} {riffEnd : ℕ} (hend : riffEnd = file.length) (rounds : ℕ) :
    ∀ {pos : ℕ} {f f' : Found}, pos ≤ file.length →
      chunkLoop file riffEnd rounds pos pos f = some f' →
      ∃ chunks : List Chunk,
        file.drop pos = chunks.flatMap Chunk.render ∧ chunks.length < rounds := by
  induction rounds with
  | zero =>
    intro pos f f' _ h
    cases h
  | succ rounds ih =>
    intro pos f f' hle h
    rw [chunkLoop] at h
    by_cases hdone : riffEnd ≤ pos
    · refine ⟨[], ?_, Nat.succ_pos _⟩
      rw [List.flatMap_nil, List.drop_eq_nil_of_le (by omega)]
    · rw [if_neg hdone] at h
      split_ifs at h with hshort
      cases hhead : readExact file pos 8 with
      | none =>
        rw [hhead] at h
        cases h
      | some chunk =>
        rw [hhead] at h
        obtain ⟨hchunk, hdrop⟩ := readExact_eq_some hhead
        dsimp only at h
        split_ifs at h with hpadded
        cases hbody : inspect file (pos + 8) (littleEndian (slice chunk 4 4)) (chunk.take 4) f with
        | none =>
          rw [hbody] at h
          cases h
        | some g =>
          rw [hbody] at h
          dsimp only at h
          obtain ⟨c, hrow, hnext⟩ := chunk_of_head hhead (by omega)
          rw [Nat.add_assoc, ← hnext] at h
          obtain ⟨chunks, hchunks, hcount⟩ := ih (by omega) h
          refine ⟨c :: chunks, ?_, ?_⟩
          · rw [List.flatMap_cons, ← hchunks, hrow]
          · rw [List.length_cons]
            omega

/-! ### What the loop finds -/

/-- The three ways to go past a chunk. -/
theorem scanChunk_eq_some {offset : ℕ} {c : Chunk} {f f' : Found} :
    scanChunk offset c f = some f' ↔
      (c.id = fmt ∧ f.gotFmt = false ∧ (16 ≤ c.body.length ∧ pcm (c.body.take 16) = true) ∧
          f' = { f with gotFmt := true }) ∨
        (c.id = data ∧ f.gotData = false ∧ c.body.length % frameBytes = 0 ∧
          f' = { f with dataOffset := offset, dataBytes := c.body.length, gotData := true }) ∨
        (c.id ≠ fmt ∧ c.id ≠ data ∧ f' = f) := by
  have hother : fmt ≠ data := by decide
  unfold scanChunk
  by_cases hfmt : c.id = fmt
  · have hdata : c.id ≠ data := fun h => hother (hfmt.symm.trans h)
    simp only [hfmt, hother, if_true, false_and, or_false, ne_eq, not_true, true_and]
    split_ifs with hbad
    · refine iff_of_false (fun h => by cases h) ?_
      rintro ⟨hgot, ⟨hlength, hpcm⟩, -⟩
      simp [hgot, hpcm] at hbad
      omega
    · simp only [Bool.or_eq_true, decide_eq_true_eq, Bool.not_eq_true', not_or, Bool.not_eq_true,
        Bool.not_eq_false, Nat.not_lt] at hbad
      obtain ⟨⟨hgot, hlength⟩, hpcm⟩ := hbad
      rw [Option.some.injEq]
      exact ⟨fun h => ⟨hgot, ⟨hlength, hpcm⟩, h.symm⟩, fun h => h.2.2.symm⟩
  · by_cases hdata : c.id = data
    · rw [if_neg hfmt, if_pos hdata]
      simp only [hdata, hother.symm, false_and, false_or, ne_eq, not_true, true_and, and_false,
        or_false]
      split_ifs with hbad
      · refine iff_of_false (fun h => by cases h) ?_
        rintro ⟨hgot, hwhole, -⟩
        simp [hgot, hwhole] at hbad
      · simp only [Bool.or_eq_true, bne_iff_ne, ne_eq, not_or, Bool.not_eq_true, not_not] at hbad
        rw [Option.some.injEq]
        exact ⟨fun h => ⟨hbad.1, hbad.2, h.symm⟩, fun h => h.2.2.symm⟩
    · simp only [hfmt, hdata, if_false, false_and, false_or, ne_eq, not_false_eq_true, true_and,
        Option.some.injEq]
      exact eq_comm

/-- What the loop has found in the chunks from a place on. -/
structure Scanned (offset : ℕ) (chunks : List Chunk) (f f' : Found) : Prop where
  fmt_count : chunks.countP (·.id = fmt) + f.gotFmt.toNat = f'.gotFmt.toNat
  fmt_pcm : ∀ c ∈ chunks, c.id = fmt → 16 ≤ c.body.length ∧ pcm (c.body.take 16) = true
  data_count : chunks.countP (·.id = data) + f.gotData.toNat = f'.gotData.toNat
  data_whole : ∀ c ∈ chunks, c.id = data → c.body.length % frameBytes = 0
  kept : (∀ c ∈ chunks, c.id ≠ data) → f'.dataOffset = f.dataOffset ∧ f'.dataBytes = f.dataBytes
  placed : ∀ before d behind, chunks = before ++ d :: behind → d.id = data →
    f'.dataOffset = offset + (before.flatMap Chunk.render).length + 8 ∧
      f'.dataBytes = d.body.length

theorem Scanned.nil (offset : ℕ) (f : Found) : Scanned offset [] f f := by
  refine ⟨?_, ?_, ?_, ?_, fun _ => ⟨rfl, rfl⟩, ?_⟩
  · simp
  · simp
  · simp
  · simp
  · intro before d behind h
    cases before <;> cases h

/-- A chunk of data has no other behind it. -/
theorem Scanned.no_data {offset : ℕ} {chunks : List Chunk} {f f' : Found}
    (h : Scanned offset chunks f f') (hgot : f.gotData = true) : ∀ c ∈ chunks, c.id ≠ data := by
  have hcount := h.data_count
  have hmost := Bool.toNat_le f'.gotData
  rw [hgot, Bool.toNat_true] at hcount
  have hzero : chunks.countP (·.id = data) = 0 := by omega
  intro c hc hid
  exact (List.countP_eq_zero.mp hzero) c hc (by rw [decide_eq_true_eq]; exact hid)

theorem Scanned.cons {offset : ℕ} {c : Chunk} {cs : List Chunk} {f g f' : Found}
    (hc : scanChunk (offset + 8) c f = some g) (hcs : Scanned (offset + c.render.length) cs g f') :
    Scanned offset (c :: cs) f f' := by
  have hother : fmt ≠ data := by decide
  have hplaced (hhead : c.id = data → f'.dataOffset = offset + 8 ∧ f'.dataBytes = c.body.length) :
      ∀ before d behind, c :: cs = before ++ d :: behind → d.id = data →
        f'.dataOffset = offset + (before.flatMap Chunk.render).length + 8 ∧
          f'.dataBytes = d.body.length := by
    rintro (_ | ⟨b, before⟩) d behind hrow hid
    · obtain ⟨rfl, -⟩ := List.cons.inj hrow
      exact hhead hid
    · obtain ⟨rfl, htail⟩ := List.cons.inj hrow
      rw [List.flatMap_cons, List.length_append, ← Nat.add_assoc]
      exact hcs.placed before d behind htail hid
  have hfmtCount := hcs.fmt_count
  have hdataCount := hcs.data_count
  rcases scanChunk_eq_some.mp hc with ⟨hid, hgot, hok, rfl⟩ | ⟨hid, hgot, hwhole, rfl⟩ |
    ⟨hfmt, hdata, rfl⟩
  · have hdata : c.id ≠ data := fun h => hother (hid.symm.trans h)
    refine ⟨?_, ?_, ?_, ?_, ?_, ?_⟩
    · simpa [hid, hgot, Nat.add_comm] using hfmtCount
    · exact List.forall_mem_cons.mpr ⟨fun _ => hok, hcs.fmt_pcm⟩
    · simpa [hdata] using hdataCount
    · exact List.forall_mem_cons.mpr ⟨fun h => absurd h hdata, hcs.data_whole⟩
    · exact fun hnone => hcs.kept (List.forall_mem_cons.mp hnone).2
    · exact hplaced fun h => absurd h hdata
  · have hfmt : c.id ≠ fmt := fun h => hother (h.symm.trans hid)
    refine ⟨?_, ?_, ?_, ?_, ?_, ?_⟩
    · simpa [hfmt] using hfmtCount
    · exact List.forall_mem_cons.mpr ⟨fun h => absurd h hfmt, hcs.fmt_pcm⟩
    · simpa [hid, hgot, Nat.add_comm] using hdataCount
    · exact List.forall_mem_cons.mpr ⟨fun _ => hwhole, hcs.data_whole⟩
    · exact fun hnone => absurd hid (List.forall_mem_cons.mp hnone).1
    · exact hplaced fun _ => hcs.kept (hcs.no_data rfl)
  · refine ⟨?_, ?_, ?_, ?_, ?_, ?_⟩
    · simpa [hfmt] using hfmtCount
    · exact List.forall_mem_cons.mpr ⟨fun h => absurd h hfmt, hcs.fmt_pcm⟩
    · simpa [hdata] using hdataCount
    · exact List.forall_mem_cons.mpr ⟨fun h => absurd h hdata, hcs.data_whole⟩
    · exact fun hnone => hcs.kept (List.forall_mem_cons.mp hnone).2
    · exact hplaced fun h => absurd h hdata

theorem scan_sound {chunks : List Chunk} :
    ∀ {offset : ℕ} {f f' : Found}, scan offset chunks f = some f' → Scanned offset chunks f f' := by
  induction chunks with
  | nil =>
    intro offset f f' h
    obtain rfl := Option.some.inj h
    exact Scanned.nil offset f
  | cons c cs ih =>
    intro offset f f' h
    obtain ⟨g, hc, hcs⟩ := Option.bind_eq_some_iff.mp h
    exact Scanned.cons hc (ih hcs)

/-- The loop goes past chunks of which at most one is a format and at most one is data. -/
theorem scan_complete {chunks : List Chunk} :
    ∀ {offset : ℕ} {f : Found}, chunks.countP (·.id = fmt) + f.gotFmt.toNat ≤ 1 →
      (∀ c ∈ chunks, c.id = fmt → 16 ≤ c.body.length ∧ pcm (c.body.take 16) = true) →
      chunks.countP (·.id = data) + f.gotData.toNat ≤ 1 →
      (∀ c ∈ chunks, c.id = data → c.body.length % frameBytes = 0) →
      ∃ f', scan offset chunks f = some f' := by
  have hother : fmt ≠ data := by decide
  induction chunks with
  | nil => exact fun _ _ _ _ => ⟨_, rfl⟩
  | cons c cs ih =>
    intro offset f hfmts hpcm hdatas hwhole
    rw [List.forall_mem_cons] at hpcm hwhole
    have hstep {g : Found} (hc : scanChunk (offset + 8) c f = some g)
        (hfmts : cs.countP (·.id = fmt) + g.gotFmt.toNat ≤ 1)
        (hdatas : cs.countP (·.id = data) + g.gotData.toNat ≤ 1) :
        ∃ f', scan offset (c :: cs) f = some f' := by
      obtain ⟨f', hcs⟩ := @ih (offset + c.render.length) g hfmts hpcm.2 hdatas hwhole.2
      exact ⟨f', Option.bind_eq_some_iff.mpr ⟨g, hc, hcs⟩⟩
    by_cases hfmt : c.id = fmt
    · have hdata : c.id ≠ data := fun h => hother (hfmt.symm.trans h)
      simp [hfmt] at hfmts
      simp [hdata] at hdatas
      have hgot : f.gotFmt = false := by
        cases hgot : f.gotFmt
        · rfl
        · rw [hgot, Bool.toNat_true] at hfmts
          omega
      refine hstep (scanChunk_eq_some.mpr (.inl ⟨hfmt, hgot, hpcm.1 hfmt, rfl⟩)) ?_ hdatas
      rw [Bool.toNat_true]
      omega
    · by_cases hdata : c.id = data
      · simp [hfmt] at hfmts
        simp [hdata] at hdatas
        have hgot : f.gotData = false := by
          cases hgot : f.gotData
          · rfl
          · rw [hgot, Bool.toNat_true] at hdatas
            omega
        refine hstep (scanChunk_eq_some.mpr (.inr (.inl ⟨hdata, hgot, hwhole.1 hdata, rfl⟩)))
          hfmts ?_
        rw [Bool.toNat_true]
        omega
      · simp [hfmt] at hfmts
        simp [hdata] at hdatas
        exact hstep (scanChunk_eq_some.mpr (.inr (.inr ⟨hfmt, hdata, rfl⟩))) hfmts hdatas

/-! ### What is opened -/

theorem length_le_render (chunks : List Chunk) :
    chunks.length ≤ (chunks.flatMap Chunk.render).length := by
  induction chunks with
  | nil => exact Nat.le_refl 0
  | cons c cs ih =>
    rw [List.flatMap_cons, List.length_append, Chunk.length_render, List.length_cons]
    omega

/-- The header of a file and what stands behind it. -/
theorem container_iff {file header : Bytes} {chunks : List Chunk}
    (hheader : readExact file 0 12 = some header) :
    Container file chunks ↔ header.take 4 = riff ∧ slice header 8 4 = wave ∧
      littleEndian (slice header 4 4) + 8 = file.length ∧
        file.drop 12 = chunks.flatMap Chunk.render := by
  obtain ⟨hlength, hdrop⟩ := readExact_eq_some hheader
  rw [List.drop_zero, Nat.zero_add] at hdrop
  have hend : slice header 8 4 = header.drop 8 := by
    have hall : (header.drop 8).length ≤ 4 := by
      rw [List.length_drop, hlength]
    rw [slice, List.take_of_length_le hall]
  constructor
  · rintro ⟨size, hsize, hsum, hfile⟩
    have hrow : file = (riff ++ (size ++ wave)) ++ chunks.flatMap Chunk.render := by
      rw [hfile]
      simp only [List.append_assoc]
    have htwelve : (riff ++ (size ++ wave)).length = 12 := by
      simp only [List.length_append, hsize, riff, wave, List.length_cons, List.length_nil]
    obtain ⟨rfl, hbehind⟩ := List.append_inj (hdrop.symm.trans hrow) (by rw [hlength, htwelve])
    have hnumber : slice (riff ++ (size ++ wave)) 4 4 = size := slice_append rfl hsize
    rw [hnumber, hbehind]
    refine ⟨List.take_left' rfl, ?_, hsum, rfl⟩
    rw [hend, ← List.append_assoc, List.drop_left']
    rw [List.length_append, hsize]
    rfl
  · rintro ⟨hriff, hwave, hsum, hchunks⟩
    refine ⟨slice header 4 4, length_slice (by omega), hsum, ?_⟩
    calc file = header ++ file.drop 12 := hdrop
      _ = (header.take 4 ++ (slice header 4 4 ++ header.drop 8)) ++ file.drop 12 := by
          rw [← slice_split]
      _ = _ := by
          rw [hriff, ← hend, hwave, hchunks]
          simp only [List.append_assoc]

theorem Scanned.dataBytes_eq {offset : ℕ} {chunks : List Chunk} {f f' : Found}
    (h : Scanned offset chunks f f') {d : Chunk} (hd : d ∈ chunks) (hid : d.id = data) :
    f'.dataBytes = d.body.length := by
  obtain ⟨before, behind, hrow⟩ := List.append_of_mem hd
  exact (h.placed before d behind hrow hid).2

/-- Playable chunks are those in which the loop finds a format and data. -/
theorem playable_iff (offset : ℕ) {chunks : List Chunk} :
    Playable chunks ↔ ∃ f, scan offset chunks {} = some f ∧ f.gotFmt = true ∧ f.gotData = true ∧
      f.dataBytes ≠ 0 := by
  constructor
  · intro h
    obtain ⟨f, hf⟩ := @scan_complete _ offset {} h.fmt_once.le h.fmt_pcm
      h.data_once.le fun c hc hid => (h.data_whole c hc hid).2
    have hscan := scan_sound hf
    have hfmt := hscan.fmt_count
    have hdata := hscan.data_count
    rw [h.fmt_once, Bool.toNat_false, Nat.add_zero, eq_comm, Bool.toNat_eq_one] at hfmt
    rw [h.data_once, Bool.toNat_false, Nat.add_zero, eq_comm, Bool.toNat_eq_one] at hdata
    obtain ⟨d, hd, hid⟩ := List.countP_pos_iff.mp (h.data_once ▸ Nat.one_pos)
    rw [decide_eq_true_eq] at hid
    refine ⟨f, hf, hfmt, hdata, ?_⟩
    rw [hscan.dataBytes_eq hd hid]
    exact (h.data_whole d hd hid).1.ne'
  · rintro ⟨f, hf, hfmt, hdata, hbytes⟩
    have hscan := scan_sound hf
    refine ⟨?_, hscan.fmt_pcm, ?_, fun d hd hid => ⟨?_, hscan.data_whole d hd hid⟩⟩
    · rw [← Nat.add_zero (List.countP _ _), ← Bool.toNat_false, hscan.fmt_count, hfmt]
      rfl
    · rw [← Nat.add_zero (List.countP _ _), ← Bool.toNat_false, hscan.data_count, hdata]
      rfl
    · rw [← hscan.dataBytes_eq hd hid]
      exact Nat.pos_of_ne_zero hbytes

/-- The loop over a container that has been opened finds what its chunks have. -/
theorem chunkLoop_container {file : Bytes} {chunks : List Chunk} (hfile : 12 ≤ file.length)
    (hchunks : file.drop 12 = chunks.flatMap Chunk.render) :
    chunkLoop file file.length (file.length + 1) 12 12 {} = scan 12 chunks {} := by
  have hrow : file = file.take 12 ++ chunks.flatMap Chunk.render := by
    rw [← hchunks, List.take_append_drop]
  have hplace : (file.take 12).length = 12 := by
    rw [List.length_take, min_eq_left hfile]
  have hcount := length_le_render chunks
  rw [← hchunks, List.length_drop] at hcount
  exact chunkLoop_chunks chunks rfl {} hrow hplace (by omega)

/-- `core_open_wav` opens the containers of playable chunks, at their data. -/
theorem coreOpenWav_eq_some {file : Bytes} {w : CoreWav} :
    coreOpenWav file = some w ↔ ∃ chunks f, Container file chunks ∧
      scan 12 chunks {} = some f ∧ f.gotFmt = true ∧ f.gotData = true ∧ f.dataBytes ≠ 0 ∧
        w = { dataOffset := f.dataOffset, dataBytes := f.dataBytes, positionFrames := 0
              pos := f.dataOffset } := by
  unfold coreOpenWav
  cases hheader : readExact file 0 12 with
  | none =>
    refine iff_of_false (fun h => by cases h) ?_
    rintro ⟨chunks, f, ⟨size, hsize, -, hfile⟩, -⟩
    have hlength := congrArg List.length hfile
    simp only [List.length_append, hsize, riff, wave, List.length_cons, List.length_nil] at hlength
    rw [readExact, if_pos (by omega)] at hheader
    cases hheader
  | some header =>
    obtain ⟨hheaderLength, hdrop⟩ := readExact_eq_some hheader
    have hfile : 12 ≤ file.length := by
      have hlength := congrArg List.length hdrop
      rw [List.length_append, hheaderLength, List.length_drop, List.length_drop] at hlength
      omega
    have hcontainer (chunks : List Chunk) := @container_iff file header chunks hheader
    dsimp only
    split_ifs with hmarks hlength
    · refine iff_of_false (fun h => by cases h) ?_
      rintro ⟨chunks, f, hopen, -⟩
      obtain ⟨hriff, hwave, -, -⟩ := (hcontainer chunks).mp hopen
      exact hmarks.elim (fun h => h hriff) fun h => h hwave
    · refine iff_of_false (fun h => by cases h) ?_
      rintro ⟨chunks, f, hopen, -⟩
      obtain ⟨-, -, hsum, -⟩ := (hcontainer chunks).mp hopen
      omega
    · simp only [not_or, not_not, Nat.not_lt] at hmarks hlength
      rw [← hlength.2]
      constructor
      · intro h
        cases hloop : chunkLoop file file.length (file.length + 1) 12 12 {} with
        | none =>
          rw [hloop] at h
          cases h
        | some f =>
          rw [hloop] at h
          dsimp only at h
          split_ifs at h with hbad
          simp only [Bool.or_eq_true, Bool.not_eq_true', beq_iff_eq, not_or,
            Bool.not_eq_false] at hbad
          obtain ⟨chunks, hchunks, -⟩ := chunks_of_loop rfl _ hfile hloop
          rw [chunkLoop_container hfile hchunks] at hloop
          exact ⟨chunks, f, (hcontainer chunks).mpr ⟨hmarks.1, hmarks.2, hlength.2.symm, hchunks⟩,
            hloop, hbad.1.1, hbad.1.2, hbad.2, (Option.some.inj h).symm⟩
      · rintro ⟨chunks, f, hopen, hscan, hfmt, hdata, hbytes, rfl⟩
        obtain ⟨-, -, -, hchunks⟩ := (hcontainer chunks).mp hopen
        rw [chunkLoop_container hfile hchunks, hscan]
        dsimp only
        rw [if_neg]
        rw [hfmt, hdata, Bool.not_true, Bool.false_or, Bool.false_or, beq_iff_eq]
        exact hbytes

/-! ### What is read -/

/-- Calls of `core_read_frames` in a row, each with the frames that are asked for and what `read`
gives at most, and the bytes that they deliver. -/
def coreReads (file : Bytes) : CoreWav → List (ℕ × ℕ) → CoreWav × Bytes
  | w, [] => (w, [])
  | w, (frames, n) :: calls =>
    let once := coreRead file w frames (some n)
    let rest := coreReads file once.1 calls
    (rest.1, once.2.2 ++ rest.2)

/-- The frames up to the position have been read, and the file is at the next one. -/
structure Reading (file : Bytes) (body : Bytes) (w : CoreWav) : Prop where
  body_eq : slice file w.dataOffset body.length = body
  bytes_eq : w.dataBytes = body.length
  whole : body.length % frameBytes = 0
  room : w.dataOffset + body.length ≤ file.length
  position_le : w.positionFrames ≤ body.length / frameBytes
  pos_eq : w.pos = w.dataOffset + w.positionFrames * frameBytes

theorem Reading.rewind {file body : Bytes} {w : CoreWav} (h : Reading file body w) :
    Reading file body (coreRewind w) :=
  ⟨h.body_eq, h.bytes_eq, h.whole, h.room, Nat.zero_le _, by simp [coreRewind]⟩

/-- What a call gives when `read` gives whole frames: the next frames, at least one of them as long
as there are any and some are asked for. -/
theorem Reading.read {file body : Bytes} {w : CoreWav} (h : Reading file body w) (frames : ℕ)
    {n : ℕ} (hn : 0 < n) (hwhole : n % frameBytes = 0) :
    ∃ k, k ≤ frames ∧ Reading file body { w with
        positionFrames := w.positionFrames + k, pos := w.pos + k * frameBytes } ∧
      (k = 0 → frames = 0 ∨ w.positionFrames = body.length / frameBytes) ∧
      coreRead file w frames (some n) =
        ({ w with positionFrames := w.positionFrames + k, pos := w.pos + k * frameBytes },
          if k = 0 ∧ w.positionFrames < body.length / frameBytes then -1 else (k : ℤ),
          slice body (w.positionFrames * frameBytes) (k * frameBytes)) := by
  have hbytes := h.bytes_eq
  have hbody := h.whole
  have hroom := h.room
  have hle := h.position_le
  have hpos := h.pos_eq
  by_cases hend : body.length / frameBytes ≤ w.positionFrames
  · refine ⟨0, Nat.zero_le _, ?_, fun _ => .inr (Nat.le_antisymm hle hend), ?_⟩
    · simpa using h
    · have hnone : coreRead file w frames (some n) = (w, 0, []) := by
        rw [coreRead, hbytes, if_pos hend]
      rw [hnone, if_neg fun hsome => absurd hsome.2 (not_lt.mpr hend), Nat.zero_mul]
      rfl
  · -- what is left in the file is enough for the frames that are asked for
    have hk : ∃ k,
        min (min n (min frames (body.length / frameBytes - w.positionFrames) * frameBytes))
          (file.length - w.pos) = k * frameBytes ∧ k ≤ frames ∧
          w.positionFrames + k ≤ body.length / frameBytes ∧ (k = 0 → frames = 0) := by
      refine ⟨min (n / frameBytes) (min frames (body.length / frameBytes - w.positionFrames)), ?_⟩
      simp only [frameBytes] at *
      omega
    obtain ⟨k, hgot, hasked, hmost, hzero⟩ := hk
    have hframes : k * frameBytes / frameBytes = k := Nat.mul_div_cancel k (by decide)
    have hinside : w.positionFrames * frameBytes + k * frameBytes ≤ body.length := by
      simp only [frameBytes] at *
      omega
    refine ⟨k, hasked, ?_, fun hk => .inl (hzero hk), ?_⟩
    · refine ⟨h.body_eq, hbytes, hbody, hroom, hmost, ?_⟩
      show w.pos + k * frameBytes = w.dataOffset + (w.positionFrames + k) * frameBytes
      rw [hpos, Nat.add_mul, Nat.add_assoc]
    · have hslice : slice file w.pos (k * frameBytes) =
          slice body (w.positionFrames * frameBytes) (k * frameBytes) := by
        have hpiece := slice_slice file w.dataOffset hinside
        rw [h.body_eq] at hpiece
        rw [hpiece, hpos]
      simp only [coreRead, hbytes, if_neg hend, hgot, hframes, hslice]
      by_cases hk : k = 0
      · subst hk
        rw [if_pos (.inl (Nat.zero_mul _)), if_pos ⟨rfl, not_le.mp hend⟩, Nat.zero_mul]
        rfl
      · rw [if_neg, if_neg fun h => hk h.1]
        rw [Nat.mul_mod_left, not_or, not_not]
        exact ⟨Nat.mul_ne_zero hk (by decide), rfl⟩

/-- Calls in a row deliver the frames from one position to the next; each of them that asks for a
frame gets one, as long as there are any. -/
theorem Reading.reads {file body : Bytes} (calls : List (ℕ × ℕ))
    (hcalls : ∀ c ∈ calls, 0 < c.2 ∧ c.2 % frameBytes = 0) :
    ∀ {w : CoreWav}, Reading file body w →
      Reading file body (coreReads file w calls).1 ∧
        w.positionFrames ≤ (coreReads file w calls).1.positionFrames ∧
        min (body.length / frameBytes) (w.positionFrames + calls.countP fun c => 0 < c.1) ≤
          (coreReads file w calls).1.positionFrames ∧
        (coreReads file w calls).2 = slice body (w.positionFrames * frameBytes)
          (((coreReads file w calls).1.positionFrames - w.positionFrames) * frameBytes) := by
  induction calls with
  | nil =>
    intro w h
    refine ⟨h, Nat.le_refl _, Nat.min_le_right _ _, ?_⟩
    rw [coreReads, Nat.sub_self, Nat.zero_mul]
    rfl
  | cons c calls ih =>
    intro w h
    obtain ⟨⟨hn, hwhole⟩, hcalls⟩ := List.forall_mem_cons.mp hcalls
    obtain ⟨k, hasked, hnext, hzero, hread⟩ := h.read c.1 hn hwhole
    obtain ⟨hend, hle, hmin, hbytes⟩ := ih hcalls hnext
    dsimp only at hle hmin hbytes
    simp only [coreReads, hread]
    generalize hlast : (coreReads file { w with
      positionFrames := w.positionFrames + k, pos := w.pos + k * frameBytes } calls) = last at *
    refine ⟨hend, by omega, ?_, ?_⟩
    · by_cases hframes : 0 < c.1
      · rw [List.countP_cons_of_pos (by rw [decide_eq_true_eq]; exact hframes)]
        have hle := hend.position_le
        have hposition := h.position_le
        by_cases hk : k = 0
        · have htotal := (hzero hk).resolve_left hframes.ne'
          omega
        · omega
      · rw [List.countP_cons_of_neg (by rw [decide_eq_true_eq]; exact hframes)]
        omega
    · have hsum : last.1.positionFrames - w.positionFrames =
          k + (last.1.positionFrames - (w.positionFrames + k)) := by omega
      rw [hbytes, hsum, Nat.add_mul, Nat.add_mul, ← slice_add]

/-- The body of a chunk stands in the file behind the chunks before it. -/
theorem Container.body_at {file : Bytes} {before behind : List Chunk} {d : Chunk}
    (h : Container file (before ++ d :: behind)) :
    slice file (12 + (before.flatMap Chunk.render).length + 8) d.body.length = d.body ∧
      12 + (before.flatMap Chunk.render).length + 8 + d.body.length ≤ file.length := by
  obtain ⟨size, hsize, -, hfile⟩ := h.length
  have hrow : file = (riff ++ (size ++ (wave ++ (before.flatMap Chunk.render ++ (d.id ++ d.size)))))
      ++ (d.body ++ (d.pad ++ behind.flatMap Chunk.render)) := by
    rw [hfile, List.flatMap_append, List.flatMap_cons, Chunk.render]
    simp only [List.append_assoc]
  have hplace :
      (riff ++ (size ++ (wave ++ (before.flatMap Chunk.render ++ (d.id ++ d.size))))).length
        = 12 + (before.flatMap Chunk.render).length + 8 := by
    simp only [List.length_append, hsize, d.length_id, d.length_size, riff, wave, List.length_cons,
      List.length_nil]
    omega
  constructor
  · rw [hrow]
    exact slice_append hplace rfl
  · have hlength := congrArg List.length hrow
    rw [List.length_append, hplace, List.length_append] at hlength
    omega

/-- `core_open_wav` opens the containers of playable chunks, and has the place of the data; reads of
whole frames after a rewind deliver its frames in order, all of them once there are as many calls
that ask for one, and then none. -/
theorem coreOpenWav_spec (file : Bytes) :
    ((coreOpenWav file).isSome ↔ ∃ chunks, Container file chunks ∧ Playable chunks) ∧
      ∀ w, coreOpenWav file = some w → ∃ before d behind,
        Container file (before ++ d :: behind) ∧ Playable (before ++ d :: behind) ∧ d.id = data ∧
          w.dataOffset = 12 + (before.flatMap Chunk.render).length + 8 ∧
          w.dataBytes = d.body.length ∧ slice file w.dataOffset w.dataBytes = d.body ∧
          ∀ calls : List (ℕ × ℕ), (∀ c ∈ calls, 0 < c.2 ∧ c.2 % frameBytes = 0) →
            ∀ w' delivered, coreReads file (coreRewind w) calls = (w', delivered) →
              delivered = d.body.take (w'.positionFrames * frameBytes) ∧
              w'.positionFrames ≤ w.dataBytes / 4 ∧
              (w.dataBytes / 4 ≤ (calls.countP fun c => 0 < c.1) →
                w'.positionFrames = w.dataBytes / 4 ∧ delivered = d.body) ∧
              ∀ frames n, 0 < frames → 0 < n → n % frameBytes = 0 →
                (w'.positionFrames < w.dataBytes / 4 →
                  ∃ k : ℕ, 0 < k ∧ k ≤ frames ∧ (coreRead file w' frames (some n)).2 =
                    ((k : ℤ), slice d.body (w'.positionFrames * frameBytes) (k * frameBytes))) ∧
                (w'.positionFrames = w.dataBytes / 4 →
                  coreRead file w' frames (some n) = (w', 0, [])) := by
  constructor
  · rw [Option.isSome_iff_exists]
    constructor
    · rintro ⟨w, hw⟩
      obtain ⟨chunks, f, hopen, hscan, hfound⟩ := coreOpenWav_eq_some.mp hw
      exact ⟨chunks, hopen, (playable_iff 12).mpr ⟨f, hscan, hfound.1, hfound.2.1, hfound.2.2.1⟩⟩
    · rintro ⟨chunks, hopen, hplay⟩
      obtain ⟨f, hscan, hfmt, hdata, hbytes⟩ := (playable_iff 12).mp hplay
      exact ⟨_, coreOpenWav_eq_some.mpr ⟨chunks, f, hopen, hscan, hfmt, hdata, hbytes, rfl⟩⟩
  · intro w hw
    obtain ⟨chunks, f, hopen, hscan, hfmt, hdata, hbytes, rfl⟩ := coreOpenWav_eq_some.mp hw
    have hplay := (playable_iff 12).mpr ⟨f, hscan, hfmt, hdata, hbytes⟩
    obtain ⟨d, hd, hid⟩ := List.countP_pos_iff.mp (hplay.data_once ▸ Nat.one_pos)
    rw [decide_eq_true_eq] at hid
    obtain ⟨before, behind, rfl⟩ := List.append_of_mem hd
    obtain ⟨hoffset, hlength⟩ := (scan_sound hscan).placed before d behind rfl hid
    obtain ⟨hbody, hroom⟩ := hopen.body_at
    obtain ⟨hpos, hwhole⟩ := hplay.data_whole d hd hid
    rw [← hoffset] at hbody hroom
    refine ⟨before, d, behind, hopen, hplay, hid, hoffset, hlength, by rw [hlength, hbody], ?_⟩
    intro calls hcalls w' delivered hreads
    have hstart : Reading file d.body { dataOffset := f.dataOffset, dataBytes := f.dataBytes
                                        positionFrames := 0, pos := f.dataOffset } :=
      ⟨hbody, hlength, hwhole, hroom, Nat.zero_le _, by rw [Nat.zero_mul, Nat.add_zero]⟩
    obtain ⟨hend, -, hmin, hdelivered⟩ := Reading.reads calls hcalls hstart.rewind
    rw [hreads] at hend hmin hdelivered
    dsimp only at hend hmin hdelivered
    have hinit : delivered = d.body.take (w'.positionFrames * frameBytes) := by
      rw [hdelivered]
      show slice d.body (0 * frameBytes) ((w'.positionFrames - 0) * frameBytes) = _
      rw [Nat.zero_mul, slice_zero, Nat.sub_zero]
    have htotal : f.dataBytes / 4 = d.body.length / frameBytes := by rw [hlength, frameBytes]
    have hle := hend.position_le
    dsimp only
    rw [htotal]
    refine ⟨hinit, hle, ?_, ?_⟩
    · intro hcount
      have hall : w'.positionFrames = d.body.length / frameBytes := by
        simp only [coreRewind, Nat.zero_add] at hmin
        omega
      refine ⟨hall, ?_⟩
      rw [hinit, hall, Nat.div_mul_cancel (Nat.dvd_of_mod_eq_zero hwhole), List.take_length]
    · intro frames n hframes hn hn4
      obtain ⟨k, hasked, -, hzero, hread⟩ := hend.read frames hn hn4
      constructor
      · intro hless
        have hk : k ≠ 0 := fun hk => (hzero hk).elim hframes.ne' hless.ne
        refine ⟨k, Nat.pos_of_ne_zero hk, hasked, ?_⟩
        rw [hread, if_neg fun h => hk h.1]
      · intro hall
        rw [coreRead, if_pos]
        rw [hend.bytes_eq, hall]

/-- Two frames behind a chunk of one byte and its padding. -/
def twoFrames : Bytes :=
  riff ++ ([54, 0, 0, 0] ++ (wave ++ ([76, 73, 83, 84, 1, 0, 0, 0, 7, 0] ++ (data ++
    ([8, 0, 0, 0] ++ ([1, 2, 3, 4, 5, 6, 7, 8] ++ (fmt ++ ([16, 0, 0, 0] ++
      [1, 0, 2, 0, 128, 187, 0, 0, 0, 238, 2, 0, 4, 0, 16, 0]))))))))

set_option maxRecDepth 4000 in
theorem coreOpenWav_twoFrames :
    ∃ w : CoreWav, coreOpenWav twoFrames = some w ∧
      (coreReads twoFrames (coreRewind w) [(1, 4), (9, 40)]).1.positionFrames =
        w.dataBytes / 4 := by
  obtain ⟨w, hw⟩ : ∃ w, coreOpenWav twoFrames = some w := Option.isSome_iff_exists.mp (by decide)
  obtain ⟨before, d, behind, -, -, -, -, -, -, hreads⟩ := (coreOpenWav_spec twoFrames).2 w hw
  have hcalls : ∀ c ∈ [(1, 4), (9, 40)], 0 < c.2 ∧ c.2 % frameBytes = 0 := by decide
  have hbytes : w.dataBytes = 8 := by
    have hsome : (coreOpenWav twoFrames).map CoreWav.dataBytes = some 8 := by decide
    rw [hw, Option.map_some, Option.some.injEq] at hsome
    exact hsome
  refine ⟨w, hw, ((hreads _ hcalls _ _ rfl).2.2.1 ?_).1⟩
  rw [hbytes]
  decide

/-! ### The frames of the engine -/

/-- The engine counts the frames that are read here: the bytes do not matter to it. -/
theorem coreReadFrames_coreRead {file body : Bytes} {w : CoreWav} (h : Reading file body w)
    (wav : Wav) (hbytes : wav.dataBytes = w.dataBytes)
    (hframes : wav.positionFrames = w.positionFrames) (frames : ℕ) (read : Option ℕ) :
    (coreReadFrames wav frames read).1.positionFrames =
        (coreRead file w frames read).1.positionFrames ∧
      (coreRead file w frames read).2.1 =
        (coreReadFrames wav frames read).2.elim (-1 : ℤ) (↑·) := by
  have hle := h.position_le
  have hroom := h.room
  have hpos := h.pos_eq
  have hsame := h.bytes_eq
  have htotal : wav.total = w.dataBytes / frameBytes := by rw [Wav.total, hbytes]
  simp only [coreReadFrames, coreRead, htotal, hframes]
  by_cases hend : w.dataBytes / frameBytes ≤ w.positionFrames
  · rw [if_pos hend, if_pos hend]
    exact ⟨hframes, rfl⟩
  · rw [if_neg hend, if_neg hend]
    cases read with
    | none => exact ⟨hframes, rfl⟩
    | some n =>
      have hgot :
          min (min n (min frames (w.dataBytes / frameBytes - w.positionFrames) * frameBytes))
            (file.length - w.pos) =
            min n (min frames (w.dataBytes / frameBytes - w.positionFrames) * frameBytes) := by
        rw [min_eq_left]
        simp only [frameBytes] at *
        omega
      simp only [hgot]
      split_ifs with hbad
      · exact ⟨hframes, rfl⟩
      · exact ⟨rfl, rfl⟩

end ForgeOS.Native.Wav
