import ForgeOS.Native.Stores

/-! `ws_message` of the music bridge: a text message that comes in frames, with pings and pongs before
and between them. The peer's bytes are a stream; a read fails where the stream ends, and what has come of it is
stored by then. Whether a pong can be sent is a parameter. -/

namespace ForgeOS.Native.WebSocket

/-! ### Frames -/

/-- A number whose most significant byte comes first. -/
def bigEndian (bytes : Bytes) : ℕ := bytes.foldl (fun n c => 256 * n + c.toNat) 0

/-- The first byte of a frame with no reserved bit. -/
def firstByte (final : Bool) (opcode : UInt8) : UInt8 := (if final then 128 else 0) ||| opcode

/-- The length of a payload, behind the mask bit, which is not set: in seven bits, or in the two or
eight bytes that 126 and 127 announce. -/
inductive LengthBytes (n : ℕ) : Bytes → Prop
  | short (h : n < 126) : LengthBytes n [.ofNat n]
  | medium {e : Bytes} (he : e.length = 2) (hn : bigEndian e = n) : LengthBytes n (126 :: e)
  | long {e : Bytes} (he : e.length = 8) (hn : bigEndian e = n) : LengthBytes n (127 :: e)

/-- An unmasked frame. -/
structure Frame where
  final : Bool
  opcode : UInt8
  length : Bytes
  payload : Bytes
  opcode_lt : opcode < 16
  length_bytes : LengthBytes payload.length length

def Frame.render (f : Frame) : Bytes := firstByte f.final f.opcode :: (f.length ++ f.payload)

/-- A ping or a pong. -/
structure Frame.Control (f : Frame) : Prop where
  final : f.final = true
  opcode : f.opcode = 9 ∨ f.opcode = 10
  size : f.payload.length ≤ 125

/-- Frames of one text message, the first of them or those behind it, with control frames before and
between them, and the data that they bring. -/
inductive Brings : Bool → List Frame → Bytes → Prop
  | control {fragmented : Bool} {f : Frame} {fs : List Frame} {data : Bytes} (hf : f.Control)
    (h : Brings fragmented fs data) : Brings fragmented (f :: fs) data
  | last {fragmented : Bool} {f : Frame} (hopcode : f.opcode = if fragmented then 0 else 1)
    (hfinal : f.final = true) : Brings fragmented [f] f.payload
  | part {fragmented : Bool} {f : Frame} {fs : List Frame} {data : Bytes}
    (hopcode : f.opcode = if fragmented then 0 else 1) (hfinal : f.final = false)
    (h : Brings true fs data) : Brings fragmented (f :: fs) (f.payload ++ data)

/-! ### `ws_message` -/

/-- So many bytes of the stream with the number that they are, and what is behind them. -/
def extended (k : ℕ) (stream : Bytes) : Option (ℕ × Bytes) :=
  if stream.length < k then none else some (bigEndian (stream.take k), stream.drop k)

/-- The beginning of a frame up to its payload: the two first bytes and the length. -/
def header (stream : Bytes) : Option (Bool × UInt8 × ℕ × Bytes) :=
  match stream with
  | h₀ :: h₁ :: rest =>
    if h₀ &&& 0x70 ≠ 0 ∨ h₁ &&& 0x80 ≠ 0 then none
    else
      let opcode := h₀ &&& 15
      let final := h₀ &&& 0x80 != 0
      let n := (h₁ &&& 127).toNat
      if n = 126 then (extended 2 rest).map fun (n, rest) => (final, opcode, n, rest)
      else if n = 127 then (extended 8 rest).map fun (n, rest) => (final, opcode, n, rest)
      else some (final, opcode, n, rest)
  | _ => none

/-- `memchr(out, 0, used)` -/
def hasZero (out : ℕ → UInt8) (used : ℕ) : Bool := (List.range used).any fun i => out i == 0

def failed : Written := { result := -1, stores := [] }

def messageLoop (pong : Bytes → Bool) (cap : ℕ) : ℕ → ℕ → Bool → Bytes → (ℕ → UInt8) → Written
  | 0, _, _, _, _ => failed
  | packets + 1, used, fragmented, stream, out =>
    match header stream with
    | none => failed
    | some (final, opcode, n, rest) =>
      if 8 ≤ opcode then
        if !final || 125 < n || rest.length < n then failed
        else if opcode = 8 then failed
        else if opcode = 9 then
          if pong (rest.take n) then messageLoop pong cap packets used fragmented (rest.drop n) out
          else failed
        else if opcode ≠ 10 then failed
        else messageLoop pong cap packets used fragmented (rest.drop n) out
      else if (!fragmented && opcode != 1) || (fragmented && opcode != 0) || cap - used ≤ n then failed
      else if rest.length < n then { result := -1, stores := storeFrom used rest }
      else
        let stores := storeFrom used (rest.take n)
        let out := storeAll stores out
        if final then
          let last : List Store := [(used + n, 0)]
          { result := if hasZero (storeAll last out) (used + n) then -1 else 0
            stores := stores ++ last }
        else (messageLoop pong cap packets (used + n) true (rest.drop n) out).after stores

def wsMessage (pong : Bytes → Bool) (cap : ℕ) (stream : Bytes) (out : ℕ → UInt8) : Written :=
  messageLoop pong cap 32 0 false stream out

/-! ### The beginning of a frame -/

set_option maxRecDepth 4000 in
theorem first_byte_bits : ∀ n < 256, UInt8.ofNat n &&& 0x70 = 0 →
    firstByte (UInt8.ofNat n &&& 0x80 != 0) (UInt8.ofNat n &&& 15) = UInt8.ofNat n := by
  decide

theorem first_byte_parts : ∀ n < 16, ∀ final : Bool,
    firstByte final (.ofNat n) &&& 0x70 = 0 ∧ (firstByte final (.ofNat n) &&& 0x80 != 0) = final ∧
      firstByte final (.ofNat n) &&& 15 = .ofNat n := by
  decide

theorem second_byte_parts : ∀ n < 128, UInt8.ofNat n &&& 0x80 = 0 ∧ (UInt8.ofNat n &&& 127).toNat = n := by
  decide

set_option maxRecDepth 4000 in
theorem second_byte_bits : ∀ n < 256, UInt8.ofNat n &&& 0x80 = 0 → n < 128 := by
  decide

set_option maxRecDepth 4000 in
theorem opcode_bits : ∀ n < 256, UInt8.ofNat n &&& 15 < 16 := by
  decide

theorem extended_append {k : ℕ} {e : Bytes} (he : e.length = k) (rest : Bytes) :
    extended k (e ++ rest) = some (bigEndian e, rest) := by
  have hlength : ¬(e ++ rest).length < k := by
    rw [List.length_append]
    omega
  rw [extended, if_neg hlength, List.take_left' he, List.drop_left' he]

theorem extended_eq_some {k n : ℕ} {stream rest : Bytes} (h : extended k stream = some (n, rest)) :
    ∃ e, e.length = k ∧ bigEndian e = n ∧ stream = e ++ rest := by
  unfold extended at h
  split_ifs at h with hlength
  obtain ⟨rfl, rfl⟩ := Prod.mk.inj (Option.some.inj h)
  refine ⟨stream.take k, ?_, rfl, (List.take_append_drop k stream).symm⟩
  rw [List.length_take]
  omega

/-- The beginning of a frame is read as it was written. -/
theorem header_append {final : Bool} {opcode : UInt8} (hopcode : opcode < 16) {n : ℕ} {length : Bytes}
    (hlength : LengthBytes n length) (rest : Bytes) :
    header (firstByte final opcode :: (length ++ rest)) = some (final, opcode, n, rest) := by
  obtain ⟨hreserved, hfinal, hop⟩ := first_byte_parts opcode.toNat hopcode final
  rw [UInt8.ofNat_toNat] at hreserved hfinal hop
  cases hlength with
  | short h =>
    obtain ⟨hmask, hn⟩ := second_byte_parts n (by omega)
    have h126 : ¬n = 126 := by omega
    have h127 : ¬n = 127 := by omega
    simp only [header, List.cons_append, List.nil_append, hreserved, hmask, hfinal, hop, hn, h126, h127,
      ne_eq, not_true_eq_false, or_self, if_false]
  | @medium e he hn =>
    simp only [header, List.cons_append, hreserved, hfinal, hop, extended_append he, hn, ne_eq,
      not_true_eq_false, false_or, Option.map_some]
    rfl
  | @long e he hn =>
    simp only [header, List.cons_append, hreserved, hfinal, hop, extended_append he, hn, ne_eq,
      not_true_eq_false, false_or, Option.map_some]
    rfl

/-- What is read as the beginning of a frame is one. -/
theorem header_eq_some {stream : Bytes} {final : Bool} {opcode : UInt8} {n : ℕ} {rest : Bytes}
    (h : header stream = some (final, opcode, n, rest)) :
    opcode < 16 ∧ ∃ length, LengthBytes n length ∧
      stream = firstByte final opcode :: (length ++ rest) := by
  match stream with
  | [] => cases h
  | [_] => cases h
  | h₀ :: h₁ :: tail =>
    simp only [header] at h
    split_ifs at h with hbits h126 h127
    all_goals
      obtain ⟨hreserved, hmask⟩ : h₀ &&& 0x70 = 0 ∧ h₁ &&& 0x80 = 0 := by
        simpa only [ne_eq, not_or, not_not] using hbits
      have hfirst := first_byte_bits h₀.toNat h₀.toNat_lt
      have hop := opcode_bits h₀.toNat h₀.toNat_lt
      have hsecond := second_byte_bits h₁.toNat h₁.toNat_lt
      rw [UInt8.ofNat_toNat] at hfirst hop hsecond
      have hn := (second_byte_parts h₁.toNat (hsecond hmask)).2
      rw [UInt8.ofNat_toNat] at hn
    · obtain ⟨⟨n', tail'⟩, hext, heq⟩ := Option.map_eq_some_iff.mp h
      obtain ⟨e, he, hvalue, rfl⟩ := extended_eq_some hext
      cases heq
      have hbyte : h₁ = 126 := UInt8.toNat_inj.mp (hn.symm.trans h126)
      exact ⟨hop, 126 :: e, .medium he hvalue, by rw [hfirst hreserved, hbyte]; rfl⟩
    · obtain ⟨⟨n', tail'⟩, hext, heq⟩ := Option.map_eq_some_iff.mp h
      obtain ⟨e, he, hvalue, rfl⟩ := extended_eq_some hext
      cases heq
      have hbyte : h₁ = 127 := UInt8.toNat_inj.mp (hn.symm.trans h127)
      exact ⟨hop, 127 :: e, .long he hvalue, by rw [hfirst hreserved, hbyte]; rfl⟩
    · cases h
      have hsmall := hsecond hmask
      rw [hn] at h126 h127 ⊢
      refine ⟨hop, _, .short (by omega), ?_⟩
      rw [hfirst hreserved, UInt8.ofNat_toNat]
      rfl

/-! ### One frame -/

theorem hasZero_eq_false {out : ℕ → UInt8} {used : ℕ} :
    hasZero out used = false ↔ ∀ i < used, out i ≠ 0 := by
  simp [hasZero]

/-- There is no zero in a text that is stored behind another. -/
theorem hasZero_put (out : ℕ → UInt8) (used : ℕ) (text more : Bytes) :
    hasZero (put out used (text ++ more)) (used + text.length) = false ↔
      hasZero out used = false ∧ 0 ∉ text := by
  rw [hasZero_eq_false, hasZero_eq_false]
  constructor
  · intro h
    constructor
    · intro i hi
      have hzero := h i (by omega)
      rwa [put, if_neg (by omega)] at hzero
    · intro hmem
      obtain ⟨k, hk, htext⟩ := List.getElem_of_mem hmem
      apply h (used + k) (by omega)
      rw [put, if_pos (by omega), Nat.add_sub_cancel_left, List.getElem?_append_left hk,
        List.getElem?_eq_getElem hk, htext]
      rfl
  · rintro ⟨hout, htext⟩ i hi
    by_cases hused : used ≤ i
    · have hk : i - used < text.length := by omega
      rw [put, if_pos hused, List.getElem?_append_left hk, List.getElem?_eq_getElem hk]
      intro hzero
      apply htext
      rw [← hzero]
      exact List.getElem_mem hk
    · rw [put, if_neg hused]
      exact hout i (by omega)

section Frame

variable {pong : Bytes → Bool} {cap packets used : ℕ} {fragmented : Bool} {f : Frame} {rest : Bytes}
  {out : ℕ → UInt8}

theorem header_render (f : Frame) (rest : Bytes) :
    header (f.render ++ rest) =
      some (f.final, f.opcode, f.payload.length, f.payload ++ rest) := by
  rw [Frame.render, List.cons_append, List.append_assoc]
  exact header_append f.opcode_lt f.length_bytes (f.payload ++ rest)

/-- A ping or a pong changes nothing. -/
theorem messageLoop_control (hpong : ∀ payload, pong payload = true) (hf : f.Control) :
    messageLoop pong cap (packets + 1) used fragmented (f.render ++ rest) out =
      messageLoop pong cap packets used fragmented rest out := by
  have hsize : ¬125 < f.payload.length := Nat.not_lt.mpr hf.size
  have hlength : ¬f.payload.length + rest.length < f.payload.length := by omega
  rw [messageLoop, header_render]
  rcases hf.opcode with hop | hop
  · simp [hop, hf.final, hsize, hlength, hpong]
  · simp [hop, hf.final, hsize, hlength]

/-- The last frame of a message, if there is room for its data. -/
theorem messageLoop_last (hop : f.opcode = if fragmented then 0 else 1) (hfinal : f.final = true)
    (hroom : used + f.payload.length < cap) :
    messageLoop pong cap (packets + 1) used fragmented (f.render ++ rest) out =
      { result := if hasZero (put out used (f.payload ++ [0])) (used + f.payload.length) then -1 else 0
        stores := storeFrom used f.payload ++ [(used + f.payload.length, 0)] } := by
  have hn : ¬cap - used ≤ f.payload.length := by omega
  have hlength : ¬f.payload.length + rest.length < f.payload.length := by omega
  have hout : storeAll [(used + f.payload.length, 0)] (storeAll (storeFrom used f.payload) out) =
      put out used (f.payload ++ [0]) := by
    have hlast := storeAll_storeFrom [0] (used + f.payload.length) (put out used f.payload)
    have hput := put_put out used f.payload 0 [] [] (Nat.zero_le 1)
    rw [List.append_nil] at hput
    rw [storeAll_storeFrom, ← hput]
    exact hlast
  rw [messageLoop, header_render]
  cases fragmented with
  | false => simp [hop, hfinal, hn, hlength, hout, List.take_left']
  | true => simp [hop, hfinal, hn, hlength, hout, List.take_left']

/-- A frame that more data follow. -/
theorem messageLoop_part (hop : f.opcode = if fragmented then 0 else 1) (hfinal : f.final = false)
    (hroom : used + f.payload.length < cap) :
    messageLoop pong cap (packets + 1) used fragmented (f.render ++ rest) out =
      (messageLoop pong cap packets (used + f.payload.length) true rest
        (put out used f.payload)).after (storeFrom used f.payload) := by
  have hn : ¬cap - used ≤ f.payload.length := by omega
  have hlength : ¬f.payload.length + rest.length < f.payload.length := by omega
  rw [messageLoop, header_render]
  cases fragmented with
  | false => simp [hop, hfinal, hn, hlength, storeAll_storeFrom]
  | true => simp [hop, hfinal, hn, hlength, storeAll_storeFrom]

/-- Zero is only returned after a frame of one of these kinds. -/
theorem frame_of_result {stream : Bytes}
    (h : (messageLoop pong cap (packets + 1) used fragmented stream out).result = 0) :
    ∃ (f : Frame) (rest : Bytes), stream = f.render ++ rest ∧
      (f.Control ∨ (f.opcode = if fragmented then 0 else 1) ∧ used + f.payload.length < cap) := by
  rw [messageLoop] at h
  cases hheader : header stream with
  | none =>
    rw [hheader] at h
    cases h
  | some head =>
    obtain ⟨final, opcode, n, tail⟩ := head
    obtain ⟨hopcode, length, hlength, rfl⟩ := header_eq_some hheader
    rw [hheader] at h
    dsimp only at h
    have hframe : ∀ hn : n ≤ tail.length, ∃ (f : Frame) (rest : Bytes),
        firstByte final opcode :: (length ++ tail) = f.render ++ rest ∧ f.final = final ∧
          f.opcode = opcode ∧ f.payload.length = n := by
      intro hn
      have htake : (tail.take n).length = n := by
        rw [List.length_take]
        omega
      refine ⟨⟨final, opcode, length, tail.take n, hopcode, htake.symm ▸ hlength⟩, tail.drop n,
        ?_, rfl, rfl, htake⟩
      rw [Frame.render, List.cons_append, List.append_assoc, List.take_append_drop]
    by_cases hcontrol : 8 ≤ opcode
    · rw [if_pos hcontrol] at h
      by_cases hbad : (!final || decide (125 < n) || decide (tail.length < n)) = true
      · rw [if_pos hbad] at h
        cases h
      · rw [if_neg hbad] at h
        simp only [Bool.or_eq_true, Bool.not_eq_true', decide_eq_true_eq, not_or, Bool.not_eq_false,
          Nat.not_lt] at hbad
        obtain ⟨⟨hfinal, hsize⟩, hshort⟩ := hbad
        have hop : opcode = 9 ∨ opcode = 10 := by
          by_contra hno
          rw [not_or] at hno
          rw [if_neg hno.1, if_pos hno.2, ite_self] at h
          cases h
        obtain ⟨f, rest, hf, hffinal, hfop, hflength⟩ := hframe hshort
        exact ⟨f, rest, hf, .inl ⟨hffinal.trans hfinal, hfop ▸ hop, hflength ▸ hsize⟩⟩
    · rw [if_neg hcontrol] at h
      by_cases hbad : ((!fragmented && opcode != 1) || (fragmented && opcode != 0) ||
          decide (cap - used ≤ n)) = true
      · rw [if_pos hbad] at h
        cases h
      · rw [if_neg hbad] at h
        by_cases hshort : tail.length < n
        · rw [if_pos hshort] at h
          cases h
        · obtain ⟨f, rest, hf, -, hfop, hflength⟩ := hframe (Nat.not_lt.mp hshort)
          simp only [Bool.or_eq_true, decide_eq_true_eq, not_or, Nat.not_le] at hbad
          refine ⟨f, rest, hf, .inr ⟨?_, by omega⟩⟩
          rw [hfop]
          cases fragmented with
          | false => simpa using hbad.1.1
          | true => simpa using hbad.1.2

end Frame

/-! ### Messages -/

section Message

variable {pong : Bytes → Bool} {cap : ℕ}

/-- Frames that bring the data are read, and the data are in `out` behind what was there. -/
theorem messageLoop_brings (hpong : ∀ payload, pong payload = true) {fragmented : Bool}
    {frames : List Frame} {data : Bytes} (h : Brings fragmented frames data) :
    ∀ {packets used : ℕ} {out : ℕ → UInt8} (rest : Bytes), frames.length ≤ packets →
      used + data.length < cap → hasZero out used = false → 0 ∉ data →
      (messageLoop pong cap packets used fragmented (frames.flatMap Frame.render ++ rest) out).result = 0 ∧
      storeAll (messageLoop pong cap packets used fragmented
        (frames.flatMap Frame.render ++ rest) out).stores out = put out used (data ++ [0]) := by
  induction h with
  | @control fragmented f fs data hf h ih =>
    intro packets used out rest hpackets hroom hout hdata
    rw [List.length_cons] at hpackets
    obtain ⟨packets, rfl⟩ : ∃ k, packets = k + 1 := ⟨packets - 1, by omega⟩
    rw [List.flatMap_cons, List.append_assoc, messageLoop_control hpong hf]
    exact ih rest (by omega) hroom hout hdata
  | @last fragmented f hop hfinal =>
    intro packets used out rest hpackets hroom hout hdata
    rw [List.length_singleton] at hpackets
    obtain ⟨packets, rfl⟩ : ∃ k, packets = k + 1 := ⟨packets - 1, by omega⟩
    rw [List.flatMap_cons, List.flatMap_nil, List.append_nil, messageLoop_last hop hfinal hroom]
    have hzero : hasZero (put out used (f.payload ++ [0])) (used + f.payload.length) = false :=
      (hasZero_put out used f.payload [0]).mpr ⟨hout, hdata⟩
    have hput := put_put out used f.payload 0 [] [] (Nat.zero_le 1)
    have hlast := storeAll_storeFrom [0] (used + f.payload.length) (put out used f.payload)
    rw [List.append_nil] at hput
    refine ⟨by rw [hzero]; rfl, ?_⟩
    dsimp only
    rw [storeAll_append, storeAll_storeFrom, ← hput]
    exact hlast
  | @part fragmented f fs data hop hfinal h ih =>
    intro packets used out rest hpackets hroom hout hdata
    rw [List.length_cons] at hpackets
    obtain ⟨packets, rfl⟩ : ∃ k, packets = k + 1 := ⟨packets - 1, by omega⟩
    rw [List.length_append] at hroom
    rw [List.mem_append, not_or] at hdata
    have hzero := hasZero_put out used f.payload []
    rw [List.append_nil] at hzero
    obtain ⟨hresult, hmemory⟩ :
        (messageLoop pong cap packets (used + f.payload.length) true
          (fs.flatMap Frame.render ++ rest) (put out used f.payload)).result = 0 ∧ _ :=
      ih rest (by omega) (by omega) (hzero.mpr ⟨hout, hdata.1⟩) hdata.2
    rw [List.flatMap_cons, List.append_assoc, messageLoop_part hop hfinal (by omega)]
    refine ⟨hresult, ?_⟩
    obtain ⟨c, cs, hcs⟩ : ∃ c cs, data ++ [0] = c :: cs := List.exists_cons_of_ne_nil (by simp)
    have hput := put_put out used f.payload c cs [] (Nat.zero_le 1)
    rw [List.append_nil] at hput
    change storeAll (storeFrom used f.payload ++ _) out = _
    rw [storeAll_append, storeAll_storeFrom, hmemory, List.append_assoc, hcs]
    exact hput

/-- Zero is returned only for a message. -/
theorem brings_of_result (hpong : ∀ payload, pong payload = true) (packets : ℕ) :
    ∀ {used : ℕ} {fragmented : Bool} {stream : Bytes} {out : ℕ → UInt8},
      (messageLoop pong cap packets used fragmented stream out).result = 0 →
      ∃ frames data rest, stream = frames.flatMap Frame.render ++ rest ∧
        Brings fragmented frames data ∧ frames.length ≤ packets ∧ used + data.length < cap ∧
        hasZero out used = false ∧ 0 ∉ data := by
  induction packets with
  | zero =>
    intro used fragmented stream out h
    cases h
  | succ packets ih =>
    intro used fragmented stream out h
    obtain ⟨f, rest, rfl, hf | ⟨hop, hroom⟩⟩ := frame_of_result h
    · rw [messageLoop_control hpong hf] at h
      obtain ⟨frames, data, tail, rfl, hbrings, hcount, hfits, hout, hdata⟩ := ih h
      refine ⟨f :: frames, data, tail, ?_, .control hf hbrings, Nat.succ_le_succ hcount, hfits, hout,
        hdata⟩
      rw [List.flatMap_cons, List.append_assoc]
    · cases hfinal : f.final with
      | true =>
        rw [messageLoop_last hop hfinal hroom] at h
        have hzero : hasZero (put out used (f.payload ++ [0])) (used + f.payload.length) = false := by
          by_contra hno
          rw [Bool.not_eq_false] at hno
          rw [hno] at h
          cases h
        obtain ⟨hout, hdata⟩ := (hasZero_put out used f.payload [0]).mp hzero
        refine ⟨[f], f.payload, rest, ?_, .last hop hfinal, Nat.succ_le_succ (Nat.zero_le _), hroom,
          hout, hdata⟩
        rw [List.flatMap_cons, List.flatMap_nil, List.append_nil]
      | false =>
        rw [messageLoop_part hop hfinal hroom] at h
        obtain ⟨frames, data, tail, rfl, hbrings, hcount, hfits, hout, hdata⟩ := ih h
        have hzero := hasZero_put out used f.payload []
        rw [List.append_nil] at hzero
        obtain ⟨hout', hpayload⟩ := hzero.mp hout
        refine ⟨f :: frames, f.payload ++ data, tail, ?_, .part hop hfinal hbrings,
          Nat.succ_le_succ hcount, ?_, hout', ?_⟩
        · rw [List.flatMap_cons, List.append_assoc]
        · rw [List.length_append]
          omega
        · rw [List.mem_append, not_or]
          exact ⟨hpayload, hdata⟩

/-- Whatever the peer sends and its lengths say, nothing is stored at or behind the end of `out`. -/
theorem messageLoop_inside (packets : ℕ) : ∀ {used : ℕ} {fragmented : Bool} {stream : Bytes}
    {out : ℕ → UInt8}, used ≤ cap →
      ∀ w ∈ (messageLoop pong cap packets used fragmented stream out).stores, w.1 < cap := by
  induction packets with
  | zero =>
    intro used fragmented stream out _ w hw
    cases hw
  | succ packets ih =>
    intro used fragmented stream out hused w hw
    rw [messageLoop] at hw
    cases hheader : header stream with
    | none =>
      rw [hheader] at hw
      cases hw
    | some head =>
      obtain ⟨final, opcode, n, tail⟩ := head
      rw [hheader] at hw
      dsimp only at hw
      by_cases hcontrol : 8 ≤ opcode
      · rw [if_pos hcontrol] at hw
        split_ifs at hw
        · exact absurd hw List.not_mem_nil
        · exact absurd hw List.not_mem_nil
        · exact ih hused w hw
        · exact absurd hw List.not_mem_nil
        · exact absurd hw List.not_mem_nil
        · exact ih hused w hw
      · rw [if_neg hcontrol] at hw
        by_cases hbad : ((!fragmented && opcode != 1) || (fragmented && opcode != 0) ||
            decide (cap - used ≤ n)) = true
        · rw [if_pos hbad] at hw
          exact absurd hw List.not_mem_nil
        · rw [if_neg hbad] at hw
          simp only [Bool.or_eq_true, decide_eq_true_eq, not_or, Nat.not_le] at hbad
          have htake : (tail.take n).length ≤ n := by
            rw [List.length_take]
            exact Nat.min_le_left _ _
          by_cases hshort : tail.length < n
          · rw [if_pos hshort] at hw
            have hlast := mem_storeFrom hw
            omega
          · rw [if_neg hshort] at hw
            cases final with
            | true =>
              rcases List.mem_append.mp hw with hw | hw
              · have hlast := mem_storeFrom hw
                omega
              · rw [List.mem_singleton.mp hw]
                dsimp only
                omega
            | false =>
              rcases List.mem_append.mp hw with hw | hw
              · have hlast := mem_storeFrom hw
                omega
              · exact ih (by omega) w hw

/-- A stream begins with one text message of at most 32 frames whose data fit with their zero. -/
structure Message (cap : ℕ) (stream : Bytes) (frames : List Frame) (data : Bytes) : Prop where
  starts : frames.flatMap Frame.render <+: stream
  brings : Brings false frames data
  count : frames.length ≤ 32
  fits : data.length < cap
  noZero : 0 ∉ data

/-- For every stream, if pongs can be sent: zero is returned exactly if it begins with such a message,
`out` then holds the data and their zero, and nothing is ever stored at or behind the end of `out`. -/
theorem wsMessage_spec (hpong : ∀ payload, pong payload = true) (cap : ℕ) (stream : Bytes)
    (out : ℕ → UInt8) :
    ((wsMessage pong cap stream out).result = 0 ↔ ∃ frames data, Message cap stream frames data) ∧
    (∀ frames data, Message cap stream frames data →
      storeAll (wsMessage pong cap stream out).stores out = put out 0 (data ++ [0])) ∧
    ∀ w ∈ (wsMessage pong cap stream out).stores, w.1 < cap := by
  have hread : ∀ {frames data}, Message cap stream frames data →
      (wsMessage pong cap stream out).result = 0 ∧
        storeAll (wsMessage pong cap stream out).stores out = put out 0 (data ++ [0]) := by
    intro frames data h
    obtain ⟨rest, rfl⟩ := h.starts
    exact messageLoop_brings hpong h.brings rest h.count (by rw [Nat.zero_add]; exact h.fits) rfl
      h.noZero
  refine ⟨⟨fun h => ?_, ?_⟩, fun frames data h => (hread h).2, messageLoop_inside 32 (Nat.zero_le cap)⟩
  · obtain ⟨frames, data, rest, rfl, hbrings, hcount, hfits, -, hdata⟩ := brings_of_result hpong 32 h
    rw [Nat.zero_add] at hfits
    exact ⟨frames, data, List.prefix_append _ _, hbrings, hcount, hfits, hdata⟩
  · rintro ⟨frames, data, h⟩
    exact (hread h).1

end Message

/-- `hi` in two frames with a ping between them. -/
theorem wsMessage_small :
    ∃ frames data, Message 3 [1, 1, 104, 137, 0, 128, 1, 105] frames data := by
  have hpong : ∀ payload : Bytes, (fun _ : Bytes => true) payload = true := fun _ => rfl
  exact (wsMessage_spec hpong 3 _ fun _ => 0).1.mp (by decide)

/-- An empty ping and the text `i`: a message is returned, though no text frame begins the stream. -/
theorem ping_before_text :
    (wsMessage (fun _ => true) 2 [137, 0, 129, 1, 105] fun _ => 0).result = 0 ∧
    ¬∃ f fs data, Message 2 [137, 0, 129, 1, 105] (f :: fs) data ∧ f.opcode = 1 := by
  refine ⟨by decide, ?_⟩
  rintro ⟨f, fs, data, h, hopcode⟩
  have hfirst : firstByte f.final 1 = 137 := by
    have hstarts := h.starts
    rw [List.flatMap_cons, Frame.render, List.cons_append, List.cons_prefix_cons, hopcode] at hstarts
    exact hstarts.1
  cases hfinal : f.final with
  | false => exact absurd (hfinal ▸ hfirst) (by decide)
  | true => exact absurd (hfinal ▸ hfirst) (by decide)

end ForgeOS.Native.WebSocket
