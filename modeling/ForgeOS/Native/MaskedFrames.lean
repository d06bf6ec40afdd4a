import ForgeOS.Native.DevTools
import ForgeOS.Native.WebSocket

/-! `ws_send` of the music bridge: one frame, with its payload masked. A server that reads the frame
after RFC 6455 has the payload again. -/

namespace ForgeOS.Native.MaskedFrames

open DevTools WebSocket

/-- A payload with the mask of four bytes over it, again and again. -/
def masked (mask data : Bytes) : Bytes := data.mapIdx fun i c => c ^^^ mask.getD (i % 4) 0

/-- The bytes of the length, with the bit that announces a mask. -/
def sizeBytes (n : ℕ) : Bytes :=
  if n < 126 then [0x80 ||| .ofNat n] else [0xfe, .ofNat (n >>> 8), .ofNat n]

/-- `frame` -/
def frame (opcode : UInt8) (mask data : Bytes) : Bytes :=
  (0x80 ||| opcode) :: (sizeBytes data.length ++ (mask ++ masked mask data))

/-- `ws_send`, where the mask can be had and all can be sent: what is sent. -/
def wsSend (opcode : UInt8) (mask data : Bytes) : Option Bytes :=
  if limit < data.length then none else some (frame opcode mask data)

/-- How a server reads a frame of a client: a mask is announced and stands before the payload. -/
def readMasked (stream : Bytes) : Option (Bool × UInt8 × Bytes × Bytes) :=
  match stream with
  | h₀ :: h₁ :: rest =>
    if h₁ &&& 0x80 = 0 then none
    else
      (header (h₀ :: (h₁ &&& 127) :: rest)).bind fun (final, opcode, n, rest) =>
        if rest.length < 4 + n then none
        else some (final, opcode, masked (rest.take 4) ((rest.drop 4).take n), rest.drop (4 + n))
  | _ => none

theorem length_masked (mask data : Bytes) : (masked mask data).length = data.length :=
  List.length_mapIdx

/-- The mask takes itself off. -/
theorem masked_masked (mask data : Bytes) : masked mask (masked mask data) = data := by
  apply List.ext_getElem
  · rw [length_masked, length_masked]
  · intro i h₁ h₂
    simp only [masked, List.getElem_mapIdx, UInt8.xor_assoc, UInt8.xor_self, UInt8.xor_zero]

theorem short_size : ∀ n < 126, (0x80 ||| UInt8.ofNat n) &&& 0x80 ≠ 0 ∧
    (0x80 ||| UInt8.ofNat n) &&& 127 = .ofNat n := by
  decide

theorem bigEndian_pair {n : ℕ} (h : n < 65536) : bigEndian [.ofNat (n >>> 8), .ofNat n] = n := by
  have hhigh : (UInt8.ofNat (n >>> 8)).toNat = n / 256 := by
    rw [Nat.shiftRight_eq_div_pow]
    exact UInt8.toNat_ofNat_of_lt' (by change n / 256 < 256; omega)
  have hlow : (UInt8.ofNat n).toNat = n % 256 := UInt8.toNat_ofNat
  change 256 * (256 * 0 + (UInt8.ofNat (n >>> 8)).toNat) + (UInt8.ofNat n).toNat = n
  rw [hhigh, hlow]
  omega

/-- The announced length is that of an unmasked frame, but for the bit of the mask. -/
theorem sizeBytes_length {n : ℕ} (h : n < 65536) : ∃ h₁ more, sizeBytes n = h₁ :: more ∧
    h₁ &&& 0x80 ≠ 0 ∧ LengthBytes n ((h₁ &&& 127) :: more) := by
  rw [sizeBytes]
  split_ifs with hshort
  · obtain ⟨hbit, hn⟩ := short_size n hshort
    refine ⟨_, [], rfl, hbit, ?_⟩
    rw [hn]
    exact .short hshort
  · exact ⟨0xfe, _, rfl, by decide, .medium rfl (bigEndian_pair h)⟩

/-- What is sent is read as it was, whatever follows. -/
theorem readMasked_frame {opcode : UInt8} (hopcode : opcode < 16) {mask data : Bytes}
    (hmask : mask.length = 4) (hdata : data.length < 65536) (rest : Bytes) :
    readMasked (frame opcode mask data ++ rest) = some (true, opcode, data, rest) := by
  obtain ⟨h₁, more, hsize, hbit, hlength⟩ := sizeBytes_length hdata
  have hfirst : 0x80 ||| opcode = firstByte true opcode := rfl
  have hheader : header (firstByte true opcode ::
      ((h₁ &&& 127) :: more ++ (mask ++ (masked mask data ++ rest)))) =
        some (true, opcode, data.length, mask ++ (masked mask data ++ rest)) :=
    header_append hopcode hlength _
  have hroom : ¬(mask ++ (masked mask data ++ rest)).length < 4 + data.length := by
    rw [List.length_append, List.length_append, length_masked, hmask]
    omega
  have htake : ((mask ++ (masked mask data ++ rest)).drop 4).take data.length =
      masked mask data := by
    rw [List.drop_left' hmask, List.take_left' (length_masked mask data)]
  have hdrop : (mask ++ (masked mask data ++ rest)).drop (4 + data.length) = rest := by
    rw [← List.drop_drop, List.drop_left' hmask, List.drop_left' (length_masked mask data)]
  rw [frame, hsize]
  simp only [List.cons_append, List.append_assoc, readMasked, if_neg hbit, hfirst]
  rw [List.cons_append] at hheader
  rw [hheader, Option.bind_some, if_neg hroom, List.take_left' hmask, htake, hdrop, masked_masked]

end ForgeOS.Native.MaskedFrames
