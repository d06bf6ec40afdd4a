import Mathlib.Data.List.FinRange
import Mathlib.Tactic.FinCases
import ForgeOS.Library.Layouts

/-! The `SYNC_PTR` request of the sound driver in its two layouts, with times of sixty-four and of
thirty-two bits, and the call that tries the old one where the kernel does not know the new. -/

namespace ForgeOS.Native.AlsaCompat

open ForgeOS.Library.Layouts

/-! ### Layouts -/

/-- `FORGE_TIME64_WORDS` words. -/
abbrev Current := Fin 34 → UInt32

/-- `FORGE_LEGACY_WORDS` words. -/
abbrev Legacy := Fin 33 → UInt32

/-- The words of the union behind the status, `FORGE_UNION_WORDS` of them. -/
def unionWords : List (Fin 33 × Fin 34) :=
  (List.finRange 16).map fun k => (k.natAdd 17, k.natAdd 18)

/-- `sign_extend_seconds` -/
def signExtendSeconds (seconds : UInt32) : UInt32 :=
  if seconds &&& 0x80000000 ≠ 0 then 0xffffffff else 0

/-- `to_legacy` -/
def toLegacy (current : Current) : Legacy :=
  assign ([(0, current 0), (1, current 2), (2, current 3), (3, current 4), (4, current 6),
    (5, current 8), (6, current 10), (7, current 12), (8, current 14)] ++
      unionWords.map fun p => (p.1, current p.2)) fun _ => 0

/-- `from_legacy`, which writes into the words of the request. -/
def fromLegacy (current : Current) (legacy : Legacy) : Current :=
  assign ([(0, legacy 0), (2, legacy 1), (3, legacy 2), (4, legacy 3), (6, legacy 4),
    (7, signExtendSeconds (legacy 4)), (8, legacy 5), (9, 0), (10, legacy 6), (12, legacy 7),
    (13, signExtendSeconds (legacy 7)), (14, legacy 8), (15, 0)] ++
      unionWords.map fun p => (p.2, legacy p.1)) current

/-- Which word is which. -/
def carried : List (Fin 33 × Fin 34) :=
  [(0, 0), (1, 2), (2, 3), (3, 4), (4, 6), (5, 8), (6, 10), (7, 12), (8, 14)] ++ unionWords

/-- The reserved words of the old status, which no word of the new layout stands for. -/
def reserved : List (Fin 33) := [9, 10, 11, 12, 13, 14, 15, 16]

/-- The second words of the seconds and of the nanoseconds of both times. -/
def highHalves : List (Fin 34) := [7, 9, 13, 15]

/-- The words with which the new layout is padded, and those that are reserved in its status. -/
def padding : List (Fin 34) := [1, 5, 11, 16, 17]

theorem nodup_carried : (carried.map Prod.fst).Nodup := by decide

theorem toLegacy_eq (current : Current) :
    toLegacy current = assign (carry carried current) fun _ => 0 := rfl

theorem toLegacy_carried (current : Current) {p : Fin 33 × Fin 34} (h : p ∈ carried) :
    toLegacy current p.1 = current p.2 := by
  rw [toLegacy_eq]
  exact assign_carry nodup_carried h current _

/-- What `from_legacy` writes, in its order. -/
def fromLegacyWrites (legacy : Legacy) : List (Fin 34 × UInt32) :=
  [(0, legacy 0), (2, legacy 1), (3, legacy 2), (4, legacy 3), (6, legacy 4),
    (7, signExtendSeconds (legacy 4)), (8, legacy 5), (9, 0), (10, legacy 6), (12, legacy 7),
    (13, signExtendSeconds (legacy 7)), (14, legacy 8), (15, 0)] ++
      unionWords.map fun p => (p.2, legacy p.1)

theorem fromLegacy_places (legacy : Legacy) :
    (fromLegacyWrites legacy).map Prod.fst =
      [0, 2, 3, 4, 6, 7, 8, 9, 10, 12, 13, 14, 15] ++ unionWords.map Prod.snd := by
  simp [fromLegacyWrites, Function.comp_def]

theorem fromLegacy_written (current : Current) {legacy : Legacy} {i : Fin 34} {word : UInt32}
    (h : (i, word) ∈ fromLegacyWrites legacy) : fromLegacy current legacy i = word := by
  refine assign_mem ?_ h current
  rw [fromLegacy_places]
  decide

theorem fromLegacy_carried (current : Current) (legacy : Legacy) {p : Fin 33 × Fin 34}
    (h : p ∈ carried) : fromLegacy current legacy p.2 = legacy p.1 := by
  apply fromLegacy_written
  rcases List.mem_append.mp h with h | h
  · refine List.mem_append_left _ ?_
    fin_cases h <;> simp
  · exact List.mem_append_right _ (List.mem_map.mpr ⟨p, h, rfl⟩)

/-- What pads the new layout stays as the request has it. -/
theorem fromLegacy_padding (current : Current) (legacy : Legacy) {i : Fin 34} (h : i ∈ padding) :
    fromLegacy current legacy i = current i := by
  have hout : ∀ i ∈ padding,
      i ∉ [0, 2, 3, 4, 6, 7, 8, 9, 10, 12, 13, 14, 15] ++ unionWords.map Prod.snd := by decide
  have hplace : i ∉ (fromLegacyWrites legacy).map Prod.fst := by
    rw [fromLegacy_places]
    exact hout i h
  exact assign_other hplace current

theorem carried_of_legacy : ∀ i : Fin 33, i ∉ reserved → ∃ p ∈ carried, p.1 = i := by decide

theorem carried_of_current :
    ∀ i : Fin 34, i ∉ highHalves → i ∉ padding → ∃ p ∈ carried, p.2 = i := by decide

/-- The reply of the old layout comes back as it was. -/
theorem toLegacy_fromLegacy (current : Current) (legacy : Legacy) {i : Fin 33} (h : i ∉ reserved) :
    toLegacy (fromLegacy current legacy) i = legacy i := by
  obtain ⟨p, hp, rfl⟩ := carried_of_legacy i h
  rw [toLegacy_carried _ hp, fromLegacy_carried _ _ hp]

/-- A request that was only taken over and back is what it was, up to the signs of its times. -/
theorem fromLegacy_toLegacy (current : Current) {i : Fin 34} (h : i ∉ highHalves) :
    fromLegacy current (toLegacy current) i = current i := by
  by_cases hpad : i ∈ padding
  · exact fromLegacy_padding _ _ hpad
  · obtain ⟨p, hp, rfl⟩ := carried_of_current i h hpad
    rw [fromLegacy_carried _ _ hp, toLegacy_carried _ hp]

/-! ### The call -/

/-- `FORGE_SYNC_PTR_TIME64` -/
def syncPtrTime64 : ℕ := 0xc0884123

/-- `FORGE_SYNC_PTR_LEGACY` -/
def syncPtrLegacy : ℕ := 0xc0844123

/-- `FORGE_EFAULT`, `FORGE_ENOTTY`, `FORGE_ENOSYS` -/
inductive Errno
  | fault
  | notty
  | nosys
  | other (n : ℕ)
  deriving DecidableEq, Repr

/-- What a call leaves: its result, the error number and what its argument points to. -/
structure Outcome (α : Type) where
  result : ℤ
  errno : Errno
  memory : α

/-- The `ioctl` of the library behind: it is given the file, the request, the error number as it is
and an argument of some words, none where the argument is null. -/
abbrev Ioctl := (n : ℕ) → ℤ → ℕ → Errno → (Fin n → UInt32) → Outcome (Fin n → UInt32)

/-- The argument is passed on. -/
def Ioctl.pass (ioctl : Ioctl) (fd : ℤ) (request : ℕ) (errno : Errno) :
    Option Current → Outcome (Option Current)
  | none =>
    let outcome := ioctl 0 fd request errno Fin.elim0
    ⟨outcome.result, outcome.errno, none⟩
  | some current =>
    let outcome := ioctl 34 fd request errno current
    ⟨outcome.result, outcome.errno, some outcome.memory⟩

/-- `forge_alsa_compat_ioctl`; `real` is what `resolve_ioctl` finds. -/
def forgeAlsaCompatIoctl (real : Option Ioctl) (fd : ℤ) (request : ℕ) (errno : Errno)
    (argument : Option Current) : Outcome (Option Current) :=
  match real with
  | none => ⟨-1, .nosys, argument⟩
  | some ioctl =>
    if request ≠ syncPtrTime64 then ioctl.pass fd request errno argument
    else
      match argument with
      | none => ⟨-1, .fault, none⟩
      | some current =>
        let first := ioctl 34 fd request errno current
        if first.result ≠ -1 ∨ first.errno ≠ .notty then
          ⟨first.result, first.errno, some first.memory⟩
        else
          let retry := ioctl 33 fd syncPtrLegacy first.errno (toLegacy first.memory)
          if retry.result = 0 then
            ⟨retry.result, errno, some (fromLegacy first.memory retry.memory)⟩
          else ⟨retry.result, retry.errno, some first.memory⟩

/-- Only a retry that returns zero is published. -/
theorem memory_unpublished (ioctl : Ioctl) (fd : ℤ) (errno : Errno) (current : Current) :
    let first := ioctl 34 fd syncPtrTime64 errno current
    let retry := ioctl 33 fd syncPtrLegacy first.errno (toLegacy first.memory)
    retry.result ≠ 0 →
      (forgeAlsaCompatIoctl (some ioctl) fd syncPtrTime64 errno (some current)).memory =
        some first.memory := by
  intro first retry hretry
  simp only [forgeAlsaCompatIoctl, ne_eq, not_true_eq_false, if_false]
  split
  · rfl
  · rfl

/-- The two layouts are carried over into each other without loss, what pads the new one is left
alone, and a retry that fails leaves the argument as the first call has left it. -/
theorem sync_ptr_compatible :
    (∀ (current : Current) (legacy : Legacy) (i : Fin 33), i ∉ reserved →
      toLegacy (fromLegacy current legacy) i = legacy i) ∧
    (∀ (current : Current) (i : Fin 34), i ∉ highHalves →
      fromLegacy current (toLegacy current) i = current i) ∧
    (∀ (current : Current) (legacy : Legacy) (i : Fin 34), i ∈ padding →
      fromLegacy current legacy i = current i) ∧
    ∀ (ioctl : Ioctl) (fd : ℤ) (errno : Errno) (current : Current),
      let first := ioctl 34 fd syncPtrTime64 errno current
      let retry := ioctl 33 fd syncPtrLegacy first.errno (toLegacy first.memory)
      retry.result ≠ 0 →
        (forgeAlsaCompatIoctl (some ioctl) fd syncPtrTime64 errno (some current)).memory =
          some first.memory :=
  ⟨fun current legacy _ h => toLegacy_fromLegacy current legacy h,
    fun current _ h => fromLegacy_toLegacy current h,
    fun current legacy _ h => fromLegacy_padding current legacy h, memory_unpublished⟩

/-! ### Times -/

/-- A time of the new layout, a signed number in two words. -/
def seconds (current : Current) (low high : Fin 34) : ℤ :=
  ((current high).toBitVec ++ (current low).toBitVec).toInt

theorem sign_mask (s : UInt32) : s &&& 0x80000000 ≠ 0 ↔ s.toBitVec.msb = true := by
  have hmask : (0x80000000 : UInt32).toBitVec = BitVec.twoPow 32 31 := by decide
  rw [ne_eq, ← UInt32.toBitVec_inj, UInt32.toBitVec_and, hmask, BitVec.and_twoPow,
    BitVec.msb_eq_getLsbD_last]
  cases s.toBitVec.getLsbD 31
  · simp
  · simp

/-- The word in front is the sign of the word behind. -/
theorem append_signExtendSeconds (s : UInt32) :
    (signExtendSeconds s).toBitVec ++ s.toBitVec = s.toBitVec.signExtend 64 := by
  have hones : (0xffffffff : UInt32).toBitVec = BitVec.allOnes 32 := by decide
  apply BitVec.eq_of_getLsbD_eq
  intro i hi
  rw [BitVec.getLsbD_append, BitVec.getLsbD_signExtend, signExtendSeconds]
  by_cases hlow : i < 32
  · simp [hlow, hi]
  · rw [if_neg hlow]
    by_cases hsign : s.toBitVec.msb = true
    · rw [if_pos ((sign_mask s).mpr hsign), hones, BitVec.getLsbD_allOnes]
      simp [hlow, hsign]
      omega
    · rw [if_neg fun h => hsign ((sign_mask s).mp h)]
      simp [hlow, hsign]

/-- Both times of the reply are read as the numbers that the old layout has. -/
theorem seconds_fromLegacy (current : Current) (legacy : Legacy) :
    seconds (fromLegacy current legacy) 6 7 = (legacy 4).toBitVec.toInt ∧
      seconds (fromLegacy current legacy) 12 13 = (legacy 7).toBitVec.toInt := by
  have hwritten : ∀ i word, (i, word) ∈ fromLegacyWrites legacy →
      fromLegacy current legacy i = word := fun _ _ h => fromLegacy_written current h
  simp only [seconds]
  constructor
  · rw [hwritten 6 (legacy 4) (by simp [fromLegacyWrites]),
      hwritten 7 (signExtendSeconds (legacy 4)) (by simp [fromLegacyWrites]),
      append_signExtendSeconds, BitVec.toInt_signExtend_of_le (by decide)]
  · rw [hwritten 12 (legacy 7) (by simp [fromLegacyWrites]),
      hwritten 13 (signExtendSeconds (legacy 7)) (by simp [fromLegacyWrites]),
      append_signExtendSeconds, BitVec.toInt_signExtend_of_le (by decide)]

end ForgeOS.Native.AlsaCompat
