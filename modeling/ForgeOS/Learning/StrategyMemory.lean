import Mathlib.Data.List.Sort
import Mathlib.Data.Rat.Defs
import Mathlib.Algebra.Order.Ring.Rat
import ForgeOS.Learning.RetryPlanner
import ForgeOS.Library.Vectors
import ForgeOS.Models

/-! `StrategyMemoryEngine`: attempts at a remediation, stored with a vector of features of
the device, and the attempts most similar to a device. The vector counts the features by
the string hash of the process that makes it. Components are kept in millionths and
similarities in ten-thousandths, as the source rounds them. -/

namespace ForgeOS.Learning

open ForgeOS.Python ForgeOS.Library.Vectors

/-! ### Features -/

structure SlotInfo where
  activeSlot : Option String := none
  abDevice : Bool := false
  deriving DecidableEq, Repr

/-- A profile with the features that the memory compares beside the identity. -/
structure FeatureProfile extends DeviceProfile where
  bootloaderLocked : Option Bool := none
  verifiedBootState : Option String := none
  slotInfo : Option SlotInfo := none
  deriving DecidableEq, Repr

def bootloaderFeature : Option Bool → String
  | some true => "locked"
  | some false => "unlocked"
  | none => "bootloader_unknown"

def slotFeatures : Option SlotInfo → List String
  | some slots =>
    [orText slots.activeSlot "slot_unknown", if slots.abDevice then "ab_device" else "single_slot"]
  | none => []

variable (lower : String → String)

/-- `_feature_tokens` -/
def featureTokens (profile : FeatureProfile) (blockerType : String) : List String :=
  (([orText profile.manufacturer "unknown", orText profile.model "unknown",
      orText profile.androidVersion "unknown", profile.transport.value,
      bootloaderFeature profile.bootloaderLocked,
      orText profile.verifiedBootState "verified_boot_unknown",
      orText (some blockerType) "none"] ++ slotFeatures profile.slotInfo).filter
    fun value => strip value ≠ "").map fun value => replaceChar (lower (strip value)) ' ' '_'

/-! ### Vectors -/

def dims : ℕ := 16

/-- The string hash of a process. -/
abbrev StringHash := String → ℤ

/-- `abs(hash(token)) % dims` -/
def bucket (hash : StringHash) (token : String) : ℕ := (hash token).natAbs % dims

def bucketCount (hash : StringHash) (tokens : List String) (i : ℕ) : ℕ :=
  tokens.countP fun token => bucket hash token = i

/-- The square of the norm of the counts. -/
def countNorm (hash : StringHash) (tokens : List String) : ℕ :=
  ∑ i ∈ Finset.range dims, bucketCount hash tokens i ^ 2

/-- `_vector_for`. The floats of the source come to the same millionths for up to nine tokens. -/
def vectorFor (hash : StringHash) (tokens : List String) : List ℕ :=
  (List.range dims).map fun i =>
    roundRoot (10 ^ 12 * bucketCount hash tokens i ^ 2) (countNorm hash tokens)

/-- `_cosine_similarity`, rounded to four places. -/
def cosineSimilarity (left right : List ℕ) : ℕ :=
  roundRoot (10 ^ 8 * dot left right ^ 2) (dot left left * dot right right)

/-! ### Attempts -/

structure StrategyAttempt where
  recordedAt : String := ""
  sessionId : String
  familyKey : String
  blockerType : String
  strategyId : String
  proposalId : String
  featureTokens : List String
  featureVector : List ℕ
  envOverrides : List (String × String) := []
  sourceCandidates : List String := []
  sourceChoice : String := ""
  decision : Decision
  advanced : Bool
  score : ℚ := 0
  elapsedSeconds : ℚ := 0
  estimatedTokens : ℕ := 0
  deriving DecidableEq, Repr

/-- What the self-improvement loop reports of an attempt. -/
structure AttemptReport where
  strategyId : String
  proposalId : String
  envOverrides : List (String × String) := []
  sourceCandidates : List String := []
  sourceChoice : String := ""
  decision : Decision
  advanced : Bool
  score : ℚ := 0
  elapsedSeconds : ℚ := 0
  estimatedTokens : ℕ := 0
  deriving DecidableEq, Repr

/-- `value.strip().lower().replace(" ", "-")` -/
def familyPart (value : Option String) : String :=
  replaceChar (lower (strip (orText value "unknown"))) ' ' '-'

/-- The row that `record_attempt` stores in a process with the hash. -/
def attemptRow (hash : StringHash) (profile : FeatureProfile) (blockerType : String)
    (report : AttemptReport) (now : String) : StrategyAttempt where
  recordedAt := now
  sessionId := profile.sessionId
  familyKey := familyPart lower profile.manufacturer ++ ":" ++ familyPart lower profile.model
  blockerType
  strategyId := report.strategyId
  proposalId := report.proposalId
  featureTokens := featureTokens lower profile blockerType
  featureVector := vectorFor hash (featureTokens lower profile blockerType)
  envOverrides := report.envOverrides
  sourceCandidates := report.sourceCandidates
  sourceChoice := report.sourceChoice
  decision := report.decision
  advanced := report.advanced
  score := report.score
  elapsedSeconds := report.elapsedSeconds
  estimatedTokens := report.estimatedTokens

/-- `record_attempt` -/
def recordAttempt (hash : StringHash) (rows : List StrategyAttempt) (profile : FeatureProfile)
    (blockerType : String) (report : AttemptReport) (now : String) : List StrategyAttempt :=
  rows ++ [attemptRow lower hash profile blockerType report now]

/-- A stored attempt with its similarity to the device. -/
structure ScoredAttempt where
  attempt : StrategyAttempt
  similarity : ℕ
  deriving DecidableEq, Repr

/-- The order of the sort key: more similar, better, advanced and quicker attempts first. -/
def ScoredAttempt.before (a b : ScoredAttempt) : Bool :=
  b.similarity < a.similarity ||
    (a.similarity = b.similarity && (b.attempt.score < a.attempt.score ||
      (a.attempt.score = b.attempt.score && ((a.attempt.advanced && !b.attempt.advanced) ||
        (a.attempt.advanced == b.attempt.advanced &&
          a.attempt.elapsedSeconds ≤ b.attempt.elapsedSeconds)))))

/-- The last hundred attempts at the type of blocker, with their similarity. -/
def scoredAttempts (hash : StringHash) (rows : List StrategyAttempt) (profile : FeatureProfile)
    (blockerType : String) : List ScoredAttempt :=
  (((rows.filter fun row => row.blockerType = blockerType).insertionSort
      fun a b => b.recordedAt ≤ a.recordedAt).take 100).map fun row =>
    { attempt := row
      similarity :=
        cosineSimilarity (vectorFor hash (featureTokens lower profile blockerType))
          row.featureVector }

/-- `retrieve_similar` -/
def retrieveSimilar (hash : StringHash) (rows : List StrategyAttempt) (profile : FeatureProfile)
    (blockerType : String) (limit : ℕ) : List ScoredAttempt :=
  ((scoredAttempts lower hash rows profile blockerType).insertionSort
    fun a b => a.before b).take limit

/-! ### Similarities -/

theorem cosineSimilarity_le (left right : List ℕ) : cosineSimilarity left right ≤ 10 ^ 4 := by
  rw [cosineSimilarity]
  by_cases hzero : dot left left * dot right right = 0
  · simp [roundRoot, hzero]
  · have hbound : 10 ^ 8 * dot left right ^ 2 ≤ (10 ^ 4) ^ 2 * (dot left left * dot right right) :=
      Nat.mul_le_mul_left _ (dot_sq_le left right)
    exact (roundRoot_mono hbound).trans (roundRoot_sq_mul _ (Nat.pos_of_ne_zero hzero)).le

theorem cosineSimilarity_self {v : List ℕ} (hv : dot v v ≠ 0) : cosineSimilarity v v = 10 ^ 4 := by
  have hscale : 10 ^ 8 = (10 ^ 4) ^ 2 := (pow_mul 10 4 2)
  rw [cosineSimilarity, pow_two (dot v v), hscale]
  exact roundRoot_sq_mul (10 ^ 4) (Nat.pos_of_ne_zero (Nat.mul_ne_zero hv hv))

/-! ### Two processes -/

variable {lower}

/-- There are some features, and at most nine. -/
theorem length_featureTokens (lower : String → String) (profile : FeatureProfile) (blockerType : String) :
    0 < (featureTokens lower profile blockerType).length ∧
      (featureTokens lower profile blockerType).length ≤ 9 := by
  constructor
  · rw [featureTokens, List.length_map]
    refine List.length_pos_of_mem (a := bootloaderFeature profile.bootloaderLocked) ?_
    refine List.mem_filter.mpr ⟨by simp, ?_⟩
    rcases profile.bootloaderLocked with _ | _ | _ <;> decide
  · rw [featureTokens, List.length_map]
    refine (List.length_filter_le _ _).trans ?_
    cases profile.slotInfo <;> simp [slotFeatures]

theorem bucket_lt (hash : StringHash) (token : String) : bucket hash token < dims :=
  Nat.mod_lt _ (by decide)

theorem sum_bucketCount (hash : StringHash) (tokens : List String) :
    ∑ i ∈ Finset.range dims, bucketCount hash tokens i = tokens.length :=
  sum_countP (bucket hash) dims fun token _ => bucket_lt hash token

theorem sq_le_countNorm (hash : StringHash) (tokens : List String) {i : ℕ} (hi : i < dims) :
    bucketCount hash tokens i ^ 2 ≤ countNorm hash tokens :=
  Finset.single_le_sum (f := fun i => bucketCount hash tokens i ^ 2) (fun _ _ => Nat.zero_le _)
    (Finset.mem_range.mpr hi)

/-- The norm lies between one and the square of the number of tokens. -/
theorem countNorm_bounds (hash : StringHash) {tokens : List String} (hne : 0 < tokens.length) :
    0 < countNorm hash tokens ∧ countNorm hash tokens ≤ tokens.length ^ 2 := by
  have hsum := sum_bucketCount hash tokens
  constructor
  · by_contra hzero
    have hall : ∀ i ∈ Finset.range dims, bucketCount hash tokens i = 0 := by
      intro i hi
      have hsq := sq_le_countNorm hash tokens (Finset.mem_range.mp hi)
      have hsq0 : bucketCount hash tokens i ^ 2 = 0 := by omega
      exact pow_eq_zero_iff two_ne_zero |>.mp hsq0
    rw [Finset.sum_eq_zero hall] at hsum
    omega
  · rw [countNorm, ← hsum, pow_two, Finset.sum_mul]
    refine Finset.sum_le_sum fun i hi => ?_
    rw [pow_two]
    exact Nat.mul_le_mul_left _
      (Finset.single_le_sum (f := fun i => bucketCount hash tokens i) (fun _ _ => Nat.zero_le _) hi)

/-- Two processes make the same vector exactly when their hashes fill the buckets alike. -/
theorem vectorFor_eq_iff (hash hash' : StringHash) {tokens : List String} (hne : 0 < tokens.length)
    (hfew : tokens.length ≤ 9) :
    vectorFor hash tokens = vectorFor hash' tokens ↔
      ∀ i < dims, bucketCount hash tokens i = bucketCount hash' tokens i := by
  obtain ⟨hN, hN'⟩ := countNorm_bounds hash hne
  obtain ⟨hM, hM'⟩ := countNorm_bounds hash' hne
  have hsquare : tokens.length ^ 2 ≤ 9 ^ 2 := Nat.pow_le_pow_left hfew 2
  have hsize : countNorm hash tokens * countNorm hash' tokens ≤ 10 ^ 5 :=
    (Nat.mul_le_mul (hN'.trans hsquare) (hM'.trans hsquare)).trans (by norm_num)
  constructor
  · intro heq
    have hcomponent : ∀ i < dims,
        roundRoot (10 ^ 12 * bucketCount hash tokens i ^ 2) (countNorm hash tokens) =
          roundRoot (10 ^ 12 * bucketCount hash' tokens i ^ 2) (countNorm hash' tokens) :=
      fun i hi => List.map_inj_left.mp heq i (List.mem_range.mpr hi)
    have hproportion : ∀ i < dims, bucketCount hash tokens i ^ 2 * countNorm hash' tokens =
        bucketCount hash' tokens i ^ 2 * countNorm hash tokens := by
      intro i hi
      refine Nat.le_antisymm ?_ ?_
      · exact le_of_roundRoot_le hN hM (sq_le_countNorm hash tokens hi) hsize (hcomponent i hi)
      · exact le_of_roundRoot_le hM hN (sq_le_countNorm hash' tokens hi)
          (Nat.mul_comm _ _ ▸ hsize) (hcomponent i hi).symm
    exact eq_of_proportional ((sum_bucketCount hash tokens).trans (sum_bucketCount hash' tokens).symm)
      hproportion hN
  · intro h
    have hnorm : countNorm hash tokens = countNorm hash' tokens :=
      Finset.sum_congr rfl fun i hi => by rw [h i (Finset.mem_range.mp hi)]
    exact List.map_inj_left.mpr fun i hi => by rw [h i (List.mem_range.mp hi), hnorm]

/-- A vector of features is not zero. -/
theorem dot_vectorFor_ne_zero (hash : StringHash) {tokens : List String} (hne : 0 < tokens.length)
    (hfew : tokens.length ≤ 9) : dot (vectorFor hash tokens) (vectorFor hash tokens) ≠ 0 := by
  obtain ⟨hN, hN'⟩ := countNorm_bounds hash hne
  have hsquare : tokens.length ^ 2 ≤ 9 ^ 2 := Nat.pow_le_pow_left hfew 2
  obtain ⟨i, hi, hcount⟩ : ∃ i ∈ Finset.range dims, bucketCount hash tokens i ≠ 0 := by
    refine Finset.exists_ne_zero_of_sum_ne_zero ?_
    rw [sum_bucketCount]
    omega
  have hpos : 0 < bucketCount hash tokens i ^ 2 := Nat.pow_pos (Nat.pos_of_ne_zero hcount)
  have hcomponent : 0 < roundRoot (10 ^ 12 * bucketCount hash tokens i ^ 2) (countNorm hash tokens) :=
    roundRoot_pos hN (by omega)
  have hmem : roundRoot (10 ^ 12 * bucketCount hash tokens i ^ 2) (countNorm hash tokens) ∈
      vectorFor hash tokens :=
    List.mem_map.mpr ⟨i, List.mem_range.mpr (Finset.mem_range.mp hi), rfl⟩
  have hle := mul_self_le_dot hmem
  have hsq := Nat.mul_pos hcomponent hcomponent
  omega

/-- The attempt of one process is remembered in the other: the vectors agree, and no stored
vector is more similar to the device than the one of the attempt. -/
def Remembered (lower : String → String) (hash hash' : StringHash) (profile : FeatureProfile)
    (blockerType : String) : Prop :=
  (∀ report now, (attemptRow lower hash profile blockerType report now).featureVector =
      vectorFor hash' (featureTokens lower profile blockerType)) ∧
    ∀ rows report now, ∀ a ∈ scoredAttempts lower hash' rows profile blockerType,
      a.similarity ≤ cosineSimilarity (vectorFor hash' (featureTokens lower profile blockerType))
        (attemptRow lower hash profile blockerType report now).featureVector

/-- An attempt is remembered by another process exactly when both hashes put as many features
of the device into each bucket. -/
theorem remembered_iff (lower : String → String) (hash hash' : StringHash) (profile : FeatureProfile)
    (blockerType : String) :
    Remembered lower hash hash' profile blockerType ↔
      ∀ i < dims, bucketCount hash (featureTokens lower profile blockerType) i =
        bucketCount hash' (featureTokens lower profile blockerType) i := by
  obtain ⟨hne, hfew⟩ := length_featureTokens lower profile blockerType
  have hvector := vectorFor_eq_iff hash hash' hne hfew
  constructor
  · intro h
    exact hvector.mp
      (h.1 { strategyId := "", proposalId := "", decision := .discard, advanced := false } "")
  · intro h
    have heq := hvector.mpr h
    refine ⟨fun _ _ => heq, fun rows report now a ha => ?_⟩
    obtain ⟨row, -, rfl⟩ := List.mem_map.mp ha
    have hrow : (attemptRow lower hash profile blockerType report now).featureVector =
        vectorFor hash' (featureTokens lower profile blockerType) := heq
    rw [hrow, cosineSimilarity_self (dot_vectorFor_ne_zero hash' hne hfew)]
    exact cosineSimilarity_le _ _

/-- A device that has told little about itself. -/
def plainDevice : FeatureProfile :=
  { sessionId := "s", canonicalName := "s", deviceCodename := "", fingerprint := "" }

/-- A restart may forget an attempt at the same device. -/
theorem forgotten_after_restart :
    ¬Remembered asciiLower (fun _ => 0) (fun token => token.toList.length) plainDevice
      "source_blocker" := by
  intro h
  obtain ⟨hne, hfew⟩ := length_featureTokens asciiLower plainDevice "source_blocker"
  have hbuckets := (vectorFor_eq_iff (fun _ => 0) (fun token => token.toList.length) hne hfew).mp
    (h.1 { strategyId := "", proposalId := "", decision := .discard, advanced := false } "")
  exact absurd (hbuckets 0 (by decide)) (by decide)

end ForgeOS.Learning
