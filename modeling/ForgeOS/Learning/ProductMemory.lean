import Mathlib.Data.List.MinMax
import Mathlib.Data.List.Sort
import Mathlib.Data.String.Basic
import ForgeOS.Models
import ForgeOS.Python.Dict
import ForgeOS.Python.Text

/-! `ProductMemoryEngine.record_observation`: what is remembered of the devices that have been
seen, by product and by version of the product. A product that is seen under a more precise
identity takes over the memory of the weaker ones. `lower` is `str.lower` and `digest` the
hexadecimal SHA-256 of a text. -/

namespace ForgeOS.Learning

open ForgeOS.Python

/-! ### Observations -/

/-- A profile with what the memory reads beside the identity. -/
structure ProductProfile extends DeviceProfile where
  formFactor : String := "unknown"
  /-- `build_id` and `incremental` of the hardware snapshot, then of the probe itself. -/
  snapshotBuildId : Option String := none
  snapshotIncremental : Option String := none
  rawBuildId : Option String := none
  rawBuildIncremental : Option String := none
  deriving DecidableEq, Repr

structure SourceBuildReport where
  status : Option String := none
  resolverStatus : Option String := none
  builderStatus : Option String := none
  builderReason : Option String := none
  deriving DecidableEq, Repr

structure Observation where
  sessionName : String
  profile : ProductProfile
  selectedStrategy : Option String := none
  supportStatus : Option String := none
  osPath : Option String := none
  recommendedUseCase : Option String := none
  blockerType : Option String := none
  artifactStatus : Option String := none
  installMode : Option String := none
  stagedCount : ℕ := 0
  missingRequirements : List String := []
  sourceAcquisition : SourceBuildReport := {}
  restoreStatus : Option String := none
  restoreSummary : Option String := none
  restorePathFeasible : Bool := false
  now : String := ""
  deriving DecidableEq, Repr

/-! ### The memory -/

structure ArtifactRecord where
  recordedAt : String
  status : Option String
  installMode : Option String
  stagedCount : ℕ
  missingRequirements : List String
  deriving DecidableEq, Repr

structure SourceRecord where
  recordedAt : String
  report : SourceBuildReport
  deriving DecidableEq, Repr

structure RestoreRecord where
  recordedAt : String
  status : Option String
  summary : Option String
  restorePathFeasible : Bool
  deriving DecidableEq, Repr

/-- A count for each text. -/
abbrev Counts := List (String × ℕ)

structure VersionMemory where
  versionKey : String
  androidVersion : String
  buildFingerprint : String
  buildId : String
  firstSeen : String
  lastSeen : String
  observations : ℕ := 0
  supportStatusCounts : Counts := []
  strategies : Counts := []
  recommendedPaths : Counts := []
  recommendedUseCases : Counts := []
  blockers : Counts := []
  artifactHistory : List ArtifactRecord := []
  sourceHistory : List SourceRecord := []
  restoreHistory : List RestoreRecord := []
  lessons : List String := []
  deriving DecidableEq, Repr

structure MergedProduct where
  productKey : String
  mergedAt : String
  reason : String
  deriving DecidableEq, Repr

structure Product where
  productKey : String
  manufacturer : String
  model : String
  codenames : List String := []
  formFactors : List String := []
  firstSeen : String
  lastSeen : String
  observations : ℕ := 0
  sessions : List String := []
  versions : List (String × VersionMemory) := []
  aliases : List String := []
  relatedIdentities : List String := []
  reusableGuidance : List String := []
  mergedProducts : List MergedProduct := []
  deriving DecidableEq, Repr

abbrev Products := List (String × Product)

/-! ### Lists and counts -/

section Lists

variable {α : Type}

/-- The last elements, at most `limit` of them: `values[-limit:]`. -/
def lastElements (limit : ℕ) (values : List α) : List α := values.drop (values.length - limit)

/-- `_append_limited` -/
def appendLimited (limit : ℕ) (values : List α) (item : α) : List α :=
  lastElements limit (values ++ [item])

/-- `_append_unique` -/
def appendUnique (values : List String) (value : String) : List String :=
  if value ≠ "" ∧ value ∉ values then values ++ [value] else values

def appendAllUnique (values more : List String) : List String := more.foldl appendUnique values

/-- `_append_session`, as to the list. -/
def appendSession (sessions : List String) (name : String) : List String :=
  lastElements 12 (sessions.erase name ++ [name])

/-- `_count` -/
def countKey (counts : Counts) (key : Option String) : Counts :=
  let normalized := orText key "unknown"
  dictSet counts normalized ((dictGet counts normalized).getD 0 + 1)

/-- The counts of `source` added to those of `target`. -/
def mergeCounts (target source : Counts) : Counts :=
  source.foldl (fun d p => dictSet d p.1 ((dictGet d p.1).getD 0 + p.2)) target

end Lists

variable (lower digest : String → String)

/-! ### Keys -/

/-- `_slug` -/
def slug (value : String) : String :=
  orText (some ("-".intercalate (split (replaceChar (lower (strip value)) '_' '-')))) "unknown"

def productKey (profile : ProductProfile) : String :=
  slug lower (orText profile.manufacturer "unknown") ++ ":" ++
    slug lower (orText profile.model "unknown") ++ ":" ++
      slug lower (orText (some profile.deviceCodename) "unknown")

/-- `_build_id` -/
def buildId (profile : ProductProfile) : String :=
  orText profile.snapshotBuildId (orText profile.snapshotIncremental
    (orText profile.rawBuildId (orText profile.rawBuildIncremental "")))

def versionKey (profile : ProductProfile) : String :=
  let androidVersion := slug lower (orText profile.androidVersion "unknown")
  let build := slug lower (orText (some (buildId profile)) "unknown")
  let fp :=
    if profile.fingerprint = "" then "nofp"
    else String.ofList ((digest profile.fingerprint).toList.take 10)
  "android-" ++ androidVersion ++ ":build-" ++ build ++ ":fp-" ++ fp

/-- `_product_key_parts` -/
def productKeyParts (key : String) : String × String × String :=
  match splitChar key ':' ++ ["unknown", "unknown", "unknown"] with
  | manufacturer :: model :: codename :: _ => (manufacturer, model, codename)
  | _ => ("unknown", "unknown", "unknown")

def unspecificWords : List String :=
  ["", "unknown", "none", "null", "usb-attached-android", "android", "generic", "device"]

/-- `_is_specific` -/
def isSpecific (value : String) : Bool := slug lower value ∉ unspecificWords

/-- `_identity_quality` -/
def identityQuality (key : String) : ℕ :=
  let (manufacturer, model, codename) := productKeyParts key
  (if isSpecific lower manufacturer then 1 else 0) + (if isSpecific lower model then 1 else 0) +
    if isSpecific lower codename then 2 else 0

/-- `_compatible_product_key`; without a profile its code name does not count. -/
def compatibleProductKey (existing requested : String) (profile : Option ProductProfile) : Bool :=
  let (existingManufacturer, existingModel, existingCodename) := productKeyParts existing
  let (requestedManufacturer, requestedModel, requestedCodename) := productKeyParts requested
  (isSpecific lower existingCodename && existingCodename = requestedCodename) ||
    (isSpecific lower existingManufacturer && isSpecific lower existingModel &&
      existingManufacturer = requestedManufacturer && existingModel = requestedModel) ||
    match profile with
    | some profile =>
      let codename := slug lower (orText (some profile.deviceCodename) "unknown")
      isSpecific lower codename && existingCodename = codename
    | none => false

/-- `_canonical_product_key` -/
def canonicalProductKey (products : Products) (requested : String) (profile : ProductProfile) :
    String :=
  match products.find? fun p => requested ∈ p.2.aliases with
  | some p => p.1
  | none =>
    let compatible :=
      (products.map Prod.fst).filter fun key => compatibleProductKey lower key requested (some profile)
    match compatible.argmax (identityQuality lower) with
    | some best => if identityQuality lower requested < identityQuality lower best then best else requested
    | none => requested

/-- `_prefer_specific` -/
def preferSpecific (current : String) (candidate : Option String) : String :=
  let currentValue := orText (some current) "Unknown"
  let candidateValue := orText candidate ""
  if isSpecific lower (slug lower currentValue) = false ∧ isSpecific lower (slug lower candidateValue)
  then candidateValue
  else currentValue

/-! ### Merging -/

/-- `_merge_version` -/
def mergeVersion (target source : VersionMemory) (mergedAt : String) : VersionMemory :=
  { target with
    firstSeen := min (orText (some target.firstSeen) mergedAt) (orText (some source.firstSeen) mergedAt)
    lastSeen := max (orText (some target.lastSeen) mergedAt) (orText (some source.lastSeen) mergedAt)
    observations := target.observations + source.observations
    supportStatusCounts := mergeCounts target.supportStatusCounts source.supportStatusCounts
    strategies := mergeCounts target.strategies source.strategies
    recommendedPaths := mergeCounts target.recommendedPaths source.recommendedPaths
    recommendedUseCases := mergeCounts target.recommendedUseCases source.recommendedUseCases
    blockers := mergeCounts target.blockers source.blockers
    artifactHistory := lastElements 20 (target.artifactHistory ++ source.artifactHistory)
    sourceHistory := lastElements 20 (target.sourceHistory ++ source.sourceHistory)
    restoreHistory := lastElements 20 (target.restoreHistory ++ source.restoreHistory)
    lessons := appendAllUnique target.lessons source.lessons }

/-- A version of the source comes to the versions of the target. -/
def takeVersion (mergedAt : String) (versions : List (String × VersionMemory))
    (p : String × VersionMemory) : List (String × VersionMemory) :=
  match dictGet versions p.1 with
  | some version => dictSet versions p.1 (mergeVersion version p.2 mergedAt)
  | none => dictSet versions p.1 p.2

/-- `_merge_product` -/
def mergeProduct (target source : Product) (sourceKey mergedAt : String) : Product :=
  { target with
    firstSeen := min (orText (some target.firstSeen) mergedAt) (orText (some source.firstSeen) mergedAt)
    lastSeen := max (orText (some target.lastSeen) mergedAt) (orText (some source.lastSeen) mergedAt)
    observations := target.observations + source.observations
    manufacturer := preferSpecific lower target.manufacturer (some source.manufacturer)
    model := preferSpecific lower target.model (some source.model)
    codenames := appendAllUnique target.codenames source.codenames
    formFactors := appendAllUnique target.formFactors source.formFactors
    sessions := lastElements 12 (appendAllUnique target.sessions source.sessions)
    reusableGuidance := appendAllUnique target.reusableGuidance source.reusableGuidance
    aliases := appendAllUnique (appendUnique target.aliases sourceKey) source.aliases
    mergedProducts :=
      appendLimited 30 target.mergedProducts
        { productKey := sourceKey
          mergedAt
          reason := "merged weaker compatible product identity" }
    versions := source.versions.foldl (takeVersion mergedAt) target.versions }

/-- The key is one of a weaker identity of the same product. -/
def weakerKey (canonicalKey : String) (profile : ProductProfile) (other : String) : Bool :=
  other ≠ canonicalKey && compatibleProductKey lower other canonicalKey (some profile) &&
    identityQuality lower other < identityQuality lower canonicalKey

/-- The canonical product takes over the product with the key `other`. -/
def takeProduct (canonicalKey mergedAt : String) (products : Products) (other : String) : Products :=
  match dictGet products canonicalKey, dictGet products other with
  | some canonical, some source =>
    dictSet (dictPop products other) canonicalKey
      (mergeProduct lower canonical source other mergedAt)
  | _, _ => products

/-- `_merge_weaker_products` -/
def mergeWeakerProducts (products : Products) (canonicalKey : String) (profile : ProductProfile)
    (mergedAt : String) : Products :=
  ((products.map Prod.fst).filter (weakerKey lower canonicalKey profile)).foldl
    (takeProduct lower canonicalKey mergedAt) products

/-! ### Lessons -/

/-- `_compiled_lessons` -/
def compiledLessons (version : VersionMemory) (profile : ProductProfile) : List String :=
  ((if version.sourceHistory.any fun r =>
        startsWith (orText r.report.builderReason "") "Android repo tool is missing" then
      ["Local Android source builds need the Android repo tool before retrying."]
    else []) ++
    (if version.sourceHistory.any fun r => r.report.status = some "blocked_by_host_prerequisite" then
      ["Skip repeated source build attempts until host prerequisites change."]
    else []) ++
    (if 2 ≤ (dictGet version.blockers "source_blocker").getD 0 then
      ["This version repeatedly reaches source acquisition; prioritize real firmware or known aftermarket packages."]
    else []) ++
    (if version.artifactHistory ≠ [] ∧
        (version.artifactHistory.any fun r => r.status = some "ready") = false then
      ["No usable flashable artifact has been proven for this version yet."]
    else []) ++
    if profile.deviceCodename ≠ "" then
      ["Reuse codename `" ++ profile.deviceCodename ++
        "` when searching firmware, recovery, and aftermarket builds."]
    else []).reverse.dedup.reverse

/-- `_compiled_product_guidance` -/
def compiledProductGuidance (product : Product) : List String :=
  let lessonTexts := product.versions.map fun p => lower (" ".intercalate p.2.lessons)
  let codenames := product.codenames.filter fun c => c ≠ "" ∧ c ≠ "unknown"
  ((if lessonTexts.any fun text => contains text "source acquisition" then
      ["Expect source/firmware acquisition to be the main blocker for this product family."]
    else []) ++
    (if lessonTexts.any fun text => contains text "repo tool" then
      ["Check host Android build prerequisites before launching local source builds."]
    else []) ++
    if codenames ≠ [] then
      ["Known codenames for reuse: " ++
        ", ".intercalate (codenames.dedup.insertionSort fun a b => a ≤ b) ++ "."]
    else []).reverse.dedup.reverse

/-- `_refresh_related_identities` -/
def refreshRelatedIdentities (products : Products) : Products :=
  products.map fun p =>
    (p.1, { p.2 with
      relatedIdentities :=
        ((products.map Prod.fst).filter fun other =>
          other ≠ p.1 && compatibleProductKey lower other p.1 none).insertionSort fun a b => a ≤ b })

/-! ### Recording -/

def newProduct (key : String) (o : Observation) : Product where
  productKey := key
  manufacturer := orText o.profile.manufacturer "Unknown"
  model := orText o.profile.model "Unknown"
  firstSeen := o.now
  lastSeen := o.now

def newVersion (key : String) (o : Observation) : VersionMemory where
  versionKey := key
  androidVersion := orText o.profile.androidVersion "unknown"
  buildFingerprint := o.profile.fingerprint
  buildId := buildId o.profile
  firstSeen := o.now
  lastSeen := o.now

/-- The observation is entered for the version. -/
def observeVersion (version : VersionMemory) (o : Observation) : VersionMemory :=
  let observed :=
    { version with
      lastSeen := o.now
      observations := version.observations + 1
      supportStatusCounts := countKey version.supportStatusCounts o.supportStatus
      strategies := countKey version.strategies (some (orText o.selectedStrategy "unselected"))
      recommendedPaths := countKey version.recommendedPaths o.osPath
      recommendedUseCases := countKey version.recommendedUseCases o.recommendedUseCase
      blockers := countKey version.blockers (some (o.blockerType.getD "none"))
      artifactHistory :=
        appendLimited 20 version.artifactHistory
          { recordedAt := o.now
            status := o.artifactStatus
            installMode := o.installMode
            stagedCount := o.stagedCount
            missingRequirements := o.missingRequirements }
      sourceHistory :=
        appendLimited 20 version.sourceHistory { recordedAt := o.now, report := o.sourceAcquisition }
      restoreHistory :=
        appendLimited 20 version.restoreHistory
          { recordedAt := o.now
            status := o.restoreStatus
            summary := o.restoreSummary
            restorePathFeasible := o.restorePathFeasible } }
  { observed with lessons := compiledLessons observed o.profile }

/-- The observation is entered for the product, under the key it was requested with. -/
def observeProduct (product : Product) (o : Observation) : Product :=
  let key := versionKey lower digest o.profile
  let version := (dictGet product.versions key).getD (newVersion key o)
  let observed :=
    { product with
      lastSeen := o.now
      observations := product.observations + 1
      manufacturer := preferSpecific lower product.manufacturer o.profile.manufacturer
      model := preferSpecific lower product.model o.profile.model
      aliases := appendUnique product.aliases (productKey lower o.profile)
      codenames := appendUnique product.codenames (orText (some o.profile.deviceCodename) "unknown")
      formFactors := appendUnique product.formFactors o.profile.formFactor
      sessions := appendSession product.sessions o.sessionName
      versions := dictSet product.versions key (observeVersion version o) }
  { observed with reusableGuidance := compiledProductGuidance lower observed }

/-- The products with the one that is looked for, which may be new. -/
def setDefaultProduct (products : Products) (key : String) (o : Observation) : Products :=
  match dictGet products key with
  | some _ => products
  | none => dictSet products key (newProduct key o)

/-- `product_memory.json`; `none` when it is missing or cannot be read. -/
abbrev MemoryFile := Option Products

/-- `_load`, as to the products. -/
def loadProducts (file : MemoryFile) : Products := file.getD []

/-- `record_observation`, as to the file. -/
def recordObservation (file : MemoryFile) (o : Observation) : MemoryFile :=
  let products := loadProducts file
  let key := canonicalProductKey lower products (productKey lower o.profile) o.profile
  let merged := mergeWeakerProducts lower (setDefaultProduct products key o) key o.profile o.now
  let product := (dictGet merged key).getD (newProduct key o)
  some (refreshRelatedIdentities lower
    (dictSet merged key (observeProduct lower digest product o)))

/-! ### Nothing is lost or counted twice -/

/-- The five counts of a version each sum to its observations. -/
structure VersionMemory.Balanced (v : VersionMemory) : Prop where
  supportStatusCounts : dictTotal id v.supportStatusCounts = v.observations
  strategies : dictTotal id v.strategies = v.observations
  recommendedPaths : dictTotal id v.recommendedPaths = v.observations
  recommendedUseCases : dictTotal id v.recommendedUseCases = v.observations
  blockers : dictTotal id v.blockers = v.observations

/-- The versions of a product are balanced, and their observations sum to those of the product. -/
structure Product.Balanced (p : Product) : Prop where
  observations : dictTotal VersionMemory.observations p.versions = p.observations
  versions : ∀ v ∈ p.versions, v.2.Balanced

section Counts

theorem share_id (counts : Counts) (key : String) : share id counts key = (dictGet counts key).getD 0 := by
  rw [share, Option.map_id]
  rfl

theorem total_add (counts : Counts) (key : String) (n : ℕ) :
    dictTotal id (dictSet counts key ((dictGet counts key).getD 0 + n)) = dictTotal id counts + n := by
  have h := dictTotal_dictSet id counts key ((dictGet counts key).getD 0 + n)
  rw [share_id] at h
  simp only [id] at h ⊢
  omega

theorem total_countKey (counts : Counts) (key : Option String) :
    dictTotal id (countKey counts key) = dictTotal id counts + 1 :=
  total_add counts (orText key "unknown") 1

theorem total_mergeCounts (target source : Counts) :
    dictTotal id (mergeCounts target source) = dictTotal id target + dictTotal id source := by
  induction source generalizing target with
  | nil => rfl
  | cons p source ih =>
    obtain ⟨key, n⟩ := p
    have hstep : mergeCounts target ((key, n) :: source) =
        mergeCounts (dictSet target key ((dictGet target key).getD 0 + n)) source := rfl
    rw [hstep, ih, total_add, dictTotal_cons, Nat.add_assoc]
    rfl

end Counts

section Versions

theorem VersionMemory.Balanced.merge {target source : VersionMemory} (ht : target.Balanced) (hs : source.Balanced)
    (mergedAt : String) : (mergeVersion target source mergedAt).Balanced where
  supportStatusCounts := by
    rw [mergeVersion, total_mergeCounts, ht.supportStatusCounts, hs.supportStatusCounts]
  strategies := by rw [mergeVersion, total_mergeCounts, ht.strategies, hs.strategies]
  recommendedPaths := by
    rw [mergeVersion, total_mergeCounts, ht.recommendedPaths, hs.recommendedPaths]
  recommendedUseCases := by
    rw [mergeVersion, total_mergeCounts, ht.recommendedUseCases, hs.recommendedUseCases]
  blockers := by rw [mergeVersion, total_mergeCounts, ht.blockers, hs.blockers]

theorem VersionMemory.Balanced.observe {v : VersionMemory} (h : v.Balanced) (o : Observation) :
    (observeVersion v o).Balanced where
  supportStatusCounts := by rw [observeVersion, total_countKey, h.supportStatusCounts]
  strategies := by rw [observeVersion, total_countKey, h.strategies]
  recommendedPaths := by rw [observeVersion, total_countKey, h.recommendedPaths]
  recommendedUseCases := by rw [observeVersion, total_countKey, h.recommendedUseCases]
  blockers := by rw [observeVersion, total_countKey, h.blockers]

theorem balanced_newVersion (key : String) (o : Observation) : (newVersion key o).Balanced :=
  ⟨rfl, rfl, rfl, rfl, rfl⟩

theorem total_takeVersion (mergedAt : String) (versions : List (String × VersionMemory))
    (p : String × VersionMemory) :
    dictTotal VersionMemory.observations (takeVersion mergedAt versions p) =
      dictTotal VersionMemory.observations versions + p.2.observations := by
  rw [takeVersion]
  split
  next version hget =>
    have h := dictTotal_dictSet VersionMemory.observations versions p.1
      (mergeVersion version p.2 mergedAt)
    have hobservations : (mergeVersion version p.2 mergedAt).observations =
        version.observations + p.2.observations := rfl
    rw [share, hget, Option.map_some, Option.getD_some] at h
    omega
  next hget =>
    have h := dictTotal_dictSet VersionMemory.observations versions p.1 p.2
    rw [share, hget, Option.map_none, Option.getD_none] at h
    omega

theorem balanced_takeVersion (mergedAt : String) {versions : List (String × VersionMemory)}
    (hversions : ∀ v ∈ versions, v.2.Balanced) {p : String × VersionMemory} (hp : p.2.Balanced) :
    ∀ v ∈ takeVersion mergedAt versions p, v.2.Balanced := by
  intro v hv
  rw [takeVersion] at hv
  split at hv
  next version hget =>
    rcases mem_dictSet hv with rfl | hv
    · exact (hversions _ (mem_of_dictGet hget)).merge hp mergedAt
    · exact hversions v hv
  next hget =>
    rcases mem_dictSet hv with rfl | hv
    · exact hp
    · exact hversions v hv

/-- Taking over versions adds their observations and keeps all of them balanced. -/
theorem takeVersions (mergedAt : String) (versions : List (String × VersionMemory))
    {more : List (String × VersionMemory)} (hversions : ∀ v ∈ versions, v.2.Balanced)
    (hmore : ∀ v ∈ more, v.2.Balanced) :
    dictTotal VersionMemory.observations (more.foldl (takeVersion mergedAt) versions) =
        dictTotal VersionMemory.observations versions +
          dictTotal VersionMemory.observations more ∧
      ∀ v ∈ more.foldl (takeVersion mergedAt) versions, v.2.Balanced := by
  induction more generalizing versions with
  | nil => exact ⟨rfl, hversions⟩
  | cons p more ih =>
    have hp : p.2.Balanced := hmore p List.mem_cons_self
    obtain ⟨htotal, hall⟩ := ih (takeVersion mergedAt versions p)
      (balanced_takeVersion mergedAt hversions hp) fun v hv => hmore v (List.mem_cons_of_mem _ hv)
    refine ⟨?_, hall⟩
    rw [List.foldl_cons, htotal, total_takeVersion, Nat.add_assoc]
    exact congrArg _ (dictTotal_cons _ p.1 p.2 more).symm

end Versions

section Products

variable {lower digest}

theorem Product.Balanced.merge {target source : Product} (ht : target.Balanced)
    (hs : source.Balanced) (sourceKey mergedAt : String) :
    (mergeProduct lower target source sourceKey mergedAt).Balanced := by
  obtain ⟨htotal, hall⟩ := takeVersions mergedAt target.versions ht.versions hs.versions
  refine ⟨?_, hall⟩
  rw [mergeProduct, htotal, ht.observations, hs.observations]

theorem Product.Balanced.observe {p : Product} (h : p.Balanced) (o : Observation) :
    (observeProduct lower digest p o).Balanced := by
  have hversion : ((dictGet p.versions (versionKey lower digest o.profile)).getD
      (newVersion (versionKey lower digest o.profile) o)).Balanced := by
    cases hget : dictGet p.versions (versionKey lower digest o.profile) with
    | none => exact balanced_newVersion _ o
    | some version => exact h.versions _ (mem_of_dictGet hget)
  constructor
  · have hset := dictTotal_dictSet VersionMemory.observations p.versions
      (versionKey lower digest o.profile)
      (observeVersion ((dictGet p.versions (versionKey lower digest o.profile)).getD
        (newVersion (versionKey lower digest o.profile) o)) o)
    have hshare : share VersionMemory.observations p.versions (versionKey lower digest o.profile) =
        ((dictGet p.versions (versionKey lower digest o.profile)).getD
          (newVersion (versionKey lower digest o.profile) o)).observations := by
      rw [share]
      cases dictGet p.versions (versionKey lower digest o.profile) with
      | none => rfl
      | some version => rfl
    have hone : ∀ v : VersionMemory, (observeVersion v o).observations = v.observations + 1 :=
      fun _ => rfl
    rw [hshare, hone, h.observations] at hset
    simp only [observeProduct]
    omega
  · intro v hv
    rcases mem_dictSet hv with rfl | hv
    · exact hversion.observe o
    · exact h.versions v hv

theorem balanced_newProduct (key : String) (o : Observation) : (newProduct key o).Balanced :=
  ⟨rfl, by simp [newProduct]⟩

/-- What the products hold together: they are balanced and have the observations. -/
structure Conserved (products : Products) (observations : ℕ) : Prop where
  total : dictTotal Product.observations products = observations
  balanced : ∀ p ∈ products, p.2.Balanced

theorem Conserved.setDefault {products : Products} {n : ℕ} (h : Conserved products n) (key : String)
    (o : Observation) : Conserved (setDefaultProduct products key o) n := by
  rw [setDefaultProduct]
  split
  next => exact h
  next hget =>
    constructor
    · have hset := dictTotal_dictSet Product.observations products key (newProduct key o)
      have hzero : (newProduct key o).observations = 0 := rfl
      rw [share, hget, Option.map_none, Option.getD_none, hzero] at hset
      rw [← h.total]
      omega
    · intro p hp
      rcases mem_dictSet hp with rfl | hp
      · exact balanced_newProduct key o
      · exact h.balanced p hp

/-- A product that is taken over leaves its observations to the canonical one. -/
theorem Conserved.take {products : Products} {n : ℕ} (h : Conserved products n)
    {canonicalKey other : String} (hne : other ≠ canonicalKey) (mergedAt : String) :
    Conserved (takeProduct lower canonicalKey mergedAt products other) n := by
  rw [takeProduct]
  split
  next canonical source hcanonical hsource =>
    constructor
    · have hpop := dictTotal_dictPop Product.observations products other
      have hset := dictTotal_dictSet Product.observations (dictPop products other) canonicalKey
        (mergeProduct lower canonical source other mergedAt)
      have hobservations : (mergeProduct lower canonical source other mergedAt).observations =
          canonical.observations + source.observations := rfl
      rw [share_dictPop_of_ne _ _ hne.symm, share, hcanonical, Option.map_some, Option.getD_some] at hset
      rw [share, hsource, Option.map_some, Option.getD_some] at hpop
      rw [← h.total]
      omega
    · intro p hp
      rcases mem_dictSet hp with rfl | hp
      · exact (h.balanced _ (mem_of_dictGet hcanonical)).merge
          (h.balanced _ (mem_of_dictGet hsource)) other mergedAt
      · exact h.balanced p (mem_of_mem_dictPop hp)
  next => exact h

theorem Conserved.mergeWeaker {products : Products} {n : ℕ} (h : Conserved products n)
    (canonicalKey : String) (profile : ProductProfile) (mergedAt : String) :
    Conserved (mergeWeakerProducts lower products canonicalKey profile mergedAt) n := by
  rw [mergeWeakerProducts]
  have hne : ∀ other ∈ (products.map Prod.fst).filter (weakerKey lower canonicalKey profile),
      other ≠ canonicalKey := by
    intro other hother
    have hweaker := (List.mem_filter.mp hother).2
    simp only [weakerKey, Bool.and_eq_true, decide_eq_true_eq] at hweaker
    exact hweaker.1.1
  generalize (products.map Prod.fst).filter (weakerKey lower canonicalKey profile) = keys at hne
  induction keys generalizing products with
  | nil => exact h
  | cons other keys ih =>
    exact ih (h.take (hne other List.mem_cons_self) mergedAt)
      fun key hkey => hne key (List.mem_cons_of_mem _ hkey)

theorem Conserved.refresh {products : Products} {n : ℕ} (h : Conserved products n) :
    Conserved (refreshRelatedIdentities lower products) n := by
  constructor
  · rw [← h.total, dictTotal, dictTotal, refreshRelatedIdentities, List.map_map]
    rfl
  · intro p hp
    obtain ⟨q, hq, rfl⟩ := List.mem_map.mp hp
    exact ⟨(h.balanced q hq).observations, (h.balanced q hq).versions⟩

/-- One call of `record_observation` adds one observation. -/
theorem Conserved.record {file : MemoryFile} {n : ℕ} (h : Conserved (loadProducts file) n)
    (o : Observation) : Conserved (loadProducts (recordObservation lower digest file o)) (n + 1) := by
  simp only [recordObservation, loadProducts, Option.getD_some]
  refine Conserved.refresh ?_
  have hmerged : Conserved (mergeWeakerProducts lower
      (setDefaultProduct (loadProducts file)
        (canonicalProductKey lower (loadProducts file) (productKey lower o.profile) o.profile) o)
      (canonicalProductKey lower (loadProducts file) (productKey lower o.profile) o.profile)
      o.profile o.now) n :=
    (h.setDefault _ o).mergeWeaker _ o.profile o.now
  simp only [loadProducts] at hmerged
  generalize canonicalProductKey lower (file.getD []) (productKey lower o.profile) o.profile = key
    at hmerged ⊢
  generalize mergeWeakerProducts lower (setDefaultProduct (file.getD []) key o) key o.profile o.now =
    merged at hmerged ⊢
  have hproduct : ((dictGet merged key).getD (newProduct key o)).Balanced := by
    cases hget : dictGet merged key with
    | none => exact balanced_newProduct key o
    | some product => exact hmerged.balanced _ (mem_of_dictGet hget)
  have hshare : share Product.observations merged key =
      ((dictGet merged key).getD (newProduct key o)).observations := by
    rw [share]
    cases dictGet merged key with
    | none => rfl
    | some product => rfl
  have hone : ∀ p : Product, (observeProduct lower digest p o).observations = p.observations + 1 :=
    fun _ => rfl
  constructor
  · have hset := dictTotal_dictSet Product.observations merged key
      (observeProduct lower digest ((dictGet merged key).getD (newProduct key o)) o)
    rw [hshare, hone, hmerged.total] at hset
    omega
  · intro p hp
    rcases mem_dictSet hp with rfl | hp
    · exact hproduct.observe o
    · exact hmerged.balanced p hp

end Products

/-- The memory behind a sequence of observations, from an empty store. -/
def recordAll (calls : List Observation) : MemoryFile :=
  calls.foldl (recordObservation lower digest) none

/-- Over every sequence of observations: the products hold as many as there were calls, each
product as many as its versions, and each count of a version sums to its observations. -/
theorem observations_conserved (calls : List Observation) :
    dictTotal Product.observations (loadProducts (recordAll lower digest calls)) = calls.length ∧
      ∀ p ∈ loadProducts (recordAll lower digest calls),
        dictTotal VersionMemory.observations p.2.versions = p.2.observations ∧
          ∀ v ∈ p.2.versions, v.2.Balanced := by
  have hconserved : Conserved (loadProducts (recordAll lower digest calls)) calls.length := by
    induction calls using List.reverseRecOn with
    | nil => exact ⟨rfl, by simp [recordAll, loadProducts]⟩
    | append_singleton calls o ih =>
      rw [recordAll, List.foldl_append, List.length_append, List.length_singleton]
      exact ih.record o
  exact ⟨hconserved.total, fun p hp =>
    ⟨(hconserved.balanced p hp).observations, (hconserved.balanced p hp).versions⟩⟩

end ForgeOS.Learning
