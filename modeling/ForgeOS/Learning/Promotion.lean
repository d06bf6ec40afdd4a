import Mathlib.Data.List.Sort
import Mathlib.Data.String.Basic
import ForgeOS.Models
import ForgeOS.Python.Dict
import ForgeOS.Python.Text

/-! How an adapter comes into `master/` and leaves it again: `AdapterRegistry`, the family keys
of `KnowledgeEngine` and `PromotionEngine`. An adapter is stored under a key made of
manufacturer and model, its device family is counted under another one, and both are looked up
in the same folders. `lower` is `str.lower`; whether the numbers of a family make it a
candidate, and which support level they give, is decided by `Scoring`. -/

namespace ForgeOS.Learning

open ForgeOS.Python

variable (lower : String → String)

/-! ### Keys -/

def isAdapterKeyChar (c : Char) : Bool := ('a' ≤ c && c ≤ 'z') || ('0' ≤ c && c ≤ '9')

/-- `re.sub(r"[^a-z0-9]+", "_", text)`, inside a run of other characters or not. -/
def underscoreRuns : Bool → List Char → List Char
  | _, [] => []
  | inRun, c :: cs =>
    if isAdapterKeyChar c then c :: underscoreRuns false cs
    else if inRun then underscoreRuns true cs
    else '_' :: underscoreRuns true cs

/-- `text.strip("_")` -/
def stripUnderscores (cs : List Char) : List Char := (cs.dropWhile (· == '_')).rdropWhile (· == '_')

/-- `_slug` of the adapter registry -/
def adapterSlug (value : Option String) : String :=
  let text := orText value ""
  if text = "" then "unknown"
  else
    let slug := stripUnderscores (underscoreRuns false (lower (strip text)).toList)
    orText (some (String.ofList slug)) "unknown"

/-- `_adapter_key` -/
def adapterKey (manufacturer model : Option String) : String :=
  adapterSlug lower manufacturer ++ "_" ++ adapterSlug lower model

/-- `_family_key` -/
def familyKey (manufacturer model : Option String) : String :=
  replaceChar (lower (strip (orText manufacturer "unknown"))) ' ' '-' ++ ":" ++
    replaceChar (lower (strip (orText model "unknown"))) ' ' '-'

/-- The key of a family that a session with a device has confirmed. -/
def confirmedKey (manufacturer model : Option String) : String :=
  replaceChar (lower (strip (orText manufacturer ""))) ' ' '_' ++ "_" ++
    replaceChar (lower (strip (orText model ""))) ' ' '_'

/-! ### Outcomes and families -/

/-- An entry of `session_outcomes.json`. -/
structure Outcome where
  familyKey : String
  manufacturer : Option String
  model : Option String
  serial : Option String
  supportStatus : SupportStatus
  selectedStrategy : Option String
  restorePathFeasible : Bool
  fitnessScore : ℚ
  deriving DecidableEq, Repr

/-- An entry of `support_matrix.json`, with the outcomes that its numbers are made from. -/
structure Family where
  manufacturer : Option String
  model : Option String
  outcomes : List Outcome
  supportLevel : String
  deprecatedReason : Option String := none
  deriving DecidableEq, Repr

structure Scoring where
  supportLevel : List Outcome → String
  /-- The numbers of a family reach the thresholds of the promotion rules. -/
  meets : List Outcome → Bool

/-- `outcomes[session_id] = ...` of `record_session_outcome` -/
def recordSessionOutcome (outcomes : List (String × Outcome)) (profile : DeviceProfile)
    (supportStatus : SupportStatus) (selectedStrategy : Option String) (restorePathFeasible : Bool)
    (fitnessScore : ℚ) : List (String × Outcome) :=
  dictSet outcomes profile.sessionId
    { familyKey := familyKey lower profile.manufacturer profile.model
      manufacturer := profile.manufacturer
      model := profile.model
      serial := profile.serial
      supportStatus, selectedStrategy, restorePathFeasible, fitnessScore }

/-- An outcome is counted for its family, which the first outcome names. -/
def countOutcome (families : List (String × Family)) (o : Outcome) : List (String × Family) :=
  let family := (dictGet families o.familyKey).getD
    { manufacturer := o.manufacturer, model := o.model, outcomes := [], supportLevel := "" }
  dictSet families o.familyKey { family with outcomes := family.outcomes ++ [o] }

/-- `rebuild_support_matrix` -/
def rebuildSupportMatrix (scoring : Scoring) (outcomes : List (String × Outcome)) :
    List (String × Family) :=
  (((outcomes.map Prod.snd).foldl countOutcome []).map fun p =>
    (p.1, { p.2 with supportLevel := scoring.supportLevel p.2.outcomes })).insertionSort
      fun p q => p.1 ≤ q.1

structure Candidate where
  familyKey : String
  manufacturer : Option String
  model : Option String
  supportLevel : String
  autoApplyAllowed : Bool
  deriving DecidableEq, Repr

/-- `PromotionEngine.evaluate` -/
def evaluate (scoring : Scoring) (autoApply : Bool) (matrix : List (String × Family)) :
    List Candidate :=
  (matrix.filter fun p => scoring.meets p.2.outcomes).map fun p =>
    { familyKey := p.1
      manufacturer := p.2.manufacturer
      model := p.2.model
      supportLevel := p.2.supportLevel
      autoApplyAllowed := autoApply }

/-! ### Adapters -/

/-- `meta.json` of an adapter under review. -/
structure AdapterMeta where
  key : String
  manufacturer : Option String
  model : Option String
  codename : Option String
  sourceSession : String
  /-- The status of the self-test, also kept as `test_source`. -/
  testStatus : String
  status : String
  deriving DecidableEq, Repr

/-- A folder of `promotion/adapters`. -/
structure ReviewFolder where
  record : AdapterMeta
  adapter : Option String
  playbook : Option String
  deriving DecidableEq, Repr

/-- The folders that adapters move between, each by the key in the name of its entries. -/
structure AdapterArea where
  review : List (String × ReviewFolder) := []
  masterAdapters : List (String × String) := []
  masterPlaybooks : List (String × String) := []
  deprecated : List (String × String) := []
  deriving DecidableEq, Repr

/-- `register_session_adapter` -/
def registerSessionAdapter (area : AdapterArea) (session : String)
    (manufacturer model codename : Option String) (adapter playbook testStatus : String) :
    AdapterArea :=
  let key := adapterKey lower manufacturer model
  { area with
    review := dictSet area.review key
      { record :=
          { key, manufacturer, model, codename
            sourceSession := session
            testStatus
            status := "pending_review" }
        adapter := some adapter
        playbook := some playbook } }

/-- `apply_to_master`, as to the folders. -/
def applyToMaster (area : AdapterArea) (candidateKey : String) : AdapterArea :=
  match dictGet area.review candidateKey with
  | none => area
  | some folder =>
    match folder.adapter with
    | none => area
    | some adapter =>
      { area with
        masterAdapters := dictSet area.masterAdapters candidateKey adapter
        masterPlaybooks :=
          match folder.playbook with
          | some playbook => dictSet area.masterPlaybooks candidateKey playbook
          | none => area.masterPlaybooks
        review := dictSet area.review candidateKey
          { folder with record := { folder.record with status := "promoted" } } }

/-- The loop of `handle_device_event` over the candidates. -/
def promoteCandidates (area : AdapterArea) (candidates : List Candidate) : AdapterArea :=
  (candidates.filter (·.autoApplyAllowed)).foldl (fun area c => applyToMaster area c.familyKey) area

/-- One folder of `_auto_promote_tested_adapters`, when the rules allow it at all. -/
def promoteTested (area : AdapterArea) (name : String) : AdapterArea :=
  match dictGet area.review name with
  | none => area
  | some folder =>
    if folder.record.status = "promoted" then area
    else if (dictGet area.masterAdapters folder.record.key).isSome then area
    else if folder.record.testStatus ∈ ["probe_pass", "probe_no_device"] then
      applyToMaster area folder.record.key
    else area

/-- `_auto_promote_tested_adapters` -/
def autoPromoteTestedAdapters (autoApply : Bool) (area : AdapterArea) : AdapterArea :=
  if autoApply then (area.review.map Prod.fst).foldl promoteTested area else area

/-- `deprecate_adapter`, as to the folders and the support matrix. -/
def deprecateAdapter (area : AdapterArea) (matrix : List (String × Family)) (key reason : String) :
    AdapterArea × List (String × Family) :=
  ({ area with
      masterAdapters := dictPop area.masterAdapters key
      masterPlaybooks := dictPop area.masterPlaybooks key
      deprecated := area.deprecated ++ [(key, reason)] },
    match dictGet matrix key with
    | some family =>
      dictSet matrix key
        { family with supportLevel := "deprecated", deprecatedReason := some reason }
    | none => matrix)

/-- The outcome comes from a session with a device that has a serial number. -/
def Outcome.confirms (o : Outcome) : Bool :=
  orText o.serial "" ≠ "" && !startsWith (orText o.serial "") "usb-"

/-- `audit_promoted_adapters` -/
def auditPromotedAdapters (area : AdapterArea) (outcomes : List (String × Outcome)) : List String :=
  let confirmedFamilies := ((outcomes.map Prod.snd).filter Outcome.confirms).map fun o =>
    confirmedKey lower o.manufacturer o.model
  ((area.review.insertionSort fun p q => p.1 ≤ q.1).filter fun p =>
    p.2.record.status = "promoted" && p.2.record.testStatus = "probe_no_device" &&
      orText (some p.2.record.key) p.1 ∉ confirmedFamilies).map fun p =>
        orText (some p.2.record.key) p.1

/-! ### What the keys are made of -/

variable {lower}

theorem mem_underscoreRuns {inRun : Bool} {cs : List Char} {c : Char}
    (h : c ∈ underscoreRuns inRun cs) : c = '_' ∨ isAdapterKeyChar c = true := by
  induction cs generalizing inRun with
  | nil => exact absurd h List.not_mem_nil
  | cons d cs ih =>
    rw [underscoreRuns] at h
    split_ifs at h with hd hrun
    · rcases List.mem_cons.mp h with rfl | h
      · exact .inr hd
      · exact ih h
    · exact ih h
    · rcases List.mem_cons.mp h with rfl | h
      · exact .inl rfl
      · exact ih h

theorem mem_stripUnderscores {cs : List Char} {c : Char} (h : c ∈ stripUnderscores cs) : c ∈ cs :=
  (List.dropWhile_sublist _).mem ((List.rdropWhile_prefix _ _).mem h)

theorem colon_notMem_adapterSlug (value : Option String) : ':' ∉ (adapterSlug lower value).toList := by
  have hunknown : ':' ∉ "unknown".toList := by decide
  rw [adapterSlug]
  dsimp only
  split_ifs
  · exact hunknown
  · rcases orText_cases (some (String.ofList (stripUnderscores
      (underscoreRuns false (lower (strip (orText value ""))).toList)))) "unknown" with h | h
    · rw [h]
      exact hunknown
    · rw [← Option.some.inj h, String.toList_ofList]
      intro hmem
      rcases mem_underscoreRuns (mem_stripUnderscores hmem) with hc | hc
      · exact absurd hc (by decide)
      · exact absurd hc (by decide)

/-- The key of an adapter is one word. -/
theorem colon_notMem_adapterKey (manufacturer model : Option String) :
    ':' ∉ (adapterKey lower manufacturer model).toList := by
  have hsep : ':' ∉ "_".toList := by decide
  simp only [adapterKey, String.toList_append, List.mem_append, not_or]
  exact ⟨⟨colon_notMem_adapterSlug manufacturer, hsep⟩, colon_notMem_adapterSlug model⟩

/-- The key of a family is two words. -/
theorem colon_mem_familyKey (manufacturer model : Option String) :
    ':' ∈ (familyKey lower manufacturer model).toList := by
  simp [familyKey]

theorem familyKey_ne_adapterKey (manufacturer model manufacturer' model' : Option String) :
    familyKey lower manufacturer model ≠ adapterKey lower manufacturer' model' := by
  intro h
  exact colon_notMem_adapterKey manufacturer' model' (h ▸ colon_mem_familyKey manufacturer model)

/-! ### Where the keys lead -/

variable (lower) in
/-- One key serves an adapter of the family from the review to its end: the key it is stored
under is the one its family's candidate is applied with, the one that is looked for among the
confirmed families, and one under which both the adapter and the family can be deprecated. -/
structure KeysAgree (manufacturer model : Option String) : Prop where
  applied : familyKey lower manufacturer model = adapterKey lower manufacturer model
  audited : confirmedKey lower manufacturer model = adapterKey lower manufacturer model
  deprecated : ∃ key, key = adapterKey lower manufacturer model ∧
    key = familyKey lower manufacturer model

/-- An adapter of a maker and a model with plain names. -/
theorem galaxy_keys_differ : ¬KeysAgree asciiLower (some "samsung") (some "galaxy") := by
  intro h
  exact absurd h.applied (by decide)

variable (lower) in
/-- There is no family whose keys agree. -/
theorem keys_never_agree (manufacturer model : Option String) :
    ¬KeysAgree lower manufacturer model := fun h =>
  familyKey_ne_adapterKey manufacturer model manufacturer model h.applied

theorem keys_insertionSort {κ ν : Type} (r : κ × ν → κ × ν → Prop) [DecidableRel r]
    (d : List (κ × ν)) {k : κ} : k ∈ (d.insertionSort r).map Prod.fst ↔ k ∈ d.map Prod.fst := by
  exact ((List.perm_insertionSort r d).map Prod.fst).mem_iff

theorem mem_keys_countOutcomes {os : List Outcome} {families : List (String × Family)} {key : String}
    (h : key ∈ (os.foldl countOutcome families).map Prod.fst) :
    key ∈ families.map Prod.fst ∨ ∃ o ∈ os, o.familyKey = key := by
  induction os generalizing families with
  | nil => exact .inl h
  | cons o os ih =>
    rcases ih h with h | ⟨o', ho', hkey⟩
    · rw [countOutcome, keys_dictSet] at h
      split_ifs at h
      · exact .inl h
      · rcases List.mem_append.mp h with h | h
        · exact .inl h
        · exact .inr ⟨o, List.mem_cons_self, (List.mem_singleton.mp h).symm⟩
    · exact .inr ⟨o', List.mem_cons_of_mem _ ho', hkey⟩

/-- A family of the matrix has the key of an outcome. -/
theorem mem_keys_matrix {scoring : Scoring} {outcomes : List (String × Outcome)} {key : String}
    (h : key ∈ (rebuildSupportMatrix scoring outcomes).map Prod.fst) :
    ∃ o ∈ outcomes.map Prod.snd, o.familyKey = key := by
  rw [rebuildSupportMatrix, keys_insertionSort, List.map_map] at h
  exact (mem_keys_countOutcomes h).resolve_left (by simp)

/-! ### Runs -/

/-- The folders of the adapters with what is known of the families. -/
structure PromotionState where
  area : AdapterArea := {}
  outcomes : List (String × Outcome) := []
  matrix : List (String × Family) := []

inductive PromotionStep
  | register (session : String) (manufacturer model codename : Option String)
      (adapter playbook testStatus : String)
  | record (profile : DeviceProfile) (supportStatus : SupportStatus)
      (selectedStrategy : Option String) (restorePathFeasible : Bool) (fitnessScore : ℚ)
  | promote (autoApply : Bool)
  | retire (key reason : String)

variable (lower) in
/-- What each part of an event does; a matrix is rebuilt when an outcome is recorded. -/
def PromotionState.step (scoring : Scoring) (s : PromotionState) : PromotionStep → PromotionState
  | .register session manufacturer model codename adapter playbook testStatus =>
    { s with
      area := registerSessionAdapter lower s.area session manufacturer model codename adapter
        playbook testStatus }
  | .record profile supportStatus selectedStrategy restorePathFeasible fitnessScore =>
    let outcomes := recordSessionOutcome lower s.outcomes profile supportStatus selectedStrategy
      restorePathFeasible fitnessScore
    { s with outcomes, matrix := rebuildSupportMatrix scoring outcomes }
  | .promote autoApply =>
    { s with
      area := autoPromoteTestedAdapters autoApply
        (promoteCandidates s.area (evaluate scoring autoApply s.matrix)) }
  | .retire key reason =>
    let (area, matrix) := deprecateAdapter s.area s.matrix key reason
    { s with area, matrix }

/-- Every key of the folders is that of an adapter. -/
def OneWord (keys : List String) : Prop := ∀ key ∈ keys, ':' ∉ key.toList

/-- Every key of the matrix is that of a family. -/
def TwoWords (keys : List String) : Prop := ∀ key ∈ keys, ':' ∈ key.toList

structure AdapterArea.Keyed (area : AdapterArea) : Prop where
  review : OneWord (area.review.map Prod.fst)
  master : OneWord (area.masterAdapters.map Prod.fst)

structure PromotionState.Keyed (s : PromotionState) : Prop where
  area : s.area.Keyed
  outcomes : ∀ o ∈ s.outcomes.map Prod.snd, ':' ∈ o.familyKey.toList
  matrix : TwoWords (s.matrix.map Prod.fst)

theorem mem_keys_dictSet {κ ν : Type} [DecidableEq κ] {d : List (κ × ν)} {k j : κ} {v : ν}
    (h : j ∈ (dictSet d k v).map Prod.fst) : j ∈ d.map Prod.fst ∨ j = k := by
  rw [keys_dictSet] at h
  split_ifs at h
  · exact .inl h
  · exact (List.mem_append.mp h).imp_right List.mem_singleton.mp

theorem mem_keys_dictPop {κ ν : Type} [DecidableEq κ] {d : List (κ × ν)} {k j : κ}
    (h : j ∈ (dictPop d k).map Prod.fst) : j ∈ d.map Prod.fst := by
  rw [keys_dictPop] at h
  exact List.mem_of_mem_erase h

/-- A family's key names no folder under review. -/
theorem applyToMaster_of_colon {area : AdapterArea} (h : area.Keyed) {key : String}
    (hkey : ':' ∈ key.toList) : applyToMaster area key = area := by
  rw [applyToMaster]
  split
  next => rfl
  next folder hfolder =>
    exact absurd hkey (h.review key (List.mem_map_of_mem (mem_of_dictGet hfolder)))

theorem AdapterArea.Keyed.apply {area : AdapterArea} (h : area.Keyed) (key : String) :
    (applyToMaster area key).Keyed := by
  rw [applyToMaster]
  split
  next => exact h
  next folder hfolder =>
    have hkey : ':' ∉ key.toList :=
      h.review key (List.mem_map_of_mem (mem_of_dictGet hfolder))
    split
    next => exact h
    next adapter _ =>
      constructor
      · exact fun j hj => (mem_keys_dictSet hj).elim (h.review j) fun hjk => hjk ▸ hkey
      · exact fun j hj => (mem_keys_dictSet hj).elim (h.master j) fun hjk => hjk ▸ hkey

theorem AdapterArea.Keyed.promoteTested {area : AdapterArea} (h : area.Keyed) (name : String) :
    (promoteTested area name).Keyed := by
  rw [Learning.promoteTested]
  split
  · exact h
  · split_ifs
    · exact h
    · exact h
    · exact h.apply _
    · exact h

theorem AdapterArea.Keyed.autoPromote {area : AdapterArea} (h : area.Keyed) (autoApply : Bool) :
    (autoPromoteTestedAdapters autoApply area).Keyed := by
  rw [autoPromoteTestedAdapters]
  split_ifs
  · generalize area.review.map Prod.fst = names
    induction names generalizing area with
    | nil => exact h
    | cons name names ih => exact ih (h.promoteTested name)
  · exact h

/-- The loop over the candidates copies nothing, as each of them has the key of a family. -/
theorem promoteCandidates_eq {area : AdapterArea} (h : area.Keyed) {candidates : List Candidate}
    (hcandidates : ∀ c ∈ candidates, ':' ∈ c.familyKey.toList) :
    promoteCandidates area candidates = area := by
  rw [promoteCandidates]
  have hall : ∀ c ∈ candidates.filter (·.autoApplyAllowed), ':' ∈ c.familyKey.toList :=
    fun c hc => hcandidates c (List.mem_of_mem_filter hc)
  generalize candidates.filter (·.autoApplyAllowed) = cs at hall
  induction cs with
  | nil => rfl
  | cons c cs ih =>
    rw [List.foldl_cons, applyToMaster_of_colon h (hall c List.mem_cons_self)]
    exact ih fun c' hc' => hall c' (List.mem_cons_of_mem _ hc')

theorem colon_of_candidate {scoring : Scoring} {autoApply : Bool} {matrix : List (String × Family)}
    (h : TwoWords (matrix.map Prod.fst)) {c : Candidate} (hc : c ∈ evaluate scoring autoApply matrix) :
    ':' ∈ c.familyKey.toList := by
  obtain ⟨p, hp, rfl⟩ := List.mem_map.mp hc
  exact h p.1 (List.mem_map_of_mem (List.mem_of_mem_filter hp))

/-- One step keeps the two kinds of keys apart. -/
theorem PromotionState.Keyed.step {s : PromotionState} (h : s.Keyed) (scoring : Scoring)
    (a : PromotionStep) : (s.step lower scoring a).Keyed := by
  cases a with
  | register session manufacturer model codename adapter playbook testStatus =>
    refine ⟨⟨fun key hkey => ?_, h.area.master⟩, h.outcomes, h.matrix⟩
    rcases mem_keys_dictSet hkey with hkey | rfl
    · exact h.area.review key hkey
    · exact colon_notMem_adapterKey manufacturer model
  | record profile supportStatus selectedStrategy restorePathFeasible fitnessScore =>
    have houtcomes : ∀ o ∈ (recordSessionOutcome lower s.outcomes profile supportStatus
        selectedStrategy restorePathFeasible fitnessScore).map Prod.snd,
        ':' ∈ o.familyKey.toList := by
      intro o ho
      obtain ⟨p, hp, rfl⟩ := List.mem_map.mp ho
      rcases mem_dictSet hp with rfl | hp
      · exact colon_mem_familyKey profile.manufacturer profile.model
      · exact h.outcomes p.2 (List.mem_map_of_mem hp)
    refine ⟨h.area, houtcomes, fun key hkey => ?_⟩
    obtain ⟨o, ho, rfl⟩ := mem_keys_matrix hkey
    exact houtcomes o ho
  | promote autoApply =>
    refine ⟨?_, h.outcomes, h.matrix⟩
    simp only [PromotionState.step]
    rw [promoteCandidates_eq h.area fun c hc => colon_of_candidate h.matrix hc]
    exact h.area.autoPromote autoApply
  | retire key reason =>
    refine ⟨⟨h.area.review, fun j hj => h.area.master j (mem_keys_dictPop hj)⟩, h.outcomes, ?_⟩
    simp only [PromotionState.step, deprecateAdapter]
    split
    next family hfamily =>
      intro j hj
      rcases mem_keys_dictSet hj with hj | rfl
      · exact h.matrix j hj
      · exact h.matrix j (List.mem_map_of_mem (mem_of_dictGet hfamily))
    next => exact h.matrix

variable (lower) in
def PromotionState.run (scoring : Scoring) (steps : List PromotionStep) : PromotionState :=
  steps.foldl (PromotionState.step lower scoring) {}

variable (lower) in
theorem keyed_run (scoring : Scoring) (steps : List PromotionStep) :
    (PromotionState.run lower scoring steps).Keyed := by
  induction steps using List.reverseRecOn with
  | nil => exact ⟨⟨by simp [PromotionState.run, OneWord], by simp [PromotionState.run, OneWord]⟩,
      by simp [PromotionState.run], by simp [PromotionState.run, TwoWords]⟩
  | append_singleton steps a ih =>
    rw [PromotionState.run, List.foldl_append]
    exact ih.step scoring a

/-- In no run does a candidate bring an adapter into `master/`, and in none is there a key under
which both an adapter and a family can be deprecated. -/
theorem candidates_promote_nothing (scoring : Scoring) (steps : List PromotionStep)
    (autoApply : Bool) (key : String) :
    let s := PromotionState.run lower scoring steps
    promoteCandidates s.area (evaluate scoring autoApply s.matrix) = s.area ∧
      ¬(key ∈ s.area.masterAdapters.map Prod.fst ∧ key ∈ s.matrix.map Prod.fst) := by
  have hkeyed := keyed_run lower scoring steps
  exact ⟨promoteCandidates_eq hkeyed.area fun c hc => colon_of_candidate hkeyed.matrix hc,
    fun h => hkeyed.area.master key h.1 (hkeyed.matrix key h.2)⟩

/-- The scan of the review folders promotes what the candidates do not: an adapter that passed
its self-test, under the key it was registered with. -/
theorem promoteTested_register (area : AdapterArea) (session : String)
    (manufacturer model codename : Option String) (adapter playbook : String)
    (hnew : dictGet area.masterAdapters (adapterKey lower manufacturer model) = none) :
    dictGet (promoteTested (registerSessionAdapter lower area session manufacturer model codename
      adapter playbook "probe_pass") (adapterKey lower manufacturer model)).masterAdapters
        (adapterKey lower manufacturer model) = some adapter := by
  simp [promoteTested, registerSessionAdapter, applyToMaster, dictGet_dictSet, hnew]

end ForgeOS.Learning
