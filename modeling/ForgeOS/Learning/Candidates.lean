import Mathlib.Algebra.Order.BigOperators.Group.List
import Mathlib.Algebra.Order.Ring.Rat
import Mathlib.Data.Nat.Cast.Order.Ring
import Mathlib.Data.Rat.Floor
import ForgeOS.Learning.Promotion
import ForgeOS.Library.Rounding
import ForgeOS.Runtime.Events

/-! What stands behind a candidate for promotion. A family is listed when its numbers reach the
thresholds of the rules, one of them a count of sessions with a serial number. The serial numbers
come out of the probe, which fills in a placeholder where a device has not told one. The confidence
and the average fitness are computed in floating point: `familyScores` has them in exact numbers,
and what is listed is shown for any `FamilyScores`. -/

namespace ForgeOS.Learning

open ForgeOS.Python ForgeOS.Session ForgeOS.Runtime ForgeOS.Library.Rounding

/-! ### The numbers of a family -/

/-- `promotion_rules.json`, where the last two thresholds may be missing. -/
structure PromotionRules where
  minObservations : ℚ
  minConfidence : ℚ
  restorePathRatio : ℚ
  minAvgFitness : Option ℚ
  validationCount : Option ℚ
  nonResearchStrategy : Bool
  autoApplyMasterChanges : Bool
  deriving DecidableEq, Repr

/-- `rules.get("require_validation_count", 0)` -/
def PromotionRules.requireValidationCount (rules : PromotionRules) : ℚ :=
  rules.validationCount.getD 0

/-- The numbers of a family that are floating-point numbers, and the level that is made of them. -/
structure FamilyScores where
  confidence : List Outcome → ℚ
  averageFitness : List Outcome → ℚ
  supportLevel : List Outcome → String

/-- `family["strategies"]` -/
def strategies (outcomes : List Outcome) : List (String × ℕ) :=
  outcomes.foldl (fun counts o =>
    let strategy := orText o.selectedStrategy "unselected"
    dictSet counts strategy ((dictGet counts strategy).getD 0 + 1)) []

/-- The first of the strategies that are counted most often. -/
def recommendedStrategy (outcomes : List Outcome) : String :=
  match strategies outcomes with
  | [] => "research_only"
  | first :: rest => (rest.foldl (fun best s => if best.2 < s.2 then s else best) first).1

/-- `family["restore_path_confirmed"] / max(1, observations)` -/
def restoreRatio (outcomes : List Outcome) : ℚ :=
  (outcomes.countP (·.restorePathFeasible) : ℚ) / max 1 outcomes.length

/-- `family["validated_sessions"]` -/
def validatedSessions (outcomes : List Outcome) : ℕ := outcomes.countP (·.confirms)

/-- `max(1, family["observations"])` -/
def observations (outcomes : List Outcome) : ℚ := max 1 outcomes.length

/-- How many of the observations have the property. -/
def rate (p : Outcome → Bool) (outcomes : List Outcome) : ℚ :=
  outcomes.countP p / observations outcomes

/-- `family["confidence"]` -/
def confidence (outcomes : List Outcome) : ℚ :=
  let actionableRate := rate (·.supportStatus = .actionable) outcomes
  let blockedRate := rate (·.supportStatus = .blocked) outcomes
  let restoreRate := rate (·.restorePathFeasible) outcomes
  roundPlaces 2 (max (5 / 100) (min (98 / 100) (15 / 100 + 12 / 100 * observations outcomes +
    35 / 100 * actionableRate + 2 / 10 * restoreRate - 25 / 100 * blockedRate)))

/-- `family["average_fitness_score"]` -/
def averageFitness (outcomes : List Outcome) : ℚ :=
  roundPlaces 3 ((outcomes.map (·.fitnessScore)).sum / observations outcomes)

/-- `_support_level_for_family` -/
def supportLevelForFamily (outcomes : List Outcome) : String :=
  let blocked := outcomes.countP (·.supportStatus = .blocked)
  if blocked = outcomes.length ∧ 1 ≤ outcomes.length then "blocked"
  else if 3 ≤ outcomes.length ∧ 75 / 100 ≤ confidence outcomes ∧
      66 / 100 ≤ rate (·.supportStatus = .actionable) outcomes then "provisionally_supported"
  else if 2 ≤ outcomes.length ∧ 55 / 100 ≤ confidence outcomes then "developing"
  else "research_only"

/-- The scores of `rebuild_support_matrix`, without the rounding of floating point. -/
def familyScores : FamilyScores where
  confidence := confidence
  averageFitness := averageFitness
  supportLevel := supportLevelForFamily

theorem confidence_mem_Icc (outcomes : List Outcome) :
    confidence outcomes ∈ Set.Icc (5 / 100 : ℚ) (98 / 100) := by
  refine roundPlaces_mem_Icc (m := 5) (n := 98) (by norm_num) (by norm_num) ⟨le_max_left _ _, ?_⟩
  exact max_le (by norm_num) (min_le_left _ _)

theorem averageFitness_nonneg {outcomes : List Outcome} (h : ∀ o ∈ outcomes, 0 ≤ o.fitnessScore) :
    0 ≤ averageFitness outcomes := by
  have hsum : 0 ≤ (outcomes.map (·.fitnessScore)).sum :=
    List.sum_nonneg (List.forall_mem_map.mpr h)
  have hobservations : 0 ≤ observations outcomes := zero_le_one.trans (le_max_left _ _)
  have hzero : roundPlaces 3 (0 : ℚ) = 0 := roundPlaces_eq_self (n := 0) (by norm_num)
  calc
    0 = roundPlaces 3 0 := hzero.symm
    _ ≤ averageFitness outcomes := roundPlaces_mono 3 (div_nonneg hsum hobservations)

/-- `meets` -/
def PromotionRules.meets (rules : PromotionRules) (scores : FamilyScores)
    (outcomes : List Outcome) : Bool :=
  rules.minObservations ≤ outcomes.length && rules.minConfidence ≤ scores.confidence outcomes &&
    rules.restorePathRatio ≤ restoreRatio outcomes &&
    rules.minAvgFitness.getD 0 ≤ scores.averageFitness outcomes &&
    rules.requireValidationCount ≤ validatedSessions outcomes &&
    !(rules.nonResearchStrategy && recommendedStrategy outcomes = "research_only")

def PromotionRules.scoring (rules : PromotionRules) (scores : FamilyScores) : Scoring where
  supportLevel := scores.supportLevel
  meets := rules.meets scores

/-- `evaluate` on the matrix that is made of the outcomes. -/
def candidates (rules : PromotionRules) (scores : FamilyScores)
    (outcomes : List (String × Outcome)) : List Candidate :=
  evaluate (rules.scoring scores) rules.autoApplyMasterChanges
    (rebuildSupportMatrix (rules.scoring scores) outcomes)

/-! ### Outcomes of sessions -/

/-- The sessions with what their devices have reported, and the outcomes that are recorded. -/
structure OutcomeLog extends DeviceLog where
  outcomes : List (String × Outcome) := []

inductive OutcomeStep (title : String → String)
  | event (c : Contact)
  | scan (name : String) (h : AskedHost title)
  /-- A remediation has asked a device, and its `profile_updates` go into the profile. -/
  | inspect (name : String) (told : ProbeData)
  /-- Whatever else changes a session without its serial number. -/
  | elsewhere (change : SessionDir → SessionDir)
  | record (name : String) (supportStatus : SupportStatus) (selectedStrategy : Option String)
      (restorePathFeasible : Bool) (fitnessScore : ℚ)

variable {title : String → String} (lower digest : String → String)

/-- A session is changed elsewhere. -/
def keepSerial (change : SessionDir → SessionDir) (d : SessionDir) : SessionDir :=
  { change d with
    name := d.name
    profile :=
      { (change d).profile with sessionId := d.profile.sessionId, serial := d.profile.serial } }

/-- `_apply_inspection_updates`, as to the profile. -/
def applyUpdates (name : String) (told : ProbeData) (d : SessionDir) : SessionDir :=
  if d.name = name then
    { d with profile := overrideCodename (mergeProbe d.profile told) told.deviceCodename }
  else d

def outcomeStep (s : OutcomeLog) : OutcomeStep title → OutcomeLog
  | .event c =>
    { s with toDeviceLog := deviceStep lower digest s.toDeviceLog (.event c : DeviceStep title) }
  | .scan name h =>
    { s with toDeviceLog := deviceStep lower digest s.toDeviceLog (.scan name h) }
  | .inspect name told =>
    { s with
      devices := s.devices.map (applyUpdates name told)
      reports := s.reports ++ reportsTo name told }
  | .elsewhere change => { s with devices := s.devices.map (keepSerial change) }
  | .record name supportStatus selectedStrategy restorePathFeasible fitnessScore =>
    match findSession s.devices name with
    | some d =>
      { s with
        outcomes := recordSessionOutcome lower s.outcomes d.profile supportStatus selectedStrategy
          restorePathFeasible fitnessScore }
    | none => s

def outcomeRun (steps : List (OutcomeStep title)) : OutcomeLog :=
  steps.foldl (outcomeStep lower digest) {}

/-- The device of the session has reported a serial number that is not a coarse one. -/
def serialReported (reports : List Report) (session : String) : Bool :=
  reports.any fun r => r.name = session && r.field = .serial && !startsWith r.value "usb-"

/-- The recorded sessions of a family whose devices have reported a serial number. -/
def reportedSessions (s : OutcomeLog) (key : String) : ℕ :=
  s.outcomes.countP fun p => p.2.familyKey = key && serialReported s.reports p.1

/-! ### The matrix -/

/-- The outcomes that have been counted for a family. -/
def countedFor (families : List (String × Family)) (key : String) : List Outcome :=
  ((dictGet families key).map Family.outcomes).getD []

theorem countedFor_countOutcome (families : List (String × Family)) (o : Outcome) (key : String) :
    countedFor (countOutcome families o) key =
      countedFor families key ++ if o.familyKey = key then [o] else [] := by
  rw [countedFor, countOutcome, dictGet_dictSet]
  by_cases hkey : key = o.familyKey
  · subst hkey
    rw [if_pos rfl, if_pos rfl, Option.map_some, Option.getD_some, countedFor]
    cases dictGet families o.familyKey <;> rfl
  · rw [if_neg hkey, if_neg (Ne.symm hkey), List.append_nil, countedFor]

theorem countedFor_foldl (os : List Outcome) (families : List (String × Family)) (key : String) :
    countedFor (os.foldl countOutcome families) key =
      countedFor families key ++ os.filter fun o => o.familyKey = key := by
  induction os generalizing families with
  | nil => rw [List.foldl_nil, List.filter_nil, List.append_nil]
  | cons o os ih =>
    rw [List.foldl_cons, ih, countedFor_countOutcome, List.append_assoc, List.filter_cons]
    by_cases hkey : o.familyKey = key
    · rw [if_pos hkey, if_pos (by rw [decide_eq_true_eq]; exact hkey)]
      rfl
    · rw [if_neg hkey, if_neg (by rw [decide_eq_true_eq]; exact hkey)]
      rfl

theorem nodup_countOutcomes (os : List Outcome) {families : List (String × Family)}
    (h : (families.map Prod.fst).Nodup) :
    ((os.foldl countOutcome families).map Prod.fst).Nodup := by
  induction os generalizing families with
  | nil => exact h
  | cons o os ih => exact ih (nodup_dictSet h o.familyKey _)

/-- The outcomes that are recorded of a family. -/
def familyOutcomes (outcomes : List (String × Outcome)) (key : String) : List Outcome :=
  (outcomes.map Prod.snd).filter fun o => o.familyKey = key

/-- A family of the matrix has the outcomes that are recorded of it. -/
theorem outcomes_of_mem_matrix {scoring : Scoring} {outcomes : List (String × Outcome)}
    {p : String × Family} (hp : p ∈ rebuildSupportMatrix scoring outcomes) :
    p.2.outcomes = familyOutcomes outcomes p.1 := by
  rw [rebuildSupportMatrix, (List.perm_insertionSort _ _).mem_iff] at hp
  obtain ⟨⟨key, family⟩, hmem, rfl⟩ := List.mem_map.mp hp
  have hnodup : (((outcomes.map Prod.snd).foldl countOutcome []).map Prod.fst).Nodup :=
    nodup_countOutcomes _ List.nodup_nil
  have hcounted := countedFor_foldl (outcomes.map Prod.snd) [] key
  rw [countedFor, (dictGet_eq_some_iff hnodup).mpr hmem] at hcounted
  exact hcounted

/-- A family with outcomes is in the matrix. -/
theorem exists_mem_matrix (scoring : Scoring) {outcomes : List (String × Outcome)} {key : String}
    (h : familyOutcomes outcomes key ≠ []) :
    ∃ p ∈ rebuildSupportMatrix scoring outcomes, p.1 = key := by
  have hcounted := countedFor_foldl (outcomes.map Prod.snd) [] key
  rw [countedFor] at hcounted
  cases hfamily : dictGet ((outcomes.map Prod.snd).foldl countOutcome []) key with
  | none =>
    rw [hfamily] at hcounted
    exact absurd hcounted.symm h
  | some family =>
    refine ⟨(key, { family with supportLevel := scoring.supportLevel family.outcomes }), ?_, rfl⟩
    rw [rebuildSupportMatrix, (List.perm_insertionSort _ _).mem_iff]
    exact List.mem_map.mpr ⟨(key, family), mem_of_dictGet hfamily, rfl⟩

/-- A candidate is a family with outcomes whose numbers reach the thresholds. -/
theorem mem_candidates {rules : PromotionRules} {scores : FamilyScores}
    {outcomes : List (String × Outcome)} {c : Candidate}
    (hc : c ∈ candidates rules scores outcomes) :
    rules.meets scores (familyOutcomes outcomes c.familyKey) = true := by
  obtain ⟨p, hp, rfl⟩ := List.mem_map.mp hc
  obtain ⟨hp, hmeets⟩ := List.mem_filter.mp hp
  rw [← outcomes_of_mem_matrix hp]
  exact hmeets

theorem exists_candidate {rules : PromotionRules} {scores : FamilyScores}
    {outcomes : List (String × Outcome)} {key : String} (hsome : familyOutcomes outcomes key ≠ [])
    (hmeets : rules.meets scores (familyOutcomes outcomes key) = true) :
    ∃ c ∈ candidates rules scores outcomes, c.familyKey = key := by
  obtain ⟨p, hp, rfl⟩ := exists_mem_matrix (rules.scoring scores) hsome
  refine ⟨_, List.mem_map.mpr ⟨p, List.mem_filter.mpr ⟨hp, ?_⟩, rfl⟩, rfl⟩
  rw [outcomes_of_mem_matrix hp]
  exact hmeets

/-- The thresholds that a family just reaches. -/
def justReached (scores : FamilyScores) (outcomes : List Outcome) : PromotionRules where
  minObservations := outcomes.length
  minConfidence := scores.confidence outcomes
  restorePathRatio := restoreRatio outcomes
  minAvgFitness := some (scores.averageFitness outcomes)
  validationCount := some (validatedSessions outcomes)
  nonResearchStrategy := false
  autoApplyMasterChanges := false

theorem meets_justReached (scores : FamilyScores) (outcomes : List Outcome) :
    (justReached scores outcomes).meets scores outcomes = true := by
  simp [PromotionRules.meets, PromotionRules.requireValidationCount, justReached]

/-! ### Where serial numbers come from -/

/-- A serial number of a session was filled in by the probe, or reported by the device. -/
def Sourced (reports : List Report) (session : String) (serial : Option String) : Prop :=
  serial = some IdentityField.serial.placeholder ∨
    ∃ r ∈ reports, r.name = session ∧ r.field = .serial ∧ serial = some r.value

structure OutcomeLog.Sound (s : OutcomeLog) : Prop where
  distinct : (names s.devices).Nodup
  session_eq : ∀ d ∈ s.devices, d.profile.sessionId = d.name
  devices : ∀ d ∈ s.devices, Sourced s.reports d.name d.profile.serial
  outcomes : ∀ p ∈ s.outcomes, Sourced s.reports p.1 p.2.serial

theorem Sourced.mono {reports : List Report} {session : String} {serial : Option String}
    (h : Sourced reports session serial) (more : List Report) :
    Sourced (reports ++ more) session serial :=
  h.imp_right fun ⟨r, hr, hname⟩ => ⟨r, List.mem_append_left more hr, hname⟩

theorem mem_reportsTo_serial {name value : String} {told : ProbeData}
    (h : told.serial = some value) (hvalue : value ≠ "") :
    ⟨name, .serial, value⟩ ∈ reportsTo name told := by
  have hgiven : given (some value) = true := by simp [given, hvalue]
  refine List.mem_filterMap.mpr ⟨.serial, by simp, ?_⟩
  rw [IdentityField.said, h, if_pos hgiven, Option.map_some]

theorem given_cases (value : Option String) :
    (∃ v, value = some v ∧ v ≠ "" ∧ given value = true) ∨
      given value = false ∧ ∀ default, orText value default = default := by
  rcases value with _ | v
  · exact .inr ⟨rfl, fun _ => rfl⟩
  · by_cases hv : v = ""
    · subst hv
      exact .inr ⟨rfl, fun _ => rfl⟩
    · exact .inl ⟨v, rfl, hv, by simp [given, hv]⟩

/-- What the probe makes of a serial number is filled in or reported. -/
theorem sourced_probe (reports : List Report) (name : String) {raw told : ProbeData}
    (h : raw.serial = told.serial) :
    Sourced (reports ++ reportsTo name told) name (deviceProbe raw).serial := by
  rcases given_cases told.serial with ⟨v, hv, hne, -⟩ | ⟨-, hdefault⟩
  · have hmem : ⟨name, .serial, v⟩ ∈ reports ++ reportsTo name told :=
      List.mem_append_right reports (mem_reportsTo_serial hv hne)
    refine .inr ⟨⟨name, .serial, v⟩, hmem, rfl, rfl, ?_⟩
    rw [deviceProbe, h, hv, orText_of_ne hne]
  · left
    rw [deviceProbe, h, hdefault]
    rfl

theorem serial_mergeProbe (profile : DeviceProfile) (raw : ProbeData) :
    (mergeProbe profile (deviceProbe raw)).serial = (deviceProbe raw).serial :=
  IdentityField.serial.held_mergeProbe profile raw

theorem sourced_mergeText {reports : List Report} {name : String} {old : Option String}
    (h : Sourced reports name old) (told : ProbeData) :
    Sourced (reports ++ reportsTo name told) name (mergeText old told.serial) := by
  rcases given_cases told.serial with ⟨v, hv, hne, hgiven⟩ | ⟨hgiven, -⟩
  · have hmem : ⟨name, .serial, v⟩ ∈ reports ++ reportsTo name told :=
      List.mem_append_right reports (mem_reportsTo_serial hv hne)
    refine .inr ⟨⟨name, .serial, v⟩, hmem, rfl, rfl, ?_⟩
    rw [mergeText, hgiven, if_pos rfl, hv]
  · rw [mergeText, hgiven, if_neg (by decide)]
    exact h.mono _

/-- A merge into a session leaves the others as they are. -/
theorem OutcomeLog.Sound.merge {s : OutcomeLog} (hs : s.Sound) {d : SessionDir}
    (hd : d ∈ s.devices) {raw told : ProbeData} (h : raw.serial = told.serial) :
    OutcomeLog.Sound { s with
      devices := mergeInto s.devices d raw
      reports := s.reports ++ reportsTo d.name told } := by
  refine ⟨?_, ?_, ?_, fun p hp => (hs.outcomes p hp).mono _⟩
  · rw [mergeInto, names_putSession]
    exact hs.distinct
  · intro e he
    obtain ⟨e₀, he₀, rfl⟩ := mem_putSession.mp he
    split_ifs
    · exact hs.session_eq d hd
    · exact hs.session_eq e₀ he₀
  · intro e he
    obtain ⟨e₀, he₀, rfl⟩ := mem_putSession.mp he
    split_ifs
    · rw [serial_mergeProbe]
      exact sourced_probe s.reports d.name h
    · exact (hs.devices e₀ he₀).mono _

theorem OutcomeLog.Sound.event {s : OutcomeLog} (hs : s.Sound) (c : Contact) :
    (outcomeStep lower digest s (.event c : OutcomeStep title)).Sound := by
  have hdistinct :=
    nodup_deviceStep lower digest s.toDeviceLog (.event c : DeviceStep title) hs.distinct
  cases hsession : eventSession lower digest s.devices c with
  | some d =>
    have hd := eventSession_mem hs.distinct hsession
    have hmerge := hs.merge hd (Eq.refl c.probe.serial)
    simp only [outcomeStep, deviceStep, handleDeviceEvent_eq, hsession, Option.map_some,
      Option.getD_some]
    exact hmerge
  | none =>
    simp only [outcomeStep, deviceStep, handleDeviceEvent_eq, hsession, Option.map_none,
      Option.getD_none] at hdistinct ⊢
    have hnew : ∀ e ∈ s.devices ++ [newSession lower digest (probed c)],
        e ∈ s.devices ∨ e = newSession lower digest (probed c) := by
      intro e he
      exact (List.mem_append.mp he).imp_right List.mem_singleton.mp
    refine ⟨hdistinct, ?_, ?_, fun p hp => (hs.outcomes p hp).mono _⟩
    · intro e he
      rcases hnew e he with he | rfl
      · exact hs.session_eq e he
      · rfl
    · intro e he
      rcases hnew e he with he | rfl
      · exact (hs.devices e he).mono _
      · exact sourced_probe s.reports _ rfl

/-- A scan finds the serial number that it looks for. -/
theorem serial_rescanned {h : RuntimeHost} {serial : String} {raw : ProbeData}
    (hraw : rescanned h serial = some raw) : raw.serial = some serial := by
  unfold rescanned at hraw
  split_ifs at hraw
  all_goals
    obtain rfl := Option.some.inj hraw
    rfl

/-- What a scan reads and what the device reports have the same serial number. -/
theorem scanned_spec {devices : Devices} {name : String} {h : AskedHost title} {d : SessionDir}
    {raw told : ProbeData} (hx : scanned devices name h = some (d, raw, told)) :
    d.name = name ∧ raw.serial = told.serial := by
  simp only [scanned, Option.bind_eq_bind, Option.bind_eq_some_iff, Option.pure_def,
    Option.some.injEq, Prod.mk.injEq] at hx
  obtain ⟨e, he, raw', hraw, told', htold, rfl, rfl, rfl⟩ := hx
  refine ⟨?_, (serial_rescanned hraw).trans (serial_rescanned htold).symm⟩
  simpa using List.find?_some he

theorem OutcomeLog.Sound.scan {s : OutcomeLog} (hs : s.Sound) (name : String)
    (h : AskedHost title) : (outcomeStep lower digest s (.scan name h)).Sound := by
  simp only [outcomeStep, deviceStep, deepScan_eq]
  cases hscan : scanned s.devices name h with
  | none =>
    simp only [Option.map_none, Option.getD_none, List.append_nil]
    exact hs
  | some x =>
    obtain ⟨d, raw, told⟩ := x
    obtain ⟨rfl, hserial⟩ := scanned_spec hscan
    exact hs.merge (scanned_mem hscan) hserial

theorem OutcomeLog.Sound.inspect {s : OutcomeLog} (hs : s.Sound) (name : String)
    (told : ProbeData) :
    (outcomeStep lower digest s (.inspect name told : OutcomeStep title)).Sound := by
  refine ⟨?_, ?_, ?_, fun p hp => (hs.outcomes p hp).mono _⟩
  · have hnames : SessionDir.name ∘ applyUpdates name told = SessionDir.name := by
      funext d
      simp only [Function.comp_apply, applyUpdates]
      split_ifs <;> rfl
    show ((s.devices.map (applyUpdates name told)).map SessionDir.name).Nodup
    rw [List.map_map, hnames]
    exact hs.distinct
  · intro e he
    obtain ⟨d, hd, rfl⟩ := List.mem_map.mp he
    unfold applyUpdates
    split_ifs
    · exact hs.session_eq d hd
    · exact hs.session_eq d hd
  · intro e he
    obtain ⟨d, hd, rfl⟩ := List.mem_map.mp he
    unfold applyUpdates
    split_ifs with hname
    · subst hname
      exact sourced_mergeText (hs.devices d hd) told
    · exact (hs.devices d hd).mono _

theorem OutcomeLog.Sound.elsewhere {s : OutcomeLog} (hs : s.Sound)
    (change : SessionDir → SessionDir) :
    (outcomeStep lower digest s (.elsewhere change : OutcomeStep title)).Sound := by
  refine ⟨?_, ?_, ?_, hs.outcomes⟩
  · show ((s.devices.map (keepSerial change)).map SessionDir.name).Nodup
    rw [List.map_map]
    exact hs.distinct
  · intro e he
    obtain ⟨d, hd, rfl⟩ := List.mem_map.mp he
    exact hs.session_eq d hd
  · intro e he
    obtain ⟨d, hd, rfl⟩ := List.mem_map.mp he
    exact hs.devices d hd

theorem OutcomeLog.Sound.record {s : OutcomeLog} (hs : s.Sound) (name : String)
    (supportStatus : SupportStatus) (selectedStrategy : Option String)
    (restorePathFeasible : Bool) (fitnessScore : ℚ) :
    (outcomeStep lower digest s (.record name supportStatus selectedStrategy restorePathFeasible
      fitnessScore : OutcomeStep title)).Sound := by
  simp only [outcomeStep]
  cases hfind : findSession s.devices name with
  | none => exact hs
  | some d =>
    have hd : d ∈ s.devices := List.mem_of_find?_eq_some hfind
    refine ⟨hs.distinct, hs.session_eq, hs.devices, fun p hp => ?_⟩
    rcases mem_dictSet hp with rfl | hp
    · show Sourced s.reports d.profile.sessionId d.profile.serial
      rw [hs.session_eq d hd]
      exact hs.devices d hd
    · exact hs.outcomes p hp

theorem sound_outcomeRun (steps : List (OutcomeStep title)) :
    (outcomeRun lower digest steps).Sound := by
  have hrun : ∀ s : OutcomeLog, s.Sound → (steps.foldl (outcomeStep lower digest) s).Sound := by
    induction steps with
    | nil => exact fun s hs => hs
    | cons x steps ih =>
      intro s hs
      refine ih _ ?_
      cases x with
      | event c => exact hs.event lower digest c
      | scan name h => exact hs.scan lower digest name h
      | inspect name told => exact hs.inspect lower digest name told
      | elsewhere change => exact hs.elsewhere lower digest change
      | record name supportStatus selectedStrategy restorePathFeasible fitnessScore =>
        exact hs.record lower digest name supportStatus selectedStrategy restorePathFeasible
          fitnessScore
  refine hrun {} ⟨List.nodup_nil, ?_, ?_, ?_⟩
  · exact fun d hd => absurd hd List.not_mem_nil
  · exact fun d hd => absurd hd List.not_mem_nil
  · exact fun p hp => absurd hp List.not_mem_nil

/-! ### Counted and reported sessions -/

/-- A session of the family is recorded with the placeholder, and its device has reported
nothing. -/
def filledIn (reports : List Report) (key : String) (p : String × Outcome) : Bool :=
  p.2.familyKey = key && p.2.serial = some "unknown-serial" && !serialReported reports p.1

/-- A session of the family has a device that has reported a serial number, and is recorded with a
coarse one. -/
def coarsened (reports : List Report) (key : String) (p : String × Outcome) : Bool :=
  p.2.familyKey = key && serialReported reports p.1 && !p.2.confirms

theorem ne_empty_of_orText {value : String} (h : orText (some value) "" ≠ "") : value ≠ "" := by
  rintro rfl
  exact h rfl

theorem countP_and {α : Type} (l : List α) (p q : α → Bool) :
    l.countP p = l.countP (fun a => p a && q a) + l.countP fun a => p a && !q a := by
  rw [List.countP_eq_countP_filter_add l p q, List.countP_filter, List.countP_filter]

theorem validatedSessions_eq (outcomes : List (String × Outcome)) (key : String) :
    validatedSessions (familyOutcomes outcomes key) =
      outcomes.countP fun p => p.2.familyKey = key && p.2.confirms := by
  rw [validatedSessions, familyOutcomes, List.countP_filter, List.countP_map]
  congr 1
  funext p
  exact Bool.and_comm _ _

/-- A counted session whose device has reported nothing was filled in. -/
theorem OutcomeLog.Sound.filledIn_eq {s : OutcomeLog} (hs : s.Sound) (key : String)
    {p : String × Outcome} (hp : p ∈ s.outcomes) :
    filledIn s.reports key p =
      ((decide (p.2.familyKey = key) && p.2.confirms) && !serialReported s.reports p.1) := by
  have hdefault : p.2.serial = some "unknown-serial" → p.2.confirms = true := by
    intro h
    rw [Outcome.confirms, h]
    decide
  unfold filledIn
  rcases hs.outcomes p hp with h | ⟨r, hr, hname, hfield, hserial⟩
  · have hserial : p.2.serial = some "unknown-serial" := h
    rw [hdefault hserial, hserial, decide_eq_true rfl]
  · by_cases hconfirms : p.2.confirms = true
    · -- what is counted and was told has been reported
      have hreported : serialReported s.reports p.1 = true := by
        refine List.any_eq_true.mpr ⟨r, hr, ?_⟩
        have hvalue : startsWith r.value "usb-" = false := by
          simp only [Outcome.confirms, hserial, Bool.and_eq_true, decide_eq_true_eq,
            Bool.not_eq_true'] at hconfirms
          rw [orText_of_ne (ne_empty_of_orText hconfirms.1)] at hconfirms
          exact hconfirms.2
        simp [hname, hfield, hvalue]
      rw [hreported, Bool.not_true, Bool.and_false, Bool.and_false]
    · have hother : p.2.serial ≠ some "unknown-serial" := fun h => hconfirms (hdefault h)
      rw [decide_eq_false hother, Bool.eq_false_iff.mpr hconfirms, Bool.and_false, Bool.false_and]

/-- What is counted and what has been reported differ by what was filled in and what was
coarsened. -/
theorem OutcomeLog.Sound.balance {s : OutcomeLog} (hs : s.Sound) (key : String) :
    validatedSessions (familyOutcomes s.outcomes key) +
        s.outcomes.countP (coarsened s.reports key) =
      reportedSessions s key + s.outcomes.countP (filledIn s.reports key) := by
  have hfilled : s.outcomes.countP (filledIn s.reports key) = s.outcomes.countP fun p =>
      (decide (p.2.familyKey = key) && p.2.confirms) && !serialReported s.reports p.1 := by
    refine List.countP_congr fun p hp => ?_
    rw [hs.filledIn_eq key hp]
  have hboth : (s.outcomes.countP fun p =>
      (decide (p.2.familyKey = key) && p.2.confirms) && serialReported s.reports p.1) =
        s.outcomes.countP fun p =>
          (decide (p.2.familyKey = key) && serialReported s.reports p.1) && p.2.confirms := by
    refine List.countP_congr fun p _ => ?_
    rw [Bool.and_right_comm]
  rw [validatedSessions_eq, reportedSessions, hfilled,
    countP_and s.outcomes (fun p => decide (p.2.familyKey = key) && p.2.confirms)
      fun p => serialReported s.reports p.1,
    countP_and s.outcomes (fun p => decide (p.2.familyKey = key) && serialReported s.reports p.1)
      fun p => p.2.confirms, hboth]
  unfold coarsened
  omega

/-- For every rule set, a candidate has as many sessions whose devices have reported a serial number
as the rules ask for, exactly if in no family more sessions were filled in than coarsened. -/
theorem candidates_reported_iff (scores : FamilyScores) (steps : List (OutcomeStep title)) :
    (∀ rules : PromotionRules,
        ∀ c ∈ candidates rules scores (outcomeRun lower digest steps).outcomes,
          rules.requireValidationCount ≤
            reportedSessions (outcomeRun lower digest steps) c.familyKey) ↔
      ∀ key, (outcomeRun lower digest steps).outcomes.countP
          (filledIn (outcomeRun lower digest steps).reports key) ≤
        (outcomeRun lower digest steps).outcomes.countP
          (coarsened (outcomeRun lower digest steps).reports key) := by
  have hs := sound_outcomeRun lower digest steps
  generalize outcomeRun lower digest steps = s at hs
  constructor
  · intro h key
    have hbalance := hs.balance key
    by_contra hmore
    have hcounted : 0 < validatedSessions (familyOutcomes s.outcomes key) := by omega
    have hsome : familyOutcomes s.outcomes key ≠ [] := by
      intro hnone
      rw [hnone] at hcounted
      exact absurd hcounted (Nat.lt_irrefl 0)
    obtain ⟨c, hc, rfl⟩ := exists_candidate hsome (meets_justReached scores _)
    have hle := h _ c hc
    rw [PromotionRules.requireValidationCount, justReached, Option.getD_some, Nat.cast_le] at hle
    omega
  · intro h rules c hc
    have hbalance := hs.balance c.familyKey
    have hle := h c.familyKey
    have hmeets := mem_candidates hc
    simp only [PromotionRules.meets, Bool.and_eq_true, decide_eq_true_eq] at hmeets
    refine hmeets.1.2.trans ?_
    rw [Nat.cast_le]
    omega

/-- A phone without a serial number is seen once, and the outcome is recorded. -/
def unnamedPhone : List (OutcomeStep id) :=
  [.event { probe := { manufacturer := some "acme", model := some "one" }, today := "20260101" },
    .record "acme-one-0-20260101" .blocked none false 0]

def unnamedOutcome : Outcome where
  familyKey := "acme:one"
  manufacturer := some "acme"
  model := some "one"
  serial := some "unknown-serial"
  supportStatus := .blocked
  selectedStrategy := none
  restorePathFeasible := false
  fitnessScore := 0

def oneSession : PromotionRules where
  minObservations := 1
  minConfidence := 0
  restorePathRatio := 0
  minAvgFitness := some 0
  validationCount := some 1
  nonResearchStrategy := false
  autoApplyMasterChanges := false

/-- It is listed as a candidate for which one session with a serial number is asked. -/
theorem unnamedPhone_listed :
    ¬∀ (steps : List (OutcomeStep id)) (rules : PromotionRules),
      ∀ c ∈ candidates rules familyScores (outcomeRun asciiLower (fun _ => "0") steps).outcomes,
        rules.requireValidationCount ≤
          reportedSessions (outcomeRun asciiLower (fun _ => "0") steps) c.familyKey := by
  intro h
  let s := outcomeRun asciiLower (fun _ => "0") unnamedPhone
  have hfamily : familyOutcomes s.outcomes "acme:one" = [unnamedOutcome] := by decide
  have hsome : familyOutcomes s.outcomes "acme:one" ≠ [] := by
    rw [hfamily]
    exact List.cons_ne_nil _ _
  have hmeets : oneSession.meets familyScores (familyOutcomes s.outcomes "acme:one") = true := by
    have hcounted : validatedSessions [unnamedOutcome] = 1 := by decide
    have hconfidence : 0 ≤ familyScores.confidence [unnamedOutcome] :=
      le_trans (by norm_num) (confidence_mem_Icc [unnamedOutcome]).1
    have hfitness : 0 ≤ familyScores.averageFitness [unnamedOutcome] :=
      averageFitness_nonneg (List.forall_mem_singleton.mpr le_rfl)
    have hrestore : 0 ≤ restoreRatio [unnamedOutcome] := by simp [restoreRatio, unnamedOutcome]
    rw [hfamily, PromotionRules.meets, hcounted]
    simp [PromotionRules.requireValidationCount, oneSession, hconfidence, hfitness, hrestore]
  obtain ⟨c, hc, hkey⟩ := exists_candidate hsome hmeets
  have hle := h unnamedPhone oneSession c hc
  have hnone : reportedSessions s "acme:one" = 0 := by decide
  rw [hkey, hnone] at hle
  exact absurd hle (by decide)

end ForgeOS.Learning
