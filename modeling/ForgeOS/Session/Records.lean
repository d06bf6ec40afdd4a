import ForgeOS.Models
import ForgeOS.Python.Value

/-! The records of a session directory as they are written and read back: `to_dict` makes a
dictionary of a record, and the reader of its kind makes the record again. A reader calls the
enumerations, `float`, `int` and `bool` on some fields and takes the others as it finds them, so a
field that no reader converts is any JSON value here. How Python reads a number from a text and
what the clock shows are arguments. -/

namespace ForgeOS.Session.Records

open ForgeOS.Python ForgeOS.Library.Enumerations

/-! ### Enumerations -/

inductive DeviceFormFactor
  | unknown | phone | tablet
  deriving DecidableEq, Repr

inductive UserPersona
  | daily | senior | developer | child | privacy
  deriving DecidableEq, Repr

inductive TechnicalComfort
  | low | medium | high
  deriving DecidableEq, Repr

inductive PriorityFocus
  | security | simplicity | performance | battery | privacy | compatibility
  deriving DecidableEq, Repr

inductive GoogleServicesPreference
  | keep | reduce | remove
  deriving DecidableEq, Repr

inductive AutonomyLimit
  | conservative | balanced | agentic
  deriving DecidableEq, Repr

inductive RiskTolerance
  | low | medium | high
  deriving DecidableEq, Repr

inductive RestoreExpectation
  | mustBeOneClick | guidedIsOk | researchOk
  deriving DecidableEq, Repr

inductive UseCaseCategory
  | accessibility | kidSafe | media | offlineUtility | homeControl | lightweightAndroid
  | experimental | kiosk
  deriving DecidableEq, Repr

instance : Enumeration Transport where
  value := Transport.value
  members := [.usbAdb, .usbFastboot, .usbFastbootd, .usbRecovery, .usbMtp, .unknown]
  mem_members e := by cases e <;> simp
  nodup_values := by simp [Transport.value]

instance : Enumeration SupportStatus where
  value := SupportStatus.value
  members := [.actionable, .researchOnly, .blocked, .experimental]
  mem_members e := by cases e <;> simp
  nodup_values := by simp [SupportStatus.value]

instance : Enumeration DeviceFormFactor where
  value
    | .unknown => "unknown"
    | .phone => "phone"
    | .tablet => "tablet"
  members := [.unknown, .phone, .tablet]
  mem_members e := by cases e <;> simp
  nodup_values := by simp

instance : Enumeration UserPersona where
  value
    | .daily => "daily_user"
    | .senior => "senior"
    | .developer => "developer"
    | .child => "child"
    | .privacy => "privacy_focused"
  members := [.daily, .senior, .developer, .child, .privacy]
  mem_members e := by cases e <;> simp
  nodup_values := by simp

instance : Enumeration TechnicalComfort where
  value
    | .low => "low"
    | .medium => "medium"
    | .high => "high"
  members := [.low, .medium, .high]
  mem_members e := by cases e <;> simp
  nodup_values := by simp

instance : Enumeration PriorityFocus where
  value
    | .security => "security"
    | .simplicity => "simplicity"
    | .performance => "performance"
    | .battery => "battery"
    | .privacy => "privacy"
    | .compatibility => "compatibility"
  members := [.security, .simplicity, .performance, .battery, .privacy, .compatibility]
  mem_members e := by cases e <;> simp
  nodup_values := by simp

instance : Enumeration GoogleServicesPreference where
  value
    | .keep => "keep_google"
    | .reduce => "reduce_google"
    | .remove => "remove_google"
  members := [.keep, .reduce, .remove]
  mem_members e := by cases e <;> simp
  nodup_values := by simp

instance : Enumeration AutonomyLimit where
  value
    | .conservative => "conservative"
    | .balanced => "balanced"
    | .agentic => "agentic"
  members := [.conservative, .balanced, .agentic]
  mem_members e := by cases e <;> simp
  nodup_values := by simp

instance : Enumeration RiskTolerance where
  value
    | .low => "low"
    | .medium => "medium"
    | .high => "high"
  members := [.low, .medium, .high]
  mem_members e := by cases e <;> simp
  nodup_values := by simp

instance : Enumeration RestoreExpectation where
  value
    | .mustBeOneClick => "must_be_one_click"
    | .guidedIsOk => "guided_is_ok"
    | .researchOk => "research_ok"
  members := [.mustBeOneClick, .guidedIsOk, .researchOk]
  mem_members e := by cases e <;> simp
  nodup_values := by simp

instance : Enumeration UseCaseCategory where
  value
    | .accessibility => "accessibility_focused_phone"
    | .kidSafe => "kid_safe_communication_device"
    | .media => "media_device"
    | .offlineUtility => "offline_utility_tool"
    | .homeControl => "home_control_panel"
    | .lightweightAndroid => "lightweight_custom_android"
    | .experimental => "experimental_hybrid_path"
    | .kiosk => "special_purpose_terminal"
  members :=
    [.accessibility, .kidSafe, .media, .offlineUtility, .homeControl, .lightweightAndroid,
      .experimental, .kiosk]
  mem_members e := by cases e <;> simp
  nodup_values := by simp

def stateValue : SessionStateName → String
  | .idle => "IDLE"
  | .deviceAttached => "DEVICE_ATTACHED"
  | .intake => "INTAKE"
  | .accessEnablement => "ACCESS_ENABLEMENT"
  | .discover => "DISCOVER"
  | .deepScan => "DEEP_SCAN"
  | .assess => "ASSESS"
  | .profileSynthesis => "PROFILE_SYNTHESIS"
  | .matchMaster => "MATCH_MASTER"
  | .recommend => "RECOMMEND"
  | .backupPlan => "BACKUP_PLAN"
  | .backupReady => "BACKUP_READY"
  | .unlockPrep => "UNLOCK_PREP"
  | .unlock => "UNLOCK"
  | .baselineCapture => "BASELINE_CAPTURE"
  | .pathSelect => "PATH_SELECT"
  | .blockerClassify => "BLOCKER_CLASSIFY"
  | .remediationDecide => "REMEDIATION_DECIDE"
  | .taskCreate => "TASK_CREATE"
  | .codegenTask => "CODEGEN_TASK"
  | .codegenWrite => "CODEGEN_WRITE"
  | .patchApply => "PATCH_APPLY"
  | .executeStep => "EXECUTE_STEP"
  | .executeArtifact => "EXECUTE_ARTIFACT"
  | .inspectResult => "INSPECT_RESULT"
  | .connectivityValidate => "CONNECTIVITY_VALIDATE"
  | .securityValidate => "SECURITY_VALIDATE"
  | .buildGeneric => "BUILD_GENERIC"
  | .buildDevice => "BUILD_DEVICE"
  | .previewBuild => "PREVIEW_BUILD"
  | .previewReview => "PREVIEW_REVIEW"
  | .interactiveVerify => "INTERACTIVE_VERIFY"
  | .signImages => "SIGN_IMAGES"
  | .flashPrep => "FLASH_PREP"
  | .installApproval => "INSTALL_APPROVAL"
  | .flash => "FLASH"
  | .bootstrapDevice => "BOOTSTRAP_DEVICE"
  | .bringup => "BRINGUP"
  | .harden => "HARDEN"
  | .validate => "VALIDATE"
  | .postInstallVerify => "POST_INSTALL_VERIFY"
  | .complete => "COMPLETE"
  | .iterate => "ITERATE"
  | .questionGate => "QUESTION_GATE"
  | .promote => "PROMOTE"
  | .restore => "RESTORE"
  | .blocked => "BLOCKED"

instance : Enumeration SessionStateName where
  value := stateValue
  members := SessionStateName.all
  mem_members := SessionStateName.mem_all
  nodup_values := by decide

/-! ### Writing -/

/-- What `_serialize` makes of a value, by its type. -/
class Serialize (α : Type) where
  serialize : α → Json

export Serialize (serialize)

instance {μ : Type} [Enumeration μ] : Serialize (Value μ) := ⟨Value.serialize⟩
instance {ε : Type} [Enumeration ε] : Serialize ε := ⟨fun e => .str (value e)⟩
instance : Serialize Bool := ⟨.bool⟩
instance : Serialize ℤ := ⟨.int⟩
instance : Serialize ℚ := ⟨.float⟩

instance {α : Type} [Serialize α] : Serialize (Option α) where
  serialize
    | some a => serialize a
    | none => .none

instance {α : Type} [Serialize α] : Serialize (List α) := ⟨fun l => .list (l.map serialize)⟩

/-! ### Reading -/

/-- What a reader takes from Python: how `float` and `int` read a text, and what `utc_now` returns
when it is called the `n`-th time. -/
structure Reader where
  parseFloat : String → Option ℚ
  parseInt : String → Option ℤ
  utcNow : ℕ → String

open Value (item iterate len toMember toFloat toInt)

/-- The fields of a dictionary that was read from a file. -/
abbrev Fields := List (String × Json)

/-- `data[k]` -/
def required (data : Fields) (k : String) : Except Error Json := item (.dict data) k

/-- `data.get(k, default)`, as an argument of an enumeration that has a default. -/
def memberOr {ε : Type} [Enumeration ε] (data : Fields) (k : String) (default : ε) :
    Except Error ε :=
  toMember ε (Value.getD data k (.str (value default)))

/-! ### Device profiles -/

/-- A device profile whose transport is a `τ` and whose unconverted fields are `φ`s. A profile that
was read has a member and JSON values there. -/
structure DeviceProfile (τ φ : Type) where
  sessionId : φ
  canonicalName : φ
  deviceCodename : φ
  fingerprint : φ
  manufacturer : φ
  model : φ
  serial : φ
  androidVersion : φ
  transport : τ
  bootloaderLocked : φ
  verifiedBootState : φ
  formFactor : DeviceFormFactor := .unknown
  formFactorSource : φ
  formFactorConfidence : ℚ := 0
  formFactorOverride : Option DeviceFormFactor := none
  slotInfo : φ
  battery : φ
  rawProbeData : φ

def DeviceProfile.toDict {τ φ : Type} [Serialize τ] [Serialize φ] (p : DeviceProfile τ φ) : Fields :=
  [("session_id", serialize p.sessionId),
   ("canonical_name", serialize p.canonicalName),
   ("device_codename", serialize p.deviceCodename),
   ("fingerprint", serialize p.fingerprint),
   ("manufacturer", serialize p.manufacturer),
   ("model", serialize p.model),
   ("serial", serialize p.serial),
   ("android_version", serialize p.androidVersion),
   ("transport", serialize p.transport),
   ("bootloader_locked", serialize p.bootloaderLocked),
   ("verified_boot_state", serialize p.verifiedBootState),
   ("form_factor", serialize p.formFactor),
   ("form_factor_source", serialize p.formFactorSource),
   ("form_factor_confidence", serialize p.formFactorConfidence),
   ("form_factor_override", serialize p.formFactorOverride),
   ("slot_info", serialize p.slotInfo),
   ("battery", serialize p.battery),
   ("raw_probe_data", serialize p.rawProbeData)]

/-- `DeviceFormFactor(override) if override else None` -/
def readOverride (v : Json) : Except Error (Option DeviceFormFactor) :=
  if v.truthy then some <$> toMember DeviceFormFactor v else .ok none

def deviceProfileFromDict (r : Reader) (data : Fields) :
    Except Error (DeviceProfile Transport Json) := do
  let override := Value.get data "form_factor_override"
  let sessionId ← required data "session_id"
  let canonicalName ← required data "canonical_name"
  let deviceCodename ← required data "device_codename"
  let fingerprint ← required data "fingerprint"
  let transport ← memberOr data "transport" Transport.unknown
  let formFactor ← memberOr data "form_factor" DeviceFormFactor.unknown
  let formFactorConfidence ←
    toFloat r.parseFloat (Value.getD data "form_factor_confidence" (.float 0))
  let formFactorOverride ← readOverride override
  return {
    sessionId, canonicalName, deviceCodename, fingerprint
    manufacturer := Value.get data "manufacturer"
    model := Value.get data "model"
    serial := Value.get data "serial"
    androidVersion := Value.get data "android_version"
    transport
    bootloaderLocked := Value.get data "bootloader_locked"
    verifiedBootState := Value.get data "verified_boot_state"
    formFactor
    formFactorSource := Value.getD data "form_factor_source" (.str "insufficient_evidence")
    formFactorConfidence, formFactorOverride
    slotInfo := Value.get data "slot_info"
    battery := Value.get data "battery"
    rawProbeData := Value.getD data "raw_probe_data" (.dict []) }

/-! ### Session states -/

structure TransitionRecord where
  fromState : SessionStateName
  toState : SessionStateName
  reason : Json
  timestamp : Json

def TransitionRecord.toDict (t : TransitionRecord) : Fields :=
  [("from_state", serialize t.fromState),
   ("to_state", serialize t.toState),
   ("reason", serialize t.reason),
   ("timestamp", serialize t.timestamp)]

instance : Serialize TransitionRecord := ⟨fun t => .dict t.toDict⟩

def readTransition (v : Json) : Except Error TransitionRecord := do
  let fromState ← toMember SessionStateName (← item v "from_state")
  let toState ← toMember SessionStateName (← item v "to_state")
  let reason ← item v "reason"
  let timestamp ← item v "timestamp"
  return { fromState, toState, reason, timestamp }

/-- The loop over the history. -/
def readHistory (v : Json) : Except Error (List TransitionRecord) := do
  (← iterate v).mapM readTransition

structure SessionState where
  sessionId : Json
  state : SessionStateName := .idle
  history : List TransitionRecord := []
  priorityOrder : Json :=
    .list [.str "safety_reversibility", .str "security", .str "connectivity",
      .str "core_operability", .str "functionality_expansion"]
  destructiveActionsApproved : Json := .bool false
  selectedStrategy : Json := .none
  supportStatus : SupportStatus := .researchOnly
  currentBlockerType : Json := .none
  blockerConfidence : ℚ := 0
  remediationIteration : ℤ := 0
  iterateCount : ℤ := 0
  createdAt : Json
  updatedAt : Json
  notes : Json := .list []

def SessionState.toDict (s : SessionState) : Fields :=
  [("session_id", serialize s.sessionId),
   ("state", serialize s.state),
   ("history", serialize s.history),
   ("priority_order", serialize s.priorityOrder),
   ("destructive_actions_approved", serialize s.destructiveActionsApproved),
   ("selected_strategy", serialize s.selectedStrategy),
   ("support_status", serialize s.supportStatus),
   ("current_blocker_type", serialize s.currentBlockerType),
   ("blocker_confidence", serialize s.blockerConfidence),
   ("remediation_iteration", serialize s.remediationIteration),
   ("iterate_count", serialize s.iterateCount),
   ("created_at", serialize s.createdAt),
   ("updated_at", serialize s.updatedAt),
   ("notes", serialize s.notes)]

def sessionStateFromDict (r : Reader) (data : Fields) : Except Error SessionState := do
  let history ← readHistory (Value.getD data "history" (.list []))
  let sessionId ← required data "session_id"
  let state ← toMember SessionStateName (← required data "state")
  let supportStatus ← memberOr data "support_status" SupportStatus.researchOnly
  let blockerConfidence ← toFloat r.parseFloat (Value.getD data "blocker_confidence" (.float 0))
  let remediationIteration ← toInt r.parseInt (Value.getD data "remediation_iteration" (.int 0))
  let iterateCount ← toInt r.parseInt (Value.getD data "iterate_count" (.int 0))
  return {
    sessionId, state, history
    priorityOrder := Value.getD data "priority_order" (.list [])
    destructiveActionsApproved := Value.getD data "destructive_actions_approved" (.bool false)
    selectedStrategy := Value.get data "selected_strategy"
    supportStatus
    currentBlockerType := Value.get data "current_blocker_type"
    blockerConfidence, remediationIteration, iterateCount
    createdAt := Value.getD data "created_at" (.str (r.utcNow 0))
    updatedAt := Value.getD data "updated_at" (.str (r.utcNow 1))
    notes := Value.getD data "notes" (.list []) }

/-! ### The operator's choices -/

structure UserProfile where
  sessionId : Json
  persona : UserPersona := .daily
  technicalComfort : TechnicalComfort := .low
  primaryPriority : PriorityFocus := .security
  googleServicesPreference : GoogleServicesPreference := .keep
  autonomyLimit : AutonomyLimit := .conservative
  riskTolerance : RiskTolerance := .low
  restoreExpectation : RestoreExpectation := .mustBeOneClick
  targetUseCase : UseCaseCategory := .lightweightAndroid
  intendedUser : Json := .str ""
  desiredEndProduct : Json := .str ""
  successCriteria : Json := .str ""
  lawfulUseAttested : Bool := false
  notes : Json := .str ""
  updatedAt : Json

def UserProfile.toDict (p : UserProfile) : Fields :=
  [("session_id", serialize p.sessionId),
   ("persona", serialize p.persona),
   ("technical_comfort", serialize p.technicalComfort),
   ("primary_priority", serialize p.primaryPriority),
   ("google_services_preference", serialize p.googleServicesPreference),
   ("autonomy_limit", serialize p.autonomyLimit),
   ("risk_tolerance", serialize p.riskTolerance),
   ("restore_expectation", serialize p.restoreExpectation),
   ("target_use_case", serialize p.targetUseCase),
   ("intended_user", serialize p.intendedUser),
   ("desired_end_product", serialize p.desiredEndProduct),
   ("success_criteria", serialize p.successCriteria),
   ("lawful_use_attested", serialize p.lawfulUseAttested),
   ("notes", serialize p.notes),
   ("updated_at", serialize p.updatedAt)]

def userProfileFromDict (r : Reader) (data : Fields) : Except Error UserProfile := do
  let sessionId ← required data "session_id"
  let persona ← memberOr data "persona" UserPersona.daily
  let technicalComfort ← memberOr data "technical_comfort" TechnicalComfort.low
  let primaryPriority ← memberOr data "primary_priority" PriorityFocus.security
  let googleServicesPreference ←
    memberOr data "google_services_preference" GoogleServicesPreference.keep
  let autonomyLimit ← memberOr data "autonomy_limit" AutonomyLimit.conservative
  let riskTolerance ← memberOr data "risk_tolerance" RiskTolerance.low
  let restoreExpectation ← memberOr data "restore_expectation" RestoreExpectation.mustBeOneClick
  let targetUseCase ← memberOr data "target_use_case" UseCaseCategory.lightweightAndroid
  return {
    sessionId, persona, technicalComfort, primaryPriority, googleServicesPreference, autonomyLimit
    riskTolerance, restoreExpectation, targetUseCase
    intendedUser := Value.getD data "intended_user" (.str "")
    desiredEndProduct := Value.getD data "desired_end_product" (.str "")
    successCriteria := Value.getD data "success_criteria" (.str "")
    lawfulUseAttested := (Value.getD data "lawful_use_attested" (.bool false)).truthy
    notes := Value.getD data "notes" (.str "")
    updatedAt := Value.getD data "updated_at" (.str (r.utcNow 0)) }

structure OSGoals where
  sessionId : Json
  topGoal : PriorityFocus := .security
  secondaryGoal : PriorityFocus := .simplicity
  requiresReliableUpdates : Json := .bool true
  prefersLongBatteryLife : Json := .bool true
  prefersLockdownDefaults : Json := .bool true
  updatedAt : Json

def OSGoals.toDict (g : OSGoals) : Fields :=
  [("session_id", serialize g.sessionId),
   ("top_goal", serialize g.topGoal),
   ("secondary_goal", serialize g.secondaryGoal),
   ("requires_reliable_updates", serialize g.requiresReliableUpdates),
   ("prefers_long_battery_life", serialize g.prefersLongBatteryLife),
   ("prefers_lockdown_defaults", serialize g.prefersLockdownDefaults),
   ("updated_at", serialize g.updatedAt)]

def osGoalsFromDict (r : Reader) (data : Fields) : Except Error OSGoals := do
  let sessionId ← required data "session_id"
  let topGoal ← memberOr data "top_goal" PriorityFocus.security
  let secondaryGoal ← memberOr data "secondary_goal" PriorityFocus.simplicity
  return {
    sessionId, topGoal, secondaryGoal
    requiresReliableUpdates := Value.getD data "requires_reliable_updates" (.bool true)
    prefersLongBatteryLife := Value.getD data "prefers_long_battery_life" (.bool true)
    prefersLockdownDefaults := Value.getD data "prefers_lockdown_defaults" (.bool true)
    updatedAt := Value.getD data "updated_at" (.str (r.utcNow 0)) }

structure DestructiveApproval where
  sessionId : Json
  approved : Json := .bool false
  approvalScope : Json := .str "none"
  confirmationPhrase : Json := .str ""
  approvedBy : Json := .str "local_operator"
  consequencesAcknowledged : Json := .bool false
  restorePathConfirmed : Json := .bool false
  notes : Json := .str ""
  approvedAt : Json := .none
  updatedAt : Json

def DestructiveApproval.toDict (a : DestructiveApproval) : Fields :=
  [("session_id", serialize a.sessionId),
   ("approved", serialize a.approved),
   ("approval_scope", serialize a.approvalScope),
   ("confirmation_phrase", serialize a.confirmationPhrase),
   ("approved_by", serialize a.approvedBy),
   ("consequences_acknowledged", serialize a.consequencesAcknowledged),
   ("restore_path_confirmed", serialize a.restorePathConfirmed),
   ("notes", serialize a.notes),
   ("approved_at", serialize a.approvedAt),
   ("updated_at", serialize a.updatedAt)]

def destructiveApprovalFromDict (r : Reader) (data : Fields) : Except Error DestructiveApproval := do
  let sessionId ← required data "session_id"
  return {
    sessionId
    approved := Value.getD data "approved" (.bool false)
    approvalScope := Value.getD data "approval_scope" (.str "none")
    confirmationPhrase := Value.getD data "confirmation_phrase" (.str "")
    approvedBy := Value.getD data "approved_by" (.str "local_operator")
    consequencesAcknowledged := Value.getD data "consequences_acknowledged" (.bool false)
    restorePathConfirmed := Value.getD data "restore_path_confirmed" (.bool false)
    notes := Value.getD data "notes" (.str "")
    approvedAt := Value.get data "approved_at"
    updatedAt := Value.getD data "updated_at" (.str (r.utcNow 0)) }

/-! ### Flash plans -/

/-- A JSON value that has a length. -/
structure Sized where
  val : Json
  size : ℕ
  len_val : len val = .ok size

instance : Serialize Sized := ⟨Sized.val⟩

/-- A value as one whose length was taken. -/
def toSized (v : Json) : Except Error Sized :=
  match h : len v with
  | .ok size => .ok ⟨v, size, h⟩
  | .error e => .error e

/-- The length of the steps is taken whenever a plan is read. -/
structure FlashPlan where
  sessionId : Json
  buildPath : Json
  dryRun : Json := .bool true
  requiresUnlock : Json := .bool false
  requiresWipe : Json := .bool true
  restorePathAvailable : Json := .bool false
  artifactsReady : Json := .bool false
  installMode : Json := .str "unavailable"
  artifactManifestPath : Json := .str ""
  artifactBundlePath : Json := .str ""
  transport : Json := .str (value Transport.unknown)
  stepCount : Json := .int 0
  steps : Sized := ⟨.list [], 0, rfl⟩
  artifactHints : Json := .list []
  status : Json := .str "planned"
  summary : Json := .str ""
  generatedAt : Json
  updatedAt : Json

def FlashPlan.toDict (p : FlashPlan) : Fields :=
  [("session_id", serialize p.sessionId),
   ("build_path", serialize p.buildPath),
   ("dry_run", serialize p.dryRun),
   ("requires_unlock", serialize p.requiresUnlock),
   ("requires_wipe", serialize p.requiresWipe),
   ("restore_path_available", serialize p.restorePathAvailable),
   ("artifacts_ready", serialize p.artifactsReady),
   ("install_mode", serialize p.installMode),
   ("artifact_manifest_path", serialize p.artifactManifestPath),
   ("artifact_bundle_path", serialize p.artifactBundlePath),
   ("transport", serialize p.transport),
   ("step_count", serialize p.stepCount),
   ("steps", serialize p.steps),
   ("artifact_hints", serialize p.artifactHints),
   ("status", serialize p.status),
   ("summary", serialize p.summary),
   ("generated_at", serialize p.generatedAt),
   ("updated_at", serialize p.updatedAt)]

def flashPlanFromDict (r : Reader) (data : Fields) : Except Error FlashPlan := do
  let sessionId ← required data "session_id"
  let steps ← toSized (Value.getD data "steps" (.list []))
  return {
    sessionId
    buildPath := Value.getD data "build_path" (.str "unknown")
    dryRun := Value.getD data "dry_run" (.bool true)
    requiresUnlock := Value.getD data "requires_unlock" (.bool false)
    requiresWipe := Value.getD data "requires_wipe" (.bool true)
    restorePathAvailable := Value.getD data "restore_path_available" (.bool false)
    artifactsReady := Value.getD data "artifacts_ready" (.bool false)
    installMode := Value.getD data "install_mode" (.str "unavailable")
    artifactManifestPath := Value.getD data "artifact_manifest_path" (.str "")
    artifactBundlePath := Value.getD data "artifact_bundle_path" (.str "")
    transport := Value.getD data "transport" (.str (value Transport.unknown))
    stepCount := Value.getD data "step_count" (.int steps.size)
    steps
    artifactHints := Value.getD data "artifact_hints" (.list [])
    status := Value.getD data "status" (.str "planned")
    summary := Value.getD data "summary" (.str "")
    generatedAt := Value.getD data "generated_at" (.str (r.utcNow 0))
    updatedAt := Value.getD data "updated_at" (.str (r.utcNow 1)) }

/-! ### Round trips -/

@[simp] theorem serialize_json (v : Json) : (serialize v : Json) = v := Value.serialize_json v

@[simp] theorem serialize_member {ε : Type} [Enumeration ε] (e : ε) :
    (serialize e : Json) = .str (value e) := rfl

@[simp] theorem serialize_bool (b : Bool) : serialize b = .bool b := rfl

@[simp] theorem serialize_int (n : ℤ) : serialize n = .int n := rfl

@[simp] theorem serialize_float (x : ℚ) : serialize x = .float x := rfl

/-- The next field is looked up, or one after it. -/
theorem getD_cons (k' : String) (v : Json) (data : Fields) (k : String) (default : Json) :
    Value.getD ((k', v) :: data) k default = if k = k' then v else Value.getD data k default := by
  rw [Value.getD, dictGet_cons]
  split_ifs
  · rfl
  · rfl

theorem required_cons (k' : String) (v : Json) (data : Fields) (k : String) :
    required ((k', v) :: data) k = if k = k' then .ok v else required data k := by
  simp only [required, item, dictGet_cons]
  split_ifs
  · rfl
  · rfl

/-- No text of a form factor is empty, so an override that was written is read. -/
@[simp] theorem readOverride_serialize (o : Option DeviceFormFactor) :
    readOverride (serialize o) = .ok o := by
  cases o with
  | none => rfl
  | some e =>
    have htruthy : (serialize (some e)).truthy = true := by
      cases e <;> simp [Value.truthy, serialize, value]
    rw [readOverride, if_pos htruthy]
    exact congrArg (some <$> ·) (Value.toMember_value e)

theorem deviceProfileFromDict_toDict (r : Reader) (p : DeviceProfile Transport Json) :
    deviceProfileFromDict r p.toDict = .ok p := by
  simp [deviceProfileFromDict, DeviceProfile.toDict, memberOr, getD_cons, required_cons, toFloat]

@[simp] theorem item_dict (data : Fields) (k : String) : item (.dict data) k = required data k := rfl

theorem readTransition_serialize (t : TransitionRecord) : readTransition (serialize t) = .ok t := by
  have h : (serialize t : Json) = .dict t.toDict := rfl
  simp [h, readTransition, TransitionRecord.toDict, required_cons]

/-- Records that are written one by one are read one by one. -/
theorem mapM_readTransition (l : List TransitionRecord) :
    (l.map serialize).mapM readTransition = .ok l := by
  induction l with
  | nil => rfl
  | cons t l ih =>
    rw [List.map_cons, List.mapM_cons, readTransition_serialize, ih]
    rfl

@[simp] theorem readHistory_serialize (l : List TransitionRecord) :
    readHistory (serialize l) = .ok l := mapM_readTransition l

theorem sessionStateFromDict_toDict (r : Reader) (s : SessionState) :
    sessionStateFromDict r s.toDict = .ok s := by
  simp [sessionStateFromDict, SessionState.toDict, memberOr, getD_cons, required_cons, toFloat,
    toInt]

theorem userProfileFromDict_toDict (r : Reader) (p : UserProfile) :
    userProfileFromDict r p.toDict = .ok p := by
  simp [userProfileFromDict, UserProfile.toDict, memberOr, getD_cons, required_cons, Value.truthy]

theorem osGoalsFromDict_toDict (r : Reader) (g : OSGoals) :
    osGoalsFromDict r g.toDict = .ok g := by
  simp [osGoalsFromDict, OSGoals.toDict, memberOr, getD_cons, required_cons]

theorem destructiveApprovalFromDict_toDict (r : Reader) (a : DestructiveApproval) :
    destructiveApprovalFromDict r a.toDict = .ok a := by
  simp [destructiveApprovalFromDict, DestructiveApproval.toDict, getD_cons, required_cons]

theorem toSized_serialize (s : Sized) : toSized (serialize s) = .ok s := by
  unfold toSized
  split
  · rename_i size h
    have hsize : s.size = size := Except.ok.inj (s.len_val.symm.trans h)
    cases s
    cases hsize
    rfl
  · rename_i e h
    cases s.len_val.symm.trans h

theorem flashPlanFromDict_toDict (r : Reader) (p : FlashPlan) :
    flashPlanFromDict r p.toDict = .ok p := by
  simp [flashPlanFromDict, FlashPlan.toDict, getD_cons, required_cons, toSized_serialize]

end ForgeOS.Session.Records
