import ForgeOS.Models
import ForgeOS.Python.Dict
import ForgeOS.Python.Text

/-! `BuildResolverTool.run`: from the assessment, the selected strategy and the
user's answers to a build path, a proposed system and a list of features. The
path decides later whether an install is planned at all; the features only shape
texts and hints. `title` stands for `str.title`. -/

namespace ForgeOS.Flash

open ForgeOS.Python

/-- The answers of the user profile that shape a build. -/
structure BuildProfile where
  lawfulUseAttested : Bool := false
  googleServicesPreference : String := "keep_google"
  desiredEndProduct : String := ""
  targetUseCase : String := ""
  deriving DecidableEq, Repr

structure BuildGoals where
  requiresReliableUpdates : Bool := true
  prefersLockdownDefaults : Bool := true
  prefersLongBatteryLife : Bool := true
  deriving DecidableEq, Repr

structure OptionChoice where
  optionId : String
  label : Option String := none
  deriving DecidableEq, Repr

structure Recommendation where
  recommendedUseCase : String := ""
  options : List OptionChoice := []
  deriving DecidableEq, Repr

structure OperatorReview where
  selectedOptionId : String := ""
  acceptedFeatureIds : List String := []
  rejectedFeatureIds : List String := []
  deriving DecidableEq, Repr

/-- What the resolver is asked. `supportStatus` is `none` where the assessment has no such key. -/
structure BuildRequest where
  supportStatus : Option String
  selectedStrategy : String := "research_only"
  userProfile : BuildProfile := {}
  osGoals : BuildGoals := {}
  recommendation : Recommendation := {}
  operatorReview : OperatorReview := {}
  deriving DecidableEq, Repr

structure Feature where
  id : String
  label : String
  deriving DecidableEq, Repr

structure ResolvedBuild where
  osPath : String
  reason : String
  selectedOptionId : String
  selectedOptionLabel : String
  proposedOsName : String
  includedFeatures : List Feature
  rejectedFeatures : List Feature
  artifactRequirements : List String
  deriving DecidableEq, Repr

def researchOnlyPath : String := "research_only_path"

/-- The build path and the reason for it. -/
def selectPath (r : BuildRequest) : String × String :=
  if !r.userProfile.lawfulUseAttested then
    (researchOnlyPath,
      "ForgeOS can assess and preview, but install planning stays research-only until lawful authorization is attested.")
  else if r.supportStatus = some "blocked" then
    ("blocked_path", "The device is blocked by support or safety constraints.")
  else if r.supportStatus ≠ some "actionable" then
    (researchOnlyPath, "Support feasibility is not proven enough for destructive build flow.")
  else if r.selectedStrategy ∈ ["transport_recovery", "research_only", "blocked_research"] then
    (researchOnlyPath,
      "A manageable transport and support baseline must exist before a build path can be chosen.")
  else if r.selectedStrategy = "hardened_stock" then
    ("hardened_stock_path", "Profile and support evidence favor a stock-derived, maintainable path.")
  else if r.selectedStrategy ∈ ["aftermarket_rom", "privacy_hardened_aftermarket"] then
    ("aftermarket_path",
      "The selected strategy favors an aftermarket or privacy-hardened path where support allows it.")
  else if r.selectedStrategy = "managed_family_build" then
    ("managed_family_path", "The intended user profile favors a constrained, family-oriented build.")
  else if r.selectedStrategy = "device_specific_build" then
    ("device_specific_path",
      "The selected strategy favors device-specific tuning and deeper customization.")
  else
    ("maintainable_hardened_path",
      "Default to the most maintainable hardened path while preserving room for later refinement.")

/-- The first nonempty text, as Python's `or` gives it. -/
def orElse (s t : String) : String := if s ≠ "" then s else t

def selectOptionId (r : BuildRequest) : String :=
  orElse r.operatorReview.selectedOptionId
    (orElse r.recommendation.recommendedUseCase (orElse r.userProfile.targetUseCase "research_hold"))

def labelize (title : String → String) (value : String) : String :=
  title (strip (replaceChar (replaceChar value '_' ' ') '-' ' '))

def optionFeatures : String → List Feature
  | "accessibility_focused_phone" =>
    [⟨"simple_launcher", "Simplified launcher and larger touch targets"⟩,
      ⟨"trusted_contacts", "Trusted-contact shortcuts"⟩,
      ⟨"accessibility_toggles", "Accessibility quick toggles"⟩,
      ⟨"operator_notes", "Pinned operator notes in the setup flow"⟩]
  | "lightweight_custom_android" =>
    [⟨"debloated_apps", "Debloated app set"⟩, ⟨"focused_home", "Focused home screen"⟩,
      ⟨"recovery_entry", "Visible restore and recovery entry point"⟩,
      ⟨"operator_notes", "Pinned operator notes in the setup flow"⟩]
  | "media_device" =>
    [⟨"offline_media", "Offline media playback shell"⟩,
      ⟨"large_controls", "Large playback and volume controls"⟩,
      ⟨"operator_notes", "Pinned operator notes in the setup flow"⟩]
  | "home_control_panel" =>
    [⟨"kiosk_mode", "Single-purpose kiosk shell"⟩, ⟨"control_tiles", "Large control tiles"⟩,
      ⟨"operator_notes", "Pinned operator notes in the setup flow"⟩]
  | _ =>
    [⟨"safe_defaults", "Safe default configuration"⟩,
      ⟨"restore_visibility", "Visible restore and rollback path"⟩]

/-- `_default_feature_catalog`; every feature of it is on by default. -/
def defaultFeatureCatalog (optionId : String) (profile : BuildProfile) (goals : BuildGoals) :
    List Feature :=
  optionFeatures optionId ++
  [if profile.googleServicesPreference = "keep_google" then
    ⟨"google_services", "Keep Google services compatibility"⟩
  else if profile.googleServicesPreference = "reduce_google" then
    ⟨"reduced_google", "Reduce Google services footprint"⟩
  else ⟨"minimize_google", "Remove Google services where feasible"⟩] ++
  (if goals.requiresReliableUpdates then
    [⟨"update_channel", "Preserve a reliable update path"⟩] else []) ++
  (if goals.prefersLockdownDefaults then
    [⟨"lockdown_defaults", "Hardened privacy and lockdown defaults"⟩] else []) ++
  (if goals.prefersLongBatteryLife then
    [⟨"battery_profile", "Battery-preserving runtime tuning"⟩] else []) ++
  (if strip profile.desiredEndProduct ≠ "" then
    [⟨"end_product_brief", "Operator-defined end-product brief"⟩] else [])

def defaultExcludedFeatures (optionId : String) : List Feature :=
  [⟨"wipe_autostart", "Automatic wipe/install start"⟩,
    ⟨"lock_bypass", "Account, carrier, or ownership lock bypass"⟩,
    ⟨"unlicensed_assets", "Unlicensed firmware, apps, or paid content"⟩] ++
  (if optionId = "lightweight_custom_android" then
    [⟨"full_google_bundle", "Full Google bundle"⟩] else [])

/-- The catalog as the dictionary from ids to features that the source builds of it. -/
def featureDict (features : List Feature) : List (String × Feature) :=
  features.foldl (fun d f => dictSet d f.id f) []

/-- `_feature_decisions`: the included and the rejected features. -/
def featureDecisions (optionId : String) (r : BuildRequest) : List Feature × List Feature :=
  let catalog := featureDict (defaultFeatureCatalog optionId r.userProfile r.osGoals)
  let included :=
    if r.operatorReview.acceptedFeatureIds ≠ [] then
      r.operatorReview.acceptedFeatureIds.filterMap (dictGet catalog)
    else catalog.map Prod.snd
  let rejected := r.operatorReview.rejectedFeatureIds.filterMap (dictGet catalog)
  let excluded :=
    (defaultExcludedFeatures optionId).filter fun f => f.id ∉ rejected.map Feature.id
  (included, rejected ++ excluded)

def artifactRequirements (osPath : String) (included rejected : List Feature) : List String :=
  ["build-path:" ++ osPath, "proposal-manifest", "backup-bundle", "restore-plan"] ++
  ((included.map Feature.id).take 6).map ("feature:" ++ ·) ++
  ((rejected.map Feature.id).take 4).map ("reject:" ++ ·) ++
  (if osPath = researchOnlyPath then ["concept-preview-only"] else [])

def proposalOsName (title : String → String) (optionId osPath : String) : String :=
  let optionName := labelize title optionId
  if osPath = researchOnlyPath then
    optionName ++ " concept on a hardened stock Android baseline"
  else if osPath ∈ ["hardened_stock_path", "maintainable_hardened_path"] then
    "Hardened stock Android for " ++ optionName
  else if osPath = "aftermarket_path" then "Aftermarket Android build for " ++ optionName
  else if osPath = "managed_family_path" then "Managed family build for " ++ optionName
  else if osPath = "device_specific_path" then "Device-specific tuned build for " ++ optionName
  else optionName ++ " build on " ++ replaceChar osPath '_' ' '

/-- `BuildResolverTool.run` -/
def resolveBuild (title : String → String) (r : BuildRequest) : ResolvedBuild :=
  let (osPath, reason) := selectPath r
  let optionId := selectOptionId r
  let option := (r.recommendation.options.find? (·.optionId == optionId)).getD
    { optionId, label := some (labelize title optionId) }
  let (included, rejected) := featureDecisions option.optionId r
  { osPath
    -- `selected_option_id` is never empty, so the summary always names it
    reason := reason ++ " ForgeOS is shaping this plan around `" ++ optionId ++ "` with " ++
      toString included.length ++ " included feature decisions and " ++
      toString rejected.length ++ " rejected/default-off items."
    selectedOptionId := optionId
    selectedOptionLabel := option.label.getD (labelize title optionId)
    proposedOsName := proposalOsName title optionId osPath
    includedFeatures := included
    rejectedFeatures := rejected
    artifactRequirements := artifactRequirements osPath included rejected }

theorem resolveBuild_osPath (title : String → String) (r : BuildRequest) :
    (resolveBuild title r).osPath = (selectPath r).1 := rfl

/-- An actionable device stays on the research path exactly when lawful use is
not attested or no strategy with a managed transport was selected. -/
theorem osPath_research_iff (title : String → String) {r : BuildRequest}
    (hactionable : r.supportStatus = some "actionable") :
    (resolveBuild title r).osPath = researchOnlyPath ↔
      r.userProfile.lawfulUseAttested = false ∨
      r.selectedStrategy ∈ ["transport_recovery", "research_only", "blocked_research"] := by
  rw [resolveBuild_osPath, selectPath]
  cases r.userProfile.lawfulUseAttested with
  | false => simp
  | true =>
    rw [hactionable]
    simp only [Bool.not_true, Bool.false_eq_true, if_false, Bool.true_eq_false, false_or]
    split_ifs <;> simp_all [researchOnlyPath]

end ForgeOS.Flash
