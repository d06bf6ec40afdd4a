import ForgeOS.Python.Text
import ForgeOS.Session.Records

/-! Whether a device is a phone or a tablet: what the operator chose, else what the evidence says
outright, also in the event or the hardware snapshot nested in it, else its model, else any text in
it. The evidence is the profile without what was inferred before, overridden by the probe. -/

namespace ForgeOS.Session.Records

open ForgeOS.Python ForgeOS.Library.Enumerations

/-- What the source takes from Python's library: the mappings of case, `str` of a value that is not a
text, the characters of words, and a digest in hexadecimal digits. -/
structure Builtins where
  lower : String → String
  upper : String → String
  str : Value Transport → String
  isWord : Char → Bool
  digest : String → String

variable (py : Builtins)

/-- `str(v)` -/
def Builtins.text : Value Transport → String
  | .str s => s
  | v => py.str v

/-- `str(v or "")` -/
def Builtins.textOr (v : Value Transport) : String := if v.truthy then py.text v else ""

/-- A profile as the program holds it. A transport that the probe lacks is missing here too. -/
abbrev LiveProfile := DeviceProfile (Option Transport) (Value Transport)

structure Inference where
  formFactor : DeviceFormFactor
  source : String
  confidence : ℚ
  deriving DecidableEq, Repr

/-! ### Explicit statements -/

/-- The first of the keys whose text names a form factor. -/
def explicitIn (payload : List (String × Value Transport)) : List String → Option Inference
  | [] => none
  | key :: keys =>
    match Value.get payload key with
    | .none => explicitIn payload keys
    | raw =>
      let text := py.lower (strip (py.text raw))
      if contains text "tablet" then some ⟨.tablet, key, 95 / 100⟩
      else if contains text "phone" then some ⟨.phone, key, 95 / 100⟩
      else explicitIn payload keys

mutual

/-- `_explicit_form_factor` on a value that may be a dictionary. -/
def explicitFormFactor : Value Transport → Option Inference
  | .dict payload =>
    ((explicitIn py payload
        ["form_factor", "device_form_factor", "ro.build.characteristics", "characteristics"]).or
      (explicitNested "raw_event" payload)).or (explicitNested "hardware_snapshot" payload)
  | _ => none

/-- `_explicit_form_factor` on the value of a key. -/
def explicitNested (key : String) : List (String × Value Transport) → Option Inference
  | [] => none
  | (k, v) :: payload => if k = key then explicitFormFactor v else explicitNested key payload

end

/-! ### The text of the evidence -/

mutual

def flattenValue : Value Transport → List String
  | .none => []
  | .member t => [value t]
  | .dict fields => flattenFields fields
  | .list items => flattenItems items
  | v => [py.text v]

def flattenItems : List (Value Transport) → List String
  | [] => []
  | v :: items => flattenValue v ++ flattenItems items

def flattenFields : List (String × Value Transport) → List String
  | [] => []
  | (k, v) :: fields => k :: flattenValue v ++ flattenFields fields

end

/-- `_flatten_text` -/
def flattenText (payload : List (String × Value Transport)) : String :=
  py.lower (" ".intercalate (flattenFields py payload))

def isDigit (c : Char) : Bool := '0' ≤ c && c ≤ '9'

/-- One of the names, directly followed by a digit, begins the text. -/
def galaxyAt (cs : List Char) : Bool :=
  ["galaxy s", "galaxy a", "galaxy note"].any fun p =>
    p.toList.isPrefixOf cs && (cs.drop p.toList.length).head?.any isDigit

/-- `re.search(r"\bgalaxy (s|a|note)[0-9]", …)`, after a character of a word or not. -/
def galaxyName : Bool → List Char → Bool
  | _, [] => false
  | inWord, c :: cs => (!inWord && galaxyAt (c :: cs)) || galaxyName (py.isWord c) cs

def tabletTerms : List String :=
  ["tablet", "galaxy tab", "pixel tablet", "nexus 7", "nexus 10", "kindle fire", "lenovo tb",
    "mediapad", "xoom", "surface duo"]

def phoneTerms : List String := ["phone", "pixel ", "moto g", "oneplus", "iphone"]

def inferDeviceFormFactor (payload : List (String × Value Transport)) : Inference :=
  match explicitFormFactor py (.dict payload) with
  | some explicit => explicit
  | none =>
    let haystack := flattenText py payload
    let model := strip (py.textOr (Value.get payload "model"))
    let modelUpper := String.ofList ((py.upper model).toList.filter fun c => c != ' ')
    let codename := py.lower (py.textOr (Value.get payload "device_codename"))
    if ["SM-T", "GT-P", "SCH-I800", "SGH-I497"].any (startsWith modelUpper ·) then
      ⟨.tablet, "model_prefix", 92 / 100⟩
    else if ["SM-A", "SM-G", "SM-N", "SM-S", "GT-I", "SGH-I", "SAMSUNG-SM-G"].any
        (startsWith modelUpper ·) then ⟨.phone, "model_prefix", 86 / 100⟩
    else if galaxyName py false (py.lower model).toList then ⟨.phone, "model_name", 82 / 100⟩
    else if tabletTerms.any (contains haystack ·) || startsWith codename "gta" then
      ⟨.tablet, "device_text", 8 / 10⟩
    else if phoneTerms.any (contains haystack ·) then ⟨.phone, "device_text", 75 / 100⟩
    else ⟨.unknown, "insufficient_evidence", 0⟩

/-- `asdict(profile)` without what was inferred before. -/
def LiveProfile.evidence (p : LiveProfile) : List (String × Value Transport) :=
  [("session_id", p.sessionId),
   ("canonical_name", p.canonicalName),
   ("device_codename", p.deviceCodename),
   ("fingerprint", p.fingerprint),
   ("manufacturer", p.manufacturer),
   ("model", p.model),
   ("serial", p.serial),
   ("android_version", p.androidVersion),
   ("transport", p.transport.elim .none .member),
   ("bootloader_locked", p.bootloaderLocked),
   ("verified_boot_state", p.verifiedBootState),
   ("slot_info", p.slotInfo),
   ("battery", p.battery),
   ("raw_probe_data", p.rawProbeData)]

def applyFormFactorInference (p : LiveProfile) (probe : List (String × Value Transport)) :
    LiveProfile :=
  let infer : LiveProfile :=
    let i := inferDeviceFormFactor py (dictUpdate (LiveProfile.evidence p) probe)
    { p with
      formFactor := i.formFactor
      formFactorSource := .str i.source
      formFactorConfidence := i.confidence }
  match p.formFactorOverride with
  | none | some .unknown => infer
  | some override =>
    { p with
      formFactor := override
      formFactorSource := .str "operator_override"
      formFactorConfidence := 1 }

/-- What the operator chose is what the profile says, whatever the evidence. -/
theorem formFactor_of_override {p : LiveProfile} {f : DeviceFormFactor}
    (h : p.formFactorOverride = some f) (hf : f ≠ .unknown)
    (probe : List (String × Value Transport)) :
    (applyFormFactorInference py p probe).formFactor = f := by
  unfold applyFormFactorInference
  split
  · cases h.symm.trans ‹_›
  · exact absurd (Option.some.inj (h.symm.trans ‹_›)) hf
  · exact (Option.some.inj (h.symm.trans ‹_›)).symm

/-- The inference changes what was inferred before and nothing else. -/
theorem applyFormFactorInference_eq (p : LiveProfile) (probe : List (String × Value Transport)) :
    ∃ formFactor source confidence, applyFormFactorInference py p probe =
      { p with
        formFactor := formFactor
        formFactorSource := .str source
        formFactorConfidence := confidence } := by
  unfold applyFormFactorInference
  split
  · exact ⟨_, _, _, rfl⟩
  · exact ⟨_, _, _, rfl⟩
  · exact ⟨_, _, _, rfl⟩

theorem explicitIn_known {payload : List (String × Value Transport)} {keys : List String}
    {i : Inference} (h : explicitIn py payload keys = some i) : i.formFactor ≠ .unknown := by
  induction keys with
  | nil => cases h
  | cons key keys ih =>
    rw [explicitIn] at h
    split at h
    · exact ih h
    · dsimp only at h
      split_ifs at h
      · cases h
        simp
      · cases h
        simp
      · exact ih h

mutual

theorem explicitFormFactor_known {i : Inference} :
    (v : Value Transport) → explicitFormFactor py v = some i → i.formFactor ≠ .unknown
  | .dict payload, h => by
    rw [explicitFormFactor] at h
    rcases Option.or_eq_some_iff.mp h with h | ⟨-, h⟩
    · rcases Option.or_eq_some_iff.mp h with h | ⟨-, h⟩
      · exact explicitIn_known py h
      · exact explicitNested_known "raw_event" payload h
    · exact explicitNested_known "hardware_snapshot" payload h
  | .none, h | .bool _, h | .int _, h | .float _, h | .str _, h | .member _, h | .list _, h => by
    cases h

theorem explicitNested_known {i : Inference} (key : String) :
    (payload : List (String × Value Transport)) → explicitNested py key payload = some i →
      i.formFactor ≠ .unknown
  | [], h => by cases h
  | (k, v) :: payload, h => by
    rw [explicitNested] at h
    split_ifs at h
    · exact explicitFormFactor_known v h
    · exact explicitNested_known key payload h

end

/-- The form factor stays open exactly when nothing in the evidence speaks for one. -/
theorem inferDeviceFormFactor_unknown_iff (payload : List (String × Value Transport)) :
    (inferDeviceFormFactor py payload).formFactor = .unknown ↔
      inferDeviceFormFactor py payload = ⟨.unknown, "insufficient_evidence", 0⟩ := by
  refine ⟨fun h => ?_, fun h => by rw [h]⟩
  unfold inferDeviceFormFactor at h ⊢
  split at h
  · exact absurd h (explicitFormFactor_known py _ ‹_›)
  · dsimp only at h ⊢
    split_ifs at h ⊢
    · rfl

end ForgeOS.Session.Records
