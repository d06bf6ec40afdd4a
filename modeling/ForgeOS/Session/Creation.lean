import ForgeOS.Session.FormFactor
import ForgeOS.Session.Identity

/-! `create_or_resume` on the files themselves. The session that an event belongs to is read, changed
and written, or a new one is written; an event whose values the code cannot work with is refused.
What a refused call leaves behind is left out. Every file of a new session can be read, with one
exception: a probe without a transport is taken for a device of unknown transport when the session is
named, but written into the profile as no transport at all, which no transport can be read from. -/

namespace ForgeOS.Session.Records

open ForgeOS.Python ForgeOS.Library.Enumerations

/-- The probe of a device, as a dictionary. -/
abbrev Probe := List (String × Value Transport)

/-- A session directory with the JSON values in its files, as far as they exist. -/
structure StoredSession where
  name : String
  profile : Option Json := none
  state : Option Json := none
  userProfile : Option Json := none
  osGoals : Option Json := none
  approval : Option Json := none

/-! ### Reading a session -/

section Reading

variable (r : Reader)

/-- A file, once it is parsed, in the hands of the reader of its records. -/
def loadFile {α : Type} (fromDict : Fields → Except Error α) : Option Json → Except Error α
  | none => .error .fileNotFound
  | some (.dict data) => fromDict data
  | some _ => .error .attribute

def loadDeviceProfile (s : StoredSession) : Except Error (DeviceProfile Transport Json) :=
  loadFile (deviceProfileFromDict r) s.profile

def loadSessionState (s : StoredSession) : Except Error SessionState :=
  loadFile (sessionStateFromDict r) s.state

end Reading

/-! ### The hardware snapshot -/

/-- The lines of a text, at the characters that `str.splitlines` splits at. Between a carriage
return and a line feed stands an empty line here. -/
def lines (s : String) : List String :=
  (s.toList.splitOnP fun c =>
    (10 ≤ c.toNat && c.toNat ≤ 13) || (28 ≤ c.toNat && c.toNat ≤ 30) || c.toNat == 0x85 ||
      c.toNat == 0x2028 || c.toNat == 0x2029).map String.ofList

def batteryFields : List (String × String) :=
  [("level:", "level"), ("status:", "status"), ("health:", "health"),
   ("temperature:", "temperature"), ("voltage:", "voltage"), ("AC powered:", "ac_powered"),
   ("USB powered:", "usb_powered")]

section Snapshot

variable (py : Builtins) (r : Reader)

def batteryValue (raw : String) : Value Transport :=
  match r.parseInt raw with
  | some n => .int n
  | none => .bool (["true", "yes", "1"].contains (py.lower raw))

/-- What a line of the dump assigns, one key after the other. -/
def batteryLine (result : Probe) (line : String) : Probe :=
  batteryFields.foldl (fun result kf =>
    if startsWith line kf.1 then
      dictSet result kf.2 (batteryValue py r (strip (sliceFrom line kf.1.toList.length)))
    else result) result

/-- `_parse_battery_dump` -/
def parseBatteryDump (dump : String) : Probe :=
  (lines dump).foldl (fun result line => batteryLine py r result (strip line)) []

/-- Whether the boot loader is locked, as far as the snapshot tells. -/
def snapshotLocked (snapshot : Probe) : Option Bool :=
  let vbs := py.lower (strip (py.textOr (Value.get snapshot "verified_boot_state")))
  if vbs = "green" then some true
  else if vbs = "orange" ∨ vbs = "yellow" ∨ vbs = "red" then some false
  else
    let warranty := strip (py.textOr (Value.get snapshot "warranty_bit"))
    let flashLocked := strip (py.textOr (Value.get snapshot "flash_locked"))
    if warranty = "0" then some true
    else if warranty = "1" then some false
    else if flashLocked = "1" then some true
    else if flashLocked = "0" then some false
    else none

/-- What a snapshot adds to the fields of a profile that are still open. -/
def promoteFields (p : LiveProfile) (snapshot : Probe) : LiveProfile :=
  let vbs := strip (py.textOr (Value.get snapshot "verified_boot_state"))
  let slot := strip (py.textOr (Value.get snapshot "boot_slot"))
  let dump := py.textOr (Value.get snapshot "battery_dump")
  { p with
    bootloaderLocked :=
      match p.bootloaderLocked with
      | .none => ((snapshotLocked py snapshot).map Value.bool).getD .none
      | locked => locked
    verifiedBootState :=
      if !p.verifiedBootState.truthy && vbs != "" then .str vbs else p.verifiedBootState
    slotInfo :=
      if !p.slotInfo.truthy && slot != "" then
        .dict [("active_slot", .str slot), ("a_b_device", .bool true)]
      else p.slotInfo
    battery :=
      if !p.battery.truthy && dump != "" then .dict (parseBatteryDump py r dump) else p.battery }

/-- `_promote_hardware_snapshot`. A snapshot that is no dictionary has no `get`. -/
def promoteHardwareSnapshot (p : LiveProfile) (probe : Probe) : Except Error LiveProfile :=
  let snapshot := Value.get probe "hardware_snapshot"
  if snapshot.truthy then
    match snapshot with
    | .dict snapshot => .ok (promoteFields py r p snapshot)
    | _ => .error .attribute
  else .ok p

end Snapshot

/-! ### The name of a session -/

section Naming

variable (py : Builtins)

/-- A value that is joined with texts, or nothing for one that is not truthy. -/
def joined (v : Value Transport) : Except Error (Option String) :=
  if v.truthy then
    match v with
    | .str s => .ok (some s)
    | .member t => .ok (some (value t))
    | _ => .error .type
  else .ok none

/-- `transport.value`, of the transport that is unknown if the probe has none. -/
def probeTransport (probe : Probe) : Except Error Transport :=
  match Value.getD probe "transport" (.member .unknown) with
  | .member t => .ok t
  | _ => .error .attribute

/-- `build_fingerprint` on the values of a probe. -/
def probeFingerprint (probe : Probe) : Except Error DeviceFingerprint := do
  let transport ← probeTransport probe
  let manufacturer ← joined (Value.get probe "manufacturer")
  let model ← joined (Value.get probe "model")
  let serial ← joined (Value.get probe "serial")
  return buildFingerprint py.digest manufacturer model serial transport

/-- `str(value or "").strip().lower()` -/
def identity (v : Value Transport) : String := py.lower (strip (py.textOr v))

/-- The session in the file is one of the same model, or of the same code name, that was created
from a coarse sighting. -/
def isCandidate (probe : Probe) (data : Fields) : Bool :=
  let old k : Value Transport := Value.lift (Value.get data k)
  let manufacturer := identity py (Value.get probe "manufacturer")
  let model := identity py (Value.get probe "model")
  let codename := identity py (Value.get probe "device_codename")
  ((manufacturer != "" && model != "" && identity py (old "manufacturer") == manufacturer &&
        identity py (old "model") == model) ||
      (codename != "" && identity py (old "device_codename") == codename)) &&
    startsWith (py.textOr (old "serial")) "usb-"

/-- The loop over the profiles there are. -/
def firstCandidate (probe : Probe) : List StoredSession → Except Error (Option StoredSession)
  | [] => .ok none
  | s :: sessions =>
    match s.profile with
    | none => firstCandidate probe sessions
    | some (.dict data) =>
      if isCandidate py probe data then .ok (some s) else firstCandidate probe sessions
    | some _ => .error .attribute

/-- `_find_upgrade_candidate` -/
def findCandidate (sessions : List StoredSession) (probe : Probe) :
    Except Error (Option StoredSession) :=
  if identity py (Value.get probe "manufacturer") = "" ∧ identity py (Value.get probe "model") = "" then
    .ok none
  else firstCandidate py probe (sessions.insertionSort fun s s' => s.name ≤ s'.name)

end Naming

/-! ### Creating and resuming -/

section Creating

variable (py : Builtins) (r : Reader)

/-- A profile that was read, as the program goes on with it. -/
def DeviceProfile.live (p : DeviceProfile Transport Json) : LiveProfile where
  sessionId := .lift p.sessionId
  canonicalName := .lift p.canonicalName
  deviceCodename := .lift p.deviceCodename
  fingerprint := .lift p.fingerprint
  manufacturer := .lift p.manufacturer
  model := .lift p.model
  serial := .lift p.serial
  androidVersion := .lift p.androidVersion
  transport := some p.transport
  bootloaderLocked := .lift p.bootloaderLocked
  verifiedBootState := .lift p.verifiedBootState
  formFactor := p.formFactor
  formFactorSource := .lift p.formFactorSource
  formFactorConfidence := p.formFactorConfidence
  formFactorOverride := p.formFactorOverride
  slotInfo := .lift p.slotInfo
  battery := .lift p.battery
  rawProbeData := .lift p.rawProbeData

/-- The new value of a field, if it says anything. -/
def merged (old new : Value Transport) : Value Transport :=
  match new with
  | .none | .str "" | .dict [] => old
  | new => new

/-- `profile.transport` after an event: that of the event, which is a member, if it has one. -/
def eventTransport (probe : Probe) (old : Option Transport) : Option Transport :=
  match Value.get probe "transport" with
  | .member t => some t
  | _ => old

/-- `raw_probe_data |= probe_data` -/
def mergeRaw (probe : Probe) : Value Transport → Except Error (Value Transport)
  | .dict raw => .ok (.dict (dictUpdate raw probe))
  | _ => .error .type

def resumeProfile (p : LiveProfile) (probe : Probe) : Except Error LiveProfile := do
  let rawProbeData ← mergeRaw probe p.rawProbeData
  let p : LiveProfile :=
    { p with
      manufacturer := merged p.manufacturer (Value.get probe "manufacturer")
      model := merged p.model (Value.get probe "model")
      serial := merged p.serial (Value.get probe "serial")
      androidVersion := merged p.androidVersion (Value.get probe "android_version")
      bootloaderLocked := merged p.bootloaderLocked (Value.get probe "bootloader_locked")
      verifiedBootState := merged p.verifiedBootState (Value.get probe "verified_boot_state")
      slotInfo := merged p.slotInfo (Value.get probe "slot_info")
      battery := merged p.battery (Value.get probe "battery")
      transport := eventTransport probe p.transport
      deviceCodename := (Value.get probe "device_codename").orElse p.deviceCodename
      rawProbeData }
  let p ← promoteHardwareSnapshot py r p probe
  return applyFormFactorInference py p probe

def newProfile (f : DeviceFingerprint) (name : String) (probe : Probe) : LiveProfile where
  sessionId := .str name
  canonicalName := .str name
  deviceCodename :=
    (Value.get probe "device_codename").orElse (.str (generateCodename py.lower f))
  fingerprint := .str f.stableKey
  manufacturer := Value.get probe "manufacturer"
  model := Value.get probe "model"
  serial := Value.get probe "serial"
  androidVersion := Value.get probe "android_version"
  transport := eventTransport probe none
  bootloaderLocked := Value.get probe "bootloader_locked"
  verifiedBootState := Value.get probe "verified_boot_state"
  formFactorSource := .str "insufficient_evidence"
  slotInfo := Value.get probe "slot_info"
  battery := Value.get probe "battery"
  rawProbeData := .dict probe

/-- The first state of a session, as it is written. -/
def newState (name : String) : SessionState where
  sessionId := .str name
  state := .deviceAttached
  supportStatus := .researchOnly
  history :=
    [{ fromState := .idle, toState := .deviceAttached, reason := .str "Device detected"
       timestamp := .str (r.utcNow 0) }]
  createdAt := .str (r.utcNow 1)
  updatedAt := .str (r.utcNow 3)

/-- The files of a new session, from its profile. -/
def newFiles (name : String) (p : LiveProfile) : StoredSession where
  name
  profile := some (.dict p.toDict)
  state := some (.dict (newState r name).toDict)
  userProfile :=
    some (.dict (UserProfile.toDict { sessionId := .str name, updatedAt := .str (r.utcNow 5) }))
  osGoals := some (.dict (OSGoals.toDict { sessionId := .str name, updatedAt := .str (r.utcNow 7) }))
  approval :=
    some (.dict (DestructiveApproval.toDict { sessionId := .str name, updatedAt := .str (r.utcNow 9) }))

/-- The session that an event belongs to, if there is one. -/
def resumedSession (sessions : List StoredSession) (name : String) (probe : Probe) :
    Except Error (Option StoredSession) :=
  match sessions.find? fun s => s.name = name with
  | some s => .ok (some s)
  | none => findCandidate py sessions probe

/-- `session_dir / "device-profile.json"` is written. -/
def writeProfile (sessions : List StoredSession) (name : String) (p : LiveProfile) :
    List StoredSession :=
  sessions.map fun s => if s.name = name then { s with profile := some (.dict p.toDict) } else s

/-- `create_or_resume` on the date `today`: the sessions afterwards and the name of the one the event
belongs to. -/
def createOrResume (sessions : List StoredSession) (probe : Probe) (today : String) :
    Except Error (List StoredSession × String) := do
  let f ← probeFingerprint py probe
  let name := canonicalSessionName py.lower f today
  match ← resumedSession py sessions name probe with
  | some s =>
    let p ← resumeProfile py r (← loadDeviceProfile r s).live probe
    return (writeProfile sessions s.name p, s.name)
  | none =>
    let p ← promoteHardwareSnapshot py r (newProfile py f name probe) probe
    return (sessions ++ [newFiles r name (applyFormFactorInference py p probe)], name)

/-! ### What is written is read -/

/-- A profile with the transport `t`, as it is read after it was written. -/
def LiveProfile.read (p : LiveProfile) (t : Transport) : DeviceProfile Transport Json where
  sessionId := serialize p.sessionId
  canonicalName := serialize p.canonicalName
  deviceCodename := serialize p.deviceCodename
  fingerprint := serialize p.fingerprint
  manufacturer := serialize p.manufacturer
  model := serialize p.model
  serial := serialize p.serial
  androidVersion := serialize p.androidVersion
  transport := t
  bootloaderLocked := serialize p.bootloaderLocked
  verifiedBootState := serialize p.verifiedBootState
  formFactor := p.formFactor
  formFactorSource := serialize p.formFactorSource
  formFactorConfidence := p.formFactorConfidence
  formFactorOverride := p.formFactorOverride
  slotInfo := serialize p.slotInfo
  battery := serialize p.battery
  rawProbeData := serialize p.rawProbeData

theorem toDict_read {p : LiveProfile} {t : Transport} (h : p.transport = some t) :
    (LiveProfile.read p t).toDict = p.toDict := by
  have ht : serialize p.transport = serialize t := by rw [h]; rfl
  simp only [DeviceProfile.toDict, LiveProfile.read, serialize_json, ht]

/-- A written profile is read exactly when it has a transport. -/
theorem deviceProfileFromDict_live (p : LiveProfile) :
    deviceProfileFromDict r p.toDict =
      match p.transport with
      | some t => .ok (LiveProfile.read p t)
      | none => .error .value := by
  cases h : p.transport with
  | some t => rw [← toDict_read h, deviceProfileFromDict_toDict]
  | none =>
    have hnone : serialize p.transport = Value.none := by rw [h]; rfl
    simp [deviceProfileFromDict, DeviceProfile.toDict, memberOr, getD_cons, required_cons, hnone,
      Value.toMember]

theorem loads_newFiles_iff (name : String) (p : LiveProfile) :
    (∃ q, loadDeviceProfile r (newFiles r name p) = .ok q) ↔ p.transport.isSome := by
  have hload : loadDeviceProfile r (newFiles r name p) = deviceProfileFromDict r p.toDict := rfl
  rw [hload, deviceProfileFromDict_live]
  cases p.transport <;> simp

theorem loadSessionState_newFiles (name : String) (p : LiveProfile) :
    loadSessionState r (newFiles r name p) = .ok (newState r name) :=
  sessionStateFromDict_toDict r (newState r name)

/-! ### The transport of a new profile -/

variable {py r}

theorem promoteHardwareSnapshot_transport {p q : LiveProfile} {probe : Probe}
    (h : promoteHardwareSnapshot py r p probe = .ok q) : q.transport = p.transport := by
  unfold promoteHardwareSnapshot at h
  dsimp only at h
  split_ifs at h
  · split at h
    · cases h
      rfl
    · cases h
  · cases h
    rfl

theorem applyFormFactorInference_transport (p : LiveProfile) (probe : Probe) :
    (applyFormFactorInference py p probe).transport = p.transport := by
  obtain ⟨_, _, _, h⟩ := applyFormFactorInference_eq py p probe
  rw [h]

/-- A probe that passes has a member for its transport or no transport at all. -/
theorem eventTransport_isSome_iff {probe : Probe} {t : Transport}
    (h : probeTransport probe = .ok t) :
    (eventTransport probe none).isSome ↔ (dictGet probe "transport").isSome := by
  unfold probeTransport at h
  unfold eventTransport Value.get
  simp only [Value.getD] at h ⊢
  cases hget : dictGet probe "transport" with
  | none => simp
  | some v =>
    rw [hget] at h
    cases v <;> simp at h ⊢

/-! ### What a call does -/

theorem firstCandidate_mem {probe : Probe} {sessions : List StoredSession} {s : StoredSession}
    (h : firstCandidate py probe sessions = .ok (some s)) : s ∈ sessions := by
  induction sessions with
  | nil => cases h
  | cons s' sessions ih =>
    rw [firstCandidate] at h
    split at h
    · exact List.mem_cons_of_mem _ (ih h)
    · split_ifs at h
      · cases h
        exact List.mem_cons_self
      · exact List.mem_cons_of_mem _ (ih h)
    · cases h

theorem resumedSession_mem {sessions : List StoredSession} {name : String} {probe : Probe}
    {s : StoredSession} (h : resumedSession py sessions name probe = .ok (some s)) :
    s ∈ sessions := by
  unfold resumedSession at h
  split at h
  · cases h
    exact List.mem_of_find?_eq_some ‹_›
  · unfold findCandidate at h
    split_ifs at h
    · cases h
    · exact (List.mem_insertionSort _).mp (firstCandidate_mem h)

theorem resumedSession_none {sessions : List StoredSession} {name : String} {probe : Probe}
    (h : resumedSession py sessions name probe = .ok none) : ∀ s ∈ sessions, s.name ≠ name := by
  unfold resumedSession at h
  split at h
  · cases h
  · rename_i hfind
    intro s hs
    simpa using List.find?_eq_none.mp hfind s hs

/-- An accepted call resumes a session whose profile it could read, or writes a new one. -/
theorem createOrResume_cases {sessions sessions' : List StoredSession} {probe : Probe}
    {today name : String} (h : createOrResume py r sessions probe today = .ok (sessions', name)) :
    (∃ s ∈ sessions, ∃ p q, name = s.name ∧ loadDeviceProfile r s = .ok p ∧
        sessions' = writeProfile sessions s.name q) ∨
      ∃ t q, probeTransport probe = .ok t ∧ (∀ s ∈ sessions, s.name ≠ name) ∧
        q.transport = eventTransport probe none ∧ sessions' = sessions ++ [newFiles r name q] := by
  unfold createOrResume at h
  obtain ⟨f, hf, h⟩ := bind_eq_ok.mp h
  obtain ⟨found, hfound, h⟩ := bind_eq_ok.mp h
  cases found with
  | some s =>
    obtain ⟨p, hp, h⟩ := bind_eq_ok.mp h
    obtain ⟨q, -, h⟩ := bind_eq_ok.mp h
    cases h
    exact .inl ⟨s, resumedSession_mem hfound, p, q, rfl, hp, rfl⟩
  | none =>
    obtain ⟨q, hq, h⟩ := bind_eq_ok.mp h
    obtain ⟨t, ht, -⟩ := bind_eq_ok.mp hf
    cases h
    refine .inr ⟨t, _, ht, resumedSession_none hfound, ?_, rfl⟩
    rw [applyFormFactorInference_transport, promoteHardwareSnapshot_transport hq]
    rfl

theorem mem_writeProfile {sessions : List StoredSession} {s : StoredSession} {name : String}
    (hs : s ∈ sessions) (hne : s.name ≠ name) (p : LiveProfile) :
    s ∈ writeProfile sessions name p :=
  List.mem_map.mpr ⟨s, hs, if_neg hne⟩

theorem names_writeProfile (sessions : List StoredSession) (name : String) (p : LiveProfile) :
    (writeProfile sessions name p).map StoredSession.name = sessions.map StoredSession.name := by
  rw [writeProfile, List.map_map]
  apply List.map_congr_left
  intro s _
  simp only [Function.comp_apply]
  split_ifs
  · rfl
  · rfl

/-! ### Sessions that cannot be read -/

/-- Calls that are all accepted, one after the other. -/
def acceptedCalls (py : Builtins) (r : Reader) (sessions : List StoredSession) :
    List (Probe × String) → Except Error (List StoredSession)
  | [] => .ok sessions
  | (probe, today) :: calls => do
    let (sessions, _) ← createOrResume py r sessions probe today
    acceptedCalls py r sessions calls

theorem nodup_createOrResume {sessions sessions' : List StoredSession} {probe : Probe}
    {today name : String} (hnames : (sessions.map StoredSession.name).Nodup)
    (h : createOrResume py r sessions probe today = .ok (sessions', name)) :
    (sessions'.map StoredSession.name).Nodup := by
  rcases createOrResume_cases h with ⟨s, -, p, q, -, -, rfl⟩ | ⟨t, q, -, hnew, -, rfl⟩
  · rwa [names_writeProfile]
  · rw [List.map_append, List.nodup_append]
    refine ⟨hnames, List.nodup_singleton _, ?_⟩
    rintro _ hs b hb rfl
    obtain ⟨s, hs, hname⟩ := List.mem_map.mp hs
    exact hnew s hs (hname.trans (List.mem_singleton.mp hb))

/-- A call that is accepted belongs to another session than one whose profile cannot be read, and
leaves the files of that one alone. -/
theorem unreadable_step {sessions sessions' : List StoredSession} {probe : Probe}
    {today name : String} {s : StoredSession} {e : Error}
    (hnames : (sessions.map StoredSession.name).Nodup) (hs : s ∈ sessions)
    (hload : loadDeviceProfile r s = .error e)
    (h : createOrResume py r sessions probe today = .ok (sessions', name)) :
    name ≠ s.name ∧ s ∈ sessions' := by
  rcases createOrResume_cases h with ⟨s', hs', p, q, rfl, hp, rfl⟩ | ⟨t, q, -, hnew, -, rfl⟩
  · have hne : s'.name ≠ s.name := by
      intro heq
      have hsame : s' = s := List.inj_on_of_nodup_map hnames hs' hs heq
      rw [hsame, hload] at hp
      cases hp
    exact ⟨hne, mem_writeProfile hs hne.symm q⟩
  · exact ⟨(hnew s hs).symm, List.mem_append_left _ hs⟩

/-- A session whose profile cannot be read stays as it is through all calls that are accepted. -/
theorem unreadable_stays {sessions sessions' : List StoredSession} {s : StoredSession} {e : Error}
    {calls : List (Probe × String)} (hnames : (sessions.map StoredSession.name).Nodup)
    (hs : s ∈ sessions) (hload : loadDeviceProfile r s = .error e)
    (h : acceptedCalls py r sessions calls = .ok sessions') : s ∈ sessions' := by
  induction calls generalizing sessions with
  | nil =>
    cases h
    exact hs
  | cons call calls ih =>
    obtain ⟨⟨sessions₁, name⟩, hcall, h⟩ := bind_eq_ok.mp h
    exact ih (nodup_createOrResume hnames hcall) (unreadable_step hnames hs hload hcall).2 h

/-! ### Every record round trips, and a new session is read if its probe has a transport -/

/-- What a file says is what was written, for every kind of record; and the session that an accepted
call creates has a profile that can be read exactly when the probe has a transport, and a state that
can be read. -/
theorem roundTrips_and_created_loads_iff (py : Builtins) (r : Reader) :
    (∀ p : DeviceProfile Transport Json, deviceProfileFromDict r p.toDict = .ok p) ∧
      (∀ s : SessionState, sessionStateFromDict r s.toDict = .ok s) ∧
      (∀ p : UserProfile, userProfileFromDict r p.toDict = .ok p) ∧
      (∀ g : OSGoals, osGoalsFromDict r g.toDict = .ok g) ∧
      (∀ a : DestructiveApproval, destructiveApprovalFromDict r a.toDict = .ok a) ∧
      (∀ p : FlashPlan, flashPlanFromDict r p.toDict = .ok p) ∧
      ∀ (sessions sessions' : List StoredSession) (probe : Probe) (today name : String),
        createOrResume py r sessions probe today = .ok (sessions', name) →
        (∀ s ∈ sessions, s.name ≠ name) →
        ∃ s, sessions' = sessions ++ [s] ∧ s.name = name ∧
          ((∃ p, loadDeviceProfile r s = .ok p) ↔ (dictGet probe "transport").isSome) ∧
          ∃ state, loadSessionState r s = .ok state := by
  refine ⟨deviceProfileFromDict_toDict r, sessionStateFromDict_toDict r, userProfileFromDict_toDict r,
    osGoalsFromDict_toDict r, destructiveApprovalFromDict_toDict r, flashPlanFromDict_toDict r, ?_⟩
  intro sessions sessions' probe today name h hnew
  rcases createOrResume_cases h with ⟨s, hs, _, _, hname, -, -⟩ | ⟨t, q, ht, -, hq, rfl⟩
  · exact absurd hname.symm (hnew s hs)
  · refine ⟨newFiles r name q, rfl, rfl, ?_, newState r name, loadSessionState_newFiles r name q⟩
    rw [loads_newFiles_iff, hq]
    exact eventTransport_isSome_iff ht

end Creating

/-- A library in which every digest is the same. -/
def plainBuiltins : Builtins where
  lower := asciiLower
  upper := asciiUpper
  str _ := ""
  isWord c := isAlphanumeric c || c == '_'
  digest _ := "0123456789abcdef"

def plainReader : Reader where
  parseFloat _ := none
  parseInt _ := none
  utcNow _ := "2026-01-01T00:00:00+00:00"

/-- A Pixel 3, whose transport is not stated. -/
def pixelProbe : Probe :=
  [("manufacturer", .str "Google"), ("model", .str "Pixel 3"), ("serial", .str "8A1X0001")]

theorem created_loads_pixel :
    ∃ s name, createOrResume plainBuiltins plainReader []
        (pixelProbe ++ [("transport", .member .usbAdb)]) "20260101" = .ok ([s], name) ∧
      ∃ p, loadDeviceProfile plainReader s = .ok p := by
  have hcreate : ∃ sessions name, createOrResume plainBuiltins plainReader []
      (pixelProbe ++ [("transport", .member .usbAdb)]) "20260101" = .ok (sessions, name) :=
    ⟨_, _, rfl⟩
  obtain ⟨sessions, name, hcreate⟩ := hcreate
  obtain ⟨-, -, -, -, -, -, hnew⟩ := roundTrips_and_created_loads_iff plainBuiltins plainReader
  obtain ⟨s, rfl, -, hloads, -⟩ := hnew _ _ _ _ _ hcreate (by simp)
  exact ⟨s, name, hcreate, hloads.mpr rfl⟩

/-- Without its transport the same phone gets a session whose profile is refused. -/
theorem pixel_unreadable :
    ∃ s name, createOrResume plainBuiltins plainReader [] pixelProbe "20260101" = .ok ([s], name) ∧
      loadDeviceProfile plainReader s = .error .value :=
  ⟨_, _, rfl, rfl⟩

end ForgeOS.Session.Records
