import ForgeOS.Library.Conditions
import ForgeOS.Runtime.Cycle
import ForgeOS.Session.Waiting

/-! What the profiles of the sessions hold of their devices, over events and deep scans.
Both pass the probe, which fills in every field that is missing, so that the merge, which
would skip it, takes the placeholder for an answer. `title` is `str.title`. -/

namespace ForgeOS.Runtime

open ForgeOS.Python ForgeOS.Session ForgeOS.Library.Conditions ForgeOS.Library.Trace

/-! ### Fields -/

/-- The fields that tell a device. -/
inductive IdentityField
  | manufacturer | model | serial
  deriving DecidableEq, Repr

namespace IdentityField

def said (probe : ProbeData) : IdentityField → Option String
  | manufacturer => probe.manufacturer
  | model => probe.model
  | serial => probe.serial

def held (profile : DeviceProfile) : IdentityField → Option String
  | manufacturer => profile.manufacturer
  | model => profile.model
  | serial => profile.serial

/-- What the probe puts for a missing field. -/
def placeholder : IdentityField → String
  | manufacturer => "unknown"
  | model => "unknown"
  | serial => "unknown-serial"

theorem placeholder_ne (f : IdentityField) : f.placeholder ≠ "" := by
  cases f <;> decide

/-- What the probe makes of a field. -/
def filled (probe : ProbeData) (f : IdentityField) : String := orText (f.said probe) f.placeholder

theorem filled_ne (probe : ProbeData) (f : IdentityField) : f.filled probe ≠ "" := by
  unfold filled orText
  split
  · exact f.placeholder_ne
  · exact f.placeholder_ne
  · assumption

/-- Behind a merge the profile holds what the probe made of the field. -/
theorem held_mergeProbe (profile : DeviceProfile) (probe : ProbeData) (f : IdentityField) :
    f.held (mergeProbe profile (deviceProbe probe)) = some (f.filled probe) := by
  have hgiven : given (some (f.filled probe)) = true := by
    simp [given, f.filled_ne probe]
  cases f <;> exact if_pos hgiven

end IdentityField

/-! ### Devices that are asked -/

/-- What a device answers when it is asked for its properties; one that is not set is empty. -/
structure DeviceAnswers where
  manufacturer : String := ""
  model : String := ""
  androidVersion : String := ""
  deviceCodename : String := ""
  deriving DecidableEq, Repr

variable (title : String → String)

/-- The answers, as far as the device gave them, in the writing in which they are read. -/
def DeviceAnswers.told (transport : Transport) (a : DeviceAnswers) : ProbeData where
  manufacturer := some (if transport = .usbAdb ∧ a.manufacturer ≠ "" then title a.manufacturer
    else a.manufacturer)
  model := some a.model
  androidVersion := some a.androidVersion
  deviceCodename := some a.deviceCodename

/-- `describe_device` and `describe_device_fastboot` -/
def deviceDescription (transport : Transport) (a : DeviceAnswers) : ProbeData :=
  let manufacturer := orText (some a.manufacturer) "Unknown"
  { a.told title transport with
    manufacturer := some (if transport = .usbAdb then title manufacturer else manufacturer)
    model := some (orText (some a.model) "Unknown") }

/-- A machine, and what the devices at it answer. -/
structure AskedHost extends RuntimeHost where
  answers : Transport → String → DeviceAnswers
  describe_eq : describe = fun transport serial => deviceDescription title transport (answers transport serial)

variable {title}

/-- What the device reports in a deep scan. -/
def AskedHost.told (h : AskedHost title) (serial : String) : Option ProbeData :=
  rescanned { h.toRuntimeHost with
    describe := fun transport serial => (h.answers transport serial).told title transport } serial

/-- A scan finds a device exactly when the device reports. -/
theorem AskedHost.isSome_told (h : AskedHost title) (serial : String) :
    (h.told serial).isSome = (rescanned h.toRuntimeHost serial).isSome := by
  simp only [AskedHost.told, rescanned]
  split_ifs <;> rfl

/-! ### Steps -/

variable (title)

inductive DeviceStep
  | event (c : Contact)
  | scan (name : String) (h : AskedHost title)
  /-- Whatever else changes a session: its cycles, the operator, a remediation. -/
  | elsewhere (change : SessionDir → SessionDir)

variable {title} (lower digest : String → String) (devices : Devices)

/-- The event as it leaves the probe. -/
def probed (c : Contact) : Contact := { c with probe := deviceProbe c.probe }

/-- The waiting session that `handle_device_event` takes for the device. -/
def waitingFor (c : Contact) : Option SessionDir :=
  findWaitingSession devices (orText (probed c).probe.serial "")

/-- Merge into a session what the probe makes of an event. -/
def mergeInto (d : SessionDir) (raw : ProbeData) : Devices :=
  putSession devices { d with profile := mergeProbe d.profile (deviceProbe raw) }

/-- `handle_device_event`, up to the runtime cycle. -/
def handleDeviceEvent (c : Contact) : Devices :=
  match waitingFor devices c with
  | some d => mergeInto devices d c.probe
  | none => (createOrResume lower digest devices (probed c)).1

/-- `_perform_deep_scan` of a session. -/
def deepScan (name : String) (h : RuntimeHost) : Devices :=
  match findSession devices name with
  | some d =>
    match rescanned h (d.profile.serial.getD "") with
    | some refreshed => mergeInto devices d refreshed
    | none => devices
  | none => devices

/-- The session that an event comes to. -/
def eventSession (c : Contact) : Option SessionDir :=
  (waitingFor devices c).or (resumed lower digest devices (probed c))

/-- The session of a scan, what is read there, and what the device reported of it. -/
def scanned (name : String) (h : AskedHost title) : Option (SessionDir × ProbeData × ProbeData) := do
  let d ← findSession devices name
  let raw ← rescanned h.toRuntimeHost (d.profile.serial.getD "")
  let told ← h.told (d.profile.serial.getD "")
  return (d, raw, told)

/-! ### Reports -/

/-- The device of a session reported the value of a field. -/
structure Report where
  name : String
  field : IdentityField
  value : String
  deriving DecidableEq, Repr

/-- The fields that are given, as reports to a session. -/
def reportsTo (name : String) (told : ProbeData) : List Report :=
  [IdentityField.manufacturer, .model, .serial].filterMap fun f =>
    if given (f.said told) then (f.said told).map fun value => ⟨name, f, value⟩ else none

/-- The sessions, and what has been reported to them; nothing reads the reports. -/
structure DeviceLog where
  devices : Devices := []
  reports : List Report := []

/-- The profile holds what the device reported of the field. -/
def Reported (reports : List Report) (d : SessionDir) (f : IdentityField) : Prop :=
  ∃ r ∈ reports, r.name = d.name ∧ r.field = f ∧ f.held d.profile = some r.value

instance (reports : List Report) (d : SessionDir) (f : IdentityField) :
    Decidable (Reported reports d f) := by
  unfold Reported
  infer_instance

def deviceStep (s : DeviceLog) : DeviceStep title → DeviceLog
  | .event c =>
    { devices := handleDeviceEvent lower digest s.devices c
      reports := s.reports ++ reportsTo
        (((eventSession lower digest s.devices c).map SessionDir.name).getD
          ((probed c).canonicalName lower digest)) c.probe }
  | .scan name h =>
    { devices := deepScan s.devices name h.toRuntimeHost
      reports := s.reports ++ ((scanned s.devices name h).map fun x => reportsTo name x.2.2).getD [] }
  | .elsewhere change =>
    { s with devices := s.devices.map fun d => { change d with name := d.name } }

/-! ### What is kept -/

variable (reports : List Report)

/-- A field that is held as the device reported it, and is not told this time, stays. -/
def KeepsFields (told : ProbeData) (before after : Devices) : Prop :=
  ∀ d ∈ before, ∀ d' ∈ after, d'.name = d.name → ∀ f : IdentityField,
    given (f.said told) = false → Reported reports d f → f.held d'.profile = f.held d.profile

/-- The device of the session reported a manufacturer or a model, and the probe has another one. -/
def OtherDevice (d : SessionDir) (probe : ProbeData) : Prop :=
  ∃ f ∈ [IdentityField.manufacturer, .model],
    Reported reports d f ∧ given (f.said probe) = true ∧ f.held d.profile ≠ f.said probe

instance (d : SessionDir) (probe : ProbeData) : Decidable (OtherDevice reports d probe) := by
  unfold OtherDevice
  infer_instance

/-- The step keeps what is not told, and an event without a serial does not come to the waiting
session of another device. -/
def StepKeeps (s : DeviceLog) : DeviceStep title → Prop
  | .event c =>
    KeepsFields s.reports c.probe s.devices (handleDeviceEvent lower digest s.devices c) ∧
      (given c.probe.serial = false →
        ∀ d, waitingFor s.devices c = some d → ¬OtherDevice s.reports d c.probe)
  | .scan name h =>
    KeepsFields s.reports (((scanned s.devices name h).map fun x => x.2.2).getD {}) s.devices
      (deepScan s.devices name h.toRuntimeHost)
  | .elsewhere _ => True

/-! ### When it is kept -/

/-- A field that is not told and is held as the device reported it is what would be filled in. -/
def FillsOnly (told raw : ProbeData) (d : SessionDir) : Prop :=
  ∀ f : IdentityField, given (f.said told) = false → Reported reports d f →
    f.held d.profile = some (f.filled raw)

/-- The session stands at the question gate without a serial, the first by name of those that do. -/
def FirstUnnamed (d : SessionDir) : Prop :=
  d ∈ devices ∧ waitsFor "unknown-serial" d = true ∧
    ∀ d' ∈ devices, waitsFor "unknown-serial" d' = true → d.name ≤ d'.name

/-- The session of the event or scan holds no report that would be filled over, and where the event
has no serial, the first session that waits without one is not of another device. -/
def StepFits (s : DeviceLog) : DeviceStep title → Prop
  | .event c =>
    (∀ d, eventSession lower digest s.devices c = some d →
        FillsOnly s.reports c.probe c.probe d) ∧
      (given c.probe.serial = false →
        ∀ d, FirstUnnamed s.devices d → ¬OtherDevice s.reports d c.probe)
  | .scan name h =>
    ∀ d raw told, scanned s.devices name h = some (d, raw, told) → FillsOnly s.reports told raw d
  | .elsewhere _ => True

variable {lower digest devices reports}

theorem mem_putSession {dir d : SessionDir} :
    d ∈ putSession devices dir ↔ ∃ e ∈ devices, d = if e.name = dir.name then dir else e := by
  simp only [putSession, List.mem_map, eq_comm]

/-- A merge keeps the fields exactly when it fills in what is there. -/
theorem keepsFields_mergeInto_iff (hnodup : (names devices).Nodup) {d : SessionDir} (hd : d ∈ devices)
    (told raw : ProbeData) :
    KeepsFields reports told devices (mergeInto devices d raw) ↔ FillsOnly reports told raw d := by
  constructor
  · intro h f htold hreported
    have hmem : { d with profile := mergeProbe d.profile (deviceProbe raw) } ∈ mergeInto devices d raw :=
      mem_putSession.mpr ⟨d, hd, (if_pos rfl).symm⟩
    have hkept := h d hd _ hmem rfl f htold hreported
    rw [f.held_mergeProbe] at hkept
    exact hkept.symm
  · intro h e he e' he' hname f htold hreported
    obtain ⟨e₀, he₀, rfl⟩ := mem_putSession.mp he'
    by_cases heq : e₀.name = d.name
    · rw [if_pos heq] at hname ⊢
      obtain rfl : d = e := List.inj_on_of_nodup_map hnodup hd he hname
      rw [f.held_mergeProbe]
      exact (h f htold hreported).symm
    · rw [if_neg heq] at hname ⊢
      rw [List.inj_on_of_nodup_map hnodup he₀ he hname]

theorem keepsFields_refl (hnodup : (names devices).Nodup) (told : ProbeData) :
    KeepsFields reports told devices devices := by
  intro d hd d' hd' hname f _ _
  rw [List.inj_on_of_nodup_map hnodup hd' hd hname]

/-- Nothing changes in a session that is there when another one is added. -/
theorem keepsFields_append (hnodup : (names devices).Nodup) {new : SessionDir}
    (hnew : new.name ∉ names devices) (told : ProbeData) :
    KeepsFields reports told devices (devices ++ [new]) := by
  intro d hd d' hd' hname f htold hreported
  rcases List.mem_append.mp hd' with hd' | hd'
  · exact keepsFields_refl hnodup told d hd d' hd' hname f htold hreported
  · rw [List.mem_singleton.mp hd'] at hname
    exact absurd (mem_names_of_mem hd) (hname ▸ hnew)

/-! ### Events -/

theorem eventSession_mem (hnodup : (names devices).Nodup) {c : Contact} {d : SessionDir}
    (h : eventSession lower digest devices c = some d) : d ∈ devices := by
  rw [eventSession, Option.or_eq_some_iff] at h
  rcases h with h | ⟨-, h⟩
  · exact ((findWaitingSession_eq_some_iff hnodup).mp h).2.1
  · exact resumed_mem lower digest h

theorem name_newSession (c : Contact) :
    (newSession lower digest c).name = c.canonicalName lower digest := rfl

/-- An event that comes to no session founds one under a new name. -/
theorem name_notMem_of_eventSession {c : Contact}
    (h : eventSession lower digest devices c = none) :
    (newSession lower digest (probed c)).name ∉ names devices := by
  rw [eventSession, Option.or_eq_none_iff, resumed, Option.or_eq_none_iff] at h
  rw [name_newSession]
  exact findSession_eq_none.mp h.2.1

/-- An event is merged into the session it comes to, or founds a new one. -/
theorem handleDeviceEvent_eq (c : Contact) :
    handleDeviceEvent lower digest devices c =
      match eventSession lower digest devices c with
      | some d => mergeInto devices d c.probe
      | none => devices ++ [newSession lower digest (probed c)] := by
  rw [handleDeviceEvent, eventSession]
  cases waitingFor devices c with
  | some d => rfl
  | none =>
    rw [Option.none_or, createOrResume]
    cases resumed lower digest devices (probed c) with
    | some d => rfl
    | none => rfl

/-- An event without a serial finds the first session that waits without one. -/
theorem waitingFor_eq_some_iff (hnodup : (names devices).Nodup) {c : Contact}
    (hserial : given c.probe.serial = false) {d : SessionDir} :
    waitingFor devices c = some d ↔ FirstUnnamed devices d := by
  have hprobed : orText (probed c).probe.serial "" = "unknown-serial" := by
    have hnone : c.probe.serial = none ∨ c.probe.serial = some "" := by
      simpa [given, or_iff_not_imp_left] using hserial
    rcases hnone with h | h
    · rw [probed, deviceProbe, h]
      rfl
    · rw [probed, deviceProbe, h]
      rfl
  rw [waitingFor, hprobed, findWaitingSession_eq_some_iff hnodup]
  exact and_iff_right (by decide)

/-! ### Runs -/

theorem deepScan_eq (name : String) (h : AskedHost title) :
    deepScan devices name h.toRuntimeHost =
      match scanned devices name h with
      | some x => mergeInto devices x.1 x.2.1
      | none => devices := by
  rw [deepScan, scanned]
  cases findSession devices name with
  | none => rfl
  | some d =>
    have hsome := h.isSome_told (d.profile.serial.getD "")
    cases hraw : rescanned h.toRuntimeHost (d.profile.serial.getD "") with
    | none => simp [hraw]
    | some raw =>
      rw [hraw] at hsome
      obtain ⟨told, htold⟩ := Option.isSome_iff_exists.mp hsome
      simp [hraw, htold]

/-- The deep scan of a cycle is the deep scan of its session. -/
theorem deepScan_eq_performDeepScan (o : Orchestrator) (r : RuntimeState)
    (hfound : findSession devices r.dir.name = some r.dir)
    (hseen : (rescanned o.host (r.dir.profile.serial.getD "")).isSome = true) :
    deepScan devices r.dir.name o.host =
      putSession devices (final (performDeepScan o) r).dir := by
  obtain ⟨refreshed, hrefreshed⟩ := Option.isSome_iff_exists.mp hseen
  have hfinal : (final (performDeepScan o) r).dir =
      { r.dir with profile := mergeProbe r.dir.profile (deviceProbe refreshed) } := by
    show (final (match rescanned o.host (r.dir.profile.serial.getD "") with
      | some refreshed => writeDeviceProfile (mergeProbe r.dir.profile (deviceProbe refreshed))
      | none => return ())
      (final (launch (deepScanQueries o.host (r.dir.profile.serial.getD ""))) r)).dir = _
    rw [hrefreshed]
    rfl
  rw [deepScan, hfound, hfinal]
  simp only [hrefreshed, mergeInto]

theorem scanned_mem {name : String} {h : AskedHost title} {x : SessionDir × ProbeData × ProbeData}
    (hx : scanned devices name h = some x) : x.1 ∈ devices := by
  rw [scanned] at hx
  cases hfind : findSession devices name with
  | none => simp [hfind] at hx
  | some d =>
    have hd : d ∈ devices := List.mem_of_find?_eq_some hfind
    simp only [hfind, Option.bind_eq_bind, Option.bind_some, Option.bind_eq_some_iff] at hx
    obtain ⟨raw, -, told, -, hx⟩ := hx
    obtain rfl := Option.some.inj hx
    exact hd

variable (lower digest)

/-- A step keeps the names apart. -/
theorem nodup_deviceStep (s : DeviceLog) (x : DeviceStep title) (hnodup : (names s.devices).Nodup) :
    (names (deviceStep lower digest s x).devices).Nodup := by
  have hmerge : ∀ d raw, (names (mergeInto s.devices d raw)).Nodup := by
    intro d raw
    rw [mergeInto, names_putSession]
    exact hnodup
  cases x with
  | event c =>
    show (names (handleDeviceEvent lower digest s.devices c)).Nodup
    rw [handleDeviceEvent_eq]
    cases hsession : eventSession lower digest s.devices c with
    | some d => exact hmerge d c.probe
    | none =>
      have hnew := name_notMem_of_eventSession hsession
      rw [names, List.map_append, List.nodup_append]
      refine ⟨hnodup, List.nodup_singleton _, fun a ha b hb hab => hnew ?_⟩
      rw [← List.mem_singleton.mp hb, ← hab]
      exact ha
  | scan name h =>
    show (names (deepScan s.devices name h.toRuntimeHost)).Nodup
    rw [deepScan_eq]
    cases scanned s.devices name h with
    | some x => exact hmerge x.1 x.2.1
    | none => exact hnodup
  | elsewhere change =>
    show (names (s.devices.map fun d => { change d with name := d.name })).Nodup
    rw [names, List.map_map]
    exact hnodup

theorem stepKeeps_iff (s : DeviceLog) (x : DeviceStep title) (hnodup : (names s.devices).Nodup) :
    StepKeeps lower digest s x ↔ StepFits lower digest s x := by
  cases x with
  | event c =>
    refine and_congr ?_ (imp_congr_right fun hserial => forall_congr' fun d => ?_)
    · rw [handleDeviceEvent_eq]
      cases hsession : eventSession lower digest s.devices c with
      | some d =>
        simp only [Option.some.injEq, forall_eq']
        exact keepsFields_mergeInto_iff hnodup (eventSession_mem hnodup hsession) c.probe c.probe
      | none =>
        have hnew := name_notMem_of_eventSession hsession
        exact ⟨fun _ _ heq => (nomatch heq), fun _ => keepsFields_append hnodup hnew c.probe⟩
    · rw [waitingFor_eq_some_iff hnodup hserial]
  | scan name h =>
    show KeepsFields s.reports (((scanned s.devices name h).map fun x => x.2.2).getD {}) s.devices
        (deepScan s.devices name h.toRuntimeHost) ↔
      ∀ d raw told, scanned s.devices name h = some (d, raw, told) → FillsOnly s.reports told raw d
    rw [deepScan_eq]
    cases hscan : scanned s.devices name h with
    | some x =>
      refine (keepsFields_mergeInto_iff hnodup (scanned_mem hscan) x.2.2 x.2.1).trans ⟨?_, ?_⟩
      · intro hfills d raw told heq
        rw [Option.some.inj heq] at hfills
        exact hfills
      · exact fun hfills => hfills x.1 x.2.1 x.2.2 rfl
    | none => exact ⟨fun _ _ _ _ heq => (nomatch heq), fun _ => keepsFields_refl hnodup _⟩
  | elsewhere change => exact Iff.rfl

/-- Over every run of events and scans, what the devices reported is kept exactly when no step fills
over a report and none without a serial meets the session of another device. -/
theorem reports_kept_iff (steps : List (DeviceStep title)) :
    Along (deviceStep lower digest) (StepKeeps lower digest) {} steps ↔
      Along (deviceStep lower digest) (StepFits lower digest) {} steps :=
  along_congr (I := fun s => (names s.devices).Nodup)
    (fun s x hs => nodup_deviceStep lower digest s x hs)
    (fun s x hs => stepKeeps_iff lower digest s x hs)
    (show (names []).Nodup from List.nodup_nil) steps

/-! ### Two runs -/

def pixelContact : Contact where
  probe :=
    { manufacturer := some "Google", model := some "Pixel 7", serial := some "ABC"
      transport := some .usbAdb }
  today := "2026-01-01"

/-- A machine at which the phone is listed in `fastbootd` mode only. -/
def fastbootdHost : AskedHost id where
  adb := true
  fastboot := true
  adbSerials := []
  fastbootSerials := []
  fastbootdSerials := ["ABC"]
  describe := fun transport _ => deviceDescription id transport {}
  exit _ _ := { returncode := 0, stdout := "", stderr := "" }
  effects _ _ := []
  answers _ _ := {}
  describe_eq := rfl

/-- The session of the phone. -/
def pixelSession : SessionDir := newSession asciiLower id (probed pixelContact)

/-- The session of a phone without a serial, at the question gate. -/
def unnamedContact (manufacturer model : String) : Contact where
  probe := { manufacturer := some manufacturer, model := some model, transport := some .usbMtp }
  today := "2026-01-01"

def toQuestionGate (d : SessionDir) : SessionDir :=
  { d with file := d.file.write { d.file.current with state := .questionGate } }

/-- A scan in `fastbootd` mode forgets the manufacturer, and a tablet without a serial comes to the
waiting session of a phone without one. -/
theorem reports_lost :
    ¬Along (deviceStep asciiLower id) (StepKeeps asciiLower id) {}
        [.event pixelContact, .scan pixelSession.name fastbootdHost] ∧
      ¬Along (deviceStep asciiLower id) (StepKeeps asciiLower id) {}
        ([.event (unnamedContact "Google" "Pixel 7"), .elsewhere toQuestionGate,
          .event (unnamedContact "Samsung" "SM-T510")] : List (DeviceStep id)) := by
  constructor
  · rintro ⟨-, hscan, -⟩
    let refreshed : ProbeData := { serial := some "ABC", transport := some .usbFastbootd }
    have hforgets := hscan pixelSession (by decide)
      { pixelSession with profile := mergeProbe pixelSession.profile (deviceProbe refreshed) }
      (by decide) rfl .manufacturer (by decide) (by decide)
    exact absurd hforgets (by decide)
  · rintro ⟨-, -, hevent, -⟩
    refine hevent.2 rfl
      (toQuestionGate (newSession asciiLower id (probed (unnamedContact "Google" "Pixel 7")))) ?_ ?_
    · decide
    · decide

end ForgeOS.Runtime
