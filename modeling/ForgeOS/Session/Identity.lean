import ForgeOS.Library.Sorting
import ForgeOS.Session.Manager

/-! Which directory a device event belongs to. Its canonical name is made from a
digest of manufacturer, model, serial and transport and from the date of the
event; if there is no such directory, the first one listed that was created for
the same model from a coarse USB sighting is adopted. The digest and the mapping
to lower case are arguments. -/

namespace ForgeOS.Session

open ForgeOS.Python ForgeOS.Library.Words ForgeOS.Library.Sorting

/-! ### Names -/

def isAlphanumeric (c : Char) : Bool :=
  ('a' ≤ c && c ≤ 'z') || ('A' ≤ c && c ≤ 'Z') || ('0' ≤ c && c ≤ '9')

/-- The runs of letters and digits, joined by single hyphens. -/
def slugify (lower : String → String) (value : String) : String :=
  let cleaned := String.ofList
    (['-'].intercalate (words (fun c => !isAlphanumeric c) (lower (strip value)).toList))
  orText (some cleaned) "unknown"

structure DeviceFingerprint where
  manufacturer : Option String
  model : Option String
  serial : Option String
  transport : Transport
  shortFingerprint : String
  stableKey : String
  deriving DecidableEq, Repr

/-- The text whose digest identifies a device. -/
def fingerprintBasis (manufacturer model serial : Option String) (transport : Transport) : String :=
  "|".intercalate
    [orText manufacturer "unknown", orText model "unknown", orText serial "unknown", transport.value]

def buildFingerprint (digest : String → String) (manufacturer model serial : Option String)
    (transport : Transport) : DeviceFingerprint :=
  let key := digest (fingerprintBasis manufacturer model serial transport)
  { manufacturer, model, serial, transport
    shortFingerprint := String.ofList (key.toList.take 8)
    stableKey := key }

/-- The name of the directory of a device first seen on the date `today`. -/
def canonicalSessionName (lower : String → String) (f : DeviceFingerprint) (today : String) : String :=
  slugify lower (orText f.manufacturer "unknown") ++ "-" ++ slugify lower (orText f.model "unknown") ++
    "-" ++ f.shortFingerprint ++ "-" ++ today

def generateCodename (lower : String → String) (f : DeviceFingerprint) : String :=
  String.ofList ((slugify lower (orText f.manufacturer "forge")).toList.take 6) ++ "-" ++
    String.ofList (f.shortFingerprint.toList.take 4)

/-! ### Merging what an event says into a profile -/

/-- `value is not None and value != ""` -/
def given (value : Option String) : Bool := value ≠ none && value ≠ some ""

def mergeText (old new : Option String) : Option String := if given new then new else old

/-- The update of a profile by an event, as every caller makes it. -/
def mergeProbe (profile : DeviceProfile) (probe : ProbeData) : DeviceProfile :=
  { profile with
    manufacturer := mergeText profile.manufacturer probe.manufacturer
    model := mergeText profile.model probe.model
    serial := mergeText profile.serial probe.serial
    androidVersion := mergeText profile.androidVersion probe.androidVersion
    transport := probe.transport.getD profile.transport }

/-- `DeviceProbeTool.run`. The code name of an event does not get through. -/
def deviceProbe (event : ProbeData) : ProbeData where
  manufacturer := some (orText event.manufacturer "unknown")
  model := some (orText event.model "unknown")
  serial := some (orText event.serial "unknown-serial")
  androidVersion := event.androidVersion
  transport := some (event.transport.getD .unknown)

/-! ### The devices directory -/

/-- `devices/`: the session directories, none of them twice. -/
abbrev Devices := List SessionDir

/-- The sessions in the order in which their paths are sorted. -/
def listed (devices : Devices) : Devices := devices.insertionSort fun d d' => d.name ≤ d'.name

/-- Replace the session with the name of `dir`. -/
def putSession (devices : Devices) (dir : SessionDir) : Devices :=
  devices.map fun d => if d.name = dir.name then dir else d

/-- An event, with the date and the time at which it is handled. -/
structure Contact where
  probe : ProbeData
  today : String
  now : String := ""
  deriving DecidableEq, Repr

variable (lower digest : String → String)

def Contact.fingerprint (c : Contact) : DeviceFingerprint :=
  buildFingerprint digest c.probe.manufacturer c.probe.model c.probe.serial
    (c.probe.transport.getD .unknown)

def Contact.canonicalName (c : Contact) : String :=
  canonicalSessionName lower (c.fingerprint digest) c.today

/-- `str(value or "").strip().lower()` -/
def identityText (value : Option String) : String := lower (strip (orText value ""))

/-- The session is one of the same model, or of the same code name. -/
def sameIdentity (probe : ProbeData) (profile : DeviceProfile) : Bool :=
  (identityText lower probe.manufacturer ≠ "" && identityText lower probe.model ≠ "" &&
      identityText lower profile.manufacturer = identityText lower probe.manufacturer &&
      identityText lower profile.model = identityText lower probe.model) ||
    (identityText lower probe.deviceCodename ≠ "" &&
      identityText lower (some profile.deviceCodename) = identityText lower probe.deviceCodename)

/-- The serial stands for a port that a phone was seen at. -/
def coarseSerial (serial : Option String) : Bool := startsWith (serial.getD "") "usb-"

/-- `_find_upgrade_candidate` -/
def findUpgradeCandidate (devices : Devices) (probe : ProbeData) : Option SessionDir :=
  if identityText lower probe.manufacturer = "" ∧ identityText lower probe.model = "" then none
  else (listed devices).find? fun d => sameIdentity lower probe d.profile && coarseSerial d.profile.serial

def findSession (devices : Devices) (name : String) : Option SessionDir :=
  devices.find? fun d => d.name = name

/-- The directory that `create_or_resume` finds for the event, if there is one. -/
def resumed (devices : Devices) (c : Contact) : Option SessionDir :=
  (findSession devices (c.canonicalName lower digest)).or
    (findUpgradeCandidate lower devices c.probe)

/-- The directory of a new session. Its state is the first value of the state file. -/
def newSession (c : Contact) : SessionDir :=
  let f := c.fingerprint digest
  let name := c.canonicalName lower digest
  { name
    profile :=
      { sessionId := name
        canonicalName := name
        deviceCodename := orText c.probe.deviceCodename (generateCodename lower f)
        fingerprint := f.stableKey
        manufacturer := c.probe.manufacturer
        model := c.probe.model
        serial := c.probe.serial
        androidVersion := c.probe.androidVersion
        transport := c.probe.transport.getD .unknown }
    file :=
      { current :=
          { sessionId := name
            state := .deviceAttached
            supportStatus := .researchOnly
            history :=
              [{ fromState := .idle, toState := .deviceAttached, reason := "Device detected",
                 timestamp := c.now }]
            createdAt := c.now
            updatedAt := c.now } }
    approval := { sessionId := name, updatedAt := c.now } }

/-- The code name that an event overrides. -/
def overrideCodename (profile : DeviceProfile) (codename : Option String) : DeviceProfile :=
  { profile with deviceCodename := orText codename profile.deviceCodename }

/-- `create_or_resume`: the devices afterwards and the name of the directory. -/
def createOrResume (devices : Devices) (c : Contact) : Devices × String :=
  match resumed lower digest devices c with
  | some d =>
    let profile := overrideCodename (mergeProbe d.profile c.probe) c.probe.deviceCodename
    (putSession devices { d with profile }, d.name)
  | none => (devices ++ [newSession lower digest c], c.canonicalName lower digest)

end ForgeOS.Session
