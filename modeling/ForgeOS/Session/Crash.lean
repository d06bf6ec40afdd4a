import ForgeOS.Session.Resumption

/-! `create_or_resume` on the disk, where it may be interrupted between two operations. The
profile is written in place, so an interruption may leave a beginning of it, which is no JSON
text; the state is replaced by a file that is complete. A directory is made before either. -/

namespace ForgeOS.Session

open ForgeOS.Python

/-! ### Files -/

/-- `device-profile.json`. -/
inductive ProfileFile
  | missing
  | partly
  | whole (profile : DeviceProfile)
  deriving DecidableEq, Repr

/-- A session directory, as to the files that `create_or_resume` reads or promises. -/
structure DiskDir where
  name : String
  profile : ProfileFile := .missing
  file : Option StateFile := none
  deriving DecidableEq, Repr

abbrev Disk := List DiskDir

/-- The profile and the state can be loaded. -/
def DiskDir.loadable (d : DiskDir) : Bool :=
  match d.profile, d.file with
  | .whole _, some _ => true
  | _, _ => false

/-- What an operation does in a session directory. -/
inductive FileEffect
  /-- It makes or writes another file or directory. -/
  | other (path : String)
  /-- It opens the profile to write it, or writes less than all of it. -/
  | beginProfile
  | endProfile (profile : DeviceProfile)
  | replaceState (file : StateFile)
  deriving DecidableEq, Repr

def FileEffect.apply (d : DiskDir) : FileEffect → DiskDir
  | other _ => d
  | beginProfile => { d with profile := .partly }
  | endProfile profile => { d with profile := .whole profile }
  | replaceState file => { d with file := some file }

/-- A directory that was just made. -/
def emptyDir (name : String) : DiskDir := { name }

inductive FileOp
  | mkdir (name : String)
  | inside (name : String) (effect : FileEffect)
  deriving DecidableEq, Repr

/-- Change the directory of a name. -/
def updateDir (disk : Disk) (name : String) (f : DiskDir → DiskDir) : Disk :=
  disk.map fun d => if d.name = name then f d else d

def FileOp.apply (disk : Disk) : FileOp → Disk
  | mkdir name => disk ++ [emptyDir name]
  | inside name effect => updateDir disk name fun d => effect.apply d

def runOps (disk : Disk) (ops : List FileOp) : Disk := ops.foldl FileOp.apply disk

def findDir (disk : Disk) (name : String) : Option DiskDir := disk.find? fun d => d.name = name

/-! ### Operations -/

variable (lower digest : String → String) (strategies : List String)

/-- The directories of `_seed_session_from_master`. -/
def seedDirectories : List String :=
  ["artifacts", "logs", "reports", "raw", "plans", "runtime", "codex", "connection", "codegen",
    "patches", "execution", "backup", "restore"]

/-- `write_device_profile` -/
def profileEffects (profile : DeviceProfile) : List FileEffect := [.beginProfile, .endProfile profile]

/-- A new session up to the replacement of its state file; `strategies` are the files that are
copied from the master directory. -/
def openingEffects (c : Contact) : List FileEffect :=
  (seedDirectories ++ strategies).map .other ++
    (profileEffects (newSession lower digest c).profile ++ [.other "session-state.json.tmp"])

def closingEffects : List FileEffect :=
  ["user-profile.json", "os-goals.json", "destructive-approval.json"].map .other

/-- The operations of `create_or_resume` for a device that is new. -/
def creationOps (c : Contact) : List FileOp :=
  .mkdir (c.canonicalName lower digest) ::
    (openingEffects lower digest strategies c ++
      .replaceState (newSession lower digest c).file :: closingEffects).map
        (.inside (c.canonicalName lower digest))

def profileOps (name : String) (profile : DeviceProfile) : List FileOp :=
  (profileEffects profile).map (.inside name)

/-! ### The call -/

inductive LoadError
  | fileNotFound | jsonDecode
  deriving DecidableEq, Repr

/-- `load_device_profile` -/
def DiskDir.loadProfile (d : DiskDir) : Except LoadError DeviceProfile :=
  match d.profile with
  | .missing => .error .fileNotFound
  | .partly => .error .jsonDecode
  | .whole profile => .ok profile

/-- The loop of `_find_upgrade_candidate`, over the directories that have a profile. -/
def scanUpgrade (probe : ProbeData) : List DiskDir → Except LoadError (Option DiskDir)
  | [] => .ok none
  | d :: ds =>
    match d.profile with
    | .missing => scanUpgrade probe ds
    | .partly => .error .jsonDecode
    | .whole profile =>
      if sameIdentity lower probe profile && coarseSerial profile.serial then .ok (some d)
      else scanUpgrade probe ds

def findUpgradeDir (disk : Disk) (probe : ProbeData) : Except LoadError (Option DiskDir) :=
  if identityText lower probe.manufacturer = "" ∧ identityText lower probe.model = "" then .ok none
  else scanUpgrade lower probe (disk.insertionSort fun d d' => d.name ≤ d'.name)

/-- The directory that exists for the event. -/
def foundDir (disk : Disk) (c : Contact) : Except LoadError (Option DiskDir) :=
  match findDir disk (c.canonicalName lower digest) with
  | some d => .ok (some d)
  | none => findUpgradeDir lower disk c.probe

/-- The profile of a session behind an event. -/
def resumedProfile (profile : DeviceProfile) (c : Contact) : DeviceProfile :=
  overrideCodename (mergeProbe profile c.probe) c.probe.deviceCodename

/-- `create_or_resume`: its operations, and the name of the directory it returns. -/
def contactOps (disk : Disk) (c : Contact) : Except LoadError (List FileOp × String) :=
  match foundDir lower digest disk c with
  | .error e => .error e
  | .ok (some d) =>
    d.loadProfile.map fun profile => (profileOps d.name (resumedProfile profile c), d.name)
  | .ok none => .ok (creationOps lower digest strategies c, c.canonicalName lower digest)

/-- The call succeeds, and the session it returns can be loaded. -/
def recovers (disk : Disk) (c : Contact) : Bool :=
  match contactOps lower digest strategies disk c with
  | .ok (ops, name) => (findDir (runOps disk ops) name).any DiskDir.loadable
  | .error _ => false

/-! ### Disks without interruptions -/

def SessionDir.stored (d : SessionDir) : DiskDir where
  name := d.name
  profile := .whole d.profile
  file := some d.file

def stored (devices : Devices) : Disk := devices.map SessionDir.stored

variable {lower digest strategies}

theorem findDir_stored (devices : Devices) (name : String) :
    findDir (stored devices) name = (findSession devices name).map SessionDir.stored := by
  rw [findDir, stored, List.find?_map]
  rfl

theorem scanUpgrade_stored (probe : ProbeData) (ds : List SessionDir) :
    scanUpgrade lower probe (ds.map SessionDir.stored) =
      .ok ((ds.find? fun d =>
        sameIdentity lower probe d.profile && coarseSerial d.profile.serial).map
          SessionDir.stored) := by
  induction ds with
  | nil => rfl
  | cons d ds ih =>
    rw [List.map_cons, scanUpgrade, List.find?_cons]
    simp only [SessionDir.stored]
    by_cases h : (sameIdentity lower probe d.profile && coarseSerial d.profile.serial) = true
    · rw [if_pos h, h]
      rfl
    · rw [if_neg h, Bool.eq_false_iff.mpr h]
      exact ih

theorem foundDir_stored (devices : Devices) (c : Contact) :
    foundDir lower digest (stored devices) c =
      .ok ((resumed lower digest devices c).map SessionDir.stored) := by
  rw [foundDir, findDir_stored, resumed]
  cases findSession devices (c.canonicalName lower digest) with
  | some d => rfl
  | none =>
    have hsorted : (stored devices).insertionSort (fun d d' => d.name ≤ d'.name) =
        (listed devices).map SessionDir.stored :=
      (List.map_insertionSort _ _ SessionDir.stored devices fun _ _ _ _ => Iff.rfl).symm
    rw [Option.none_or, Option.map_none, findUpgradeCandidate]
    simp only [findUpgradeDir, hsorted, scanUpgrade_stored]
    split_ifs
    · rfl
    · rfl

/-! ### Effects on one directory -/

@[simp] theorem name_apply (d : DiskDir) (e : FileEffect) : (e.apply d).name = d.name := by
  cases e <;> rfl

theorem name_foldl (d : DiskDir) (es : List FileEffect) :
    (es.foldl FileEffect.apply d).name = d.name := by
  induction es generalizing d with
  | nil => rfl
  | cons e es ih => rw [List.foldl_cons, ih, name_apply]

theorem foldl_other (d : DiskDir) (paths : List String) :
    (paths.map FileEffect.other).foldl FileEffect.apply d = d := by
  induction paths with
  | nil => rfl
  | cons path paths ih => exact ih

/-- Only its replacement makes a state file. -/
theorem file_foldl {es : List FileEffect} (h : ∀ e ∈ es, ∀ file, e ≠ .replaceState file) (d : DiskDir) :
    (es.foldl FileEffect.apply d).file = d.file := by
  induction es generalizing d with
  | nil => rfl
  | cons e es ih =>
    rw [List.foldl_cons, ih fun e he => h e (List.mem_cons_of_mem _ he)]
    cases e with
    | replaceState file => exact absurd rfl (h _ List.mem_cons_self file)
    | _ => rfl

theorem opening_ne_replaceState (c : Contact) :
    ∀ e ∈ openingEffects lower digest strategies c, ∀ file, e ≠ .replaceState file := by
  intro e he file
  rw [openingEffects, profileEffects, List.mem_append, List.mem_map] at he
  rcases he with ⟨path, -, rfl⟩ | he
  · rintro ⟨⟩
  · simp only [List.cons_append, List.nil_append, List.mem_cons, List.not_mem_nil, or_false] at he
    rcases he with rfl | rfl | rfl
    · rintro ⟨⟩
    · rintro ⟨⟩
    · rintro ⟨⟩

/-- A new session is complete behind the replacement of its state file. -/
theorem foldl_creation (c : Contact) (name : String) (k : ℕ) :
    (openingEffects lower digest strategies c ++ .replaceState (newSession lower digest c).file ::
      closingEffects.take k).foldl FileEffect.apply (emptyDir name) =
      { name, profile := .whole (newSession lower digest c).profile
        file := some (newSession lower digest c).file } := by
  rw [openingEffects, List.foldl_append, List.foldl_append, foldl_other, List.foldl_cons,
    closingEffects, ← List.map_take, foldl_other]
  rfl

/-! ### Effects on the disk -/

theorem runOps_inside (disk : Disk) (name : String) (es : List FileEffect) :
    runOps disk (es.map (.inside name)) =
      updateDir disk name fun d => es.foldl FileEffect.apply d := by
  induction es generalizing disk with
  | nil => exact (List.map_id'' (fun _ => ite_self _) disk).symm
  | cons e es ih =>
    rw [List.map_cons, runOps, List.foldl_cons, ← runOps, ih, FileOp.apply, updateDir, updateDir,
      updateDir, List.map_map]
    refine List.map_congr_left fun d _ => ?_
    by_cases h : d.name = name
    · simp [h]
    · simp [h]

theorem findDir_updateDir (disk : Disk) (name : String) {f : DiskDir → DiskDir}
    (hf : ∀ d, (f d).name = d.name) :
    findDir (updateDir disk name f) name = (findDir disk name).map f := by
  induction disk with
  | nil => rfl
  | cons d disk ih =>
    rw [findDir, findDir, updateDir, List.map_cons, List.find?_cons, List.find?_cons]
    by_cases h : d.name = name
    · simp [h, hf]
    · simp only [h, if_false]
      exact ih

/-- Operations inside a directory that was just made reach nothing else. -/
theorem runOps_mkdir {disk : Disk} {name : String} (h : findDir disk name = none)
    (es : List FileEffect) :
    runOps disk (.mkdir name :: es.map (.inside name)) =
      disk ++ [es.foldl FileEffect.apply (emptyDir name)] := by
  have hother : ∀ d ∈ disk, d.name ≠ name := by
    intro d hd hname
    exact absurd (decide_eq_true hname) (List.find?_eq_none.mp h d hd)
  have hsame : disk.map (fun d => if d.name = name then es.foldl FileEffect.apply d else d) = disk :=
    (List.map_congr_left fun d hd => if_neg (hother d hd)).trans (List.map_id disk)
  show runOps (disk ++ [emptyDir name]) _ = _
  rw [runOps_inside, updateDir, List.map_append, hsame]
  simp [emptyDir]

/-! ### Calls without interruptions -/

theorem contactOps_stored (devices : Devices) (c : Contact) :
    contactOps lower digest strategies (stored devices) c =
      .ok (match resumed lower digest devices c with
        | some d => (profileOps d.name (resumedProfile d.profile c), d.name)
        | none => (creationOps lower digest strategies c, c.canonicalName lower digest)) := by
  rw [contactOps, foundDir_stored]
  cases resumed lower digest devices c with
  | some d => rfl
  | none => rfl

theorem findDir_profileOps (disk : Disk) (name : String) (profile : DeviceProfile) :
    findDir (runOps disk (profileOps name profile)) name =
      (findDir disk name).map fun d => { d with profile := .whole profile } := by
  rw [profileOps, runOps_inside, findDir_updateDir disk name fun d => name_foldl d _]
  rfl

/-- A profile that was written is the profile of its session. -/
theorem runOps_profileOps {devices : Devices} (hnodup : (names devices).Nodup) {d : SessionDir}
    (hd : d ∈ devices) (profile : DeviceProfile) :
    runOps (stored devices) (profileOps d.name profile) =
      stored (putSession devices { d with profile }) := by
  rw [profileOps, runOps_inside, updateDir, stored, stored, putSession, List.map_map, List.map_map]
  refine List.map_congr_left fun e he => ?_
  simp only [Function.comp_apply]
  by_cases h : e.name = d.name
  · obtain rfl := List.inj_on_of_nodup_map hnodup he hd h
    simp [SessionDir.stored, profileEffects, FileEffect.apply]
  · simp [SessionDir.stored, h]

theorem take_creationOps (c : Contact) (k : ℕ) :
    (creationOps lower digest strategies c).take
        ((openingEffects lower digest strategies c).length + 2 + k) =
      .mkdir (c.canonicalName lower digest) ::
        (openingEffects lower digest strategies c ++
          .replaceState (newSession lower digest c).file :: closingEffects.take k).map
            (.inside (c.canonicalName lower digest)) := by
  have hsplit : (openingEffects lower digest strategies c).length + 2 + k =
      (openingEffects lower digest strategies c).length + (k + 1) + 1 := by omega
  rw [creationOps, hsplit, List.take_succ_cons, ← List.map_take, List.take_length_add_append,
    List.take_succ_cons]

variable (strategies) in
/-- Behind the replacement of its state file a new session is there. -/
theorem runOps_creationOps {devices : Devices} {c : Contact}
    (hnew : resumed lower digest devices c = none) (k : ℕ) :
    runOps (stored devices) ((creationOps lower digest strategies c).take
        ((openingEffects lower digest strategies c).length + 2 + k)) =
      stored (devices ++ [newSession lower digest c]) := by
  rw [resumed, Option.or_eq_none_iff] at hnew
  have hfind : findDir (stored devices) (c.canonicalName lower digest) = none := by
    rw [findDir_stored, hnew.1, Option.map_none]
  rw [take_creationOps, runOps_mkdir hfind, foldl_creation, stored, stored, List.map_append]
  rfl

/-- On a disk without interruptions the call does what `create_or_resume` does. -/
theorem contactOps_refines {devices : Devices} (hnodup : (names devices).Nodup) (c : Contact) :
    ∃ ops, contactOps lower digest strategies (stored devices) c =
        .ok (ops, (createOrResume lower digest devices c).2) ∧
      runOps (stored devices) ops = stored (createOrResume lower digest devices c).1 := by
  rw [contactOps_stored, createOrResume]
  cases hresumed : resumed lower digest devices c with
  | some d => exact ⟨_, rfl, runOps_profileOps hnodup (resumed_mem lower digest hresumed) _⟩
  | none =>
    refine ⟨_, rfl, ?_⟩
    have hrun := runOps_creationOps strategies hresumed 3
    rwa [List.take_of_length_le (by simp [creationOps, closingEffects])] at hrun

/-- Every call recovers on a disk without interruptions. -/
theorem recovers_stored (devices : Devices) (c : Contact) :
    recovers lower digest strategies (stored devices) c = true := by
  rw [recovers, contactOps_stored]
  cases hresumed : resumed lower digest devices c with
  | some d =>
    have hmem := mem_names_of_mem (resumed_mem lower digest hresumed)
    cases hfind : findSession devices d.name with
    | none => exact absurd hmem (findSession_eq_none.mp hfind)
    | some e =>
      simp only [findDir_profileOps, findDir_stored, hfind]
      rfl
  | none =>
    have hrun := runOps_creationOps strategies hresumed 3
    rw [List.take_of_length_le (by simp [creationOps, closingEffects])] at hrun
    rw [resumed, Option.or_eq_none_iff] at hresumed
    simp only [hrun, findDir_stored, findSession_append, hresumed.1]
    simp [newSession, SessionDir.stored, DiskDir.loadable]

/-! ### Interruptions -/

/-- A directory without a state file is found again, and its state cannot be loaded. -/
theorem not_recovers_of_file {disk : Disk} {c : Contact} {d : DiskDir}
    (hfind : findDir disk (c.canonicalName lower digest) = some d) (hfile : d.file = none) :
    recovers lower digest strategies disk c = false := by
  have hname : d.name = c.canonicalName lower digest := by simpa using List.find?_some hfind
  simp only [recovers, contactOps, foundDir, hfind, DiskDir.loadProfile]
  cases d.profile with
  | missing => rfl
  | partly => rfl
  | whole profile =>
    simp only [Except.map, findDir_profileOps, hname, hfind, Option.map_some, Option.any_some,
      DiskDir.loadable, hfile]

/-- A profile that is half written cannot be loaded. -/
theorem not_recovers_of_partly {disk : Disk} {c : Contact} {d : DiskDir}
    (hfind : findDir disk (c.canonicalName lower digest) = some d) (hprofile : d.profile = .partly) :
    recovers lower digest strategies disk c = false := by
  simp only [recovers, contactOps, foundDir, hfind, DiskDir.loadProfile, hprofile, Except.map]

variable (lower digest) in
/-- The sessions: their names are distinct, and each is the canonical name of some event. -/
structure SessionStore where
  devices : Devices
  distinct : (names devices).Nodup
  named : ∀ name ∈ names devices, ∃ c : Contact, name = c.canonicalName lower digest

/-- No session. -/
def SessionStore.empty : SessionStore lower digest where
  devices := []
  distinct := List.nodup_nil
  named := nofun

/-- The sessions behind `create_or_resume`. -/
def SessionStore.contact (s : SessionStore lower digest) (c : Contact) : SessionStore lower digest where
  devices := (createOrResume lower digest s.devices c).1
  distinct := nodup_afterContacts [c] s.distinct
  named name hname := by
    have hresolves : Resolves lower digest s.devices c _ _ := resolves_createOrResume s.distinct c
    rw [hresolves.names_eq] at hname
    split_ifs at hname with hknown
    · exact s.named name hname
    · rcases List.mem_append.mp hname with hname | hname
      · exact s.named name hname
      · refine ⟨c, (List.mem_singleton.mp hname).trans (hresolves.canonical_or_coarse.resolve_right ?_)⟩
        exact fun h => hknown h.2.1

/-- A call that may be interrupted: `create_or_resume`, or a write of the profile of a session. -/
inductive StoreWrite (s : SessionStore lower digest)
  | contact (c : Contact)
  | profile (d : SessionDir) (hd : d ∈ s.devices) (new : DeviceProfile)

variable {s : SessionStore lower digest}

variable (strategies) in
/-- The operations of the call. -/
def StoreWrite.ops : StoreWrite s → List FileOp
  | profile d _ new => profileOps d.name new
  | contact c =>
    match resumed lower digest s.devices c with
    | some d => profileOps d.name (resumedProfile d.profile c)
    | none => creationOps lower digest strategies c

variable (strategies) in
/-- The number of operations up to the one that ends the profile, or replaces the state file of a
new session. -/
def StoreWrite.settled : StoreWrite s → ℕ
  | profile .. => 2
  | contact c =>
    match resumed lower digest s.devices c with
    | some _ => 2
    | none => (openingEffects lower digest strategies c).length + 2

/-- A profile write is harmless when it has not begun, or has ended. -/
theorem profile_harmless_iff {d : SessionDir} (hd : d ∈ s.devices) (profile : DeviceProfile) (n : ℕ) :
    (∀ c, recovers lower digest strategies
        (runOps (stored s.devices) ((profileOps d.name profile).take n)) c = true) ↔ n = 0 ∨ 2 ≤ n := by
  match n with
  | 0 => exact iff_of_true (fun c => recovers_stored s.devices c) (.inl rfl)
  | 1 =>
    refine iff_of_false (fun h => ?_) (by decide)
    obtain ⟨c, hc⟩ := s.named d.name (mem_names_of_mem hd)
    have hops : (profileOps d.name profile).take 1 = [FileEffect.beginProfile].map (.inside d.name) := rfl
    have hfind : findDir (runOps (stored s.devices) ((profileOps d.name profile).take 1))
        (c.canonicalName lower digest) = some { d.stored with profile := .partly } := by
      rw [hops, runOps_inside, ← hc, findDir_updateDir _ _ fun d => name_foldl d _, findDir_stored,
        findSession_of_mem s.distinct hd]
      rfl
    exact absurd (h c) (by rw [not_recovers_of_partly hfind rfl]; decide)
  | n + 2 =>
    refine iff_of_true (fun c => ?_) (.inr (Nat.le_add_left 2 n))
    rw [List.take_of_length_le (Nat.le_add_left 2 n), runOps_profileOps s.distinct hd]
    exact recovers_stored _ c

/-- The creation of a session is harmless when it has not begun, or its state file is there. -/
theorem creation_harmless_iff {c : Contact} (hnew : resumed lower digest s.devices c = none) (n : ℕ) :
    (∀ c', recovers lower digest strategies
        (runOps (stored s.devices) ((creationOps lower digest strategies c).take n)) c' = true) ↔
      n = 0 ∨ (openingEffects lower digest strategies c).length + 2 ≤ n := by
  rcases Nat.eq_zero_or_pos n with rfl | hpos
  · exact iff_of_true (fun c => recovers_stored s.devices c) (.inl rfl)
  by_cases hdone : (openingEffects lower digest strategies c).length + 2 ≤ n
  · obtain ⟨k, rfl⟩ := Nat.exists_eq_add_of_le hdone
    refine iff_of_true (fun c' => ?_) (.inr hdone)
    rw [runOps_creationOps strategies hnew]
    exact recovers_stored _ c'
  · -- the directory is there, and its state file is not
    refine iff_of_false (fun h => ?_) (by omega)
    obtain ⟨m, rfl⟩ := Nat.exists_eq_add_of_lt hpos
    have hshort : m ≤ (openingEffects lower digest strategies c).length := by omega
    have htake : (creationOps lower digest strategies c).take (0 + m + 1) =
        .mkdir (c.canonicalName lower digest) ::
          ((openingEffects lower digest strategies c).take m).map
            (.inside (c.canonicalName lower digest)) := by
      rw [creationOps, List.take_succ_cons, Nat.zero_add, ← List.map_take,
        List.take_append_of_le_length hshort]
    rw [resumed, Option.or_eq_none_iff] at hnew
    have hnone : findDir (stored s.devices) (c.canonicalName lower digest) = none := by
      rw [findDir_stored, hnew.1, Option.map_none]
    have hfind : findDir (runOps (stored s.devices)
        ((creationOps lower digest strategies c).take (0 + m + 1))) (c.canonicalName lower digest) =
          some (((openingEffects lower digest strategies c).take m).foldl FileEffect.apply
            (emptyDir (c.canonicalName lower digest))) := by
      rw [htake, runOps_mkdir hnone, findDir, List.find?_append, ← findDir, hnone]
      simp [name_foldl, emptyDir]
    have hopening : ∀ e ∈ (openingEffects lower digest strategies c).take m, ∀ file,
        e ≠ .replaceState file :=
      fun e he => opening_ne_replaceState c e (List.mem_of_mem_take he)
    have hfile := file_foldl hopening (emptyDir (c.canonicalName lower digest))
    exact absurd (h c) (by rw [not_recovers_of_file hfind hfile]; decide)

/-- A phone, and another one that comes behind it. -/
def phoneContact (manufacturer model serial : String) : Contact where
  probe :=
    { manufacturer := some manufacturer, model := some model, serial := some serial
      transport := some .usbAdb }
  today := "2026-01-01"

end ForgeOS.Session
