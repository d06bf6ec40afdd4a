import ForgeOS.Session.Identity

/-! Runs of device events. A directory that exists is found again under its
canonical name, and the serial in the profile of a directory tells which events
can still come to it: those with its canonical name, or any of the same model
while the serial is a coarse one. -/

namespace ForgeOS.Session

open ForgeOS.Python

variable (lower digest : String → String)

/-- The devices after a run of events. -/
def afterContacts (devices : Devices) (cs : List Contact) : Devices :=
  cs.foldl (fun devices c => (createOrResume lower digest devices c).1) devices

/-- The directory of an event that follows a run from an empty devices directory. -/
def directoryOf (run : List Contact) (c : Contact) : String :=
  (createOrResume lower digest (afterContacts lower digest [] run) c).2

def names (devices : Devices) : List String := devices.map SessionDir.name

/-- The serial in the profile of a directory. -/
def serialOf (devices : Devices) (name : String) : Option String :=
  (findSession devices name).bind fun d => d.profile.serial

/-- A serial that names a device, not a port. -/
structure RealSerial (serial : Option String) : Prop where
  given : given serial = true
  fine : coarseSerial serial = false

theorem afterContacts_append (devices : Devices) (cs cs' : List Contact) :
    afterContacts lower digest devices (cs ++ cs') =
      afterContacts lower digest (afterContacts lower digest devices cs) cs' := List.foldl_append

/-! ### Looking up directories -/

theorem findSession_eq_none {devices : Devices} {name : String} :
    findSession devices name = none ↔ name ∉ names devices := by
  simp only [findSession, List.find?_eq_none, decide_eq_true_eq, names, List.mem_map, not_exists,
    not_and]

theorem findSession_name {devices : Devices} {name : String} {d : SessionDir}
    (h : findSession devices name = some d) : d.name = name := by
  simpa using List.find?_some h

theorem names_putSession (devices : Devices) (dir : SessionDir) :
    names (putSession devices dir) = names devices := by
  rw [names, names, putSession, List.map_map]
  refine List.map_congr_left fun d _ => ?_
  show (if d.name = dir.name then dir else d).name = d.name
  split_ifs with h
  · exact h.symm
  · rfl

theorem findSession_putSession (devices : Devices) (dir : SessionDir) (name : String) :
    findSession (putSession devices dir) name =
      if name = dir.name then (findSession devices name).map fun _ => dir
      else findSession devices name := by
  induction devices with
  | nil => simp [findSession, putSession]
  | cons d devices ih =>
    simp only [findSession, putSession, List.map_cons, List.find?_cons] at ih ⊢
    by_cases hd : d.name = dir.name
    · by_cases hname : name = dir.name
      · simp [hd, hname]
      · have hne : ¬dir.name = name := fun h => hname h.symm
        simpa [hd, hname, hne] using ih
    · by_cases hfound : d.name = name
      · have hname : ¬name = dir.name := fun h => hd (hfound.trans h)
        simp [hfound, hname]
      · simpa [hd, hfound] using ih

theorem findSession_append (devices : Devices) (d : SessionDir) (name : String) :
    findSession (devices ++ [d]) name =
      (findSession devices name).or (if d.name = name then some d else none) := by
  rw [findSession, List.find?_append, findSession]
  by_cases h : d.name = name <;> simp [h]

/-- A directory that may be adopted exists and has a coarse serial. -/
theorem findUpgradeCandidate_some {devices : Devices} {probe : ProbeData} {d : SessionDir}
    (h : findUpgradeCandidate lower devices probe = some d) :
    d ∈ devices ∧ coarseSerial d.profile.serial = true := by
  rw [findUpgradeCandidate] at h
  split_ifs at h
  have hmem := List.mem_of_find?_eq_some h
  have hcoarse := List.find?_some h
  rw [Bool.and_eq_true] at hcoarse
  exact ⟨(List.mem_insertionSort _).mp hmem, hcoarse.2⟩

theorem resumed_mem {devices : Devices} {c : Contact} {d : SessionDir}
    (h : resumed lower digest devices c = some d) : d ∈ devices := by
  rw [resumed, Option.or_eq_some_iff] at h
  rcases h with h | ⟨-, h⟩
  · exact List.mem_of_find?_eq_some h
  · exact (findUpgradeCandidate_some lower h).1

/-! ### One event -/

/-- What an event does: it comes to its canonical directory, new or not, or to one
with a coarse serial; the serial there becomes that of the event if it has one. -/
structure Resolves (devices : Devices) (c : Contact) (devices' : Devices) (name : String) : Prop where
  names_eq : names devices' =
    if name ∈ names devices then names devices else names devices ++ [name]
  serial : serialOf devices' name =
    if name ∈ names devices then mergeText (serialOf devices name) c.probe.serial
    else c.probe.serial
  other : ∀ m, m ≠ name → serialOf devices' m = serialOf devices m
  canonical_or_coarse : name = c.canonicalName lower digest ∨
    (c.canonicalName lower digest ∉ names devices ∧ name ∈ names devices ∧
      coarseSerial (serialOf devices name) = true)
  known : c.canonicalName lower digest ∈ names devices → name = c.canonicalName lower digest

variable {lower digest}

theorem mem_names_of_mem {devices : Devices} {d : SessionDir} (h : d ∈ devices) :
    d.name ∈ names devices := List.mem_map_of_mem h

/-- With no name twice, a directory is found under its name. -/
theorem findSession_of_mem {devices : Devices} (hnodup : (names devices).Nodup) {d : SessionDir}
    (h : d ∈ devices) : findSession devices d.name = some d := by
  cases hfind : findSession devices d.name with
  | none => exact absurd (mem_names_of_mem h) (findSession_eq_none.mp hfind)
  | some d' =>
    have hmem : d' ∈ devices := List.mem_of_find?_eq_some hfind
    exact congrArg some (List.inj_on_of_nodup_map hnodup hmem h (findSession_name hfind))

theorem resolves_createOrResume {devices : Devices} (hnodup : (names devices).Nodup) (c : Contact) :
    Resolves lower digest devices c (createOrResume lower digest devices c).1
      (createOrResume lower digest devices c).2 := by
  unfold createOrResume
  cases hresumed : resumed lower digest devices c with
  | some d =>
    -- the directory found is in the list under its own name
    have hfound : findSession devices d.name = some d ∧
        (d.name = c.canonicalName lower digest ∨ (c.canonicalName lower digest ∉ names devices ∧
          coarseSerial d.profile.serial = true)) := by
      rw [resumed, Option.or_eq_some_iff] at hresumed
      rcases hresumed with h | ⟨hnone, h⟩
      · have hname := findSession_name h
        exact ⟨by rw [hname]; exact h, .inl hname⟩
      · obtain ⟨hmem, hcoarse⟩ := findUpgradeCandidate_some lower h
        exact ⟨findSession_of_mem hnodup hmem, .inr ⟨findSession_eq_none.mp hnone, hcoarse⟩⟩
    obtain ⟨hfind, hcase⟩ := hfound
    have hmem : d.name ∈ names devices := by
      by_contra h
      rw [findSession_eq_none.mpr h] at hfind
      exact absurd hfind (by simp)
    dsimp only
    refine ⟨?_, ?_, fun m hm => ?_, ?_, fun hknown => ?_⟩
    · rw [if_pos hmem, names_putSession]
    · rw [if_pos hmem, serialOf, findSession_putSession, if_pos rfl, hfind, serialOf, hfind]
      rfl
    · rw [serialOf, findSession_putSession, if_neg hm, serialOf]
    · refine hcase.imp_right fun h => ⟨h.1, hmem, ?_⟩
      rw [serialOf, hfind]
      exact h.2
    · exact hcase.resolve_right fun h => h.1 hknown
  | none =>
    have hnew : c.canonicalName lower digest ∉ names devices := by
      rw [resumed, Option.or_eq_none_iff] at hresumed
      exact findSession_eq_none.mp hresumed.1
    have hname : (newSession lower digest c).name = c.canonicalName lower digest := rfl
    dsimp only
    refine ⟨?_, ?_, fun m hm => ?_, .inl rfl, fun _ => rfl⟩
    · rw [if_neg hnew, names, List.map_append]
      rfl
    · rw [if_neg hnew, serialOf, findSession_append, findSession_eq_none.mpr hnew, if_pos hname]
      rfl
    · have hne : ¬(newSession lower digest c).name = m := fun h => hm (h.symm.trans hname)
      rw [serialOf, findSession_append, if_neg hne, Option.or_none, serialOf]

/-- An event with a serial leaves it in the profile of its directory. -/
theorem Resolves.serial_eq {devices devices' : Devices} {c : Contact} {name : String}
    (h : Resolves lower digest devices c devices' name) (hgiven : given c.probe.serial = true) :
    serialOf devices' name = c.probe.serial := by
  rw [h.serial, mergeText, if_pos hgiven, ite_self]

/-! ### Runs of events -/

theorem nodup_afterContacts (cs : List Contact) {devices : Devices}
    (hnodup : (names devices).Nodup) : (names (afterContacts lower digest devices cs)).Nodup := by
  induction cs generalizing devices with
  | nil => exact hnodup
  | cons c cs ih =>
    refine ih ?_
    rw [(resolves_createOrResume hnodup c).names_eq]
    split_ifs with h
    · exact hnodup
    · exact List.nodup_append.mpr ⟨hnodup, List.nodup_singleton _, fun a ha b hb hab =>
        h (List.mem_singleton.mp hb ▸ hab ▸ ha)⟩

theorem nodup_names (run : List Contact) : (names (afterContacts lower digest [] run)).Nodup :=
  nodup_afterContacts run List.nodup_nil

variable (lower digest) in
theorem resolves_directoryOf (run : List Contact) (c : Contact) :
    Resolves lower digest (afterContacts lower digest [] run) c
      (afterContacts lower digest [] (run ++ [c])) (directoryOf lower digest run c) := by
  rw [afterContacts_append]
  exact resolves_createOrResume (nodup_names run) c

/-- A directory is never removed. -/
theorem mem_names_append {run : List Contact} {name : String}
    (h : name ∈ names (afterContacts lower digest [] run)) (cs : List Contact) :
    name ∈ names (afterContacts lower digest [] (run ++ cs)) := by
  induction cs generalizing run with
  | nil => simpa using h
  | cons c cs ih =>
    have hstep : name ∈ names (afterContacts lower digest [] (run ++ [c])) := by
      rw [(resolves_directoryOf lower digest run c).names_eq]
      split_ifs
      · exact h
      · exact List.mem_append_left _ h
    have hrest := ih hstep
    rwa [List.append_assoc, List.singleton_append] at hrest

variable (lower digest) in
theorem mem_names_directoryOf (run : List Contact) (c : Contact) :
    directoryOf lower digest run c ∈ names (afterContacts lower digest [] (run ++ [c])) := by
  rw [(resolves_directoryOf lower digest run c).names_eq]
  split_ifs with h
  · exact h
  · exact List.mem_append_right _ (List.mem_singleton_self _)

/-- An event of the run has the canonical name of `c`, but not its serial. -/
def Clash (lower digest : String → String) (run : List Contact) (c : Contact) : Prop :=
  ∃ k ∈ run, k.canonicalName lower digest = c.canonicalName lower digest ∧
    k.probe.serial ≠ c.probe.serial

instance (run : List Contact) (c : Contact) : Decidable (Clash lower digest run c) :=
  inferInstanceAs (Decidable (∃ _ ∈ run, _))

/-- The canonical directory of an event with a real serial keeps that serial. -/
theorem serialOf_canonical {run : List Contact} {c : Contact} (hreal : RealSerial c.probe.serial)
    (hclash : ¬Clash lower digest run c)
    (hmem : c.canonicalName lower digest ∈ names (afterContacts lower digest [] run)) :
    serialOf (afterContacts lower digest [] run) (c.canonicalName lower digest) = c.probe.serial := by
  induction run using List.reverseRecOn with
  | nil => exact absurd hmem List.not_mem_nil
  | append_singleton run k ih =>
    have hrest : ¬Clash lower digest run c := fun ⟨k', hk', h⟩ =>
      hclash ⟨k', List.mem_append_left _ hk', h⟩
    have hstep := resolves_directoryOf lower digest run k
    by_cases hname : directoryOf lower digest run k = c.canonicalName lower digest
    · -- the event comes to the directory: by its name, or because the serial is coarse
      rcases hstep.canonical_or_coarse with hk | ⟨-, hknown, hcoarse⟩
      · have hserial : k.probe.serial = c.probe.serial := by
          by_contra hne
          exact hclash ⟨k, List.mem_append_right _ (List.mem_singleton_self _),
            hk.symm.trans hname, hne⟩
        rw [← hname, hstep.serial_eq (by rw [hserial]; exact hreal.given), hserial]
      · rw [hname] at hknown hcoarse
        rw [ih hrest hknown, hreal.fine] at hcoarse
        exact absurd hcoarse Bool.false_ne_true
    · have hbefore : c.canonicalName lower digest ∈ names (afterContacts lower digest [] run) := by
        rw [hstep.names_eq] at hmem
        split_ifs at hmem
        · exact hmem
        · exact (List.mem_append.mp hmem).resolve_right fun h =>
            hname (List.mem_singleton.mp h).symm
      rw [hstep.other _ (Ne.symm hname), ih hrest hbefore]

/-- A serial that turns coarse was overwritten by an event with a coarse serial. -/
theorem exists_coarse {run : List Contact} {name : String} (mid : List Contact)
    (hmem : name ∈ names (afterContacts lower digest [] run))
    (hfine : coarseSerial (serialOf (afterContacts lower digest [] run) name) = false)
    (hcoarse : coarseSerial (serialOf (afterContacts lower digest [] (run ++ mid)) name) = true) :
    ∃ before k after, mid = before ++ k :: after ∧ coarseSerial k.probe.serial = true ∧
      directoryOf lower digest (run ++ before) k = name := by
  induction mid generalizing run with
  | nil =>
    rw [List.append_nil, hfine] at hcoarse
    exact absurd hcoarse Bool.false_ne_true
  | cons k mid ih =>
    by_cases hk : coarseSerial k.probe.serial = true ∧ directoryOf lower digest run k = name
    · exact ⟨[], k, mid, rfl, hk.1, by rw [List.append_nil]; exact hk.2⟩
    · have hstep := resolves_directoryOf lower digest run k
      have hfine' : coarseSerial (serialOf (afterContacts lower digest [] (run ++ [k])) name) =
          false := by
        by_cases hname : directoryOf lower digest run k = name
        · have hk' : coarseSerial k.probe.serial = false :=
            Bool.eq_false_iff.mpr fun h => hk ⟨h, hname⟩
          rw [← hname, hstep.serial, hname, if_pos hmem, mergeText]
          split_ifs
          · exact hk'
          · exact hfine
        · rw [hstep.other _ (Ne.symm hname)]
          exact hfine
      have hsplit : run ++ k :: mid = run ++ [k] ++ mid := by simp
      rw [hsplit] at hcoarse
      obtain ⟨before, k', after, rfl, hk', hdir⟩ :=
        ih (mem_names_append hmem [k]) hfine' hcoarse
      refine ⟨k :: before, k', after, rfl, hk', ?_⟩
      rwa [List.append_assoc, List.singleton_append] at hdir

/-! ### Events of one device, and of two -/

/-- The events are the same but for what they say beside the identity. -/
structure SameContact (c c' : Contact) : Prop where
  manufacturer : c'.probe.manufacturer = c.probe.manufacturer
  model : c'.probe.model = c.probe.model
  serial : c'.probe.serial = c.probe.serial
  transport : c'.probe.transport = c.probe.transport
  today : c'.today = c.today

variable (lower digest) in
theorem SameContact.canonicalName {c c' : Contact} (h : SameContact c c') :
    c'.canonicalName lower digest = c.canonicalName lower digest := by
  rw [Contact.canonicalName, Contact.canonicalName, Contact.fingerprint, Contact.fingerprint,
    h.manufacturer, h.model, h.serial, h.transport, h.today]

/-- A directory that was resolved to under its canonical name is resolved to again. -/
theorem directoryOf_same {c c' : Contact} (h : SameContact c c') (run mid : List Contact)
    (hcanonical : directoryOf lower digest run c = c.canonicalName lower digest) :
    directoryOf lower digest (run ++ c :: mid) c' = directoryOf lower digest run c := by
  have hmem := mem_names_append (mem_names_directoryOf lower digest run c) mid
  rw [hcanonical, ← h.canonicalName lower digest, List.append_assoc,
    List.singleton_append] at hmem
  rw [(resolves_directoryOf lower digest (run ++ c :: mid) c').known hmem,
    h.canonicalName lower digest, hcanonical]

/-- Events with different real serials share a directory only behind a coarse event. -/
theorem directoryOf_shared {c c' : Contact} (run mid : List Contact)
    (hreal : RealSerial c.probe.serial) (hreal' : RealSerial c'.probe.serial)
    (hne : c.probe.serial ≠ c'.probe.serial)
    (hclash : ¬Clash lower digest (run ++ c :: mid ++ [c']) c)
    (hclash' : ¬Clash lower digest (run ++ c :: mid ++ [c']) c')
    (hsame : directoryOf lower digest (run ++ c :: mid) c' = directoryOf lower digest run c) :
    ∃ before k after, mid = before ++ k :: after ∧ coarseSerial k.probe.serial = true ∧
      directoryOf lower digest (run ++ c :: before) k = directoryOf lower digest run c := by
  have hfirst := resolves_directoryOf lower digest run c
  have hsecond := resolves_directoryOf lower digest (run ++ c :: mid) c'
  have hmem := mem_names_directoryOf lower digest run c
  have hmono : ∀ {part : List Contact} {e : Contact},
      (∀ k ∈ part, k ∈ run ++ c :: mid ++ [c']) →
        ¬Clash lower digest (run ++ c :: mid ++ [c']) e → ¬Clash lower digest part e :=
    fun hsub h ⟨k, hk, heq⟩ => h ⟨k, hsub k hk, heq⟩
  have hsplit : run ++ c :: mid = run ++ [c] ++ mid := by simp
  -- the second event does not come by its canonical name, nor does the first
  rw [hsame] at hsecond
  rcases hsecond.canonical_or_coarse with hcanonical' | ⟨-, hknown', hcoarse'⟩
  · rcases hfirst.canonical_or_coarse with hcanonical | ⟨-, hknown, hcoarse⟩
    · exact absurd ⟨c, by simp, hcanonical.symm.trans hcanonical', hne⟩ hclash'
    · rw [hcanonical', serialOf_canonical hreal' (hmono (fun k hk => by simp [hk]) hclash')
        (hcanonical' ▸ hknown), hreal'.fine] at hcoarse
      exact absurd hcoarse Bool.false_ne_true
  · rcases hfirst.canonical_or_coarse with hcanonical | -
    · rw [hcanonical, serialOf_canonical hreal
        (hmono (fun k hk => List.mem_append_left _ hk) hclash)
        (hcanonical ▸ hknown'), hreal.fine] at hcoarse'
      exact absurd hcoarse' Bool.false_ne_true
    · -- both adopt it: its serial was that of the first, and is coarse before the second
      rw [hsplit] at hcoarse'
      obtain ⟨before, k, after, hmid, hk, hdir⟩ := exists_coarse mid hmem
        (by rw [hfirst.serial_eq hreal.given]; exact hreal.fine) hcoarse'
      refine ⟨before, k, after, hmid, hk, ?_⟩
      rwa [List.append_assoc, List.singleton_append] at hdir

/-- An event that comes to its canonical directory brings every later one with its
identity, transport and date there; and events with different real serials share
a directory only if in between a coarse event came to it, or if the canonical name
of one of them is that of an event with another serial. -/
theorem resume_identity (lower digest : String → String) (run mid : List Contact)
    (c c' : Contact) :
    (SameContact c c' → directoryOf lower digest run c = c.canonicalName lower digest →
      directoryOf lower digest (run ++ c :: mid) c' = directoryOf lower digest run c) ∧
    (RealSerial c.probe.serial → RealSerial c'.probe.serial → c.probe.serial ≠ c'.probe.serial →
      directoryOf lower digest (run ++ c :: mid) c' = directoryOf lower digest run c →
      (∃ before k after, mid = before ++ k :: after ∧ coarseSerial k.probe.serial = true ∧
        directoryOf lower digest (run ++ c :: before) k = directoryOf lower digest run c) ∨
      Clash lower digest (run ++ c :: mid ++ [c']) c ∨
      Clash lower digest (run ++ c :: mid ++ [c']) c') := by
  refine ⟨fun h hcanonical => directoryOf_same h run mid hcanonical, ?_⟩
  intro hreal hreal' hne hsame
  by_contra hall
  rw [not_or, not_or] at hall
  exact hall.1 (directoryOf_shared run mid hreal hreal' hne hall.2.1 hall.2.2 hsame)

/-- The digests of the devices below. -/
def knownDigest (basis : String) : String :=
  if basis = "Google|Pixel 8|ABC123|usb-adb" then
    "70daf47cb73aa3864685aaae0ac7d7aca63ca4473fd36fdb1eaab83767d21f93"
  else if basis = "Samsung|Galaxy A5|usb-04e8-6860|usb-mtp" then
    "f3be366604a654d279c9db7d4da256bad56bcca321119a393ac8cb9cc59f4c75"
  else if basis = "Samsung|Galaxy A5|52102d68fc3c240f|usb-adb" then
    "4d091a4d95c56a8012702148df4f2c14ca2a7dcf984b1937ed3064d6ba002158"
  else if basis = "Samsung|Galaxy A5|310072c1a80d1b4e|usb-adb" then
    "da6cc4f2bd26ce084c5a6ab53bb99d46016ea2abf0bbcee31cc60330563e8405"
  else ""

def pixelEvent (today : String) : Contact where
  probe := { manufacturer := some "Google", model := some "Pixel 8", serial := some "ABC123",
             transport := some .usbAdb }
  today

def galaxyEvent (serial : String) (transport : Transport) : Contact where
  probe := { manufacturer := some "Samsung", model := some "Galaxy A5", serial := some serial,
             transport := some transport }
  today := "20260101"

def galaxyPort : Contact := galaxyEvent "usb-04e8-6860" .usbMtp
def galaxyOne : Contact := galaxyEvent "52102d68fc3c240f" .usbAdb
def galaxyTwo : Contact := galaxyEvent "310072c1a80d1b4e" .usbAdb

theorem directoryOf_pixel :
    directoryOf asciiLower knownDigest [] (pixelEvent "20260101") =
      "google-pixel-8-70daf47c-20260101" := by decide

theorem directoryOf_galaxyOne :
    directoryOf asciiLower knownDigest [galaxyPort] galaxyOne =
      "samsung-galaxy-a5-f3be3666-20260101" := by decide

theorem directoryOf_galaxyTwo :
    directoryOf asciiLower knownDigest [galaxyPort, galaxyOne, galaxyPort] galaxyTwo =
      "samsung-galaxy-a5-f3be3666-20260101" := by decide

/-- The same phone is another session on the next day, and two phones are one
session if the first was seen as a mere port before the second. -/
theorem sessions_split_and_merge :
    directoryOf asciiLower knownDigest [] (pixelEvent "20260101") = "google-pixel-8-70daf47c-20260101" ∧
      directoryOf asciiLower knownDigest [pixelEvent "20260101"] (pixelEvent "20260102") =
        "google-pixel-8-70daf47c-20260102" ∧
      directoryOf asciiLower knownDigest [galaxyPort] galaxyOne =
        "samsung-galaxy-a5-f3be3666-20260101" ∧
      directoryOf asciiLower knownDigest [galaxyPort, galaxyOne, galaxyPort] galaxyTwo =
        "samsung-galaxy-a5-f3be3666-20260101" :=
  ⟨directoryOf_pixel, by decide, directoryOf_galaxyOne, directoryOf_galaxyTwo⟩

theorem resume_identity_phones :
    directoryOf asciiLower knownDigest [pixelEvent "20260101", galaxyPort] (pixelEvent "20260101") =
        "google-pixel-8-70daf47c-20260101" ∧
      ∃ before k after, [galaxyPort] = before ++ k :: after ∧ coarseSerial k.probe.serial = true ∧
        directoryOf asciiLower knownDigest ([galaxyPort] ++ galaxyOne :: before) k =
          directoryOf asciiLower knownDigest [galaxyPort] galaxyOne := by
  have hdirectory : directoryOf asciiLower knownDigest [galaxyPort, galaxyOne, galaxyPort] galaxyTwo =
      directoryOf asciiLower knownDigest [galaxyPort] galaxyOne :=
    directoryOf_galaxyTwo.trans directoryOf_galaxyOne.symm
  constructor
  · refine ((resume_identity asciiLower knownDigest [] [galaxyPort] (pixelEvent "20260101")
      (pixelEvent "20260101")).1 ⟨rfl, rfl, rfl, rfl, rfl⟩ (by decide)).trans directoryOf_pixel
  · have hclash : ∀ c ∈ [galaxyOne, galaxyTwo],
        ¬Clash asciiLower knownDigest ([galaxyPort] ++ galaxyOne :: [galaxyPort] ++ [galaxyTwo]) c := by
      decide
    rcases (resume_identity asciiLower knownDigest [galaxyPort] [galaxyPort] galaxyOne galaxyTwo).2
        ⟨by decide, by decide⟩ ⟨by decide, by decide⟩ (by decide) hdirectory with h | h | h
    · exact h
    · exact absurd h (hclash galaxyOne (by simp))
    · exact absurd h (hclash galaxyTwo (by simp))

end ForgeOS.Session
