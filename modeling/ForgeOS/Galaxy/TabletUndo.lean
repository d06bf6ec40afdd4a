import ForgeOS.Galaxy.TabletActions

/-! What a decision about a setting does to the device. Behind a cable the `settings` command of
the device carries it out; the bridge on the device itself checks each value that is put against the values that
may be proposed. Undo puts the value that was there before, which no one has chosen from a list, so
on the device itself a change is undone only if that value is one that could be proposed, or none. -/

namespace ForgeOS.Galaxy.TabletActions

variable (settingDisplay : Setting → String → String)

def Setting.values : Setting → List String
  | .screenTimeout => ["30000", "60000", "120000", "300000", "600000", "1800000"]
  | .automaticBrightness | .autoRotate | .showKeyboard => ["0", "1"]

/-! ### The device -/

/-- The settings of the device, by namespace and key. A setting that was never made has no value. -/
abbrev Settings := String → String → Option String

def Settings.set (dev : Settings) (ns key : String) (v : Option String) : Settings :=
  Function.update dev ns (Function.update (dev ns) key v)

/-- How the value of a setting is printed. -/
def printed (v : Option String) : String := v.getD "null"

/-- What a command that is sent to the device answers, and the settings behind it. -/
abbrev Command := Settings → List String → Except String String × Settings

/-- `/^(null|\d+)$/` -/
def readable (before : String) : Bool :=
  before == "null" || (before != "" && before.toList.all Char.isDigit)

/-- What the `settings` command in the shell of a device is documented to do: `get` prints the value,
`put` stores a number and `delete` removes the setting. -/
structure Documented (settings : Command) : Prop where
  get : ∀ dev ns key, settings dev ["settings", "get", ns, key] =
    (.ok (printed (dev ns key) ++ "\n"), dev)
  put : ∀ dev ns key v, readable v = true → v ≠ "null" →
    ∃ answer, settings dev ["settings", "put", ns, key, v] = (.ok answer, dev.set ns key (some v))
  delete : ∀ dev ns key, ∃ answer,
    settings dev ["settings", "delete", ns, key] = (.ok answer, dev.set ns key none)

/-- The values that the bridge puts. -/
def bridgeValues (name : String) : List String :=
  if name = "screen_off_timeout" then ["30000", "60000", "120000", "300000", "600000", "1800000"]
  else ["0", "1"]

/-- `DeviceBridge.setting` -/
def bridgeSetting (dev : Settings) (name action value : String) : Except String String × Settings :=
  let secure : Bool := name = "show_ime_with_hard_keyboard"
  let ns := if secure then "secure" else "system"
  if !secure &&
      !(["screen_off_timeout", "screen_brightness_mode", "accelerometer_rotation"].contains name) then
    (.error "Unsupported setting.", dev)
  else if !(["get", "put", "delete"].contains action) then (.error "Unsupported setting action.", dev)
  else if action = "put" ∧ value ∉ bridgeValues name then
    (.error "Unsupported setting value.", dev)
  else if action = "get" then (.ok (printed (dev ns name)), dev)
  else
    let next := if action = "delete" then none else some value
    (.ok (printed next), dev.set ns name next)

/-- `nativeShell` on a `settings` command, which passes the namespace over. A field that is not
defined is not sent, and the bridge reads a missing value as an empty one. -/
def nativeShell : Command
  | dev, "settings" :: action :: _ :: name :: rest =>
    bridgeSetting dev name action (rest.head?.getD "")
  | dev, _ => (.error "Unsupported on-device operation.", dev)

inductive Transport
  | adb
  | bridge
  deriving DecidableEq, Repr

variable (settings : Command)

/-- `Tablet.shell` -/
def shell (tr : Transport) (dev : Settings) (args : List String) : Except String String × Settings :=
  match tr with
  | .adb =>
    let answer := settings dev args
    (answer.1.map trim, answer.2)
  | .bridge => nativeShell dev args

/-- The words of the command that reads the setting. -/
def readCommand (setting : Setting) : List String :=
  ["settings", "get", setting.namespace, setting.key]

/-! ### Proposals -/

inductive Proposed
  | alreadySet
  | existing (id : String)
  | created
  deriving DecidableEq, Repr

/-- What a worker asks for. -/
structure ProposalInput where
  setting : Option Setting
  value : Js
  reason : Js
  deriving DecidableEq, Repr

/-- An open proposal of the same change. -/
def sameProposal (a : TabletAction) (serial : String) (setting : Setting) (before value : String)
    (now : ℕ) : Bool :=
  a.setting = setting && a.status = .proposed && a.beforeValue = before && a.afterValue = value &&
    a.serial = serial && now < a.createdAt + proposalTime

/-- The setting, the value and the reason, each checked in turn. -/
def ProposalInput.check (input : ProposalInput) : Except String (Setting × String × String) :=
  match input.setting with
  | none => .error "That setting is not supported here."
  | some setting =>
    match input.value with
    | .string value =>
      if value ∉ setting.values then .error "Choose a supported value for that setting."
      else
        match input.reason with
        | .string reason =>
          if trim reason = "" ∨ 400 < utf16Length reason then .error "Explain this change briefly."
          else .ok (setting, value, reason)
        | _ => .error "Explain this change briefly."
    | _ => .error "Choose a supported value for that setting."

/-- `Tablet.propose` in a conversation, with the identifiers of its actions so far and a new one.
The request has not been stopped meanwhile. -/
def propose (redact : String → String) (tr : Transport) (dev : Settings)
    (conversationId serial id : String) (ids : List String) (input : ProposalInput) (now : ℕ)
    (s : Shared) : Except String (Proposed × Shared) :=
  if !s.system conversationId then .error "Tablet controls belong to the System workspace."
  else do
    let (setting, value, reason) ← input.check
    let before ← (shell settings tr dev (readCommand setting)).1
    if !readable before then .error "The current setting could not be read reliably."
    else if before = value then .ok (.alreadySet, s)
    else
      match ids.find? fun i => (s.actions i).any (sameProposal · serial setting before value now) with
      | some i => .ok (.existing i, s)
      | none =>
        .ok (.created,
          { s with
            actions := Function.update s.actions id (some
              { conversationId, serial, setting, beforeValue := before, afterValue := value
                reason := redact reason, status := .proposed, createdAt := now, result := "" }) })

/-! ### A decision and the device -/

/-- What the device answers to what a handler waits for. It is connected. -/
def serve (tr : Transport) (dev : Settings) : Task → Input × Settings
  | .connecting _ _ _ => (.connected (.ok ()), dev)
  | .reading _ a _ | .verifying _ a _ =>
    let answer := shell settings tr dev (readCommand a.setting)
    (.value answer.1, answer.2)
  | .writing _ a d =>
    let answer := shell settings tr dev (writeCommand a d)
    (.written (answer.1.map fun _ => ()), answer.2)
  | .body _ | .answered _ _ => (.turn, dev)

/-- The handlers go on, one stretch after the other, until none waits or `n` stretches are over. -/
def drive (tr : Transport) : ℕ → List Task → Shared → Settings → Shared × Settings
  | 0, _, s, dev => (s, dev)
  | _ + 1, [], s, dev => (s, dev)
  | n + 1, t :: ts, s, dev =>
    let answer := serve settings tr dev t
    let next := resume settingDisplay t answer.1 s
    drive tr n (next.2 ++ ts) next.1 answer.2

/-- `Tablet.decide` to its end: it connects, reads, writes, reads again and answers. -/
def decideOn (tr : Transport) (id : String) (d : Decision) (now : ℕ) (s : Shared) (dev : Settings) :
    Shared × Settings :=
  drive settingDisplay settings tr 5 (decide id d now s).2 (decide id d now s).1 dev

/-! ### What the device answers -/

/-- No character of the text is white space. -/
def Plain (v : String) : Prop := ∀ c ∈ v.toList, isWhiteSpace c = false

theorem dropWhile_plain {l : List Char} (h : ∀ c ∈ l, isWhiteSpace c = false) (m : List Char)
    (hne : l ≠ []) : (l ++ m).dropWhile isWhiteSpace = l ++ m := by
  cases l with
  | nil => exact absurd rfl hne
  | cons c cs =>
    rw [List.cons_append, List.dropWhile_cons_of_neg]
    simp [h c List.mem_cons_self]

theorem Plain.trim_newline {v : String} (h : Plain v) : trim (v ++ "\n") = v := by
  by_cases hv : v.toList = []
  · have hempty : v = "" := by simpa using hv
    rw [hempty]
    rfl
  · have hback : v.toList.reverse.dropWhile isWhiteSpace = v.toList.reverse := by
      have hdrop := dropWhile_plain (fun c hc => h c (List.mem_reverse.mp hc)) []
        (mt List.reverse_eq_nil_iff.mp hv)
      rwa [List.append_nil] at hdrop
    have hnewline : isWhiteSpace '\n' = true := rfl
    simp [trim, dropWhile_plain h _ hv, hnewline, hback]

theorem plain_of_isDigit {c : Char} (h : c.isDigit = true) : isWhiteSpace c = false := by
  simp only [Char.isDigit, Bool.and_eq_true, decide_eq_true_eq, ge_iff_le, UInt32.le_iff_toNat_le]
    at h
  change 48 ≤ c.toNat ∧ c.toNat ≤ 57 at h
  simp only [isWhiteSpace, Bool.or_eq_false_iff, Bool.and_eq_false_iff, decide_eq_false_iff_not,
    beq_eq_false_iff_ne]
  omega

theorem plain_of_readable {v : String} (h : readable v = true) : Plain v := by
  rw [readable, Bool.or_eq_true, Bool.and_eq_true, beq_iff_eq, List.all_eq_true] at h
  rcases h with rfl | ⟨-, hdigits⟩
  · simp [Plain, isWhiteSpace]
  · exact fun c hc => plain_of_isDigit (hdigits c hc)

theorem readable_of_mem_values {setting : Setting} {v : String} (h : v ∈ setting.values) :
    readable v = true := by
  have hall : ∀ setting : Setting, ∀ v ∈ setting.values, readable v = true := by
    intro setting
    cases setting <;> decide
  exact hall setting v h

/-- What is read of a setting. -/
def reading (tr : Transport) (dev : Settings) (setting : Setting) : String :=
  match tr with
  | .adb => trim (printed (dev setting.namespace setting.key) ++ "\n")
  | .bridge => printed (dev setting.namespace setting.key)

/-- What is stored for a value that is written. -/
def stored (v : String) : Option String := if v = "null" then none else some v

/-- The device takes the value. -/
def Takes (tr : Transport) (setting : Setting) (v : String) : Prop :=
  tr = .adb ∨ v = "null" ∨ v ∈ setting.values

instance (tr : Transport) (setting : Setting) (v : String) : Decidable (Takes tr setting v) := by
  unfold Takes
  infer_instance

theorem bridgeValues_key (setting : Setting) : bridgeValues setting.key = setting.values := by
  cases setting <;> rfl

variable {settings} (hsettings : Documented settings)

include hsettings in
theorem shell_read (tr : Transport) (dev : Settings) (setting : Setting) :
    shell settings tr dev (readCommand setting) = (.ok (reading tr dev setting), dev) := by
  cases tr with
  | adb =>
    rw [shell, readCommand, hsettings.get]
    rfl
  | bridge => cases setting <;> rfl

theorem bridgeSetting_put (dev : Settings) {setting : Setting} {v : String} (h : v ∈ setting.values) :
    bridgeSetting dev setting.key "put" v =
      (.ok v, dev.set setting.namespace setting.key (some v)) := by
  rw [← bridgeValues_key] at h
  cases setting <;> simp only [Setting.key] at h <;>
    simp [bridgeSetting, Setting.key, Setting.namespace, printed, h]

theorem bridgeSetting_refused (dev : Settings) {setting : Setting} {v : String}
    (h : v ∉ setting.values) :
    bridgeSetting dev setting.key "put" v = (.error "Unsupported setting value.", dev) := by
  rw [← bridgeValues_key] at h
  cases setting <;> simp only [Setting.key] at h <;> simp [bridgeSetting, Setting.key, h]

include hsettings in
/-- A value that is taken is stored. -/
theorem shell_write {tr : Transport} {a : TabletAction} {d : Decision} (dev : Settings)
    (h : Takes tr a.setting (a.desired d)) (hreadable : readable (a.desired d) = true) :
    ∃ answer, shell settings tr dev (writeCommand a d) =
      (.ok answer, dev.set a.setting.namespace a.setting.key (stored (a.desired d))) := by
  unfold writeCommand stored
  split_ifs with hnull
  · cases tr with
    | adb =>
      obtain ⟨answer, hdelete⟩ := hsettings.delete dev a.setting.namespace a.setting.key
      exact ⟨trim answer, by rw [shell, hdelete]; rfl⟩
    | bridge => cases a.setting <;> exact ⟨_, rfl⟩
  · cases tr with
    | adb =>
      obtain ⟨answer, hput⟩ :=
        hsettings.put dev a.setting.namespace a.setting.key _ hreadable hnull
      exact ⟨trim answer, by rw [shell, hput]; rfl⟩
    | bridge =>
      have hmem : a.desired d ∈ a.setting.values := (h.resolve_left (by simp)).resolve_left hnull
      exact ⟨_, bridgeSetting_put dev hmem⟩

/-- A value that is not taken leaves the device as it is. -/
theorem shell_refused {tr : Transport} {a : TabletAction} {d : Decision} (dev : Settings)
    (h : ¬Takes tr a.setting (a.desired d)) :
    shell settings tr dev (writeCommand a d) = (.error "Unsupported setting value.", dev) := by
  simp only [Takes, not_or] at h
  obtain ⟨htr, hnull, hmem⟩ := h
  rw [writeCommand, if_neg hnull]
  cases tr with
  | adb => exact absurd rfl htr
  | bridge => exact bridgeSetting_refused dev hmem

@[simp] theorem printed_stored (v : String) : printed (stored v) = v := by
  by_cases h : v = "null"
  · rw [stored, if_pos h, h]
    rfl
  · rw [stored, if_neg h]
    rfl

/-- A value without white space is read as it was written. -/
theorem reading_set (tr : Transport) (dev : Settings) (setting : Setting) {v : String} (h : Plain v) :
    reading tr (dev.set setting.namespace setting.key (stored v)) setting = v := by
  cases tr <;> simp [reading, Settings.set, h.trim_newline]

/-! ### How a decision ends -/

/-- The decision about the action is taken up. -/
structure TakenUp (s : Shared) (id : String) (a : TabletAction) (d : Decision) (now : ℕ) : Prop where
  row : s.actions id = some a
  system : s.system a.conversationId = true
  idle : s.changing = false
  from_eq : a.status = d.from
  not_decline : d ≠ .decline
  in_time : d = .apply → now ≤ a.createdAt + proposalTime

theorem Decision.from_ne_done (d : Decision) : d.from ≠ d.done := by
  cases d <;> simp [Decision.from, Decision.done]

theorem TakenUp.decide_eq {s : Shared} {id : String} {a : TabletAction} {d : Decision} {now : ℕ}
    (h : TakenUp s id a d now) :
    decide id d now s = ({ s with changing := true }, [.connecting id a d]) := by
  have htime : ¬(d = .apply ∧ a.createdAt + proposalTime < now) := by
    rintro ⟨hd, hlate⟩
    have hle := h.in_time hd
    omega
  simp [decide, h.row, h.system, h.idle, h.from_eq, d.from_ne_done, h.not_decline, htime]

variable {settingDisplay} {tr : Transport} {id : String} {d : Decision} {now : ℕ} {s : Shared}
  {dev : Settings} {a : TabletAction}

include hsettings in
theorem TakenUp.decideOn_stale (h : TakenUp s id a d now)
    (hread : reading tr dev a.setting ≠ a.expected d) :
    ∃ result, (decideOn settingDisplay settings tr id d now s dev).1.actions id =
      some { a with status := .stale, result } := by
  rw [decideOn, h.decide_eq]
  simp [drive, serve, resume, shell_read hsettings, compared, hread, abandoned, Shared.update, Shared.reply,
    h.row]

include hsettings in
/-- A value that the device does not take is not known to be written. -/
theorem TakenUp.decideOn_refused (h : TakenUp s id a d now)
    (hread : reading tr dev a.setting = a.expected d) (htakes : ¬Takes tr a.setting (a.desired d)) :
    ∃ result, (decideOn settingDisplay settings tr id d now s dev).1.actions id =
      some { a with status := .uncertain, result } := by
  rw [decideOn, h.decide_eq]
  simp [drive, serve, resume, shell_read hsettings, shell_refused dev htakes, compared, hread, abandoned,
    unconfirmed, Shared.update, Shared.reply, h.row, Except.map]

include hsettings in
/-- A value that the device takes is there afterwards, and the decision is done. -/
theorem TakenUp.decideOn_done (h : TakenUp s id a d now)
    (hread : reading tr dev a.setting = a.expected d) (htakes : Takes tr a.setting (a.desired d))
    (hreadable : readable (a.desired d) = true) :
    (∃ result, (decideOn settingDisplay settings tr id d now s dev).1.actions id =
        some { a with status := d.done, result }) ∧
      (decideOn settingDisplay settings tr id d now s dev).2 =
        dev.set a.setting.namespace a.setting.key (stored (a.desired d)) := by
  obtain ⟨answer, hwrite⟩ := shell_write hsettings dev htakes hreadable
  rw [decideOn, h.decide_eq]
  simp [drive, serve, resume, shell_read hsettings, hwrite, compared, hread, verified,
    reading_set tr dev _ (plain_of_readable hreadable), Shared.update, Shared.reply, h.row, Except.map]

/-- A proposal that ends applied has been taken up. -/
theorem takenUp_of_applied (hrow : s.actions id = some a) (hstatus : a.status = .proposed)
    (happlied : ((decideOn settingDisplay settings tr id .apply now s dev).1.actions id).map (·.status) =
      some .applied) : TakenUp s id a .apply now := by
  rw [decideOn, decide, hrow] at happlied
  dsimp only at happlied
  split_ifs at happlied with hsystem hchanging hdone hfrom hdecline hexpired
  · simp [drive, serve, resume, Shared.reply, hrow, hstatus] at happlied
  · simp [drive, serve, resume, Shared.reply, hrow, hstatus] at happlied
  · rw [hstatus] at hdone
    cases hdone
  · exact absurd hstatus hfrom
  · cases hdecline
  · simp [drive, serve, resume, Shared.reply, Shared.update, hrow] at happlied
  · refine ⟨hrow, by simpa using hsystem, by simpa using hchanging, hstatus, by simp, fun _ => ?_⟩
    by_contra hlate
    exact hexpired ⟨rfl, by omega⟩

theorem check_spec {input : ProposalInput} {setting : Setting} {value reason : String}
    (h : input.check = .ok (setting, value, reason)) : value ∈ setting.values := by
  unfold ProposalInput.check at h
  split at h
  · cases h
  · split at h
    · split_ifs at h with hvalue
      split at h
      · split_ifs at h
        cases h
        exact hvalue
      · cases h
    · cases h

include hsettings in
/-- A new proposal is for a supported value, and the value before it was read reliably. -/
theorem propose_spec {redact : String → String} {conversationId serial : String} {ids : List String}
    {input : ProposalInput} {s' : Shared}
    (h : propose settings redact tr dev conversationId serial id ids input now s = .ok (.created, s')) :
    ∃ a, s'.actions id = some a ∧ a.status = .proposed ∧ readable a.beforeValue = true ∧
      a.afterValue ∈ a.setting.values := by
  unfold propose at h
  split_ifs at h
  cases hcheck : input.check with
  | error m =>
    rw [hcheck] at h
    cases h
  | ok checked =>
    obtain ⟨setting, value, reason⟩ := checked
    rw [hcheck] at h
    simp only [bind, Except.bind, shell_read hsettings] at h
    split_ifs at h with hreadable hsame
    · cases h
    split at h
    · cases h
    · cases h
      refine ⟨_, Function.update_self _ _ _, rfl, ?_, check_spec hcheck⟩
      simpa using hreadable

/-! ### Undo -/

/-- A change that was proposed and applied, on a device that changes nothing by itself, is undone and
its setting has its value from before again exactly when the device takes that value: behind a cable
always, on the device itself if it is no value at all or one that could be proposed. -/
theorem undo_restores_iff {settings : Command} (hsettings : Documented settings)
    (settingDisplay : Setting → String → String) (redact : String → String) {tr : Transport}
    {conversationId serial id : String} {ids : List String} {input : ProposalInput}
    {s s₀ s₁ s₂ : Shared} {dev dev₁ dev₂ : Settings} {now now₁ now₂ : ℕ} {a : TabletAction}
    (hpropose : propose settings redact tr dev conversationId serial id ids input now s =
      .ok (.created, s₀))
    (ha : s₀.actions id = some a) (hopen : s₁.actions id = some a)
    (happlied : ((decideOn settingDisplay settings tr id .apply now₁ s₁ dev₁).1.actions id).map
      (·.status) = some .applied)
    (hkept : s₂.actions id =
      (decideOn settingDisplay settings tr id .apply now₁ s₁ dev₁).1.actions id)
    (hidle : s₂.changing = false) (hsystem : s₂.system = s₁.system)
    (hdev : reading tr dev₂ a.setting =
      reading tr (decideOn settingDisplay settings tr id .apply now₁ s₁ dev₁).2 a.setting) :
    (((decideOn settingDisplay settings tr id .undo now₂ s₂ dev₂).1.actions id).map (·.status) =
          some .undone ∧
        reading tr (decideOn settingDisplay settings tr id .undo now₂ s₂ dev₂).2 a.setting =
          reading tr dev₁ a.setting) ↔
      Takes tr a.setting a.beforeValue := by
  obtain ⟨a', ha', hstatus, hreadable, hvalues⟩ := propose_spec hsettings hpropose
  cases Option.some.inj (ha.symm.trans ha')
  have hup := takenUp_of_applied hopen hstatus happlied
  have hafter : readable (a.desired .apply) = true := readable_of_mem_values hvalues
  -- it was applied, so the value before it was found and the new one was taken
  have hread : reading tr dev₁ a.setting = a.expected .apply := by
    by_contra hread
    obtain ⟨result, hrow⟩ := hup.decideOn_stale hsettings hread
    rw [hrow] at happlied
    cases happlied
  have htakes : Takes tr a.setting (a.desired .apply) := by
    by_contra htakes
    obtain ⟨result, hrow⟩ := hup.decideOn_refused hsettings hread htakes
    rw [hrow] at happlied
    cases happlied
  obtain ⟨⟨result, hrow⟩, hset⟩ := hup.decideOn_done hsettings hread htakes hafter
  let applied : TabletAction := { a with status := .applied, result }
  have hundo : TakenUp s₂ id applied .undo now₂ :=
    { row := hkept.trans hrow
      system := by rw [hsystem]; exact hup.system
      idle := hidle
      from_eq := rfl
      not_decline := by simp
      in_time := by simp }
  have hread' : reading tr dev₂ applied.setting = applied.expected .undo := by
    rw [hset, reading_set tr dev₁ a.setting (plain_of_readable hafter)] at hdev
    exact hdev
  constructor
  · rintro ⟨hundone, -⟩
    by_contra hrefused
    obtain ⟨result', hrow'⟩ := hundo.decideOn_refused hsettings hread' hrefused
    rw [hrow'] at hundone
    cases hundone
  · intro htakes'
    obtain ⟨⟨result', hrow'⟩, hset'⟩ := hundo.decideOn_done hsettings hread' htakes' hreadable
    refine ⟨by rw [hrow']; rfl, ?_⟩
    rw [hset', hread]
    exact reading_set tr dev₂ a.setting (plain_of_readable hreadable)

/-- The `settings` command of a device that stores whatever it is given. -/
def storing : Command
  | dev, ["settings", "get", ns, key] => (.ok (printed (dev ns key) ++ "\n"), dev)
  | dev, ["settings", "put", ns, key, v] => (.ok "", dev.set ns key (some v))
  | dev, ["settings", "delete", ns, key] => (.ok "Deleted 1 rows\n", dev.set ns key none)
  | dev, _ => (.error "Command failed.", dev)

theorem documented_storing : Documented storing where
  get _ _ _ := rfl
  put _ _ _ _ _ _ := ⟨"", rfl⟩
  delete _ _ _ := ⟨"Deleted 1 rows\n", rfl⟩

/-- A device on which only the screen timeout was ever set. -/
def timeoutSettings (before : String) : Settings := fun ns key =>
  if ns = "system" ∧ key = "screen_off_timeout" then some before else none

def longerTimeout : ProposalInput where
  setting := some .screenTimeout
  value := .string "600000"
  reason := .string "Keep the screen on while reading notes."

/-- The action that is proposed for it. -/
def timeoutAction (before : String) : TabletAction where
  conversationId := "c1"
  serial := "native"
  setting := .screenTimeout
  beforeValue := before
  afterValue := "600000"
  reason := "Keep the screen on while reading notes."
  status := .proposed
  createdAt := 1000
  result := ""

def beforeProposal : Shared := (initial (fun _ => none) fun _ => true).shared

def afterProposal (before : String) : Shared :=
  { beforeProposal with
    actions := Function.update beforeProposal.actions "a1" (some (timeoutAction before)) }

/-- What a decision about it leaves on the device itself. -/
def timeoutDecision (d : Decision) (state : Shared × Settings) : Shared × Settings :=
  decideOn (fun _ v => v) storing .bridge "a1" d 2000 state.1 state.2

theorem undo_restores_bridge :
    let applied := timeoutDecision .apply (afterProposal "30000", timeoutSettings "30000")
    let undone := timeoutDecision .undo applied
    (undone.1.actions "a1").map (·.status) = some .undone ∧
      reading .bridge undone.2 .screenTimeout = "30000" := by
  intro applied undone
  have hpropose : propose storing (fun reason => reason) .bridge (timeoutSettings "30000") "c1"
      "native" "a1" [] longerTimeout 1000 beforeProposal = .ok (.created, afterProposal "30000") := rfl
  have happlied : (applied.1.actions "a1").map (·.status) = some .applied := by decide
  exact (undo_restores_iff documented_storing (fun _ v => v) (fun reason => reason) hpropose rfl rfl
    happlied rfl rfl rfl rfl).mpr (.inr (.inr (by decide)))

/-- The screen went off after fifteen seconds, which Galaxy does not offer. The change is applied, and
its undo ends uncertain with the new value still in place. -/
theorem undo_refused_bridge :
    let applied := timeoutDecision .apply (afterProposal "15000", timeoutSettings "15000")
    let undone := timeoutDecision .undo applied
    propose storing (fun reason => reason) .bridge (timeoutSettings "15000") "c1" "native" "a1" []
        longerTimeout 1000 beforeProposal = .ok (.created, afterProposal "15000") ∧
      (applied.1.actions "a1").map (·.status) = some .applied ∧
      (undone.1.actions "a1").map (·.status) = some .uncertain ∧
      reading .bridge undone.2 .screenTimeout = "600000" :=
  ⟨rfl, by decide, by decide, by decide⟩

end ForgeOS.Galaxy.TabletActions
