import Mathlib.Data.List.Count
import Mathlib.Logic.Function.Basic
import ForgeOS.Galaxy.Requests
import ForgeOS.Library.Interleaving

/-! Changes of a tablet setting that the user decides about. A decision waits for the connection,
for a reading of the setting, for the write and for a second reading; the status of the action says
how far it has come, in a table that survives a restart of the server. -/

namespace ForgeOS.Galaxy.TabletActions

open ForgeOS.Library.Interleaving

/-! ### Actions -/

inductive Status
  | proposed
  | declined
  | stale
  | applying
  | applied
  | undoing
  | undone
  | uncertain
  deriving DecidableEq, Repr

inductive Setting
  | screenTimeout
  | automaticBrightness
  | autoRotate
  | showKeyboard
  deriving DecidableEq, Repr

def Setting.label : Setting → String
  | .screenTimeout => "Screen timeout"
  | .automaticBrightness => "Automatic brightness"
  | .autoRotate => "Auto rotate"
  | .showKeyboard => "On-screen keyboard with physical keyboard"

def Setting.namespace : Setting → String
  | .screenTimeout | .automaticBrightness | .autoRotate => "system"
  | .showKeyboard => "secure"

def Setting.key : Setting → String
  | .screenTimeout => "screen_off_timeout"
  | .automaticBrightness => "screen_brightness_mode"
  | .autoRotate => "accelerometer_rotation"
  | .showKeyboard => "show_ime_with_hard_keyboard"

structure TabletAction where
  conversationId : String
  serial : String
  setting : Setting
  beforeValue : String
  afterValue : String
  reason : String
  status : Status
  createdAt : ℕ
  result : String
  deriving DecidableEq, Repr

inductive Decision
  | apply
  | decline
  | undo
  deriving DecidableEq, Repr

def Decision.read : Js → Option Decision
  | .string "apply" => some .apply
  | .string "decline" => some .decline
  | .string "undo" => some .undo
  | _ => none

/-- The status in which a decision of this kind is taken up. -/
def Decision.from : Decision → Status
  | .undo => .applied
  | .apply | .decline => .proposed

/-- The status that says that the decision has been carried out. -/
def Decision.done : Decision → Status
  | .apply => .applied
  | .undo => .undone
  | .decline => .declined

/-- The status while the device is written to. -/
def Decision.during : Decision → Status
  | .undo => .undoing
  | .apply | .decline => .applying

def TabletAction.expected (a : TabletAction) : Decision → String
  | .undo => a.afterValue
  | .apply | .decline => a.beforeValue

def TabletAction.desired (a : TabletAction) : Decision → String
  | .undo => a.beforeValue
  | .apply | .decline => a.afterValue

/-- The words of the command that changes the setting. -/
def writeCommand (a : TabletAction) (d : Decision) : List String :=
  if a.desired d = "null" then ["settings", "delete", a.setting.namespace, a.setting.key]
  else ["settings", "put", a.setting.namespace, a.setting.key, a.desired d]

/-! ### State -/

/-- A write that was sent to the device, with the value that had just been read from it. -/
structure Write where
  id : String
  decision : Decision
  found : String
  serial : String
  command : List String
  deriving DecidableEq, Repr

/-- The table of actions, the two flags in memory (`changing` and the lock `tablet-change`), whether
a conversation has an active worker and which conversations belong to the System workspace; the
answers and the device writes so far. -/
structure Shared where
  actions : String → Option TabletAction
  changing : Bool
  locked : Bool
  active : Bool
  system : String → Bool
  replies : List (String × Except String TabletAction)
  writes : List Write

inductive Task
  | body (id : String)
  | connecting (id : String) (a : TabletAction) (d : Decision)
  | reading (id : String) (a : TabletAction) (d : Decision)
  | writing (id : String) (a : TabletAction) (d : Decision)
  | verifying (id : String) (a : TabletAction) (d : Decision)
  | answered (id : String) (answer : Except String TabletAction)

inductive Input
  | body (data : Except String Js) (now : ℕ)
  | connected (answer : Except String Unit)
  | value (answer : Except String String)
  | written (answer : Except String Unit)
  | turn

/-- Besides decisions there are new proposals, and workers begin and end. -/
inductive Request
  | decide (id : String)
  | propose (id : String) (a : TabletAction)
  | worker (active : Bool)

def Shared.update (s : Shared) (id : String) (status : Status) (result : String) : Shared :=
  { s with
    actions := Function.update s.actions id
      ((s.actions id).map ({ · with status := status, result := result })) }

def Shared.reply (s : Shared) (id : String) (answer : Except String TabletAction) : Shared :=
  { s with replies := s.replies ++ [(id, answer)] }

/-- The row that a decision answers with. -/
def Shared.row (s : Shared) (id : String) : Except String TabletAction :=
  match s.actions id with
  | some a => .ok a
  | none => .error "Change not found."

/-! ### Decisions -/

-- how a value is shown; the formatting of numbers is left out
variable (settingDisplay : Setting → String → String)

/-- `15 * 60_000` -/
def proposalTime : ℕ := 900000

/-- `decide` up to its first wait. -/
def decide (id : String) (d : Decision) (now : ℕ) (s : Shared) : Shared × List Task :=
  match s.actions id with
  | none => (s, [.answered id (.error "Change not found.")])
  | some a =>
    if !s.system a.conversationId then
      (s, [.answered id (.error "Tablet controls belong to the System workspace.")])
    else if s.changing then
      (s, [.answered id (.error "Another tablet change is still being checked.")])
    else if a.status = d.done then (s, [.answered id (.ok a)])
    else if a.status ≠ d.from then
      (s, [.answered id (.error
        "This change cannot be submitted again. Check the tablet and request a fresh proposal if needed.")])
    else if d = .decline then
      let declined := s.update id .declined "Left the tablet setting unchanged."
      (declined, [.answered id (declined.row id)])
    else if d = .apply ∧ a.createdAt + proposalTime < now then
      (s.update id .stale "This proposal expired. Ask for a fresh check.",
        [.answered id (.error "This proposal expired. Ask for a fresh check.")])
    else ({ s with changing := true }, [.connecting id a d])

/-- The decision ends without having written. -/
def abandoned (id message : String) (s : Shared) : Shared × List Task :=
  ({ s with changing := false }, [.answered id (.error message)])

/-- The decision ends after it has written, and its outcome is not known. -/
def unconfirmed (id message : String) (s : Shared) : Shared × List Task :=
  abandoned id message (s.update id .uncertain
    "The result could not be confirmed. Check the tablet before requesting another change; this action will not be retried.")

/-- The setting has been read: the write is sent, or the action is stale. -/
def compared (id : String) (a : TabletAction) (d : Decision) (current : String) (s : Shared) :
    Shared × List Task :=
  if current ≠ a.expected d then
    abandoned id "The tablet setting changed. Ask for a fresh proposal."
      (s.update id .stale
        "The setting changed since this proposal. Nothing was overwritten; ask for a fresh check.")
  else
    let marked := s.update id d.during ("Checking " ++ a.setting.label ++ " change…")
    ({ marked with writes := s.writes ++ [⟨id, d, current, a.serial, writeCommand a d⟩] },
      [.writing id a d])

/-- The setting has been read again after the write. -/
def verified (id : String) (a : TabletAction) (d : Decision) (actual : String) (s : Shared) :
    Shared × List Task :=
  if actual ≠ a.desired d then unconfirmed id "Android did not confirm the requested value." s
  else
    let confirmed := s.update id d.done
      (a.setting.label ++ " " ++ (if d = .undo then "restored to" else "verified as") ++ " " ++
        settingDisplay a.setting actual ++ ".")
    ({ confirmed with changing := false }, [.answered id (confirmed.row id)])

/-! ### The server -/

def busyMessage : String := "Let the current request finish before changing a tablet setting."

def enter : Request → Shared → Shared × List Task
  | .decide id, s =>
    if s.active || s.locked then (s.reply id (.error busyMessage), []) else (s, [.body id])
  | .propose id a, s =>
    -- the identifier is new: it is the primary key
    if (s.actions id).isSome then (s, [])
    else
      ({ s with actions := Function.update s.actions id (some { a with status := .proposed }) }, [])
  | .worker active, s => ({ s with active := active }, [])

/-- The route after its body: it looks at the worker and the lock once more and takes the lock. -/
def received (id : String) (decision : Js) (now : ℕ) (s : Shared) : Shared × List Task :=
  if s.active || s.locked then (s.reply id (.error busyMessage), [])
  else
    match Decision.read decision with
    | none =>
      ({ s with locked := true },
        [.answered id (.error "Choose Apply change, Leave as is, or Undo.")])
    | some d => decide id d now { s with locked := true }

/-- A handler that is given something else than it waits for goes on waiting. -/
def resume : Task → Input → Shared → Shared × List Task
  | .body id, .body (.ok decision) now, s => received id decision now s
  | .body id, .body (.error m) _, s => (s.reply id (.error m), [])
  | .connecting id a d, .connected (.ok _), s => (s, [.reading id a d])
  | .connecting id _ _, .connected (.error m), s => abandoned id m s
  | .reading id a d, .value (.ok current), s => compared id a d current s
  | .reading id _ _, .value (.error m), s => abandoned id m s
  | .writing id a d, .written (.ok _), s => (s, [.verifying id a d])
  | .writing id _ _, .written (.error m), s => unconfirmed id m s
  | .verifying id a d, .value (.ok actual), s => verified settingDisplay id a d actual s
  | .verifying id _ _, .value (.error m), s => unconfirmed id m s
  | .answered id answer, .turn, s => ({ s.reply id answer with locked := false }, [])
  | task, _, s => (s, [task])

def recovered (a : TabletAction) : TabletAction :=
  if a.status = .applying ∨ a.status = .undoing then
    { a with
      status := .uncertain
      result := "Host restarted before the result was confirmed. Check the tablet; this change will not be retried." }
  else a

/-- `recover`, and memory as a new process has it. -/
def restart (s : Shared) : Shared :=
  { s with
    actions := fun id => (s.actions id).map recovered
    changing := false
    locked := false
    active := false }

def server : Server Shared Task Request Input := 
  ⟨enter, resume settingDisplay, restart, fun _ => false⟩

/-- The server before its first request, with the table as it finds it. -/
def initial (actions : String → Option TabletAction) (system : String → Bool) :
    State Shared Task := ⟨⟨actions, false, false, false, system, [], []⟩, []⟩

/-! ### What a stretch of a handler does -/

/-- The changes of a status that come without a write. -/
inductive Moves : Status → Status → Prop
  | declined : Moves .proposed .declined
  | expired : Moves .proposed .stale
  | overtaken : Moves .applied .stale
  | applied : Moves .applying .applied
  | undone : Moves .undoing .undone
  | uncertain (d : Decision) : Moves d.during .uncertain

/-- What any stretch of any handler does to the table and to the device. -/
inductive Turn (s : Shared) : Shared → Prop
  | still (s' : Shared) (hactions : s'.actions = s.actions) (hwrites : s'.writes = s.writes) :
      Turn s s'
  | proposed (s' : Shared) (id : String) (a : TabletAction) (hfree : s.actions id = none)
      (hstatus : a.status = .proposed)
      (hactions : s'.actions = Function.update s.actions id (some a))
      (hwrites : s'.writes = s.writes) : Turn s s'
  | moved (s' : Shared) (id : String) (a : TabletAction) (status : Status) (result : String)
      (hstored : s.actions id = some a) (hmoves : Moves a.status status)
      (hactions : s'.actions = (s.update id status result).actions)
      (hwrites : s'.writes = s.writes) : Turn s s'
  | wrote (s' : Shared) (id : String) (a : TabletAction) (d : Decision) (w : Write) (result : String)
      (hstored : s.actions id = some a) (hd : d ≠ .decline) (hstatus : a.status = d.from)
      (hid : w.id = id) (hdecision : w.decision = d) (hfound : w.found = a.expected d)
      (hactions : s'.actions = (s.update id d.during result).actions)
      (hwrites : s'.writes = s.writes ++ [w]) : Turn s s'
  | restarted (s' : Shared) (hactions : s'.actions = fun id => (s.actions id).map recovered)
      (hwrites : s'.writes = s.writes) : Turn s s'

/-- The handlers between taking and releasing `changing`. -/
def Task.deciding : Task → Bool
  | .body _ | .answered _ _ => false
  | .connecting _ _ _ | .reading _ _ _ | .writing _ _ _ | .verifying _ _ _ => true

/-- What the table holds for a decision that is under way: the action as it was taken up, or with
the status that the write has given it. -/
def Task.Holds (s : Shared) : Task → Prop
  | .body _ | .answered _ _ => True
  | .connecting id a d | .reading id a d =>
    d ≠ .decline ∧ s.actions id = some a ∧ a.status = d.from
  | .writing id _ d | .verifying id _ d =>
    d ≠ .decline ∧ ∃ stored, s.actions id = some stored ∧ stored.status = d.during

/-- At most one decision is under way, and the table is as it has left it. -/
structure Sound (s : Shared) (ts : List Task) : Prop where
  single : ts.countP Task.deciding ≤ s.changing.toNat
  held : ∀ t ∈ ts, t.Holds s

variable {settingDisplay}

theorem holds_of_not_deciding {t : Task} (h : t.deciding = false) (s : Shared) : t.Holds s := by
  cases t with
  | body _ | answered _ _ => trivial
  | connecting _ _ _ | reading _ _ _ | writing _ _ _ | verifying _ _ _ => cases h

/-- Where no decision is under way the handlers that wait say nothing of the table. -/
theorem holds_of_countP {ts : List Task} (h : ts.countP Task.deciding = 0) (s : Shared) :
    ∀ t ∈ ts, t.Holds s := fun t ht =>
  holds_of_not_deciding (Bool.eq_false_iff.mpr fun hd => by
    rw [List.countP_eq_zero] at h
    exact h t ht hd) s

theorem Sound.none_of_idle {s : Shared} {ts : List Task} (h : Sound s ts)
    (hidle : s.changing = false) : ts.countP Task.deciding = 0 := by
  have hsingle := h.single
  rw [hidle] at hsingle
  exact Nat.le_zero.mp hsingle

theorem Sound.tail {s : Shared} {t : Task} {ts : List Task} (h : Sound s (t :: ts))
    (ht : t.deciding = false) : Sound s ts where
  single := by
    have hsingle := h.single
    rwa [List.countP_cons_of_neg (by simp [ht])] at hsingle
  held u hu := h.held u (List.mem_cons_of_mem t hu)

/-- Where one decision is under way, no other is. -/
theorem Sound.alone {s : Shared} {t : Task} {ts : List Task} (h : Sound s (t :: ts))
    (ht : t.deciding = true) : s.changing = true ∧ ts.countP Task.deciding = 0 := by
  have hsingle := h.single
  rw [List.countP_cons_of_pos ht] at hsingle
  cases hchanging : s.changing with
  | false =>
    rw [hchanging] at hsingle
    exact absurd hsingle (Nat.not_succ_le_zero _)
  | true =>
    rw [hchanging] at hsingle
    exact ⟨rfl, Nat.le_zero.mp (Nat.le_of_succ_le_succ hsingle)⟩

/-- A stretch that leaves the table and `changing` alone. -/
theorem Sound.same {s s' : Shared} {ts : List Task} (h : Sound s ts)
    (hactions : s'.actions = s.actions) (hchanging : s'.changing = s.changing) : Sound s' ts where
  single := by rw [hchanging]; exact h.single
  held t ht := by
    have hheld := h.held t ht
    cases t <;> simp only [Task.Holds, hactions] at hheld ⊢ <;> exact hheld

/-- Handlers that hold nothing may begin to wait. -/
theorem Sound.cons {s : Shared} {t : Task} {ts : List Task} (h : Sound s ts)
    (ht : t.deciding = false) : Sound s (t :: ts) where
  single := by
    rw [List.countP_cons_of_neg (by simp [ht])]
    exact h.single
  held u hu := by
    rcases List.mem_cons.mp hu with rfl | hu
    · exact holds_of_not_deciding ht s
    · exact h.held u hu

/-- The one decision that is under way goes on. -/
theorem sound_deciding {s : Shared} {t : Task} {ts : List Task} (hchanging : s.changing = true)
    (hts : ts.countP Task.deciding = 0) (ht : t.Holds s) : Sound s (t :: ts) where
  single := by
    rw [List.countP_cons, hts, hchanging]
    split <;> decide
  held u hu := by
    rcases List.mem_cons.mp hu with rfl | hu
    · exact ht
    · exact holds_of_countP hts s u hu

/-- No decision is under way any more. -/
theorem sound_answered {s : Shared} {t : Task} {ts : List Task}
    (hts : ts.countP Task.deciding = 0) (ht : t.deciding = false) : Sound s (t :: ts) where
  single := by
    rw [List.countP_cons_of_neg (by simp [ht]), hts]
    exact Nat.zero_le _
  held u hu := by
    rcases List.mem_cons.mp hu with rfl | hu
    · exact holds_of_not_deciding ht s
    · exact holds_of_countP hts s u hu

theorem update_stored {s : Shared} {id : String} {a : TabletAction} (h : s.actions id = some a)
    (status : Status) (result : String) :
    (s.update id status result).actions id = some { a with status := status, result := result } := by
  simp [Shared.update, h]

/-- A decision taken up by the route. -/
theorem decide_spec (id : String) (d : Decision) (now : ℕ) {s : Shared} {ts : List Task}
    (h : Sound s ts) :
    Turn s (decide id d now s).1 ∧ Sound (decide id d now s).1 ((decide id d now s).2 ++ ts) := by
  rw [decide]
  cases hstored : s.actions id with
  | none => exact ⟨.still _ rfl rfl, h.cons rfl⟩
  | some a =>
    dsimp only
    split_ifs with hsystem hchanging hdone hfrom hdecline hexpired
    · exact ⟨.still _ rfl rfl, h.cons rfl⟩
    · exact ⟨.still _ rfl rfl, h.cons rfl⟩
    · exact ⟨.still _ rfl rfl, h.cons rfl⟩
    · exact ⟨.still _ rfl rfl, h.cons rfl⟩
    · have hstatus : a.status = .proposed := by rw [not_not.mp hfrom, hdecline]; rfl
      exact ⟨.moved _ id a .declined _ hstored (hstatus ▸ .declined) rfl rfl,
        sound_answered (h.none_of_idle (Bool.eq_false_iff.mpr hchanging)) rfl⟩
    · have hstatus : a.status = .proposed := by rw [not_not.mp hfrom, hexpired.1]; rfl
      exact ⟨.moved _ id a .stale _ hstored (hstatus ▸ .expired) rfl rfl,
        sound_answered (h.none_of_idle (Bool.eq_false_iff.mpr hchanging)) rfl⟩
    · exact ⟨.still _ rfl rfl,
        sound_deciding rfl (h.none_of_idle (Bool.eq_false_iff.mpr hchanging))
          ⟨hdecline, hstored, not_not.mp hfrom⟩⟩

theorem Turn.of_locked {s s' : Shared} (h : Turn { s with locked := true } s') : Turn s s' := by
  cases h with
  | still hactions hwrites => exact .still _ hactions hwrites
  | proposed id a hfree hstatus hactions hwrites =>
    exact .proposed _ id a hfree hstatus hactions hwrites
  | moved id a status result hstored hmoves hactions hwrites =>
    exact .moved _ id a status result hstored hmoves hactions hwrites
  | wrote id a d w result hstored hd hstatus hid hdecision hfound hactions hwrites =>
    exact .wrote _ id a d w result hstored hd hstatus hid hdecision hfound hactions hwrites
  | restarted hactions hwrites => exact .restarted _ hactions hwrites

theorem received_spec {id : String} {decision : Js} {now : ℕ} {s : Shared} {ts : List Task}
    (h : Sound s ts) :
    Turn s (received id decision now s).1 ∧
      Sound (received id decision now s).1 ((received id decision now s).2 ++ ts) := by
  rw [received]
  split
  · exact ⟨.still _ rfl rfl, h.same rfl rfl⟩
  · have hlocked : Sound { s with locked := true } ts := h.same rfl rfl
    split
    · exact ⟨.still _ rfl rfl, hlocked.cons rfl⟩
    · next d _ =>
      obtain ⟨hturn, hsound⟩ := decide_spec id d now hlocked
      exact ⟨hturn.of_locked, hsound⟩

theorem moves_stale {d : Decision} {status : Status} (h : status = d.from) : Moves status .stale := by
  rw [h]
  cases d with
  | apply => exact .expired
  | decline => exact .expired
  | undo => exact .overtaken

theorem moves_done {d : Decision} {status : Status} (hd : d ≠ .decline) (h : status = d.during) :
    Moves status d.done := by
  rw [h]
  cases d with
  | apply => exact .applied
  | decline => exact absurd rfl hd
  | undo => exact .undone

theorem unconfirmed_spec {id message : String} {a : TabletAction} {d : Decision} {s : Shared}
    {ts : List Task} (hts : ts.countP Task.deciding = 0) (hstored : s.actions id = some a)
    (hstatus : a.status = d.during) :
    Turn s (unconfirmed id message s).1 ∧
      Sound (unconfirmed id message s).1 ((unconfirmed id message s).2 ++ ts) :=
  ⟨.moved _ id a .uncertain _ hstored (hstatus ▸ .uncertain d) rfl rfl, sound_answered hts rfl⟩

theorem resume_spec (t : Task) (x : Input) (s : Shared) (ts : List Task) (h : Sound s (t :: ts)) :
    Turn s (resume settingDisplay t x s).1 ∧
      Sound (resume settingDisplay t x s).1 ((resume settingDisplay t x s).2 ++ ts) := by
  cases t <;> cases x
  case body.body id answer now =>
    cases answer with
    | error m => exact ⟨.still _ rfl rfl, (h.tail rfl).same rfl rfl⟩
    | ok decision => exact received_spec (h.tail rfl)
  case answered.turn id answer => exact ⟨.still _ rfl rfl, (h.tail rfl).same rfl rfl⟩
  case connecting.connected id a d answer =>
    obtain ⟨hchanging, hts⟩ := h.alone rfl
    cases answer with
    | error m => exact ⟨.still _ rfl rfl, sound_answered hts rfl⟩
    | ok u =>
      have hheld := h.held _ List.mem_cons_self
      exact ⟨.still _ rfl rfl, sound_deciding hchanging hts hheld⟩
  case reading.value id a d answer =>
    obtain ⟨hchanging, hts⟩ := h.alone rfl
    obtain ⟨hd, hstored, hstatus⟩ := h.held _ List.mem_cons_self
    cases answer with
    | error m => exact ⟨.still _ rfl rfl, sound_answered hts rfl⟩
    | ok current =>
      rw [resume, compared]
      split_ifs with hfound
      · exact ⟨.moved _ id a .stale _ hstored (moves_stale hstatus) rfl rfl,
          sound_answered hts rfl⟩
      · exact ⟨.wrote _ id a d _ _ hstored hd hstatus rfl rfl (not_not.mp hfound) rfl rfl,
          sound_deciding hchanging hts ⟨hd, _, update_stored hstored _ _, rfl⟩⟩
  case writing.written id a d answer =>
    obtain ⟨hchanging, hts⟩ := h.alone rfl
    obtain ⟨hd, stored, hstored, hstatus⟩ := h.held _ List.mem_cons_self
    cases answer with
    | error m => exact unconfirmed_spec hts hstored hstatus
    | ok u => exact ⟨.still _ rfl rfl, sound_deciding hchanging hts ⟨hd, stored, hstored, hstatus⟩⟩
  case verifying.value id a d answer =>
    obtain ⟨-, hts⟩ := h.alone rfl
    obtain ⟨hd, stored, hstored, hstatus⟩ := h.held _ List.mem_cons_self
    cases answer with
    | error m => exact unconfirmed_spec hts hstored hstatus
    | ok actual =>
      rw [resume, verified]
      by_cases hactual : actual ≠ a.desired d
      · rw [if_pos hactual]
        exact unconfirmed_spec hts hstored hstatus
      · rw [if_neg hactual]
        exact ⟨.moved _ id stored d.done _ hstored (moves_done hd hstatus) rfl rfl,
          sound_answered hts rfl⟩
  all_goals exact ⟨.still _ rfl rfl, h⟩

theorem enter_spec (r : Request) (s : Shared) (ts : List Task) (h : Sound s ts) :
    Turn s (enter r s).1 ∧ Sound (enter r s).1 ((enter r s).2 ++ ts) := by
  cases r with
  | worker active => exact ⟨.still _ rfl rfl, h.same rfl rfl⟩
  | decide id =>
    rw [enter]
    split
    · exact ⟨.still _ rfl rfl, h.same rfl rfl⟩
    · exact ⟨.still _ rfl rfl, h.cons rfl⟩
  | propose id a =>
    rw [enter]
    split
    · exact ⟨.still _ rfl rfl, h⟩
    · next hfree =>
      rw [Bool.not_eq_true, Option.isSome_eq_false_iff, Option.isNone_iff_eq_none] at hfree
      refine ⟨.proposed _ id _ hfree rfl rfl rfl, h.single, fun t ht => ?_⟩
      have hheld := h.held t ht
      -- a decision is about an action that is there
      have hother : ∀ other stored, s.actions other = some stored →
          Function.update s.actions id (some { a with status := .proposed }) other =
            some stored := by
        intro other stored hstored
        have hne : other ≠ id := by
          rintro rfl
          rw [hfree] at hstored
          cases hstored
        rw [Function.update_of_ne hne, hstored]
      cases t with
      | body _ => trivial
      | answered _ _ => trivial
      | connecting id a d => exact ⟨hheld.1, hother _ _ hheld.2.1, hheld.2.2⟩
      | reading id a d => exact ⟨hheld.1, hother _ _ hheld.2.1, hheld.2.2⟩
      | writing id a d =>
        obtain ⟨hd, stored, hstored, hstatus⟩ := hheld
        exact ⟨hd, stored, hother _ _ hstored, hstatus⟩
      | verifying id a d =>
        obtain ⟨hd, stored, hstored, hstatus⟩ := hheld
        exact ⟨hd, stored, hother _ _ hstored, hstatus⟩

/-- What every turn keeps holds after every run. -/
theorem invariant_of_turn (settingDisplay : Setting → String → String) {P : Shared → Prop} (hP : ∀ s s', Turn s s' → P s → P s') :
    Invariant (server settingDisplay) always fun s ts => Sound s ts ∧ P s where
  perm s ts us hperm h :=
    ⟨⟨by rw [← hperm.countP_eq]; exact h.1.single, fun t ht => h.1.held t (hperm.mem_iff.mpr ht)⟩,
      h.2⟩
  enter r s ts h _ :=
    have hspec := enter_spec r s ts h.1
    ⟨hspec.2, hP _ _ hspec.1 h.2⟩
  resume t x s ts h _ :=
    have hspec := resume_spec t x s ts h.1
    ⟨hspec.2, hP _ _ hspec.1 h.2⟩
  restart s ts h := by
    rw [Server.filter_survives fun _ => rfl]
    exact ⟨⟨Nat.zero_le _, fun _ ht => absurd ht List.not_mem_nil⟩,
      hP _ _ (.restarted _ rfl rfl) h.2⟩

/-! ### Writes -/

def Write.applies (id : String) (w : Write) : Bool := w.id = id ∧ w.decision ≠ .undo

def Write.undoes (id : String) (w : Write) : Bool := w.id = id ∧ w.decision = .undo

/-- How many writes that apply an action it can have seen in this status, and how many that undo
it. -/
def Status.applies : Status → ℕ
  | .proposed => 0
  | _ => 1

def Status.undoes : Status → ℕ
  | .proposed | .applying | .applied => 0
  | _ => 1

def budget (f : Status → ℕ) (a : Option TabletAction) : ℕ := a.elim 0 fun a => f a.status

/-- No action has seen more writes than its status allows. -/
def Ledger (s : Shared) : Prop :=
  ∀ id, s.writes.countP (Write.applies id) ≤ budget Status.applies (s.actions id) ∧
    s.writes.countP (Write.undoes id) ≤ budget Status.undoes (s.actions id)

/-- Every write was sent for a value that the action expected. -/
def Found (s : Shared) : Prop :=
  ∀ w ∈ s.writes, ∃ a, s.actions w.id = some a ∧ w.found = a.expected w.decision

theorem Moves.applies_le {st st' : Status} (h : Moves st st') : st.applies ≤ st'.applies := by
  cases h with
  | uncertain d => cases d <;> decide
  | _ => decide

theorem Moves.undoes_le {st st' : Status} (h : Moves st st') : st.undoes ≤ st'.undoes := by
  cases h with
  | uncertain d => cases d <;> decide
  | _ => decide

theorem budget_le_one {f : Status → ℕ} (hf : ∀ status, f status ≤ 1) (a : Option TabletAction) :
    budget f a ≤ 1 := by
  cases a with
  | none => exact Nat.zero_le _
  | some a => exact hf a.status

theorem budget_recovered (f : Status → ℕ) (h : f .applying ≤ f .uncertain)
    (h' : f .undoing ≤ f .uncertain) (a : Option TabletAction) :
    budget f a ≤ budget f (a.map recovered) := by
  cases a with
  | none => exact Nat.le_refl _
  | some a =>
    show f a.status ≤ f (recovered a).status
    rw [recovered]
    split
    · next hopen =>
      rcases hopen with hopen | hopen
      · rw [hopen]; exact h
      · rw [hopen]; exact h'
    · exact Nat.le_refl _

theorem budget_update {s : Shared} {id : String} {a : TabletAction} (f : Status → ℕ)
    (hstored : s.actions id = some a) {status : Status} (h : f a.status ≤ f status)
    (result : String) (other : String) :
    budget f (s.actions other) ≤ budget f ((s.update id status result).actions other) := by
  by_cases hid : other = id
  · subst hid
    rw [update_stored hstored, hstored]
    exact h
  · simp [Shared.update, hid]

/-- One more write of the right kind is within the budget of the new status. -/
theorem ledger_wrote {s : Shared} {id : String} {a : TabletAction} {d : Decision} {w : Write}
    (hstored : s.actions id = some a) (hd : d ≠ .decline) (hstatus : a.status = d.from)
    (hid : w.id = id) (hdecision : w.decision = d) (h : Ledger s) (result : String)
    (other : String) :
    (s.writes ++ [w]).countP (Write.applies other) ≤
        budget Status.applies ((s.update id d.during result).actions other) ∧
      (s.writes ++ [w]).countP (Write.undoes other) ≤
        budget Status.undoes ((s.update id d.during result).actions other) := by
  obtain ⟨happly, hundo⟩ := h other
  rw [List.countP_append, List.countP_append, List.countP_singleton, List.countP_singleton]
  by_cases hother : other = id
  · subst hother
    rw [hstored, budget, Option.elim_some, hstatus] at happly hundo
    rw [update_stored hstored]
    cases d with
    | decline => exact absurd rfl hd
    | apply =>
      have happlies : Write.applies other w = true := by simp [Write.applies, hid, hdecision]
      have hundoes : Write.undoes other w = false := by simp [Write.undoes, hdecision]
      rw [happlies, hundoes]
      exact ⟨Nat.succ_le_succ happly, hundo⟩
    | undo =>
      have happlies : Write.applies other w = false := by simp [Write.applies, hdecision]
      have hundoes : Write.undoes other w = true := by simp [Write.undoes, hid, hdecision]
      rw [happlies, hundoes]
      exact ⟨happly, Nat.succ_le_succ hundo⟩
  · have hne : w.id ≠ other := fun hw => hother (hw.symm.trans hid)
    rw [Shared.update]
    simpa [Write.applies, Write.undoes, hne, hother] using ⟨happly, hundo⟩

theorem Turn.ledger {s s' : Shared} (hturn : Turn s s') (h : Ledger s) : Ledger s' := by
  cases hturn with
  | still hactions hwrites =>
    intro id
    rw [hactions, hwrites]
    exact h id
  | proposed id a hfree _ hactions hwrites =>
    intro other
    rw [hactions, hwrites]
    obtain ⟨happly, hundo⟩ := h other
    by_cases hid : other = id
    · subst hid
      rw [hfree] at happly hundo
      exact ⟨Nat.le_trans happly (Nat.zero_le _), Nat.le_trans hundo (Nat.zero_le _)⟩
    · rw [Function.update_of_ne hid]
      exact ⟨happly, hundo⟩
  | moved id a status result hstored hmoves hactions hwrites =>
    intro other
    rw [hactions, hwrites]
    exact ⟨Nat.le_trans (h other).1 (budget_update _ hstored hmoves.applies_le result other),
      Nat.le_trans (h other).2 (budget_update _ hstored hmoves.undoes_le result other)⟩
  | wrote id a d w result hstored hd hstatus hid hdecision _ hactions hwrites =>
    intro other
    rw [hactions, hwrites]
    exact ledger_wrote hstored hd hstatus hid hdecision h result other
  | restarted hactions hwrites =>
    intro id
    rw [hactions, hwrites]
    exact ⟨Nat.le_trans (h id).1 (budget_recovered _ (by decide) (by decide) _),
      Nat.le_trans (h id).2 (budget_recovered _ (by decide) (by decide) _)⟩

/-- The values that an action expects never change. -/
theorem Turn.expected {s s' : Shared} (hturn : Turn s s') {id : String} {a : TabletAction}
    (h : s.actions id = some a) :
    ∃ a', s'.actions id = some a' ∧ ∀ d, a'.expected d = a.expected d := by
  have hupdate : ∀ (other : String) (status : Status) (result : String),
      ∃ a', (s.update other status result).actions id = some a' ∧
        ∀ d, a'.expected d = a.expected d := by
    intro other status result
    by_cases hid : id = other
    · subst hid
      exact ⟨_, update_stored h status result, fun d => by cases d <;> rfl⟩
    · exact ⟨a, by simp [Shared.update, hid, h], fun _ => rfl⟩
  cases hturn with
  | still hactions _ => exact ⟨a, by rw [hactions, h], fun _ => rfl⟩
  | proposed other b hfree _ hactions _ =>
    have hne : id ≠ other := by
      rintro rfl
      rw [hfree] at h
      cases h
    exact ⟨a, by rw [hactions, Function.update_of_ne hne, h], fun _ => rfl⟩
  | moved other b status result _ _ hactions _ =>
    rw [hactions]
    exact hupdate other status result
  | wrote other b d w result _ _ _ _ _ _ hactions _ =>
    rw [hactions]
    exact hupdate other d.during result
  | restarted hactions _ =>
    refine ⟨recovered a, by rw [hactions]; simp [h], fun d => ?_⟩
    rw [recovered]
    split <;> cases d <;> rfl

theorem Turn.found {s s' : Shared} (hturn : Turn s s') (h : Found s) : Found s' := by
  have hold : ∀ w ∈ s.writes, ∃ a, s'.actions w.id = some a ∧ w.found = a.expected w.decision := by
    intro w hw
    obtain ⟨a, ha, hfound⟩ := h w hw
    obtain ⟨a', ha', hsame⟩ := hturn.expected ha
    exact ⟨a', ha', by rw [hsame, hfound]⟩
  have hturn' := hturn
  intro w hw
  cases hturn with
  | still _ hwrites => exact hold w (by rwa [hwrites] at hw)
  | proposed _ _ _ _ _ hwrites => exact hold w (by rwa [hwrites] at hw)
  | moved _ _ _ _ _ _ _ hwrites => exact hold w (by rwa [hwrites] at hw)
  | restarted _ hwrites => exact hold w (by rwa [hwrites] at hw)
  | wrote id a d new result hstored _ _ hid hdecision hfound _ hwrites =>
    rw [hwrites, List.mem_append, List.mem_singleton] at hw
    rcases hw with hw | rfl
    · exact hold w hw
    · obtain ⟨a', ha', hsame⟩ := hturn'.expected hstored
      exact ⟨a', by rw [hid, ha'], by rw [hsame, hdecision, hfound]⟩

/-- A status from which no decision leads on. -/
def Status.Closed (status : Status) : Prop :=
  status = .declined ∨ status = .stale ∨ status = .uncertain

/-- The action is closed, and these are the writes that it has seen. -/
def ClosedWith (id : String) (writes : List Write) (s : Shared) : Prop :=
  (∃ a, s.actions id = some a ∧ a.status.Closed) ∧ s.writes.filter (·.id = id) = writes

theorem Moves.not_closed {st st' : Status} (h : Moves st st') : ¬st.Closed := by
  cases h with
  | uncertain d => cases d <;> simp [Status.Closed, Decision.during]
  | _ => simp [Status.Closed]

theorem Turn.closed {id : String} {writes : List Write} {s s' : Shared} (hturn : Turn s s')
    (h : ClosedWith id writes s) : ClosedWith id writes s' := by
  obtain ⟨⟨a, ha, hclosed⟩, hwrites⟩ := h
  -- the action that is changed is another one, since a closed one does not move
  have hother : ∀ {other : String} {b : TabletAction}, s.actions other = some b →
      ¬b.status.Closed → id ≠ other := by
    rintro other b hb hopen rfl
    rw [ha, Option.some.injEq] at hb
    exact hopen (hb ▸ hclosed)
  cases hturn with
  | still hactions hsame => exact ⟨⟨a, by rw [hactions, ha], hclosed⟩, by rw [hsame, hwrites]⟩
  | proposed other b hfree _ hactions hsame =>
    have hne : id ≠ other := by
      rintro rfl
      rw [hfree] at ha
      cases ha
    exact ⟨⟨a, by rw [hactions, Function.update_of_ne hne, ha], hclosed⟩, by rw [hsame, hwrites]⟩
  | moved other b status result hb hmoves hactions hsame =>
    have hne := hother hb hmoves.not_closed
    exact ⟨⟨a, by rw [hactions]; simp [Shared.update, hne, ha], hclosed⟩, by rw [hsame, hwrites]⟩
  | wrote other b d w result hb _ hstatus hw _ _ hactions hsame =>
    have hne := hother hb (by rw [hstatus]; cases d <;> simp [Status.Closed, Decision.from])
    refine ⟨⟨a, by rw [hactions]; simp [Shared.update, hne, ha], hclosed⟩, ?_⟩
    have hskip : w.id ≠ id := fun h => hne (h.symm.trans hw)
    rw [hsame, List.filter_append, hwrites]
    simp [hskip]
  | restarted hactions hsame =>
    refine ⟨⟨recovered a, by rw [hactions]; simp [ha], ?_⟩, by rw [hsame, hwrites]⟩
    have hopen : ¬(a.status = .applying ∨ a.status = .undoing) := by
      rcases hclosed with h | h | h <;> simp [h]
    rw [recovered, if_neg hopen]
    exact hclosed

/-- In every run, restarts included: an action is written to the device at most once to apply it and
at most once to undo it, for the value that was expected; and once it is declined, stale or
uncertain nothing is written for it again. -/
theorem decide_writes (settingDisplay : Setting → String → String)
    (actions : String → Option TabletAction) (system : String → Bool)
    (es : List (Event Request Input)) (id : String) :
    let reached := (server settingDisplay).run (initial actions system) es
    reached.shared.writes.countP (Write.applies id) ≤ 1 ∧
      reached.shared.writes.countP (Write.undoes id) ≤ 1 ∧
      (∀ w ∈ reached.shared.writes, ∃ a, reached.shared.actions w.id = some a ∧
        w.found = a.expected w.decision) ∧
      (∀ a, reached.shared.actions id = some a → a.status.Closed → ∀ fs,
        ((server settingDisplay).run (initial actions system) (es ++ fs)).shared.writes.filter
            (·.id = id) =
          reached.shared.writes.filter (·.id = id)) := by
  intro reached
  have hinit : Sound (initial actions system).shared (initial actions system).waiting :=
    ⟨Nat.zero_le _, fun _ ht => absurd ht List.not_mem_nil⟩
  obtain ⟨-, hledger⟩ := (invariant_of_turn settingDisplay
    fun _ _ => Turn.ledger).run_always (s := initial actions system)
      ⟨hinit, fun _ => ⟨Nat.zero_le _, Nat.zero_le _⟩⟩ es
  obtain ⟨hsound, hfound⟩ := (invariant_of_turn settingDisplay
    fun _ _ => Turn.found).run_always (s := initial actions system)
      ⟨hinit, fun _ hw => absurd hw List.not_mem_nil⟩ es
  refine ⟨Nat.le_trans (hledger id).1 (budget_le_one (by rintro (_ | _) <;> decide) _),
    Nat.le_trans (hledger id).2 (budget_le_one (by rintro (_ | _) <;> decide) _), hfound, ?_⟩
  intro a ha hclosed fs
  rw [Server.run_append]
  exact ((invariant_of_turn settingDisplay fun _ _ => Turn.closed).run_always
    (s := reached) ⟨hsound, ⟨a, ha, hclosed⟩, rfl⟩ fs).2.2

end ForgeOS.Galaxy.TabletActions
