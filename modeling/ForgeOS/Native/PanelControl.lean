import ForgeOS.Native.CommandText
import ForgeOS.Native.Panel

/-! The connection on which the panel sends a command to the music bridge. A touch opens it; later
refreshes send the line, collect the reply and apply it. While a command is on its way no other one
is, the bridge is not asked for its state, and the panel goes on showing what the command was meant
for. A clock stands still during a step. -/

namespace ForgeOS.Native.PanelControl

open Music

/-! ### State -/

/-- `control`. A connection has a number of its own, where the code has a descriptor that the system
uses again. -/
structure Control where
  fd : Option ℕ
  command : Bytes
  sent : ℕ
  response : Bytes
  deadline : ℤ
  deriving DecidableEq, Repr

/-- What the panel has done so far, kept to speak about runs. -/
inductive Entry
  | touched (action : Action)
  | opened (conn : ℕ) (shown : Panel) (action : Action) (now : ℤ)
  | sent (conn : ℕ) (bytes : Bytes) (now : ℤ)
  | received (conn : ℕ) (bytes : Bytes) (now : ℤ)
  | applied (conn : ℕ) (response : Bytes)
  deriving DecidableEq, Repr

structure State where
  panel : Panel
  control : Control
  noticeRetryAt : ℤ
  connections : ℕ
  log : List Entry
  deriving DecidableEq, Repr

/-- What `poll` has found, and how the call that follows it ends. -/
inductive Found
  | nothing
  /-- `POLLERR` or `POLLNVAL` -/
  | failure
  | wrote (n : ℕ)
  /-- `EAGAIN` or `EINTR` -/
  | again
  | broken
  | bytes (chunk : Bytes)
  | ended
  deriving DecidableEq, Repr

/-- `sizeof control.response` -/
def responseSize : ℕ := 512

def State.warn (s : State) (notice : Bytes) (now : ℤ) : State :=
  { s with panel := { s.panel with notice }, noticeRetryAt := now + 5000 }

def statusNotice (status : Bytes) : Bytes :=
  if status = ascii "STREAM_LIMIT" then ascii "STREAM LIMIT - STOP OTHER DEVICE"
  else if status = ascii "CHOOSE" then ascii "SELECT MUSIC TO PLAY"
  else if status = ascii "BUFFERING" then ascii "BUFFERING MUSIC"
  else if status = ascii "PLAYER_ERROR" then ascii "PLAYER ERROR"
  else ascii "PLAYER RESPONSE DELAYED"

/-! ### A command on its way -/

def controlFinish (result now : ℤ) (s : State) : State :=
  let s := { s with control := { s.control with fd := none } }
  if result = 0 then { s with panel := { s.panel with notice := [] } }
  else if result = 2 then s.warn (statusNotice s.panel.playerStatus) now
  else if result < 0 then s.warn (ascii "COMMAND CONFIRMATION UNAVAILABLE") now
  else s

/-- `control_poll` where the line has not been sent. -/
def sendMore (conn : ℕ) (found : Found) (now : ℤ) (s : State) : State :=
  match found with
  | .failure | .broken => controlFinish (-1) now s
  | .wrote n =>
    let bytes := (s.control.command.drop s.control.sent).take n
    { s with
      control := { s.control with sent := s.control.sent + bytes.length }
      log := s.log ++ [.sent conn bytes now] }
  | _ => s

/-- `control_poll` where the line has been sent. -/
def receiveMore (conn : ℕ) (found : Found) (now : ℤ) (s : State) : State :=
  match found with
  | .failure | .broken | .ended => controlFinish (-1) now s
  | .bytes chunk =>
    let chunk := chunk.take (responseSize - 1 - s.control.response.length)
    if chunk = [] then controlFinish (-1) now s
    else
      let response := s.control.response ++ chunk
      let s :=
        { s with
          control := { s.control with response }
          log := s.log ++ [.received conn chunk now] }
      if 10 ∈ cstr response then
        match applyReply response s.panel with
        | (panel, result) =>
          controlFinish result now { s with panel, log := s.log ++ [.applied conn response] }
      else if response.length = responseSize - 1 then controlFinish (-1) now s
      else s
  | _ => s

def controlPoll (found : Found) (now : ℤ) (s : State) : State :=
  match s.control.fd with
  | none => s
  | some conn =>
    if s.control.deadline ≤ now then controlFinish (-1) now s
    else if s.control.sent < s.control.command.length then sendMore conn found now s
    else receiveMore conn found now s

/-! ### Steps -/

/-- `exchange("GET\n")`, up to a reply, a failure or its deadline, which is the end of the list. -/
def exchange : List Found → ℕ → Bytes → Option Bytes
  | [], _, _ => none
  | found :: founds, sent, response =>
    if sent < (ascii "GET\n").length then
      match found with
      | .failure | .broken => none
      | .wrote n => exchange founds (sent + min n ((ascii "GET\n").length - sent)) response
      | _ => exchange founds sent response
    else
      match found with
      | .failure | .broken | .ended => none
      | .bytes chunk =>
        let chunk := chunk.take (responseSize - 1 - response.length)
        if chunk = [] then none
        else
          let response := response ++ chunk
          if 10 ∈ cstr response then some response
          else if response.length = responseSize - 1 then none
          else exchange founds sent response
      | _ => exchange founds sent response

/-- The notices that a reply of the bridge takes away. -/
def transient : List Bytes :=
  [ascii "COMMAND CONFIRMATION UNAVAILABLE", ascii "PLAYER UNAVAILABLE",
    ascii "PLAYER RESPONSE DELAYED", ascii "STREAM LIMIT - STOP OTHER DEVICE",
    ascii "BUFFERING MUSIC", ascii "PLAYER ERROR", ascii "SELECT MUSIC TO PLAY"]

/-- The panel after the bridge was asked, or could not be. -/
def shown (answer : Option Bytes) (noticeRetryAt now : ℤ) (p : Panel) : Panel :=
  match answer with
  | none => { p with connected := false }
  | some response =>
    match applyReply response p with
    | (p, result) =>
      if result < 0 then { p with connected := false }
      else if p.connected && p.fault = 0 && decide (noticeRetryAt ≤ now) &&
          transient.contains p.notice then { p with notice := [] }
      else p

def refresh (found : Found) (connects : Bool) (answers : List Found) (now : ℤ) (s : State) :
    State :=
  let s := controlPoll found now s
  if s.control.fd.isSome then s
  else
    let answer := if connects then exchange answers 0 [] else none
    { s with panel := shown answer s.noticeRetryAt now s.panel }

/-- `mutate`, and `control_start` where it comes to that. -/
def mutate (action : Action) (connects : Bool) (now : ℤ) (s : State) : State :=
  let s : State := { s with log := s.log ++ [.touched action] }
  if !s.panel.connected || s.panel.fault != 0 then s.warn (ascii "PLAYER UNAVAILABLE") now
  else if s.control.fd.isSome then
    { s with panel := { s.panel with notice := ascii "COMMAND IN PROGRESS" } }
  else if !connects then s.warn (ascii "PLAYER UNAVAILABLE") now
  else
    { s with
      panel :=
        { s.panel with
          notice :=
            if action = .next then ascii "LOADING NEXT TRACK" else ascii "CONFIRMING COMMAND" }
      control :=
        { fd := some s.connections
          command := commandText s.panel.revision action
          sent := 0
          response := []
          deadline := now + 15000 }
      connections := s.connections + 1
      log := s.log ++ [.opened s.connections s.panel action now] }

/-- What `activate` makes of a touch on the music page. -/
def touchAction (p : Panel) (x y : ℤ) : Option Action :=
  if 302 ≤ x ∧ x ≤ 498 ∧ 818 ≤ y ∧ y ≤ 948 then some (if p.playing ≠ 0 then .pause else .play)
  else if 100 ≤ x ∧ x ≤ 250 ∧ 828 ≤ y ∧ y ≤ 942 then
    some (if p.musicService then .next else .rewind)
  else if 80 ≤ x ∧ x ≤ 720 ∧ 995 ≤ y ∧ y ≤ 1075 then
    some (.volume ((x - 80) * 100 / 640).toNat)
  else none

inductive Input
  | touch (x y : ℤ) (connects : Bool) (now : ℤ)
  | refresh (found : Found) (connects : Bool) (answers : List Found) (now : ℤ)
  deriving DecidableEq, Repr

def step (s : State) : Input → State
  | .touch x y connects now =>
    match touchAction s.panel x y with
    | none => s
    | some action => mutate action connects now s
  | .refresh found connects answers now => refresh found connects answers now s

def run (s : State) (inputs : List Input) : State := inputs.foldl step s

/-- A panel that has sent no command yet. -/
def initial (panel : Panel) : State where
  panel := panel
  control := { fd := none, command := [], sent := 0, response := [], deadline := 0 }
  noticeRetryAt := 0
  connections := 0
  log := []

/-! ### Conversations -/

def Entry.conn : Entry → Option ℕ
  | .touched _ => none
  | .opened conn _ _ _ | .sent conn _ _ | .received conn _ _ | .applied conn _ => some conn

/-- What has been done on a connection. -/
def about (conn : ℕ) (log : List Entry) : List Entry := log.filter fun e => e.conn == some conn

def Entry.touches : Entry → Option Action
  | .touched action => some action
  | _ => none

def Entry.opens : Entry → Option Action
  | .opened _ _ action _ => some action
  | _ => none

/-- What is done on a connection that is open, with what has been sent, what has come, and whether
it has been applied: the line goes out in pieces, each byte once; when all of it is out the reply
comes; and it is applied once, when a line of it is complete. -/
inductive Talks (conn : ℕ) (line : Bytes) (deadline : ℤ) :
    Bytes → Bytes → Bool → List Entry → Prop
  | opened : Talks conn line deadline [] [] false []
  | sent {out bytes : Bytes} {es : List Entry} {now : ℤ}
      (h : Talks conn line deadline out [] false es) (hline : out ++ bytes <+: line)
      (hnow : now < deadline) :
      Talks conn line deadline (out ++ bytes) [] false (es ++ [.sent conn bytes now])
  | received {reply bytes : Bytes} {es : List Entry} {now : ℤ}
      (h : Talks conn line deadline line reply false es) (hnow : now < deadline) :
      Talks conn line deadline line (reply ++ bytes) false (es ++ [.received conn bytes now])
  | applied {reply : Bytes} {es : List Entry} (h : Talks conn line deadline line reply false es)
      (hreply : 10 ∈ cstr reply) :
      Talks conn line deadline line reply true (es ++ [.applied conn reply])

/-- A connection was opened by a touch, when the panel showed what could be acted on, and then
used in order. -/
structure Conversation (log : List Entry) (conn : ℕ) (shown : Panel) (action : Action) (now : ℤ)
    (out reply : Bytes) (applied : Bool) (es : List Entry) : Prop where
  log : about conn log = .opened conn shown action now :: es
  connected : shown.connected = true
  fault : shown.fault = 0
  bounded : action.Bounded
  talks : Talks conn (commandLine shown.revision action) (now + 15000) out reply applied es

def Orderly (log : List Entry) (conn : ℕ) : Prop :=
  ∃ shown action now out reply applied es,
    Conversation log conn shown action now out reply applied es

/-- The connection that is open: how far it has come, and that the panel still shows what the
command was meant for. -/
structure Current (s : State) (conn : ℕ) (shown : Panel) (action : Action) (now : ℤ)
    (es : List Entry) : Prop where
  last : conn + 1 = s.connections
  talk : Conversation s.log conn shown action now (s.control.command.take s.control.sent)
    s.control.response false es
  command : s.control.command = commandLine shown.revision action
  deadline : s.control.deadline = now + 15000
  order : s.control.response = [] ∨ s.control.command.length ≤ s.control.sent
  frozen : { s.panel with notice := shown.notice } = shown

structure Sound (s : State) : Prop where
  known : ∀ e ∈ s.log, ∀ conn, e.conn = some conn → conn < s.connections
  orderly : ∀ conn < s.connections, Orderly s.log conn
  current : ∀ conn, s.control.fd = some conn →
    ∃ shown action now es, Current s conn shown action now es
  touched : (s.log.filterMap Entry.opens).Sublist (s.log.filterMap Entry.touches)
  serial : (s.log.filterMap Entry.conn).Pairwise (· ≤ ·)

variable {s s' : State} {conn : ℕ} {e : Entry} {log : List Entry}

theorem about_append (h : e.conn = some conn) :
    about conn (log ++ [e]) = about conn log ++ [e] := by
  rw [about, List.filter_append, List.filter_cons_of_pos (by simp [h])]
  rfl

theorem about_append_of_ne (h : e.conn ≠ some conn) :
    about conn (log ++ [e]) = about conn log := by
  rw [about, List.filter_append, List.filter_cons_of_neg (by simpa using h)]
  exact List.append_nil _

theorem Orderly.of_ne (h : Orderly log conn) (he : e.conn ≠ some conn) :
    Orderly (log ++ [e]) conn := by
  obtain ⟨shown, action, now, out, reply, applied, es, htalk⟩ := h
  exact ⟨shown, action, now, out, reply, applied, es,
    { htalk with log := (about_append_of_ne he).trans htalk.log }⟩

theorem serial_append (h : (log.filterMap Entry.conn).Pairwise (· ≤ ·))
    (he : ∀ c, e.conn = some c → ∀ f ∈ log, ∀ d, f.conn = some d → d ≤ c) :
    ((log ++ [e]).filterMap Entry.conn).Pairwise (· ≤ ·) := by
  rw [List.filterMap_append, List.pairwise_append]
  have hone : ([e].filterMap Entry.conn).Pairwise (· ≤ ·) := by
    rw [List.filterMap_cons]
    split
    · exact List.Pairwise.nil
    · exact List.pairwise_singleton _ _
  refine ⟨h, hone, fun d hd c hc => ?_⟩
  obtain ⟨f, hf, hfd⟩ := List.mem_filterMap.mp hd
  obtain ⟨g, hg, hgc⟩ := List.mem_filterMap.mp hc
  rw [List.mem_singleton.mp hg] at hgc
  exact he c hgc f hf d hfd

/-! ### What steps keep -/

/-- Where nothing is done on a connection, only the notice may change while one is open. -/
theorem Sound.quiet (h : Sound s) (hlog : s'.log = s.log)
    (hconnections : s'.connections = s.connections) (hcurrent : s'.control.fd.isSome →
      s'.control = s.control ∧ ∀ notice, { s'.panel with notice } = { s.panel with notice }) :
    Sound s' where
  known := by rw [hlog, hconnections]; exact h.known
  orderly := by rw [hlog, hconnections]; exact h.orderly
  touched := by rw [hlog]; exact h.touched
  serial := by rw [hlog]; exact h.serial
  current conn hconn := by
    obtain ⟨hcontrol, hpanel⟩ := hcurrent (by simp [hconn])
    obtain ⟨shown, action, now, es, hshown⟩ := h.current conn (hcontrol ▸ hconn)
    refine ⟨shown, action, now, es, ?_⟩
    exact
      { last := hconnections ▸ hshown.last
        talk := by rw [hlog, hcontrol]; exact hshown.talk
        command := hcontrol ▸ hshown.command
        deadline := hcontrol ▸ hshown.deadline
        order := hcontrol ▸ hshown.order
        frozen := hpanel shown.notice ▸ hshown.frozen }

theorem controlFinish_spec (result now : ℤ) (s : State) :
    (controlFinish result now s).log = s.log ∧
      (controlFinish result now s).connections = s.connections ∧
      (controlFinish result now s).control.fd = none := by
  unfold controlFinish
  simp only
  split_ifs <;> exact ⟨rfl, rfl, rfl⟩

theorem Sound.finish (h : Sound s) (result now : ℤ) : Sound (controlFinish result now s) := by
  obtain ⟨hlog, hconnections, hfd⟩ := controlFinish_spec result now s
  exact h.quiet hlog hconnections (by simp [hfd])

/-- One more thing is done on a connection, in its order. -/
theorem Sound.more (h : Sound s) (hlog : s'.log = s.log ++ [e])
    (hconnections : s'.connections = s.connections) (he : e.conn = some conn)
    (hlast : conn + 1 = s.connections) (hopens : e.opens = none) (horderly : Orderly s'.log conn)
    (hcurrent : ∀ c, s'.control.fd = some c →
      ∃ shown action now es, Current s' c shown action now es) : Sound s' where
  known f hf c hc := by
    rw [hlog] at hf
    rw [hconnections]
    rcases List.mem_append.mp hf with hf | hf
    · exact h.known f hf c hc
    · rw [List.mem_singleton.mp hf, he] at hc
      have heq := Option.some.inj hc
      omega
  orderly c hc := by
    by_cases hsame : c = conn
    · exact hsame ▸ horderly
    · rw [hlog]
      apply (h.orderly c (hconnections ▸ hc)).of_ne
      rw [he]
      exact fun heq => hsame (Option.some.inj heq).symm
  current := hcurrent
  touched := by
    rw [hlog, List.filterMap_append, List.filterMap_append]
    apply h.touched.append
    simp [hopens]
  serial := by
    rw [hlog]
    apply serial_append h.serial
    intro c hc f hf d hd
    have hlt := h.known f hf d hd
    have heq := Option.some.inj (he.symm.trans hc)
    omega

/-! ### A command on its way -/

variable {shown : Panel} {action : Action} {opened now : ℤ} {es : List Entry}

/-- What is done on the connection that is open comes behind what has been done on it. -/
theorem Current.talks (h : Current s conn shown action opened es) :
    Talks conn s.control.command s.control.deadline (s.control.command.take s.control.sent)
      s.control.response false es := by
  have htalks := h.talk.talks
  rwa [← h.command, ← h.deadline] at htalks

/-- The conversation of the open connection with one entry more. -/
theorem Current.extend (h : Current s conn shown action opened es) (he : e.conn = some conn)
    {out reply : Bytes} {applied : Bool}
    (htalks : Talks conn s.control.command s.control.deadline out reply applied (es ++ [e])) :
    Conversation (s.log ++ [e]) conn shown action opened out reply applied (es ++ [e]) where
  log := by rw [about_append he, h.talk.log, List.cons_append]
  connected := h.talk.connected
  fault := h.talk.fault
  bounded := h.talk.bounded
  talks := by rwa [← h.command, ← h.deadline]

theorem Sound.sendMore (h : Sound s) (hfd : s.control.fd = some conn)
    (hnow : now < s.control.deadline) (hsent : s.control.sent < s.control.command.length)
    (found : Found) : Sound (sendMore conn found now s) := by
  unfold PanelControl.sendMore
  split
  · exact h.finish _ _
  · exact h.finish _ _
  · next n =>
    obtain ⟨shown, action, opened, es, hcurrent⟩ := h.current conn hfd
    have hnone : s.control.response = [] :=
      hcurrent.order.resolve_right (Nat.not_le.mpr hsent)
    have hpiece : (s.control.command.drop s.control.sent).take n <+:
        s.control.command.drop s.control.sent := List.take_prefix _ _
    generalize (s.control.command.drop s.control.sent).take n = bytes at *
    have hout : s.control.command.take s.control.sent ++ bytes =
        s.control.command.take (s.control.sent + bytes.length) := by
      rw [List.take_add, ← List.prefix_iff_eq_take.mp hpiece]
    have htalks := hcurrent.talks
    rw [hnone] at htalks
    have hmore := htalks.sent (hout ▸ List.take_prefix _ _) hnow
    rw [hout] at hmore
    have htalk := hcurrent.extend (e := .sent conn bytes now) rfl hmore
    refine h.more rfl rfl rfl hcurrent.last rfl ⟨_, _, _, _, _, _, _, htalk⟩ ?_
    intro c hc
    obtain rfl : conn = c := Option.some.inj (hfd.symm.trans hc)
    exact ⟨shown, action, opened, _,
      { last := hcurrent.last
        talk := hnone ▸ htalk
        command := hcurrent.command
        deadline := hcurrent.deadline
        order := .inl hnone
        frozen := hcurrent.frozen }⟩
  · exact h

/-- What has come is kept, and the line is out by then. -/
theorem Current.receive (h : Current s conn shown action opened es)
    (hnow : now < s.control.deadline) (hsent : s.control.command.length ≤ s.control.sent)
    (chunk : Bytes) :
    Current
      { s with
        control := { s.control with response := s.control.response ++ chunk }
        log := s.log ++ [.received conn chunk now] }
      conn shown action opened (es ++ [.received conn chunk now]) := by
  have hwhole : s.control.command.take s.control.sent = s.control.command :=
    List.take_of_length_le hsent
  have htalks := h.talks
  rw [hwhole] at htalks
  have htalk := h.extend (e := .received conn chunk now) rfl (htalks.received hnow)
  rw [← hwhole] at htalk
  exact
    { last := h.last
      talk := htalk
      command := h.command
      deadline := h.deadline
      order := .inr hsent
      frozen := h.frozen }

theorem Sound.receiveMore (h : Sound s) (hfd : s.control.fd = some conn)
    (hnow : now < s.control.deadline) (hsent : s.control.command.length ≤ s.control.sent)
    (found : Found) : Sound (receiveMore conn found now s) := by
  unfold PanelControl.receiveMore
  split
  · exact h.finish _ _
  · exact h.finish _ _
  · exact h.finish _ _
  · next chunk =>
    simp only
    generalize chunk.take (responseSize - 1 - s.control.response.length) = chunk
    split
    · exact h.finish _ _
    · obtain ⟨shown, action, opened, es, hcurrent⟩ := h.current conn hfd
      have hnext := hcurrent.receive hnow hsent chunk
      have hreceived : Sound
          { s with
            control := { s.control with response := s.control.response ++ chunk }
            log := s.log ++ [.received conn chunk now] } := by
        refine h.more rfl rfl rfl hcurrent.last rfl ⟨_, _, _, _, _, _, _, hnext.talk⟩ ?_
        intro c hc
        obtain rfl : conn = c := Option.some.inj (hfd.symm.trans hc)
        exact ⟨shown, action, opened, _, hnext⟩
      split
      · next hline =>
        -- a line of the reply is complete
        have htalks := hnext.talks
        rw [List.take_of_length_le hsent] at htalks
        have htalk := hnext.extend (e := .applied conn _) rfl (htalks.applied hline)
        generalize applyReply (s.control.response ++ chunk) s.panel = answer
        obtain ⟨panel, result⟩ := answer
        obtain ⟨hlog, hconnections, hclosed⟩ := controlFinish_spec result now
          { s with
            panel
            control := { s.control with response := s.control.response ++ chunk }
            log := s.log ++ [.received conn chunk now] ++
              [.applied conn (s.control.response ++ chunk)] }
        have horderly : Orderly (s.log ++ [.received conn chunk now] ++
            [.applied conn (s.control.response ++ chunk)]) conn := ⟨_, _, _, _, _, _, _, htalk⟩
        refine hreceived.more hlog hconnections rfl hcurrent.last rfl (hlog.symm ▸ horderly) ?_
        intro c hc
        rw [hclosed] at hc
        cases hc
      · split
        · exact hreceived.finish _ _
        · exact hreceived
  · exact h

theorem Sound.controlPoll (h : Sound s) (found : Found) (now : ℤ) :
    Sound (controlPoll found now s) := by
  unfold PanelControl.controlPoll
  split
  · exact h
  · next conn hfd =>
    split
    · exact h.finish _ _
    · next hnow =>
      split
      · next hsent => exact h.sendMore hfd (not_le.mp hnow) hsent found
      · next hsent => exact h.receiveMore hfd (not_le.mp hnow) (not_lt.mp hsent) found

/-! ### Steps -/

theorem Sound.refresh (h : Sound s) (found : Found) (connects : Bool) (answers : List Found)
    (now : ℤ) : Sound (refresh found connects answers now s) := by
  have hpolled := h.controlPoll found now
  unfold PanelControl.refresh
  simp only
  split
  · exact hpolled
  · next hfd => exact hpolled.quiet rfl rfl (fun hsome => absurd hsome hfd)

/-- A touch is noted, and only it can be what is opened for. -/
theorem Sound.touch (h : Sound s) (action : Action) :
    Sound { s with log := s.log ++ [.touched action] } where
  known e he c hc := by
    rcases List.mem_append.mp he with he | he
    · exact h.known e he c hc
    · rw [List.mem_singleton.mp he] at hc
      cases hc
  orderly c hc := (h.orderly c hc).of_ne (by simp [Entry.conn])
  current c hc := by
    obtain ⟨shown, action', opened, es, hcurrent⟩ := h.current c hc
    have hlog : about c (s.log ++ [.touched action]) = about c s.log :=
      about_append_of_ne (by simp [Entry.conn])
    exact ⟨shown, action', opened, es,
      { last := hcurrent.last
        talk := { hcurrent.talk with log := hlog.trans hcurrent.talk.log }
        command := hcurrent.command
        deadline := hcurrent.deadline
        order := hcurrent.order
        frozen := hcurrent.frozen }⟩
  touched := by
    rw [List.filterMap_append, List.filterMap_append]
    exact h.touched.append (List.nil_sublist _)
  serial := by
    apply serial_append h.serial
    intro c hc
    cases hc

/-- The state in which a command has just been given a connection of its own. -/
theorem Sound.open (h : Sound s) (hconnected : s.panel.connected = true)
    (hfault : s.panel.fault = 0) (hbounded : action.Bounded)
    (htouched : (s.log.filterMap Entry.opens ++ [action]).Sublist (s.log.filterMap Entry.touches))
    (notice : Bytes) :
    Sound
      { s with
        panel := { s.panel with notice }
        control :=
          { fd := some s.connections
            command := commandText s.panel.revision action
            sent := 0
            response := []
            deadline := now + 15000 }
        connections := s.connections + 1
        log := s.log ++ [.opened s.connections s.panel action now] } := by
  have hnothing : about s.connections s.log = [] := by
    refine List.filter_eq_nil_iff.mpr fun e he => ?_
    simp only [beq_iff_eq]
    exact fun hconn => absurd (h.known e he _ hconn) (Nat.lt_irrefl _)
  have hlog : about s.connections (s.log ++ [.opened s.connections s.panel action now]) =
      [.opened s.connections s.panel action now] := by
    rw [about_append rfl, hnothing, List.nil_append]
  have htalk : Conversation (s.log ++ [.opened s.connections s.panel action now]) s.connections
      s.panel action now [] [] false [] :=
    { log := hlog, connected := hconnected, fault := hfault, bounded := hbounded, talks := .opened }
  exact
    { known := fun e he c hc => by
        rcases List.mem_append.mp he with he | he
        · exact (h.known e he c hc).trans (Nat.lt_succ_self _)
        · rw [List.mem_singleton.mp he] at hc
          exact Option.some.inj hc ▸ Nat.lt_succ_self _
      orderly := fun c hc => by
        rcases Nat.lt_succ_iff_lt_or_eq.mp hc with hlt | rfl
        · apply (h.orderly c hlt).of_ne
          simpa [Entry.conn] using (Nat.ne_of_lt hlt).symm
        · exact ⟨_, _, _, _, _, _, _, htalk⟩
      current := fun c hc => by
        obtain rfl : s.connections = c := Option.some.inj hc
        exact ⟨s.panel, action, now, [],
          { last := rfl
            talk := htalk
            command := commandText_eq hbounded _
            deadline := rfl
            order := .inl rfl
            frozen := rfl }⟩
      touched := by
        rw [List.filterMap_append, List.filterMap_append]
        exact htouched.trans (List.sublist_append_left _ _)
      serial := by
        apply serial_append h.serial
        intro c hc f hf d hd
        have hlt := h.known f hf d hd
        have heq : s.connections = c := Option.some.inj hc
        omega }

theorem touchAction_bounded {p : Panel} {x y : ℤ} (h : touchAction p x y = some action) :
    action.Bounded := by
  unfold touchAction at h
  have hvolume : 80 ≤ x ∧ x ≤ 720 → ((x - 80) * 100 / 640).toNat ≤ 100 := by omega
  split_ifs at h with _ _ _ _ htouch
  all_goals cases h
  · trivial
  · trivial
  · trivial
  · trivial
  · exact hvolume ⟨htouch.1, htouch.2.1⟩

theorem Sound.mutate (h : Sound s) (hbounded : action.Bounded) (connects : Bool) (now : ℤ) :
    Sound (mutate action connects now s) := by
  have htouch := h.touch action
  unfold PanelControl.mutate
  simp only
  split
  · exact htouch.quiet rfl rfl (fun _ => ⟨rfl, fun _ => rfl⟩)
  · next hready =>
    split
    · exact htouch.quiet rfl rfl (fun _ => ⟨rfl, fun _ => rfl⟩)
    · split
      · exact htouch.quiet rfl rfl (fun _ => ⟨rfl, fun _ => rfl⟩)
      · simp only [Bool.or_eq_true, Bool.not_eq_true', bne_iff_ne, ne_eq, not_or, Bool.not_eq_false,
          not_not] at hready
        apply htouch.open hready.1 hready.2 hbounded
        rw [List.filterMap_append, List.filterMap_append]
        rw [show [Entry.touched action].filterMap Entry.opens = [] from rfl, List.append_nil]
        exact h.touched.append (List.Sublist.refl [action])

theorem Sound.step (h : Sound s) (input : Input) : Sound (step s input) := by
  cases input with
  | refresh found connects answers now => exact h.refresh found connects answers now
  | touch x y connects now =>
    simp only [PanelControl.step]
    split
    · exact h
    · next action haction => exact h.mutate (touchAction_bounded haction) connects now

theorem Sound.run (h : Sound s) (inputs : List Input) : Sound (run s inputs) := by
  induction inputs generalizing s with
  | nil => exact h
  | cons input inputs ih => exact ih (h.step input)

theorem initial_sound (panel : Panel) : Sound (initial panel) where
  known e he := by cases he
  orderly conn hconn := absurd hconn (Nat.not_lt_zero _)
  current conn hconn := by cases hconn
  touched := List.Sublist.refl _
  serial := List.Pairwise.nil

/-- In every run each command was asked for by a touch of its own, while the panel was connected to
a bridge without a fault. Its line goes out on a connection of its own, every byte at most once and
before the deadline, the reply is applied at most once, behind the whole line; no two connections
are used at a time, and while one is open the panel shows what it showed at the touch. -/
theorem commands_orderly (panel : Panel) (inputs : List Input) :
    let s := run (initial panel) inputs
    (s.log.filterMap Entry.opens).Sublist (s.log.filterMap Entry.touches) ∧
      (s.log.filterMap Entry.conn).Pairwise (· ≤ ·) ∧
      (∀ e ∈ s.log, ∀ conn, e.conn = some conn →
        ∃ shown action now out reply applied es,
          Conversation s.log conn shown action now out reply applied es) ∧
      ∀ conn, s.control.fd = some conn →
        ∃ shown action now out reply es,
          Conversation s.log conn shown action now out reply false es ∧
            { s.panel with notice := shown.notice } = shown := by
  intro s
  have hsound : Sound s := (initial_sound panel).run inputs
  refine ⟨hsound.touched, hsound.serial,
    fun e he conn hconn => hsound.orderly conn (hsound.known e he conn hconn),
    fun conn hconn => ?_⟩
  obtain ⟨shown, action, now, es, hcurrent⟩ := hsound.current conn hconn
  exact ⟨shown, action, now, _, _, es, hcurrent.talk, hcurrent.frozen⟩

end ForgeOS.Native.PanelControl
