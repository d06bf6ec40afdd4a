import ForgeOS.Library.SingleFlight
import ForgeOS.Native.Bridge

/-! Commands through the music bridge. The four flags that the worker and the main loop share put
every session into one of five stages, and along them the bridge is a service that works on one
request at a time. -/

namespace ForgeOS.Native.Music

open ForgeOS.Library.SingleFlight ForgeOS.Library.Trace

/-! ### What a step on a client does -/

/-- A reply that is written where the request is read. -/
structure Immediate (s : Session) (reply : Reply) : Prop where
  outcomeOf : reply.outcomeOf = none
  snapshot : ∀ kind view, reply.body = .snapshot kind view → view = s.view

theorem errorReply_immediate (s : Session) (message : String) : Immediate s (errorReply message) :=
  ⟨rfl, fun _ _ h => nomatch h⟩

theorem snapshotReply_immediate (s : Session) (kind : ReplyKind) :
    Immediate s (snapshotReply kind s.view) :=
  ⟨rfl, fun _ _ h => by cases h; rfl⟩

theorem handle_cases (conn : ℕ) (input : Bytes) (s : Session) :
    (∃ reply, Immediate s reply ∧ handle conn input s = (s, some reply, [])) ∨
      ∃ action, s.busy = false ∧ s.view.connected = true ∧
        handle conn input s = (s.accept action, none,
          [.accepted s.accepted conn s.view.rev s.view action]) := by
  unfold handle
  cases request input with
  | invalid => exact .inl ⟨_, errorReply_immediate s _, rfl⟩
  | get => exact .inl ⟨_, snapshotReply_immediate s _, rfl⟩
  | act rev action =>
    simp only
    split_ifs with hrev hbusy hconnected
    · exact .inl ⟨_, snapshotReply_immediate s _, rfl⟩
    · exact .inl ⟨_, errorReply_immediate s _, rfl⟩
    · exact .inl ⟨_, errorReply_immediate s _, rfl⟩
    · rw [not_not] at hrev
      rw [Bool.not_eq_true] at hbusy
      rw [Bool.not_eq_true', Bool.not_eq_false] at hconnected
      exact .inr ⟨action, hbusy, hconnected, by rw [hrev]⟩

/-- A client is served without a command being accepted. -/
structure Served (s : Session) (conn : ℕ) (c c' : Client) (log : List Entry) : Prop where
  connection : c'.conn = c.conn ∨ c'.conn = none
  pending : c'.pending = c.pending
  reply : ∀ r, c'.reply = some r → c.reply = some r ∨ .replied conn r ∈ log
  entries : ∀ e ∈ log, (∃ r, Immediate s r ∧ e = .replied conn r) ∨
    ∃ r, c.reply = some r ∧ e = .sent conn r

theorem served_closed (s : Session) (conn : ℕ) (c : Client) : Served s conn c c.closed [] where
  connection := .inr rfl
  pending := rfl
  reply _ h := .inl h
  entries _ h := nomatch h

theorem served_same (s : Session) (conn : ℕ) (c : Client) (input : Bytes) :
    Served s conn c { c with input } [] where
  connection := .inl rfl
  pending := rfl
  reply _ h := .inl h
  entries _ h := nomatch h

theorem served_reply {s : Session} {reply : Reply} (h : Immediate s reply) (conn : ℕ) (c : Client)
    (input : Bytes) :
    Served s conn c { c with input, reply := some reply } [.replied conn reply] where
  connection := .inl rfl
  pending := rfl
  reply r hr := by
    cases hr
    exact .inr List.mem_cons_self
  entries e he := by
    rw [List.mem_singleton.mp he]
    exact .inl ⟨reply, h, rfl⟩

theorem receive_cases (conn : ℕ) (chunk : Bytes) (c : Client) (s : Session) :
    (∃ c' log, Served s conn c c' log ∧ receive conn chunk c s = (c', s, log)) ∨
      ∃ input action, s.busy = false ∧ s.view.connected = true ∧
        receive conn chunk c s = ({ c with input, pending := true }, s.accept action,
          [.accepted s.accepted conn s.view.rev s.view action]) := by
  unfold receive
  simp only
  split_ifs
  · exact .inl ⟨_, _, served_closed s conn c, rfl⟩
  · rcases handle_cases conn (c.input ++ chunk.take (inputSize - 1 - c.input.length)) s with
      ⟨reply, himmediate, hhandle⟩ | ⟨action, hbusy, hconnected, hhandle⟩
    · rw [hhandle]
      exact .inl ⟨_, _, served_reply himmediate conn c _, rfl⟩
    · rw [hhandle]
      exact .inr ⟨_, action, hbusy, hconnected, rfl⟩
  · exact .inl ⟨_, _, served_reply (errorReply_immediate s _) conn c _, rfl⟩
  · exact .inl ⟨_, _, served_same s conn c _, rfl⟩

theorem transmit_served {conn n : ℕ} {reply : Reply} {c : Client} (h : c.reply = some reply)
    (s : Session) : Served s conn c (transmit conn reply n c).1 (transmit conn reply n c).2 := by
  have hsent : ∀ e ∈ [Entry.sent conn reply],
      (∃ r, Immediate s r ∧ e = .replied conn r) ∨ ∃ r, c.reply = some r ∧ e = .sent conn r :=
    fun e he => .inr ⟨reply, h, List.mem_singleton.mp he⟩
  unfold transmit
  simp only
  split_ifs
  · exact ⟨.inr rfl, rfl, fun _ hr => .inl hr, hsent⟩
  · exact ⟨.inr rfl, rfl, fun _ hr => .inl hr, fun _ he => nomatch he⟩
  · exact ⟨.inl rfl, rfl, fun _ hr => .inl hr, hsent⟩
  · exact ⟨.inl rfl, rfl, fun _ hr => .inl hr, fun _ he => nomatch he⟩

/-- All that serving a client can come to. -/
theorem serve_cases (conn : ℕ) (poll : Poll) (c : Client) (s : Session) :
    (∃ c' log, Served s conn c c' log ∧ serve conn poll c s = (c', s, log)) ∨
      ∃ input action, s.busy = false ∧ s.view.connected = true ∧
        serve conn poll c s = ({ c with input, pending := true }, s.accept action,
          [.accepted s.accepted conn s.view.rev s.view action]) := by
  have hsame : Served s conn c c [] := served_same s conn c c.input
  have hclosed := served_closed s conn c
  unfold serve
  split
  · exact .inl ⟨_, _, hclosed, rfl⟩
  · split_ifs
    · exact .inl ⟨_, _, hsame, rfl⟩
    · exact receive_cases conn _ c s
  · split_ifs
    · exact .inl ⟨_, _, hsame, rfl⟩
    · exact .inl ⟨_, _, hclosed, rfl⟩
  · rename_i reply hreply
    exact .inl ⟨_, _, transmit_served hreply s, rfl⟩
  · exact .inl ⟨_, _, hclosed, rfl⟩
  · exact .inl ⟨_, _, hsame, rfl⟩

/-! ### Stages -/

/-- The command that the worker has in hand. -/
def Worker.command : Worker → Option Command
  | .waiting => none
  | .picked command => command
  | .finished command _ => command

/-- Where a request is: accepted, picked up by the worker, gone through, reported back. -/
inductive Stage (s : Session) : Worker → Option (Held ℕ) → Prop
  | free {w : Worker} (busy : s.busy = false) (done : s.done = false) (command : w.command = none) :
      Stage s w none
  | queued {w : Worker} {c : ℕ} (busy : s.busy = true) (processing : s.processing = false)
      (done : s.done = false) (command : w.command = none) :
      Stage s w (some ⟨s.command.ticket, c, false⟩)
  | picked {c : ℕ} (busy : s.busy = true) (processing : s.processing = true)
      (done : s.done = false) :
      Stage s (.picked (some s.command)) (some ⟨s.command.ticket, c, false⟩)
  | gone {c : ℕ} {ran : Bool} {cycle : Cycle} (busy : s.busy = true) (processing : s.processing = true)
      (done : s.done = false) :
      Stage s (.finished (some s.command) cycle) (some ⟨s.command.ticket, c, ran⟩)
  | settled {w : Worker} {c : ℕ} {ran : Bool} (busy : s.busy = true) (processing : s.processing = true)
      (done : s.done = true) (outcomeOf : s.outcomeOf = s.command.ticket) (command : w.command = none) :
      Stage s w (some ⟨s.command.ticket, c, ran⟩)

/-- What an entry is to the service that works on one request at a time. -/
def Entry.act : Entry → Option (Act ℕ)
  | .accepted t c _ _ _ => some (.accept t c)
  | .dispatched t _ => some (.run t)
  | .replied c reply => reply.outcomeOf.map fun t => .answer t c
  | .finished t => some (.finish t)
  | .sent _ _ => none

def acts (log : List Entry) : List (Act ℕ) := log.filterMap Entry.act

theorem acts_append (log log' : List Entry) : acts (log ++ log') = acts log ++ acts log' :=
  List.filterMap_append

/-- The desk is what the bridge is to that service. -/
structure Desked (s : State) (d : Desk ℕ) : Prop where
  stage : Stage s.session s.worker d.held
  issued : d.issued = s.session.accepted
  pending : ∀ i c, (s.clients i).conn = some c → (s.clients i).pending = true →
    d.held.map Held.issuer = some c

/-- A step to a state whose log is longer by acts that the service allows. -/
def Serves (d : Desk ℕ) (s t : State) : Prop :=
  ∃ d' log, t.log = s.log ++ log ∧ Run Step (acts log) d d' ∧ Desked t d'

theorem serves_quiet {s t : State} {d : Desk ℕ} {log : List Entry} (hlog : t.log = s.log ++ log)
    (hacts : acts log = []) (h : Desked t d) : Serves d s t :=
  ⟨d, log, hlog, hacts ▸ .nil d, h⟩

theorem serves_refl {s t : State} {d : Desk ℕ} (hlog : t.log = s.log) (h : Desked t d) :
    Serves d s t :=
  serves_quiet (by rw [hlog, List.append_nil]) rfl h

/-! ### The worker -/

theorem Stage.pick {s : Session} {held : Option (Held ℕ)} (h : Stage s .waiting held) (due : Bool) :
    Stage (pick due s).1 (pick due s).2 held := by
  unfold Music.pick
  cases h with
  | free busy done command =>
    rw [if_neg (by rw [busy]; exact Bool.false_ne_true)]
    split_ifs
    · exact .free busy done rfl
    · exact .free busy done rfl
  | queued busy processing done command =>
    rw [if_pos (by rw [busy, processing]; rfl)]
    exact .picked busy rfl done
  | settled busy processing done outcomeOf command =>
    rw [if_neg (by rw [busy, processing]; exact Bool.false_ne_true)]
    split_ifs
    · exact .settled busy processing done outcomeOf rfl
    · exact .settled busy processing done outcomeOf rfl

theorem pick_accepted (due : Bool) (s : Session) : (pick due s).1.accepted = s.accepted := by
  unfold pick
  split_ifs <;> rfl

theorem runCycle_some (command : Command) (io : Io) :
    runCycle (some command) io = ((actionCycle command.action io).1,
      if (actionCycle command.action io).2 then [.dispatched command.ticket command.action]
      else []) := by
  unfold runCycle
  cases h : actionCycle command.action io with
  | mk cycle sent =>
    simp only [h]
    cases sent <;> rfl

/-- Between its two sections the worker carries out what it has picked, and nothing otherwise. -/
theorem Stage.cycle {s : Session} {command : Option Command} {held : Option (Held ℕ)}
    (h : Stage s (.picked command) held) (io : Io) (n : ℕ) :
    ∃ held', Run Step (acts (runCycle command io).2) ⟨n, held⟩ ⟨n, held'⟩ ∧
      held'.map Held.issuer = held.map Held.issuer ∧
      Stage s (.finished command (runCycle command io).1) held' := by
  cases h with
  | free busy done command =>
    cases command
    exact ⟨none, .nil _, rfl, .free busy done rfl⟩
  | @queued _ c busy processing done command =>
    cases command
    exact ⟨_, .nil _, rfl, .queued busy processing done rfl⟩
  | @picked c busy processing done =>
    rw [runCycle_some]
    cases (actionCycle s.command.action io).2 with
    | true =>
      exact ⟨some ⟨s.command.ticket, c, true⟩, .single (.run n s.command.ticket c), rfl,
        .gone busy processing done⟩
    | false => exact ⟨_, .nil _, rfl, .gone busy processing done⟩
  | settled busy processing done outcomeOf command =>
    cases command
    exact ⟨_, .nil _, rfl, .settled busy processing done outcomeOf rfl⟩

/-- Without the page in front nothing is carried out. -/
theorem Stage.fail {s : Session} {command : Option Command} {held : Option (Held ℕ)}
    (h : Stage s (.picked command) held) : Stage s (.finished command .failed) held := by
  cases h with
  | free busy done command => exact .free busy done command
  | queued busy processing done command => exact .queued busy processing done command
  | picked busy processing done => exact .gone busy processing done
  | settled busy processing done outcomeOf command =>
    exact .settled busy processing done outcomeOf command

theorem Stage.publish {s : Session} {command : Option Command} {cycle : Cycle}
    {held : Option (Held ℕ)} (h : Stage s (.finished command cycle) held) :
    Stage (publish command cycle s) .waiting held := by
  cases h with
  | free busy done command =>
    cases command
    exact .free busy done rfl
  | queued busy processing done command =>
    cases command
    exact .queued busy processing done rfl
  | gone busy processing done => exact .settled busy processing rfl rfl rfl
  | settled busy processing done outcomeOf command =>
    cases command
    exact .settled busy processing done outcomeOf rfl

theorem publish_accepted (command : Option Command) (cycle : Cycle) (s : Session) :
    (publish command cycle s).accepted = s.accepted := by
  cases command <;> rfl

theorem workerStep_serves {s : State} {d : Desk ℕ} (h : Desked s d) (io : Io) :
    Serves d s (workerStep io s) := by
  obtain ⟨stage, issued, pending⟩ := h
  obtain ⟨n, held⟩ := d
  unfold workerStep
  cases hworker : s.worker with
  | waiting =>
    rw [hworker] at stage
    exact serves_refl rfl ⟨stage.pick io.due, issued.trans (pick_accepted _ _).symm, pending⟩
  | picked command =>
    rw [hworker] at stage
    simp only
    split_ifs with hfront
    · obtain ⟨held', hrun, hissuer, hstage⟩ := stage.cycle io n
      exact ⟨⟨n, held'⟩, (runCycle command io).2, rfl, hrun, hstage, issued,
        fun i c hconn hpending => hissuer.trans (pending i c hconn hpending)⟩
    · exact serves_refl rfl ⟨stage.fail, issued, pending⟩
  | finished command cycle =>
    rw [hworker] at stage
    exact serves_refl rfl
      ⟨stage.publish, issued.trans (publish_accepted _ _ _).symm, pending⟩

/-! ### The main loop -/

theorem acceptClient_desked {s : State} {d : Desk ℕ} (h : Desked s d) :
    Desked (acceptClient s) d := by
  unfold acceptClient
  split
  · exact ⟨h.stage, h.issued, h.pending⟩
  · rename_i i hi
    refine ⟨h.stage, h.issued, ?_⟩
    intro j c hconn hpending
    by_cases hj : j = i
    · simp only [hj, Function.update_self, Client.opened, Bool.false_eq_true] at hpending
    · simp only [Function.update_of_ne hj] at hconn hpending
      exact h.pending j c hconn hpending

theorem acceptClient_log (s : State) : (acceptClient s).log = s.log := by
  unfold acceptClient
  split <;> rfl

theorem mem_deliveries {s : State} {e : Entry} (h : e ∈ deliveries s) :
    ∃ i c, (s.clients i).conn = some c ∧ (s.clients i).pending = true ∧
      e = .replied c (outcomeReply s.session) := by
  obtain ⟨i, -, hi⟩ := List.mem_filterMap.mp h
  split_ifs at hi with hpending
  obtain ⟨c, hconn, rfl⟩ := Option.map_eq_some_iff.mp hi
  exact ⟨i, c, hconn, hpending, rfl⟩

/-- Nobody waits behind the completion step. -/
theorem deliver_pending {s : Session} {c : Client} {conn : ℕ} (h : (c.deliver s).conn = some conn) :
    (c.deliver s).pending = false := by
  unfold Client.deliver at h ⊢
  split_ifs at h ⊢ with hwaits
  · rfl
  · rw [h] at hwaits
    exact Bool.not_eq_true _ ▸ hwaits

theorem complete_serves {s : State} {d : Desk ℕ} (h : Desked s d) : Serves d s (complete s) := by
  unfold complete
  split_ifs with hdone
  · obtain ⟨stage, issued, pending⟩ := h
    obtain ⟨n, held⟩ := d
    generalize hworker : s.worker = w at stage
    cases stage with
    | free _ done => cases hdone.symm.trans done
    | queued _ _ done => cases hdone.symm.trans done
    | picked _ _ done => cases hdone.symm.trans done
    | gone _ _ done => cases hdone.symm.trans done
    | @settled _ c ran busy processing done outcomeOf command =>
      have hanswers : ∀ a ∈ acts (deliveries s), a = .answer s.session.command.ticket c := by
        intro a ha
        obtain ⟨e, he, hact⟩ := List.mem_filterMap.mp ha
        obtain ⟨i, c', hconn, hpending, rfl⟩ := mem_deliveries he
        have hissuer : c = c' := Option.some.inj (pending i c' hconn hpending)
        cases hact
        rw [← hissuer, ← outcomeOf]
      refine ⟨⟨n, none⟩, deliveries s ++ [.finished s.session.outcomeOf],
        rfl, ?_, ?_⟩
      · rw [acts_append]
        refine (run_answers hanswers).append (.single ?_)
        rw [outcomeOf]
        exact .finish n s.session.command.ticket c ran
      · refine ⟨.free rfl rfl (hworker ▸ command), issued, ?_⟩
        intro i c' hconn hpending
        cases (deliver_pending hconn).symm.trans hpending
  · exact serves_refl rfl h

theorem acts_served {s : Session} {conn : ℕ} {c c' : Client} {log : List Entry}
    (h : Served s conn c c' log) : acts log = [] := by
  apply List.filterMap_eq_nil_iff.mpr
  intro e he
  rcases h.entries e he with ⟨r, himmediate, rfl⟩ | ⟨r, -, rfl⟩
  · exact congrArg (Option.map _) himmediate.outcomeOf
  · rfl

/-- Nobody waits for a service that is idle. -/
theorem Desked.nobody_waits {s : State} {n : ℕ} (h : Desked s ⟨n, none⟩) {i : Fin clientCount}
    {c : ℕ} (hconn : (s.clients i).conn = some c) : (s.clients i).pending = false := by
  rw [← Bool.not_eq_true]
  intro hpending
  cases h.pending i c hconn hpending

theorem Stage.accept {s : Session} {w : Worker} (hbusy : s.busy = false) {held : Option (Held ℕ)}
    (h : Stage s w held) (conn : ℕ) (action : Action) :
    held = none ∧ Stage (s.accept action) w (some ⟨s.accepted, conn, false⟩) := by
  cases h with
  | free _ _ command => exact ⟨rfl, .queued rfl rfl rfl command⟩
  | queued busy => cases hbusy.symm.trans busy
  | picked busy => cases hbusy.symm.trans busy
  | gone busy => cases hbusy.symm.trans busy
  | settled busy => cases hbusy.symm.trans busy

/-- A client may be closed, and then waits for nothing. -/
theorem Desked.of_clients {s t : State} {d : Desk ℕ} (hstage : Stage t.session t.worker d.held)
    (hissued : d.issued = t.session.accepted) {i : Fin clientCount} {c' : Client}
    (hclients : t.clients = Function.update s.clients i c')
    (hi : ∀ c, c'.conn = some c → c'.pending = true → d.held.map Held.issuer = some c)
    (hother : ∀ j ≠ i, ∀ c, (s.clients j).conn = some c → (s.clients j).pending = true →
      d.held.map Held.issuer = some c) : Desked t d := by
  refine ⟨hstage, hissued, ?_⟩
  intro j c hconn hpending
  rw [hclients] at hconn hpending
  by_cases hj : j = i
  · rw [hj, Function.update_self] at hconn hpending
    exact hi c hconn hpending
  · rw [Function.update_of_ne hj] at hconn hpending
    exact hother j hj c hconn hpending

theorem closed_waits {c : Client} {late : Bool} {conn : ℕ}
    (h : (if late then c.closed else c).conn = some conn) : (if late then c.closed else c) = c := by
  cases late with
  | true => cases h
  | false => rfl

theorem serveClient_serves {s : State} {d : Desk ℕ} (h : Desked s d) (i : Fin clientCount)
    (io : MainIo) : Serves d s (serveClient i io s) := by
  unfold serveClient
  cases hconn : (s.clients i).conn with
  | none => exact serves_refl rfl h
  | some conn =>
    rcases serve_cases conn io.poll (s.clients i) s.session with
      ⟨c', log, hserved, hserve⟩ | ⟨input, action, hbusy, hconnected, hserve⟩
    · simp only [hserve]
      refine serves_quiet rfl (acts_served hserved) (Desked.of_clients h.stage h.issued rfl ?_
        fun j _ c => h.pending j c)
      intro c hc hpending
      have hopen := closed_waits hc
      rw [hopen] at hc hpending
      rcases hserved.connection with hsame | hclosed
      · exact h.pending i c (hsame ▸ hc) (hserved.pending ▸ hpending)
      · cases hclosed.symm.trans hc
    · obtain ⟨hheld, hstage⟩ := h.stage.accept hbusy conn action
      obtain ⟨n, held⟩ := d
      cases hheld
      simp only [hserve]
      have hissued : n = s.session.accepted := h.issued
      refine ⟨⟨n + 1, some ⟨n, conn, false⟩⟩, _, rfl, .single (hissued ▸ .accept n conn),
        Desked.of_clients (hissued ▸ hstage) (congrArg (· + 1) hissued) rfl ?_ ?_⟩
      · intro c hc _
        rw [closed_waits hc] at hc
        exact hconn.symm.trans hc
      · intro j _ c hc hpending
        cases (h.nobody_waits hc).symm.trans hpending

theorem Serves.of_place {d : Desk ℕ} {s t : State} (h : Serves d s t) (place : Place) :
    Serves d s { t with place } := by
  obtain ⟨d', log, hlog, hrun, hdesked⟩ := h
  exact ⟨d', log, hlog, hrun, hdesked.stage, hdesked.issued, hdesked.pending⟩

theorem mainStep_serves {s : State} {d : Desk ℕ} (h : Desked s d) (io : MainIo) :
    Serves d s (mainStep io s) := by
  unfold mainStep
  apply Serves.of_place
  cases s.place with
  | accepting =>
    simp only
    split_ifs
    · exact serves_refl (acceptClient_log s) (acceptClient_desked h)
    · exact serves_refl rfl h
  | completing => exact complete_serves h
  | serving i => exact serveClient_serves h i io

theorem step_serves {s : State} {d : Desk ℕ} (h : Desked s d) (input : Input) :
    Serves d s (step s input) := by
  cases input with
  | worker io => exact workerStep_serves h io
  | main io => exact mainStep_serves h io

theorem initial_desked (random : UInt64) : Desked (initial random) ⟨0, none⟩ where
  stage := .free rfl rfl rfl
  issued := rfl
  pending _ _ h := nomatch h

/-- The bridge works on one request at a time. -/
theorem run_serves {s : State} {d : Desk ℕ} (h : Desked s d) (inputs : List Input) :
    Serves d s (run s inputs) := by
  induction inputs generalizing s d with
  | nil => exact serves_refl rfl h
  | cons input inputs ih =>
    obtain ⟨d', log, hlog, hrun, hdesked⟩ := step_serves h input
    obtain ⟨d'', log', hlog', hrun', hdesked'⟩ := ih hdesked
    refine ⟨d'', log ++ log', ?_, ?_, hdesked'⟩
    · rw [run, List.foldl_cons, ← run, hlog', hlog, List.append_assoc]
    · rw [acts_append]
      exact hrun.append hrun'

theorem run_acts (random : UInt64) (inputs : List Input) :
    ∃ d, Run Step (acts (run (initial random) inputs).log) ⟨0, none⟩ d := by
  obtain ⟨d, log, hlog, hrun, -⟩ := run_serves (initial_desked random) inputs
  exact ⟨d, by rwa [hlog]⟩

/-! ### What is sent, and what is carried out -/

/-- What an entry needs in the log before it: a reply for what is sent, an acceptance for what is
carried out. A request is accepted under the revision of the view. -/
def Founded (log : List Entry) : Entry → Prop
  | .accepted _ _ named view _ => named = view.rev
  | .dispatched t action => ∃ c named view, .accepted t c named view action ∈ log
  | .sent c reply => .replied c reply ∈ log
  | .replied _ _ => True
  | .finished _ => True

theorem Founded.mono {log log' : List Entry} (hsub : ∀ e ∈ log, e ∈ log') {e : Entry}
    (h : Founded log e) : Founded log' e := by
  cases e with
  | dispatched t action =>
    obtain ⟨c, named, view, hmem⟩ := h
    exact ⟨c, named, view, hsub _ hmem⟩
  | sent c reply => exact hsub _ h
  | _ => exact h

/-- The log of a state accounts for what the state holds. -/
structure Accounted (s : State) : Prop where
  entries : ∀ e ∈ s.log, Founded s.log e
  replies : ∀ i c reply, (s.clients i).conn = some c → (s.clients i).reply = some reply →
    .replied c reply ∈ s.log
  command : s.session.busy = true →
    Founded s.log (.dispatched s.session.command.ticket s.session.command.action)
  worker : ∀ command, s.worker.command = some command →
    Founded s.log (.dispatched command.ticket command.action)

theorem entries_append {log new : List Entry} (h : ∀ e ∈ log, Founded log e)
    (hnew : ∀ e ∈ new, Founded (log ++ new) e) : ∀ e ∈ log ++ new, Founded (log ++ new) e := by
  intro e he
  rcases List.mem_append.mp he with he | he
  · exact (h e he).mono fun _ => List.mem_append_left new
  · exact hnew e he

theorem pick_spec (due : Bool) (s : Session) :
    (pick due s).1.busy = s.busy ∧ (pick due s).1.command = s.command ∧
      ∀ command, (pick due s).2.command = some command → s.busy = true ∧ command = s.command := by
  unfold pick
  split_ifs with hbusy
  · rw [Bool.and_eq_true] at hbusy
    exact ⟨rfl, rfl, fun command h => ⟨hbusy.1, (Option.some.inj h).symm⟩⟩
  · exact ⟨rfl, rfl, fun _ h => nomatch h⟩
  · exact ⟨rfl, rfl, fun _ h => nomatch h⟩

theorem publish_spec (command : Option Command) (cycle : Cycle) (s : Session) :
    (publish command cycle s).busy = s.busy ∧ (publish command cycle s).command = s.command := by
  cases command <;> exact ⟨rfl, rfl⟩

theorem workerStep_accounted {s : State} (h : Accounted s) (io : Io) :
    Accounted (workerStep io s) := by
  obtain ⟨entries, replies, command, worker⟩ := h
  unfold workerStep
  cases hworker : s.worker with
  | waiting =>
    obtain ⟨hbusy, hcommand, hpicked⟩ := pick_spec io.due s.session
    refine ⟨entries, replies, ?_, ?_⟩
    · intro h
      rw [hcommand]
      exact command (hbusy ▸ h)
    · intro c hc
      obtain ⟨h, rfl⟩ := hpicked c hc
      exact command h
  | picked picked =>
    simp only
    split_ifs
    · have hsub : ∀ e ∈ s.log, e ∈ s.log ++ (runCycle picked io).2 :=
        fun _ => List.mem_append_left _
      refine ⟨entries_append entries ?_, fun i c r hc hr => hsub _ (replies i c r hc hr),
        fun h => (command h).mono hsub, fun c hc => (worker c (hworker ▸ hc)).mono hsub⟩
      intro e he
      cases picked with
      | none => cases he
      | some picked =>
        rw [runCycle_some] at he
        split_ifs at he
        · rw [List.mem_singleton.mp he]
          exact (worker picked (by rw [hworker]; rfl)).mono hsub
        · cases he
    · exact ⟨entries, replies, command, fun c hc => worker c (hworker ▸ hc)⟩
  | finished finished cycle =>
    obtain ⟨hbusy, hcommand⟩ := publish_spec finished cycle s.session
    refine ⟨entries, replies, ?_, fun _ hc => nomatch hc⟩
    intro h
    rw [hcommand]
    exact command (hbusy ▸ h)

theorem acceptClient_accounted {s : State} (h : Accounted s) : Accounted (acceptClient s) := by
  obtain ⟨entries, replies, command, worker⟩ := h
  unfold acceptClient
  split
  · exact ⟨entries, replies, command, worker⟩
  · rename_i i hi
    refine ⟨entries, ?_, command, worker⟩
    intro j c reply hconn hreply
    by_cases hj : j = i
    · simp only [hj, Function.update_self, Client.opened, reduceCtorEq] at hreply
    · simp only [Function.update_of_ne hj] at hconn hreply
      exact replies j c reply hconn hreply

theorem mem_deliveries_of {s : State} {i : Fin clientCount} {c : ℕ}
    (hconn : (s.clients i).conn = some c) (hpending : (s.clients i).pending = true) :
    .replied c (outcomeReply s.session) ∈ deliveries s := by
  apply List.mem_filterMap.mpr
  exact ⟨i, List.mem_finRange i, by rw [if_pos hpending, hconn]; rfl⟩

theorem complete_accounted {s : State} (h : Accounted s) : Accounted (complete s) := by
  obtain ⟨entries, replies, command, worker⟩ := h
  unfold complete
  split_ifs
  · refine ⟨entries_append entries ?_, ?_, (fun h => nomatch h),
      fun c hc => (worker c hc).mono fun _ => List.mem_append_left _⟩
    · intro e he
      rcases List.mem_append.mp he with he | he
      · obtain ⟨-, c, -, -, rfl⟩ := mem_deliveries he
        trivial
      · rw [List.mem_singleton.mp he]
        trivial
    · intro i c reply hconn hreply
      simp only [Client.deliver] at hconn hreply
      split_ifs at hconn hreply with hwaits
      · rw [Bool.and_eq_true] at hwaits
        cases hreply
        exact List.mem_append_right _
          (List.mem_append_left _ (mem_deliveries_of hconn hwaits.2))
      · exact List.mem_append_left _ (replies i c reply hconn hreply)
  · exact ⟨entries, replies, command, worker⟩

theorem serveClient_accounted {s : State} (h : Accounted s) (i : Fin clientCount) (io : MainIo) :
    Accounted (serveClient i io s) := by
  obtain ⟨entries, replies, command, worker⟩ := h
  unfold serveClient
  cases hconn : (s.clients i).conn with
  | none => exact ⟨entries, replies, command, worker⟩
  | some conn =>
    rcases serve_cases conn io.poll (s.clients i) s.session with
      ⟨c', log, hserved, hserve⟩ | ⟨input, action, hbusy, hconnected, hserve⟩
    · simp only [hserve]
      have hsub : ∀ e ∈ s.log, e ∈ s.log ++ log := fun _ => List.mem_append_left _
      refine ⟨entries_append entries ?_, ?_, fun h => (command h).mono hsub,
        fun c hc => (worker c hc).mono hsub⟩
      · intro e he
        rcases hserved.entries e he with ⟨r, -, rfl⟩ | ⟨r, hr, rfl⟩
        · trivial
        · exact hsub _ (replies i conn r hconn hr)
      · intro j c reply hc hreply
        by_cases hj : j = i
        · simp only [hj, Function.update_self] at hc hreply
          have hopen := closed_waits hc
          rw [hopen] at hc hreply
          have hown : c = conn := by
            rcases hserved.connection with hsame | hclosed
            · exact Option.some.inj (hc.symm.trans (hsame.trans hconn))
            · cases hclosed.symm.trans hc
          rw [hown]
          rcases hserved.reply reply hreply with hold | hnew
          · exact hsub _ (replies i conn reply hconn hold)
          · exact List.mem_append_right _ hnew
        · simp only [Function.update_of_ne hj] at hc hreply
          exact hsub _ (replies j c reply hc hreply)
    · simp only [hserve]
      have hsub : ∀ e ∈ s.log, e ∈ s.log ++ [Entry.accepted s.session.accepted conn
        s.session.view.rev s.session.view action] := fun _ => List.mem_append_left _
      refine ⟨entries_append entries ?_, ?_, fun _ => ?_,
        fun c hc => (worker c hc).mono hsub⟩
      · intro e he
        rw [List.mem_singleton.mp he]
        rfl
      · intro j c reply hc hreply
        by_cases hj : j = i
        · simp only [hj, Function.update_self] at hc hreply
          have hopen := closed_waits hc
          rw [hopen] at hc hreply
          exact hsub _ (replies i c reply hc hreply)
        · simp only [Function.update_of_ne hj] at hc hreply
          exact hsub _ (replies j c reply hc hreply)
      · exact ⟨conn, s.session.view.rev, s.session.view, List.mem_append_right _ List.mem_cons_self⟩

theorem Accounted.of_place {s : State} (h : Accounted s) (place : Place) :
    Accounted { s with place } := ⟨h.entries, h.replies, h.command, h.worker⟩

theorem step_accounted {s : State} (h : Accounted s) (input : Input) :
    Accounted (step s input) := by
  cases input with
  | worker io => exact workerStep_accounted h io
  | main io =>
    apply Accounted.of_place
    cases s.place with
    | accepting =>
      simp only
      split_ifs
      · exact acceptClient_accounted h
      · exact h
    | completing => exact complete_accounted h
    | serving i => exact serveClient_accounted h i io

theorem initial_accounted (random : UInt64) : Accounted (initial random) where
  entries _ h := nomatch h
  replies _ _ _ h := nomatch h
  command h := nomatch h
  worker _ h := nomatch h

theorem run_accounted (random : UInt64) (inputs : List Input) :
    Accounted (run (initial random) inputs) := by
  suffices h : ∀ s, Accounted s → Accounted (run s inputs) from h _ (initial_accounted random)
  induction inputs with
  | nil => exact fun _ h => h
  | cons input inputs ih => exact fun s h => ih (step s input) (step_accounted h input)

/-! ### Commands over whole runs -/

/-- The log says that this request went to the browser. -/
def Entry.dispatches (t : ℕ) : Entry → Bool
  | .dispatched t' _ => t' == t
  | _ => false

/-- What the bridge promises of its commands. -/
structure Exclusive (log : List Entry) : Prop where
  once : ∀ t, log.countP (Entry.dispatches t) ≤ 1
  genuine : ∀ t action, .dispatched t action ∈ log →
    ∃ c named view, .accepted t c named view action ∈ log
  current : ∀ t c named view action, .accepted t c named view action ∈ log → named = view.rev
  alone : ∀ es fs t c named view action, log = es ++ .accepted t c named view action :: fs →
    ∀ t' c' named' view' action', .accepted t' c' named' view' action' ∈ es →
      t' ≠ t ∧ .finished t' ∈ es
  own : ∀ c reply t, .sent c reply ∈ log → reply.outcomeOf = some t →
    ∃ named view action, .accepted t c named view action ∈ log

theorem act_finish {t : ℕ} {e : Entry} : e.act = some (.finish t) ↔ e = .finished t := by
  cases e with
  | replied c reply => simp [Entry.act]
  | finished t' => simp [Entry.act]
  | _ => simp [Entry.act]

theorem act_accept {t c : ℕ} {e : Entry} :
    e.act = some (.accept t c) ↔ ∃ named view action, e = .accepted t c named view action := by
  cases e with
  | accepted t' c' named view action => simp [Entry.act]
  | replied c reply => simp [Entry.act]
  | _ => simp [Entry.act]

theorem mem_acts_finish {t : ℕ} {log : List Entry} : .finish t ∈ acts log ↔ .finished t ∈ log := by
  rw [acts, List.mem_filterMap]
  constructor
  · rintro ⟨e, he, hact⟩
    rwa [act_finish.mp hact] at he
  · exact fun h => ⟨_, h, rfl⟩

theorem mem_acts_accept {t c : ℕ} {log : List Entry} :
    .accept t c ∈ acts log ↔ ∃ named view action, .accepted t c named view action ∈ log := by
  rw [acts, List.mem_filterMap]
  constructor
  · rintro ⟨e, he, hact⟩
    obtain ⟨named, view, action, rfl⟩ := act_accept.mp hact
    exact ⟨named, view, action, he⟩
  · rintro ⟨named, view, action, h⟩
    exact ⟨_, h, rfl⟩

theorem count_dispatched (t : ℕ) (log : List Entry) :
    log.countP (Entry.dispatches t) = (acts log).count (.run t) := by
  induction log with
  | nil => rfl
  | cons e log ih =>
    rw [List.countP_cons, ih, ← List.singleton_append, acts_append, List.count_append, Nat.add_comm]
    congr 1
    cases e with
    | dispatched t' action =>
      by_cases h : t' = t
      · simp [acts, Entry.act, Entry.dispatches, h]
      · simp [acts, Entry.act, Entry.dispatches, h]
    | replied c reply => cases h : reply.outcomeOf <;> simp [acts, Entry.act, Entry.dispatches, h]
    | sent c reply => rfl
    | _ => simp [acts, Entry.act, Entry.dispatches]

/-- However clients come, send, time out and leave, and whatever the worker finds: no command goes
to the browser twice, none is accepted beside another or under an old revision, and nobody is sent
the outcome of another's. -/
theorem commands_exclusive (random : UInt64) (inputs : List Input) :
    Exclusive (run (initial random) inputs).log := by
  obtain ⟨d, hrun⟩ := run_acts random inputs
  have haccounted := (run_accounted random inputs).entries
  generalize (run (initial random) inputs).log = log at hrun haccounted
  have hbooks := books_of_run hrun
  constructor
  case once =>
    intro t
    rw [count_dispatched]
    exact hbooks.once t
  case genuine => exact fun t action h => haccounted _ h
  case current => exact fun t c named view action h => haccounted _ h
  case alone =>
    intro es fs t c named view action hlog t' c' named' view' action' hmem
    rw [hlog, acts_append] at hrun
    obtain ⟨hne, hfinish⟩ := accepted_alone hrun t' c'
      (mem_acts_accept.mpr ⟨named', view', action', hmem⟩)
    exact ⟨hne, mem_acts_finish.mp hfinish⟩
  case own =>
    intro c reply t hsent hof
    have hreplied : .answer t c ∈ acts log := by
      apply List.mem_filterMap.mpr
      exact ⟨_, haccounted _ hsent, congrArg (Option.map _) hof⟩
    exact mem_acts_accept.mp (hbooks.answered t c hreplied)

end ForgeOS.Native.Music
