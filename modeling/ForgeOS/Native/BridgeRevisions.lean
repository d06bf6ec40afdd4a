import ForgeOS.Library.Versions
import ForgeOS.Native.BridgeCommands

/-! What a revision of the music bridge stands for. Accepting a command raises the revision at once,
the worker changes the view under it when the command is through, and a snapshot that is written in
between shows under the new revision what was there before. -/

namespace ForgeOS.Native.Music

open ForgeOS.Library.Conditions ForgeOS.Library.Versions

/-! ### What is said of revisions -/

def Reply.snapshot (reply : Reply) : Option View :=
  match reply.body with
  | .snapshot _ view => some view
  | .error _ => none

/-- The view that a client is shown. -/
def Entry.snapshot : Entry → Option View
  | .replied _ reply => reply.snapshot
  | .sent _ reply => reply.snapshot
  | _ => none

def View.version (v : View) : ℕ × Shown := (v.rev.toNat, v.shown)

/-- A snapshot speaks of its revision, and an accepted command of the one it has named. -/
def Entry.said : Entry → Option (ℕ × Shown)
  | .accepted _ _ named view _ => some (named.toNat, view.shown)
  | e => e.snapshot.map View.version

def said (log : List Entry) : List (ℕ × Shown) := log.filterMap Entry.said

def snapshots (log : List Entry) : List View := log.filterMap Entry.snapshot

theorem mem_said_of_snapshot {log : List Entry} {v : View} (h : v ∈ snapshots log) :
    v.version ∈ said log := by
  obtain ⟨e, he, hv⟩ := List.mem_filterMap.mp h
  refine List.mem_filterMap.mpr ⟨e, he, ?_⟩
  cases e with
  | accepted t c named view action => cases hv
  | _ => exact congrArg (Option.map View.version) hv

/-! ### The condition -/

/-- The worker is about to publish what an action has come to, it differs from what the revision has
stood for, and a client has been shown that. -/
def Overtaken (s : State) : Prop :=
  match s.worker with
  | .finished (some _) cycle =>
    (nextView true cycle s.session.view).shown ≠ s.session.view.shown ∧
      ∃ v ∈ snapshots s.log, v.rev = s.session.view.rev
  | _ => False

instance (s : State) : Decidable (Overtaken s) := by
  unfold Overtaken
  split <;> infer_instance

/-- Nothing is published over what a client has been shown, and the revision can be counted on. -/
def Renewable (s : State) : Input → Prop
  | .worker _ => ¬Overtaken s ∧ s.session.view.rev.toNat + 1 < 2 ^ 64
  | .main _ => s.session.view.rev.toNat + 1 < 2 ^ 64

instance (s : State) (input : Input) : Decidable (Renewable s input) := by
  unfold Renewable
  split <;> infer_instance

/-! ### What a step does to what is said -/

/-- All that has been said is right, accepted commands have named earlier revisions, and a cycle
that has succeeded has seen the player. -/
structure Truthful (s : State) : Prop where
  current : Current (said s.log) s.session.view.rev.toNat s.session.view.shown
  earlier : ∀ t c named view action, .accepted t c named view action ∈ s.log →
    named.toNat < s.session.view.rev.toNat
  cycle : ∀ command cycle, s.worker = .finished command cycle → cycle.succeeded = true →
    cycle.fresh.connected = true

theorem readView_connected {raw : Bytes} {v : View} (h : readView raw = some v) :
    v.connected = true := by
  unfold readView at h
  split at h
  · simp only [Option.bind_eq_bind, Option.bind_eq_some_iff] at h
    obtain ⟨p, -, q, -, w, -, h⟩ := h
    split_ifs at h
    cases h
    rfl
  · cases h

theorem readState_connected {raw : Option Bytes} {v : View} (h : readState raw = some v) :
    v.connected = true := by
  obtain ⟨text, -, hread⟩ := Option.bind_eq_some_iff.mp h
  exact readView_connected hread

theorem confirm_connected {action : Action} {expectedId : Bytes} {fresh : View}
    {polls : List (Option Bytes)} (hfresh : fresh.connected = true) :
    (confirm action expectedId fresh polls).fresh.connected = true := by
  induction polls generalizing fresh with
  | nil => exact hfresh
  | cons raw later ih =>
    unfold confirm
    cases hread : readState raw with
    | none => exact ih hfresh
    | some after =>
      have hafter := readState_connected hread
      simp only
      split_ifs
      · exact hafter
      · exact hafter
      · exact ih hafter

theorem runCycle_connected {command : Option Command} {io : Io}
    (h : (runCycle command io).1.succeeded = true) :
    (runCycle command io).1.fresh.connected = true := by
  cases command with
  | none =>
    unfold runCycle readCycle at h ⊢
    cases hread : readState io.before with
    | none =>
      rw [hread] at h
      cases h
    | some fresh => exact readState_connected hread
  | some command =>
    rw [runCycle_some] at h ⊢
    unfold actionCycle at h ⊢
    cases hread : readState io.before with
    | none =>
      rw [hread] at h
      cases h
    | some fresh =>
      have hfresh := readState_connected hread
      simp only
      split_ifs
      · exact hfresh
      · cases doAction command.action io.dispatch with
        | none => exact hfresh
        | some expectedId => exact confirm_connected hfresh

/-- Where nothing has changed, a view that has been read shows the same. -/
theorem shown_of_not_changed {old fresh : View} (h : changed old fresh = false)
    (hfresh : fresh.connected = true) : fresh.shown = old.shown := by
  simp only [changed, Bool.or_eq_false_iff, Bool.not_eq_false', bne_eq_false_iff_eq] at h
  obtain ⟨⟨⟨⟨⟨⟨hconnected, hplaying⟩, hvolume⟩, htitle⟩, hartist⟩, houtput⟩, hstatus⟩ := h
  rw [View.shown, View.shown, hfresh, hconnected, hplaying, hvolume, htitle, hartist, houtput,
    hstatus]

/-- A look at the player raises the revision or leaves what it stands for. -/
theorem nextView_read {cycle : Cycle} {old : View}
    (hcycle : cycle.succeeded = true → cycle.fresh.connected = true) :
    (nextView false cycle old).rev = old.rev + 1 ∨
      (nextView false cycle old).version = old.version := by
  unfold nextView
  simp only [Bool.false_and, Bool.or_false, Bool.not_false, Bool.true_and, Bool.and_true]
  split_ifs with hsucceeded hchanged hconnected
  · exact .inl rfl
  · refine .inr (Prod.ext ?_ ?_)
    · exact congrArg UInt64.toNat (UInt64.add_zero _)
    · exact shown_of_not_changed (Bool.not_eq_true _ ▸ hchanged) (hcycle hsucceeded)
  · exact .inl rfl
  · refine .inr (Prod.ext ?_ ?_)
    · exact congrArg UInt64.toNat (UInt64.add_zero _)
    · have hlost : old.connected = false := Bool.not_eq_true _ ▸ hconnected
      simp only [View.version, View.shown, hlost]

/-- An action leaves the revision. -/
theorem nextView_action (cycle : Cycle) (old : View) : (nextView true cycle old).rev = old.rev := by
  unfold nextView
  simp only [Bool.not_true, Bool.false_and, Bool.and_false, Bool.false_eq_true, if_false,
    UInt64.add_zero]
  split_ifs <;> rfl

theorem said_append (log new : List Entry) : said (log ++ new) = said log ++ said new :=
  List.filterMap_append

theorem toNat_succ {rev : UInt64} (h : rev.toNat + 1 < 2 ^ 64) : rev.toNat < (rev + 1).toNat := by
  rw [UInt64.toNat_add, UInt64.toNat_one]
  omega

theorem publish_view (command : Option Command) (cycle : Cycle) (s : Session) :
    (publish command cycle s).view = nextView command.isSome cycle s.view := by
  cases command <;> rfl

theorem publish_rev_le {command : Option Command} {cycle : Cycle} {old : View}
    (hcycle : cycle.succeeded = true → cycle.fresh.connected = true)
    (hrev : old.rev.toNat + 1 < 2 ^ 64) :
    old.rev.toNat ≤ (nextView command.isSome cycle old).rev.toNat := by
  cases command with
  | none =>
    rcases nextView_read hcycle with hraised | hsame
    · rw [Option.isSome_none, hraised]
      exact (toNat_succ hrev).le
    · exact (congrArg Prod.fst hsame).ge
  | some command => rw [Option.isSome_some, nextView_action]

theorem said_runCycle (command : Option Command) (io : Io) : said (runCycle command io).2 = [] := by
  cases command with
  | none => rfl
  | some command =>
    rw [runCycle_some]
    cases (actionCycle command.action io).2 <;> rfl

theorem not_accepted_runCycle {command : Option Command} {io : Io} {t c : ℕ} {named : UInt64}
    {view : View} {action : Action} :
    .accepted t c named view action ∉ (runCycle command io).2 := by
  intro h
  have hsaid : (named.toNat, view.shown) ∈ said (runCycle command io).2 :=
    List.mem_filterMap.mpr ⟨_, h, rfl⟩
  rw [said_runCycle] at hsaid
  cases hsaid

theorem said_cases {e : Entry} {p : ℕ × Shown} (h : e.said = some p) :
    (∃ t c named view action, e = .accepted t c named view action ∧
      p = (named.toNat, view.shown)) ∨ ∃ v, e.snapshot = some v ∧ v.version = p := by
  cases e with
  | accepted t c named view action =>
    exact .inl ⟨t, c, named, view, action, rfl, (Option.some.inj h).symm⟩
  | replied c reply => exact .inr (Option.map_eq_some_iff.mp h)
  | sent c reply => exact .inr (Option.map_eq_some_iff.mp h)
  | _ => cases h

/-- What has been said of the current revision has been said in a snapshot. -/
theorem Truthful.snapshot_of_said {s : State} (h : Truthful s) {p : ℕ × Shown}
    (hp : p ∈ said s.log) (hv : p.1 = s.session.view.rev.toNat) :
    ∃ v ∈ snapshots s.log, v.rev = s.session.view.rev := by
  obtain ⟨e, he, hsaid⟩ := List.mem_filterMap.mp hp
  rcases said_cases hsaid with ⟨t, c, named, view, action, rfl, rfl⟩ | ⟨v, hsnapshot, rfl⟩
  · exact absurd hv (h.earlier t c named view action he).ne
  · exact ⟨v, List.mem_filterMap.mpr ⟨_, he, hsnapshot⟩, UInt64.toNat_inj.mp hv⟩

theorem workerStep_truthful {s : State} (h : Truthful s) (io : Io) (hnot : ¬Overtaken s)
    (hrev : s.session.view.rev.toNat + 1 < 2 ^ 64) : Truthful (workerStep io s) := by
  have hsaid : ∀ p ∈ said s.log, _ → _ := fun p => h.snapshot_of_said
  obtain ⟨current, earlier, cycle⟩ := h
  unfold workerStep
  cases hworker : s.worker with
  | waiting =>
    have hview : (pick io.due s.session).1.view = s.session.view := by
      unfold pick
      split_ifs <;> rfl
    refine ⟨?_, ?_, ?_⟩
    · simp only [hview]
      exact current
    · simp only [hview]
      exact earlier
    · intro command c hc
      simp only [pick] at hc
      split_ifs at hc
  | picked command =>
    simp only
    split_ifs
    · refine ⟨?_, ?_, ?_⟩
      · simp only [said_append, said_runCycle, List.append_nil]
        exact current
      · intro t c named view action hmem
        rcases List.mem_append.mp hmem with hmem | hmem
        · exact earlier t c named view action hmem
        · exact absurd hmem not_accepted_runCycle
      · intro _ _ hc hsucceeded
        cases hc
        exact runCycle_connected hsucceeded
    · refine ⟨current, earlier, ?_⟩
      intro _ _ hc hsucceeded
      cases hc
      cases hsucceeded
  | finished command c =>
    have hcycle := cycle command c hworker
    refine ⟨?_, ?_, fun _ _ hc => nomatch hc⟩
    · simp only [publish_view]
      cases command with
      | none =>
        rcases nextView_read hcycle with hraised | hsame
        · rw [Option.isSome_none, hraised]
          exact current.raise (toNat_succ hrev)
        · rw [View.version, View.version, Prod.mk.injEq] at hsame
          rw [Option.isSome_none, hsame.1, hsame.2]
          exact current
      | some command =>
        rw [Option.isSome_some, nextView_action]
        by_cases hshown : (nextView true c s.session.view).shown = s.session.view.shown
        · rw [hshown]
          exact current
        · refine current.change fun p hp hv => hnot ?_
          rw [Overtaken, hworker]
          exact ⟨hshown, hsaid p hp hv⟩
    · simp only [publish_view]
      exact fun t c named view action hmem =>
        (earlier t c named view action hmem).trans_le (publish_rev_le hcycle hrev)

theorem mem_said {log : List Entry} {c : ℕ} {reply : Reply} (h : .replied c reply ∈ log) {v : View}
    (hv : reply.snapshot = some v) : v.version ∈ said log :=
  mem_said_of_snapshot (List.mem_filterMap.mpr ⟨_, h, hv⟩)

theorem outcomeReply_snapshot {s : Session} {v : View} (h : (outcomeReply s).snapshot = some v) :
    v = s.view := by
  unfold outcomeReply Reply.snapshot at h
  simp only at h
  split at h
  · rename_i hbody
    split_ifs at hbody
    · cases hbody
      exact (Option.some.inj h).symm
    · cases hbody
      exact (Option.some.inj h).symm
  · cases h

theorem Immediate.view {s : Session} {reply : Reply} (h : Immediate s reply) {v : View}
    (hv : reply.snapshot = some v) : v = s.view := by
  unfold Reply.snapshot at hv
  split at hv
  · rename_i kind view hbody
    exact (Option.some.inj hv).symm.trans (h.snapshot kind view hbody)
  · cases hv

theorem complete_truthful {s : State} (h : Truthful s) : Truthful (complete s) := by
  obtain ⟨current, earlier, cycle⟩ := h
  unfold complete
  split_ifs
  · refine ⟨?_, ?_, cycle⟩
    · rw [said_append]
      refine current.append fun p hp => .inl ?_
      obtain ⟨e, he, hp⟩ := List.mem_filterMap.mp hp
      rcases List.mem_append.mp he with he | he
      · obtain ⟨-, c, -, -, rfl⟩ := mem_deliveries he
        obtain ⟨v, hv, rfl⟩ := Option.map_eq_some_iff.mp hp
        rw [outcomeReply_snapshot hv]
        rfl
      · rw [List.mem_singleton.mp he] at hp
        cases hp
    · intro t c named view action hmem
      rcases List.mem_append.mp hmem with hmem | hmem
      · exact earlier t c named view action hmem
      · rcases List.mem_append.mp hmem with hmem | hmem
        · obtain ⟨-, c, -, -, he⟩ := mem_deliveries hmem
          cases he
        · cases List.mem_singleton.mp hmem
  · exact ⟨current, earlier, cycle⟩

theorem serveClient_truthful {s : State} (h : Truthful s) (hlog : Accounted s)
    (hrev : s.session.view.rev.toNat + 1 < 2 ^ 64) (i : Fin clientCount) (io : MainIo) :
    Truthful (serveClient i io s) := by
  obtain ⟨current, earlier, cycle⟩ := h
  unfold serveClient
  cases hconn : (s.clients i).conn with
  | none => exact ⟨current, earlier, cycle⟩
  | some conn =>
    rcases serve_cases conn io.poll (s.clients i) s.session with
      ⟨c', log, hserved, hserve⟩ | ⟨input, action, hbusy, hconnected, hserve⟩
    · simp only [hserve]
      refine ⟨?_, ?_, cycle⟩
      · simp only [said_append]
        refine current.append fun p hp => ?_
        obtain ⟨e, he, hp⟩ := List.mem_filterMap.mp hp
        rcases hserved.entries e he with ⟨r, himmediate, rfl⟩ | ⟨r, hr, rfl⟩
        · obtain ⟨v, hv, rfl⟩ := Option.map_eq_some_iff.mp hp
          rw [himmediate.view hv]
          exact .inl rfl
        · obtain ⟨v, hv, rfl⟩ := Option.map_eq_some_iff.mp hp
          exact .inr (mem_said (hlog.replies i conn r hconn hr) hv)
      · intro t c named view action hmem
        rcases List.mem_append.mp hmem with hmem | hmem
        · exact earlier t c named view action hmem
        · rcases hserved.entries _ hmem with ⟨r, -, he⟩ | ⟨r, -, he⟩
          · cases he
          · cases he
    · simp only [hserve]
      have hraised : s.session.view.rev.toNat < (s.session.accept action).view.rev.toNat :=
        toNat_succ hrev
      refine ⟨?_, ?_, cycle⟩
      · simp only [said_append]
        refine (current.append fun p hp => .inl ?_).raise hraised
        exact List.mem_singleton.mp hp
      · intro t c named view action hmem
        rcases List.mem_append.mp hmem with hmem | hmem
        · exact (earlier t c named view action hmem).trans hraised
        · cases List.mem_singleton.mp hmem
          exact hraised

theorem acceptClient_truthful {s : State} (h : Truthful s) : Truthful (acceptClient s) := by
  unfold acceptClient
  split <;> exact ⟨h.current, h.earlier, h.cycle⟩

theorem mainStep_truthful {s : State} (h : Truthful s) (hlog : Accounted s)
    (hrev : s.session.view.rev.toNat + 1 < 2 ^ 64) (io : MainIo) : Truthful (mainStep io s) := by
  have hplace : ∀ {t : State} (place : Place), Truthful t → Truthful { t with place } :=
    fun _ h => ⟨h.current, h.earlier, h.cycle⟩
  unfold mainStep
  apply hplace
  cases s.place with
  | accepting =>
    simp only
    split_ifs
    · exact acceptClient_truthful h
    · exact h
  | completing => exact complete_truthful h
  | serving i => exact serveClient_truthful h hlog hrev i io

theorem step_truthful {s : State} (h : Truthful s) (hlog : Accounted s) {input : Input}
    (hrenewable : Renewable s input) : Truthful (step s input) := by
  cases input with
  | worker io => exact workerStep_truthful h io hrenewable.1 hrenewable.2
  | main io => exact mainStep_truthful h hlog hrenewable io

theorem initial_truthful (random : UInt64) : Truthful (initial random) where
  current := current_nil _ _
  earlier _ _ _ _ _ h := nomatch h
  cycle _ _ h := nomatch h

theorem run_truthful {s : State} (h : Truthful s) (hlog : Accounted s) {inputs : List Input}
    (hinputs : Along step Renewable s inputs) : Truthful (run s inputs) := by
  induction inputs generalizing s with
  | nil => exact h
  | cons input inputs ih =>
    exact ih (step_truthful h hlog hinputs.1) (step_accounted hlog input) hinputs.2

/-! ### Revisions over whole runs -/

/-- Where nothing is published over what a client has been shown, two snapshots of one revision show
the same, and a command acts on what a snapshot of the revision it names has shown. -/
theorem revision_means {random : UInt64} {inputs : List Input}
    (h : Along step Renewable (initial random) inputs) :
    let log := (run (initial random) inputs).log
    (∀ v ∈ snapshots log, ∀ w ∈ snapshots log, v.rev = w.rev → v.shown = w.shown) ∧
      ∀ t c named view action, .accepted t c named view action ∈ log →
        ∀ v ∈ snapshots log, v.rev = named → v.shown = view.shown := by
  intro log
  have agree := (run_truthful (initial_truthful random) (initial_accounted random) h).current.agree
  constructor
  · intro v hv w hw hrev
    exact agree v.version (mem_said_of_snapshot hv) w.version (mem_said_of_snapshot hw)
      (congrArg UInt64.toNat hrev)
  · intro t c named view action hmem v hv hrev
    exact agree v.version (mem_said_of_snapshot hv) (named.toNat, view.shown)
      (List.mem_filterMap.mpr ⟨_, hmem, rfl⟩) (congrArg UInt64.toNat hrev)

/-! ### A command and a look at the same time -/

/-- What the page says of a player with one song. -/
def songText (playing : Bool) : Bytes :=
  ascii (if playing then "1\t0\t50\tSong\tArtist\tHall" else "0\t0\t50\tSong\tArtist\tHall")

def songView (rev : UInt64) (playing : ℕ) : View :=
  { noView with
    rev
    playing
    volume := 50
    connected := true
    title := ascii "Song"
    artist := ascii "Artist"
    output := ascii "Hall"
    status := ascii "READY" }

def lookIo : Io where
  due := true
  activate := true
  before := some (songText true)
  dispatch := none
  after := []

def pauseIo : Io where
  due := false
  activate := true
  before := some (songText true)
  dispatch := some (ascii "ok")
  after := [some (songText false)]

/-- A whole cycle of the worker. -/
def cycleOf (io : Io) : List Input := List.replicate 3 (.worker io)

/-- A round of the main loop, with what it finds of the first two clients. -/
def round (arrives : Bool) (first second : Poll) : List Input :=
  [.quiet, .quiet, first, second, .quiet, .quiet, .quiet, .quiet, .quiet, .quiet].map fun poll =>
    .main { arrives, poll, late := false }

/-- The second client asks between the acceptance of a command and its end. -/
def lookedBetween : List Input :=
  cycleOf lookIo ++ round true (.bytes (ascii "DO 2 PAUSE\n")) .quiet ++
    round true .quiet (.bytes (ascii "GET\n")) ++ cycleOf pauseIo ++
    round false (.written 512) (.written 512)

/-- The second client asks when the command is through. -/
def lookedAfter : List Input :=
  cycleOf lookIo ++ round true (.bytes (ascii "DO 2 PAUSE\n")) .quiet ++ cycleOf pauseIo ++
    round true (.written 512) (.bytes (ascii "GET\n"))

/-- Two clients are sent one revision of a player that plays and that is paused. -/
theorem looked_between_disagrees :
    ¬∀ random inputs c reply c' reply' v w,
      .sent c reply ∈ (run (initial random) inputs).log →
      .sent c' reply' ∈ (run (initial random) inputs).log →
      reply.snapshot = some v → reply'.snapshot = some w → v.rev = w.rev → v.shown = w.shown := by
  intro h
  have hplaying : .sent 1 { body := .snapshot .ok (songView 3 1), outcomeOf := none } ∈
      (run (initial 1) lookedBetween).log := by decide
  have hpaused : .sent 0 { body := .snapshot .ok (songView 3 0), outcomeOf := some 0 } ∈
      (run (initial 1) lookedBetween).log := by decide
  exact absurd (h 1 lookedBetween 1 _ 0 _ _ _ hplaying hpaused rfl rfl rfl) (by decide)

theorem revision_means_lookedAfter :
    let log := (run (initial 1) lookedAfter).log
    (∀ v ∈ snapshots log, ∀ w ∈ snapshots log, v.rev = w.rev → v.shown = w.shown) ∧
      ∀ t c named view action, .accepted t c named view action ∈ log →
        ∀ v ∈ snapshots log, v.rev = named → v.shown = view.shown :=
  revision_means (by decide)

end ForgeOS.Native.Music
