import ForgeOS.Library.Versions
import ForgeOS.Native.Scan

/-! The audio engine: one state that the commands of clients and the render loop change in turn.
Clients see it under a revision and name that revision when they want a change. -/

namespace ForgeOS.Native.Engine

open ForgeOS.Library.Conditions ForgeOS.Library.Versions

/-! ### The WAV -/

/-- `CORE_FRAME_BYTES` -/
def frameBytes : ℕ := 4

/-- `CORE_TICK_FRAMES` -/
def tickFrames : ℕ := 960

/-- An open WAV, which has at least one frame, and whole frames only. -/
structure Wav where
  dataBytes : ℕ
  positionFrames : ℕ
  dataBytes_pos : 0 < dataBytes
  whole : dataBytes % frameBytes = 0

def Wav.total (wav : Wav) : ℕ := wav.dataBytes / frameBytes

theorem Wav.total_pos (wav : Wav) : 0 < wav.total := by
  have hpos := wav.dataBytes_pos
  have hwhole := wav.whole
  unfold frameBytes at hwhole
  unfold Wav.total frameBytes
  omega

/-- `read` gives at most as many bytes as it is asked for, or fails. -/
def coreReadFrames (wav : Wav) (frames : ℕ) (read : Option ℕ) : Wav × Option ℕ :=
  if wav.total ≤ wav.positionFrames then (wav, some 0)
  else
    match read with
    | none => (wav, none)
    | some n =>
      let got := min n (min frames (wav.total - wav.positionFrames) * frameBytes)
      if got = 0 ∨ got % frameBytes ≠ 0 then (wav, none)
      else ({ wav with positionFrames := wav.positionFrames + got / frameBytes },
        some (got / frameBytes))

/-- Fails when `lseek` does. -/
def coreRewindWav (wav : Wav) (seek : Bool) : Option Wav :=
  if seek then some { wav with positionFrames := 0 } else none

/-- No frames means that all have been read, otherwise there is at most as much as was asked for. -/
theorem coreReadFrames_count {wav wav' : Wav} {frames n : ℕ} {read : Option ℕ}
    (h : coreReadFrames wav frames read = (wav', some n)) :
    (n = 0 → wav' = wav ∧ wav.total ≤ wav.positionFrames) ∧ n ≤ frames := by
  unfold coreReadFrames at h
  split_ifs at h with hend
  · cases h
    exact ⟨fun _ => ⟨rfl, hend⟩, Nat.zero_le _⟩
  · cases read with
    | none => cases h
    | some m =>
      simp only at h
      split_ifs at h with hbad
      · cases h
      · rw [Prod.mk.injEq, Option.some.injEq] at h
        obtain ⟨-, rfl⟩ := h
        have hasked := Nat.min_le_left frames (wav.total - wav.positionFrames)
        have hgot := Nat.min_le_right m
          (min frames (wav.total - wav.positionFrames) * frameBytes)
        generalize min frames (wav.total - wav.positionFrames) = wanted at *
        generalize min m (wanted * frameBytes) = got at *
        simp only [frameBytes] at *
        exact ⟨by omega, by omega⟩

/-! ### The state -/

structure State where
  revision : UInt64
  framesWritten : UInt64
  underruns : UInt64
  volume : ℕ
  playing : Bool
  fault : Bool
  loop : Bool
  nullSink : Bool
  wav : Wav

def initial (loop nullSink : Bool) (wav : Wav) : State where
  revision := 0
  framesWritten := 0
  underruns := 0
  volume := 100
  playing := false
  fault := false
  loop := loop
  nullSink := nullSink
  wav := { wav with positionFrames := 0 }

/-- `++s->revision` -/
def State.bump (s : State) : State := { s with revision := s.revision + 1 }

@[simp] theorem State.bump_revision (s : State) : s.bump.revision = s.revision + 1 := rfl
@[simp] theorem State.bump_playing (s : State) : s.bump.playing = s.playing := rfl
@[simp] theorem State.bump_fault (s : State) : s.bump.fault = s.fault := rfl

structure Snapshot where
  revision : UInt64
  playing : Bool
  volume : ℕ
  positionFrames : ℕ
  framesWritten : UInt64
  underruns : UInt64
  fault : Bool

def State.snapshot (s : State) : Snapshot where
  revision := s.revision
  playing := s.playing
  volume := s.volume
  positionFrames := s.wav.positionFrames
  framesWritten := s.framesWritten
  underruns := s.underruns
  fault := s.fault

/-! ### Rendering -/

inductive WriteResult
  | bytes (n : ℕ)
  /-- `EAGAIN`, `EWOULDBLOCK` or `EINTR` -/
  | again
  | failed

/-- How the system calls of one tick end, those of the loop by the round they are made in. -/
structure Tick where
  read : ℕ → Option ℕ
  rewind : ℕ → Bool
  write : WriteResult

def fault (s : State) : State :=
  if !s.fault || s.playing then { s with fault := true, playing := false }.bump else s

/-- The loop of `render` from round `k` on, with the frames it fills, or none after a fault. -/
def fill (io : Tick) (k : ℕ) (s : State) (filled : ℕ) : State × Option ℕ :=
  if _ : filled < tickFrames then
    match hread : coreReadFrames s.wav (tickFrames - filled) (io.read k) with
    | (_, none) => (fault s, none)
    | (wav, some (n + 1)) => fill io (k + 1) { s with wav } (filled + (n + 1))
    | (_, some 0) =>
      if !s.loop then ({ s with playing := false }.bump, some filled)
      else
        match hrewind : coreRewindWav s.wav (io.rewind k) with
        | none => (fault s, none)
        | some wav => fill io (k + 1) { s with wav } filled
  else (s, some filled)
termination_by (tickFrames - filled, if s.wav.total ≤ s.wav.positionFrames then 1 else 0)
decreasing_by
  · apply Prod.Lex.left
    omega
  · have hend := ((coreReadFrames_count hread).1 rfl).2
    unfold coreRewindWav at hrewind
    split_ifs at hrewind
    cases hrewind
    rw [if_pos hend, if_neg (Nat.not_le.mpr (Wav.total_pos _))]
    apply Prod.Lex.right
    exact Nat.zero_lt_one

/-- `write` of what was filled. The samples themselves are left out. -/
def writeFrames (write : WriteResult) (filled : ℕ) (s : State) : State :=
  if s.nullSink then { s with framesWritten := s.framesWritten + .ofNat filled }
  else
    match write with
    | .bytes n =>
      let s := { s with framesWritten := s.framesWritten + .ofNat (n / frameBytes) }
      if n = filled * frameBytes then s else { s with underruns := s.underruns + 1 }
    | .again => { s with underruns := s.underruns + 1 }
    | .failed => fault { s with underruns := s.underruns + 1 }

def render (io : Tick) (s : State) : State :=
  if !s.playing then s
  else
    match fill io 0 s 0 with
    | (s, none) => s
    | (s, some filled) => if filled = 0 then s else writeFrames io.write filled s

/-! ### Commands -/

inductive Action
  | play
  | pause
  | rewind
  | volume (percent : ℕ)
  deriving DecidableEq, Repr

inductive Request
  | unterminated
  | get
  | act (expected : UInt64) (action : Action)
  | invalid
  deriving DecidableEq, Repr

/-- `sscanf(line, "DO %llu %15s%n", ..)`, with what is left behind the word. -/
def scanDo (line : Bytes) : Option (UInt64 × Bytes × Bytes) := do
  let rest ← scanLiteral (ascii "DO") line
  let (expected, rest) ← scanLongLong (skipSpace rest)
  let (word, tail) ← scanWord 15 (skipSpace rest)
  pure (expected, word, tail)

/-- `sscanf(tail, " %u %c", ..) == 1` and the bound. -/
def scanVolume (tail : Bytes) : Option ℕ :=
  match scanUnsigned (skipSpace tail) with
  | none => none
  | some (volume, rest) =>
    if skipSpace rest = [] ∧ volume ≤ 100 then some volume.toNat else none

def readAction (word tail : Bytes) : Option Action :=
  if tail = [] ∧ word = ascii "PLAY" then some .play
  else if tail = [] ∧ word = ascii "PAUSE" then some .pause
  else if tail = [] ∧ word = ascii "REWIND" then some .rewind
  else if word = ascii "VOLUME" then (scanVolume tail).map .volume
  else none

/-- What a client has sent when the line is complete or its buffer full. -/
def request (buffer : Bytes) : Request :=
  if buffer.getLast? ≠ some 10 then .unterminated
  else if cstr buffer.dropLast = ascii "GET" then .get
  else
    match scanDo (cstr buffer.dropLast) with
    | none => .invalid
    | some (expected, word, tail) =>
      match readAction word tail with
      | none => .invalid
      | some action => .act expected action

inductive Kind
  | ok
  | stale
  deriving DecidableEq, Repr

inductive Reply
  | snapshot (kind : Kind) (s : Snapshot)
  | err (message : String)

/-- The actions on a state that has the expected revision. -/
def perform (action : Action) (seek : Bool) (s : State) : State × Reply :=
  match action with
  | .play =>
    if s.fault then (s, .err "audio fault")
    else
      let s := { s with playing := true }.bump
      (s, .snapshot .ok s.snapshot)
  | .pause =>
    let s := { s with playing := false }.bump
    (s, .snapshot .ok s.snapshot)
  | .rewind =>
    match coreRewindWav s.wav seek with
    | none => (s, .err "cannot rewind WAV")
    | some wav =>
      let s := { s with wav, playing := false }.bump
      (s, .snapshot .ok s.snapshot)
  | .volume percent =>
    let s := { s with volume := percent }.bump
    (s, .snapshot .ok s.snapshot)

def processCommand (buffer : Bytes) (seek : Bool) (s : State) : State × Reply :=
  match request buffer with
  | .unterminated => (s, .err "command must end with newline")
  | .get => (s, .snapshot .ok s.snapshot)
  | .invalid => (s, .err "invalid command")
  | .act expected action =>
    if expected ≠ s.revision then (s, .snapshot .stale s.snapshot) else perform action seek s

def Kind.word : Kind → String
  | .ok => "OK"
  | .stale => "STALE"

def flag (b : Bool) : Bytes := if b then ascii "1" else ascii "0"

def Reply.text : Reply → Bytes
  | .err message => ascii ("ERR " ++ message ++ "\n")
  | .snapshot kind s =>
    ascii (kind.word ++ " ") ++ decimal s.revision.toNat ++ ascii " " ++ flag s.playing ++
      ascii " " ++ decimal s.volume ++ ascii " " ++ decimal s.positionFrames ++ ascii " " ++
      decimal s.framesWritten.toNat ++ ascii " " ++ decimal s.underruns.toNat ++ ascii " " ++
      flag s.fault ++ ascii "\n"

/-! ### Runs -/

/-- What happens to the engine: a client's command, with how its `lseek` would end, or a tick. -/
inductive Input
  | command (buffer : Bytes) (seek : Bool)
  | tick (io : Tick)

def step (s : State) : Input → State
  | .command buffer seek => (processCommand buffer seek s).1
  | .tick io => render io s

def Reply.snapshots : Reply → List Snapshot
  | .snapshot _ s => [s]
  | .err _ => []

/-- The snapshots that clients are sent in a step. -/
def sent (s : State) : Input → List Snapshot
  | .command buffer seek => (processCommand buffer seek s).2.snapshots
  | .tick _ => []

/-! ### What a step does -/

/-- What a revision stands for. -/
def State.shown (s : State) : Bool × ℕ × Bool := (s.playing, s.volume, s.fault)

def State.version (s : State) : ℕ := s.revision.toNat

/-- A step raises the revision once or twice, or leaves what it stands for. -/
def Moves (s t : State) : Prop :=
  t.revision = s.revision ∧ t.shown = s.shown ∨ t.revision = s.revision + 1 ∨
    t.revision = s.revision + 1 + 1

theorem Moves.renews {s t : State} (h : Moves s t) (hbelow : s.revision ≤ t.revision) :
    Renews State.version State.shown s t := by
  have hlt := s.revision.toNat_lt
  rw [UInt64.le_iff_toNat_le] at hbelow
  unfold Renews State.version
  rcases h with ⟨hrev, hshown⟩ | hrev | hrev
  · exact .inr ⟨by rw [hrev], hshown.symm⟩
  · rw [hrev, UInt64.toNat_add, UInt64.toNat_one] at hbelow ⊢
    omega
  · rw [hrev, UInt64.toNat_add, UInt64.toNat_add, UInt64.toNat_one] at hbelow ⊢
    omega

theorem fault_revision {s : State} (h : s.playing = true) :
    (fault s).revision = s.revision + 1 := by
  rw [fault, if_pos (by rw [h, Bool.or_true])]
  rfl

theorem fault_cases (s : State) : fault s = s ∨ (fault s).revision = s.revision + 1 := by
  unfold fault
  split_ifs
  · exact .inr rfl
  · exact .inl rfl

theorem fault_playing (s : State) : (fault s).playing = false := by
  unfold fault
  split_ifs with h
  · rfl
  · simp only [Bool.or_eq_true, not_or, Bool.not_eq_true] at h
    exact h.2

theorem fill_eq (io : Tick) (k : ℕ) (s : State) (filled : ℕ) :
    fill io k s filled =
      if filled < tickFrames then
        match coreReadFrames s.wav (tickFrames - filled) (io.read k) with
        | (_, none) => (fault s, none)
        | (wav, some (n + 1)) => fill io (k + 1) { s with wav } (filled + (n + 1))
        | (_, some 0) =>
          if !s.loop then ({ s with playing := false }.bump, some filled)
          else
            match coreRewindWav s.wav (io.rewind k) with
            | none => (fault s, none)
            | some wav => fill io (k + 1) { s with wav } filled
      else (s, some filled) := by
  rw [fill]
  split
  · split <;> rename_i hread <;> simp only [hread]
    split
    · rfl
    · split <;> rename_i hrewind <;> simp only [hrewind]
  · rfl

/-- What the loop can end with: the data are read on, and then there may be a fault or the end. -/
theorem fill_cases (io : Tick) (k : ℕ) (s : State) (filled : ℕ) :
    ∃ wav, fill io k s filled = (fault { s with wav }, none) ∨
      (∃ n, fill io k s filled = ({ s with wav, playing := false }.bump, some n)) ∨
      ∃ n, fill io k s filled = ({ s with wav }, some n) := by
  induction k, s, filled using fill.induct io with
  | case1 k s filled hfilled wav hread =>
    rw [fill_eq, if_pos hfilled, hread]
    exact ⟨s.wav, .inl rfl⟩
  | case2 k s filled hfilled wav n hread ih =>
    rw [fill_eq, if_pos hfilled, hread]
    exact ih
  | case3 k s filled hfilled wav hread hloop =>
    rw [fill_eq, if_pos hfilled, hread]
    simp only [hloop, if_true]
    exact ⟨s.wav, .inr (.inl ⟨filled, rfl⟩)⟩
  | case4 k s filled hfilled wav hread hloop hrewind =>
    rw [fill_eq, if_pos hfilled, hread]
    simp only [hloop, hrewind]
    exact ⟨s.wav, .inl rfl⟩
  | case5 k s filled hfilled wav hread hloop wav' hrewind ih =>
    rw [fill_eq, if_pos hfilled, hread]
    simp only [hloop, hrewind]
    exact ih
  | case6 k s filled hfilled =>
    rw [fill_eq, if_neg hfilled]
    exact ⟨s.wav, .inr (.inr ⟨filled, rfl⟩)⟩

theorem writeFrames_cases (write : WriteResult) (filled : ℕ) (s : State) :
    ∃ framesWritten underruns,
      writeFrames write filled s = { s with framesWritten, underruns } ∨
        writeFrames write filled s = fault { s with framesWritten, underruns } := by
  unfold writeFrames
  split_ifs
  · exact ⟨_, s.underruns, .inl rfl⟩
  · cases write with
    | bytes n =>
      simp only
      split_ifs
      · exact ⟨_, s.underruns, .inl rfl⟩
      · exact ⟨_, _, .inl rfl⟩
    | again => exact ⟨s.framesWritten, _, .inl rfl⟩
    | failed => exact ⟨s.framesWritten, _, .inr rfl⟩

/-- A tick leaves what is not its own, or it faults, or it ends the data and may fault then. -/
theorem render_cases (io : Tick) (s : State) :
    render io s = s ∨ s.playing = true ∧
      ∃ t, (t.revision = s.revision ∧ t.shown = s.shown ∨
          t.revision = s.revision + 1 ∧ t.playing = false) ∧
        (render io s = t ∨ render io s = fault t) := by
  unfold render
  split_ifs with hplaying
  · exact .inl rfl
  · have hplaying : s.playing = true := by simpa using hplaying
    refine .inr ⟨hplaying, ?_⟩
    obtain ⟨wav, hfill⟩ := fill_cases io 0 s 0
    rcases hfill with hfill | ⟨n, hfill⟩ | ⟨n, hfill⟩
    · rw [hfill]
      exact ⟨{ s with wav }, .inl ⟨rfl, rfl⟩, .inr rfl⟩
    · rw [hfill]
      simp only
      split_ifs
      · exact ⟨_, .inr ⟨rfl, rfl⟩, .inl rfl⟩
      · obtain ⟨framesWritten, underruns, h⟩ :=
          writeFrames_cases io.write n { s with wav, playing := false }.bump
        exact ⟨_, .inr ⟨rfl, rfl⟩, h⟩
    · rw [hfill]
      simp only
      split_ifs
      · exact ⟨{ s with wav }, .inl ⟨rfl, rfl⟩, .inl rfl⟩
      · obtain ⟨framesWritten, underruns, h⟩ := writeFrames_cases io.write n { s with wav }
        exact ⟨{ s with wav, framesWritten, underruns }, .inl ⟨rfl, rfl⟩, h⟩

theorem render_moves (io : Tick) (s : State) : Moves s (render io s) := by
  rcases render_cases io s with h | ⟨hplaying, t, ht, h⟩
  · rw [h]
    exact .inl ⟨rfl, rfl⟩
  · rcases ht with ⟨hrev, hshown⟩ | ⟨hrev, -⟩
    · rcases h with h | h
      · rw [h]
        exact .inl ⟨hrev, hshown⟩
      · have hplays : t.playing = true := (congrArg Prod.fst hshown).trans hplaying
        rw [h]
        exact .inr (.inl (by rw [fault_revision hplays, hrev]))
    · rcases h with h | h
      · rw [h]
        exact .inr (.inl hrev)
      · rw [h]
        rcases fault_cases t with hfault | hfault
        · rw [hfault]
          exact .inr (.inl hrev)
        · exact .inr (.inr (by rw [hfault, hrev]))

theorem perform_moves (action : Action) (seek : Bool) (s : State) :
    Moves s (perform action seek s).1 := by
  cases action with
  | play =>
    simp only [perform]
    split_ifs
    · exact .inl ⟨rfl, rfl⟩
    · exact .inr (.inl rfl)
  | pause => exact .inr (.inl rfl)
  | rewind =>
    simp only [perform]
    cases coreRewindWav s.wav seek with
    | none => exact .inl ⟨rfl, rfl⟩
    | some wav => exact .inr (.inl rfl)
  | volume percent => exact .inr (.inl rfl)

/-- A command changes nothing unless it names the revision of the state. -/
theorem processCommand_cases (buffer : Bytes) (seek : Bool) (s : State) :
    (processCommand buffer seek s).1 = s ∨
      ∃ action, request buffer = .act s.revision action ∧
        processCommand buffer seek s = perform action seek s := by
  unfold processCommand
  cases request buffer with
  | unterminated => exact .inl rfl
  | get => exact .inl rfl
  | invalid => exact .inl rfl
  | act expected action =>
    simp only
    split_ifs with hstale
    · exact .inl rfl
    · have hcurrent : expected = s.revision := not_not.mp hstale
      exact .inr ⟨action, by rw [hcurrent], rfl⟩

theorem step_moves (s : State) (i : Input) : Moves s (step s i) := by
  cases i with
  | command buffer seek =>
    rcases processCommand_cases buffer seek s with h | ⟨action, -, h⟩
    · rw [step, h]
      exact .inl ⟨rfl, rfl⟩
    · rw [step, h]
      exact perform_moves action seek s
  | tick io => exact render_moves io s

/-! ### Fault and playing -/

/-- What is at fault does not play. -/
def Silent (s : State) : Prop := s.fault = true → s.playing = false

theorem render_silent (io : Tick) {s : State} (h : Silent s) : Silent (render io s) := by
  rcases render_cases io s with hrender | ⟨-, t, ht, hrender | hrender⟩
  · rw [hrender]
    exact h
  · rw [hrender]
    rcases ht with ⟨-, hshown⟩ | ⟨-, hplaying⟩
    · simp only [State.shown, Prod.mk.injEq] at hshown
      rw [Silent, hshown.1, hshown.2.2]
      exact h
    · exact fun _ => hplaying
  · rw [hrender]
    exact fun _ => fault_playing t

theorem perform_silent (action : Action) (seek : Bool) {s : State} (h : Silent s) :
    Silent (perform action seek s).1 := by
  cases action with
  | play =>
    simp only [perform]
    split_ifs with hfault
    · exact h
    · exact fun hf => absurd hf hfault
  | pause => exact fun _ => rfl
  | rewind =>
    simp only [perform]
    cases coreRewindWav s.wav seek with
    | none => exact h
    | some wav => exact fun _ => rfl
  | volume percent => exact h

theorem step_silent (s : State) (i : Input) (h : Silent s) : Silent (step s i) := by
  cases i with
  | command buffer seek =>
    rcases processCommand_cases buffer seek s with hsame | ⟨action, -, hperform⟩
    · rw [step, hsame]
      exact h
    · rw [step, hperform]
      exact perform_silent action seek h
  | tick io => exact render_silent io h

/-! ### Snapshots -/

theorem perform_shows (action : Action) (seek : Bool) (s : State) :
    ∀ o ∈ (perform action seek s).2.snapshots, o = (perform action seek s).1.snapshot := by
  intro o ho
  cases action with
  | play =>
    simp only [perform] at ho ⊢
    split_ifs at ho ⊢
    · cases ho
    · exact List.mem_singleton.mp ho
  | pause => exact List.mem_singleton.mp ho
  | rewind =>
    simp only [perform] at ho ⊢
    cases hrewind : coreRewindWav s.wav seek with
    | none =>
      rw [hrewind] at ho
      cases ho
    | some wav =>
      rw [hrewind] at ho
      exact List.mem_singleton.mp ho
  | volume percent => exact List.mem_singleton.mp ho

def Shows (o : Snapshot) (s : State) : Prop := o = s.snapshot

/-- A snapshot shows the state that the command ends in. -/
theorem sent_shows (s : State) (i : Input) : ∀ o ∈ sent s i, Shows o (step s i) := by
  unfold Shows
  intro o ho
  cases i with
  | tick io => cases ho
  | command buffer seek =>
    simp only [sent, step, processCommand] at ho ⊢
    cases hrequest : request buffer with
    | unterminated =>
      rw [hrequest] at ho
      cases ho
    | get =>
      rw [hrequest] at ho
      exact List.mem_singleton.mp ho
    | invalid =>
      rw [hrequest] at ho
      cases ho
    | act expected action =>
      simp only [hrequest] at ho ⊢
      split_ifs at ho ⊢
      · exact List.mem_singleton.mp ho
      · exact perform_shows action seek s o ho

/-- Over every run, as long as the revision is not counted past its last value, a revision stands
for one setting of the engine, what is at fault does not play, and a command that names another
revision is told the present state and changes nothing. -/
theorem revision_stands (loop nullSink : Bool) (wav : Wav) (inputs : List Input) :
    (Along step (fun s i => s.revision ≤ (step s i).revision) (initial loop nullSink wav) inputs →
      ∀ a ∈ outputs step sent (initial loop nullSink wav) inputs,
        ∀ b ∈ outputs step sent (initial loop nullSink wav) inputs, a.revision = b.revision →
          a.playing = b.playing ∧ a.volume = b.volume ∧ a.fault = b.fault) ∧
      ∀ s ∈ states step (initial loop nullSink wav) inputs,
        (s.fault = true → s.playing = false) ∧
          ∀ buffer seek expected action, request buffer = .act expected action →
            expected ≠ s.revision →
              processCommand buffer seek s = (s, .snapshot .stale s.snapshot) := by
  refine ⟨fun hbelow a ha b hb hrev => ?_, fun s hs => ⟨?_, ?_⟩⟩
  · have hrenews := hbelow.imp fun s i h => (step_moves s i).renews h
    obtain ⟨t, ht, rfl⟩ := exists_state_of_mem_outputs sent_shows a ha
    obtain ⟨u, hu, rfl⟩ := exists_state_of_mem_outputs sent_shows b hb
    have hshown := states_agree hrenews t ht u hu (congrArg UInt64.toNat hrev)
    simp only [State.shown, Prod.mk.injEq] at hshown
    exact hshown
  · exact forall_states step_silent (I := Silent) (fun h => absurd h Bool.false_ne_true) inputs s hs
  · intro buffer seek expected action hrequest hstale
    simp only [processCommand, hrequest, if_pos hstale]

/-- A file of one frame. -/
def oneFrame : Wav := ⟨4, 0, by decide, by decide⟩

/-- Two clients, the first of which has the file played. -/
def playedAndShown : List Input := [.command (ascii "DO 0 PLAY\n") true, .command (ascii "GET\n") true]

theorem playedAndShown_agrees :
    Along step (fun s i => s.revision ≤ (step s i).revision) (initial false true oneFrame)
        playedAndShown ∧
      ∀ a ∈ outputs step sent (initial false true oneFrame) playedAndShown,
        ∀ b ∈ outputs step sent (initial false true oneFrame) playedAndShown,
          a.revision = b.revision → a.playing = b.playing ∧ a.volume = b.volume ∧ a.fault = b.fault :=
  have hbelow : Along step (fun s i => s.revision ≤ (step s i).revision) (initial false true oneFrame)
      playedAndShown := ⟨by decide, by decide, trivial⟩
  ⟨hbelow, (revision_stands false true oneFrame playedAndShown).1 hbelow⟩

end ForgeOS.Native.Engine
