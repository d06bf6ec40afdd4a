import Mathlib.Data.List.Basic
import Mathlib.Data.List.Count
import ForgeOS.Library.Endless

/-! The loops of the PCM sink: frames are taken from a FIFO, or are silence while it is empty, and
are written to a device that takes as many as it likes. Every system call is one answer of the
environment, before which bytes may have reached the FIFO. -/

namespace ForgeOS.Native.PcmSink

open ForgeOS.Library.Endless

/-! ### Frames -/

def rate : ℕ := 48000

def periodFrames : ℕ := 960

def bytesPerFrame : ℕ := 4

def maxSeconds : ℕ := 1800

/-- Four bytes: two samples of sixteen bits. -/
structure Frame where
  a : UInt8
  b : UInt8
  c : UInt8
  d : UInt8
  deriving DecidableEq, Repr

def Frame.bytes (f : Frame) : List UInt8 := [f.a, f.b, f.c, f.d]

/-- The whole frames of a row of bytes. -/
def frames : List UInt8 → List Frame
  | a :: b :: c :: d :: rest => ⟨a, b, c, d⟩ :: frames rest
  | _ => []

/-- A frame of the stream, or one of four zeros put in its place while the FIFO is empty. -/
inductive Sample
  | stream (f : Frame)
  | silence
  deriving DecidableEq, Repr

/-- What is written to the device. -/
def Sample.frame : Sample → Frame
  | .stream f => f
  | .silence => ⟨0, 0, 0, 0⟩

def Sample.streamed : Sample → Option Frame
  | .stream f => some f
  | .silence => none

/-- The bytes of the stream among samples. -/
def streamed (samples : List Sample) : List UInt8 :=
  (samples.filterMap Sample.streamed).flatMap Frame.bytes

/-! ### The sink -/

/-- The arguments of a call that is not refused. -/
structure Options where
  seconds : ℕ
  idleSilence : Bool
  range : 1 ≤ seconds ∧ seconds ≤ maxSeconds

/-- `target_frames` -/
def Options.target (o : Options) : ℕ := o.seconds * rate

/-- The frames that have been read, and those of them that are still to be written. -/
structure Chunk where
  size : ℕ
  rest : List Sample
  deriving DecidableEq, Repr

/-- The system call that comes next: the poll whether the FIFO is empty, the wait for input, the
read, the wait for the device, the transfer, the recovery from an underrun, the drain; or the exit.
-/
inductive Phase
  | idlePoll
  | waitInput
  | read
  | waitOutput (c : Chunk)
  | write (c : Chunk)
  | prepare (c : Chunk)
  | drain
  | ended (ok : Bool)
  deriving DecidableEq, Repr

/-- The variables of the loops; what is in the FIFO, all that has reached it, and what the device
has accepted. -/
structure State where
  fifo : List UInt8
  arrived : List UInt8
  readFrames : ℕ
  silenceFrames : ℕ
  written : ℕ
  recoveries : ℕ
  device : List Sample
  phase : Phase
  deriving DecidableEq, Repr

/-- How a system call returns: as it should, for a transfer with the number of accepted frames;
interrupted, or with nothing to do at present; after two seconds; with an underrun; with another
error. -/
inductive Outcome
  | ready
  | accepted (frames : ℕ)
  | interrupted
  | again
  | timeout
  | underrun
  | error
  deriving DecidableEq, Repr

structure Answer where
  arrived : List UInt8
  outcome : Outcome
  deriving DecidableEq, Repr

variable (o : Options)

/-- The head of the outer loop, and what stands behind it. -/
def head (s : State) : State :=
  { s with
    phase :=
      if s.readFrames < o.target then if o.idleSilence then .idlePoll else .waitInput else .drain }

def fail (s : State) : State := { s with phase := .ended false }

/-- `wanted` -/
def wanted (s : State) : ℕ := min (o.target - s.readFrames) periodFrames * bytesPerFrame

/-- A chunk of silence, when the poll finds the FIFO empty. -/
def silence (s : State) : State :=
  let frames := wanted o s / bytesPerFrame
  { s with
    silenceFrames := s.silenceFrames + frames
    phase := .waitOutput ⟨frames, List.replicate frames .silence⟩ }

/-- `read`, which is made again if the FIFO is empty. -/
def read (s : State) : State :=
  if s.fifo = [] then head o s
  else
    let got := min (wanted o s) s.fifo.length
    let s' := { s with fifo := s.fifo.drop got }
    if got % bytesPerFrame ≠ 0 then fail s'
    else
      { s' with
        phase := .waitOutput ⟨got / bytesPerFrame, (frames (s.fifo.take got)).map .stream⟩ }

/-- A transfer that has returned a number of frames. -/
def accept (c : Chunk) (n : ℕ) (s : State) : State :=
  if n = 0 ∨ n > c.rest.length then fail s
  else
    let s' := { s with written := s.written + n, device := s.device ++ c.rest.take n }
    if c.rest.drop n = [] then head o { s' with readFrames := s.readFrames + c.size }
    else { s' with phase := .waitOutput ⟨c.size, c.rest.drop n⟩ }

/-- What the program does when the system call returns. -/
def resume (s : State) (outcome : Outcome) : State :=
  match s.phase, outcome with
  | .idlePoll, .ready => if s.fifo = [] then silence o s else { s with phase := .read }
  | .idlePoll, .interrupted => s
  | .waitInput, .ready => { s with phase := .read }
  | .waitInput, .interrupted => s
  | .read, .ready => read o s
  | .read, .interrupted => s
  | .read, .again => head o s
  | .waitOutput c, .ready => { s with phase := .write c }
  | .waitOutput _, .interrupted => s
  | .write c, .accepted n => accept o c n s
  | .write c, .interrupted => { s with phase := .waitOutput c }
  | .write c, .again => { s with phase := .waitOutput c }
  | .write c, .underrun => if s.recoveries < 3 then { s with phase := .prepare c } else fail s
  | .prepare c, .ready => { s with recoveries := s.recoveries + 1, phase := .waitOutput c }
  | .drain, .ready => { s with phase := .ended true }
  | .ended _, _ => s
  | _, _ => fail s

def arrive (s : State) (bytes : List UInt8) : State :=
  { s with fifo := s.fifo ++ bytes, arrived := s.arrived ++ bytes }

def step (s : State) (a : Answer) : State := resume o (arrive s a.arrived) a.outcome

def start : State := head o ⟨[], [], 0, 0, 0, 0, [], .drain⟩

/-! ### Frames and bytes -/

theorem bytes_frames : ∀ {bytes : List UInt8}, bytes.length % bytesPerFrame = 0 →
    (frames bytes).flatMap Frame.bytes = bytes
  | [], _ => rfl
  | [_], h => by simp [bytesPerFrame] at h
  | [_, _], h => by simp [bytesPerFrame] at h
  | [_, _, _], h => by simp [bytesPerFrame] at h
  | a :: b :: c :: d :: rest, h => by
    have hrest : rest.length % bytesPerFrame = 0 := by
      simp only [List.length_cons, bytesPerFrame] at h ⊢
      omega
    rw [frames, List.flatMap_cons, bytes_frames hrest]
    rfl

theorem length_frames : ∀ (bytes : List UInt8), (frames bytes).length = bytes.length / bytesPerFrame
  | [] => rfl
  | [_] => by simp [frames, bytesPerFrame]
  | [_, _] => by simp [frames, bytesPerFrame]
  | [_, _, _] => by simp [frames, bytesPerFrame]
  | a :: b :: c :: d :: rest => by
    rw [frames, List.length_cons, length_frames rest]
    simp only [List.length_cons, bytesPerFrame]
    omega

theorem streamed_append (samples samples' : List Sample) :
    streamed (samples ++ samples') = streamed samples ++ streamed samples' := by
  rw [streamed, List.filterMap_append, List.flatMap_append]
  rfl

theorem streamed_silence (n : ℕ) : streamed (List.replicate n .silence) = [] := by
  simp [streamed, Sample.streamed]

theorem streamed_frames {bytes : List UInt8} (h : bytes.length % bytesPerFrame = 0) :
    streamed ((frames bytes).map .stream) = bytes := by
  have hall : ((frames bytes).map Sample.stream).filterMap Sample.streamed = frames bytes := by
    rw [List.filterMap_map]
    exact List.filterMap_some
  rw [streamed, hall, bytes_frames h]

theorem count_frames (fs : List Frame) : (fs.map Sample.stream).count .silence = 0 := by
  rw [List.count_eq_zero]
  simp

/-! ### What the sink holds -/

/-- The chunk that is being written. -/
def Phase.chunk : Phase → Chunk
  | .waitOutput c | .write c | .prepare c => c
  | _ => ⟨0, []⟩

/-- The device and the chunk have what has been read of the stream, in order, and as many silent
frames as are counted. -/
structure Holds (s : State) (c : Chunk) : Prop where
  length : s.device.length = s.written
  taken : s.written + c.rest.length = s.readFrames + c.size
  bytes : streamed (s.device ++ c.rest) ++ s.fifo = s.arrived
  silent : (s.device ++ c.rest).count .silence = s.silenceFrames
  quiet : o.idleSilence = false → s.silenceFrames = 0
  room : s.readFrames + c.size ≤ o.target

/-- When a system call can come next. -/
def Phase.Fits (readFrames : ℕ) : Phase → Prop
  | .idlePoll => o.idleSilence = true ∧ readFrames < o.target
  | .waitInput => o.idleSilence = false ∧ readFrames < o.target
  | .read => readFrames < o.target
  | .waitOutput c | .write c | .prepare c => c.rest ≠ []
  | .drain | .ended true => readFrames = o.target
  | .ended false => False

structure Sound (s : State) : Prop where
  holds : Holds o s s.phase.chunk
  fits : s.phase.Fits o s.readFrames

/-- What the device has accepted is the beginning of the stream with no more silence than is
counted, also after an error. -/
structure Kept (s : State) : Prop where
  length : s.device.length = s.written
  stream : streamed s.device <+: s.arrived
  silent : s.device.count .silence ≤ s.silenceFrames
  quiet : o.idleSilence = false → s.silenceFrames = 0
  room : s.written ≤ o.target

/-- A read finds as much as is wanted, or whole frames. -/
def Whole (s : State) : Prop := wanted o s ≤ s.fifo.length ∨ s.fifo.length % bytesPerFrame = 0

/-- The outcomes without an error, and without a wait that has taken two seconds. -/
def Allowed (r : Outcome) : Phase → Prop
  | .idlePoll | .waitInput | .read | .waitOutput _ => r = .ready ∨ r = .interrupted
  | .write c =>
    (∃ n, 0 < n ∧ n ≤ c.rest.length ∧ r = .accepted n) ∨ r = .interrupted ∨ r = .again ∨
      r = .underrun
  | .prepare _ | .drain => r = .ready
  | .ended _ => True

structure Good (s : State) (r : Outcome) : Prop where
  allowed : Allowed r s.phase
  whole : s.phase = .read → r = .ready → Whole o s
  recovers : r = .underrun → s.recoveries < 3

variable {o} {s : State} {a : Answer} {c : Chunk}

theorem Holds.kept (h : Holds o s c) : Kept o s where
  length := h.length
  stream := by
    rw [← h.bytes, streamed_append, List.append_assoc]
    exact List.prefix_append _ _
  silent := by
    rw [← h.silent, List.count_append]
    exact Nat.le_add_right _ _
  quiet := h.quiet
  room := by
    have htaken := h.taken
    have hroom := h.room
    omega

theorem Holds.at (h : Holds o s c) (p : Phase) : Holds o { s with phase := p } c :=
  ⟨h.length, h.taken, h.bytes, h.silent, h.quiet, h.room⟩

theorem Kept.arrive (h : Kept o s) (bytes : List UInt8) : Kept o (arrive s bytes) :=
  ⟨h.length, h.stream.trans (List.prefix_append _ _), h.silent, h.quiet, h.room⟩

theorem Sound.arrive (h : Sound o s) (bytes : List UInt8) : Sound o (arrive s bytes) where
  holds := by
    refine ⟨h.holds.length, h.holds.taken, ?_, h.holds.silent, h.holds.quiet, h.holds.room⟩
    change streamed (s.device ++ s.phase.chunk.rest) ++ (s.fifo ++ bytes) = s.arrived ++ bytes
    rw [← List.append_assoc, h.holds.bytes]
  fits := h.fits

/-- The loops begin again when a chunk has been written. -/
theorem Holds.head (h : Holds o s ⟨0, []⟩) : Sound o (head o s) := by
  rw [PcmSink.head]
  have hroom : s.readFrames ≤ o.target := h.room
  split_ifs with hmore hidle
  · exact ⟨h.at .idlePoll, hidle, hmore⟩
  · exact ⟨h.at .waitInput, by simpa using hidle, hmore⟩
  · exact ⟨h.at .drain, show s.readFrames = o.target by omega⟩

theorem wanted_spec (hmore : s.readFrames < o.target) :
    wanted o s % bytesPerFrame = 0 ∧ 0 < wanted o s / bytesPerFrame ∧
      s.readFrames + wanted o s / bytesPerFrame ≤ o.target := by
  simp only [wanted, bytesPerFrame, periodFrames]
  omega

/-- Silence is a chunk of its own. -/
theorem Holds.silence (h : Holds o s ⟨0, []⟩) (hidle : o.idleSilence = true)
    (hmore : s.readFrames < o.target) : Sound o (silence o s) := by
  obtain ⟨-, hpos, hroom⟩ := wanted_spec hmore
  have htaken := h.taken
  have hbytes := h.bytes
  have hsilent := h.silent
  simp only [List.length_nil, List.append_nil, Nat.add_zero] at htaken hbytes hsilent
  rw [PcmSink.silence]
  constructor
  · refine ⟨h.length, ?_, ?_, ?_, ?_, hroom⟩
    · simp [Phase.chunk, htaken]
    · simpa [Phase.chunk, streamed_append, streamed_silence] using hbytes
    · simp [Phase.chunk, List.count_append, hsilent]
    · intro hnot
      rw [hidle] at hnot
      cases hnot
  · simp only [Phase.Fits, ne_eq, List.replicate_eq_nil_iff]
    omega

theorem got_of_whole (hmore : s.readFrames < o.target) (hwhole : Whole o s) :
    min (wanted o s) s.fifo.length % bytesPerFrame = 0 := by
  obtain ⟨hwanted, -, -⟩ := wanted_spec hmore
  by_cases hfull : wanted o s ≤ s.fifo.length
  · rw [Nat.min_eq_left hfull]
    exact hwanted
  · rw [Nat.min_eq_right (by omega)]
    exact hwhole.resolve_left hfull

theorem Holds.read (h : Holds o s ⟨0, []⟩) (hmore : s.readFrames < o.target)
    (hwhole : Whole o s) : Sound o (read o s) := by
  have hpart := got_of_whole hmore hwhole
  rw [PcmSink.read]
  dsimp only
  rw [if_neg (not_not.mpr hpart)]
  split_ifs with hempty
  · exact h.head
  · obtain ⟨hwanted, hmin, hroom⟩ := wanted_spec hmore
    have hlength : (s.fifo.take (min (wanted o s) s.fifo.length)).length =
        min (wanted o s) s.fifo.length := by
      rw [List.length_take, Nat.min_assoc, Nat.min_self]
    have hgot : min (wanted o s) s.fifo.length / bytesPerFrame ≤ wanted o s / bytesPerFrame :=
      Nat.div_le_div_right (Nat.min_le_left _ _)
    have htaken := h.taken
    have hbytes := h.bytes
    have hsilent := h.silent
    simp only [List.length_nil, List.append_nil, Nat.add_zero] at htaken hbytes hsilent
    constructor
    · refine ⟨h.length, ?_, ?_, ?_, h.quiet, ?_⟩
      · simp only [Phase.chunk, List.length_map, length_frames, hlength, htaken]
      · simp only [Phase.chunk]
        rw [streamed_append, streamed_frames (by rw [hlength]; exact hpart), List.append_assoc,
          List.take_append_drop]
        exact hbytes
      · simp only [Phase.chunk]
        rw [List.count_append, count_frames, Nat.add_zero, hsilent]
      · simp only [Phase.chunk]
        omega
    · have hpos : 0 < s.fifo.length := List.length_pos_of_ne_nil hempty
      simp only [Phase.Fits, ne_eq, List.map_eq_nil_iff]
      intro hnil
      have hzero := congrArg List.length hnil
      rw [length_frames, hlength, List.length_nil] at hzero
      simp only [bytesPerFrame] at hzero hpart hmin
      omega

/-- A part of a frame ends the program. -/
theorem read_part (h : ¬Whole o s) :
    read o s = fail { s with fifo := s.fifo.drop s.fifo.length } := by
  rw [Whole, not_or] at h
  obtain ⟨hfew, hpart⟩ := h
  have hmin : min (wanted o s) s.fifo.length = s.fifo.length := Nat.min_eq_right (by omega)
  have hfull : s.fifo ≠ [] := by
    intro hempty
    rw [hempty] at hpart
    exact hpart rfl
  rw [PcmSink.read, if_neg hfull]
  simp only [hmin]
  rw [if_pos hpart]

theorem Holds.accept (h : Holds o s c) {n : ℕ} (hpos : 0 < n) (hle : n ≤ c.rest.length) :
    Sound o (accept o c n s) := by
  have hlength := h.length
  have htaken := h.taken
  have hdevice : (s.device ++ c.rest.take n).length = s.written + n := by
    rw [List.length_append, List.length_take, Nat.min_eq_left hle, h.length]
  have hall : s.device ++ c.rest.take n ++ c.rest.drop n = s.device ++ c.rest := by
    rw [List.append_assoc, List.take_append_drop]
  have hrest : Holds o { s with written := s.written + n, device := s.device ++ c.rest.take n }
      ⟨c.size, c.rest.drop n⟩ := by
    refine ⟨hdevice, ?_, ?_, ?_, h.quiet, h.room⟩
    · rw [List.length_drop]
      dsimp only
      omega
    · dsimp only
      rw [hall]
      exact h.bytes
    · dsimp only
      rw [hall]
      exact h.silent
  rw [PcmSink.accept, if_neg (by omega)]
  dsimp only
  split_ifs with hdone
  · rw [hdone] at hrest
    exact Holds.head ⟨hrest.length, hrest.taken, hrest.bytes, hrest.silent, hrest.quiet, hrest.room⟩
  · exact ⟨hrest.at (.waitOutput ⟨c.size, c.rest.drop n⟩), hdone⟩

/-! ### System calls -/

section Returns

variable {r : Outcome}

theorem resume_idlePoll (hphase : s.phase = .idlePoll) : resume o s r =
    match r with
    | .ready => if s.fifo = [] then silence o s else { s with phase := .read }
    | .interrupted => s
    | _ => fail s := by
  rw [PcmSink.resume.eq_def, hphase]
  cases r <;> rfl

theorem resume_waitInput (hphase : s.phase = .waitInput) : resume o s r =
    match r with
    | .ready => { s with phase := .read }
    | .interrupted => s
    | _ => fail s := by
  rw [PcmSink.resume.eq_def, hphase]
  cases r <;> rfl

theorem resume_read (hphase : s.phase = .read) : resume o s r =
    match r with
    | .ready => read o s
    | .interrupted => s
    | .again => head o s
    | _ => fail s := by
  rw [PcmSink.resume.eq_def, hphase]
  cases r <;> rfl

theorem resume_waitOutput (hphase : s.phase = .waitOutput c) : resume o s r =
    match r with
    | .ready => { s with phase := .write c }
    | .interrupted => s
    | _ => fail s := by
  rw [PcmSink.resume.eq_def, hphase]
  cases r <;> rfl

theorem resume_write (hphase : s.phase = .write c) : resume o s r =
    match r with
    | .accepted n => accept o c n s
    | .interrupted | .again => { s with phase := .waitOutput c }
    | .underrun => if s.recoveries < 3 then { s with phase := .prepare c } else fail s
    | _ => fail s := by
  rw [PcmSink.resume.eq_def, hphase]
  cases r <;> rfl

theorem resume_prepare (hphase : s.phase = .prepare c) : resume o s r =
    match r with
    | .ready => { s with recoveries := s.recoveries + 1, phase := .waitOutput c }
    | _ => fail s := by
  rw [PcmSink.resume.eq_def, hphase]
  cases r <;> rfl

theorem resume_drain (hphase : s.phase = .drain) : resume o s r =
    match r with
    | .ready => { s with phase := .ended true }
    | _ => fail s := by
  rw [PcmSink.resume.eq_def, hphase]
  cases r <;> rfl

theorem resume_ended {ok : Bool} (hphase : s.phase = .ended ok) : resume o s r = s := by
  rw [PcmSink.resume.eq_def, hphase]

end Returns

/-! ### What a return keeps -/

/-- The return of a call keeps what the sink holds, or the program fails for a reason. -/
def Keeps (o : Options) (s : State) (r : Outcome) : Prop :=
  Sound o (resume o s r) ∨ (∃ fifo, resume o s r = fail { s with fifo }) ∧ ¬Good o s r

variable {r : Outcome}

theorem keeps_of_fail (hfail : resume o s r = fail s) (hnot : ¬Allowed r s.phase) : Keeps o s r :=
  .inr ⟨⟨s.fifo, hfail⟩, fun hgood => hnot hgood.allowed⟩

theorem Sound.keeps_of_eq (h : Sound o s) (hsame : resume o s r = s) : Keeps o s r := by
  left
  rw [hsame]
  exact h

/-- A call that is made again when it is interrupted, and returns otherwise only when it is ready. -/
theorem Sound.keeps_wait (h : Sound o s) (hinterrupted : resume o s .interrupted = s)
    (hready : Sound o (resume o s .ready))
    (hfail : r ≠ .ready → r ≠ .interrupted → resume o s r = fail s ∧ ¬Allowed r s.phase) :
    Keeps o s r := by
  by_cases h1 : r = .ready
  · exact .inl (h1 ▸ hready)
  by_cases h2 : r = .interrupted
  · exact h.keeps_of_eq (h2 ▸ hinterrupted)
  · exact keeps_of_fail (hfail h1 h2).1 (hfail h1 h2).2

theorem Sound.keeps_idlePoll (h : Sound o s) (hphase : s.phase = .idlePoll) : Keeps o s r := by
  have hholds := h.holds
  have hfits := h.fits
  rw [hphase] at hholds hfits
  refine h.keeps_wait (by simp only [resume_idlePoll hphase]) ?_ ?_
  · simp only [resume_idlePoll hphase]
    split_ifs
    · exact hholds.silence hfits.1 hfits.2
    · exact ⟨hholds.at .read, hfits.2⟩
  · cases r <;> simp [resume_idlePoll hphase, Allowed, hphase]

theorem Sound.keeps_waitInput (h : Sound o s) (hphase : s.phase = .waitInput) : Keeps o s r := by
  have hholds := h.holds
  have hfits := h.fits
  rw [hphase] at hholds hfits
  refine h.keeps_wait (by simp only [resume_waitInput hphase]) ?_ ?_
  · simp only [resume_waitInput hphase]
    exact ⟨hholds.at .read, hfits.2⟩
  · cases r <;> simp [resume_waitInput hphase, Allowed, hphase]

/-- A read that does not find what is wanted may end in the middle of a frame. -/
theorem Sound.keeps_read (h : Sound o s) (hphase : s.phase = .read) : Keeps o s r := by
  have hholds := h.holds
  have hfits := h.fits
  rw [hphase] at hholds hfits
  cases r with
  | ready =>
    have hresume : resume o s .ready = read o s := by simp only [resume_read hphase]
    rw [Keeps, hresume]
    by_cases hwhole : Whole o s
    · exact .inl (hholds.read hfits hwhole)
    · exact .inr ⟨⟨_, read_part hwhole⟩, fun hgood => hwhole (hgood.whole hphase rfl)⟩
  | interrupted => exact h.keeps_of_eq (by simp only [resume_read hphase])
  | again =>
    left
    simp only [resume_read hphase]
    exact hholds.head
  | _ => exact keeps_of_fail (by simp only [resume_read hphase]) (by simp [Allowed, hphase])

theorem Sound.keeps_waitOutput (h : Sound o s) (hphase : s.phase = .waitOutput c) :
    Keeps o s r := by
  have hholds := h.holds
  have hfits := h.fits
  rw [hphase] at hholds hfits
  refine h.keeps_wait (by simp only [resume_waitOutput hphase]) ?_ ?_
  · simp only [resume_waitOutput hphase]
    exact ⟨hholds.at (.write c), hfits⟩
  · cases r <;> simp [resume_waitOutput hphase, Allowed, hphase]

/-- A transfer goes on, waits for the device or recovers from an underrun, unless the device has
accepted nothing or too much, or there were three recoveries. -/
theorem Sound.keeps_write (h : Sound o s) (hphase : s.phase = .write c) : Keeps o s r := by
  have hholds : Holds o s c := by
    have hholds := h.holds
    rwa [hphase] at hholds
  have hfits : c.rest ≠ [] := by
    have hfits := h.fits
    rwa [hphase] at hfits
  have hwaits : Sound o { s with phase := .waitOutput c } := ⟨hholds.at (.waitOutput c), hfits⟩
  cases r with
  | accepted n =>
    by_cases hn : n = 0 ∨ n > c.rest.length
    · refine keeps_of_fail (by simp [resume_write hphase, accept, hn]) ?_
      rw [hphase]
      rintro (⟨n', hpos, hle, heq⟩ | h | h | h)
      · cases heq
        omega
      all_goals cases h
    · left
      simp only [resume_write hphase]
      exact hholds.accept (by omega) (by omega)
  | interrupted =>
    left
    simp only [resume_write hphase]
    exact hwaits
  | again =>
    left
    simp only [resume_write hphase]
    exact hwaits
  | underrun =>
    by_cases hroom : s.recoveries < 3
    · left
      simp only [resume_write hphase]
      rw [if_pos hroom]
      exact ⟨hholds.at (.prepare c), hfits⟩
    · have hfail : resume o s .underrun = fail s := by
        simp only [resume_write hphase]
        exact if_neg hroom
      exact .inr ⟨⟨s.fifo, hfail⟩, fun hgood => hroom (hgood.recovers rfl)⟩
  | _ => exact keeps_of_fail (by simp only [resume_write hphase]) (by simp [Allowed, hphase])

theorem Sound.keeps_prepare (h : Sound o s) (hphase : s.phase = .prepare c) : Keeps o s r := by
  obtain ⟨hholds, hfits⟩ := h
  rw [hphase] at hholds hfits
  cases r with
  | ready =>
    left
    simp only [resume_prepare hphase]
    exact ⟨⟨hholds.length, hholds.taken, hholds.bytes, hholds.silent, hholds.quiet, hholds.room⟩,
      hfits⟩
  | _ => exact keeps_of_fail (by simp only [resume_prepare hphase]) (by simp [Allowed, hphase])

theorem Sound.keeps_drain (h : Sound o s) (hphase : s.phase = .drain) : Keeps o s r := by
  obtain ⟨hholds, hfits⟩ := h
  rw [hphase] at hholds hfits
  cases r with
  | ready =>
    left
    simp only [resume_drain hphase]
    exact ⟨hholds.at (.ended true), hfits⟩
  | _ => exact keeps_of_fail (by simp only [resume_drain hphase]) (by simp [Allowed, hphase])

theorem Sound.resume_cases (h : Sound o s) (r : Outcome) : Keeps o s r := by
  cases hphase : s.phase with
  | idlePoll => exact h.keeps_idlePoll hphase
  | waitInput => exact h.keeps_waitInput hphase
  | read => exact h.keeps_read hphase
  | waitOutput c => exact h.keeps_waitOutput hphase
  | write c => exact h.keeps_write hphase
  | prepare c => exact h.keeps_prepare hphase
  | drain => exact h.keeps_drain hphase
  | ended ok => exact h.keeps_of_eq (resume_ended hphase)

theorem Sound.resume (h : Sound o s) (hgood : Good o s r) : Sound o (resume o s r) :=
  (h.resume_cases r).resolve_right fun hfail => hfail.2 hgood

/-! ### Runs -/

theorem sound_start (o : Options) : Sound o (start o) := by
  apply Holds.head
  refine ⟨rfl, rfl, rfl, rfl, fun _ => rfl, Nat.zero_le _⟩

/-- The state after so many system calls. -/
def run (o : Options) (answers : ℕ → Answer) : ℕ → State := after (step o) (start o) answers

theorem ended_step (h : s.phase = .ended false) (a : Answer) : step o s a = arrive s a.arrived := by
  have hphase : (arrive s a.arrived).phase = .ended false := h
  rw [step, resume_ended hphase]

/-- A program that has not failed holds all it should, and one that has failed has kept it. -/
theorem safe_step (h : Sound o s ∨ s.phase = .ended false ∧ Kept o s) (a : Answer) :
    Sound o (step o s a) ∨ (step o s a).phase = .ended false ∧ Kept o (step o s a) := by
  rcases h with h | ⟨hphase, hkept⟩
  · have harrive := h.arrive a.arrived
    rcases harrive.resume_cases a.outcome with hsound | ⟨⟨fifo, hfail⟩, -⟩
    · exact .inl hsound
    · right
      have hkept := harrive.holds.kept
      rw [step, hfail]
      exact ⟨rfl, hkept.length, hkept.stream, hkept.silent, hkept.quiet, hkept.room⟩
  · right
    rw [ended_step hphase]
    exact ⟨hphase, hkept.arrive _⟩

theorem run_kept (o : Options) (answers : ℕ → Answer) (n : ℕ) : Kept o (run o answers n) := by
  have hsafe := after_invariant (I := fun s => Sound o s ∨ s.phase = .ended false ∧ Kept o s)
    (.inl (sound_start o)) (fun n h => safe_step h (answers n)) n
  rcases hsafe with h | ⟨-, h⟩
  · exact h.holds.kept
  · exact h

/-! ### The way to the end -/

/-- The recoveries with the one that is being made. -/
def recovering (s : State) : ℕ :=
  s.recoveries + match s.phase with
    | .prepare _ => 1
    | _ => 0

theorem recovering_head (o : Options) (s : State) : recovering (head o s) = s.recoveries := by
  rw [recovering, head]
  split_ifs <;> rfl

theorem recovering_fail (s : State) : recovering (fail s) = s.recoveries := rfl

theorem recovering_silence (o : Options) (s : State) :
    recovering (silence o s) = s.recoveries := by
  rw [silence]
  rfl

theorem recovering_read (o : Options) (s : State) : recovering (read o s) = s.recoveries := by
  rw [read]
  dsimp only
  split_ifs
  · exact recovering_head o s
  · exact recovering_fail _
  · rfl

theorem recovering_accept (o : Options) (c : Chunk) (n : ℕ) (s : State) :
    recovering (accept o c n s) = s.recoveries := by
  rw [accept]
  dsimp only
  split_ifs
  · rfl
  · exact recovering_head o _
  · rfl

/-- Every underrun is answered by one recovery. -/
theorem recovering_resume (o : Options) (s : State) (r : Outcome) :
    recovering (resume o s r) ≤ recovering s + if r = .underrun then 1 else 0 := by
  have hle : s.recoveries ≤ recovering s := Nat.le_add_right _ _
  have hfail := recovering_fail s
  cases hphase : s.phase with
  | idlePoll =>
    cases r <;> simp only [resume_idlePoll hphase]
    · refine Nat.le_add_right_of_le ?_
      split_ifs
      · rw [recovering_silence]
        exact hle
      · exact hle
    all_goals omega
  | read =>
    cases r <;> simp only [resume_read hphase, recovering_read, recovering_head]
    all_goals omega
  | write c =>
    cases r <;> simp only [resume_write hphase, recovering_accept]
    case underrun =>
      split_ifs with hroom
      · exact Nat.add_le_add_right hle 1
      · omega
    case interrupted => exact hle
    case again => exact hle
    all_goals omega
  | prepare c =>
    have hone : recovering s = s.recoveries + 1 := by simp only [recovering, hphase]
    cases r <;> simp only [resume_prepare hphase]
    · exact Nat.le_add_right_of_le (Nat.le_of_eq hone.symm)
    all_goals omega
  | waitInput =>
    cases r <;> simp only [resume_waitInput hphase]
    case ready => exact hle
    all_goals omega
  | waitOutput c =>
    cases r <;> simp only [resume_waitOutput hphase]
    case ready => exact hle
    all_goals omega
  | drain =>
    cases r <;> simp only [resume_drain hphase]
    case ready => exact hle
    all_goals omega
  | ended ok =>
    rw [resume_ended hphase]
    exact Nat.le_add_right _ _

def Phase.rank : Phase → ℕ
  | .idlePoll | .waitInput => 3
  | .read => 2
  | .waitOutput _ | .write _ | .drain => 1
  | .prepare _ | .ended _ => 0

/-- What is left to be done: frames to be written, recoveries to be made, and the calls up to the
next transfer. -/
def left (o : Options) (s : State) : ℕ :=
  3 * (o.target - s.written) + 2 * (3 - s.recoveries) + s.phase.rank

/-- A call that is not made again for nothing, or the exit. -/
def advances (r : Outcome) : Phase → Bool
  | .waitOutput _ => false
  | .ended _ => true
  | _ => r ≠ .interrupted && r ≠ .again

theorem left_head (o : Options) (s : State) :
    left o (head o s) ≤ 3 * (o.target - s.written) + 2 * (3 - s.recoveries) + 3 := by
  rw [left, head]
  apply Nat.add_le_add_left
  dsimp only
  split_ifs <;> simp [Phase.rank]

theorem left_read (hfull : s.fifo ≠ [])
    (hgot : min (wanted o s) s.fifo.length % bytesPerFrame = 0) :
    left o (read o s) = 3 * (o.target - s.written) + 2 * (3 - s.recoveries) + 1 := by
  rw [read, if_neg hfull]
  dsimp only
  rw [if_neg (not_not.mpr hgot)]
  rfl

theorem left_accept {n : ℕ} (hpos : 0 < n) (hle : n ≤ c.rest.length)
    (hroom : s.written + n ≤ o.target) :
    left o (accept o c n s) < 3 * (o.target - s.written) + 2 * (3 - s.recoveries) + 1 := by
  rw [accept, if_neg (by omega)]
  dsimp only
  split_ifs
  · have hhead := left_head o
      { s with
        written := s.written + n, device := s.device ++ c.rest.take n
        readFrames := s.readFrames + c.size }
    dsimp only at hhead
    omega
  · simp only [left, Phase.rank]
    omega

def State.Ended (s : State) : Prop := ∃ ok, s.phase = .ended ok

/-- The return of a call does not raise what is left, and lowers it if it proceeds, up to the exit. -/
def Descends (o : Options) (s : State) (r : Outcome) : Prop :=
  left o (resume o s r) ≤ left o s ∧
    (advances r s.phase = true → s.Ended ∨ left o (resume o s r) < left o s)

theorem descends_of_lt (h : left o (resume o s r) < left o s) : Descends o s r :=
  ⟨Nat.le_of_lt h, fun _ => .inr h⟩

theorem descends_of_le (h : left o (resume o s r) ≤ left o s) (hwaits : advances r s.phase = false) :
    Descends o s r :=
  ⟨h, fun hadvances => absurd hadvances (by rw [hwaits]; exact Bool.false_ne_true)⟩

theorem descends_interrupted (hsame : resume o s .interrupted = s)
    (hwaits : advances .interrupted s.phase = false) : Descends o s .interrupted :=
  descends_of_le (Nat.le_of_eq (by rw [hsame])) hwaits

theorem left_eq {p : Phase} (hphase : s.phase = p) :
    left o s = 3 * (o.target - s.written) + 2 * (3 - s.recoveries) + p.rank := by
  rw [left, hphase]

theorem descends_idlePoll (hphase : s.phase = .idlePoll) (hallowed : Allowed r .idlePoll) :
    Descends o s r := by
  rcases hallowed with rfl | rfl
  · apply descends_of_lt
    simp only [resume_idlePoll hphase]
    rw [left_eq hphase]
    split_ifs
    · rw [silence, left]
      simp [Phase.rank]
    · simp [left, Phase.rank]
  · exact descends_interrupted (by simp only [resume_idlePoll hphase]) (by simp [hphase, advances])

theorem descends_waitInput (hphase : s.phase = .waitInput) (hallowed : Allowed r .waitInput) :
    Descends o s r := by
  rcases hallowed with rfl | rfl
  · apply descends_of_lt
    simp only [resume_waitInput hphase]
    rw [left_eq hphase]
    simp [left, Phase.rank]
  · exact descends_interrupted (by simp only [resume_waitInput hphase]) (by simp [hphase, advances])

theorem descends_read (hphase : s.phase = .read) (hallowed : Allowed r .read)
    (hmore : s.readFrames < o.target) (hfull : s.fifo ≠ []) (hwhole : r = .ready → Whole o s) :
    Descends o s r := by
  rcases hallowed with rfl | rfl
  · apply descends_of_lt
    simp only [resume_read hphase]
    rw [left_read hfull (got_of_whole hmore (hwhole rfl)), left_eq hphase]
    exact Nat.lt_succ_self _
  · exact descends_interrupted (by simp only [resume_read hphase]) (by simp [hphase, advances])

theorem descends_waitOutput (hphase : s.phase = .waitOutput c)
    (hallowed : Allowed r (.waitOutput c)) : Descends o s r := by
  rcases hallowed with rfl | rfl
  · refine descends_of_le ?_ (by simp [hphase, advances])
    rw [left_eq hphase]
    simp [resume_waitOutput hphase, left, Phase.rank]
  · exact descends_interrupted (by simp only [resume_waitOutput hphase]) (by simp [hphase, advances])

/-- Frames that are accepted are written, and a recovery is one of three. -/
theorem descends_write (hphase : s.phase = .write c) (hallowed : Allowed r (.write c))
    (hholds : Holds o s c) (hrecovers : r = .underrun → s.recoveries < 3) : Descends o s r := by
  have hleft := left_eq (o := o) hphase
  have hwaits : left o { s with phase := .waitOutput c } ≤ left o s := by
    rw [hleft]
    simp [left, Phase.rank]
  rcases hallowed with ⟨n, hpos, hle, rfl⟩ | rfl | rfl | rfl
  · have htaken := hholds.taken
    have hroom := hholds.room
    apply descends_of_lt
    simp only [resume_write hphase]
    rw [hleft]
    exact left_accept hpos hle (by omega)
  · exact descends_of_le (by simpa only [resume_write hphase] using hwaits) (by simp [hphase, advances])
  · exact descends_of_le (by simpa only [resume_write hphase] using hwaits) (by simp [hphase, advances])
  · apply descends_of_lt
    rw [hleft]
    simp [resume_write hphase, hrecovers rfl, left, Phase.rank]

theorem descends_prepare (hphase : s.phase = .prepare c) (hrecovering : recovering s ≤ 3) :
    Descends o s .ready := by
  have hone : recovering s = s.recoveries + 1 := by simp only [recovering, hphase]
  apply descends_of_lt
  rw [left_eq hphase]
  simp only [resume_prepare hphase, left, Phase.rank]
  omega

theorem descends_drain (hphase : s.phase = .drain) : Descends o s .ready := by
  apply descends_of_lt
  rw [left_eq hphase]
  simp [resume_drain hphase, left, Phase.rank]

theorem left_resume (h : Sound o s) (hgood : Good o s r) (hread : s.phase = .read → s.fifo ≠ [])
    (hrecovering : recovering s ≤ 3) : Descends o s r := by
  have hallowed := hgood.allowed
  have hholds := h.holds
  have hfits := h.fits
  cases hphase : s.phase with
  | idlePoll => exact descends_idlePoll hphase (hphase ▸ hallowed)
  | waitInput => exact descends_waitInput hphase (hphase ▸ hallowed)
  | read =>
    rw [hphase] at hallowed hfits
    exact descends_read hphase hallowed hfits (hread hphase) (hgood.whole hphase)
  | waitOutput c => exact descends_waitOutput hphase (hphase ▸ hallowed)
  | write c =>
    rw [hphase] at hallowed hholds
    exact descends_write hphase hallowed hholds hgood.recovers
  | prepare c =>
    rw [hphase] at hallowed
    obtain rfl : r = .ready := hallowed
    exact descends_prepare hphase hrecovering
  | drain =>
    rw [hphase] at hallowed
    obtain rfl : r = .ready := hallowed
    exact descends_drain hphase
  | ended ok =>
    rw [Descends, resume_ended hphase]
    exact ⟨Nat.le_refl _, fun _ => .inl ⟨ok, hphase⟩⟩

/-! ### A stream that is played -/

/-- The sink when its system call returns. -/
def returning (o : Options) (answers : ℕ → Answer) (n : ℕ) : State :=
  arrive (run o answers n) (answers n).arrived

def underrunAt (answers : ℕ → Answer) (n : ℕ) : Bool := (answers n).outcome = .underrun

/-- A stream and a device without errors: no wait takes two seconds, and a wait for input returns
when there is some; at most three underruns; reads find whole frames; no call is interrupted or
refused for ever. -/
structure Served (o : Options) (answers : ℕ → Answer) : Prop where
  allowed : ∀ n, Allowed (answers n).outcome (run o answers n).phase
  input : ∀ n, (run o answers n).phase = .waitInput → (answers n).outcome = .ready →
    (returning o answers n).fifo ≠ []
  whole : ∀ n, (run o answers n).phase = .read → (answers n).outcome = .ready →
    Whole o (returning o answers n)
  underruns : ∀ n, marked (underrunAt answers) n ≤ 3
  proceeds : ∀ n, (∀ ok, (run o answers n).phase ≠ .ended ok) →
    ∃ m, n ≤ m ∧ advances (answers m).outcome (run o answers m).phase = true

theorem run_succ (o : Options) (answers : ℕ → Answer) (n : ℕ) :
    run o answers (n + 1) = resume o (returning o answers n) (answers n).outcome := rfl

theorem head_phase_ne_read (o : Options) (s : State) : (head o s).phase ≠ .read := by
  rw [head]
  dsimp only
  split_ifs <;> simp

/-- The read comes behind a call that has found something in the FIFO. -/
theorem read_of_resume {r : Outcome} (hread : (resume o s r).phase = .read) :
    (resume o s r).fifo = s.fifo ∧
      (s.phase = .read ∨ s.phase = .waitInput ∧ r = .ready ∨ s.fifo ≠ []) := by
  cases hphase : s.phase with
  | idlePoll =>
    cases r <;> simp only [resume_idlePoll hphase, hphase] at hread ⊢
    · split_ifs at hread ⊢ with hempty
      · simp [silence] at hread
      · exact ⟨rfl, .inr (.inr hempty)⟩
    all_goals simp [fail] at hread
  | waitInput =>
    cases r <;> simp only [resume_waitInput hphase, hphase] at hread ⊢
    · simp
    all_goals simp [fail] at hread
  | read =>
    cases r <;> simp only [resume_read hphase, hphase] at hread ⊢
    case ready =>
      rw [read] at hread
      dsimp only at hread
      split_ifs at hread
      · exact absurd hread (head_phase_ne_read o s)
      · simp [fail] at hread
    case interrupted => simp
    case again => exact absurd hread (head_phase_ne_read o s)
    all_goals simp [fail] at hread
  | write c =>
    cases r <;> simp only [resume_write hphase] at hread ⊢
    case accepted n =>
      rw [accept] at hread
      dsimp only at hread
      split_ifs at hread
      · simp [fail] at hread
      · exact absurd hread (head_phase_ne_read o _)
    case underrun =>
      split_ifs at hread
      simp [fail] at hread
    all_goals simp [fail] at hread
  | waitOutput c => cases r <;> simp [resume_waitOutput hphase, hphase, fail] at hread
  | prepare c => cases r <;> simp [resume_prepare hphase, fail] at hread
  | drain => cases r <;> simp [resume_drain hphase, fail] at hread
  | ended ok =>
    rw [resume_ended hphase, hphase] at hread
    cases hread

section Served

variable {answers : ℕ → Answer}

theorem Served.good (h : Served o answers) (n : ℕ)
    (hrecovering : recovering (run o answers n) ≤ marked (underrunAt answers) n) :
    Good o (returning o answers n) (answers n).outcome where
  allowed := h.allowed n
  whole := h.whole n
  recovers := by
    intro hunderrun
    have hbound := h.underruns (n + 1)
    have hmark : underrunAt answers n = true := by simp [underrunAt, hunderrun]
    rw [marked_succ, if_pos hmark] at hbound
    have hle : (returning o answers n).recoveries ≤ recovering (run o answers n) :=
      Nat.le_add_right _ _
    omega

/-- While the stream is played, the sink is sound, a read finds something, and there are as many
recoveries as underruns. -/
theorem Served.sound (h : Served o answers) (n : ℕ) :
    Sound o (run o answers n) ∧
      ((run o answers n).phase = .read → (run o answers n).fifo ≠ []) ∧
        recovering (run o answers n) ≤ marked (underrunAt answers) n := by
  induction n with
  | zero =>
    refine ⟨sound_start o, fun hread => absurd hread (head_phase_ne_read o _), ?_⟩
    rw [show run o answers 0 = start o from rfl, start, recovering_head]
    exact Nat.le_refl _
  | succ n ih =>
    obtain ⟨hsound, hread, hrecovering⟩ := ih
    have hreturning := hsound.arrive (answers n).arrived
    have hgood := h.good n hrecovering
    have hcount : recovering (run o answers (n + 1)) ≤ marked (underrunAt answers) (n + 1) := by
      have hstep := recovering_resume o (returning o answers n) (answers n).outcome
      rw [← run_succ] at hstep
      have hsame : recovering (returning o answers n) = recovering (run o answers n) := rfl
      rw [marked_succ, underrunAt]
      simp only [decide_eq_true_eq]
      omega
    refine ⟨hreturning.resume hgood, fun hphase => ?_, hcount⟩
    rw [run_succ] at hphase ⊢
    obtain ⟨hfifo, hbefore⟩ := read_of_resume hphase
    rw [hfifo]
    rcases hbefore with hbefore | ⟨hwait, hready⟩ | hfull
    · have hfull := hread hbefore
      simp [returning, PcmSink.arrive, hfull]
    · exact h.input n hwait hready
    · exact hfull

theorem Served.ends (h : Served o answers) : ∃ n, (run o answers n).phase = .ended true := by
  have hstep : ∀ n, left o (run o answers (n + 1)) ≤ left o (run o answers n) ∧
      (advances (answers n).outcome (run o answers n).phase = true →
        (run o answers n).Ended ∨
          left o (run o answers (n + 1)) < left o (run o answers n)) := by
    intro n
    obtain ⟨hsound, hread, hrecovering⟩ := h.sound n
    have hbound := h.underruns n
    have hfull : (returning o answers n).phase = .read → (returning o answers n).fifo ≠ [] := by
      intro hphase
      have hfull := hread hphase
      simp [returning, PcmSink.arrive, hfull]
    exact left_resume (hsound.arrive (answers n).arrived) (h.good n hrecovering) hfull
      (Nat.le_trans hrecovering hbound)
  obtain ⟨n, ok, hn⟩ : ∃ n, (run o answers n).Ended := by
    apply ends_of_measure (left o)
    · exact fun n => (hstep n).1
    · intro n hnot
      obtain ⟨m, hm, hproceeds⟩ := h.proceeds n fun ok hok => hnot ⟨ok, hok⟩
      exact ⟨m, hm, (hstep m).2 hproceeds⟩
  refine ⟨n, ?_⟩
  have hfits := (h.sound n).1.fits
  rw [hn] at hfits ⊢
  cases ok with
  | true => rfl
  | false => exact hfits.elim

end Served

/-! ### Silence and the stream -/

theorem head_fields (o : Options) (s : State) :
    (head o s).silenceFrames = s.silenceFrames ∧ (head o s).arrived = s.arrived := by
  rw [head]
  exact ⟨rfl, rfl⟩

/-- Nothing but the poll of an empty FIFO asks for silence, and the arrivals are the environment's.
-/
theorem resume_fields (o : Options) (s : State) (r : Outcome) :
    ((resume o s r).silenceFrames = s.silenceFrames ∨ s.phase = .idlePoll ∧ s.fifo = []) ∧
      (resume o s r).arrived = s.arrived := by
  have hread : (read o s).silenceFrames = s.silenceFrames ∧ (read o s).arrived = s.arrived := by
    rw [read]
    dsimp only
    split_ifs
    · exact head_fields o s
    · rw [fail]
      exact ⟨rfl, rfl⟩
    · exact ⟨rfl, rfl⟩
  have haccept : ∀ c n, (accept o c n s).silenceFrames = s.silenceFrames ∧
      (accept o c n s).arrived = s.arrived := by
    intro c n
    rw [accept]
    dsimp only
    split_ifs
    · exact ⟨rfl, rfl⟩
    · exact head_fields o _
    · exact ⟨rfl, rfl⟩
  cases hphase : s.phase with
  | idlePoll =>
    cases r <;> simp only [resume_idlePoll hphase]
    · split_ifs with hempty
      · rw [silence]
        exact ⟨.inr ⟨by trivial, hempty⟩, rfl⟩
      · simp
    all_goals simp [fail]
  | read => cases r <;> simp [resume_read hphase, fail, head_fields, hread]
  | write c =>
    cases r <;> simp only [resume_write hphase]
    case accepted n => simp [haccept]
    case underrun => split_ifs <;> simp [fail]
    all_goals simp [fail]
  | waitInput => cases r <;> simp [resume_waitInput hphase, fail]
  | waitOutput c => cases r <;> simp [resume_waitOutput hphase, fail]
  | prepare c => cases r <;> simp [resume_prepare hphase, fail]
  | drain => cases r <;> simp [resume_drain hphase, fail]
  | ended ok =>
    rw [resume_ended hphase]
    exact ⟨.inl rfl, rfl⟩

/-- What has reached the FIFO, in its pieces. -/
def stream (answers : ℕ → Answer) (n : ℕ) : List UInt8 :=
  (List.range n).flatMap fun i => (answers i).arrived

theorem arrived_run (o : Options) (answers : ℕ → Answer) (n : ℕ) :
    (run o answers n).arrived = stream answers n := by
  induction n with
  | zero => rfl
  | succ n ih =>
    rw [run_succ, (resume_fields o _ _).2, stream, List.range_succ, List.flatMap_append, ← stream,
      ← ih]
    simp [returning, arrive]

theorem silent_of_ne (o : Options) (answers : ℕ → Answer) (n : ℕ)
    (h : (run o answers (n + 1)).silenceFrames ≠ (run o answers n).silenceFrames) :
    o.idleSilence = true ∧ (run o answers n).phase = .idlePoll ∧
      (returning o answers n).fifo = [] := by
  refine ⟨?_, (resume_fields o (returning o answers n) (answers n).outcome).1.resolve_left h⟩
  by_contra hidle
  rw [Bool.not_eq_true] at hidle
  rw [(run_kept o answers (n + 1)).quiet hidle, (run_kept o answers n).quiet hidle] at h
  exact h rfl

theorem ended_of_timeout {o : Options} {answers : ℕ → Answer} {n : ℕ}
    (hphase : (run o answers n).phase = .waitInput) (htimeout : (answers n).outcome = .timeout)
    {m : ℕ} (hm : n < m) : (run o answers m).phase = .ended false := by
  have hnow : (run o answers (n + 1)).phase = .ended false := by
    have hreturning : (returning o answers n).phase = .waitInput := hphase
    rw [run_succ, htimeout]
    simp only [resume_waitInput hreturning]
    rfl
  refine after_stays (I := fun s : State => s.phase = .ended false) (fun s a hs => ?_) hnow hm
  rw [ended_step hs]
  exact hs

/-- Whatever happens, what the device has accepted is the beginning of the stream, with silence in
it where the poll of an empty FIFO has asked for it. A wait for input of two seconds ends the
program with an error. A stream that is served is played to the end: as many frames as asked for. -/
theorem sink_plays (o : Options) (answers : ℕ → Answer) :
    (∀ n, streamed (run o answers n).device <+: stream answers n ∧
      (run o answers n).device.length = (run o answers n).written ∧
        (run o answers n).device.count .silence ≤ (run o answers n).silenceFrames) ∧
    (∀ n, (run o answers (n + 1)).silenceFrames ≠ (run o answers n).silenceFrames →
      o.idleSilence = true ∧ (run o answers n).phase = .idlePoll ∧
        (returning o answers n).fifo = []) ∧
    (∀ n, (run o answers n).phase = .waitInput → (answers n).outcome = .timeout →
      ∀ m, n < m → (run o answers m).phase = .ended false) ∧
    (Served o answers → ∃ n, (run o answers n).phase = .ended true ∧
      (run o answers n).device.length = o.seconds * 48000 ∧
      (run o answers n).written = o.seconds * 48000 ∧
      (run o answers n).device.count .silence = (run o answers n).silenceFrames ∧
      streamed (run o answers n).device ++ (run o answers n).fifo = stream answers n) := by
  refine ⟨fun n => ?_, silent_of_ne o answers, fun n hphase htimeout m hm => ?_, fun h => ?_⟩
  · have hkept := run_kept o answers n
    rw [← arrived_run o answers n]
    exact ⟨hkept.stream, hkept.length, hkept.silent⟩
  · exact ended_of_timeout hphase htimeout hm
  · obtain ⟨n, hn⟩ := h.ends
    obtain ⟨hholds, hfits⟩ := (h.sound n).1
    rw [hn] at hholds hfits
    have htaken := hholds.taken
    have hread : (run o answers n).readFrames = o.seconds * 48000 := hfits
    have hwritten : (run o answers n).written = o.seconds * 48000 := htaken.trans hread
    have hbytes := hholds.bytes
    have hsilent := hholds.silent
    simp only [Phase.chunk, List.append_nil] at hbytes hsilent
    rw [arrived_run] at hbytes
    exact ⟨n, hn, hholds.length.trans hwritten, hwritten, hsilent, hbytes⟩

/-! ### A pause, and a stream without one -/

def oneSecond (idleSilence : Bool) : Options := ⟨1, idleSilence, by decide⟩

/-- A period of zeros. -/
def piece : List UInt8 := List.replicate 3840 0

/-- Nothing for two seconds, and then a stream. -/
def paused (n : ℕ) : Answer :=
  if n = 0 then ⟨[], .timeout⟩ else ⟨piece, .ready⟩

/-- Without idle silence the pause ends the program. -/
theorem pause_ends : ¬∃ n, (run (oneSecond false) paused n).phase = .ended true := by
  rintro ⟨n, hn⟩
  cases n with
  | zero => exact absurd hn (by decide)
  | succ n =>
    rw [ended_of_timeout (by decide) rfl (Nat.succ_pos n)] at hn
    cases hn

def zeroFrame : Frame := ⟨0, 0, 0, 0⟩

/-- A piece of a period before every read, all of which the device accepts at once. -/
def steady (n : ℕ) : Answer :=
  if n % 4 = 0 then ⟨piece, .ready⟩
  else if n % 4 = 3 then ⟨[], .accepted 960⟩ else ⟨[], .ready⟩

/-- The sink in a period, with as many pieces behind it. -/
def period (k : ℕ) (fifo : List UInt8) (pieces : ℕ) (phase : Phase) : State :=
  ⟨fifo, List.replicate (3840 * pieces) 0, 960 * k, 0, 960 * k, 0,
    List.replicate (960 * k) (.stream zeroFrame), phase⟩

/-- A period of frames. -/
def full : List Sample := List.replicate 960 (.stream zeroFrame)

def fullChunk : Chunk := ⟨960, full⟩

theorem length_piece : piece.length = 3840 := List.length_replicate

theorem length_full : full.length = 960 := List.length_replicate

theorem piece_ne_nil : piece ≠ [] := by
  intro h
  have hlength := length_piece
  rw [h] at hlength
  cases hlength

theorem frames_replicate (n : ℕ) :
    frames (List.replicate (4 * n) 0) = List.replicate n zeroFrame := by
  induction n with
  | zero => rfl
  | succ n ih =>
    have hfour : 4 * (n + 1) = 4 * n + 1 + 1 + 1 + 1 := by omega
    rw [hfour]
    simp only [List.replicate_succ, frames, ih]
    rfl

theorem wanted_period {k : ℕ} (hk : k < 50) (fifo : List UInt8) (pieces : ℕ) (phase : Phase) :
    wanted (oneSecond false) (period k fifo pieces phase) = 3840 := by
  simp only [wanted, oneSecond, Options.target, rate, period, periodFrames, bytesPerFrame]
  omega

theorem step_wait (k : ℕ) :
    step (oneSecond false) (period k [] k .waitInput) ⟨piece, .ready⟩ =
      period k piece (k + 1) .read := by
  have harrived : List.replicate (3840 * k) (0 : UInt8) ++ piece =
      List.replicate (3840 * (k + 1)) 0 := by
    rw [piece, List.replicate_append_replicate, Nat.mul_add]
  simp only [step, arrive, resume, period, harrived, List.nil_append]

theorem step_read {k : ℕ} (hk : k < 50) :
    step (oneSecond false) (period k piece (k + 1) .read) ⟨[], .ready⟩ =
      period k [] (k + 1) (.waitOutput fullChunk) := by
  have hframes : (frames piece).map .stream = full := by
    rw [piece, show 3840 = 4 * 960 from rfl, frames_replicate, List.map_replicate]
    rfl
  have harrive : arrive (period k piece (k + 1) .read) [] =
      period k piece (k + 1) .read := by
    simp only [arrive, period, List.append_nil]
  have hwanted := wanted_period hk piece (k + 1) .read
  have hfull : (period k piece (k + 1) .read).fifo ≠ [] := piece_ne_nil
  rw [step, harrive]
  change read (oneSecond false) (period k piece (k + 1) .read) = _
  have hgot : min 3840 piece.length = 3840 := by rw [length_piece, Nat.min_self]
  have hdrop : piece.drop 3840 = [] := List.drop_of_length_le (Nat.le_of_eq length_piece)
  have htake : piece.take 3840 = piece := List.take_of_length_le (Nat.le_of_eq length_piece)
  rw [read, if_neg hfull, hwanted]
  simp [period, fullChunk, bytesPerFrame, hgot, hdrop, htake, hframes]

theorem step_output (k pieces : ℕ) :
    step (oneSecond false) (period k [] pieces (.waitOutput fullChunk)) ⟨[], .ready⟩ =
      period k [] pieces (.write fullChunk) := by
  simp only [step, arrive, resume, period, List.append_nil]

theorem step_write (k pieces : ℕ) :
    step (oneSecond false) (period k [] pieces (.write fullChunk)) ⟨[], .accepted 960⟩ =
      head (oneSecond false) (period (k + 1) [] pieces .drain) := by
  have hdevice : List.replicate (960 * k) (Sample.stream zeroFrame) ++ full =
      List.replicate (960 * (k + 1)) (.stream zeroFrame) := by
    rw [full, List.replicate_append_replicate, Nat.mul_add]
  have hread : 960 * k + 960 = 960 * (k + 1) := by omega
  have hdrop : full.drop 960 = [] := List.drop_of_length_le (Nat.le_of_eq length_full)
  have htake : full.take 960 = full := List.take_of_length_le (Nat.le_of_eq length_full)
  simp only [step, arrive, resume, accept, period, fullChunk, length_full, hdrop, htake, hdevice,
    hread, List.append_nil]
  rfl

theorem head_period {k : ℕ} (hk : k < 50) (pieces : ℕ) :
    head (oneSecond false) (period k [] pieces .drain) = period k [] pieces .waitInput := by
  have hmore : 960 * k < 48000 := by omega
  simp [head, period, oneSecond, Options.target, rate, hmore]

theorem head_last {k : ℕ} (hk : 50 ≤ k) (pieces : ℕ) :
    (head (oneSecond false) (period k [] pieces .drain)).phase = .drain := by
  have hdone : ¬960 * k < 48000 := by omega
  simp [head, period, oneSecond, Options.target, rate, hdone]

theorem steady_mod (n : ℕ) :
    (n % 4 = 0 → steady n = ⟨piece, .ready⟩) ∧
      (n % 4 = 3 → steady n = ⟨[], .accepted 960⟩) ∧
        (n % 4 = 1 ∨ n % 4 = 2 → steady n = ⟨[], .ready⟩) := by
  simp only [steady]
  refine ⟨fun h => by simp [h], fun h => by simp [h], ?_⟩
  rintro (h | h) <;> simp [h]

/-- The four system calls of a period. -/
theorem run_period {k : ℕ} (hk : k < 50)
    (h : run (oneSecond false) steady (4 * k) = period k [] k .waitInput) :
    run (oneSecond false) steady (4 * k + 1) = period k piece (k + 1) .read ∧
      run (oneSecond false) steady (4 * k + 2) = period k [] (k + 1) (.waitOutput fullChunk) ∧
        run (oneSecond false) steady (4 * k + 3) = period k [] (k + 1) (.write fullChunk) ∧
          run (oneSecond false) steady (4 * (k + 1)) =
            head (oneSecond false) (period (k + 1) [] (k + 1) .drain) := by
  have h1 : run (oneSecond false) steady (4 * k + 1) =
      period k piece (k + 1) .read := by
    rw [← step_wait, ← h, ← (steady_mod (4 * k)).1 (by omega)]
    rfl
  have h2 : run (oneSecond false) steady (4 * k + 2) =
      period k [] (k + 1) (.waitOutput fullChunk) := by
    rw [← step_read hk, ← h1, ← (steady_mod (4 * k + 1)).2.2 (by omega)]
    rfl
  have h3 : run (oneSecond false) steady (4 * k + 3) = period k [] (k + 1) (.write fullChunk) := by
    rw [← step_output, ← h2, ← (steady_mod (4 * k + 2)).2.2 (by omega)]
    rfl
  refine ⟨h1, h2, h3, ?_⟩
  rw [← step_write, ← h3, ← (steady_mod (4 * k + 3)).2.1 (by omega)]
  rfl

theorem run_periods {k : ℕ} (hk : k ≤ 50) :
    run (oneSecond false) steady (4 * k) = head (oneSecond false) (period k [] k .drain) := by
  induction k with
  | zero => rfl
  | succ k ih =>
    have hperiod := (ih (by omega)).trans (head_period (by omega) k)
    exact (run_period (by omega) hperiod).2.2.2

theorem run_drain : (run (oneSecond false) steady (4 * 50)).phase = .drain := by
  rw [run_periods (Nat.le_refl 50)]
  exact head_last (Nat.le_refl 50) 50

theorem ended_of_drain {o : Options} {answers : ℕ → Answer} {n : ℕ}
    (hphase : (run o answers n).phase = .drain) (hready : (answers n).outcome = .ready)
    {m : ℕ} (hm : n < m) : (run o answers m).phase = .ended true := by
  have hnow : (run o answers (n + 1)).phase = .ended true := by
    have hreturning : (returning o answers n).phase = .drain := hphase
    rw [run_succ, hready]
    simp only [resume_drain hreturning]
  refine after_stays (I := fun s : State => s.phase = .ended true) (fun s a hs => ?_) hnow hm
  have hphase : (arrive s a.arrived).phase = .ended true := hs
  rw [step, resume_ended hphase, hphase]

theorem steady_four (k : ℕ) : (steady (4 * k)).outcome = .ready := by
  rw [(steady_mod (4 * k)).1 (Nat.mul_mod_right 4 k)]

theorem run_ended {n : ℕ} (hn : 4 * 50 < n) :
    (run (oneSecond false) steady n).phase = .ended true :=
  ended_of_drain run_drain (steady_four 50) hn

/-- The four calls of a period, the drain, and the time behind the exit. -/
theorem steady_calls (n : ℕ) :
    (∃ k, run (oneSecond false) steady n = period k [] k .waitInput ∧
      steady n = ⟨piece, .ready⟩) ∨
    (∃ k, run (oneSecond false) steady n = period k piece (k + 1) .read ∧
      steady n = ⟨[], .ready⟩) ∨
    (∃ k, run (oneSecond false) steady n = period k [] (k + 1) (.waitOutput fullChunk) ∧
      steady n = ⟨[], .ready⟩) ∨
    (∃ k, run (oneSecond false) steady n = period k [] (k + 1) (.write fullChunk) ∧
      steady n = ⟨[], .accepted 960⟩) ∨
    ((run (oneSecond false) steady n).phase = .drain ∧ (steady n).outcome = .ready) ∨
    (run (oneSecond false) steady n).phase = .ended true := by
  obtain ⟨hzero, hthree, hmid⟩ := steady_mod n
  by_cases hn : n < 4 * 50
  · obtain ⟨k, j, hk, hj, rfl⟩ : ∃ k j, k < 50 ∧ j < 4 ∧ n = 4 * k + j :=
      ⟨n / 4, n % 4, by omega, by omega, by omega⟩
    have hwait : run (oneSecond false) steady (4 * k) = period k [] k .waitInput :=
      (run_periods (Nat.le_of_lt hk)).trans (head_period hk k)
    obtain ⟨hread, houtput, hwrite, -⟩ := run_period hk hwait
    obtain rfl | rfl | rfl | rfl : j = 0 ∨ j = 1 ∨ j = 2 ∨ j = 3 := by omega
    · exact .inl ⟨k, hwait, hzero (by omega)⟩
    · exact .inr (.inl ⟨k, hread, hmid (by omega)⟩)
    · exact .inr (.inr (.inl ⟨k, houtput, hmid (by omega)⟩))
    · exact .inr (.inr (.inr (.inl ⟨k, hwrite, hthree (by omega)⟩)))
  · right; right; right; right
    by_cases hend : 4 * 50 < n
    · exact .inr (run_ended hend)
    · obtain rfl : n = 4 * 50 := by omega
      exact .inl ⟨run_drain, steady_four 50⟩

theorem served_steady : Served (oneSecond false) steady where
  allowed n := by
    obtain ⟨k, hrun, ha⟩ | ⟨k, hrun, ha⟩ | ⟨k, hrun, ha⟩ | ⟨k, hrun, ha⟩ | ⟨hrun, ha⟩ | hrun :=
      steady_calls n
    · rw [hrun, ha]
      exact .inl rfl
    · rw [hrun, ha]
      exact .inl rfl
    · rw [hrun, ha]
      exact .inl rfl
    · rw [hrun, ha]
      exact .inl ⟨960, by decide, Nat.le_of_eq length_full.symm, rfl⟩
    · rw [hrun, ha]
      rfl
    · rw [hrun]
      trivial
  input n hphase _ := by
    obtain ⟨k, hrun, ha⟩ | ⟨k, hrun, -⟩ | ⟨k, hrun, -⟩ | ⟨k, hrun, -⟩ | ⟨hrun, -⟩ | hrun :=
      steady_calls n
    · rw [returning, hrun, ha]
      exact piece_ne_nil
    all_goals
      rw [hrun] at hphase
      cases hphase
  whole n hphase _ := by
    obtain ⟨k, hrun, -⟩ | ⟨k, hrun, ha⟩ | ⟨k, hrun, -⟩ | ⟨k, hrun, -⟩ | ⟨hrun, -⟩ | hrun :=
      steady_calls n
    case inr.inl =>
      have hfifo : (returning (oneSecond false) steady n).fifo = piece := by
        rw [returning, hrun, ha]
        exact List.append_nil piece
      right
      rw [hfifo, length_piece]
      decide
    all_goals
      rw [hrun] at hphase
      cases hphase
  underruns n := by
    have hnone : ∀ m, underrunAt steady m = false := by
      intro m
      rw [underrunAt, steady]
      split_ifs <;> rfl
    rw [marked, List.filter_eq_nil_iff.mpr fun m _ => by simp [hnone m]]
    exact Nat.zero_le 3
  proceeds n _ := by
    refine ⟨n + 4 * 51, Nat.le_add_right _ _, ?_⟩
    rw [run_ended (by omega)]
    rfl

theorem steady_plays : ∃ n, (run (oneSecond false) steady n).phase = .ended true ∧
    (run (oneSecond false) steady n).device.length = 1 * 48000 := by
  obtain ⟨-, -, -, hplays⟩ := sink_plays (oneSecond false) steady
  obtain ⟨n, hended, hlength, -⟩ := hplays served_steady
  exact ⟨n, hended, hlength⟩

end ForgeOS.Native.PcmSink
