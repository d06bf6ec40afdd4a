import ForgeOS.Native.MusicView

/-! `apply_reply` of the panel: it takes a line of the music bridge apart with `sscanf` and by its
tabs. What the bridge has written of a view comes out as it was. -/

namespace ForgeOS.Native

open Music

/-! ### The panel -/

structure Panel where
  musicService : Bool
  trackTitle : Bytes
  trackArtist : Bytes
  outputLabel : Bytes
  playerStatus : Bytes
  revision : UInt64
  positionFrames : UInt64
  framesWritten : UInt64
  underruns : UInt64
  playing : UInt32
  volume : UInt32
  fault : UInt32
  connected : Bool
  notice : Bytes
  deriving DecidableEq, Repr

/-- The size of `track_title`, `track_artist` and `output_label` -/
def trackSize : ℕ := 81

/-- `sizeof player_status` -/
def playerStatusSize : ℕ := 16

/-- At most as much as fits before the zero, with question marks for what is not printable. -/
def metadataField (size : ℕ) (text : Bytes) : Bytes :=
  (text.take (size - 1)).map fun c => if printable c then c else 63

/-- `strchr` and what lies on both sides of what it finds. -/
def cut (c : UInt8) (text : Bytes) : Option (Bytes × Bytes) :=
  if c ∈ text then some (text.takeWhile (· != c), (text.dropWhile (· != c)).drop 1) else none

/-- The numbers and the word of a line. -/
structure Scanned where
  result : Bytes
  rev : UInt64
  pstate : UInt32
  vol : UInt32
  pos : UInt64
  written : UInt64
  under : UInt64
  fstate : UInt32
  deriving DecidableEq, Repr

/-- `sscanf(response, "%15s %llu %u %u %llu %llu %llu %u", ..)`, all eight of them. -/
def scanReply (response : Bytes) : Option Scanned := do
  let (result, rest) ← scanWord 15 response
  let (rev, rest) ← scanLongLong rest
  let (pstate, rest) ← scanUnsigned rest
  let (vol, rest) ← scanUnsigned rest
  let (pos, rest) ← scanLongLong rest
  let (written, rest) ← scanLongLong rest
  let (under, rest) ← scanLongLong rest
  let (fstate, _) ← scanUnsigned rest
  pure { result, rev, pstate, vol, pos, written, under, fstate }

/-- The texts between the tabs of a line, the last of which may be missing. -/
structure Texts where
  title : Bytes
  artist : Bytes
  output : Bytes
  status : Option Bytes
  deriving DecidableEq, Repr

def cutTexts (response : Bytes) : Option Texts := do
  let (_, rest) ← cut 9 response
  let (title, rest) ← cut 9 rest
  let (artist, rest) ← cut 9 rest
  match cut 9 rest with
  | some (output, rest) => do
    let (status, _) ← cut 10 rest
    if status.length ≥ playerStatusSize then none
    else pure { title, artist, output, status := some status }
  | none => do
    let (output, _) ← cut 10 rest
    pure { title, artist, output, status := none }

/-- The panel with the texts in place. -/
def Panel.setTexts (p : Panel) (texts : Texts) : Panel :=
  { p with
    trackTitle := metadataField trackSize texts.title
    trackArtist := metadataField trackSize texts.artist
    outputLabel := metadataField trackSize texts.output
    playerStatus := match texts.status with
      | some status => metadataField playerStatusSize status
      | none => ascii "READY" }

/-- The end of `apply_reply`. -/
def Panel.accept (p : Panel) (r : Scanned) : Panel × ℤ :=
  let p :=
    { p with
      revision := r.rev
      playing := r.pstate
      volume := r.vol
      positionFrames := r.pos
      framesWritten := r.written
      underruns := r.under
      fault := r.fstate
      connected := true }
  if r.result = ascii "STALE" then ({ p with notice := ascii "STATE CHANGED - TAP AGAIN" }, 1)
  else (p, if r.result = ascii "FAILED" then 2 else 0)

def applyReply (response : Bytes) (p : Panel) : Panel × ℤ :=
  match scanReply (cstr response) with
  | none => (p, -1)
  | some r =>
    if (r.result ≠ ascii "OK" ∧ r.result ≠ ascii "STALE" ∧ r.result ≠ ascii "FAILED") ∨
        1 < r.pstate ∨ 100 < r.vol ∨ 1 < r.fstate then (p, -1)
    else if p.musicService then
      match cutTexts (cstr response) with
      | none => (p, -1)
      | some texts =>
        if (p.setTexts texts).playerStatus ∈ statuses then (p.setTexts texts).accept r
        else (p.setTexts texts, -1)
    else p.accept r

/-! ### Taking a line apart -/

theorem cut_append {c : UInt8} {a : Bytes} (ha : c ∉ a) (b : Bytes) :
    cut c (a ++ c :: b) = some (a, b) := by
  have hall : ∀ x ∈ a, (x != c) = true := by
    intro x hx
    rw [bne_iff_ne]
    rintro rfl
    exact ha hx
  have htake : (a ++ c :: b).takeWhile (· != c) = a := by
    rw [List.takeWhile_append_of_pos hall]
    simp
  have hdrop : (a ++ c :: b).dropWhile (· != c) = c :: b := by
    rw [List.dropWhile_append_of_pos hall]
    simp
  rw [cut, if_pos (List.mem_append_right a List.mem_cons_self), htake, hdrop]
  rfl

theorem scanLongLong_blank (n : UInt64) {rest : Bytes} (hrest : EndsNumber rest) :
    scanLongLong (32 :: (decimal n.toNat ++ rest)) = some (n, rest) :=
  (strtoull_blank _).trans (strtoull_decimal n hrest)

theorem scanUnsigned_blank {n : ℕ} (hn : n < 2 ^ 32) {rest : Bytes} (hrest : EndsNumber rest) :
    scanUnsigned (32 :: (decimal n ++ rest)) = some (.ofNat n, rest) := by
  rw [scanUnsigned, strtoull_blank]
  exact scanUnsigned_decimal hn hrest

theorem not_mem_of_printable {c : UInt8} (hc : printable c = false) {text : Bytes}
    (h : text.all printable = true) : c ∉ text := fun hmem => by
  rw [List.all_eq_true.mp h c hmem] at hc
  cases hc

theorem not_mem_decimal {c : UInt8} (hc : isdigit c = false) (n : ℕ) : c ∉ decimal n := fun hmem => by
  rw [decimal_isdigit n c hmem] at hc
  cases hc

theorem metadataField_printable {size : ℕ} {text : Bytes} (hlen : text.length < size)
    (h : text.all printable = true) : metadataField size text = text := by
  rw [metadataField, List.take_of_length_le (by omega)]
  calc text.map (fun c => if printable c then c else 63) = text.map id := by
        apply List.map_congr_left
        intro c hc
        exact if_pos (List.all_eq_true.mp h c hc)
    _ = text := List.map_id text

/-! ### What the bridge has written -/

/-- The fault that the bridge tells the panel of. -/
def faultOf (v : View) : ℕ := if v.connected then 0 else 1

/-- The texts of a line. -/
def textLine (v : View) : Bytes :=
  v.title ++ 9 :: (v.artist ++ 9 :: (v.output ++ 9 :: (v.status ++ [10])))

/-- The word and the numbers of a line, and what follows them. -/
def numberLine (kind : ReplyKind) (v : View) (rest : Bytes) : Bytes :=
  kind.word ++ 32 :: (decimal v.rev.toNat ++ 32 :: (decimal v.playing ++ 32 :: (decimal v.volume ++
    32 :: (decimal v.pos.toNat ++ 32 :: (decimal 0 ++ 32 :: (decimal 0 ++
    32 :: (decimal (faultOf v) ++ rest)))))))

theorem stateLine_eq (kind : ReplyKind) (v : View) :
    stateLine kind v = numberLine kind v (9 :: textLine v) := rfl

theorem numberLine_append (kind : ReplyKind) (v : View) (rest : Bytes) :
    numberLine kind v rest = numberLine kind v [] ++ rest := by
  simp [numberLine]

theorem faultOf_lt (v : View) : faultOf v < 2 := by
  unfold faultOf
  split_ifs <;> decide

/-- What `scanReply` takes out of a line of the bridge. -/
def scannedOf (kind : ReplyKind) (v : View) : Scanned where
  result := kind.word
  rev := v.rev
  pstate := .ofNat v.playing
  vol := .ofNat v.volume
  pos := v.pos
  written := 0
  under := 0
  fstate := .ofNat (faultOf v)

theorem scanReply_numberLine {v : View} (hv : Readable v) (kind : ReplyKind) {rest : Bytes}
    (hrest : EndsNumber rest) :
    scanReply (numberLine kind v rest) = some (scannedOf kind v) := by
  have hblank : ∀ rest, EndsNumber (32 :: rest) := fun rest => endsNumber_cons rfl
  obtain ⟨hne, hlen, hspace⟩ := kind_word kind
  have hword : ∀ rest, scanWord 15 (kind.word ++ 32 :: rest) = some (kind.word, 32 :: rest) :=
    fun rest => scanWord_append hne (by omega) hspace
  have hzero : ∀ rest, scanLongLong (32 :: (decimal 0 ++ 32 :: rest)) = some (0, 32 :: rest) :=
    fun rest => scanLongLong_blank 0 (hblank rest)
  simp only [scanReply, numberLine, Option.bind_eq_bind, Option.bind_some,
    hword, scanLongLong_blank _ (hblank _),
    scanUnsigned_blank (hv.playing.trans_lt (by decide)) (hblank _),
    scanUnsigned_blank (hv.volume.trans_lt (by decide)) (hblank _), hzero,
    scanUnsigned_blank ((faultOf_lt v).trans (by decide)) hrest]
  rfl

theorem not_mem_numberLine {c : UInt8} (hdigit : isdigit c = false) (hc : c ≠ 32)
    {kind : ReplyKind} (hkind : c ∉ kind.word) (v : View) : c ∉ numberLine kind v [] := by
  simp only [numberLine, List.mem_append, List.mem_cons, hc, not_mem_decimal hdigit, hkind,
    List.not_mem_nil, or_self, not_false_eq_true]

/-- What `cutTexts` takes out of a line of the bridge. -/
def textsOf (v : View) : Texts where
  title := v.title
  artist := v.artist
  output := v.output
  status := some v.status

theorem cutTexts_textLine {v : View} (hv : Readable v) {a : Bytes} (ha : 9 ∉ a) :
    cutTexts (a ++ 9 :: textLine v) =
      some (textsOf v) := by
  obtain ⟨hlen, hstatus⟩ := statuses_spec hv.status
  have htab : printable 9 = false := rfl
  have hend : printable 10 = false := rfl
  simp only [cutTexts, textLine, Option.bind_eq_bind, Option.bind_some, cut_append ha,
    cut_append (not_mem_of_printable htab hv.title.2),
    cut_append (not_mem_of_printable htab hv.artist.2),
    cut_append (not_mem_of_printable htab hv.output.2),
    cut_append (not_mem_of_printable hend hstatus)]
  exact if_neg (Nat.not_le.mpr hlen)

/-- No byte of a line is zero. -/
theorem cstr_stateLine {v : View} (hv : Readable v) (kind : ReplyKind) :
    cstr (stateLine kind v) = stateLine kind v := by
  have hzero : printable 0 = false := rfl
  have hnumbers : (0 : UInt8) ∉ numberLine kind v [] :=
    not_mem_numberLine rfl (by decide) (by cases kind <;> decide) v
  have hmem : (0 : UInt8) ∉ stateLine kind v := by
    rw [stateLine_eq, numberLine_append]
    simp only [textLine, List.mem_append, List.mem_cons, hnumbers, List.not_mem_nil, or_false,
      not_mem_of_printable hzero hv.title.2, not_mem_of_printable hzero hv.artist.2,
      not_mem_of_printable hzero hv.output.2,
      not_mem_of_printable hzero (statuses_spec hv.status).2, false_or]
    decide
  rw [cstr, List.takeWhile_eq_self_iff]
  intro c hc
  rw [bne_iff_ne]
  rintro rfl
  exact hmem hc

/-! ### The panel behind a reply -/

/-- What `apply_reply` returns for each kind of reply. -/
def resultOf : ReplyKind → ℤ
  | .ok => 0
  | .stale => 1
  | .failed => 2

/-- The numbers of a view, and the fault as its connection. -/
structure ShowsNumbers (p : Panel) (v : View) : Prop where
  revision : p.revision = v.rev
  playing : p.playing.toNat = v.playing
  volume : p.volume.toNat = v.volume
  position : p.positionFrames = v.pos
  fault : p.fault = if v.connected then 0 else 1

/-- The texts of a view. -/
structure ShowsTexts (p : Panel) (v : View) : Prop where
  title : p.trackTitle = v.title
  artist : p.trackArtist = v.artist
  output : p.outputLabel = v.output
  status : p.playerStatus = v.status

theorem setTexts_shows {v : View} (hv : Readable v) (p : Panel) :
    ShowsTexts (p.setTexts (textsOf v)) v := by
  obtain ⟨hlen, hstatus⟩ := statuses_spec hv.status
  have htrack : ∀ {text : Bytes}, text.length ≤ 80 ∧ text.all printable = true →
      metadataField trackSize text = text :=
    fun h => metadataField_printable (Nat.lt_succ_of_le h.1) h.2
  exact ⟨htrack hv.title, htrack hv.artist, htrack hv.output, metadataField_printable hlen hstatus⟩

theorem ofNat_faultOf (v : View) : UInt32.ofNat (faultOf v) = if v.connected then 0 else 1 := by
  unfold faultOf
  split_ifs <;> rfl

theorem accept_shows {v : View} (hv : Readable v) (kind : ReplyKind) (p : Panel) :
    (p.accept (scannedOf kind v)).2 = resultOf kind ∧
      ShowsNumbers (p.accept (scannedOf kind v)).1 v ∧
      (ShowsTexts p v → ShowsTexts (p.accept (scannedOf kind v)).1 v) := by
  have hplaying : (UInt32.ofNat v.playing).toNat = v.playing :=
    UInt32.toNat_ofNat_of_lt' (hv.playing.trans_lt (by decide))
  have hvolume : (UInt32.ofNat v.volume).toNat = v.volume :=
    UInt32.toNat_ofNat_of_lt' (hv.volume.trans_lt (by decide))
  have hfault := ofNat_faultOf v
  cases kind with
  | ok => exact ⟨rfl, ⟨rfl, hplaying, hvolume, rfl, hfault⟩, fun ⟨ht, ha, ho, hs⟩ => ⟨ht, ha, ho, hs⟩⟩
  | stale => exact ⟨rfl, ⟨rfl, hplaying, hvolume, rfl, hfault⟩, fun ⟨ht, ha, ho, hs⟩ => ⟨ht, ha, ho, hs⟩⟩
  | failed => exact ⟨rfl, ⟨rfl, hplaying, hvolume, rfl, hfault⟩, fun ⟨ht, ha, ho, hs⟩ => ⟨ht, ha, ho, hs⟩⟩

theorem word_known (kind : ReplyKind) :
    ¬(kind.word ≠ ascii "OK" ∧ kind.word ≠ ascii "STALE" ∧ kind.word ≠ ascii "FAILED") := by
  rintro ⟨hok, hstale, hfailed⟩
  cases kind with
  | ok => exact hok rfl
  | stale => exact hstale rfl
  | failed => exact hfailed rfl

theorem not_lt_ofNat {bound n : ℕ} (hn : n ≤ bound) (hbound : bound < 2 ^ 32) :
    ¬UInt32.ofNat bound < UInt32.ofNat n := by
  rw [UInt32.lt_iff_toNat_lt, UInt32.toNat_ofNat_of_lt' hbound,
    UInt32.toNat_ofNat_of_lt' (hn.trans_lt hbound)]
  exact Nat.not_lt.mpr hn

/-- The checks of `apply_reply` on the word and the numbers. -/
theorem scannedOf_valid {v : View} (hv : Readable v) (kind : ReplyKind) :
    ¬(((scannedOf kind v).result ≠ ascii "OK" ∧ (scannedOf kind v).result ≠ ascii "STALE" ∧
        (scannedOf kind v).result ≠ ascii "FAILED") ∨
      1 < (scannedOf kind v).pstate ∨ 100 < (scannedOf kind v).vol ∨
        1 < (scannedOf kind v).fstate) := by
  rintro (hword | hplaying | hvolume | hfault)
  · exact word_known kind hword
  · exact not_lt_ofNat hv.playing (by decide) hplaying
  · exact not_lt_ofNat hv.volume (by decide) hvolume
  · exact not_lt_ofNat (Nat.le_of_lt_succ (faultOf_lt v)) (by decide) hfault

/-- A reply of the bridge leaves its view in the panel. -/
theorem applyReply_stateReply {v : View} (hv : Readable v) (kind : ReplyKind) (p : Panel) :
    (applyReply (stateReply kind v) p).2 = resultOf kind ∧
      ShowsNumbers (applyReply (stateReply kind v) p).1 v ∧
      (p.musicService = true → ShowsTexts (applyReply (stateReply kind v) p).1 v) := by
  have hscan : scanReply (stateLine kind v) = some (scannedOf kind v) :=
    scanReply_numberLine hv kind (endsNumber_cons rfl)
  have htexts : cutTexts (stateLine kind v) = some (textsOf v) := by
    rw [stateLine_eq, numberLine_append]
    exact cutTexts_textLine hv
      (not_mem_numberLine rfl (by decide) (by cases kind <;> decide) v)
  have hset := setTexts_shows hv p
  rw [stateReply_eq hv]
  simp only [applyReply, cstr_stateLine hv, hscan, if_neg (scannedOf_valid hv kind), htexts,
    hset.status, if_pos hv.status]
  by_cases hmusic : p.musicService = true
  · rw [if_pos hmusic]
    obtain ⟨hresult, hnumbers, htexts⟩ := accept_shows hv kind (p.setTexts (textsOf v))
    exact ⟨hresult, hnumbers, fun _ => htexts hset⟩
  · rw [if_neg hmusic]
    obtain ⟨hresult, hnumbers, -⟩ := accept_shows hv kind p
    exact ⟨hresult, hnumbers, fun h => absurd h hmusic⟩

/-- Whatever `read_view` accepts and the worker makes of its revision and connection, the panel
takes the line of `state_reply` and shows the view that it was written from. -/
theorem reply_round_trip {raw : Bytes} {v : View} (h : readView raw = some v) (rev : UInt64)
    (connected : Bool) (kind : ReplyKind) (p : Panel) :
    let v := { v with rev, connected }
    let after := applyReply (stateReply kind v) p
    after.2 = resultOf kind ∧ ShowsNumbers after.1 v ∧
      (p.musicService = true → ShowsTexts after.1 v) := by
  intro v after
  obtain ⟨playing, volume, title, artist, output, status⟩ := readView_readable h
  exact applyReply_stateReply (v := v) ⟨playing, volume, title, artist, output, status⟩ kind p

/-- An empty artist, the greatest position and revision, and a player that has been lost. -/
def lastView : View where
  rev := 0
  pos := 18446744073709551615
  playing := 0
  volume := 100
  connected := true
  title := ascii "Song"
  artist := []
  output := ascii "Hall"
  status := ascii "STREAM_LIMIT"
  videoId := []

/-- A panel in front of the music bridge that has not heard from it. -/
def idlePanel : Panel where
  musicService := true
  trackTitle := ascii "SELECT A TRACK"
  trackArtist := ascii "YOUTUBE MUSIC"
  outputLabel := []
  playerStatus := ascii "READY"
  revision := 0
  positionFrames := 0
  framesWritten := 0
  underruns := 0
  playing := 0
  volume := 0
  fault := 0
  connected := false
  notice := []

theorem reply_round_trip_lastView :
    let v := { lastView with rev := 18446744073709551615, connected := false }
    let after := applyReply (stateReply .stale v) idlePanel
    after.2 = 1 ∧ ShowsNumbers after.1 v ∧ ShowsTexts after.1 v := by
  have h : readView (ascii "0\t18446744073709551615\t100\tSong\t\tHall\tSTREAM_LIMIT") =
      some lastView := by decide
  obtain ⟨hresult, hnumbers, htexts⟩ :=
    reply_round_trip h 18446744073709551615 false .stale idlePanel
  exact ⟨hresult, hnumbers, htexts rfl⟩

/-! ### A reply that is refused -/

/-- What the panel shows. -/
structure Displayed where
  title : Bytes
  artist : Bytes
  output : Bytes
  status : Bytes
  revision : UInt64
  playing : UInt32
  volume : UInt32
  position : UInt64
  fault : UInt32
  connected : Bool
  deriving DecidableEq, Repr

def Panel.displayed (p : Panel) : Displayed where
  title := p.trackTitle
  artist := p.trackArtist
  output := p.outputLabel
  status := p.playerStatus
  revision := p.revision
  playing := p.playing
  volume := p.volume
  position := p.positionFrames
  fault := p.fault
  connected := p.connected

/-- The word and the numbers are as `apply_reply` wants them. -/
def Scanned.Valid (r : Scanned) : Prop :=
  (r.result = ascii "OK" ∨ r.result = ascii "STALE" ∨ r.result = ascii "FAILED") ∧
    r.pstate ≤ 1 ∧ r.vol ≤ 100 ∧ r.fstate ≤ 1

/-- A line that is in order up to its status, which the panel does not know. -/
structure UnknownStatus (response : Bytes) (texts : Texts) : Prop where
  scanned : ∃ r, scanReply (cstr response) = some r ∧ r.Valid
  cut : cutTexts (cstr response) = some texts
  status : ∃ status, texts.status = some status ∧ metadataField playerStatusSize status ∉ statuses

/-- The panel shows these texts already. -/
structure Texts.Shown (texts : Texts) (p : Panel) : Prop where
  title : p.trackTitle = metadataField trackSize texts.title
  artist : p.trackArtist = metadataField trackSize texts.artist
  output : p.outputLabel = metadataField trackSize texts.output
  status : ∀ status, texts.status = some status → p.playerStatus = metadataField playerStatusSize status

theorem valid_iff (r : Scanned) :
    r.Valid ↔ ¬((r.result ≠ ascii "OK" ∧ r.result ≠ ascii "STALE" ∧ r.result ≠ ascii "FAILED") ∨
      1 < r.pstate ∨ 100 < r.vol ∨ 1 < r.fstate) := by
  rw [Scanned.Valid, not_or, not_or, not_or, UInt32.not_lt, UInt32.not_lt, UInt32.not_lt]
  refine and_congr_left fun _ => ?_
  constructor
  · rintro (h | h | h) ⟨hok, hstale, hfailed⟩
    · exact hok h
    · exact hstale h
    · exact hfailed h
  · intro h
    by_cases hok : r.result = ascii "OK"
    · exact .inl hok
    · by_cases hstale : r.result = ascii "STALE"
      · exact .inr (.inl hstale)
      · exact .inr (.inr (not_not.mp fun hfailed => h ⟨hok, hstale, hfailed⟩))

theorem accept_result (p : Panel) (r : Scanned) : (p.accept r).2 ≠ -1 := by
  unfold Panel.accept
  dsimp only
  split_ifs <;> simp

/-- A line without a status is taken for one of a player that is ready. -/
theorem setTexts_status (p : Panel) (texts : Texts) :
    (p.setTexts texts).playerStatus ∉ statuses ↔
      ∃ status, texts.status = some status ∧ metadataField playerStatusSize status ∉ statuses := by
  have hready : ascii "READY" ∈ statuses := by decide
  rw [Panel.setTexts]
  cases texts.status with
  | none => simp [hready]
  | some status => simp

/-- What is shown after the texts have been written is what was shown before only if they were shown
already. -/
theorem setTexts_displayed {p : Panel} {texts : Texts} {status : Bytes}
    (hstatus : texts.status = some status) :
    (p.setTexts texts).displayed = p.displayed ↔ texts.Shown p := by
  simp only [Panel.displayed, Panel.setTexts, hstatus, Displayed.mk.injEq, and_true]
  constructor
  · rintro ⟨ht, ha, ho, hs⟩
    refine ⟨ht.symm, ha.symm, ho.symm, fun status' h => ?_⟩
    rw [hstatus] at h
    cases h
    exact hs.symm
  · intro h
    exact ⟨h.title.symm, h.artist.symm, h.output.symm, (h.status status hstatus).symm⟩

/-- The ways of a reply: it is refused before anything is written, it is refused for its status with
the texts written, or it is taken. -/
theorem applyReply_cases (response : Bytes) (p : Panel) :
    (applyReply response p = (p, -1) ∧ ∀ texts, p.musicService = true → ¬UnknownStatus response texts) ∨
    (∃ texts, p.musicService = true ∧ UnknownStatus response texts ∧
      applyReply response p = (p.setTexts texts, -1)) ∨
    ((applyReply response p).2 ≠ -1 ∧
      ∀ texts, p.musicService = true → ¬UnknownStatus response texts) := by
  unfold applyReply
  cases hscan : scanReply (cstr response) with
  | none =>
    refine .inl ⟨rfl, fun texts _ h => ?_⟩
    obtain ⟨r, hr, -⟩ := h.scanned
    rw [hscan] at hr
    cases hr
  | some r =>
    dsimp only
    split_ifs with hinvalid hmusic
    · refine .inl ⟨rfl, fun texts _ h => ?_⟩
      obtain ⟨r', hr, hvalid⟩ := h.scanned
      rw [hscan] at hr
      cases hr
      exact (valid_iff r).mp hvalid hinvalid
    · cases hcut : cutTexts (cstr response) with
      | none =>
        refine .inl ⟨rfl, fun texts _ h => ?_⟩
        have htexts := h.cut
        rw [hcut] at htexts
        cases htexts
      | some texts =>
        dsimp only
        split_ifs with hknown
        · refine .inr (.inr ⟨accept_result _ r, fun texts' _ h => ?_⟩)
          have htexts := h.cut
          rw [hcut] at htexts
          cases htexts
          exact (setTexts_status p texts).mpr h.status hknown
        · exact .inr (.inl ⟨texts, hmusic, ⟨⟨r, hscan, (valid_iff r).mpr hinvalid⟩, hcut,
            (setTexts_status p texts).mp hknown⟩, rfl⟩)
    · exact .inr (.inr ⟨accept_result p r, fun texts hyes => absurd hyes hmusic⟩)

/-- A reply that is refused leaves what the panel shows, unless it is refused for its status alone and
brings other texts than the panel shows. -/
theorem refused_displays_iff (response : Bytes) (p : Panel) :
    ((applyReply response p).2 = -1 → (applyReply response p).1.displayed = p.displayed) ↔
      ∀ texts, p.musicService = true → UnknownStatus response texts → texts.Shown p := by
  obtain ⟨heq, hno⟩ | ⟨texts, hmusic, hunknown, heq⟩ | ⟨hresult, hno⟩ := applyReply_cases response p
  · rw [heq]
    exact ⟨fun _ texts hmusic h => absurd h (hno texts hmusic), fun _ _ => rfl⟩
  · obtain ⟨status, hstatus, -⟩ := hunknown.status
    rw [heq]
    constructor
    · intro h texts' _ hunknown'
      have htexts := hunknown.cut.symm.trans hunknown'.cut
      cases htexts
      exact (setTexts_displayed hstatus).mp (h rfl)
    · exact fun h _ => (setTexts_displayed hstatus).mpr (h texts hmusic hunknown)
  · exact ⟨fun _ texts hmusic h => absurd h (hno texts hmusic), fun _ h => absurd h hresult⟩

/-- A status that the panel does not know. -/
theorem refused_paused :
    let response := ascii "OK 1 0 50 0 0 0 0\tSong\tBand\tHall\tPAUSED\n"
    (applyReply response idlePanel).2 = -1 ∧
      (applyReply response idlePanel).1.trackTitle = ascii "Song" ∧
      (applyReply response idlePanel).1.displayed ≠ idlePanel.displayed := by
  decide

end ForgeOS.Native
