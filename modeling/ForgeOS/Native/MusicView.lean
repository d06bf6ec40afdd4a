import ForgeOS.Native.Scan

/-! What the music bridge knows of the player in the browser: `read_view` takes it from the fields of
a text, `state_reply` writes it in a line for the clients. -/

namespace ForgeOS.Native.Music

/-! ### Views -/

/-- `struct view` -/
structure View where
  rev : UInt64
  pos : UInt64
  playing : ℕ
  volume : ℕ
  connected : Bool
  title : Bytes
  artist : Bytes
  output : Bytes
  status : Bytes
  videoId : Bytes
  deriving DecidableEq, Repr

/-- The loop of `number`, from the value of the digits before. -/
def numberFrom (max : ℕ) : ℕ → Bytes → Option ℕ
  | v, [] => some v
  | v, c :: cs =>
    if isdigit c = false ∨ (max - (c.toNat - 48)) / 10 < v ∨ max < c.toNat - 48 then none
    else numberFrom max (v * 10 + (c.toNat - 48)) cs

/-- Decimal digits, and a bound on what they say. -/
def number (text : Bytes) (max : ℕ) : Option ℕ := if text = [] then none else numberFrom max 0 text

/-- The characters from the blank to the tilde. -/
def printable (c : UInt8) : Bool := 32 ≤ c && c ≤ 126

/-- The characters of the name of a video. -/
def nameChar (c : UInt8) : Bool :=
  isdigit c || (65 ≤ c && c ≤ 90) || (97 ≤ c && c ≤ 122) || c == 95 || c == 45

/-- What the player may be in. -/
def statuses : List Bytes :=
  [ascii "READY", ascii "BUFFERING", ascii "CHOOSE", ascii "STREAM_LIMIT", ascii "PLAYER_ERROR"]

/-- `sizeof v->status` -/
def statusSize : ℕ := 16

/-- The checks of `read_view` on the fields behind the numbers; the last two may be missing. -/
def textFieldsOk (title artist output : Bytes) (more : List Bytes) : Bool :=
  title.length ≤ 80 && artist.length ≤ 80 && output.length ≤ 80 && more.length ≤ 2 &&
    (more.head?.all fun status => status.length < statusSize) &&
    (more[1]?.all fun id => id.length == 11 && id.all nameChar) &&
    (title :: artist :: output :: more).all fun field => field.all printable

/-- `read_view` on the text that the page has given. The revision is set by the worker. -/
def readView (raw : Bytes) : Option View :=
  match (cstr raw).splitOn 9 with
  | playing :: pos :: volume :: title :: artist :: output :: more => do
    let playing ← number playing 1
    let pos ← number pos (2 ^ 64 - 1)
    let volume ← number volume 100
    if textFieldsOk title artist output more then
      let status := more.headD (ascii "READY")
      if status ∈ statuses then
        some
          { rev := 0
            pos := .ofNat pos
            playing, volume
            connected := true
            title, artist, output, status
            videoId := more.getD 1 [] }
      else none
    else none
  | _ => none

/-! ### Replies -/

inductive ReplyKind
  | ok
  | stale
  | failed
  deriving DecidableEq, Repr

def ReplyKind.word : ReplyKind → Bytes
  | .ok => ascii "OK"
  | .stale => ascii "STALE"
  | .failed => ascii "FAILED"

/-- `sizeof c->output` -/
def outputSize : ℕ := 512

/-- The line of `state_reply`, however long. -/
def stateLine (kind : ReplyKind) (v : View) : Bytes :=
  kind.word ++ 32 :: (decimal v.rev.toNat ++ 32 :: (decimal v.playing ++ 32 :: (decimal v.volume ++
    32 :: (decimal v.pos.toNat ++ 32 :: (decimal 0 ++ 32 :: (decimal 0 ++
    32 :: (decimal (if v.connected then 0 else 1) ++ 9 :: (v.title ++ 9 :: (v.artist ++
    9 :: (v.output ++ 9 :: (v.status ++ [10])))))))))))

/-- What `snprintf` leaves in the output of the client. -/
def stateReply (kind : ReplyKind) (v : View) : Bytes := (stateLine kind v).take (outputSize - 1)

/-! ### Views that can be read -/

theorem numberFrom_le {max v n : ℕ} {text : Bytes} (hv : v ≤ max)
    (h : numberFrom max v text = some n) : n ≤ max := by
  induction text generalizing v with
  | nil =>
    cases h
    exact hv
  | cons c cs ih =>
    unfold numberFrom at h
    split_ifs at h with hbad
    refine ih ?_ h
    rw [not_or, not_or] at hbad
    omega

theorem number_le {text : Bytes} {max n : ℕ} (h : number text max = some n) : n ≤ max := by
  unfold number at h
  split_ifs at h
  exact numberFrom_le (Nat.zero_le max) h

/-- What every view has, whatever its revision and connection. -/
structure Readable (v : View) : Prop where
  playing : v.playing ≤ 1
  volume : v.volume ≤ 100
  title : v.title.length ≤ 80 ∧ v.title.all printable = true
  artist : v.artist.length ≤ 80 ∧ v.artist.all printable = true
  output : v.output.length ≤ 80 ∧ v.output.all printable = true
  status : v.status ∈ statuses

theorem readView_readable {raw : Bytes} {v : View} (h : readView raw = some v) : Readable v := by
  unfold readView at h
  split at h
  · rename_i playing pos volume title artist output more hfields
    simp only [Option.bind_eq_bind, Option.bind_eq_some_iff] at h
    obtain ⟨p, hp, q, -, w, hw, h⟩ := h
    split_ifs at h with hok hstatus
    cases h
    simp only [textFieldsOk, Bool.and_eq_true, decide_eq_true_eq, List.all_cons] at hok
    obtain ⟨⟨⟨⟨⟨⟨ht, ha⟩, ho⟩, -⟩, -⟩, -⟩, htp, hap, hop, -⟩ := hok
    exact ⟨number_le hp, number_le hw, ⟨ht, htp⟩, ⟨ha, hap⟩, ⟨ho, hop⟩, hstatus⟩
  · cases h

theorem statuses_spec {status : Bytes} (h : status ∈ statuses) :
    status.length < statusSize ∧ status.all printable = true := by
  have hall : ∀ s ∈ statuses, s.length < statusSize ∧ s.all printable = true := by decide
  exact hall status h

theorem kind_word (kind : ReplyKind) :
    kind.word ≠ [] ∧ kind.word.length ≤ 6 ∧ ∀ c ∈ kind.word, isspace c = false := by
  have hany : kind.word ≠ [] ∧ kind.word.length ≤ 6 ∧ kind.word.any isspace = false := by
    cases kind <;> decide
  simpa using hany

/-- The longest line fits into the output. -/
theorem stateReply_eq {v : View} (h : Readable v) (kind : ReplyKind) :
    stateReply kind v = stateLine kind v := by
  have hkind := (kind_word kind).2.1
  have hrev : (decimal v.rev.toNat).length ≤ 20 :=
    decimal_length (by omega) (v.rev.toNat_lt.trans (by decide))
  have hpos : (decimal v.pos.toNat).length ≤ 20 :=
    decimal_length (by omega) (v.pos.toNat_lt.trans (by decide))
  have hplaying : (decimal v.playing).length ≤ 1 :=
    decimal_length (by omega) (h.playing.trans_lt (by decide))
  have hvolume : (decimal v.volume).length ≤ 3 :=
    decimal_length (by omega) (h.volume.trans_lt (by decide))
  have hfault : (decimal (if v.connected then 0 else 1)).length ≤ 1 :=
    decimal_length (by omega) (by split_ifs <;> decide)
  have hzero : (decimal 0).length = 1 := rfl
  have hstatus := (statuses_spec h.status).1
  have htitle := h.title.1
  have hartist := h.artist.1
  have houtput := h.output.1
  apply List.take_of_length_le
  unfold statusSize at hstatus
  simp only [stateLine, outputSize, List.length_append, List.length_cons, List.length_nil, hzero]
  omega

end ForgeOS.Native.Music
