import ForgeOS.Native.BridgeCommands
import ForgeOS.Native.Numbers

/-! The line that the panel writes for a command, and what the music bridge makes of it. In whatever
pieces the line arrives, the bridge handles it once, when it is complete, and reads the action and
the revision that were written. -/

namespace ForgeOS.Native.Music

/-! ### The line -/

/-- The argument of `mutate`. -/
def Action.word : Action → Bytes
  | .play => ascii "PLAY"
  | .pause => ascii "PAUSE"
  | .next => ascii "NEXT"
  | .rewind => ascii "REWIND"
  | .volume percent => ascii "VOLUME " ++ decimal percent

/-- `sizeof command` -/
def commandSize : ℕ := 128

/-- The whole of `"DO %" PRIu64 " %s\n"`. -/
def commandLine (revision : UInt64) (action : Action) : Bytes :=
  ascii "DO" ++ 32 :: (decimal revision.toNat ++ 32 :: (action.word ++ [10]))

/-- What `snprintf` leaves of it. -/
def commandText (revision : UInt64) (action : Action) : Bytes :=
  (commandLine revision action).take (commandSize - 1)

/-- The volumes that the panel asks for. -/
def Action.Bounded : Action → Prop
  | .volume percent => percent ≤ 100
  | _ => True

instance (action : Action) : Decidable action.Bounded := by
  cases action <;> (unfold Action.Bounded; infer_instance)

/-! ### Its pieces -/

theorem decimal_toNat_length (revision : UInt64) : (decimal revision.toNat).length ≤ 20 := by
  apply decimal_length (by decide)
  have hlt := revision.toNat_lt
  omega

theorem not_mem_decimal_of {c : UInt8} (hc : isdigit c = false) (n : ℕ) : c ∉ decimal n := by
  intro h
  rw [decimal_isdigit n c h] at hc
  cases hc

/-- What stands between the blanks of an action. -/
def Action.words : Action → List Bytes
  | .volume percent => [ascii "VOLUME", decimal percent]
  | action => [action.word]

theorem Action.words_spec (action : Action) :
    ∀ w ∈ action.words, w ≠ [] ∧ 32 ∉ w ∧ 10 ∉ w ∧ 0 ∉ w := by
  have hdecimal : ∀ percent, decimal percent ≠ [] ∧ 32 ∉ decimal percent ∧ 10 ∉ decimal percent ∧
      0 ∉ decimal percent := fun percent =>
    ⟨decimal_ne_nil percent, not_mem_decimal_of (by decide) percent,
      not_mem_decimal_of (by decide) percent, not_mem_decimal_of (by decide) percent⟩
  cases action with
  | volume percent =>
    intro w hw
    rcases List.mem_cons.mp hw with rfl | hw
    · decide
    · obtain rfl := List.mem_singleton.mp hw
      exact hdecimal percent
  | _ =>
    intro w hw
    obtain rfl := List.mem_singleton.mp hw
    decide

theorem tokens_cons {w : Bytes} (hne : w ≠ []) (hw : 32 ∉ w) (rest : Bytes) :
    tokens (w ++ 32 :: rest) = w :: tokens rest := by
  rw [tokens, List.splitOn_append_cons_self_of_not_mem hw, List.filter_cons_of_pos (by simpa)]
  rfl

theorem tokens_word {w : Bytes} (hne : w ≠ []) (hw : 32 ∉ w) : tokens w = [w] := by
  rw [tokens, List.splitOn_eq_singleton hw]
  simp [hne]

theorem tokens_action (action : Action) : tokens action.word = action.words := by
  have hspec := action.words_spec
  cases action with
  | volume percent =>
    have hvolume := hspec (ascii "VOLUME") (by simp [Action.words])
    have hpercent := hspec (decimal percent) (by simp [Action.words])
    change tokens (ascii "VOLUME" ++ 32 :: decimal percent) = _
    rw [tokens_cons hvolume.1 hvolume.2.1, tokens_word hpercent.1 hpercent.2.1]
    rfl
  | _ =>
    exact tokens_word (hspec _ (by simp [Action.words])).1 (hspec _ (by simp [Action.words])).2.1

/-- Neither a newline nor a zero stands in an action. -/
theorem not_mem_word {c : UInt8} (hc : c = 10 ∨ c = 0) (action : Action) : c ∉ action.word := by
  have hspec := action.words_spec
  cases action with
  | volume percent =>
    have hpercent := (hspec (decimal percent) (by simp [Action.words])).2.2
    change c ∉ ascii "VOLUME " ++ decimal percent
    rw [List.mem_append, not_or]
    rcases hc with rfl | rfl
    · exact ⟨by decide, hpercent.1⟩
    · exact ⟨by decide, hpercent.2⟩
  | _ => rcases hc with rfl | rfl <;> decide

theorem not_mem_line {c : UInt8} (hc : c = 10 ∨ c = 0) (revision : UInt64) (action : Action) :
    c ∉ ascii "DO" ++ 32 :: (decimal revision.toNat ++ 32 :: action.word) := by
  have hword := not_mem_word hc action
  have hdigits : c ∉ decimal revision.toNat := by
    rcases hc with rfl | rfl
    · exact not_mem_decimal_of (by decide) _
    · exact not_mem_decimal_of (by decide) _
  have hdo : c ∉ ascii "DO" ∧ c ≠ 32 := by rcases hc with rfl | rfl <;> decide
  simp [hword, hdigits, hdo]

theorem commandLine_eq (revision : UInt64) (action : Action) :
    commandLine revision action =
      ascii "DO" ++ 32 :: (decimal revision.toNat ++ 32 :: action.word) ++ [10] := by
  simp [commandLine]

theorem word_length {action : Action} (h : action.Bounded) : action.word.length ≤ 10 := by
  cases action with
  | volume percent =>
    have hpercent : (decimal percent).length ≤ 3 := by
      apply decimal_length (by decide)
      change percent ≤ 100 at h
      omega
    rw [Action.word, List.length_append]
    exact Nat.add_le_add (by decide : (ascii "VOLUME ").length ≤ 7) hpercent
  | _ => decide

/-- There is room for the line. -/
theorem commandText_eq {action : Action} (h : action.Bounded) (revision : UInt64) :
    commandText revision action = commandLine revision action := by
  have hword := word_length h
  have hdigits := decimal_toNat_length revision
  have hdo : (ascii "DO").length = 2 := by decide
  apply List.take_of_length_le
  rw [commandLine_eq, commandSize]
  simp only [List.length_append, List.length_cons, List.length_nil]
  omega

theorem commandLine_length {action : Action} (h : action.Bounded) (revision : UInt64) :
    (commandLine revision action).length < inputSize - 1 := by
  rw [← commandText_eq h, commandText, List.length_take]
  exact (Nat.min_le_left _ _).trans_lt (by decide)

/-! ### What the bridge reads -/

theorem number_decimal {n max : ℕ} (h : n ≤ max) : number (decimal n) max = some n := by
  have hvalue : Numbers.valueFrom 0 (decimal n) = n := by
    calc Numbers.valueFrom 0 (decimal n) = digitsValue (decimal n) := by
          rw [Numbers.valueFrom, digitsValue]
          simp only [Nat.mul_comm]
      _ = n := digitsValue_decimal n
  rw [number, if_neg (decimal_ne_nil n), Numbers.numberFrom_eq_some (Nat.zero_le max)]
  exact ⟨decimal_isdigit n, hvalue, h⟩

theorem readAction_words {action : Action} (h : action.Bounded) :
    ∃ w more, action.words = w :: more ∧ more.length ≤ 1 ∧
      readAction w more.head? = some action := by
  cases action with
  | volume percent =>
    refine ⟨_, _, rfl, le_rfl, ?_⟩
    change (if ascii "VOLUME" = ascii "VOLUME" then
      ((number (decimal percent) 100).map Action.volume) else _) = _
    rw [if_pos rfl, number_decimal h]
    rfl
  | _ => exact ⟨_, _, rfl, Nat.zero_le _, by decide⟩

/-- The bridge reads what the panel has written. -/
theorem request_commandLine {action : Action} (h : action.Bounded) (revision : UInt64) :
    request (commandLine revision action) = .act revision action := by
  rw [commandLine_eq]
  have hten := not_mem_line (.inl rfl) revision action
  have hzero := not_mem_line (.inr rfl) revision action
  have hget : ascii "DO" ++ 32 :: (decimal revision.toNat ++ 32 :: action.word) ≠ ascii "GET" := by
    intro h
    cases congrArg List.head? h
  have htokens : tokens (ascii "DO" ++ 32 :: (decimal revision.toNat ++ 32 :: action.word)) =
      ascii "DO" :: decimal revision.toNat :: action.words := by
    rw [tokens_cons (by decide) (by decide), tokens_cons (decimal_ne_nil _)
      (not_mem_decimal_of (by decide) _), tokens_action]
  have hnumber : number (decimal revision.toNat) (2 ^ 64 - 1) = some revision.toNat := by
    apply number_decimal
    have hlt := revision.toNat_lt
    omega
  obtain ⟨w, more, hwords, hmore, hread⟩ := readAction_words h
  generalize ascii "DO" ++ 32 :: (decimal revision.toNat ++ 32 :: action.word) = line at *
  rw [request, List.getLast?_append, List.dropLast_concat]
  rw [if_neg (by simpa using ⟨hzero, hten⟩), if_neg hget, htokens, hwords]
  simp only [hnumber, hread, UInt64.ofNat_toNat]
  exact if_pos ⟨trivial, hmore⟩

/-! ### Pieces of the line -/

/-- A newline is in what has come of the line only when all of it has. -/
theorem mem_prefix_commandLine {action : Action} {revision : UInt64} {text : Bytes}
    (h : text <+: commandLine revision action) :
    10 ∈ text ↔ text = commandLine revision action := by
  rw [commandLine_eq] at h ⊢
  have hten := not_mem_line (.inl rfl) revision action
  generalize ascii "DO" ++ 32 :: (decimal revision.toNat ++ 32 :: action.word) = line at *
  constructor
  · intro hmem
    rcases List.prefix_concat_iff.mp h with rfl | hshort
    · rfl
    · exact absurd (hshort.subset hmem) hten
  · rintro rfl
    simp

/-- What comes of the client and the session when its input is handled. -/
def handled (conn : ℕ) (input : Bytes) (c : Client) (s : Session) : Client × Session × List Entry :=
  match handle conn input s with
  | (s, some reply, log) => ({ c with input, reply := some reply }, s, log ++ [.replied conn reply])
  | (s, none, log) => ({ c with input, pending := true }, s, log)

/-- The pieces of an input, each received in the session of its time: the client behind them, and what
each has made of its session. -/
def received (conn : ℕ) : Client → List (Bytes × Session) → Client × List (Session × List Entry)
  | c, [] => (c, [])
  | c, (chunk, s) :: pieces =>
    let out := receive conn chunk c s
    let rest := received conn out.1 pieces
    (rest.1, out.2 :: rest.2)

section Pieces

variable {action : Action} {revision : UInt64} {conn : ℕ} {c : Client} {s : Session} {chunk : Bytes}

/-- There is room for a piece of the line, and it is handled when the line is complete. -/
theorem receive_piece (h : action.Bounded) (hne : chunk ≠ [])
    (hpieces : c.input ++ chunk <+: commandLine revision action) :
    receive conn chunk c s =
      if c.input ++ chunk = commandLine revision action then
        handled conn (commandLine revision action) c s
      else ({ c with input := c.input ++ chunk }, s, []) := by
  have hshort := commandLine_length h revision
  have hlength := hpieces.length_le
  rw [List.length_append] at hlength
  have hchunk : chunk.take (inputSize - 1 - c.input.length) = chunk :=
    List.take_of_length_le (by omega)
  have hroom : (c.input ++ chunk).length ≠ inputSize - 1 := by
    rw [List.length_append]
    omega
  unfold receive
  simp only [hchunk, if_neg hne, if_neg hroom, mem_prefix_commandLine hpieces]
  by_cases hwhole : c.input ++ chunk = commandLine revision action
  · rw [if_pos hwhole, if_pos hwhole, hwhole]
    rfl
  · rw [if_neg hwhole, if_neg hwhole]

theorem handle_commandLine (h : action.Bounded) (revision : UInt64) (conn : ℕ) (s : Session) :
    handle conn (commandLine revision action) s =
      if revision ≠ s.view.rev then (s, some (snapshotReply .stale s.view), [])
      else if s.busy then (s, some (errorReply "busy"), [])
      else if !s.view.connected then (s, some (errorReply "browser unavailable"), [])
      else (s.accept action, none, [.accepted s.accepted conn revision s.view action]) := by
  rw [handle, request_commandLine h]

/-- As long as the line is not complete, its pieces are collected and every session is left as it is. -/
theorem received_part (h : action.Bounded) {pieces : List (Bytes × Session)}
    (hne : ∀ piece ∈ pieces, piece.1 ≠ [])
    (hpieces : c.input ++ (pieces.map Prod.fst).flatten <+: commandLine revision action)
    (hpart : c.input ++ (pieces.map Prod.fst).flatten ≠ commandLine revision action) :
    received conn c pieces =
      ({ c with input := c.input ++ (pieces.map Prod.fst).flatten },
        pieces.map fun piece => (piece.2, [])) := by
  induction pieces generalizing c with
  | nil => simp [received]
  | cons piece pieces ih =>
    obtain ⟨chunk, s⟩ := piece
    obtain ⟨hchunk, hne⟩ := List.forall_mem_cons.mp hne
    rw [List.map_cons, List.flatten_cons, ← List.append_assoc] at hpieces hpart ⊢
    have hshort : c.input ++ chunk ≠ commandLine revision action := by
      intro hwhole
      rw [hwhole] at hpieces hpart
      exact hpart (hpieces.eq_of_length_le (by simp))
    have hreceive : receive conn chunk c s = ({ c with input := c.input ++ chunk }, s, []) :=
      (receive_piece h hchunk ((List.prefix_append _ _).trans hpieces)).trans (if_neg hshort)
    rw [received, hreceive]
    dsimp only
    rw [ih hne hpieces hpart, List.map_cons]

/-- In whatever pieces the line comes, and whatever becomes of the session between them, all but the
last are only collected, and the line is handled with the last, in the session of that time. -/
theorem received_commandLine (h : action.Bounded) {pieces : List (Bytes × Session)}
    (hne : ∀ piece ∈ pieces, piece.1 ≠ []) (hchunk : chunk ≠ [])
    (hline : c.input ++ (pieces.map Prod.fst).flatten ++ chunk = commandLine revision action) :
    (received conn c pieces).2 = (pieces.map fun piece => (piece.2, [])) ∧
      receive conn chunk (received conn c pieces).1 s =
        handled conn (commandLine revision action) c s := by
  have hpart : c.input ++ (pieces.map Prod.fst).flatten ≠ commandLine revision action := by
    intro hwhole
    rw [hwhole] at hline
    exact hchunk (List.append_right_eq_self.mp hline)
  rw [received_part h hne (hline ▸ List.prefix_append _ _) hpart]
  refine ⟨rfl, ?_⟩
  rw [receive_piece h hchunk ⟨[], (List.append_nil _).trans hline⟩, if_pos hline]
  rfl

end Pieces

/-- However the line is cut, its pieces are only collected until the last of them; then it is
refused if the revision is not the present one, another action is on its way or the player cannot
be reached, and else it is accepted as it was written. -/
theorem receive_commandLine {action : Action} (h : action.Bounded) (revision : UInt64) (conn : ℕ)
    (c : Client) (s : Session) {chunk : Bytes} (hne : chunk ≠ [])
    (hpieces : c.input ++ chunk <+: commandLine revision action) :
    receive conn chunk c s =
      if c.input ++ chunk ≠ commandLine revision action then
        ({ c with input := c.input ++ chunk }, s, [])
      else
        let replied (reply : Reply) : Client × Session × List Entry :=
          ({ c with input := c.input ++ chunk, reply := some reply }, s, [.replied conn reply])
        if revision ≠ s.view.rev then replied (snapshotReply .stale s.view)
        else if s.busy then replied (errorReply "busy")
        else if !s.view.connected then replied (errorReply "browser unavailable")
        else
          ({ c with input := c.input ++ chunk, pending := true }, s.accept action,
            [.accepted s.accepted conn revision s.view action]) := by
  rw [receive_piece h hne hpieces]
  by_cases hwhole : c.input ++ chunk = commandLine revision action
  · rw [if_pos hwhole, if_neg (not_not.mpr hwhole), hwhole, handled, handle_commandLine h]
    split_ifs <;> simp
  · rw [if_neg hwhole, if_pos hwhole]

/-- A session that a command can be given to. -/
def readySession : Session :=
  { (initial 1).session with view := { (initial 1).session.view with rev := 2, connected := true } }

/-- The end of a line that came in two pieces. -/
theorem receive_pause :
    (receive 7 (ascii "USE\n") { Client.opened 7 with input := ascii "DO 2 PA" } readySession).2.2 =
      [.accepted 0 7 2 readySession.view .pause] := by
  rw [receive_commandLine (show Action.pause.Bounded from trivial) 2 7 _ _ (by decide) (by decide)]
  decide

end ForgeOS.Native.Music
