import ForgeOS.Galaxy.Events

/-! The open responses of the events route. The listener of the bus, the heartbeat and the replay
write to a response; its expiry and the end of the server end it. All of them are taken off only
when the close event comes, and what is written between the end and the close event is a write after
the end, which raises an error that nothing handles. -/

namespace ForgeOS.Galaxy.EventWrites

open ForgeOS.Galaxy.Events

/-- The stored events and the number of the next one. -/
structure Table where
  rows : List Event
  next : ℕ
  sorted : rows.Pairwise (·.seq < ·.seq)
  below : ∀ e ∈ rows, e.seq < next

/-- A response of the route under a number that is not used again. -/
structure Client where
  number : ℕ
  stream : Stream
  deriving DecidableEq, Repr

/-- The table, `streams`, and the numbers of the responses written to after their end. -/
structure State where
  table : Table
  clients : List Client
  nextNumber : ℕ
  late : List ℕ

/-- What happens next: an event of a conversation, a request, of which the cursor may not be a
number, a heartbeat or the expiry of a response, the end of the server, a close event. -/
inductive Act
  | emit (conversationId type data : String)
  | connect (conversationId : String) (cursor : Option ℕ)
  | heartbeat (number : ℕ)
  | expire (number : ℕ)
  | close
  | closed (number : ℕ)
  deriving DecidableEq, Repr

def Table.add (t : Table) (conversationId type data : String) : Table where
  rows := t.rows ++ [⟨t.next, conversationId, type, data⟩]
  next := t.next + 1
  sorted := by
    refine List.pairwise_append.mpr ⟨t.sorted, List.pairwise_singleton _ _, fun e he e' he' => ?_⟩
    obtain rfl := List.mem_singleton.mp he'
    exact t.below e he
  below := by
    intro e he
    rcases List.mem_append.mp he with he | he
    · exact Nat.lt_succ_of_lt (t.below e he)
    · obtain rfl := List.mem_singleton.mp he
      exact Nat.lt_succ_self _

/-- The response that is opened for a request, with its cursor after the replay. -/
def opened (s : State) (id : String) : Option ℕ → Option Client
  | none => none
  | some after =>
    if s.clients.length ≥ 12 ∨ after ≥ 2 ^ 53 then none
    else some ⟨s.nextNumber, (replay s.table.rows id ⟨id, after, false⟩).1⟩

/-- What becomes of a response. -/
def Client.step (next : ℕ) (c : Client) : Act → Client
  | .emit id type data =>
    if c.stream.conversationId = id then
      { c with stream := c.stream.send ⟨next, id, type, data⟩ }
    else c
  | .expire number =>
    if c.number = number then { c with stream := { c.stream with ended := true } } else c
  | .close => { c with stream := { c.stream with ended := true } }
  | _ => c

/-- The responses that are written to. -/
def writes (s : State) : Act → List Client
  | .emit id _ _ =>
    s.clients.filter fun c => c.stream.conversationId = id ∧ c.stream.after < s.table.next
  | .connect id cursor => (opened s id cursor).toList
  | .heartbeat number => s.clients.filter fun c => c.number = number
  | _ => []

/-- Some of them have been ended. -/
def lateWrites (s : State) (a : Act) : List ℕ :=
  ((writes s a).filter fun c => c.stream.ended).map Client.number

def step (s : State) (a : Act) : State :=
  let late := s.late ++ lateWrites s a
  match a with
  | .emit id type data =>
    { s with
      table := s.table.add id type data
      clients := s.clients.map fun c => c.step s.table.next a
      late }
  | .connect id cursor =>
    match opened s id cursor with
    | none => { s with late }
    | some c => { s with clients := s.clients ++ [c], nextNumber := s.nextNumber + 1, late }
  | .closed number => { s with clients := s.clients.filter fun c => c.number ≠ number, late }
  | _ => { s with clients := s.clients.map fun c => c.step s.table.next a, late }

def start (table : Table) : State := ⟨table, [], 0, []⟩

def run (table : Table) (acts : List Act) : State := acts.foldl step (start table)

/-! ### The numbers of the events -/

def Act.emits : Act → Bool
  | .emit _ _ _ => true
  | _ => false

theorem late_step (s : State) (a : Act) : (step s a).late = s.late ++ lateWrites s a := by
  cases a with
  | connect id cursor =>
    simp only [step]
    cases opened s id cursor <;> rfl
  | _ => rfl

theorem next_step (s : State) (a : Act) :
    (step s a).table.next = s.table.next + if a.emits then 1 else 0 := by
  cases a with
  | connect id cursor =>
    simp only [step]
    cases opened s id cursor <;> rfl
  | _ => rfl

theorem run_append (table : Table) (acts : List Act) (a : Act) :
    run table (acts ++ [a]) = step (run table acts) a := by
  simp [run]

theorem next_run (table : Table) (acts : List Act) :
    (run table acts).table.next = table.next + acts.countP Act.emits := by
  induction acts using List.reverseRecOn with
  | nil => rfl
  | append_singleton acts a ih =>
    rw [run_append, next_step, ih, List.countP_append, List.countP_singleton, Nat.add_assoc]

/-! ### The replay -/

/-- No row is behind the cursor. -/
theorem replay_of_le {table : List Event} {st : Stream} (h : ∀ e ∈ table, e.seq ≤ st.after)
    (id : String) : replay table id st = (st, []) := by
  have hnone : eventsAfter table id st.after = [] := by
    apply List.filter_eq_nil_iff.mpr
    intro e he
    have hle := h e he
    simp
    omega
  have hempty : events table id st.after = [] := by rw [events, hnone, List.take_nil]
  rw [replay]
  simp only [hempty]
  rfl

/-! ### A response since its request -/

variable {table : Table} {s : State} {a : Act} {c c' : Client} {acts before mid : List Act}
  {id : String} {cursor n next : ℕ}

/-- The request of a response for which there is room, and what has happened since, its close event
not among it. -/
structure Connected (table : Table) (before : List Act) (cursor n : ℕ) (mid : List Act) : Prop where
  room : (run table before).clients.length < 12
  safe : cursor < 2 ^ 53
  number : (run table before).nextNumber = n
  stays : .closed n ∉ mid

/-- The response has been ended, by its expiry or with the server. -/
def Ending (n : ℕ) (mid : List Act) : Prop := .expire n ∈ mid ∨ .close ∈ mid

/-- A response of a conversation: it is ended since its end, and either nothing has been sent to it
or both its cursor and the one asked for are below the next number. -/
structure Client.Follows (c : Client) (id : String) (cursor : ℕ) (mid : List Act) (next : ℕ) :
    Prop where
  conversation : c.stream.conversationId = id
  ended : c.stream.ended = true ↔ Ending c.number mid
  cursor : c.stream.after = cursor ∨ c.stream.after < next ∧ cursor < next

theorem Client.Follows.after_lt (h : c.Follows id cursor mid next) :
    c.stream.after < next ↔ cursor < next := by
  rcases h.cursor with heq | ⟨hafter, hcursor⟩
  · rw [heq]
  · exact ⟨fun _ => hcursor, fun _ => hafter⟩

theorem number_step (next : ℕ) (c : Client) (a : Act) : (c.step next a).number = c.number := by
  cases a with
  | emit id type data =>
    rw [Client.step]
    split <;> rfl
  | expire number =>
    rw [Client.step]
    split <;> rfl
  | _ => rfl

theorem conversation_step (next : ℕ) (c : Client) (a : Act) :
    (c.step next a).stream.conversationId = c.stream.conversationId := by
  cases a with
  | emit id type data =>
    rw [Client.step]
    split
    · exact conversation_send _ _
    · rfl
  | expire number =>
    rw [Client.step]
    split <;> rfl
  | _ => rfl

theorem ended_step (next : ℕ) (c : Client) (a : Act) :
    (c.step next a).stream.ended = true ↔
      c.stream.ended = true ∨ a = .expire c.number ∨ a = .close := by
  cases a with
  | emit id type data =>
    rw [Client.step]
    split
    · simp [ended_send]
    · simp
  | expire number =>
    rw [Client.step]
    split_ifs with hn
    · simp [hn]
    · simp [Ne.symm hn]
  | close => simp [Client.step]
  | _ => simp [Client.step]

theorem Client.Follows.step (h : c.Follows id cursor mid next) (a : Act) :
    (c.step next a).Follows id cursor (mid ++ [a]) (next + if a.emits then 1 else 0) where
  conversation := (conversation_step next c a).trans h.conversation
  ended := by
    rw [ended_step, number_step, h.ended]
    simp only [Ending, List.mem_append, List.mem_singleton]
    rw [eq_comm (a := Act.expire c.number), eq_comm (a := Act.close)]
    tauto
  cursor := by
    cases a with
    | emit id' type data =>
      have hcursor := h.cursor
      simp only [Client.step, Act.emits, if_true]
      split_ifs
      · by_cases hlt : c.stream.after < next
        · rw [Stream.send, if_pos hlt]
          exact .inr ⟨Nat.lt_succ_self next, by omega⟩
        · rw [Stream.send, if_neg hlt]
          exact .inl (hcursor.resolve_right fun h => hlt h.1)
      · omega
    | expire number =>
      have hafter : (c.step next (.expire number)).stream.after = c.stream.after := by
        rw [Client.step]
        split <;> rfl
      rw [hafter]
      exact h.cursor
    | _ => exact h.cursor

/-- A response that has just been opened. -/
theorem opened_eq_some {cursor : Option ℕ} :
    opened s id cursor = some c ↔ ∃ after, cursor = some after ∧ s.clients.length < 12 ∧
      after < 2 ^ 53 ∧ c = ⟨s.nextNumber, (replay s.table.rows id ⟨id, after, false⟩).1⟩ := by
  cases cursor with
  | none => simp [opened]
  | some after =>
    rw [opened]
    split_ifs with hbad
    · constructor
      · exact fun h => absurd h (by simp)
      · rintro ⟨after', hafter, hroom, hsafe, -⟩
        cases hafter
        omega
    · rw [Option.some_inj]
      constructor
      · rintro rfl
        exact ⟨after, rfl, by omega, by omega, rfl⟩
      · rintro ⟨after', hafter, -, -, rfl⟩
        cases hafter
        rfl

theorem follows_opened (s : State) (id : String) (after : ℕ) :
    (⟨s.nextNumber, (replay s.table.rows id ⟨id, after, false⟩).1⟩ : Client).Follows id after []
      s.table.next := by
  obtain ⟨-, hended, hid, hlt⟩ := replay_spec s.table.sorted id ⟨id, after, false⟩ rfl
  refine ⟨hid, ?_, ?_⟩
  · simp only [hended, Ending, List.not_mem_nil, or_self, Bool.false_eq_true]
  · by_cases hbelow : after < s.table.next
    · exact .inr ⟨hlt _ hbelow s.table.below, hbelow⟩
    · rw [replay_of_le fun e he => by have hlt := s.table.below e he; dsimp only; omega]
      exact .inl rfl

/-- The responses after a step: those that stay and the one that is opened. -/
theorem mem_clients_step :
    c' ∈ (step s a).clients ↔ (∃ c ∈ s.clients, a ≠ .closed c.number ∧ c.step s.table.next a = c') ∨
      ∃ id cursor, a = .connect id cursor ∧ opened s id cursor = some c' := by
  cases a with
  | connect id cursor =>
    simp only [step]
    cases hopened : opened s id cursor with
    | none => simp [Client.step, hopened]
    | some c => simp [Client.step, hopened, eq_comm]
  | closed number =>
    simp only [step, List.mem_filter, Client.step, decide_not, Bool.not_eq_true',
      decide_eq_false_iff_not]
    constructor
    · rintro ⟨hmem, hne⟩
      refine .inl ⟨c', hmem, fun h => hne ?_, rfl⟩
      cases h
      rfl
    · rintro (⟨c, hmem, hne, rfl⟩ | ⟨id, cursor, ha, -⟩)
      · exact ⟨hmem, fun h => hne (congrArg Act.closed h.symm)⟩
      · cases ha
  | _ => simp [step]

/-- Every open response has been asked for and not been closed since. -/
theorem connected_of_mem (hc : c ∈ (run table acts).clients) :
    ∃ before id cursor mid, acts = before ++ .connect id (some cursor) :: mid ∧
      Connected table before cursor c.number mid ∧
      c.Follows id cursor mid (run table acts).table.next := by
  induction acts using List.reverseRecOn generalizing c with
  | nil => exact absurd hc List.not_mem_nil
  | append_singleton acts a ih =>
    rw [run_append] at hc ⊢
    rcases mem_clients_step.mp hc with ⟨c, hmem, hstays, rfl⟩ | ⟨id, cursor, rfl, hopened⟩
    · obtain ⟨before, id, cursor, mid, rfl, hconnected, hfollows⟩ := ih hmem
      refine ⟨before, id, cursor, mid ++ [a], by simp, ?_, ?_⟩
      · refine ⟨hconnected.room, hconnected.safe, ?_, ?_⟩
        · rw [number_step]
          exact hconnected.number
        · rw [number_step, List.mem_append, List.mem_singleton]
          rintro (hmem | rfl)
          · exact hconnected.stays hmem
          · exact hstays rfl
      · rw [next_step]
        exact hfollows.step a
    · obtain ⟨after, rfl, hroom, hsafe, rfl⟩ := opened_eq_some.mp hopened
      refine ⟨acts, id, after, [], rfl, ⟨hroom, hsafe, rfl, List.not_mem_nil⟩, ?_⟩
      rw [next_step]
      exact follows_opened _ id after

/-- A response that has been asked for and not been closed since is open. -/
theorem mem_of_connected (id) (h : Connected table before cursor n mid) :
    ∃ c ∈ (run table (before ++ .connect id (some cursor) :: mid)).clients, c.number = n ∧
      c.Follows id cursor mid
        (run table (before ++ .connect id (some cursor) :: mid)).table.next := by
  induction mid using List.reverseRecOn with
  | nil =>
    have hopened : opened (run table before) id (some cursor) = some _ :=
      opened_eq_some.mpr ⟨cursor, rfl, h.room, h.safe, rfl⟩
    rw [run_append]
    refine ⟨_, mem_clients_step.mpr (.inr ⟨id, some cursor, rfl, hopened⟩), h.number, ?_⟩
    rw [next_step]
    exact follows_opened _ id cursor
  | append_singleton mid a ih =>
    have hstays := h.stays
    rw [List.mem_append, not_or, List.mem_singleton] at hstays
    obtain ⟨c, hmem, hnumber, hfollows⟩ := ih ⟨h.room, h.safe, h.number, hstays.1⟩
    have hacts : before ++ .connect id (some cursor) :: (mid ++ [a]) =
        (before ++ .connect id (some cursor) :: mid) ++ [a] := by simp
    refine ⟨c.step (run table (before ++ .connect id (some cursor) :: mid)).table.next a,
      ?_, ?_, ?_⟩
    · rw [hacts, run_append]
      refine mem_clients_step.mpr (.inl ⟨c, hmem, ?_, rfl⟩)
      rw [hnumber]
      exact Ne.symm hstays.2
    · rw [number_step]
      exact hnumber
    · rw [hacts, run_append, next_step]
      exact hfollows.step a

/-! ### Late writes -/

theorem lateWrites_eq_nil :
    lateWrites s a = [] ↔ ∀ c ∈ s.clients, c.stream.ended = true →
      a ≠ .heartbeat c.number ∧ ∀ type data, a = .emit c.stream.conversationId type data →
        s.table.next ≤ c.stream.after := by
  rw [lateWrites, List.map_eq_nil_iff, List.filter_eq_nil_iff]
  cases a with
  | emit id type data =>
    simp only [writes, List.mem_filter, decide_eq_true_eq]
    constructor
    · intro h c hc hended
      refine ⟨by simp, fun type' data' ha => ?_⟩
      cases ha
      by_contra hlt
      exact h c ⟨hc, rfl, by omega⟩ hended
    · rintro h c ⟨hc, rfl, hlt⟩ hended
      have hle := (h c hc hended).2 type data rfl
      omega
  | connect id cursor =>
    constructor
    · exact fun _ c _ _ => ⟨by simp, by simp⟩
    · -- a response that has just been opened has not been ended
      intro _ c hc hended
      obtain ⟨after, -, -, -, rfl⟩ := opened_eq_some.mp (Option.mem_toList.mp hc)
      rcases (follows_opened s id after).ended.mp hended with h | h
      · exact absurd h List.not_mem_nil
      · exact absurd h List.not_mem_nil
  | heartbeat number =>
    simp only [writes, List.mem_filter, decide_eq_true_eq]
    constructor
    · intro h c hc hended
      refine ⟨fun ha => ?_, by simp⟩
      cases ha
      exact h c ⟨hc, rfl⟩ hended
    · rintro h c ⟨hc, rfl⟩ hended
      exact (h c hc hended).1 rfl
  | _ => simp [writes]

theorem late_foldl (s : State) (acts : List Act) :
    (acts.foldl step s).late = [] ↔ s.late = [] ∧ ∀ front a rest, acts = front ++ a :: rest →
      lateWrites (front.foldl step s) a = [] := by
  induction acts generalizing s with
  | nil => simp
  | cons a acts ih =>
    rw [List.foldl_cons, ih, late_step, List.append_eq_nil_iff, and_assoc]
    refine and_congr_right fun _ => ?_
    constructor
    · rintro ⟨hnow, hlater⟩ front a' rest hacts
      cases front with
      | nil =>
        cases hacts
        exact hnow
      | cons b front =>
        cases hacts
        exact hlater front a' rest rfl
    · refine fun h => ⟨h [] a acts rfl, fun front a' rest hacts => ?_⟩
      exact h (a :: front) a' rest (by rw [hacts]; rfl)

/-- Nothing is written after an end exactly if, between the end of a response and its close event,
it has no heartbeat and its conversation no event behind the cursor that it has been asked for with. -/
theorem late_eq_nil_iff (table : Table) (acts : List Act) :
    (run table acts).late = [] ↔ ∀ before id cursor n mid a rest,
      acts = before ++ .connect id (some cursor) :: (mid ++ a :: rest) →
      Connected table before cursor n mid → Ending n mid →
        a ≠ .heartbeat n ∧ ∀ type data, a = .emit id type data →
          table.next + (before ++ mid).countP Act.emits ≤ cursor := by
  rw [run, late_foldl]
  have hnext : ∀ before id cursor mid,
      (run table (before ++ .connect id (some cursor) :: mid)).table.next = table.next + (before ++ mid).countP Act.emits := by
    intro before id cursor mid
    rw [next_run]
    simp [List.countP_append, Act.emits]
  constructor
  · rintro ⟨-, h⟩ before id cursor n mid a rest hacts hconnected hending
    obtain ⟨c, hc, hnumber, hfollows⟩ := mem_of_connected id hconnected
    have hlate := h (before ++ .connect id (some cursor) :: mid) a rest (by simp [hacts])
    have hended := hfollows.ended.mpr (by rw [hnumber]; exact hending)
    obtain ⟨hheartbeat, hemit⟩ := lateWrites_eq_nil.mp hlate c hc hended
    rw [hnumber] at hheartbeat
    refine ⟨hheartbeat, fun type data ha => ?_⟩
    rw [hfollows.conversation] at hemit
    have hle := hemit type data ha
    rw [← hnext before id cursor mid]
    by_contra hlt
    have hafter := hfollows.after_lt.mpr (by omega)
    exact absurd hafter (Nat.not_lt.mpr hle)
  · refine fun h => ⟨rfl, fun front a rest hacts => lateWrites_eq_nil.mpr fun c hc hended => ?_⟩
    obtain ⟨before, id, cursor, mid, rfl, hconnected, hfollows⟩ := connected_of_mem hc
    obtain ⟨hheartbeat, hemit⟩ := h before id cursor c.number mid a rest (by simp [hacts])
      hconnected (hfollows.ended.mp hended)
    refine ⟨hheartbeat, fun type data ha => ?_⟩
    rw [hfollows.conversation] at ha
    have hle := hemit type data ha
    rw [← hnext before id cursor mid] at hle
    by_contra hlt
    have hcursor := hfollows.after_lt.mp (by simpa [run] using hlt)
    omega

/-- No events yet. -/
def noEvents : Table := ⟨[], 1, List.Pairwise.nil, fun _ h => absurd h List.not_mem_nil⟩

/-- A client connects, its response expires, and an event comes before the close event. -/
theorem expired_written :
    (run noEvents [.connect "conversation" (some 0), .expire 0,
      .emit "conversation" "delta" "text"]).late = [0] := by
  simp [run, start, noEvents, step, lateWrites, writes, opened, replay_of_le, Client.step,
    Stream.send]

end ForgeOS.Galaxy.EventWrites
