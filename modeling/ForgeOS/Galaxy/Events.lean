import Mathlib.Algebra.GroupWithZero.Nat
import Mathlib.Data.List.Basic
import Mathlib.Data.List.Infix
import Mathlib.Data.Nat.Notation
import Mathlib.Logic.Function.Basic

/-! The event stream of a conversation. Events are stored under running numbers; a client that
connects is sent what it has not yet received from the table and is then subscribed to what comes,
in one uninterrupted stretch. Connections end at any time, and what was on the way is lost. -/

namespace ForgeOS.Galaxy.Events

/-! ### The store -/

/-- A stored event; `data` is the encoded text that is both stored and sent. -/
structure Event where
  seq : ℕ
  conversationId : String
  type : String
  data : String
  deriving DecidableEq, Repr

/-- The rows of a conversation behind a number, in the order of the numbers. -/
def eventsAfter (table : List Event) (id : String) (after : ℕ) : List Event :=
  table.filter fun e => e.conversationId = id ∧ after < e.seq

/-- `LIMIT 1000` -/
def pageSize : ℕ := 1000

/-- `Store.events` -/
def events (table : List Event) (id : String) (after : ℕ) : List Event :=
  (eventsAfter table id after).take pageSize

/-! ### Streams -/

/-- An open response of the events route: the variable `after` of its handler, and whether `end` has
been called. -/
structure Stream where
  conversationId : String
  after : ℕ
  ended : Bool
  deriving DecidableEq, Repr

/-- What `send` writes for an event. -/
def Stream.written (st : Stream) (e : Event) : List Event :=
  if st.after < e.seq ∧ !st.ended then [e] else []

def Stream.send (st : Stream) (e : Event) : Stream :=
  if st.after < e.seq then { st with after := e.seq } else st

theorem Stream.le_after_send (st : Stream) (e : Event) : e.seq ≤ (st.send e).after := by
  rw [send]
  split
  · exact Nat.le_refl _
  · next h => exact Nat.le_of_not_lt h

theorem Stream.after_le_send (st : Stream) (e : Event) : st.after ≤ (st.send e).after := by
  rw [send]
  split
  · next h => exact Nat.le_of_lt h
  · exact Nat.le_refl _

/-- A page of rows is sent one after the other; with the stream comes what has been written. -/
def sendAll : List Event → Stream → Stream × List Event
  | [], st => (st, [])
  | e :: page, st => ((sendAll page (st.send e)).1, st.written e ++ (sendAll page (st.send e)).2)

theorem after_sendAll (page : List Event) (st : Stream) :
    st.after ≤ (sendAll page st).1.after ∧ ∀ e ∈ page, e.seq ≤ (sendAll page st).1.after := by
  induction page generalizing st with
  | nil => exact ⟨Nat.le_refl _, fun _ h => absurd h List.not_mem_nil⟩
  | cons e page ih =>
    obtain ⟨hle, hmem⟩ := ih (st.send e)
    refine ⟨Nat.le_trans (st.after_le_send e) hle, fun e' he' => ?_⟩
    rcases List.mem_cons.mp he' with rfl | he'
    · exact Nat.le_trans (st.le_after_send e') hle
    · exact hmem e' he'

theorem eventsAfter_of_le (table : List Event) (id : String) {m n : ℕ} (h : m ≤ n) :
    eventsAfter table id n = (eventsAfter table id m).filter (n < ·.seq) := by
  rw [eventsAfter, eventsAfter, List.filter_filter]
  apply List.filter_congr
  intro e _
  by_cases hid : e.conversationId = id
  · by_cases hn : n < e.seq
    · simp [hid, hn, Nat.lt_of_le_of_lt h hn]
    · simp [hid, hn]
  · simp [hid]

/-- The loop of the route that replays stored events: pages, as long as they are full. -/
def replay (table : List Event) (id : String) (st : Stream) : Stream × List Event :=
  let page := events table id st.after
  let sent := sendAll page st
  if page.length = pageSize then
    ((replay table id sent.1).1, sent.2 ++ (replay table id sent.1).2)
  else sent
termination_by (eventsAfter table id st.after).length
decreasing_by
  all_goals
    rename_i hfull
    obtain ⟨hle, hmem⟩ := after_sendAll (events table id st.after) st
    rw [eventsAfter_of_le table id hle]
    obtain ⟨e, he⟩ : ∃ e, e ∈ events table id st.after :=
      List.exists_mem_of_length_pos (by rw [hfull]; decide)
    apply List.length_filter_lt_length_iff_exists.mpr
    exact ⟨e, List.mem_of_mem_take he, by simpa using hmem e he⟩

/-! ### The server and its client -/

/-- The client: the conversation it shows, the events it has been given so far, the number of its
connection, and what has been written to that connection and is still on the way. -/
structure Client where
  received : List Event
  connection : Option ℕ
  wire : List Event
  deriving DecidableEq, Repr

/-- The table of events and the number of the next one, the open streams with their count, each under
a number that is not used again, and the client. -/
structure State where
  table : List Event
  nextSeq : ℕ
  streams : ℕ → Option Stream
  size : ℕ
  nextNumber : ℕ
  client : Client

/-- What happens next. An event is emitted; the client loads the conversation, connects, is given
the next event and loses its connection; other clients connect; the server ends a stream, notices
that one is closed, and is started again. -/
inductive Act
  | emit (conversationId type data : String)
  | load
  | connect
  | deliver
  | lose
  | other (conversationId : String) (after : ℕ)
  | finish (number : ℕ)
  | closed (number : ℕ)
  | restart
  deriving DecidableEq, Repr

/-- What the listener of a connection writes for an event. -/
def writtenTo (stream : Option Stream) (e : Event) : List Event :=
  match stream with
  | some st => if st.conversationId = e.conversationId then st.written e else []
  | none => []

/-- `Store.event`: the row is stored and the listeners of its conversation are called. -/
def emit (e : Event) (s : State) : State :=
  { s with
    table := s.table ++ [e]
    nextSeq := e.seq + 1
    streams := fun n => (s.streams n).map fun st =>
      if st.conversationId = e.conversationId then st.send e else st
    client := { s.client with
      wire := s.client.wire ++ writtenTo (s.client.connection.bind s.streams) e } }

/-- At most twelve streams are open, and the cursor must be a safe integer. -/
def admits (s : State) (after : ℕ) : Bool := s.size < 12 && after < 2 ^ 53

/-- The handler of the events route up to its subscription, with what it has written. -/
def subscribe (id : String) (after : ℕ) (s : State) : State × List Event :=
  let sent := replay s.table id ⟨id, after, false⟩
  ({ s with
      streams := Function.update s.streams s.nextNumber (some sent.1)
      size := s.size + 1
      nextNumber := s.nextNumber + 1 }, sent.2)

/-- The number of the last event the client has, which it sends when it connects. -/
def Client.last (c : Client) : ℕ := (c.received.getLast?.map (·.seq)).getD 0

/-- A step of the server and of a client that shows the conversation. -/
def step (id : String) (s : State) : Act → State
  | .emit conversationId type data => emit ⟨s.nextSeq, conversationId, type, data⟩ s
  | .load => { s with client := ⟨events s.table id 0, none, []⟩ }
  | .connect =>
    if s.client.connection.isNone ∧ admits s s.client.last then
      let sent := subscribe id s.client.last s
      { sent.1 with client := { s.client with connection := some s.nextNumber, wire := sent.2 } }
    else s
  | .deliver =>
    match s.client.wire with
    | e :: wire =>
      { s with client := { s.client with received := s.client.received ++ [e], wire := wire } }
    | [] => s
  | .lose => { s with client := { s.client with connection := none, wire := [] } }
  | .other conversationId after =>
    if admits s after then (subscribe conversationId after s).1 else s
  | .finish number =>
    { s with
      streams := Function.update s.streams number
        ((s.streams number).map ({ · with ended := true })) }
  | .closed number =>
    if (s.streams number).isSome then
      { s with streams := Function.update s.streams number none, size := s.size - 1 }
    else s
  | .restart => { s with streams := fun _ => none, size := 0 }

def run (id : String) (s : State) (acts : List Act) : State := acts.foldl (step id) s

def initial : State := ⟨[], 1, fun _ => none, 0, 0, ⟨[], none, []⟩⟩

/-! ### What a replay sends -/

theorem ended_send (st : Stream) (e : Event) : (st.send e).ended = st.ended := by
  rw [Stream.send]
  split <;> rfl

theorem conversation_send (st : Stream) (e : Event) :
    (st.send e).conversationId = st.conversationId := by
  rw [Stream.send]
  split <;> rfl

theorem send_lt {st : Stream} {e : Event} {n : ℕ} (hst : st.after < n) (he : e.seq < n) :
    (st.send e).after < n := by
  rw [Stream.send]
  split
  · exact he
  · exact hst

/-- Rows behind the cursor, in order, are all written. -/
theorem written_sendAll {page : List Event} {st : Stream} (hsorted : page.Pairwise (·.seq < ·.seq))
    (hafter : ∀ e ∈ page, st.after < e.seq) (hended : st.ended = false) :
    (sendAll page st).2 = page := by
  induction page generalizing st with
  | nil => rfl
  | cons e page ih =>
    obtain ⟨hhead, htail⟩ := List.pairwise_cons.mp hsorted
    have he := hafter e List.mem_cons_self
    have hsend : (st.send e).after = e.seq := by rw [Stream.send, if_pos he]
    have hrest := @ih (st.send e) htail (by rw [hsend]; exact hhead)
      (by rw [ended_send, hended])
    rw [sendAll, hrest, Stream.written, if_pos ⟨he, by simp [hended]⟩, List.singleton_append]

/-- Sending leaves the handler as it is but for the cursor, which stays below any bound. -/
theorem stream_sendAll (page : List Event) (st : Stream) :
    (sendAll page st).1.ended = st.ended ∧
      (sendAll page st).1.conversationId = st.conversationId ∧
      ∀ n, st.after < n → (∀ e ∈ page, e.seq < n) → (sendAll page st).1.after < n := by
  induction page generalizing st with
  | nil => exact ⟨rfl, rfl, fun _ h _ => h⟩
  | cons e page ih =>
    obtain ⟨hended, hid, hlt⟩ := ih (st.send e)
    refine ⟨hended.trans (ended_send st e), hid.trans (conversation_send st e), fun n hn hpage => ?_⟩
    exact hlt n (send_lt hn (hpage e List.mem_cons_self))
      fun e' he' => hpage e' (List.mem_cons_of_mem e he')

theorem sorted_eventsAfter {table : List Event} (h : table.Pairwise (·.seq < ·.seq)) (id : String)
    (after : ℕ) : (eventsAfter table id after).Pairwise (·.seq < ·.seq) := h.filter _

theorem lt_of_mem_eventsAfter {table : List Event} {id : String} {after : ℕ} {e : Event}
    (h : e ∈ eventsAfter table id after) : e ∈ table ∧ after < e.seq := by
  rw [eventsAfter, List.mem_filter] at h
  obtain ⟨hmem, hcond⟩ := h
  exact ⟨hmem, (of_decide_eq_true hcond).2⟩

/-- Behind the last row of a page come the rows that the page has left out. -/
theorem eventsAfter_page {table : List Event} (h : table.Pairwise (·.seq < ·.seq)) (id : String)
    (st : Stream) :
    eventsAfter table id (sendAll (events table id st.after) st).1.after =
      (eventsAfter table id st.after).drop pageSize := by
  obtain ⟨hle, hmem⟩ := after_sendAll (events table id st.after) st
  obtain ⟨-, -, hlt⟩ := stream_sendAll (events table id st.after) st
  have hsorted := sorted_eventsAfter h id st.after
  rw [eventsAfter_of_le table id hle]
  rw [← List.take_append_drop pageSize (eventsAfter table id st.after), List.pairwise_append]
    at hsorted
  conv_lhs => rw [← List.take_append_drop pageSize (eventsAfter table id st.after)]
  rw [List.filter_append, List.filter_eq_nil_iff.mpr, List.filter_eq_self.mpr, List.nil_append]
  · intro e he
    have hst := (lt_of_mem_eventsAfter (List.mem_of_mem_drop he)).2
    simpa using hlt e.seq hst fun e' he' => hsorted.2.2 e' he' e he
  · intro e he
    simpa using hmem e he

/-- A replay writes all that is behind the cursor, whatever the number of pages. -/
theorem replay_spec {table : List Event} (h : table.Pairwise (·.seq < ·.seq)) (id : String)
    (st : Stream) (hended : st.ended = false) :
    (replay table id st).2 = eventsAfter table id st.after ∧
      (replay table id st).1.ended = false ∧
      (replay table id st).1.conversationId = st.conversationId ∧
      ∀ n, st.after < n → (∀ e ∈ table, e.seq < n) → (replay table id st).1.after < n := by
  induction st using replay.induct table id with
  | case1 st page sent hfull ih =>
    obtain ⟨hend, hid, hlt⟩ := stream_sendAll page st
    obtain ⟨hwritten, hend', hid', hlt'⟩ := ih (hend.trans hended)
    have hpage : sent.2 = page := written_sendAll ((sorted_eventsAfter h id st.after).take)
      (fun e he => (lt_of_mem_eventsAfter (List.mem_of_mem_take he)).2) hended
    rw [replay]
    simp only [show (events table id st.after).length = pageSize from hfull, if_true]
    refine ⟨?_, hend', hid'.trans hid, fun n hn htable => ?_⟩
    · rw [hpage, hwritten, eventsAfter_page h id st]
      exact List.take_append_drop pageSize _
    · exact hlt' n (hlt n hn fun e he =>
        htable e (lt_of_mem_eventsAfter (List.mem_of_mem_take he)).1) htable
  | case2 st page hshort =>
    obtain ⟨hend, hid, hlt⟩ := stream_sendAll page st
    have hpage : (sendAll page st).2 = page := written_sendAll ((sorted_eventsAfter h id st.after).take)
      (fun e he => (lt_of_mem_eventsAfter (List.mem_of_mem_take he)).2) hended
    rw [replay]
    simp only [show (events table id st.after).length ≠ pageSize from hshort, if_false]
    refine ⟨?_, hend.trans hended, hid, fun n hn htable => hlt n hn fun e he =>
      htable e (lt_of_mem_eventsAfter (List.mem_of_mem_take he)).1⟩
    have hall : page = eventsAfter table id st.after := by
      apply List.take_of_length_le
      have hlength : (events table id st.after).length ≠ pageSize := hshort
      rw [events, List.length_take] at hlength
      omega
    exact hpage.trans hall

/-! ### What the client is given -/

/-- The rows of a conversation. -/
def State.rows (s : State) (id : String) : List Event := eventsAfter s.table id 0

/-- The connection of the client leads to an open stream of the server. -/
def State.stream (s : State) : Option Stream := s.client.connection.bind s.streams

/-- The numbers of the table grow, the client has and is on the way to have a first part of the
rows of its conversation, and while its stream is open that part is all of them. -/
structure Sound (id : String) (s : State) : Prop where
  sorted : s.table.Pairwise (·.seq < ·.seq)
  bounded : ∀ e ∈ s.table, 0 < e.seq ∧ e.seq < s.nextSeq
  positive : 0 < s.nextSeq
  fresh : ∀ n, s.client.connection = some n → n < s.nextNumber
  idle : s.client.connection = none → s.client.wire = []
  part : s.client.received ++ s.client.wire <+: s.rows id
  live : ∀ st, s.stream = some st → st.conversationId = id ∧
    (st.ended = false → s.client.received ++ s.client.wire = s.rows id ∧ st.after < s.nextSeq)

theorem rows_snoc (table : List Event) (id : String) {e : Event} (h : 0 < e.seq) :
    eventsAfter (table ++ [e]) id 0 =
      eventsAfter table id 0 ++ if e.conversationId = id then [e] else [] := by
  rw [eventsAfter, List.filter_append, eventsAfter]
  by_cases hid : e.conversationId = id
  · simp [hid, h]
  · simp [hid]

/-- What the client lacks is what lies behind the number of its last event. -/
theorem eventsAfter_last {table : List Event} {id : String} {received : List Event}
    (hsorted : table.Pairwise (·.seq < ·.seq)) (hpart : received <+: eventsAfter table id 0) :
    received ++ eventsAfter table id ((received.getLast?.map (·.seq)).getD 0) =
      eventsAfter table id 0 := by
  obtain ⟨rest, hrest⟩ := hpart
  have hrows := sorted_eventsAfter hsorted id 0
  rcases List.eq_nil_or_concat received with rfl | ⟨init, e, rfl⟩
  · rfl
  · rw [List.concat_eq_append] at *
    rw [List.getLast?_append_of_ne_nil _ (List.cons_ne_nil e []), List.getLast?_singleton,
      Option.map_some, Option.getD_some, eventsAfter_of_le table id (Nat.zero_le e.seq), ← hrest,
      List.filter_append, List.filter_eq_nil_iff.mpr, List.nil_append, List.filter_eq_self.mpr]
    · rw [← hrest, List.pairwise_append] at hrows
      intro e' he'
      simpa using hrows.2.2 e (by simp) e' he'
    · rw [← hrest, List.pairwise_append, List.pairwise_append] at hrows
      intro e' he'
      rcases List.mem_append.mp he' with he' | he'
      · simpa using Nat.le_of_lt (hrows.1.2.2 e' he' e (by simp))
      · simp [List.mem_singleton.mp he']

theorem sound_initial (id : String) : Sound id initial where
  sorted := .nil
  bounded _ h := absurd h List.not_mem_nil
  positive := Nat.one_pos
  fresh _ h := nomatch h
  idle _ := rfl
  part := List.nil_prefix
  live _ h := nomatch h

theorem Sound.emit {id : String} {s : State} (h : Sound id s) (e : Event) (he : e.seq = s.nextSeq) :
    Sound id (emit e s) := by
  have hpos : 0 < e.seq := he ▸ h.positive
  have hrows : (Events.emit e s).rows id = s.rows id ++ if e.conversationId = id then [e] else [] :=
    rows_snoc s.table id hpos
  refine ⟨?_, ?_, Nat.succ_pos _, h.fresh, ?_, ?_, ?_⟩
  · refine List.pairwise_append.mpr ⟨h.sorted, List.pairwise_singleton _ _, fun e₁ h₁ e₂ h₂ => ?_⟩
    rw [List.mem_singleton.mp h₂, he]
    exact (h.bounded e₁ h₁).2
  · intro e' he'
    rcases List.mem_append.mp he' with he' | he'
    · exact ⟨(h.bounded e' he').1, Nat.lt_succ_of_lt (he ▸ (h.bounded e' he').2)⟩
    · rw [List.mem_singleton.mp he']
      exact ⟨hpos, Nat.lt_succ_self _⟩
  · intro hnone
    have hwire := h.idle hnone
    show s.client.wire ++ writtenTo (s.client.connection.bind s.streams) e = []
    rw [hwire, show s.client.connection = none from hnone]
    rfl
  · rw [hrows]
    show s.client.received ++ (s.client.wire ++ writtenTo s.stream e) <+: _
    cases hst : s.stream with
    | none => simpa [writtenTo] using h.part.trans (List.prefix_append _ _)
    | some st =>
      obtain ⟨hid, hlive⟩ := h.live st hst
      rw [writtenTo, hid]
      by_cases hown : id = e.conversationId
      · rw [if_pos hown, if_pos hown.symm, Stream.written]
        cases hended : st.ended with
        | true => simpa using h.part.trans (List.prefix_append _ _)
        | false =>
          obtain ⟨hall, hafter⟩ := hlive hended
          rw [if_pos ⟨he ▸ hafter, rfl⟩, ← List.append_assoc, hall]
      · rw [if_neg hown, if_neg (Ne.symm hown)]
        simpa using h.part
  · intro st' hst'
    obtain ⟨st, hst, hst'⟩ : ∃ st, s.stream = some st ∧
        (if st.conversationId = e.conversationId then st.send e else st) = st' := by
      cases hconn : s.client.connection with
      | none => simp [State.stream, Events.emit, hconn] at hst'
      | some n => simpa [State.stream, Events.emit, hconn] using hst'
    obtain ⟨hid, hlive⟩ := h.live st hst
    refine ⟨?_, fun hended' => ?_⟩
    · rw [← hst']
      split
      · rw [conversation_send, hid]
      · exact hid
    · have hended : st.ended = false := by
        rw [← hst'] at hended'
        split at hended'
        · rwa [ended_send] at hended'
        · exact hended'
      obtain ⟨hall, hafter⟩ := hlive hended
      refine ⟨?_, ?_⟩
      · rw [hrows]
        show s.client.received ++ (s.client.wire ++ writtenTo s.stream e) = _
        rw [hst, writtenTo, hid]
        by_cases hown : id = e.conversationId
        · rw [if_pos hown, if_pos hown.symm, Stream.written, if_pos ⟨he ▸ hafter, by simp [hended]⟩,
            ← List.append_assoc, hall]
        · rw [if_neg hown, if_neg (Ne.symm hown), List.append_nil, List.append_nil, hall]
      · rw [← hst']
        show _ < e.seq + 1
        split
        · exact send_lt (by omega) (Nat.lt_succ_self _)
        · omega

/-- Other streams come and go. -/
theorem Sound.streams {id : String} {s s' : State} (h : Sound id s) (htable : s'.table = s.table)
    (hseq : s'.nextSeq = s.nextSeq) (hnumber : s.nextNumber ≤ s'.nextNumber)
    (hclient : s'.client = s.client)
    (hstream : ∀ st, s'.stream = some st → ∃ st₀, s.stream = some st₀ ∧
      st.conversationId = st₀.conversationId ∧ st.after = st₀.after ∧
      (st.ended = false → st₀.ended = false)) : Sound id s' where
  sorted := by rw [htable]; exact h.sorted
  bounded := by rw [htable, hseq]; exact h.bounded
  positive := by rw [hseq]; exact h.positive
  fresh n hn := Nat.lt_of_lt_of_le (h.fresh n (by rw [← hclient]; exact hn)) hnumber
  idle := by rw [hclient]; exact h.idle
  part := by rw [State.rows, htable, hclient]; exact h.part
  live st hst := by
    obtain ⟨st₀, hst₀, hid, hafter, hended⟩ := hstream st hst
    obtain ⟨hid₀, hlive⟩ := h.live st₀ hst₀
    refine ⟨hid.trans hid₀, fun hopen => ?_⟩
    rw [State.rows, htable, hclient, hseq, hafter]
    exact hlive (hended hopen)

theorem Sound.connect {id : String} {s : State} (h : Sound id s)
    (hnone : s.client.connection = none) :
    Sound id { (subscribe id s.client.last s).1 with
      client := { s.client with
        connection := some s.nextNumber
        wire := (subscribe id s.client.last s).2 } } := by
  have hreceived : s.client.received <+: eventsAfter s.table id 0 := by
    have hpart := h.part
    rwa [h.idle hnone, List.append_nil] at hpart
  obtain ⟨hwritten, hended, hid, hlt⟩ :=
    replay_spec h.sorted id ⟨id, s.client.last, false⟩ rfl
  have hall : s.client.received ++ (subscribe id s.client.last s).2 = s.rows id := by
    rw [subscribe, hwritten]
    exact eventsAfter_last h.sorted hreceived
  have hlast : s.client.last < s.nextSeq := by
    rw [Client.last]
    cases hlast : s.client.received.getLast? with
    | none => exact h.positive
    | some e =>
      have hmem := hreceived.subset (List.mem_of_getLast? hlast)
      exact (h.bounded e (lt_of_mem_eventsAfter hmem).1).2
  exact {
    sorted := h.sorted
    bounded := h.bounded
    positive := h.positive
    fresh := fun n hn => by
      rw [Option.some.injEq] at hn
      exact hn ▸ Nat.lt_succ_self _
    idle := fun hsome => nomatch hsome
    part := hall ▸ List.prefix_rfl
    live := fun st hst => by
      have hstream : (replay s.table id ⟨id, s.client.last, false⟩).1 = st := by
        simpa [State.stream, subscribe] using hst
      rw [← hstream]
      exact ⟨hid, fun _ => ⟨hall, hlt _ hlast fun e he => (h.bounded e he).2⟩⟩ }

theorem Sound.step {id : String} {s : State} (h : Sound id s) (act : Act) :
    Sound id (step id s act) := by
  cases act with
  | emit conversationId type data => exact h.emit _ rfl
  | load =>
    exact ⟨h.sorted, h.bounded, h.positive, fun _ hn => (nomatch hn), fun _ => rfl,
      by rw [Events.step, List.append_nil]; exact List.take_prefix _ _,
      fun _ hst => (nomatch hst)⟩
  | connect =>
    rw [Events.step]
    split
    · next hconnect => exact h.connect (Option.isNone_iff_eq_none.mp hconnect.1)
    · exact h
  | deliver =>
    rw [Events.step]
    split
    · next e wire hwire =>
      have happend : s.client.received ++ [e] ++ wire = s.client.received ++ s.client.wire := by
        rw [hwire, List.append_assoc, List.singleton_append]
      refine ⟨h.sorted, h.bounded, h.positive, h.fresh, fun hnone => ?_, ?_, fun st hst => ?_⟩
      · have hidle := h.idle hnone
        rw [hwire] at hidle
        cases hidle
      · show s.client.received ++ [e] ++ wire <+: _
        rw [happend]
        exact h.part
      · show _ ∧ (_ → s.client.received ++ [e] ++ wire = _ ∧ _)
        rw [happend]
        exact h.live st hst
    · exact h
  | lose =>
    refine ⟨h.sorted, h.bounded, h.positive, fun _ hn => (nomatch hn), fun _ => rfl, ?_,
      fun _ hst => (nomatch hst)⟩
    show s.client.received ++ [] <+: _
    rw [List.append_nil]
    exact (List.prefix_append _ _).trans h.part
  | other conversationId after =>
    rw [Events.step]
    split
    · refine h.streams rfl rfl (Nat.le_succ _) rfl fun st hst => ?_
      refine ⟨st, ?_, rfl, rfl, fun hopen => hopen⟩
      cases hconn : s.client.connection with
      | none => simp [State.stream, subscribe, hconn] at hst
      | some n =>
        have hne : n ≠ s.nextNumber := Nat.ne_of_lt (h.fresh n hconn)
        simpa [State.stream, subscribe, hconn, hne] using hst
    · exact h
  | finish number =>
    refine h.streams rfl rfl (Nat.le_refl _) rfl fun st hst => ?_
    cases hconn : s.client.connection with
    | none => simp [State.stream, Events.step, hconn] at hst
    | some n =>
      by_cases hn : n = number
      · subst hn
        obtain ⟨st₀, hst₀, rfl⟩ : ∃ st₀, s.streams n = some st₀ ∧ { st₀ with ended := true } = st := by
          simpa [State.stream, Events.step, hconn] using hst
        exact ⟨st₀, by rw [State.stream, hconn]; exact hst₀, rfl, rfl, fun hopen => nomatch hopen⟩
      · exact ⟨st, by simpa [State.stream, Events.step, hconn, hn] using hst, rfl, rfl, fun hopen => hopen⟩
  | closed number =>
    rw [Events.step]
    split
    · refine h.streams rfl rfl (Nat.le_refl _) rfl fun st hst => ?_
      cases hconn : s.client.connection with
      | none => simp [State.stream, hconn] at hst
      | some n =>
        by_cases hn : n = number
        · subst hn
          simp [State.stream, hconn] at hst
        · exact ⟨st, by simpa [State.stream, hconn, hn] using hst, rfl, rfl, fun hopen => hopen⟩
    · exact h
  | restart =>
    refine h.streams rfl rfl (Nat.le_refl _) rfl fun st hst => ?_
    cases hconn : s.client.connection <;> simp [State.stream, Events.step, hconn] at hst

theorem sound_run {id : String} {s : State} (h : Sound id s) (acts : List Act) :
    Sound id (run id s acts) := by
  induction acts generalizing s with
  | nil => exact h
  | cons act acts ih => exact ih (h.step act)

/-- Delivering all that is on the way. -/
theorem run_deliver (id : String) (s : State) :
    (run id s (List.replicate s.client.wire.length .deliver)).client.received =
      s.client.received ++ s.client.wire := by
  obtain ⟨table, nextSeq, streams, size, nextNumber, received, connection, wire⟩ := s
  induction wire generalizing received with
  | nil => exact (List.append_nil _).symm
  | cons e wire ih =>
    have hrest := ih (received ++ [e])
    rwa [List.append_assoc, List.singleton_append] at hrest

/-- Over every run the client is given the events of its conversation in the order of their numbers,
each once and none left out; and while its connection is open at the server, it has all of them as
soon as what is on the way has been delivered. -/
theorem received_once (id : String) (acts : List Act) :
    let s := run id initial acts
    s.client.received <+: s.rows id ∧
      (s.client.received.map (·.seq)).Pairwise (· < ·) ∧
      ((∃ st, s.stream = some st ∧ st.ended = false) →
        (run id s (List.replicate s.client.wire.length .deliver)).client.received = s.rows id) := by
  intro s
  have h : Sound id s := sound_run (sound_initial id) acts
  have hpart : s.client.received <+: s.rows id := (List.prefix_append _ _).trans h.part
  refine ⟨hpart, ?_, ?_⟩
  · rw [List.pairwise_map]
    exact (sorted_eventsAfter h.sorted id 0).sublist hpart.sublist
  · rintro ⟨st, hst, hopen⟩
    rw [run_deliver]
    exact ((h.live st hst).2 hopen).1

end ForgeOS.Galaxy.Events
