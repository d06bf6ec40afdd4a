import Mathlib.Data.Fintype.Basic
import Mathlib.Logic.Function.Basic
import ForgeOS.Galaxy.Requests
import ForgeOS.Library.Interleaving

/-! Connections to OneDrive. Three slots are kept in a table, and a slot is connected by a login that
the identity library answers long after it was started, once or never; meanwhile the slot may be
disconnected, removed, added again and given another login. A login that is no longer the pending one
of its slot changes nothing. A fourth slot is a connection that the host links and unlinks. Token
caches, paths of listings and names of requests besides these are left out. -/

namespace ForgeOS.Galaxy.Logins

open ForgeOS.Library.Interleaving ForgeOS.Library.Conditions

/-! ### State -/

inductive Status
  | disconnected
  | connecting
  | connected
  | removed
  deriving DecidableEq, Repr

/-- The slots that the table has a row for. -/
abbrev Slot := Fin 3

/-- `slot` as the source counts it. -/
def Slot.name (k : Slot) : String := "OneDrive " ++ toString (k.val + 1)

structure Account where
  label : String
  homeId : Option String := none
  username : Option String := none
  status : Status := .disconnected
  deriving DecidableEq, Repr

/-- A login that a slot waits for: which request of the library it is, and the code that the user is
shown for it. -/
structure Pending where
  request : ℕ
  code : Option String := none
  deriving DecidableEq, Repr

/-- `existingMicrosoft` of the settings. -/
structure HostConnection where
  driveId : String
  userId : String
  deriving DecidableEq, Repr

def HostConnection.homeId (c : HostConnection) : String := "m365:" ++ c.driveId ++ ":" ++ c.userId

/-- What has been done to a slot. -/
inductive Entry
  | started (k : Slot) (n : ℕ)
  | closed (k : Slot)
  | connected (k : Slot) (n : ℕ)
  deriving DecidableEq, Repr

/-- The table of accounts, the pending logins, the requests that were cancelled, what went wrong with
a slot, the slots that have a client of the library, whether the settings have one, the connection of
the host, how many requests the library was given; the log, from its newest entry, and the answers so
far. -/
structure Shared where
  accounts : Slot → Account
  pending : Slot → Option Pending
  cancelled : ℕ → Bool
  errors : Slot → Option String
  clients : Slot → Bool
  clientId : Bool
  host : Option HostConnection
  requests : ℕ
  log : List Entry
  replies : List (Except String Unit)

/-- `error` as the handler of a failure reads it; a code that is no text counts as empty. -/
structure Failure where
  errorCode : String := ""
  message : String
  deriving DecidableEq, Repr

/-- `result.account` -/
structure MicrosoftAccount where
  homeAccountId : String
  username : String
  deriving DecidableEq, Repr

inductive Task
  | body (k : Option Slot)
  | acquiring (k : Slot) (n : ℕ)
  | catching (k : Slot) (n : ℕ) (e : Failure)
  | finishing (k : Slot) (n : ℕ)
  deriving DecidableEq, Repr

inductive Input
  | body (label : Except String Js)
  | code (userCode : String)
  | answer (result : Except Failure (Option MicrosoftAccount))
  | turn
  deriving DecidableEq, Repr

/-- Requests, where no slot is the fourth one, and changes of the settings by the host. -/
inductive Request
  | add
  | connect (k : Option Slot)
  | disconnect (k : Option Slot)
  | remove (k : Option Slot)
  | settings (clientId : Bool)
  | link (c : HostConnection)
  deriving DecidableEq, Repr

def Shared.reply (s : Shared) (answer : Except String Unit) : Shared :=
  { s with replies := s.replies ++ [answer] }

/-- `UPDATE accounts SET … WHERE slot=?` -/
def Shared.update (s : Shared) (k : Slot) (change : Account → Account) : Shared :=
  { s with accounts := Function.update s.accounts k (change (s.accounts k)) }

def Shared.note (s : Shared) (e : Entry) : Shared := { s with log := e :: s.log }

/-- The check of `account`. -/
def Shared.has (s : Shared) (k : Slot) : Bool := (s.accounts k).status != .removed

def missingMessage : String := "Add this OneDrive connection again before using it."

/-! ### Requests -/

def add (s : Shared) : Shared :=
  match (List.finRange 3).find? fun k => (s.accounts k).status = .removed with
  | none =>
    s.reply (.error
      "All three OneDrive connections are in use. Remove one before adding another.")
  | some k =>
    (s.update k ({ · with label := Slot.name k, status := .disconnected })).reply (.ok ())

/-- The label of a connection: the text of the request, which its check has bounded. -/
def labelOf (k : Slot) (text : String) : String := if trim text = "" then Slot.name k else trim text

def connect (k : Option Slot) (label : String) (s : Shared) : Shared × List Task :=
  match k with
  | none =>
    (s.reply (.error "Link the existing Microsoft connection from the host terminal."), [])
  | some k =>
    if !s.has k then (s.reply (.error missingMessage), [])
    else if (s.pending k).isSome then
      (s.reply (.error "Sign-in is already waiting for this connection."), [])
    else if !s.clients k && !s.clientId then
      (s.reply (.error
        "Microsoft sign-in is not ready yet. The person setting up Galaxy Workspace needs to enable it on the host computer."),
        [])
    else
      let n := s.requests
      let waiting : Shared :=
        { s with
          clients := Function.update s.clients k true
          errors := Function.update s.errors k none
          pending := Function.update s.pending k (some { request := n })
          cancelled := Function.update s.cancelled n false
          requests := n + 1 }
      let started := waiting.update k ({ · with label := labelOf k label, status := .connecting })
      ((started.note (.started k n)).reply (.ok ()), [.acquiring k n])

/-- The pending request of the slot is cancelled. -/
def Shared.cancel (s : Shared) (k : Slot) : ℕ → Bool :=
  match s.pending k with
  | some p => Function.update s.cancelled p.request true
  | none => s.cancelled

/-- `disconnect`, and `remove` -/
def disconnect (k : Option Slot) (remove : Bool) (s : Shared) : Shared :=
  match k with
  | none => { s with host := none }.reply (.ok ())
  | some k =>
    if !s.has k then s.reply (.error missingMessage)
    else
      let cancelled : Shared :=
        { s with
          cancelled := s.cancel k
          pending := Function.update s.pending k none
          clients := Function.update s.clients k false
          errors := Function.update s.errors k none }
      let closed := cancelled.update k
        ({ · with
            homeId := none, username := none
            status := if remove then .removed else .disconnected })
      (closed.note (.closed k)).reply (.ok ())

def enter : Request → Shared → Shared × List Task
  | .add, s => (add s, [])
  | .connect k, s => (s, [.body k])
  | .disconnect k, s => (disconnect k false s, [])
  | .remove k, s => (disconnect k true s, [])
  | .settings clientId, s => ({ s with clientId }, [])
  | .link c, s => ({ s with host := some c }, [])

/-! ### Logins -/

/-- The login is the one that its slot waits for. -/
def Shared.awaits (s : Shared) (k : Slot) (n : ℕ) : Bool :=
  (s.pending k).any (·.request = n) && !s.cancelled n

def duplicateMessage : String :=
  "That Microsoft account is already connected in another slot. Choose a different account."

/-- The handler of an answer. What it throws goes to the handler of failures. -/
def answered (k : Slot) (n : ℕ) (result : Option MicrosoftAccount) (s : Shared) :
    Shared × List Task :=
  if !s.awaits k n then (s, [.finishing k n])
  else
    match result with
    | none => (s, [.catching k n { message := "Microsoft did not return an account." }])
    | some a =>
      if (List.finRange 3).any fun j =>
          j ≠ k && (s.accounts j).homeId = some a.homeAccountId then
        (s, [.catching k n { message := duplicateMessage }])
      else
        let connected := s.update k
          ({ · with homeId := some a.homeAccountId, username := some a.username, status := .connected })
        (connected.note (.connected k n), [.finishing k n])

/-- The text that the slot shows for a failure. -/
def Failure.text (e : Failure) : String :=
  if e.errorCode ≠ "" then
    "Microsoft sign-in did not complete (" ++ e.errorCode ++
      "). Your organization may require administrator approval."
  else if e.message = duplicateMessage then e.message
  else "Microsoft sign-in did not complete. Try again."

/-- The handler of a failure. A slot that was connected before is connected again. -/
def failed (k : Slot) (n : ℕ) (e : Failure) (s : Shared) : Shared × List Task :=
  if !s.awaits k n then (s, [.finishing k n])
  else
    let noted : Shared := { s with errors := Function.update s.errors k (some e.text) }
    if !s.has k then (noted, [.finishing k n])
    else if (s.accounts k).homeId.any (· ≠ "") then
      ((noted.update k ({ · with status := .connected })).note (.connected k n), [.finishing k n])
    else (noted.update k ({ · with status := .disconnected }), [.finishing k n])

def finished (k : Slot) (n : ℕ) (s : Shared) : Shared :=
  if (s.pending k).any (·.request = n) then
    { s with pending := Function.update s.pending k none }
  else s

/-- The code of a login is shown as long as its slot waits for it. -/
def showCode (k : Slot) (n : ℕ) (userCode : String) (s : Shared) : Shared :=
  if s.awaits k n then
    { s with pending := Function.update s.pending k ((s.pending k).map ({ · with code := some userCode })) }
  else s

/-- A handler that is given something else than it waits for goes on waiting. -/
def resume : Task → Input → Shared → Shared × List Task
  | .body _, .body (.error m), s => (s.reply (.error m), [])
  | .body k, .body (.ok label), s =>
    match string label 60 with
    | .error m => (s.reply (.error m), [])
    | .ok label => connect k label s
  | .acquiring k n, .code userCode, s => (showCode k n userCode s, [.acquiring k n])
  | .acquiring k n, .answer (.ok result), s => answered k n result s
  | .acquiring k n, .answer (.error e), s => (s, [.catching k n e])
  | .catching k n e, .turn, s => failed k n e s
  | .finishing k n, .turn, s => (finished k n s, [])
  | task, _, s => (s, [task])

/-- `recover` on one account. -/
def recovered (a : Account) : Account :=
  if a.status = .connecting then
    { a with status := if a.homeId = none then .disconnected else .connected }
  else a

/-- `recover`, and memory as a new process has it. -/
def restart (s : Shared) : Shared :=
  { s with
    accounts := fun k => recovered (s.accounts k)
    pending := fun _ => none
    errors := fun _ => none
    clients := fun _ => false }

def server : Server Shared Task Request Input := ⟨enter, resume, restart, fun _ => false⟩

/-- The table as it is created. -/
def initial : State Shared Task where
  shared :=
    { accounts := fun k => { label := Slot.name k }
      pending := fun _ => none
      cancelled := fun _ => false
      errors := fun _ => none
      clients := fun _ => false
      clientId := false
      host := none
      requests := 0
      log := []
      replies := [] }
  waiting := []

/-! ### The log -/

/-- The login was started for the slot, and the slot has not been disconnected or removed since. -/
def OpenLogin (k : Slot) (n : ℕ) : List Entry → Prop
  | [] => False
  | .started j m :: log => (j = k ∧ m = n) ∨ OpenLogin k n log
  | .closed j :: log => j ≠ k ∧ OpenLogin k n log
  | .connected _ _ :: log => OpenLogin k n log

/-- Every login has a number of its own, and connects its slot only while it is open. -/
def Orderly : List Entry → Prop
  | [] => True
  | .started _ n :: log => (∀ j, .started j n ∉ log) ∧ Orderly log
  | .closed _ :: log => Orderly log
  | .connected k n :: log => OpenLogin k n log ∧ Orderly log

theorem OpenLogin.started {k : Slot} {n : ℕ} {log : List Entry} (h : OpenLogin k n log) :
    .started k n ∈ log := by
  induction log with
  | nil => cases h
  | cons e log ih =>
    cases e with
    | started j m =>
      rcases h with ⟨rfl, rfl⟩ | h
      · exact List.mem_cons_self
      · exact List.mem_cons_of_mem _ (ih h)
    | closed j => exact List.mem_cons_of_mem _ (ih h.2)
    | connected j m => exact List.mem_cons_of_mem _ (ih h)

/-- A login that is open behind some entries was started among them or is open behind a closing of
another slot. -/
theorem OpenLogin.started_between {k : Slot} {n : ℕ} {between older : List Entry}
    (h : OpenLogin k n (between ++ .closed k :: older)) : .started k n ∈ between := by
  induction between with
  | nil => exact absurd rfl h.1
  | cons e between ih =>
    cases e with
    | started j m =>
      rcases h with ⟨rfl, rfl⟩ | h
      · exact List.mem_cons_self
      · exact List.mem_cons_of_mem _ (ih h)
    | closed j => exact List.mem_cons_of_mem _ (ih h.2)
    | connected j m => exact List.mem_cons_of_mem _ (ih h)

theorem Orderly.tail {e : Entry} {log : List Entry} (h : Orderly (e :: log)) : Orderly log := by
  cases e with
  | started j m => exact h.2
  | closed j => exact h
  | connected j m => exact h.2

theorem Orderly.append_right {newer older : List Entry} (h : Orderly (newer ++ older)) :
    Orderly older := by
  induction newer with
  | nil => exact h
  | cons e newer ih => exact ih h.tail

/-- A login is started once, and for one slot. -/
theorem Orderly.started_once {j k : Slot} {n : ℕ} {newer older : List Entry}
    (h : Orderly (newer ++ older)) (hnewer : .started k n ∈ newer) : .started j n ∉ older := by
  induction newer with
  | nil => cases hnewer
  | cons e newer ih =>
    rcases List.mem_cons.mp hnewer with rfl | hnewer
    · exact fun holder => h.1 j (List.mem_append_right _ holder)
    · exact ih h.tail hnewer

theorem Orderly.slot_eq {j k : Slot} {n : ℕ} {log : List Entry} (h : Orderly log)
    (hj : .started j n ∈ log) (hk : .started k n ∈ log) : j = k := by
  induction log with
  | nil => cases hj
  | cons e log ih =>
    rcases List.mem_cons.mp hj with rfl | hj'
    · rcases List.mem_cons.mp hk with hk' | hk'
      · exact (Entry.started.inj hk').1.symm
      · exact absurd hk' (h.1 k)
    · rcases List.mem_cons.mp hk with rfl | hk'
      · exact absurd hj' (h.1 j)
      · exact ih h.tail hj' hk'

/-- A login that was started before its slot was closed does not connect it afterwards. -/
theorem Orderly.not_before {k : Slot} {n : ℕ} {newer between older : List Entry}
    (h : Orderly (newer ++ .connected k n :: (between ++ .closed k :: older))) :
    .started k n ∉ older := by
  have hconnected := h.append_right
  have hbetween := hconnected.1.started_between
  have hlater : Orderly ((between ++ [.closed k]) ++ older) := by simpa using hconnected.2
  exact hlater.started_once (List.mem_append_left _ hbetween)

/-! ### What every stretch keeps -/

def Task.number : Task → Option ℕ
  | .body _ => none
  | .acquiring _ n | .catching _ n _ | .finishing _ n => some n

/-- The handler may still connect the slot through the login. -/
def Task.Tries (k : Slot) (n : ℕ) : Task → Prop
  | .acquiring j m | .catching j m _ => j = k ∧ m = n
  | .body _ | .finishing _ _ => False

structure Sound (s : Shared) (ts : List Task) : Prop where
  numbers : (ts.filterMap Task.number).Nodup
  below : ∀ n ∈ ts.filterMap Task.number, n < s.requests
  logged : ∀ k n, .started k n ∈ s.log → n < s.requests
  distinct : ∀ j k x, (s.accounts j).homeId = some x → (s.accounts k).homeId = some x → j = k
  identified : ∀ k, (s.accounts k).status = .connected → (s.accounts k).homeId.isSome
  waits : ∀ k, (s.accounts k).status = .connecting →
    ∃ p, s.pending k = some p ∧ ∃ t ∈ ts, t.Tries k p.request
  opened : ∀ k p, s.pending k = some p → OpenLogin k p.request s.log
  live : ∀ k p, s.pending k = some p → s.cancelled p.request = false
  orderly : Orderly s.log

theorem Task.Tries.number_eq {k : Slot} {n : ℕ} {t : Task} (h : t.Tries k n) :
    t.number = some n := by
  cases t with
  | body _ => cases h
  | finishing _ _ => cases h
  | acquiring j m => rw [Task.number, h.2]
  | catching j m e => rw [Task.number, h.2]

/-- Pending logins of different slots are different. -/
theorem Sound.slot_eq {s : Shared} {ts : List Task} (h : Sound s ts) {j k : Slot} {p q : Pending}
    (hj : s.pending j = some p) (hk : s.pending k = some q) (hpq : p.request = q.request) :
    j = k := by
  have hopen := h.opened j p hj
  rw [hpq] at hopen
  exact h.orderly.slot_eq hopen.started (h.opened k q hk).started

theorem Sound.awaits_iff {s : Shared} {ts : List Task} (h : Sound s ts) (k : Slot) (n : ℕ) :
    s.awaits k n = true ↔ ∃ p, s.pending k = some p ∧ p.request = n := by
  unfold Shared.awaits
  cases hp : s.pending k with
  | none => simp
  | some p =>
    have hlive := h.live k p hp
    constructor
    · intro hawaits
      exact ⟨p, rfl, by simpa using (Bool.and_eq_true_iff.mp hawaits).1⟩
    · rintro ⟨q, hq, rfl⟩
      cases hq
      simp [hlive]

/-- A stretch that changes no account, no pending login and no entry. -/
theorem Sound.same {s s' : Shared} {ts : List Task} (h : Sound s ts)
    (haccounts : s'.accounts = s.accounts) (hpending : s'.pending = s.pending)
    (hcancelled : s'.cancelled = s.cancelled) (hrequests : s'.requests = s.requests)
    (hlog : s'.log = s.log) : Sound s' ts := by
  refine ⟨h.numbers, ?_, ?_, ?_, ?_, ?_, ?_, ?_, ?_⟩
  · rw [hrequests]
    exact h.below
  · rw [hrequests, hlog]
    exact h.logged
  · rw [haccounts]
    exact h.distinct
  · rw [haccounts]
    exact h.identified
  · rw [haccounts, hpending]
    exact h.waits
  · rw [hpending, hlog]
    exact h.opened
  · rw [hpending, hcancelled]
    exact h.live
  · rw [hlog]
    exact h.orderly

/-- Requests that wait for their bodies may come and go. -/
theorem Sound.body {s : Shared} {ts : List Task} (h : Sound s ts) (k : Option Slot) :
    Sound s (.body k :: ts) :=
  { h with
    waits := fun j hj =>
      have ⟨p, hp, t, ht, htries⟩ := h.waits j hj
      ⟨p, hp, t, List.mem_cons_of_mem _ ht, htries⟩ }

theorem Sound.of_body {s : Shared} {ts : List Task} {k : Option Slot} (h : Sound s (.body k :: ts)) :
    Sound s ts := by
  refine { h with waits := fun j hj => ?_ }
  obtain ⟨p, hp, t, ht, htries⟩ := h.waits j hj
  rcases List.mem_cons.mp ht with rfl | ht
  · cases htries
  · exact ⟨p, hp, t, ht, htries⟩

/-- An account changes to one that waits for no login. -/
theorem Sound.account {s : Shared} {ts : List Task} (h : Sound s ts) {k : Slot} {a : Account}
    (hstatus : a.status ≠ .connecting) (hid : a.status = .connected → a.homeId.isSome)
    (hother : ∀ j ≠ k, ∀ x, a.homeId = some x → (s.accounts j).homeId ≠ some x) :
    Sound { s with accounts := Function.update s.accounts k a } ts := by
  refine { h with distinct := fun i j x hi hj => ?_, identified := fun j hj => ?_,
                  waits := fun j hj => ?_ }
  · dsimp only at hi hj
    by_cases hik : i = k
    · by_cases hjk : j = k
      · rw [hik, hjk]
      · subst hik
        rw [Function.update_self] at hi
        rw [Function.update_of_ne hjk] at hj
        exact absurd hj (hother j hjk x hi)
    · rw [Function.update_of_ne hik] at hi
      by_cases hjk : j = k
      · subst hjk
        rw [Function.update_self] at hj
        exact absurd hi (hother i hik x hj)
      · rw [Function.update_of_ne hjk] at hj
        exact h.distinct i j x hi hj
  · dsimp only at hj ⊢
    by_cases hjk : j = k
    · subst hjk
      rw [Function.update_self] at hj ⊢
      exact hid hj
    · rw [Function.update_of_ne hjk] at hj ⊢
      exact h.identified j hj
  · dsimp only at hj
    by_cases hjk : j = k
    · subst hjk
      rw [Function.update_self] at hj
      exact absurd hj hstatus
    · rw [Function.update_of_ne hjk] at hj
      exact h.waits j hj

theorem Sound.note_connected {s : Shared} {ts : List Task} (h : Sound s ts) {k : Slot} {n : ℕ}
    (hopen : OpenLogin k n s.log) : Sound (s.note (.connected k n)) ts :=
  { h with
    logged := fun j m hj => h.logged j m ((List.mem_cons.mp hj).resolve_left (by simp))
    opened := h.opened
    orderly := ⟨hopen, h.orderly⟩ }

/-- A handler of a login becomes another one of it, which tries the same unless the slot does not wait
for the login any more. -/
theorem Sound.replace {s : Shared} {ts : List Task} {t u : Task} (h : Sound s (t :: ts))
    (hnumber : u.number = t.number)
    (htries : ∀ k p, s.pending k = some p → (s.accounts k).status = .connecting →
      t.Tries k p.request → u.Tries k p.request) : Sound s (u :: ts) := by
  have hnumbers : (u :: ts).filterMap Task.number = (t :: ts).filterMap Task.number := by
    rw [List.filterMap_cons, List.filterMap_cons, hnumber]
  refine { h with numbers := by rw [hnumbers]; exact h.numbers
                  below := by rw [hnumbers]; exact h.below
                  waits := fun j hj => ?_ }
  obtain ⟨p, hp, v, hv, hvtries⟩ := h.waits j hj
  rcases List.mem_cons.mp hv with rfl | hv
  · exact ⟨p, hp, u, List.mem_cons_self, htries j p hp hj hvtries⟩
  · exact ⟨p, hp, v, List.mem_cons_of_mem _ hv, hvtries⟩

theorem pending_of_update_none {f : Slot → Option Pending} {j k : Slot} {p : Pending}
    (h : Function.update f k none j = some p) : f j = some p := by
  by_cases hjk : j = k
  · subst hjk
    simp at h
  · rwa [Function.update_of_ne hjk] at h

/-- The last handler of a login ends, and the slot does not wait for the login any more. -/
theorem sound_finished {s : Shared} {ts : List Task} {k : Slot} {n : ℕ}
    (h : Sound s (.finishing k n :: ts)) : Sound (finished k n s) ts := by
  have hnumbers : (n :: ts.filterMap Task.number).Nodup := h.numbers
  have hbelow : ∀ m ∈ ts.filterMap Task.number, m < s.requests :=
    fun m hm => h.below m (List.mem_cons_of_mem _ hm)
  have hwaits : ∀ j, (s.accounts j).status = .connecting →
      ∃ p, s.pending j = some p ∧ p.request ≠ n ∧ ∃ t ∈ ts, t.Tries j p.request := by
    intro j hj
    obtain ⟨p, hp, t, ht, htries⟩ := h.waits j hj
    rcases List.mem_cons.mp ht with rfl | hmem
    · cases htries
    · refine ⟨p, hp, ?_, t, hmem, htries⟩
      rintro rfl
      exact (List.nodup_cons.mp hnumbers).1
        (List.mem_filterMap.mpr ⟨t, hmem, htries.number_eq⟩)
  unfold finished
  split_ifs with hpending
  · refine { h with numbers := (List.nodup_cons.mp hnumbers).2, below := hbelow
                    waits := fun j hj => ?_, opened := fun j p hp => ?_, live := fun j p hp => ?_ }
    · obtain ⟨p, hp, hne, ht⟩ := hwaits j hj
      have hjk : j ≠ k := by
        rintro rfl
        simp [hp, hne] at hpending
      exact ⟨p, (Function.update_of_ne hjk _ _).trans hp, ht⟩
    · exact h.opened j p (pending_of_update_none hp)
    · exact h.live j p (pending_of_update_none hp)
  · refine { h with numbers := (List.nodup_cons.mp hnumbers).2, below := hbelow
                    waits := fun j hj => ?_ }
    obtain ⟨p, hp, -, ht⟩ := hwaits j hj
    exact ⟨p, hp, ht⟩

theorem sound_add {s : Shared} {ts : List Task} (h : Sound s ts) : Sound (add s) ts := by
  unfold add
  split
  · exact h.same rfl rfl rfl rfl rfl
  · next k _ =>
    have haccount := h.account (k := k)
      (a := { s.accounts k with label := Slot.name k, status := .disconnected }) (by simp) (by simp)
      fun j hj x hx hjx => hj (h.distinct j k x hjx hx)
    exact haccount.same rfl rfl rfl rfl rfl

/-- A new label or status does not change which account a slot belongs to. -/
theorem homeId_update (f : Slot → Account) (k : Slot) (label : String) (status : Status) (j : Slot) :
    (Function.update f k { f k with label, status } j).homeId = (f j).homeId := by
  by_cases hjk : j = k
  · subst hjk
    rw [Function.update_self]
  · rw [Function.update_of_ne hjk]

/-- A login is started under a number that none had before. -/
theorem sound_connect {s : Shared} {ts : List Task} (h : Sound s ts) (k : Slot) (label : String) :
    Sound (connect (some k) label s).1 ((connect (some k) label s).2 ++ ts) := by
  unfold connect
  dsimp only
  split_ifs
  · exact h.same rfl rfl rfl rfl rfl
  · exact h.same rfl rfl rfl rfl rfl
  · exact h.same rfl rfl rfl rfl rfl
  · have hfresh : ∀ j, Entry.started j s.requests ∉ s.log := fun j hj =>
      absurd (h.logged j s.requests hj) (Nat.lt_irrefl _)
    have holder : ∀ j p, s.pending j = some p → p.request ≠ s.requests := by
      rintro j p hp heq
      exact hfresh j (heq ▸ (h.opened j p hp).started)
    refine ⟨?_, ?_, ?_, ?_, ?_, ?_, ?_, ?_, ?_⟩
    · have hnew : s.requests ∉ ts.filterMap Task.number := fun hmem =>
        absurd (h.below _ hmem) (Nat.lt_irrefl _)
      exact List.nodup_cons.mpr ⟨hnew, h.numbers⟩
    · intro n hn
      rcases List.mem_cons.mp hn with rfl | hn
      · exact Nat.lt_succ_self _
      · exact Nat.lt_succ_of_lt (h.below n hn)
    · intro j n hj
      rcases List.mem_cons.mp hj with hj | hj
      · rw [(Entry.started.inj hj).2]
        exact Nat.lt_succ_self _
      · exact Nat.lt_succ_of_lt (h.logged j n hj)
    · intro i j x hi hj
      refine h.distinct i j x ?_ ?_
      · rwa [← homeId_update s.accounts k (labelOf k label) .connecting i]
      · rwa [← homeId_update s.accounts k (labelOf k label) .connecting j]
    · intro j hj
      change (Function.update s.accounts k _ j).status = _ at hj
      change (Function.update s.accounts k _ j).homeId.isSome = true
      by_cases hjk : j = k
      · subst hjk
        simp at hj
      · rw [Function.update_of_ne hjk] at hj ⊢
        exact h.identified j hj
    · intro j hj
      change (Function.update s.accounts k _ j).status = _ at hj
      by_cases hjk : j = k
      · subst hjk
        exact ⟨_, Function.update_self _ _ _, _, List.mem_cons_self, rfl, rfl⟩
      · rw [Function.update_of_ne hjk] at hj
        obtain ⟨p, hp, t, ht, htries⟩ := h.waits j hj
        exact ⟨p, (Function.update_of_ne hjk _ _).trans hp, t, List.mem_cons_of_mem _ ht, htries⟩
    · intro j p hp
      change Function.update s.pending k _ j = some p at hp
      by_cases hjk : j = k
      · subst hjk
        rw [Function.update_self] at hp
        cases hp
        exact .inl ⟨rfl, rfl⟩
      · rw [Function.update_of_ne hjk] at hp
        exact .inr (h.opened j p hp)
    · intro j p hp
      change Function.update s.pending k _ j = some p at hp
      change Function.update s.cancelled s.requests false p.request = false
      by_cases hjk : j = k
      · subst hjk
        rw [Function.update_self] at hp
        cases hp
        exact Function.update_self _ _ _
      · rw [Function.update_of_ne hjk] at hp
        rw [Function.update_of_ne (holder j p hp)]
        exact h.live j p hp
    · exact ⟨hfresh, h.orderly⟩

/-- A request that is not pending is not cancelled with its slot. -/
theorem cancel_of_ne {s : Shared} {k : Slot} {n : ℕ}
    (h : ∀ p, s.pending k = some p → n ≠ p.request) : s.cancel k n = s.cancelled n := by
  unfold Shared.cancel
  cases hk : s.pending k with
  | none => rfl
  | some p => exact Function.update_of_ne (h p hk) _ _

/-- Closing a slot takes its login away, and no other one. -/
theorem sound_disconnect {s : Shared} {ts : List Task} (h : Sound s ts) (k : Slot) (remove : Bool) :
    Sound (disconnect (some k) remove s) ts := by
  have hstatus : (if remove then Status.removed else .disconnected) ≠ .connecting ∧
      (if remove then Status.removed else .disconnected) ≠ .connected := by
    cases remove <;> simp
  have haccount := h.account (k := k)
    (a := { s.accounts k with
              homeId := none, username := none
              status := if remove then .removed else .disconnected })
    hstatus.1 (fun hconnected => absurd hconnected hstatus.2) (by simp)
  unfold disconnect
  dsimp only
  by_cases hhas : s.has k
  · simp only [hhas, Bool.not_true, Bool.false_eq_true, if_false]
    refine ⟨haccount.numbers, haccount.below, ?_, haccount.distinct, haccount.identified, ?_, ?_, ?_,
      haccount.orderly⟩
    · intro j n hj
      exact h.logged j n ((List.mem_cons.mp hj).resolve_left (by simp))
    · intro j hj
      have hjk : j ≠ k := by
        rintro rfl
        change (Function.update s.accounts j _ j).status = _ at hj
        rw [Function.update_self] at hj
        exact hstatus.1 hj
      obtain ⟨p, hp, ht⟩ := haccount.waits j hj
      exact ⟨p, (Function.update_of_ne hjk _ _).trans hp, ht⟩
    · intro j p hp
      refine ⟨?_, h.opened j p (pending_of_update_none hp)⟩
      rintro rfl
      change Function.update s.pending k none k = some p at hp
      simp at hp
    · intro j p hp
      have hjk : j ≠ k := by
        rintro rfl
        change Function.update s.pending j none j = some p at hp
        simp at hp
      have hold := pending_of_update_none hp
      change s.cancel k p.request = false
      rw [cancel_of_ne fun q hq heq => hjk (h.slot_eq hold hq heq)]
      exact h.live j p hold
  · simp only [hhas, Bool.not_false, if_true]
    exact h.same rfl rfl rfl rfl rfl

theorem enter_sound (r : Request) {s : Shared} {ts : List Task} (h : Sound s ts) :
    Sound (enter r s).1 ((enter r s).2 ++ ts) := by
  cases r with
  | add => exact sound_add h
  | connect k => exact h.body k
  | disconnect k =>
    cases k with
    | none => exact h.same rfl rfl rfl rfl rfl
    | some k => exact sound_disconnect h k false
  | remove k =>
    cases k with
    | none => exact h.same rfl rfl rfl rfl rfl
    | some k => exact sound_disconnect h k true
  | settings clientId => exact h.same rfl rfl rfl rfl rfl
  | link c => exact h.same rfl rfl rfl rfl rfl

/-- An answer for a login that its slot does not wait for any more. -/
theorem Sound.overtaken {s : Shared} {ts : List Task} {t : Task} {k : Slot} {n : ℕ}
    (h : Sound s (t :: ts)) (hnumber : t.number = some n) (htries : ∀ j m, t.Tries j m → j = k)
    (hawaits : s.awaits k n = false) : Sound s (.finishing k n :: ts) := by
  refine h.replace hnumber.symm fun j p hp _ ht => ?_
  have hj := htries j _ ht
  subst hj
  have hn : p.request = n := Option.some.inj (ht.number_eq.symm.trans hnumber)
  rw [(h.awaits_iff j n).mpr ⟨p, hp, hn⟩] at hawaits
  cases hawaits

/-- A slot that does not wait for a login lets it end. -/
theorem Sound.settled {s : Shared} {ts : List Task} {t : Task} {k : Slot} {n : ℕ}
    (h : Sound s (t :: ts)) (hnumber : t.number = some n) (htries : ∀ j m, t.Tries j m → j = k)
    (hstatus : (s.accounts k).status ≠ .connecting) : Sound s (.finishing k n :: ts) := by
  refine h.replace hnumber.symm fun j p _ hj ht => ?_
  have hjk := htries j _ ht
  subst hjk
  exact absurd hj hstatus

theorem tries_acquiring {k j : Slot} {n m : ℕ} (h : (Task.acquiring k n).Tries j m) : j = k :=
  h.1.symm

theorem tries_catching {k j : Slot} {n m : ℕ} {e : Failure} (h : (Task.catching k n e).Tries j m) :
    j = k := h.1.symm

theorem sound_answered {s : Shared} {ts : List Task} {k : Slot} {n : ℕ}
    (h : Sound s (.acquiring k n :: ts)) (result : Option MicrosoftAccount) :
    Sound (answered k n result s).1 ((answered k n result s).2 ++ ts) := by
  have hcaught : ∀ e, Sound s (.catching k n e :: ts) := fun e =>
    h.replace rfl fun _ _ _ _ ht => ht
  unfold answered
  split_ifs with hawaits
  · exact h.overtaken rfl (fun _ _ => tries_acquiring) (by simpa using hawaits)
  · cases result with
    | none => exact hcaught _
    | some a =>
      dsimp only
      split_ifs with hduplicate
      · exact hcaught _
      · obtain ⟨p, hp, rfl⟩ := (h.awaits_iff k n).mp (by simpa using hawaits)
        have haccount := h.account (k := k)
          (a := { s.accounts k with
                    homeId := some a.homeAccountId, username := some a.username
                    status := .connected })
          (by simp) (by simp) (by
            intro j hj x hx hjx
            apply hduplicate
            rw [List.any_eq_true]
            exact ⟨j, List.mem_finRange j, by simp_all⟩)
        have hnoted := haccount.note_connected (h.opened k p hp)
        refine hnoted.settled rfl (fun _ _ => tries_acquiring) ?_
        simp [Shared.note]

theorem sound_failed {s : Shared} {ts : List Task} {k : Slot} {n : ℕ} {e : Failure}
    (h : Sound s (.catching k n e :: ts)) :
    Sound (failed k n e s).1 ((failed k n e s).2 ++ ts) := by
  unfold failed
  by_cases hawaits : s.awaits k n
  · simp only [hawaits, Bool.not_true, Bool.false_eq_true, if_false]
    obtain ⟨p, hp, rfl⟩ := (h.awaits_iff k n).mp hawaits
    have hnoted : Sound { s with errors := Function.update s.errors k (some e.text) }
        (.catching k p.request e :: ts) := h.same rfl rfl rfl rfl rfl
    split_ifs with hhas hid
    · refine hnoted.settled rfl (fun _ _ => tries_catching) ?_
      have hremoved : (s.accounts k).status = .removed := by simpa [Shared.has] using hhas
      simp [hremoved]
    · have haccount := hnoted.account (k := k) (a := { s.accounts k with status := .connected })
        (by simp) (fun _ => by cases hk : (s.accounts k).homeId <;> simp_all)
        (fun j hj x hx hjx => hj (h.distinct j k x hjx hx))
      refine (haccount.note_connected (h.opened k p hp)).settled rfl (fun _ _ => tries_catching) ?_
      simp [Shared.note]
    · have haccount := hnoted.account (k := k) (a := { s.accounts k with status := .disconnected })
        (by simp) (by simp) (fun j hj x hx hjx => hj (h.distinct j k x hjx hx))
      refine haccount.settled rfl (fun _ _ => tries_catching) ?_
      simp
  · simp only [hawaits, Bool.not_false, if_true]
    exact h.overtaken rfl (fun _ _ => tries_catching) (by simpa using hawaits)

/-- A code is shown, which changes no login. -/
theorem sound_showCode {s : Shared} {ts : List Task} (h : Sound s ts) (k : Slot) (n : ℕ)
    (userCode : String) : Sound (showCode k n userCode s) ts := by
  unfold showCode
  split_ifs with hawaits
  · have hshown : ∀ j p, Function.update s.pending k
        ((s.pending k).map ({ · with code := some userCode })) j = some p →
          ∃ q, s.pending j = some q ∧ q.request = p.request := by
      intro j p hp
      by_cases hjk : j = k
      · subst hjk
        rw [Function.update_self] at hp
        obtain ⟨q, hq, rfl⟩ := Option.map_eq_some_iff.mp hp
        exact ⟨q, hq, rfl⟩
      · rw [Function.update_of_ne hjk] at hp
        exact ⟨p, hp, rfl⟩
    refine { h with waits := fun j hj => ?_, opened := fun j p hp => ?_, live := fun j p hp => ?_ }
    · obtain ⟨p, hp, ht⟩ := h.waits j hj
      by_cases hjk : j = k
      · subst hjk
        refine ⟨{ p with code := some userCode }, ?_, ht⟩
        dsimp only
        rw [Function.update_self, hp]
        rfl
      · exact ⟨p, (Function.update_of_ne hjk _ _).trans hp, ht⟩
    · obtain ⟨q, hq, hrequest⟩ := hshown j p hp
      rw [← hrequest]
      exact h.opened j q hq
    · obtain ⟨q, hq, hrequest⟩ := hshown j p hp
      dsimp only
      rw [← hrequest]
      exact h.live j q hq
  · exact h

theorem resume_sound (t : Task) (x : Input) {s : Shared} {ts : List Task} (h : Sound s (t :: ts)) :
    Sound (resume t x s).1 ((resume t x s).2 ++ ts) := by
  cases t with
  | body k =>
    cases x with
    | body label =>
      cases label with
      | error m => exact h.of_body.same rfl rfl rfl rfl rfl
      | ok text =>
        rw [resume]
        cases string text 60 with
        | error m => exact h.of_body.same rfl rfl rfl rfl rfl
        | ok label =>
          cases k with
          | none => exact h.of_body.same rfl rfl rfl rfl rfl
          | some k => exact sound_connect h.of_body k label
    | code | answer | turn => exact h
  | acquiring k n =>
    cases x with
    | code userCode => exact sound_showCode h k n userCode
    | answer result =>
      cases result with
      | error e => exact h.replace rfl fun _ _ _ _ ht => ht
      | ok result => exact sound_answered h result
    | body | turn => exact h
  | catching k n e =>
    cases x with
    | turn => exact sound_failed h
    | body | code | answer => exact h
  | finishing k n =>
    cases x with
    | turn => exact sound_finished h
    | body | code | answer => exact h

theorem recovered_homeId (a : Account) : (recovered a).homeId = a.homeId := by
  unfold recovered
  split_ifs <;> rfl

theorem recovered_connected {a : Account} (h : (recovered a).status = .connected) :
    a.status = .connected ∨ a.homeId.isSome := by
  unfold recovered at h
  split_ifs at h with hconnecting hid
  · exact .inr (Option.isSome_iff_ne_none.mpr hid)
  · exact .inl h

theorem recovered_not_connecting (a : Account) : (recovered a).status ≠ .connecting := by
  unfold recovered
  split_ifs with hconnecting hid
  · simp
  · simp
  · exact hconnecting

/-- A restart drops the logins with the slots that wait for them. -/
theorem restart_sound {s : Shared} {ts : List Task} (h : Sound s ts) : Sound (restart s) [] where
  numbers := List.nodup_nil
  below n hn := absurd hn List.not_mem_nil
  logged := h.logged
  distinct j k x hj hk := by
    change (recovered (s.accounts j)).homeId = some x at hj
    change (recovered (s.accounts k)).homeId = some x at hk
    rw [recovered_homeId] at hj hk
    exact h.distinct j k x hj hk
  identified k hk := by
    change (recovered (s.accounts k)).homeId.isSome
    rw [recovered_homeId]
    exact (recovered_connected hk).elim (h.identified k) fun hid => hid
  waits k hk := absurd hk (recovered_not_connecting (s.accounts k))
  opened k p hp := by cases hp
  live k p hp := by cases hp
  orderly := h.orderly

theorem Sound.perm {s : Shared} {ts us : List Task} (h : Sound s ts) (hperm : ts.Perm us) :
    Sound s us := by
  have hnumbers := hperm.filterMap Task.number
  refine { h with numbers := hnumbers.nodup h.numbers
                  below := fun n hn => h.below n (hnumbers.mem_iff.mpr hn)
                  waits := fun k hk => ?_ }
  obtain ⟨p, hp, t, ht, htries⟩ := h.waits k hk
  exact ⟨p, hp, t, hperm.mem_iff.mp ht, htries⟩

theorem invariant : Invariant server always Sound where
  perm _ _ _ hperm h := h.perm hperm
  enter r _ _ h _ := enter_sound r h
  resume t x _ _ h _ := resume_sound t x h
  restart _ ts h := by
    rw [Server.filter_survives (fun _ => rfl) ts]
    exact restart_sound h

theorem initial_sound : Sound initial.shared initial.waiting where
  numbers := List.nodup_nil
  below n hn := absurd hn List.not_mem_nil
  logged k n hn := absurd hn List.not_mem_nil
  distinct j k x hj := by cases hj
  identified k hk := by cases hk
  waits k hk := by cases hk
  opened k p hp := by cases hp
  live k p hp := by cases hp
  orderly := trivial

theorem run_sound (es : List (Event Request Input)) :
    Sound (server.run initial es).shared (server.run initial es).waiting :=
  invariant.run_always initial_sound es

/-! ### The fourth slot -/

/-- The id does not begin as that of a connection of the host does. -/
def Foreign (id : String) : Prop := ¬"m365:".toList <+: id.toList

theorem HostConnection.not_foreign (c : HostConnection) : ¬Foreign c.homeId := by
  refine not_not.mpr ?_
  rw [HostConnection.homeId, String.toList_append, String.toList_append, String.toList_append,
    List.append_assoc, List.append_assoc]
  exact List.prefix_append _ _

def Input.Foreign : Input → Prop
  | .answer (.ok (some a)) => Logins.Foreign a.homeAccountId
  | _ => True

/-- The ids of the library are its own: no account of it has one that the host gives to a
connection. -/
def libraryIds : Condition Shared Task Request Input where
  enter _ _ _ := True
  resume _ x _ _ := x.Foreign

/-- No slot of the table has an id of the host. -/
def ForeignIds (s : Shared) : Prop := ∀ k x, (s.accounts k).homeId = some x → Foreign x

/-- An account gets no id but a foreign one. -/
theorem ForeignIds.update {s s' : Shared} (h : ForeignIds s) {k : Slot} {a : Account}
    (haccounts : s'.accounts = Function.update s.accounts k a)
    (ha : ∀ x, a.homeId = some x → (s.accounts k).homeId = some x ∨ Foreign x) : ForeignIds s' := by
  intro j x hj
  rw [haccounts] at hj
  by_cases hjk : j = k
  · subst hjk
    rw [Function.update_self] at hj
    exact (ha x hj).elim (h j x) fun hx => hx
  · rw [Function.update_of_ne hjk] at hj
    exact h j x hj

theorem foreignIds_enter (r : Request) {s : Shared} (h : ForeignIds s) :
    ForeignIds (enter r s).1 := by
  have hdisconnect : ∀ k remove, ForeignIds (disconnect k remove s) := by
    intro k remove
    cases k with
    | none => exact h
    | some k =>
      unfold disconnect
      dsimp only
      by_cases hhas : s.has k
      · simp only [hhas, Bool.not_true, Bool.false_eq_true, if_false]
        exact h.update rfl fun x hx => by cases hx
      · simp only [hhas, Bool.not_false, if_true]
        exact h
  cases r with
  | add =>
    change ForeignIds (add s)
    unfold add
    split
    · exact h
    · exact h.update rfl fun x hx => .inl hx
  | connect k => exact h
  | disconnect k => exact hdisconnect k false
  | remove k => exact hdisconnect k true
  | settings clientId => exact h
  | link c => exact h

theorem foreignIds_connect (k : Option Slot) (label : String) {s : Shared} (h : ForeignIds s) :
    ForeignIds (connect k label s).1 := by
  cases k with
  | none => exact h
  | some k =>
    unfold connect
    dsimp only
    split_ifs
    · exact h
    · exact h
    · exact h
    · exact h.update rfl fun x hx => .inl hx

theorem foreignIds_answered (k : Slot) (n : ℕ) {result : Option MicrosoftAccount} {s : Shared}
    (h : ForeignIds s) (hresult : (Input.answer (.ok result)).Foreign) :
    ForeignIds (answered k n result s).1 := by
  unfold answered
  split_ifs with hawaits
  · exact h
  · cases result with
    | none => exact h
    | some a =>
      dsimp only
      split_ifs with hduplicate
      · exact h
      · refine h.update rfl fun x hx => .inr ?_
        cases hx
        exact hresult

theorem foreignIds_failed (k : Slot) (n : ℕ) (e : Failure) {s : Shared} (h : ForeignIds s) :
    ForeignIds (failed k n e s).1 := by
  unfold failed
  dsimp only
  split_ifs with hawaits hhas hid
  · exact h
  · exact h
  · exact h.update rfl fun x hx => .inl hx
  · exact h.update rfl fun x hx => .inl hx

theorem foreignIds_resume (t : Task) (x : Input) {s : Shared} (h : ForeignIds s)
    (hx : x.Foreign) : ForeignIds (resume t x s).1 := by
  cases t with
  | body k =>
    cases x with
    | body label =>
      cases label with
      | error m => exact h
      | ok text =>
        rw [resume]
        cases string text 60 with
        | error m => exact h
        | ok label => exact foreignIds_connect k label h
    | code | answer | turn => exact h
  | acquiring k n =>
    cases x with
    | code userCode =>
      change ForeignIds (showCode k n userCode s)
      unfold showCode
      split_ifs
      · exact h
      · exact h
    | answer result =>
      cases result with
      | error e => exact h
      | ok result => exact foreignIds_answered k n h hx
    | body | turn => exact h
  | catching k n e =>
    cases x with
    | turn => exact foreignIds_failed k n e h
    | body | code | answer => exact h
  | finishing k n =>
    cases x with
    | turn =>
      change ForeignIds (finished k n s)
      unfold finished
      split_ifs
      · exact h
      · exact h
    | body | code | answer => exact h

theorem foreignIds_invariant : Invariant server libraryIds fun s _ => ForeignIds s :=
  .of_shared (fun r _ _ h _ => foreignIds_enter r h) (fun t x _ _ h hx => foreignIds_resume t x h hx)
    fun s h k x hk => by
      change (recovered (s.accounts k)).homeId = some x at hk
      rw [recovered_homeId] at hk
      exact h k x hk

theorem run_foreignIds {es : List (Event Request Input)}
    (h : Along server.step libraryIds.At initial es) : ForeignIds (server.run initial es).shared :=
  foreignIds_invariant.run (fun k x hk => by cases hk) h

/-! ### Every run -/

/-- The home account id of a connected slot; `none` is the fourth slot. -/
def Shared.connectedId (s : Shared) : Option Slot → Option String
  | none => s.host.map HostConnection.homeId
  | some k => if (s.accounts k).status = .connected then (s.accounts k).homeId else none

theorem Shared.homeId_of_connectedId {s : Shared} {k : Slot} {x : String}
    (h : s.connectedId (some k) = some x) : (s.accounts k).homeId = some x := by
  unfold Shared.connectedId at h
  dsimp only at h
  split_ifs at h
  exact h

/-- In every order of requests, logins and restarts: a login that was started before its slot was
disconnected or removed does not connect it later; every connected slot has an id, which no other
connected slot has, the one of the host included when the ids of the library are its own; and a slot
that is shown as connecting has a pending login, which can still end. -/
theorem logins_sound (es : List (Event Request Input)) :
    let state := server.run initial es
    (∀ k n newer between older,
      state.shared.log = newer ++ .connected k n :: (between ++ .closed k :: older) →
        .started k n ∉ older) ∧
    (∀ k, (state.shared.accounts k).status = .connected →
      (state.shared.connectedId (some k)).isSome) ∧
    (∀ (j k : Slot) x, state.shared.connectedId (some j) = some x →
      state.shared.connectedId (some k) = some x → j = k) ∧
    (Along server.step libraryIds.At initial es →
      ∀ j k x, state.shared.connectedId j = some x → state.shared.connectedId k = some x → j = k) ∧
    ∀ k, (state.shared.accounts k).status = .connecting →
      ∃ p, state.shared.pending k = some p ∧ ∃ t ∈ state.waiting, t.Tries k p.request := by
  intro state
  have h : Sound state.shared state.waiting := run_sound es
  have hdistinct : ∀ (j k : Slot) x, state.shared.connectedId (some j) = some x →
      state.shared.connectedId (some k) = some x → j = k := fun j k x hj hk =>
    h.distinct j k x (Shared.homeId_of_connectedId hj) (Shared.homeId_of_connectedId hk)
  refine ⟨fun k n newer between older hlog => ?_, fun k hk => ?_, hdistinct, fun hids => ?_, h.waits⟩
  · have horderly := h.orderly
    rw [hlog] at horderly
    exact horderly.not_before
  · rw [Shared.connectedId, if_pos hk]
    exact h.identified k hk
  · have hforeign : ForeignIds state.shared := run_foreignIds hids
    have hhost : ∀ (k : Slot) x, state.shared.connectedId (some k) = some x →
        state.shared.connectedId none ≠ some x := by
      intro k x hk hnone
      obtain ⟨c, -, rfl⟩ := Option.map_eq_some_iff.mp hnone
      exact c.not_foreign (hforeign k _ (Shared.homeId_of_connectedId hk))
    intro j k x hj hk
    cases j with
    | none =>
      cases k with
      | none => rfl
      | some k => exact absurd hj (hhost k x hk)
    | some j =>
      cases k with
      | none => exact absurd hk (hhost j x hj)
      | some k => rw [hdistinct j k x hj hk]

end ForgeOS.Galaxy.Logins
