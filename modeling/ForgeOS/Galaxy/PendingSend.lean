import ForgeOS.Galaxy.Submissions

/-! A message on its way from the page of a client to the host. The page keeps the message as pending
until it knows what has become of it; a page that has been loaded again asks the server whether the
message was recorded, and forgets it if it was not. -/

namespace ForgeOS.Galaxy.PendingSend

open ForgeOS.Library.Conditions ForgeOS.Library.Interleaving
open AgentHost (oneConversation)

/-! ### State -/

/-- `Submission` of the page: a message with the identifier it was given. -/
structure Pending where
  id : String
  text : String
  style : Js
  deriving DecidableEq, Repr

/-- The host, and the client: the pending entry of every recovery key, `sendingRef`, the number of
the page that is loaded, the identifiers given so far, and those whose entry was cleared since no
submission was recorded. -/
structure Shared where
  host : AgentHost.Shared
  pending : String → Option Pending
  sending : Bool
  page : ℕ
  used : List String
  cleared : List String

/-- Where a message is: on the page before it is posted (`send` waits for the recovery of its own key
and then of the conversation's), on the way, at the route before its body and before the health
check; the page waits for the answer. A question is on the way there and back. -/
inductive Task
  | preparing (page : ℕ) (p : Pending)
  | confirming (page : ℕ) (target : String) (p : Pending)
  | awaiting (page : ℕ) (target : String) (p : Pending)
  | travelling (target : String) (p : Pending)
  | body (target : String) (p : Pending)
  | health (target : String) (p : Pending)
  | asking (page : ℕ) (key : String) (p : Pending)
  | told (page : ℕ) (key : String) (p : Pending) (found : Bool)
  | host (t : AgentHost.Task)
  deriving DecidableEq, Repr

/-- `go` names the conversation of a message; `pass` says whether the route refuses it (a lock, an
incompatible worker) or goes on; `lost` is a connection that breaks. -/
inductive Input
  | go (target : String)
  | arrive
  | lost
  | pass (refusal : Option String)
  | answer
  | host (x : AgentHost.Input)
  deriving DecidableEq, Repr

/-- Besides sending and checking, the page is loaded again or shows the chat anew, other clients send
messages, and the host is reached by its other routes and by its workers. -/
inductive Request
  | send (key : String) (p : Pending)
  | check (key : String)
  | remount
  | reload
  | other (id : String) (p : Pending)
  | host (r : AgentHost.Request)
  deriving DecidableEq, Repr

/-! ### The page -/

/-- `crypto.randomUUID` gives an identifier that has not been given before. -/
def Shared.isNew (s : Shared) (id : String) : Bool :=
  !s.used.contains id && (s.host.submissions id).isNone

def send (key : String) (p : Pending) (s : Shared) : Shared × List Task :=
  if s.sending || (s.pending key).isSome || !s.isNew p.id then (s, [])
  else
    ({ s with
        pending := Function.update s.pending key (some p)
        sending := true
        used := p.id :: s.used }, [.preparing s.page p])

/-- `checkSubmission` up to its request. -/
def check (key : String) (s : Shared) : Shared × List Task :=
  match s.pending key with
  | some p => if s.sending then (s, []) else (s, [.asking s.page key p])
  | none => (s, [])

/-- `send` after the conversation is there, if the page still is. -/
def prepared (page : ℕ) (target : String) (p : Pending) (s : Shared) : Shared × List Task :=
  if page = s.page then
    ({ s with pending := Function.update s.pending target (some p) }, [.confirming page target p])
  else (s, [])

/-- `send` posts the message and waits for the answer. -/
def posted (page : ℕ) (target : String) (p : Pending) (s : Shared) : Shared × List Task :=
  if page = s.page then (s, [.travelling target p, .awaiting page target p]) else (s, [])

/-- The answer reaches `send`, or its connection breaks. -/
def answered (page : ℕ) (target : String) (ok : Bool) (s : Shared) : Shared :=
  if page = s.page then
    { s with
      pending := if ok then Function.update s.pending target none else s.pending
      sending := false }
  else s

/-- The answer reaches `checkSubmission`. -/
def checked (page : ℕ) (key : String) (p : Pending) (found : Bool) (s : Shared) : Shared :=
  if page = s.page ∧ (s.pending key).map (·.id) = some p.id then
    { s with
      pending := Function.update s.pending key none
      cleared := if found then s.cleared else p.id :: s.cleared }
  else s

/-! ### The server -/

/-- The host does something on behalf of a handler. -/
def Shared.onHost (s : Shared) (out : AgentHost.Shared × List AgentHost.Task) :
    Shared × List Task := ({ s with host := out.1 }, out.2.map .host)

/-- The messages route refuses a message. -/
def refuse (p : Pending) (message : String) (s : Shared) : Shared × List Task :=
  ({ s with host := s.host.reply p.id (.error message) }, [])

def enter : Request → Shared → Shared × List Task
  | .send key p, s => send key p s
  | .check key, s => check key s
  | .remount, s => ({ s with sending := false }, [])
  | .reload, s => ({ s with page := s.page + 1, sending := false }, [])
  | .other id p, s =>
    if s.isNew p.id then
      ({ s with used := p.id :: s.used }).onHost (AgentHost.submit id p.id p.text p.style s.host)
    else (s, [])
  | .host r, s => if r.submits.isNone then s.onHost (AgentHost.enter r s.host) else (s, [])

/-- A handler that is given something else than it waits for goes on waiting. -/
def resume : Task → Input → Shared → Shared × List Task
  | .preparing page p, .go target, s => prepared page target p s
  | .confirming page target p, .arrive, s => posted page target p s
  | .travelling target p, .arrive, s =>
    if (s.host.store.conversations target).isSome then (s, [.body target p])
    else refuse p "Conversation not found." s
  | .body target p, .pass none, s => (s, [.health target p])
  | .health target p, .pass none, s =>
    s.onHost (AgentHost.submit target p.id p.text p.style s.host)
  | .body _ p, .pass (some m), s | .health _ p, .pass (some m), s => refuse p m s
  | .travelling _ _, .lost, s | .body _ _, .lost, s => (s, [])
  | .awaiting page target p, .answer, s =>
    match s.host.replies.find? (·.1 = p.id) with
    | some (_, .ok _) => (answered page target true s, [])
    | some (_, .error _) => (answered page target false s, [])
    | none => (s, [.awaiting page target p])
  | .awaiting page target _, .lost, s => (answered page target false s, [])
  | .asking page key p, .arrive, s =>
    (s, [.told page key p (s.host.submissions p.id).isSome])
  | .told page key p found, .answer, s => (checked page key p found s, [])
  | .asking _ _ _, .lost, s | .told _ _ _ _, .lost, s => (s, [])
  | .host t, .host x, s => s.onHost (AgentHost.resume t x s.host)
  | task, _, s => (s, [task])

/-- The page and the network are not in the server. -/
def Task.survives : Task → Bool
  | .body _ _ | .health _ _ | .host _ => false
  | _ => true

def restart (s : Shared) : Shared := { s with host := AgentHost.restart s.host }

def server : Server Shared Task Request Input := ⟨enter, resume, restart, Task.survives⟩

/-- A page that has just been loaded, and a host with the tables as it finds them. -/
def initial (store : Store) (table : String → Option AgentHost.Submission) : State Shared Task :=
  ⟨⟨(AgentHost.initial store table).shared, fun _ => none, false, 0, [], []⟩, []⟩

/-! ### What has been asked for and not found -/

/-- The message that a handler carries. -/
def Task.message : Task → Option Pending
  | .preparing _ p | .confirming _ _ p | .awaiting _ _ p | .travelling _ p | .body _ p | .health _ p
  | .asking _ _ p | .told _ _ p _ => some p
  | .host _ => none

/-- The page that a handler belongs to. -/
def Task.ofPage : Task → Option ℕ
  | .preparing page _ | .confirming page _ _ | .awaiting page _ _ | .asking page _ _
  | .told page _ _ _ => some page
  | _ => none

/-- The message is unsent on the page that is loaded, or on its way to the host: it may still be
recorded. -/
def Task.mayReach (page : ℕ) : Task → Option String
  | .preparing page' p | .confirming page' _ p => if page' = page then some p.id else none
  | .travelling _ p | .body _ p | .health _ p => some p.id
  | _ => none

/-- The page that is loaded is going to learn that the message was not recorded. -/
def Task.unrecorded (page : ℕ) : Task → Option String
  | .told page' _ p false => if page' = page then some p.id else none
  | _ => none

/-- The server has said that the message was not recorded, or the page knows it already. -/
def Settled (s : Shared) (ts : List Task) (id : String) : Prop :=
  id ∈ s.cleared ∨ ∃ t ∈ ts, t.unrecorded s.page = some id

/-- A message that was not recorded is not, and nothing that carries it can reach the host; all
identifiers that are about have been given. -/
structure Sound (s : Shared) (ts : List Task) : Prop where
  unrecorded : ∀ id, Settled s ts id → s.host.submissions id = none
  unreached : ∀ id, Settled s ts id → ∀ t ∈ ts, t.mayReach s.page ≠ some id
  carried : ∀ t ∈ ts, ∀ p, t.message = some p → p.id ∈ s.used
  kept : ∀ key p, s.pending key = some p → p.id ∈ s.used
  given : ∀ id ∈ s.cleared, id ∈ s.used
  pages : ∀ t ∈ ts, ∀ page, t.ofPage = some page → page ≤ s.page

theorem message_of_unrecorded {page : ℕ} {t : Task} {id : String}
    (h : t.unrecorded page = some id) : ∃ p, t.message = some p ∧ p.id = id := by
  cases t with
  | told page' key p found =>
    cases found with
    | true => cases h
    | false =>
      rw [Task.unrecorded] at h
      split at h
      · exact ⟨p, rfl, Option.some.inj h⟩
      · cases h
  | _ => cases h

theorem Sound.used {s : Shared} {ts : List Task} (h : Sound s ts) {id : String}
    (hid : Settled s ts id) : id ∈ s.used := by
  rcases hid with hid | ⟨t, ht, hid⟩
  · exact h.given id hid
  · obtain ⟨p, hp, rfl⟩ := message_of_unrecorded hid
    exact h.carried t ht p hp

/-- A stretch after which nothing is settled that was not, and no settled message can reach the host
that could not. -/
theorem Sound.next {s s' : Shared} {ts : List Task} (before after : List Task)
    (h : Sound s (before ++ ts))
    (hpage : s'.page = s.page) (hused : ∀ id ∈ s.used, id ∈ s'.used)
    (hcleared : ∀ id ∈ s'.cleared, Settled s (before ++ ts) id)
    (hunrecorded : ∀ t ∈ after, ∀ id, t.unrecorded s.page = some id → Settled s (before ++ ts) id)
    (hreach : ∀ t ∈ after, ∀ id, t.mayReach s.page = some id → ¬Settled s (before ++ ts) id)
    (hrows : ∀ id, Settled s (before ++ ts) id → s'.host.submissions id = none)
    (hcarried : ∀ t ∈ after, ∀ p, t.message = some p → p.id ∈ s'.used)
    (hkept : ∀ key p, s'.pending key = some p → p.id ∈ s'.used)
    (hpages : ∀ t ∈ after, ∀ page, t.ofPage = some page → page ≤ s.page) :
    Sound s' (after ++ ts) := by
  have hsettled : ∀ id, Settled s' (after ++ ts) id → Settled s (before ++ ts) id := by
    rintro id (hid | ⟨t, ht, hid⟩)
    · exact hcleared id hid
    · rw [hpage] at hid
      rcases List.mem_append.mp ht with ht | ht
      · exact hunrecorded t ht id hid
      · exact .inr ⟨t, List.mem_append_right _ ht, hid⟩
  refine ⟨fun id hid => hrows id (hsettled id hid), fun id hid t ht => ?_, fun t ht p hp => ?_, hkept,
    fun id hid => hused id (h.used (hcleared id hid)), fun t ht page hp => ?_⟩
  · rw [hpage]
    rcases List.mem_append.mp ht with ht | ht
    · exact fun hid' => hreach t ht id hid' (hsettled id hid)
    · exact h.unreached id (hsettled id hid) t (List.mem_append_right _ ht)
  · rcases List.mem_append.mp ht with ht | ht
    · exact hcarried t ht p hp
    · exact hused p.id (h.carried t (List.mem_append_right _ ht) p hp)
  · rw [hpage]
    rcases List.mem_append.mp ht with ht | ht
    · exact hpages t ht page hp
    · exact h.pages t (List.mem_append_right _ ht) page hp

/-- A stretch of the host that leaves the rows of settled messages as they are. -/
theorem Sound.onHost {s : Shared} {ts : List Task} (before : List Task)
    (h : Sound s (before ++ ts)) (out : AgentHost.Shared × List AgentHost.Task)
    (hrows : ∀ id, Settled s (before ++ ts) id → out.1.submissions id = none) :
    Sound (s.onHost out).1 ((s.onHost out).2 ++ ts) := by
  have hhost : ∀ t ∈ (s.onHost out).2, t.message = none ∧ t.ofPage = none ∧
      t.mayReach s.page = none ∧ t.unrecorded s.page = none := by
    intro t ht
    obtain ⟨t', -, rfl⟩ := List.mem_map.mp ht
    exact ⟨rfl, rfl, rfl, rfl⟩
  refine Sound.next before _ h rfl (fun _ hid => hid) (fun id hid => .inl hid) (fun t ht id hid => ?_)
    (fun t ht id hid => ?_) hrows (fun t ht p hp => ?_) h.kept (fun t ht page hp => ?_)
  · rw [(hhost t ht).2.2.2] at hid
    cases hid
  · rw [(hhost t ht).2.2.1] at hid
    cases hid
  · rw [(hhost t ht).1] at hp
    cases hp
  · rw [(hhost t ht).2.1] at hp
    cases hp

/-- A handler ends, and at most the pending entries have changed. -/
theorem Sound.ends {s s' : Shared} {ts : List Task} (before : List Task)
    (h : Sound s (before ++ ts)) (hpage : s'.page = s.page) (hused : s'.used = s.used) (hcleared : s'.cleared = s.cleared)
    (hrows : s'.host.submissions = s.host.submissions)
    (hkept : ∀ key p, s'.pending key = some p → s.pending key = some p) : Sound s' ts :=
  Sound.next before [] h hpage (fun id hid => by rwa [hused])
    (fun id hid => .inl (by rwa [hcleared] at hid)) (fun _ ht => absurd ht List.not_mem_nil)
    (fun _ ht => absurd ht List.not_mem_nil) (fun id hid => by rw [hrows]; exact h.unrecorded id hid)
    (fun _ ht => absurd ht List.not_mem_nil)
    (fun key p hp => by rw [hused]; exact h.kept key p (hkept key p hp))
    (fun _ ht => absurd ht List.not_mem_nil)

/-- A handler goes on with the same message, no nearer to a settled one than before. -/
theorem Sound.goes {s : Shared} {t t' : Task} {ts : List Task} (h : Sound s (t :: ts))
    (hmessage : t'.message = t.message) (hpage : t'.ofPage = t.ofPage ∨ t'.ofPage = none)
    (hreach : t'.mayReach s.page = none ∨ t'.mayReach s.page = t.mayReach s.page)
    (hunrecorded : t'.unrecorded s.page = none) : Sound s (t' :: ts) := by
  refine Sound.next [t] [t'] h rfl (fun _ hid => hid) (fun id hid => .inl hid) ?_ ?_
    h.unrecorded ?_ h.kept ?_
  · intro u hu id hid
    rw [List.mem_singleton.mp hu, hunrecorded] at hid
    cases hid
  · intro u hu id hid hsettled
    rw [List.mem_singleton.mp hu] at hid
    rcases hreach with hnone | hsame
    · rw [hnone] at hid
      cases hid
    · exact h.unreached id hsettled t List.mem_cons_self (hsame ▸ hid)
  · intro u hu p hp
    rw [List.mem_singleton.mp hu, hmessage] at hp
    exact h.carried t List.mem_cons_self p hp
  · intro u hu page hp
    rw [List.mem_singleton.mp hu] at hp
    rcases hpage with hsame | hnone
    · exact h.pages t List.mem_cons_self page (hsame ▸ hp)
    · rw [hnone] at hp
      cases hp

/-! ### Steps -/

/-- When the server says that a message was not recorded to the page that is loaded, nothing that
carries the message can reach the host any more. -/
def NothingUnderWay : Condition Shared Task Request Input where
  enter _ _ _ := True
  resume
    | .asking page _ p, .arrive, s, ts =>
      page = s.page → s.host.submissions p.id = none → ∀ t ∈ ts, t.mayReach s.page ≠ some p.id
    | _, _, _, _ => True

theorem update_eq_some {f : String → Option Pending} {key key' : String} {v : Option Pending}
    {q : Pending} (h : Function.update f key v key' = some q) : v = some q ∨ f key' = some q := by
  by_cases hkey : key' = key
  · rw [hkey, Function.update_self] at h
    exact .inl h
  · rw [Function.update_of_ne hkey] at h
    exact .inr h

theorem isNew_iff {s : Shared} {id : String} :
    s.isNew id = true ↔ id ∉ s.used ∧ s.host.submissions id = none := by
  rw [Shared.isNew, Bool.and_eq_true, Bool.not_eq_true', Option.isNone_iff_eq_none]
  simp

theorem sound_send {s : Shared} {ts : List Task} (h : Sound s ts) (key : String) (p : Pending) :
    Sound (send key p s).1 ((send key p s).2 ++ ts) := by
  rw [send]
  split
  · exact h
  · next hguard =>
    have hnew : p.id ∉ s.used := by
      simp only [Bool.or_eq_true, not_or, Bool.not_eq_true, Bool.not_eq_false'] at hguard
      exact (isNew_iff.mp hguard.2).1
    refine Sound.next [] _ h rfl (fun id hid => List.mem_cons_of_mem _ hid)
      (fun id hid => .inl hid) ?_ ?_ h.unrecorded ?_ ?_ ?_
    · intro t ht id hid
      rw [List.mem_singleton.mp ht] at hid
      cases hid
    · intro t ht id hid hsettled
      rw [List.mem_singleton.mp ht, Task.mayReach, if_pos rfl, Option.some.injEq] at hid
      exact hnew (hid ▸ h.used hsettled)
    · intro t ht q hq
      rw [List.mem_singleton.mp ht, Task.message, Option.some.injEq] at hq
      exact hq ▸ List.mem_cons_self
    · intro key' q hq
      rcases update_eq_some hq with hq | hq
      · exact Option.some.inj hq ▸ List.mem_cons_self
      · exact List.mem_cons_of_mem _ (h.kept key' q hq)
    · intro t ht page hpage
      rw [List.mem_singleton.mp ht, Task.ofPage, Option.some.injEq] at hpage
      exact Nat.le_of_eq hpage.symm

theorem sound_check {s : Shared} {ts : List Task} (h : Sound s ts) (key : String) :
    Sound (check key s).1 ((check key s).2 ++ ts) := by
  rw [check]
  split
  · next p hp =>
    split
    · exact h
    · refine Sound.next [] _ h rfl (fun _ hid => hid) (fun id hid => .inl hid) ?_ ?_
        h.unrecorded ?_ h.kept ?_
      · intro t ht id hid
        rw [List.mem_singleton.mp ht] at hid
        cases hid
      · intro t ht id hid
        rw [List.mem_singleton.mp ht] at hid
        cases hid
      · intro t ht q hq
        rw [List.mem_singleton.mp ht, Task.message, Option.some.injEq] at hq
        exact hq ▸ h.kept key p hp
      · intro t ht page hpage
        rw [List.mem_singleton.mp ht, Task.ofPage, Option.some.injEq] at hpage
        exact Nat.le_of_eq hpage.symm
  · exact h

/-- Handlers of the page before do not count any more. -/
theorem sound_reload {s : Shared} {ts : List Task} (h : Sound s ts) :
    Sound { s with page := s.page + 1, sending := false } ts := by
  have hpage : ∀ t ∈ ts, ∀ page, t.ofPage = some page → page ≠ s.page + 1 := fun t ht page hp =>
    Nat.ne_of_lt (Nat.lt_succ_of_le (h.pages t ht page hp))
  have hsettled : ∀ id, Settled { s with page := s.page + 1, sending := false } ts id →
      Settled s ts id := by
    rintro id (hid | ⟨t, ht, hid⟩)
    · exact .inl hid
    · cases t with
      | told page key p found =>
        cases found with
        | true => cases hid
        | false =>
          rw [Task.unrecorded, if_neg (hpage _ ht page rfl)] at hid
          cases hid
      | _ => cases hid
  refine ⟨fun id hid => h.unrecorded id (hsettled id hid), fun id hid t ht => ?_, h.carried, h.kept,
    h.given, fun t ht page hp => Nat.le_succ_of_le (h.pages t ht page hp)⟩
  have hold := h.unreached id (hsettled id hid) t ht
  cases t with
  | preparing page p =>
    rw [Task.mayReach, if_neg (hpage _ ht page rfl)]
    exact fun hid' => nomatch hid'
  | confirming page target p =>
    rw [Task.mayReach, if_neg (hpage _ ht page rfl)]
    exact fun hid' => nomatch hid'
  | _ => exact hold

theorem sound_enter (r : Request) (s : Shared) (ts : List Task) (h : Sound s ts) :
    Sound (enter r s).1 ((enter r s).2 ++ ts) := by
  cases r with
  | send key p => exact sound_send h key p
  | check key => exact sound_check h key
  | remount => exact Sound.ends [] h rfl rfl rfl rfl fun _ _ hp => hp
  | reload => exact sound_reload h
  | other id p =>
    rw [enter]
    split
    · next hnew =>
      rw [isNew_iff] at hnew
      have hmore : Sound { s with used := p.id :: s.used } ts :=
        ⟨h.unrecorded, h.unreached, fun t ht q hq => List.mem_cons_of_mem _ (h.carried t ht q hq),
          fun key q hq => List.mem_cons_of_mem _ (h.kept key q hq),
          fun id hid => List.mem_cons_of_mem _ (h.given id hid), h.pages⟩
      refine Sound.onHost [] hmore _ fun other hother => ?_
      refine AgentHost.fresh_submit (h.unrecorded other hother) ?_ id p.text p.style
      rintro rfl
      exact hnew.1 (h.used hother)
    · exact h
  | host r =>
    rw [enter]
    split
    · next hr =>
      exact Sound.onHost [] h _ fun id hid =>
        (AgentHost.idle_enter (Option.isNone_iff_eq_none.mp hr) s.host).1.fresh id
          (h.unrecorded id hid)
    · exact h

theorem sound_refuse {s : Shared} {t : Task} {ts : List Task} (h : Sound s (t :: ts)) (p : Pending)
    (m : String) : Sound (refuse p m s).1 ((refuse p m s).2 ++ ts) :=
  Sound.ends [t] h rfl rfl rfl rfl fun _ _ hp => hp

theorem sound_answered {s : Shared} {t : Task} {ts : List Task} (h : Sound s (t :: ts)) (page : ℕ)
    (target : String) (ok : Bool) : Sound (answered page target ok s) ts := by
  rw [answered]
  split
  · refine Sound.ends [t] h rfl rfl rfl rfl fun key p hp => ?_
    dsimp only at hp
    split at hp
    · rcases update_eq_some hp with hp | hp
      · cases hp
      · exact hp
    · exact hp
  · exact Sound.ends [t] h rfl rfl rfl rfl fun _ _ hp => hp

theorem sound_checked {s : Shared} {page : ℕ} {key : String} {p : Pending} {found : Bool}
    {ts : List Task} (h : Sound s (.told page key p found :: ts)) :
    Sound (checked page key p found s) ts := by
  rw [checked]
  split
  · next hpage =>
    refine Sound.next [.told page key p found] [] h rfl (fun _ hid => hid) ?_
      (fun _ ht => absurd ht List.not_mem_nil) (fun _ ht => absurd ht List.not_mem_nil)
      h.unrecorded (fun _ ht => absurd ht List.not_mem_nil) ?_
      (fun _ ht => absurd ht List.not_mem_nil)
    · intro id hid
      cases found with
      | true => exact .inl hid
      | false =>
        rcases List.mem_cons.mp hid with rfl | hid
        · exact .inr ⟨_, List.mem_cons_self, by rw [Task.unrecorded, if_pos hpage.1]⟩
        · exact .inl hid
    · intro key' q hq
      rcases update_eq_some hq with hq | hq
      · cases hq
      · exact h.kept key' q hq
  · exact Sound.ends [_] h rfl rfl rfl rfl fun _ _ hp => hp

/-- The server answers a question while nothing that carries the message is under way. -/
theorem sound_asked {s : Shared} {page : ℕ} {key : String} {p : Pending} {ts : List Task}
    (h : Sound s (.asking page key p :: ts))
    (hC : page = s.page → s.host.submissions p.id = none →
      ∀ t ∈ ts, t.mayReach s.page ≠ some p.id) :
    Sound s (.told page key p (s.host.submissions p.id).isSome :: ts) := by
  have hsettled : ∀ id, Settled s (.told page key p (s.host.submissions p.id).isSome :: ts) id →
      Settled s (.asking page key p :: ts) id ∨
        page = s.page ∧ s.host.submissions p.id = none ∧ p.id = id := by
    rintro id (hid | ⟨t, ht, hid⟩)
    · exact .inl (.inl hid)
    · rcases List.mem_cons.mp ht with rfl | ht
      · cases hrow : s.host.submissions p.id with
        | some r =>
          rw [hrow] at hid
          cases hid
        | none =>
          rw [hrow, Option.isSome_none, Task.unrecorded] at hid
          split at hid
          · next hpage => exact .inr ⟨hpage, rfl, Option.some.inj hid⟩
          · cases hid
      · exact .inl (.inr ⟨t, List.mem_cons_of_mem _ ht, hid⟩)
  refine ⟨fun id hid => ?_, fun id hid t ht => ?_, fun t ht q hq => ?_, h.kept, h.given,
    fun t ht page' hp => ?_⟩
  · rcases hsettled id hid with hold | ⟨-, hrow, rfl⟩
    · exact h.unrecorded id hold
    · exact hrow
  · rcases List.mem_cons.mp ht with rfl | ht
    · exact fun hid' => nomatch hid'
    · rcases hsettled id hid with hold | ⟨hpage, hrow, rfl⟩
      · exact h.unreached id hold t (List.mem_cons_of_mem _ ht)
      · exact hC hpage hrow t ht
  · rcases List.mem_cons.mp ht with rfl | ht
    · exact h.carried _ List.mem_cons_self q hq
    · exact h.carried t (List.mem_cons_of_mem _ ht) q hq
  · rcases List.mem_cons.mp ht with rfl | ht
    · exact h.pages _ List.mem_cons_self page' hp
    · exact h.pages t (List.mem_cons_of_mem _ ht) page' hp

theorem sound_prepared {s : Shared} {page : ℕ} {p : Pending} {ts : List Task}
    (h : Sound s (.preparing page p :: ts)) (target : String) :
    Sound (prepared page target p s).1 ((prepared page target p s).2 ++ ts) := by
  rw [prepared]
  split
  · have hgoes : Sound s (.confirming page target p :: ts) :=
      h.goes rfl (.inl rfl) (.inr rfl) rfl
    refine ⟨hgoes.unrecorded, hgoes.unreached, hgoes.carried, fun key q hq => ?_, hgoes.given,
      hgoes.pages⟩
    rcases update_eq_some hq with hq | hq
    · exact Option.some.inj hq ▸ h.carried _ List.mem_cons_self p rfl
    · exact h.kept key q hq
  · exact Sound.ends [_] h rfl rfl rfl rfl fun _ _ hp => hp

theorem sound_posted {s : Shared} {page : ℕ} {target : String} {p : Pending} {ts : List Task}
    (h : Sound s (.confirming page target p :: ts)) :
    Sound (posted page target p s).1 ((posted page target p s).2 ++ ts) := by
  rw [posted]
  split
  · next hpage =>
    refine Sound.next [_] _ h rfl (fun _ hid => hid) (fun id hid => .inl hid) ?_ ?_ h.unrecorded ?_
      h.kept ?_
    · simp [Task.unrecorded]
    · intro t ht id hid hsettled
      have hhere := h.unreached id hsettled _ List.mem_cons_self
      rw [Task.mayReach, if_pos hpage] at hhere
      rcases List.mem_cons.mp ht with rfl | ht
      · exact hhere hid
      · rw [List.mem_singleton.mp ht] at hid
        cases hid
    · intro t ht q hq
      refine h.carried _ List.mem_cons_self q ?_
      rcases List.mem_cons.mp ht with rfl | ht
      · exact hq
      · rw [List.mem_singleton.mp ht] at hq
        exact hq
    · intro t ht page' hp
      refine h.pages _ List.mem_cons_self page' ?_
      rcases List.mem_cons.mp ht with rfl | ht
      · cases hp
      · rw [List.mem_singleton.mp ht] at hp
        exact hp
  · exact Sound.ends [_] h rfl rfl rfl rfl fun _ _ hp => hp

theorem sound_resume (t : Task) (x : Input) (s : Shared) (ts : List Task) (h : Sound s (t :: ts))
    (hC : NothingUnderWay.resume t x s ts) :
    Sound (resume t x s).1 ((resume t x s).2 ++ ts) := by
  have hend : Sound s ts := Sound.ends [t] h rfl rfl rfl rfl fun _ _ hp => hp
  cases t <;> cases x
  case preparing.go page p target => exact sound_prepared h target
  case confirming.arrive page target p => exact sound_posted h
  case awaiting.lost page target p => exact sound_answered h page target false
  case awaiting.answer page target p =>
    rw [resume]
    split
    · exact sound_answered h page target true
    · exact sound_answered h page target false
    · exact h
  case travelling.arrive target p =>
    rw [resume]
    split
    · exact h.goes rfl (.inl rfl) (.inr rfl) rfl
    · exact sound_refuse h p _
  case travelling.lost target p => exact hend
  case body.lost target p => exact hend
  case body.pass target p refusal =>
    cases refusal with
    | none => exact h.goes rfl (.inl rfl) (.inr rfl) rfl
    | some m => exact sound_refuse h p m
  case health.pass target p refusal =>
    cases refusal with
    | some m => exact sound_refuse h p m
    | none =>
      refine Sound.onHost [_] h _ fun id hid => ?_
      refine AgentHost.fresh_submit (h.unrecorded id hid) ?_ target p.text p.style
      rintro rfl
      exact h.unreached p.id hid _ List.mem_cons_self rfl
  case asking.arrive page key p => exact sound_asked h hC
  case asking.lost page key p => exact hend
  case told.answer page key p found => exact sound_checked h
  case told.lost page key p found => exact hend
  case host.host t x =>
    exact Sound.onHost [_] h _ fun id hid => AgentHost.fresh_resume (h.unrecorded id hid) t x
  all_goals exact h

theorem sound_invariant : Invariant server NothingUnderWay Sound where
  perm s ts us hperm h := by
    have hmem : ∀ t, t ∈ us → t ∈ ts := fun t ht => hperm.mem_iff.mpr ht
    have hsettled : ∀ id, Settled s us id → Settled s ts id := by
      rintro id (hid | ⟨t, ht, hid⟩)
      · exact .inl hid
      · exact .inr ⟨t, hmem t ht, hid⟩
    exact ⟨fun id hid => h.unrecorded id (hsettled id hid),
      fun id hid t ht => h.unreached id (hsettled id hid) t (hmem t ht),
      fun t ht => h.carried t (hmem t ht), h.kept, h.given, fun t ht => h.pages t (hmem t ht)⟩
  enter r s ts h _ := sound_enter r s ts h
  resume t x s ts h hC := sound_resume t x s ts h hC
  restart s ts h := by
    have hmem : ∀ t, t ∈ ts.filter server.survives → t ∈ ts := fun t ht => List.mem_of_mem_filter ht
    have hsettled : ∀ id, Settled (restart s) (ts.filter server.survives) id → Settled s ts id := by
      rintro id (hid | ⟨t, ht, hid⟩)
      · exact .inl hid
      · exact .inr ⟨t, hmem t ht, hid⟩
    refine ⟨fun id hid => ?_, fun id hid t ht => h.unreached id (hsettled id hid) t (hmem t ht),
      fun t ht => h.carried t (hmem t ht), h.kept, h.given, fun t ht => h.pages t (hmem t ht)⟩
    show (s.host.submissions id).map _ = none
    rw [h.unrecorded id (hsettled id hid), Option.map_none]

/-- In a run in which no question about a message is answered with no while the message is still
under way, the host never records a message whose pending entry was cleared for that answer. -/
theorem cleared_never_recorded (store : Store) (table : String → Option AgentHost.Submission)
    (es : List (Event Request Input))
    (h : Along server.step NothingUnderWay.At (initial store table) es) :
    let s := (server.run (initial store table) es).shared
    ∀ id ∈ s.cleared, s.host.submissions id = none := by
  intro s id hid
  have hinit : Sound (initial store table).shared (initial store table).waiting := by
    refine ⟨?_, ?_, fun _ ht => absurd ht List.not_mem_nil, fun _ _ hp => (nomatch hp),
      fun _ hid => absurd hid List.not_mem_nil, fun _ ht => absurd ht List.not_mem_nil⟩
    · rintro id (hid | ⟨t, ht, -⟩)
      · cases hid
      · cases ht
    · exact fun _ _ _ ht => absurd ht List.not_mem_nil
  exact (sound_invariant.run hinit h).unrecorded id (.inl hid)

/-- A message to the conversation. -/
def message : Pending := ⟨"m", "Summarize this.", .undefined⟩

/-- The message is sent but lost on its way; the page is loaded again, checks and clears it. -/
def lostOnTheWay : List (Event Request Input) :=
  [.arrive (.send "talk" message), .wake 0 (.go "talk"), .wake 0 .arrive, .wake 0 .lost,
    .arrive .reload, .arrive (.check "talk"), .wake 0 .arrive, .wake 0 .answer]

theorem cleared_never_recorded_lost :
    let s := (server.run (initial oneConversation fun _ => none) lostOnTheWay).shared
    ∀ id ∈ s.cleared, s.host.submissions id = none :=
  cleared_never_recorded oneConversation (fun _ => none) lostOnTheWay (by
    refine ⟨trivial, trivial, trivial, trivial, trivial, trivial, ?_, trivial, trivial⟩
    intro _ _
    decide)

/-- The page is loaded again while the message is at the route, waiting for its body. -/
theorem cleared_then_recorded :
    let s := (server.run (initial oneConversation fun _ => none)
      [.arrive (.send "talk" message), .wake 0 (.go "talk"), .wake 0 .arrive, .wake 0 .arrive,
        .arrive .reload, .arrive (.check "talk"), .wake 0 .arrive, .wake 0 .answer,
        .wake 0 (.pass none), .wake 0 (.pass none)]).shared
    "m" ∈ s.cleared ∧ (s.host.submissions "m").isSome = true := by
  decide

end ForgeOS.Galaxy.PendingSend
