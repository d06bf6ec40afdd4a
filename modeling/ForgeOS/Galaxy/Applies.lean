import Mathlib.Logic.Function.Basic
import ForgeOS.Galaxy.Changes
import ForgeOS.Library.Interleaving
import ForgeOS.Library.NamedLocks

/-! Conversations that draft one project and apply their changes to its folder. An apply lists the
changes twice, once for the route and once for itself, and writes the file after the second list; its
lock is that of its conversation. -/

namespace ForgeOS.Galaxy.Applies

open ForgeOS.Library.Conditions ForgeOS.Library.Interleaving ForgeOS.Library.NamedLocks
open Changes

/-! ### State -/

/-- A file that has been written: what the source was, and what the baseline said of it. -/
structure Applied where
  id : String
  path : String
  before : Option Bytes
  entry : Option String
  after : Bytes
  deriving DecidableEq, Repr

/-- The folder of the project, the drafts by conversation, the conversations that are locked, the files
of the project that were imported from a cloud, and what has been applied, the last first. -/
structure Shared where
  source : Folder
  drafts : String → Option Draft
  locks : List String
  imported : List String
  applied : List Applied

/-- The apply route before its body, in its own list of changes, in that of `applyLocalChange`, and in
`checkpointDraft`. -/
inductive Task
  | body (id : String)
  | listing (id path : String) (l : Listing)
  | applying (id path : String) (l : Listing)
  | checkpointing (id : String) (m : Manifest)
  deriving DecidableEq, Repr

inductive Input
  | body (path : String)
  | shown
  | committed
  | failed
  deriving DecidableEq, Repr

/-- An apply begins; the folder of the project is changed by somebody else; a draft is edited. -/
inductive Request
  | apply (id : String)
  | edit (path : String) (content : Option Bytes)
  | write (id : String) (files : List (String × Bytes))
  deriving DecidableEq, Repr

/-- What a handler holds from the step that takes it to its end. -/
def Task.holds : Task → List String
  | .body _ => []
  | .listing id _ _ | .applying id _ _ | .checkpointing id _ => [id]

/-- How a handler goes on after a list of changes. -/
inductive Outcome
  | waits (t : Task)
  | refused
  | installs
  deriving DecidableEq, Repr

/-! ### Handlers -/

def Shared.release (s : Shared) (id : String) : Shared :=
  { s with locks := s.locks.filter (· ∉ [id]) }

def Shared.writeManifest (s : Shared) (id : String) (m : Manifest) : Shared :=
  { s with drafts := Function.update s.drafts id ((s.drafts id).map ({ · with manifest := m })) }

section Digest

variable (digest : Bytes → String)

/-- `applyLocalChange` when it has its list. -/
def applyOutcome (id path : String) : Progress → Outcome
  | .shows l => .waits (.applying id path l)
  | .listed result =>
    match result.find? (·.path = path) with
    | some ch => if !ch.applicable || ch.conflict then .refused else .installs
    | none => .refused

/-- The route when it has its list. -/
def routeOutcome (id path : String) (d : Draft) (s : Shared) : Progress → Outcome
  | .shows l => .waits (.listing id path l)
  | .listed result =>
    match result.find? (·.path = path) with
    | some ch =>
      if !ch.applicable || s.imported.contains path then .refused
      else applyOutcome id path (changes digest d s.source)
    | none => .refused

/-- The file is copied over the source, and `checkpointDraft` runs up to its wait. -/
def install (id path : String) (d : Draft) (s : Shared) : Shared × List Task :=
  match d.read path with
  | some content =>
    ({ s with
        source := Function.update s.source path (some content)
        applied := ⟨id, path, s.source path, d.manifest.get path, content⟩ :: s.applied },
      [.checkpointing id (checkpoint digest d path content)])
  | none => (s.release id, [])

def Outcome.run (id path : String) (d : Draft) (s : Shared) : Outcome → Shared × List Task
  | .waits t => (s, [t])
  | .refused => (s.release id, [])
  | .installs => install digest id path d s

def enter : Request → Shared → Shared × List Task
  | .apply id, s => (s, [.body id])
  | .edit path content, s => ({ s with source := Function.update s.source path content }, [])
  | .write id files, s =>
    ({ s with
        drafts := Function.update s.drafts id ((s.drafts id).map ({ · with files := files })) }, [])

/-- A handler that is given something else than it waits for goes on waiting. -/
def resume : Task → Input → Shared → Shared × List Task
  | .body id, .body path, s =>
    match s.drafts id with
    | some d =>
      if s.locks.contains id then (s, [])
      else
        let locked := { s with locks := id :: s.locks }
        (routeOutcome digest id path d s (changes digest d s.source)).run digest id path d locked
    | none => (s, [])
  | .body _, .failed, s => (s, [])
  | .listing id path l, .shown, s =>
    match s.drafts id with
    | some d =>
      (routeOutcome digest id path d s (l.shown digest d s.source)).run digest id path d s
    | none => (s.release id, [])
  | .applying id path l, .shown, s =>
    match s.drafts id with
    | some d => (applyOutcome id path (l.shown digest d s.source)).run digest id path d s
    | none => (s.release id, [])
  | .checkpointing id m, .committed, s => ((s.writeManifest id m).release id, [])
  | .listing id _ _, .failed, s | .applying id _ _, .failed, s | .checkpointing id _, .failed, s =>
    (s.release id, [])
  | task, _, s => (s, [task])

def server : Server Shared Task Request Input :=
  ⟨enter, resume digest, fun s => { s with locks := [] }, fun _ => false⟩

end Digest

/-- Any folder and any drafts of it. -/
def initial (source : Folder) (drafts : String → Option Draft) (imported : List String) :
    State Shared Task :=
  ⟨⟨source, drafts, [], imported, []⟩, []⟩

/-! ### The condition -/

/-- The apply has compared the file, found no conflict, and waits for git to show others. -/
def Task.compared : Task → String → Bool
  | .applying _ path l, p => path == p && found l.result path
  | _, _ => false

section Condition

variable (digest : Bytes → String)

/-- The file that the next stretch of a handler writes. -/
def writes : Task → Input → Shared → Option String
  | .body id, .body path, s =>
    (s.drafts id).bind fun d =>
      if !s.locks.contains id &&
          routeOutcome digest id path d s (changes digest d s.source) = .installs then some path
      else none
  | .listing id path l, .shown, s =>
    (s.drafts id).bind fun d =>
      if routeOutcome digest id path d s (l.shown digest d s.source) = .installs then some path
      else none
  | .applying id path l, .shown, s =>
    (s.drafts id).bind fun d =>
      if applyOutcome id path (l.shown digest d s.source) = .installs then some path else none
  | _, _, _ => none

/-- Nobody writes a file that an apply has compared and is still going to write. -/
def Alone : Condition Shared Task Request Input where
  enter
    | .edit path _, _, ts => ∀ t ∈ ts, ¬t.compared path
    | _, _, _ => True
  resume t x s ts := ∀ path ∈ writes digest t x s, ∀ u ∈ ts, ¬u.compared path

end Condition

/-! ### What an apply has compared -/

variable {digest : Bytes → String}

/-- An apply works with the baseline of its draft, and what it has compared is still so. -/
def Task.Sound (digest : Bytes → String) (s : Shared) : Task → Prop
  | .applying id path l =>
    (∃ d, s.drafts id = some d ∧ d.manifest = l.manifest) ∧
      (found l.result path → (s.source path).map digest = l.manifest.get path)
  | _ => True

structure Sound (digest : Bytes → String) (s : Shared) (ts : List Task) : Prop where
  locked : Held Task.holds s.locks ts
  tasks : ∀ t ∈ ts, t.Sound digest s
  applied : ∀ a ∈ s.applied, a.before.map digest = a.entry

/-- The source is written where nobody has compared it. -/
theorem sound_source {s s' : Shared} {t : Task} (h : t.Sound digest s)
    (hdrafts : s'.drafts = s.drafts)
    (hsource : ∀ path, t.compared path → s'.source path = s.source path) : t.Sound digest s' := by
  cases t with
  | applying id path l =>
    refine ⟨hdrafts ▸ h.1, fun hfound => ?_⟩
    rw [hsource path (by simp [Task.compared, hfound])]
    exact h.2 hfound
  | _ => trivial

/-- A draft is changed whose baseline no apply has read, or all but its baseline. -/
theorem sound_draft {s : Shared} {t : Task} (h : t.Sound digest s) {id : String}
    {f : Draft → Draft} (hf : t.holds ≠ [id] ∨ ∀ d, (f d).manifest = d.manifest) :
    t.Sound digest { s with drafts := Function.update s.drafts id ((s.drafts id).map f) } := by
  cases t with
  | applying other path l =>
    obtain ⟨⟨d, hd, hm⟩, hfound⟩ := h
    refine ⟨?_, hfound⟩
    by_cases hid : other = id
    · rcases hf with hf | hf
      · exact absurd (congrArg (fun i => [i]) hid) hf
      · refine ⟨f d, ?_, (hf d).trans hm⟩
        rw [← hid]
        exact (Function.update_self _ _ _).trans (by rw [hd]; rfl)
    · exact ⟨d, (Function.update_of_ne hid _ _).trans hd, hm⟩
  | _ => trivial

theorem applyOutcome_installs {id path : String} {p : Progress}
    (h : applyOutcome id path p = .installs) : found p.result path := by
  cases p with
  | shows l => cases h
  | listed result =>
    rw [applyOutcome] at h
    split at h
    · next ch hch =>
      split at h
      · cases h
      · next hok =>
        rw [Bool.or_eq_true, not_or, Bool.not_eq_true, Bool.not_eq_true] at hok
        exact found_of_find? hch hok.2
    · cases h

theorem applyOutcome_waits {id path : String} {p : Progress} {t : Task}
    (h : applyOutcome id path p = .waits t) : ∃ l, p = .shows l ∧ t = .applying id path l := by
  cases p with
  | shows l =>
    cases h
    exact ⟨l, rfl, rfl⟩
  | listed result =>
    rw [applyOutcome] at h
    split at h
    · split at h <;> cases h
    · cases h

/-- The route waits in its own list, or it comes to what `applyLocalChange` does. -/
theorem routeOutcome_cases (digest : Bytes → String) (id path : String) (d : Draft) (s : Shared) (p : Progress) :
    (∃ l, routeOutcome digest id path d s p = .waits (.listing id path l)) ∨
      routeOutcome digest id path d s p = .refused ∨
      routeOutcome digest id path d s p = applyOutcome id path (changes digest d s.source) := by
  cases p with
  | shows l => exact .inl ⟨l, rfl⟩
  | listed result =>
    rw [routeOutcome]
    split
    · split
      · exact .inr (.inl rfl)
      · exact .inr (.inr rfl)
    · exact .inr (.inl rfl)

/-- What must hold for a handler to go on as the outcome says. -/
structure Outcome.Sound (digest : Bytes → String) (id path : String) (d : Draft) (s : Shared)
    (o : Outcome) : Prop where
  waits : ∀ t, o = .waits t → t.holds = [id] ∧ t.Sound digest s
  installs : o = .installs → (s.source path).map digest = d.manifest.get path

theorem sound_applyOutcome {id path : String} {d : Draft} {s : Shared} {p : Progress}
    (hd : s.drafts id = some d) (hmanifest : ∀ l, p = .shows l → l.manifest = d.manifest)
    (hfound : found p.result path → (s.source path).map digest = d.manifest.get path) :
    (applyOutcome id path p).Sound digest id path d s where
  waits t ht := by
    obtain ⟨l, rfl, rfl⟩ := applyOutcome_waits ht
    refine ⟨rfl, ⟨d, hd, (hmanifest l rfl).symm⟩, fun h => ?_⟩
    rw [hmanifest l rfl]
    exact hfound h
  installs h := hfound (applyOutcome_installs h)

theorem sound_routeOutcome {id : String} (path : String) {d : Draft} {s : Shared} (p : Progress)
    (hd : s.drafts id = some d) : (routeOutcome digest id path d s p).Sound digest id path d s := by
  rcases routeOutcome_cases digest id path d s p with ⟨l, h⟩ | h | h
  · rw [h]
    refine ⟨fun t ht => ?_, nofun⟩
    cases ht
    exact ⟨rfl, trivial⟩
  · rw [h]
    exact ⟨nofun, nofun⟩
  · rw [h]
    exact sound_applyOutcome hd (fun l hl => scan_manifest hl) found_changes

/-- A handler that has the lock of its conversation goes on as the outcome says. -/
theorem sound_run {s : Shared} {ts : List Task} {id path : String} {d : Draft} {o : Outcome}
    (hlocked : ∀ t : Task, t.holds = [id] → Held Task.holds s.locks (t :: ts))
    (htasks : ∀ t ∈ ts, t.Sound digest s) (happlied : ∀ a ∈ s.applied, a.before.map digest = a.entry)
    (ho : o.Sound digest id path d s) (halone : o = .installs → ∀ t ∈ ts, ¬t.compared path) :
    Sound digest (o.run digest id path d s).1 ((o.run digest id path d s).2 ++ ts) := by
  have hreleased : Sound digest (s.release id) ts :=
    ⟨(hlocked (.checkpointing id []) rfl).release, fun t ht => sound_source (htasks t ht) rfl
      fun _ _ => rfl, happlied⟩
  cases o with
  | waits t =>
    obtain ⟨hholds, ht⟩ := ho.waits t rfl
    refine ⟨hlocked t hholds, fun u hu => ?_, happlied⟩
    rcases List.mem_cons.mp hu with rfl | hu
    · exact ht
    · exact htasks u hu
  | refused => exact hreleased
  | installs =>
    rw [Outcome.run, install]
    split
    · next content _ =>
      refine ⟨hlocked _ rfl, fun u hu => ?_, fun a ha => ?_⟩
      · rcases List.mem_cons.mp hu with rfl | hmem
        · trivial
        · refine sound_source (htasks u hmem) rfl fun p hp => ?_
          exact Function.update_of_ne (fun heq : p = path => halone rfl u hmem (heq ▸ hp)) _ _
      · rcases List.mem_cons.mp ha with rfl | ha
        · exact ho.installs rfl
        · exact happlied a ha
    · exact hreleased

theorem sound_enter {s : Shared} {ts : List Task} (h : Sound digest s ts) (r : Request)
    (halone : (Alone digest).enter r s ts) : Sound digest (enter r s).1 ((enter r s).2 ++ ts) := by
  cases r with
  | apply id =>
    refine ⟨h.locked.more (l := [_]) (by simp [Task.holds]), fun t ht => ?_, h.applied⟩
    rcases List.mem_cons.mp ht with rfl | ht
    · trivial
    · exact h.tasks t ht
  | edit path content =>
    refine ⟨h.locked, fun t ht => sound_source (h.tasks t ht) rfl fun p hp => ?_, h.applied⟩
    exact Function.update_of_ne (fun heq : p = path => halone t ht (heq ▸ hp)) _ _
  | write id files =>
    exact ⟨h.locked, fun t ht => sound_draft (h.tasks t ht) (.inr fun _ => rfl), h.applied⟩

theorem sound_resume {s : Shared} {ts : List Task} {t : Task} (h : Sound digest s (t :: ts)) (x : Input)
    (halone : (Alone digest).resume t x s ts) :
    Sound digest (resume digest t x s).1 ((resume digest t x s).2 ++ ts) := by
  have htasks : ∀ u ∈ ts, u.Sound digest s := fun u hu => h.tasks u (List.mem_cons_of_mem _ hu)
  have hlocked : ∀ {id}, t.holds = [id] → ∀ u : Task, u.holds = [id] →
      Held Task.holds s.locks (u :: ts) := fun ht u hu => h.locked.goes (hu.trans ht.symm)
  have hends : ∀ {id}, t.holds = [id] → Sound digest (s.release id) ts := fun ht =>
    ⟨(hlocked ht (.checkpointing _ []) rfl).release, fun u hu => sound_source (htasks u hu) rfl
      fun _ _ => rfl, h.applied⟩
  unfold resume
  split
  · next id path =>
    split
    · next d hd =>
      split
      · exact ⟨h.locked.tail, htasks, h.applied⟩
      · next hfree =>
        have ho : (routeOutcome digest id path d s (changes digest d s.source)).Sound digest id path
            d s := sound_routeOutcome path _ hd
        refine sound_run (s := { s with locks := id :: s.locks }) (fun u hu => ?_)
          (fun u hu => sound_source (htasks u hu) rfl fun _ _ => rfl) h.applied
          ⟨fun u hu => ?_, ho.installs⟩ fun heq => halone path ?_
        · have htake := h.locked.tail.take (t := u) (fun k hk => ?_) (by simp [hu])
          · rwa [hu] at htake
          · rw [hu] at hk
            rw [List.mem_singleton.mp hk]
            simpa using hfree
        · exact ⟨(ho.waits u hu).1, sound_source (ho.waits u hu).2 rfl fun _ _ => rfl⟩
        · rw [writes, hd, Option.bind_some, if_pos (by simpa [heq] using hfree)]
          rfl
    · exact ⟨h.locked.tail, htasks, h.applied⟩
  · exact ⟨h.locked.tail, htasks, h.applied⟩
  · next id path l =>
    split
    · next d hd =>
      refine sound_run (hlocked rfl) htasks h.applied (sound_routeOutcome _ _ hd)
        fun heq => halone path ?_
      rw [writes, hd, Option.bind_some, if_pos heq]
      rfl
    · exact hends rfl
  · next id path l =>
    obtain ⟨⟨d', hd', hm⟩, hfound⟩ := h.tasks _ List.mem_cons_self
    split
    · next d hd =>
      obtain rfl : d' = d := Option.some.inj (hd'.symm.trans hd)
      refine sound_run (hlocked rfl) htasks h.applied (sound_applyOutcome hd
        (fun l' hl' => (scan_manifest hl').trans hm.symm) fun hf => ?_) fun heq => halone path ?_
      · rw [hm]
        exact (found_shown hf).elim hfound fun hsame => hsame
      · rw [writes, hd, Option.bind_some, if_pos heq]
        rfl
    · exact hends rfl
  · next id m =>
    have hother : ∀ u ∈ ts, u.holds ≠ [id] := fun u hu heq =>
      h.locked.alone (k := id) List.mem_cons_self hu (heq ▸ List.mem_cons_self)
    exact ⟨(hlocked rfl (.checkpointing id m) rfl).release,
      fun u hu => sound_source (sound_draft (htasks u hu) (.inl (hother u hu))) rfl fun _ _ => rfl,
      h.applied⟩
  · exact hends rfl
  · exact hends rfl
  · exact hends rfl
  · exact h

theorem sound_invariant (digest : Bytes → String) :
    Invariant (server digest) (Alone digest) (Sound digest) where
  perm _ _ _ hp h := ⟨Held.perm h.locked hp, fun t ht => h.tasks t (hp.mem_iff.mpr ht), h.applied⟩
  enter r _ _ h halone := sound_enter h r halone
  resume _ x _ _ h halone := sound_resume h x halone
  restart s ts h := by
    rw [(server digest).filter_survives (fun _ => rfl) ts]
    exact ⟨held_nil, nofun, h.applied⟩

/-- In every run: an apply writes a file of the project only when the source is that of the baseline of
its own conversation, as long as nobody writes a file that an apply has compared and is still going to
write. -/
theorem applies_meet_baselines (digest : Bytes → String) (source : Folder)
    (drafts : String → Option Draft) (imported : List String) (es : List (Event Request Input))
    (h : Along (server digest).step (Alone digest).At (initial source drafts imported) es) :
    ∀ a ∈ ((server digest).run (initial source drafts imported) es).shared.applied,
      a.before.map digest = a.entry := by
  have hinit : Sound digest (initial source drafts imported).shared [] := ⟨held_nil, nofun, nofun⟩
  exact ((sound_invariant digest).run (s := initial source drafts imported) hinit h).applied

instance (digest : Bytes → String) (r : Request) (s : Shared) (ts : List Task) :
    Decidable ((Alone digest).enter r s ts) :=
  match r with
  | .edit path _ => inferInstanceAs (Decidable (∀ t ∈ ts, ¬t.compared path))
  | .apply _ | .write _ _ => .isTrue trivial

instance (digest : Bytes → String) (t : Task) (x : Input) (s : Shared) (ts : List Task) :
    Decidable ((Alone digest).resume t x s ts) :=
  inferInstanceAs (Decidable (∀ path ∈ writes digest t x s, ∀ u ∈ ts, ¬u.compared path))

/-- Two files, and two conversations that have changed both. -/
def twoFiles : Folder :=
  Function.update (Function.update (fun _ => none) "a.md" (some [49])) "z.md" (some [49])

def twoDrafts : String → Option Draft :=
  Function.update (Function.update (fun _ => none)
    "first" (some ⟨[("a.md", "1"), ("z.md", "1")], [("a.md", [65]), ("z.md", [90])]⟩))
    "second" (some ⟨[("a.md", "1"), ("z.md", "1")], [("a.md", [66]), ("z.md", [90])]⟩)

/-- One after the other: the second is told of the conflict. -/
theorem applies_meet_baselines_in_turn :
    let s := (server spelled).run (initial twoFiles twoDrafts [])
      [.arrive (.apply "first"), .wake 0 (.body "a.md"), .wake 0 .shown, .wake 0 .shown,
        .wake 0 .shown, .wake 0 .shown, .wake 0 .committed, .arrive (.apply "second"),
        .wake 0 (.body "a.md"), .wake 0 .shown, .wake 0 .shown, .wake 0 .shown, .wake 0 .shown]
    (s.shared.applied.length = 1 ∧ s.waiting = []) ∧
      ∀ a ∈ s.shared.applied, a.before.map spelled = a.entry :=
  ⟨by decide, applies_meet_baselines spelled twoFiles twoDrafts [] _ (by decide)⟩

/-- The first has compared the file and waits for git to show the other one, while the second applies
its change; then the first writes its own over it. -/
theorem apply_overwritten :
    ¬∀ a ∈ ((server spelled).run (initial twoFiles twoDrafts [])
      [.arrive (.apply "first"), .wake 0 (.body "a.md"), .wake 0 .shown, .wake 0 .shown,
        .wake 0 .shown, .arrive (.apply "second"), .wake 0 (.body "a.md"), .wake 0 .shown,
        .wake 0 .shown, .wake 0 .shown, .wake 0 .shown, .wake 0 .committed,
        .wake 0 .shown]).shared.applied, a.before.map spelled = a.entry := by
  decide

end ForgeOS.Galaxy.Applies
