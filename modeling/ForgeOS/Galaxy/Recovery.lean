import Mathlib.Logic.Function.Basic
import ForgeOS.Library.Interleaving

/-! Recovery of unsaved edits: one editor of the page and its row on the server. Edits are saved one
after the other against the revision that the page knows; a save against another revision is
refused. -/

namespace ForgeOS.Galaxy.Recovery

open ForgeOS.Library.Conditions ForgeOS.Library.Interleaving

variable {V : Type}

/-! ### State -/

/-- The message of a request that failed; none is empty. -/
abbrev Failure := { m : String // m ≠ "" }

/-- `Snapshot`. Every object that `cache` is given is a new one, which the stamp tells apart. -/
structure Snapshot (V : Type) where
  stamp : ℕ
  value : Option V
  error : String
  saving : Bool
  ready : Bool
  deriving DecidableEq

/-- A row of the server's `recovery` table. -/
structure Row (V : Type) where
  value : Option V
  revision : ℕ
  positive : 0 < revision
  deriving DecidableEq

/-- `loads` of the key. -/
inductive Load
  | absent
  | running
  | done
  deriving DecidableEq, Repr

/-- The row on the server; `cache`, `loads`, `versions` and `saves` of the key, where a saver is known
by its number; what the server has answered to each save. Beside them: the latest edit, whether
another view has written, the revisions that this view has loaded or written, those that its saves
have replaced, and for every flush that ended without an error the latest edit and what the server
held then. -/
structure Shared (V : Type) where
  row : Option (Row V)
  snapshot : Snapshot V
  load : Load
  versions : Option ℕ
  saves : Option ℕ
  savers : ℕ
  posts : ℕ
  results : ℕ → Option (Except String ℕ)
  latest : Option (Option V)
  others : Bool
  known : List ℕ
  replaced : List ℕ
  flushed : List (Option (Option V) × Option (Option V))

/-- Hydration on the way to the server and back; an edit that hydration has queued; a saver before its
loop, in it and after it, until it is taken out of `saves`; a save on its way to the server; a flush
that waits for a saver. -/
inductive Task (V : Type)
  | loading (original : Snapshot V)
  | loaded (original : Snapshot V) (found : Option (Row V))
  | queued (value : Option V)
  | waiting (n : ℕ)
  | posting (n k : ℕ) (snapshot : Snapshot V)
  | ending (n : ℕ)
  | sent (k : ℕ) (value : Option V) (revision : ℕ)
  | flushing (n : ℕ)
  deriving DecidableEq

/-- A request fails in the network or for its time limit, or the server refuses it before it looks at
the revision; `browser` says whether the browser could store its copy. -/
inductive Input
  | go
  | lost (m : Failure)
  | refuse (m : Failure)
  | browser (stored : Bool)
  deriving DecidableEq

/-- `other` is a save of another view that the server accepts. -/
inductive Request (V : Type)
  | write (value : Option V) (stored : Bool)
  | flush
  | hydrate
  | other (value : Option V)
  deriving DecidableEq

/-- `recovery(store, key).revision`. -/
def Shared.revision (s : Shared V) : ℕ := s.row.elim 0 Row.revision

/-- `cache.set` -/
def Shared.set (s : Shared V) (value : Option V) (error : String) (saving ready : Bool) : Shared V :=
  { s with snapshot := ⟨s.snapshot.stamp + 1, value, error, saving, ready⟩ }

/-! ### The page -/

/-- `hydrateRecovery` up to its request. -/
def hydrate (s : Shared V) : Shared V × List (Task V) :=
  if s.load = .absent then ({ s with load := .running }, [.loading s.snapshot]) else (s, [])

/-- The server's answer reaches `hydrateRecovery`. -/
def hydrated [DecidableEq V] (original : Snapshot V) (found : Option (Row V)) (s : Shared V) :
    Shared V × List (Task V) :=
  let s' := { s with load := .done, versions := some (found.elim 0 Row.revision) }
  if s.snapshot = original ∧ original.saving = false then
    match found with
    | some row =>
      ({ s'.set row.value "" false true with known := row.revision :: s.known }, [])
    | none =>
      (s'.set original.value "" false true,
        if original.value.isSome then [.queued original.value] else [])
  else (s'.set s.snapshot.value s.snapshot.error s.snapshot.saving true, [])

/-- `hydrateRecovery` catches an error. -/
def unhydrated (s : Shared V) : Shared V :=
  { s with load := .done }.set s.snapshot.value
    "Recovery could not be checked with the workspace. Keep this screen open and copy or save your text before leaving."
    s.snapshot.saving true

/-- `persist` up to the first wait of its saver, with the number of the saver. -/
def persist (s : Shared V) : ℕ × Shared V × List (Task V) :=
  match s.saves with
  | some n => (n, s, [])
  | none =>
    (s.savers, { (hydrate s).1 with saves := some s.savers, savers := s.savers + 1 },
      .waiting s.savers :: (hydrate s).2)

/-- The loop of a saver catches an error. -/
def Shared.fail (s : Shared V) (message : String) : Shared V :=
  s.set s.snapshot.value message false s.snapshot.ready

/-- The loop of a saver up to its request. -/
def loop (n : ℕ) (s : Shared V) : Shared V × List (Task V) :=
  if s.snapshot.saving then
    match s.versions with
    | some r =>
      ({ s with posts := s.posts + 1 },
        [.posting n s.posts s.snapshot, .sent s.posts s.snapshot.value r])
    | none =>
      -- nothing is being saved after the failure, so the loop ends
      (s.fail
        "Recovery is unavailable. Keep this screen open until you save or copy the text.", [.ending n])
  else (s, [.ending n])

/-- The answer to a save reaches the loop, which goes on. -/
def answered [DecidableEq V] (n : ℕ) (snapshot : Snapshot V) (r : ℕ) (s : Shared V) : Shared V × List (Task V) :=
  let s' := { s with versions := some r }
  loop n (if s.snapshot = snapshot then s'.set snapshot.value "" false true else s')

/-- `writeRecovery` of a valid value. -/
def write (value : Option V) (stored : Bool) (s : Shared V) : Shared V × List (Task V) :=
  let error :=
    if stored then ""
    else "Browser recovery is unavailable. Keep this screen open until the workspace confirms the save."
  (persist ({ s with latest := some value }.set value error true s.snapshot.ready)).2

/-- `flushRecovery` up to its wait. -/
def flush (s : Shared V) : Shared V × List (Task V) :=
  ((persist s).2.1, .flushing (persist s).1 :: (persist s).2.2)

/-- `flushRecovery` after its saver has ended. -/
def flushed (s : Shared V) : Shared V :=
  if s.snapshot.error = "" then
    { s with flushed := (s.latest, s.row.map Row.value) :: s.flushed }
  else s

/-! ### The server -/

/-- The row is replaced by the next revision. -/
def Shared.store (s : Shared V) (value : Option V) : Shared V :=
  { s with row := some ⟨value, s.revision + 1, Nat.succ_pos _⟩ }

/-- `saveRecovery` of a save of this view, with a key that is valid. -/
def saveRecovery (k : ℕ) (value : Option V) (revision : ℕ) (s : Shared V) : Shared V :=
  if s.revision = revision then
    { s.store value with
      results := Function.update s.results k (some (.ok (s.revision + 1)))
      known := (s.revision + 1) :: s.known
      replaced := (s.row.map Row.revision).toList ++ s.replaced }
  else
    { s with
      results := Function.update s.results k (some (.error
        "This recovery copy changed in another view. Your text is kept here; copy it before reloading to compare the saved recovery.")) }

def enter : Request V → Shared V → Shared V × List (Task V)
  | .write value stored, s => write value stored s
  | .flush, s => flush s
  | .hydrate, s => hydrate s
  | .other value, s => ({ s.store value with others := true }, [])

/-- A handler that is given something else than it waits for goes on waiting. -/
def resume [DecidableEq V] : Task V → Input → Shared V → Shared V × List (Task V)
  | .loading original, .go, s => (s, [.loaded original s.row])
  | .loading _, .lost _, s | .loading _, .refuse _, s | .loaded _ _, .lost _, s => (unhydrated s, [])
  | .loaded original found, .go, s => hydrated original found s
  | .queued value, .browser stored, s => write value stored s
  | .waiting n, .go, s => if s.load = .done then loop n s else (s, [.waiting n])
  | .posting n k snapshot, .go, s =>
    match s.results k with
    | some (.ok r) => answered n snapshot r s
    | some (.error m) =>
      loop n (s.fail (if m = "" then
        "Recovery could not be saved. Keep this screen open and save or copy your text." else m))
    | none => (s, [.posting n k snapshot])
  | .posting n _ _, .lost m, s => loop n (s.fail m)
  | .ending _, .go, s => ({ s with saves := none }, [])
  | .sent k value revision, .go, s => (saveRecovery k value revision s, [])
  | .sent k _ _, .refuse m, s =>
    ({ s with results := Function.update s.results k (some (.error m)) }, [])
  | .flushing n, .go, s => if s.saves = some n then (s, [.flushing n]) else (flushed s, [])
  | task, _, s => (s, [task])

/-- The server keeps the row over a restart; all else is on the page and in the network. -/
def server [DecidableEq V] : Server (Shared V) (Task V) (Request V) Input := ⟨enter, resume, id, fun _ => true⟩

/-- `recoverySnapshot` before anything else, with what the browser has stored (`none` if that cannot be
read); a key that begins with `opening:` is not hydrated. -/
def initial (opening : Bool) (row : Option (Row V)) (copy : Option (Option V)) :
    State (Shared V) (Task V) :=
  let snapshot : Snapshot V := match copy with
    | some value => ⟨0, value, "", false, false⟩
    | none =>
      ⟨0, none, "Could not read the browser recovery copy. Checking the workspace copy…", false, false⟩
  ⟨⟨row, snapshot, if opening then .done else .absent, none, none, 0, 0, fun _ => none, none, false,
    [], [], []⟩, []⟩

/-! ### When edits and saves meet -/

/-- The saver whose loop has not ended. -/
def Task.looping : Task V → Option ℕ
  | .waiting n | .posting n _ _ => some n
  | _ => none

/-- The saver that a flush waits for. -/
def Task.awaited : Task V → Option ℕ
  | .flushing n => some n
  | _ => none

/-- Every flush waits for a saver that is going to look for edits again. -/
def Attended (ts : List (Task V)) : Prop :=
  ∀ t ∈ ts, ∀ n ∈ t.awaited, ∃ u ∈ ts, u.looping = some n

instance (ts : List (Task V)) : Decidable (Attended ts) :=
  inferInstanceAs (Decidable (∀ t ∈ ts, ∀ n ∈ t.awaited, ∃ u ∈ ts, u.looping = some n))

/-- No edit comes while a flush waits for a saver whose loop has ended, no flush is given such a saver
with an edit unsaved, and when hydration finds a row there has been no edit since it began. -/
def Undisturbed : Condition (Shared V) (Task V) (Request V) Input where
  enter
    | .write _ _, _, ts => Attended ts
    | .flush, s, ts => ∀ n ∈ s.saves, (∃ t ∈ ts, t.looping = some n) ∨ s.snapshot.saving = false
    | _, _, _ => True
  resume
    | .queued _, .browser _, _, ts => Attended ts
    | .loaded original (some _), .go, s, _ => s.snapshot = original ∧ original.saving = false
    | _, _, _, _ => True

/-! ### One saver and one hydration at a time -/

/-- The saver that has not been taken out of `saves`. -/
def Task.saver : Task V → Option ℕ
  | .waiting n | .posting n _ _ | .ending n => some n
  | _ => none

def Task.hydrates : Task V → Bool
  | .loading _ | .loaded _ _ => true
  | _ => false

/-- What may wait before hydration is over. -/
def Task.early : Task V → Bool
  | .loading _ | .loaded _ _ | .waiting _ | .flushing _ => true
  | _ => false

structure Orderly (s : Shared V) (ts : List (Task V)) : Prop where
  one : ts.filterMap Task.saver = s.saves.toList
  loads : ts.countP Task.hydrates = if s.load = .running then 1 else 0
  early : s.load ≠ .done → ∀ t ∈ ts, t.early

theorem Orderly.congr {s s' : Shared V} {ts : List (Task V)} (h : Orderly s ts)
    (hload : s'.load = s.load) (hsaves : s'.saves = s.saves) : Orderly s' ts :=
  ⟨by rw [hsaves]; exact h.one, by rw [hload]; exact h.loads, by rw [hload]; exact h.early⟩

theorem Orderly.perm {s : Shared V} {ts us : List (Task V)} (hp : ts.Perm us) (h : Orderly s ts) :
    Orderly s us := by
  refine ⟨?_, ?_, fun hl t ht => h.early hl t (hp.mem_iff.mpr ht)⟩
  · have hsavers := hp.filterMap Task.saver
    rw [h.one] at hsavers
    cases hs : s.saves with
    | none => rw [hs] at hsavers; exact hsavers.symm.eq_nil
    | some n => rw [hs] at hsavers; exact hsavers.symm.eq_singleton
  · rw [← hp.countP_eq]
    exact h.loads

/-- A handler ends that is neither a saver nor hydration. -/
theorem Orderly.ends {s : Shared V} {t : Task V} {ts : List (Task V)} (h : Orderly s (t :: ts))
    (hsaver : t.saver = none) (hhydrates : t.hydrates = false) : Orderly s ts := by
  refine ⟨?_, ?_, fun hl u hu => h.early hl u (List.mem_cons_of_mem _ hu)⟩
  · have hone := h.one
    rwa [List.filterMap_cons_none hsaver] at hone
  · have hloads := h.loads
    rwa [List.countP_cons_of_neg (by simp [hhydrates])] at hloads

/-- While a saver has not been taken out of `saves`, it is the only one. -/
theorem Orderly.saver {s : Shared V} {t : Task V} {ts : List (Task V)} {n : ℕ}
    (h : Orderly s (t :: ts)) (hsaver : t.saver = some n) :
    s.saves = some n ∧ ts.filterMap Task.saver = [] := by
  have hone := h.one
  rw [List.filterMap_cons_some hsaver] at hone
  cases hs : s.saves with
  | none => rw [hs] at hone; cases hone
  | some m =>
    rw [hs] at hone
    obtain ⟨rfl, hnil⟩ := List.cons.inj hone
    exact ⟨rfl, hnil⟩

theorem Orderly.hydrate {s : Shared V} {ts : List (Task V)} (h : Orderly s ts) :
    Orderly (hydrate s).1 ((hydrate s).2 ++ ts) := by
  unfold Recovery.hydrate
  split
  · next habsent =>
    refine ⟨h.one, ?_, fun hl t ht => ?_⟩
    · have hloads := h.loads
      rw [habsent] at hloads
      rw [List.singleton_append, List.countP_cons_of_pos rfl, hloads]
      rfl
    · rcases List.mem_cons.mp ht with rfl | ht
      · rfl
      · exact h.early (by rw [habsent]; decide) t ht
  · exact h

theorem Orderly.persist {s : Shared V} {ts : List (Task V)} (h : Orderly s ts) :
    Orderly (persist s).2.1 ((persist s).2.2 ++ ts) := by
  unfold Recovery.persist
  split
  · exact h
  · next hsaves =>
    have hh := h.hydrate
    have hsame : (Recovery.hydrate s).1.saves = none := by
      rw [← hsaves]
      unfold Recovery.hydrate
      split <;> rfl
    refine ⟨?_, ?_, fun hl t ht => ?_⟩
    · have hone := hh.one
      rw [hsame] at hone
      simp only [List.cons_append, List.filterMap_cons_some (rfl : Task.saver (.waiting _) = _), hone]
      rfl
    · rw [List.cons_append, List.countP_cons_of_neg (by simp [Task.hydrates])]
      exact hh.loads
    · rcases List.mem_cons.mp ht with rfl | ht
      · rfl
      · exact hh.early hl t ht

/-- A saver goes on, with other handlers that neither save nor hydrate. -/
theorem Orderly.goes {s s' : Shared V} {t : Task V} {ts : List (Task V)} {n : ℕ}
    (h : Orderly s (t :: ts)) (hsaver : t.saver = some n) (hhydrates : t.hydrates = false)
    (hload : s.load = .done) (hload' : s'.load = .done) (hsaves : s'.saves = s.saves)
    (after : List (Task V)) (hafter : after.filterMap Task.saver = [n])
    (hnone : after.countP Task.hydrates = 0) : Orderly s' (after ++ ts) := by
  obtain ⟨hs, hnil⟩ := h.saver hsaver
  refine ⟨?_, ?_, fun hl => absurd hload' hl⟩
  · rw [List.filterMap_append, hafter, hnil, hsaves, hs]
    rfl
  · have hloads := h.loads
    rw [List.countP_cons_of_neg (by simp [hhydrates]), hload] at hloads
    rw [List.countP_append, hnone, hloads, hload', Nat.zero_add]

/-- The loop goes on to its next request or ends. -/
theorem Orderly.loop {s s' : Shared V} {t : Task V} {ts : List (Task V)} {n : ℕ}
    (h : Orderly s (t :: ts)) (hsaver : t.saver = some n) (hhydrates : t.hydrates = false)
    (hload : s.load = .done) (hload' : s'.load = .done) (hsaves : s'.saves = s.saves) :
    Orderly (loop n s').1 ((loop n s').2 ++ ts) := by
  unfold Recovery.loop
  split
  · split
    · next r _ =>
      exact (h.goes hsaver hhydrates hload hload' hsaves
        [.posting n s'.posts s'.snapshot, .sent s'.posts s'.snapshot.value r] rfl rfl).congr rfl rfl
    · exact (h.goes hsaver hhydrates hload hload' hsaves [.ending n] rfl rfl).congr rfl rfl
  · exact h.goes hsaver hhydrates hload hload' hsaves [.ending n] rfl rfl

/-- Hydration is over. -/
theorem Orderly.loaded {s s' : Shared V} {t : Task V} {ts : List (Task V)} (h : Orderly s (t :: ts))
    (ht : t.hydrates) (hload : s'.load = .done) (hsaves : s'.saves = s.saves)
    (after : List (Task V)) (hafter : after.filterMap Task.saver = [])
    (hnone : after.countP Task.hydrates = 0) : Orderly s' (after ++ ts) := by
  refine ⟨?_, ?_, fun hl => absurd hload hl⟩
  · have hone := h.one
    rw [List.filterMap_cons_none (by cases t <;> first | rfl | cases ht)] at hone
    rw [List.filterMap_append, hafter, hone, hsaves]
    rfl
  · have hloads := h.loads
    rw [List.countP_cons_of_pos ht] at hloads
    rw [List.countP_append, hnone, hload, if_neg (by decide)]
    split at hloads
    · omega
    · omega

theorem Orderly.write {s : Shared V} {ts : List (Task V)} (h : Orderly s ts) (value : Option V)
    (stored : Bool) : Orderly (write value stored s).1 ((write value stored s).2 ++ ts) := by
  unfold Recovery.write
  exact Orderly.persist (h.congr (by rfl) (by rfl))

theorem Orderly.enter {s : Shared V} {ts : List (Task V)} (h : Orderly s ts) (r : Request V) :
    Orderly (enter r s).1 ((enter r s).2 ++ ts) := by
  cases r with
  | write value stored => exact h.write value stored
  | hydrate => exact h.hydrate
  | other value => exact h.congr rfl rfl
  | flush =>
    have hp := h.persist
    exact ⟨hp.one, hp.loads, fun hl t ht => by
      rcases List.mem_cons.mp ht with rfl | ht
      · rfl
      · exact hp.early hl t ht⟩

/-- A handler that is neither early nor goes on before hydration is over waits after it only. -/
theorem Orderly.done {s : Shared V} {t : Task V} {ts : List (Task V)} (h : Orderly s (t :: ts))
    (ht : t.early = false) : s.load = .done := by
  by_contra hl
  have hearly := h.early hl t List.mem_cons_self
  rw [ht] at hearly
  cases hearly

theorem Orderly.resume [DecidableEq V] {s : Shared V} {t : Task V} {ts : List (Task V)}
    (h : Orderly s (t :: ts)) (x : Input) : Orderly (resume t x s).1 ((resume t x s).2 ++ ts) := by
  unfold Recovery.resume
  split
  · refine ⟨h.one, ?_, fun hl t ht => ?_⟩
    · have hloads := h.loads
      rw [List.countP_cons_of_pos rfl] at hloads
      rwa [List.singleton_append, List.countP_cons_of_pos rfl]
    · rcases List.mem_cons.mp ht with rfl | ht
      · rfl
      · exact h.early hl t (List.mem_cons_of_mem _ ht)
  · exact h.loaded rfl (by rfl) (by rfl) [] rfl rfl
  · exact h.loaded rfl (by rfl) (by rfl) [] rfl rfl
  · exact h.loaded rfl (by rfl) (by rfl) [] rfl rfl
  · unfold hydrated
    split
    · split
      · exact h.loaded rfl (by rfl) (by rfl) [] rfl rfl
      · split
        · exact h.loaded rfl (by rfl) (by rfl) [.queued _] rfl rfl
        · exact h.loaded rfl (by rfl) (by rfl) [] rfl rfl
    · exact h.loaded rfl (by rfl) (by rfl) [] rfl rfl
  · exact (h.ends rfl rfl).write _ _
  · split
    · next hload => exact h.loop rfl rfl hload hload rfl
    · exact h
  · have hload := h.done rfl
    split
    · unfold answered
      split
      · exact h.loop rfl rfl hload hload rfl
      · exact h.loop rfl rfl hload hload rfl
    · exact h.loop rfl rfl hload hload rfl
    · exact h
  · exact h.loop rfl rfl (h.done rfl) (h.done rfl) rfl
  · have hnil := (h.saver rfl).2
    refine ⟨hnil, ?_, fun hl => absurd (h.done rfl) hl⟩
    have hloads := h.loads
    rwa [List.countP_cons_of_neg (by simp [Task.hydrates])] at hloads
  · refine (h.ends rfl rfl).congr ?_ ?_
    · unfold saveRecovery
      split <;> rfl
    · unfold saveRecovery
      split <;> rfl
  · exact (h.ends rfl rfl).congr rfl rfl
  · split
    · exact h
    · refine (h.ends rfl rfl).congr ?_ ?_
      · unfold flushed
        split <;> rfl
      · unfold flushed
        split <;> rfl
  · exact h

/-! ### What begins without the server's answer -/

/-- The revision that a save on its way was made against. -/
def Task.revision : Task V → Option ℕ
  | .sent _ _ r => some r
  | _ => none

/-- The number of a save. -/
def Task.number : Task V → Option ℕ
  | .posting _ k _ | .sent k _ _ => some k
  | _ => none

/-- Neither a save nor a flush. -/
def Task.Plain (t : Task V) : Prop := t.revision = none ∧ t.number = none ∧ t.awaited = none

/-- Nothing changes but which hydration and which saver are about. -/
theorem hydrate_spec (s : Shared V) :
    ∃ load, (hydrate s).1 = { s with load := load } ∧ (s.load = .done → load = .done) ∧
      ∀ t ∈ (hydrate s).2, t.Plain := by
  unfold hydrate
  split
  · next habsent =>
    refine ⟨.running, rfl, fun h => absurd (habsent.symm.trans h) (by decide), fun t ht => ?_⟩
    rw [List.mem_singleton.mp ht]
    exact ⟨rfl, rfl, rfl⟩
  · exact ⟨s.load, rfl, fun h => h, fun t ht => absurd ht List.not_mem_nil⟩

theorem persist_spec (s : Shared V) :
    ∃ load saves savers,
      (persist s).2.1 = { s with load := load, saves := saves, savers := savers } ∧
        (s.load = .done → load = .done) ∧ (∀ t ∈ (persist s).2.2, t.Plain) ∧
        (s.saves = some (persist s).1 ∨ .waiting (persist s).1 ∈ (persist s).2.2) := by
  unfold persist
  split
  · next n hn =>
    exact ⟨s.load, s.saves, s.savers, rfl, fun h => h, fun t ht => absurd ht List.not_mem_nil, .inl hn⟩
  · obtain ⟨load, hs, hload, hplain⟩ := hydrate_spec s
    refine ⟨load, some s.savers, s.savers + 1, by rw [hs], hload, fun t ht => ?_,
      .inr List.mem_cons_self⟩
    rcases List.mem_cons.mp ht with rfl | ht
    · exact ⟨rfl, rfl, rfl⟩
    · exact hplain t ht

/-! ### Replaced revisions -/

/-- Every revision that a save is or may be made against has been loaded or written here. -/
structure Seen (s : Shared V) (ts : List (Task V)) : Prop where
  versions : ∀ r ∈ s.versions, r = 0 ∨ r ∈ s.known
  sent : ∀ t ∈ ts, ∀ r ∈ t.revision, r = 0 ∨ r ∈ s.known
  results : ∀ k r, s.results k = some (.ok r) → r ∈ s.known
  replaced : ∀ r ∈ s.replaced, r ∈ s.known

/-- Nothing is known less, and no save is on its way that was not. -/
theorem Seen.congr {s s' : Shared V} {ts us : List (Task V)} (h : Seen s ts)
    (hversions : s'.versions = s.versions) (hresults : s'.results = s.results)
    (hknown : s'.known = s.known) (hreplaced : s'.replaced = s.replaced)
    (htasks : ∀ t ∈ us, t ∈ ts ∨ t.revision = none) : Seen s' us := by
  refine ⟨by rw [hversions, hknown]; exact h.versions, fun t ht r hr => ?_,
    by rw [hresults, hknown]; exact h.results, by rw [hreplaced, hknown]; exact h.replaced⟩
  rcases htasks t ht with ht | hnone
  · rw [hknown]
    exact h.sent t ht r hr
  · rw [hnone] at hr
    cases hr

theorem Seen.persist {s : Shared V} {ts : List (Task V)} (h : Seen s ts) :
    Seen (persist s).2.1 ((persist s).2.2 ++ ts) := by
  obtain ⟨load, saves, savers, hs, -, hplain, -⟩ := persist_spec s
  rw [hs]
  refine h.congr rfl rfl rfl rfl fun t ht => ?_
  rcases List.mem_append.mp ht with ht | ht
  · exact .inr (hplain t ht).1
  · exact .inl ht

theorem Seen.write {s : Shared V} {ts : List (Task V)} (h : Seen s ts) (value : Option V)
    (stored : Bool) : Seen (write value stored s).1 ((write value stored s).2 ++ ts) := by
  unfold Recovery.write
  exact Seen.persist (h.congr (by rfl) (by rfl) (by rfl) (by rfl) fun t ht => .inl ht)

theorem Seen.enter {s : Shared V} {ts : List (Task V)} (h : Seen s ts) (r : Request V) :
    Seen (enter r s).1 ((enter r s).2 ++ ts) := by
  cases r with
  | write value stored => exact h.write value stored
  | other value => exact h.congr rfl rfl rfl rfl fun t ht => .inl ht
  | hydrate =>
    obtain ⟨load, hs, -, hplain⟩ := hydrate_spec s
    rw [Recovery.enter, hs]
    refine h.congr rfl rfl rfl rfl fun t ht => ?_
    rcases List.mem_append.mp ht with ht | ht
    · exact .inr (hplain t ht).1
    · exact .inl ht
  | flush =>
    refine h.persist.congr rfl rfl rfl rfl fun t ht => ?_
    rcases List.mem_cons.mp ht with rfl | ht
    · exact .inr rfl
    · exact .inl ht

/-- A handler ends or goes on as one that makes no save. -/
theorem Seen.goes {s s' : Shared V} {t : Task V} {ts : List (Task V)} (h : Seen s (t :: ts))
    (hversions : s'.versions = s.versions) (hresults : s'.results = s.results)
    (hknown : s'.known = s.known) (hreplaced : s'.replaced = s.replaced) (after : List (Task V))
    (hafter : ∀ u ∈ after, u.revision = none) : Seen s' (after ++ ts) := by
  refine h.congr hversions hresults hknown hreplaced fun u hu => ?_
  rcases List.mem_append.mp hu with hu | hu
  · exact .inr (hafter u hu)
  · exact .inl (List.mem_cons_of_mem _ hu)

theorem Seen.loop {s : Shared V} {ts : List (Task V)} (h : Seen s ts) (n : ℕ) :
    Seen (loop n s).1 ((loop n s).2 ++ ts) := by
  unfold Recovery.loop
  split
  · split
    · next r hr =>
      refine ⟨h.versions, fun t ht => ?_, h.results, h.replaced⟩
      rcases List.mem_cons.mp ht with rfl | ht
      · intro r' hr'
        cases hr'
      · rcases List.mem_cons.mp ht with rfl | ht
        · intro r' hr'
          cases hr'
          exact h.versions r hr
        · exact h.sent t ht
    · refine h.congr rfl rfl rfl rfl fun t ht => ?_
      rcases List.mem_cons.mp ht with rfl | ht
      · exact .inr rfl
      · exact .inl ht
  · refine h.congr rfl rfl rfl rfl fun t ht => ?_
    rcases List.mem_cons.mp ht with rfl | ht
    · exact .inr rfl
    · exact .inl ht

theorem update_eq_some {f : ℕ → Option (Except String ℕ)} {k k' : ℕ} {v w : Except String ℕ}
    (h : Function.update f k (some v) k' = some w) : k' = k ∧ w = v ∨ k' ≠ k ∧ f k' = some w := by
  by_cases hk : k' = k
  · rw [hk, Function.update_self] at h
    exact .inl ⟨hk, (Option.some.inj h).symm⟩
  · rw [Function.update_of_ne hk] at h
    exact .inr ⟨hk, h⟩

theorem Seen.refused {s : Shared V} {ts : List (Task V)} {k r : ℕ} {value : Option V}
    (h : Seen s (.sent k value r :: ts)) (m : String) :
    Seen { s with results := Function.update s.results k (some (.error m)) } ts := by
  refine ⟨h.versions, fun t ht => h.sent t (List.mem_cons_of_mem _ ht), fun k' r' hr' => ?_,
    h.replaced⟩
  rcases update_eq_some hr' with ⟨-, heq⟩ | ⟨-, hr'⟩
  · cases heq
  · exact h.results k' r' hr'

/-- A save of this view replaces only what it was made against. -/
theorem Seen.saveRecovery {s : Shared V} {ts : List (Task V)} {k r : ℕ} {value : Option V}
    (h : Seen s (.sent k value r :: ts)) : Seen (saveRecovery k value r s) ts := by
  have hr := h.sent _ List.mem_cons_self r rfl
  unfold Recovery.saveRecovery
  split
  · next heq =>
    refine ⟨fun r' hr' => (h.versions r' hr').imp_right (List.mem_cons_of_mem _),
      fun t ht r' hr' => (h.sent t (List.mem_cons_of_mem _ ht) r' hr').imp_right
        (List.mem_cons_of_mem _), fun k' r' hr' => ?_, fun r' hr' => ?_⟩
    · rcases update_eq_some hr' with ⟨-, heq'⟩ | ⟨-, hr'⟩
      · cases heq'
        exact List.mem_cons_self
      · exact List.mem_cons_of_mem _ (h.results k' r' hr')
    · refine List.mem_cons_of_mem _ ?_
      rcases List.mem_append.mp hr' with hr' | hr'
      · cases hrow : s.row with
        | none => rw [hrow] at hr'; cases hr'
        | some row =>
          have hrev : s.revision = row.revision := by rw [Shared.revision, hrow]; rfl
          rw [hrow] at hr'
          rw [List.mem_singleton.mp hr', ← hrev, heq]
          refine hr.resolve_left fun hzero => ?_
          have hpos := row.positive
          omega
      · exact h.replaced r' hr'
  · exact h.refused _

theorem Seen.hydrated [DecidableEq V] {s : Shared V} {ts : List (Task V)} (h : Seen s ts)
    {original : Snapshot V} {found : Option (Row V)}
    (hsame : found.isSome → s.snapshot = original ∧ original.saving = false) :
    Seen (hydrated original found s).1 ((hydrated original found s).2 ++ ts) := by
  unfold Recovery.hydrated
  cases found with
  | some row =>
    rw [if_pos (hsame rfl)]
    refine ⟨fun r hr => ?_, fun t ht r hr => (h.sent t ht r hr).imp_right (List.mem_cons_of_mem _),
      fun k r hr => List.mem_cons_of_mem _ (h.results k r hr),
      fun r hr => List.mem_cons_of_mem _ (h.replaced r hr)⟩
    cases hr
    exact .inr List.mem_cons_self
  | none =>
    have hzero : ∀ r ∈ some (Option.elim (none : Option (Row V)) 0 Row.revision), r = 0 := by
      intro r hr
      exact (Option.some.inj hr).symm
    split
    · refine ⟨fun r hr => .inl (hzero r hr), fun t ht => ?_, h.results, h.replaced⟩
      rcases List.mem_append.mp ht with ht | ht
      · dsimp only at ht
        split at ht
        · rw [List.mem_singleton.mp ht]
          exact fun _ hr => nomatch hr
        · cases ht
      · exact h.sent t ht
    · exact ⟨fun r hr => .inl (hzero r hr), h.sent, h.results, h.replaced⟩

theorem Seen.resume [DecidableEq V] {s : Shared V} {t : Task V} {ts : List (Task V)} {x : Input}
    (h : Seen s (t :: ts)) (hC : Undisturbed.resume t x s ts) :
    Seen (resume t x s).1 ((resume t x s).2 ++ ts) := by
  have hrest : Seen s ts := h.congr rfl rfl rfl rfl fun u hu => .inl (List.mem_cons_of_mem _ hu)
  unfold Recovery.resume
  split
  · exact h.goes rfl rfl rfl rfl [.loaded _ _] (by simp [Task.revision])
  · exact hrest.congr rfl rfl rfl rfl fun u hu => .inl hu
  · exact hrest.congr rfl rfl rfl rfl fun u hu => .inl hu
  · exact hrest.congr rfl rfl rfl rfl fun u hu => .inl hu
  · next found =>
    refine hrest.hydrated fun hfound => ?_
    cases found with
    | some row => exact hC
    | none => cases hfound
  · exact hrest.write _ _
  · split
    · exact hrest.loop _
    · exact h
  · split
    · next n k _ _ r hr =>
      have hknown := h.results k r hr
      unfold answered
      refine Seen.loop ?_ _
      refine ⟨fun r' hr' => ?_, ?_, ?_, ?_⟩
      · rw [show r' = r by split at hr' <;> exact (Option.some.inj hr').symm]
        split
        · exact .inr hknown
        · exact .inr hknown
      · split
        · exact hrest.sent
        · exact hrest.sent
      · split
        · exact hrest.results
        · exact hrest.results
      · split
        · exact hrest.replaced
        · exact hrest.replaced
    · exact Seen.loop (hrest.congr (by rfl) (by rfl) (by rfl) (by rfl) fun u hu => .inl hu) _
    · exact h
  · exact Seen.loop (hrest.congr (by rfl) (by rfl) (by rfl) (by rfl) fun u hu => .inl hu) _
  · exact hrest.congr rfl rfl rfl rfl fun u hu => .inl hu
  · exact h.saveRecovery
  · exact h.refused _
  · split
    · exact h
    · unfold flushed
      split
      · exact hrest.congr rfl rfl rfl rfl fun u hu => .inl hu
      · exact hrest
  · exact h

/-! ### The latest edit -/

/-- The server holds the latest edit, and nothing on its way can replace it. -/
def Synced (s : Shared V) (ts : List (Task V)) : Prop :=
  ∃ row, s.row = some row ∧ s.latest = some row.value ∧ s.versions = some row.revision ∧
    ∀ t ∈ ts, ∀ r ∈ t.revision, r < row.revision

/-- The server has accepted the value against the revision that the page knows. -/
def Accepted (s : Shared V) (value : Option V) (r : ℕ) : Prop :=
  ∃ row, s.row = some row ∧ row.value = value ∧ row.revision = r ∧
    ∃ r', s.versions = some r' ∧ r = r' + 1

/-- While no other view writes: an edit that is neither being saved nor in error is on the server, and
a flush waits for a saver that is going to look for edits again or there is none to look for. -/
structure Held (s : Shared V) (ts : List (Task V)) : Prop where
  value : ∀ v, s.latest = some v → s.snapshot.value = v
  early : s.load ≠ .done → s.latest ≠ none → s.snapshot.saving = true
  numbers : ∀ k, s.posts ≤ k → s.results k = none
  posted : ∀ t ∈ ts, ∀ k ∈ t.number, k < s.posts
  sent : ∀ t ∈ ts, ∀ r ∈ t.revision, ∃ r', s.versions = some r' ∧ r ≤ r'
  saving : ∀ n k o, .posting n k o ∈ ts → s.snapshot.saving = true
  body : ∀ n k o, .posting n k o ∈ ts → ∀ v r, .sent k v r ∈ ts → v = o.value ∧ s.versions = some r
  accepted : ∀ n k o, .posting n k o ∈ ts → ∀ r, s.results k = some (.ok r) → Accepted s o.value r
  synced : s.latest ≠ none → s.snapshot.saving = false → s.snapshot.error = "" → Synced s ts
  awaited : ∀ t ∈ ts, ∀ n ∈ t.awaited,
    (∃ u ∈ ts, u.looping = some n) ∨ s.snapshot.saving = false
  flushed : ∀ p ∈ s.flushed, ∀ v, p.1 = some v → p.2 = some v

theorem plain_posting {n k : ℕ} {o : Snapshot V} : ¬Task.Plain (.posting n k o : Task V) :=
  fun h => nomatch h.2.1

theorem plain_sent {k r : ℕ} {v : Option V} : ¬Task.Plain (.sent k v r : Task V) :=
  fun h => nomatch h.1

/-- Other handlers wait, none of them a new save or flush, and no flush is left without its saver. -/
theorem Held.congr {s s' : Shared V} {ts us : List (Task V)} (h : Held s ts)
    (hlatest : s'.latest = s.latest) (hsnapshot : s'.snapshot = s.snapshot)
    (hload : s'.load ≠ .done → s.load ≠ .done) (hposts : s'.posts = s.posts)
    (hresults : s'.results = s.results) (hversions : s'.versions = s.versions)
    (hrow : s'.row = s.row) (hflushed : s'.flushed = s.flushed)
    (htasks : ∀ t ∈ us, t ∈ ts ∨ t.Plain)
    (hloop : ∀ t ∈ ts, t.looping.isSome →
      (∃ u ∈ us, u.looping = t.looping) ∨ s.snapshot.saving = false) : Held s' us := by
  have hposting : ∀ {n k o}, Task.posting n k o ∈ us → Task.posting n k o ∈ ts := fun ht =>
    (htasks _ ht).resolve_right plain_posting
  refine ⟨by rw [hlatest, hsnapshot]; exact h.value, ?_, by rw [hposts, hresults]; exact h.numbers,
    fun t ht k hk => ?_, fun t ht r hr => ?_, fun n k o ht => ?_, fun n k o ht v r hs => ?_,
    fun n k o ht r hr => ?_, fun hl hs he => ?_, fun t ht n hn => ?_,
    by rw [hflushed]; exact h.flushed⟩
  · rw [hlatest, hsnapshot]
    exact fun hl => h.early (hload hl)
  · rw [hposts]
    rcases htasks t ht with ht | ht
    · exact h.posted t ht k hk
    · rw [ht.2.1] at hk
      cases hk
  · rw [hversions]
    rcases htasks t ht with ht | ht
    · exact h.sent t ht r hr
    · rw [ht.1] at hr
      cases hr
  · rw [hsnapshot]
    exact h.saving n k o (hposting ht)
  · rw [hversions]
    exact h.body n k o (hposting ht) v r ((htasks _ hs).resolve_right plain_sent)
  · rw [hresults] at hr
    rw [Accepted, hrow, hversions]
    exact h.accepted n k o (hposting ht) r hr
  · rw [hlatest] at hl
    rw [hsnapshot] at hs he
    obtain ⟨row, hr, hv, hn, hlt⟩ := h.synced hl hs he
    refine ⟨row, by rw [hrow, hr], by rw [hlatest, hv], by rw [hversions, hn], fun t ht r hr => ?_⟩
    rcases htasks t ht with ht | ht
    · exact hlt t ht r hr
    · rw [ht.1] at hr
      cases hr
  · rw [hsnapshot]
    rcases htasks t ht with ht | ht
    · rcases h.awaited t ht n hn with ⟨u, hu, hun⟩ | hsaving
      · rcases hloop u hu (by rw [hun]; rfl) with ⟨w, hw, hwn⟩ | hsaving
        · exact .inl ⟨w, hw, hwn.trans hun⟩
        · exact .inr hsaving
      · exact .inr hsaving
    · rw [ht.2.2] at hn
      cases hn

/-- More handlers wait, none of them a save or a flush. -/
theorem Held.more {s s' : Shared V} {ts after : List (Task V)} (h : Held s ts)
    (hlatest : s'.latest = s.latest) (hsnapshot : s'.snapshot = s.snapshot)
    (hload : s'.load ≠ .done → s.load ≠ .done) (hposts : s'.posts = s.posts)
    (hresults : s'.results = s.results) (hversions : s'.versions = s.versions)
    (hrow : s'.row = s.row) (hflushed : s'.flushed = s.flushed)
    (hafter : ∀ t ∈ after, t.Plain) : Held s' (after ++ ts) := by
  refine h.congr hlatest hsnapshot hload hposts hresults hversions hrow hflushed (fun t ht => ?_)
    fun t ht _ => .inl ⟨t, List.mem_append_right _ ht, rfl⟩
  rcases List.mem_append.mp ht with ht | ht
  · exact .inr (hafter t ht)
  · exact .inl ht

theorem Held.persist {s : Shared V} {ts : List (Task V)} (h : Held s ts) :
    Held (persist s).2.1 ((persist s).2.2 ++ ts) := by
  obtain ⟨load, saves, savers, hs, hload, hplain, -⟩ := persist_spec s
  rw [hs]
  exact h.more rfl rfl (fun hl hd => hl (hload hd)) rfl rfl rfl rfl rfl hplain

/-- An edit that no flush misses. -/
theorem Held.write {s : Shared V} {ts : List (Task V)} (h : Held s ts) (hC : Attended ts)
    (value : Option V) (stored : Bool) :
    Held (write value stored s).1 ((write value stored s).2 ++ ts) := by
  unfold Recovery.write
  refine Held.persist ⟨fun v hv => Option.some.inj hv, fun _ _ => rfl, h.numbers, h.posted, h.sent,
    fun _ _ _ _ => rfl, h.body, h.accepted, fun _ hs => (nomatch hs), fun t ht n hn => ?_, h.flushed⟩
  exact .inl (hC t ht n hn)

/-- A flush is given a saver that has not missed an edit. -/
theorem Held.flush {s : Shared V} {ts : List (Task V)} (h : Held s ts)
    (hC : ∀ n ∈ s.saves, (∃ t ∈ ts, t.looping = some n) ∨ s.snapshot.saving = false) :
    Held (flush s).1 ((flush s).2 ++ ts) := by
  have hp := h.persist
  have hsnapshot : (Recovery.persist s).2.1.snapshot = s.snapshot := by
    obtain ⟨load, saves, savers, hs, -⟩ := persist_spec s
    rw [hs]
  have hnew : (∃ u ∈ (Recovery.persist s).2.2 ++ ts, u.looping = some (Recovery.persist s).1) ∨
      s.snapshot.saving = false := by
    obtain ⟨load, saves, savers, -, -, -, hsaves | hwaiting⟩ := persist_spec s
    · rcases hC _ hsaves with ⟨u, hu, hun⟩ | hsaving
      · exact .inl ⟨u, List.mem_append_right _ hu, hun⟩
      · exact .inr hsaving
    · exact .inl ⟨_, List.mem_append_left _ hwaiting, rfl⟩
  refine ⟨hp.value, hp.early, hp.numbers, fun t ht k hk => ?_, fun t ht r hr => ?_,
    fun n k o ht => hp.saving n k o ?_, fun n k o ht v r hr => hp.body n k o ?_ v r ?_,
    fun n k o ht => hp.accepted n k o ?_, fun hl hs he => ?_, fun t ht n hn => ?_, hp.flushed⟩
  · rcases List.mem_cons.mp ht with rfl | ht
    · cases hk
    · exact hp.posted t ht k hk
  · rcases List.mem_cons.mp ht with rfl | ht
    · cases hr
    · exact hp.sent t ht r hr
  · exact (List.mem_cons.mp ht).resolve_left nofun
  · exact (List.mem_cons.mp ht).resolve_left nofun
  · exact (List.mem_cons.mp hr).resolve_left nofun
  · exact (List.mem_cons.mp ht).resolve_left nofun
  · obtain ⟨row, hr, hv, hn, hlt⟩ := hp.synced hl hs he
    refine ⟨row, hr, hv, hn, fun t ht r hr => ?_⟩
    rcases List.mem_cons.mp ht with rfl | ht
    · cases hr
    · exact hlt t ht r hr
  · have hmore : ∀ m, (∃ u ∈ (Recovery.persist s).2.2 ++ ts, u.looping = some m) →
        ∃ u ∈ (Recovery.flush s).2 ++ ts, u.looping = some m :=
      fun m ⟨u, hu, hun⟩ => ⟨u, List.mem_cons_of_mem _ hu, hun⟩
    rcases List.mem_cons.mp ht with rfl | ht
    · cases hn
      rcases hnew with hnew | hsaving
      · exact .inl (hmore _ hnew)
      · exact .inr ((congrArg Snapshot.saving hsnapshot).trans hsaving)
    · exact (hp.awaited t ht n hn).imp_left (hmore n)

/-- Where `t` was the saver, no save waits among the others. -/
theorem not_posting {s : Shared V} {t : Task V} {ts : List (Task V)} {n : ℕ}
    (ho : Orderly s (t :: ts)) (hsaver : t.saver = some n) {m k : ℕ} {o : Snapshot V} :
    Task.posting m k o ∉ ts := by
  intro hmem
  have hin : m ∈ ts.filterMap Task.saver := List.mem_filterMap.mpr ⟨_, hmem, rfl⟩
  rw [(ho.saver hsaver).2] at hin
  cases hin

/-- Nothing is being saved. -/
theorem Held.idle {s s' : Shared V} {ts us : List (Task V)} (h : Held s ts)
    (hlatest : s'.latest = s.latest) (hvalue : s'.snapshot.value = s.snapshot.value)
    (hsaving : s'.snapshot.saving = false) (hload : s'.load = .done) (hposts : s'.posts = s.posts)
    (hresults : s'.results = s.results) (hflushed : s'.flushed = s.flushed)
    (htasks : ∀ t ∈ us, t ∈ ts ∨ t.Plain) (hnone : ∀ m k o, Task.posting m k o ∉ us)
    (hsent : ∀ r r', s.versions = some r' → r ≤ r' → ∃ r'', s'.versions = some r'' ∧ r ≤ r'')
    (hsynced : s'.latest ≠ none → s'.snapshot.error = "" → Synced s' us) : Held s' us := by
  refine ⟨by rw [hlatest, hvalue]; exact h.value, fun hl => absurd hload hl,
    by rw [hposts, hresults]; exact h.numbers, fun t ht k hk => ?_, fun t ht r hr => ?_,
    fun m k o ht => absurd ht (hnone m k o), fun m k o ht => absurd ht (hnone m k o),
    fun m k o ht => absurd ht (hnone m k o), fun hl _ he => hsynced hl he,
    fun _ _ _ _ => .inr hsaving, by rw [hflushed]; exact h.flushed⟩
  · rw [hposts]
    rcases htasks t ht with ht | ht
    · exact h.posted t ht k hk
    · rw [ht.2.1] at hk
      cases hk
  · rcases htasks t ht with ht | ht
    · obtain ⟨r', hr', hle⟩ := h.sent t ht r hr
      exact hsent r r' hr' hle
    · rw [ht.1] at hr
      cases hr

/-- The loop goes on to its next request with what it finds, or ends with nothing to save. -/
theorem Held.loop {s : Shared V} {ts : List (Task V)} {n : ℕ} (h : Held s (.waiting n :: ts))
    (hload : s.load = .done) (hnone : ∀ m k o, Task.posting m k o ∉ ts) :
    Held (loop n s).1 ((loop n s).2 ++ ts) := by
  have hends : ∀ t ∈ [.ending n] ++ ts, t ∈ .waiting n :: ts ∨ t.Plain := by
    intro t ht
    rcases List.mem_cons.mp ht with rfl | ht
    · exact .inr ⟨rfl, rfl, rfl⟩
    · exact .inl (List.mem_cons_of_mem _ ht)
  have hposting : ∀ m k o, Task.posting m k o ∉ [.ending n] ++ ts := by
    intro m k o ht
    exact hnone m k o ((List.mem_cons.mp ht).resolve_left nofun)
  unfold Recovery.loop
  split
  · next hsaving =>
    split
    · next r hr =>
      have hnew : ∀ t ∈ [.posting n s.posts s.snapshot, .sent s.posts s.snapshot.value r] ++ ts,
          t = .posting n s.posts s.snapshot ∨ t = .sent s.posts s.snapshot.value r ∨ t ∈ ts := by
        intro t ht
        simpa using ht
      have hposting : ∀ {m k o}, Task.posting m k o ∈
          [.posting n s.posts s.snapshot, .sent s.posts s.snapshot.value r] ++ ts →
          k = s.posts ∧ o = s.snapshot := by
        intro m k o ht
        rcases hnew _ ht with heq | heq | ht
        · cases heq
          exact ⟨rfl, rfl⟩
        · cases heq
        · exact absurd ht (hnone m k o)
      refine ⟨h.value, fun hl => absurd hload hl, fun k hk => h.numbers k (Nat.le_of_succ_le hk),
        fun t ht k hk => ?_, fun t ht r' hr' => ?_, fun m k o ht => hsaving,
        fun m k o ht v r' hs => ?_, fun m k o ht r' hr' => ?_, fun _ hs => ?_, fun t ht m hm => ?_,
        h.flushed⟩
      · rcases hnew t ht with rfl | rfl | ht
        · cases hk
          exact Nat.lt_succ_self _
        · cases hk
          exact Nat.lt_succ_self _
        · exact Nat.lt_succ_of_lt (h.posted t (List.mem_cons_of_mem _ ht) k hk)
      · rcases hnew t ht with rfl | rfl | ht
        · cases hr'
        · cases hr'
          exact ⟨r, hr, Nat.le_refl r⟩
        · exact h.sent t (List.mem_cons_of_mem _ ht) r' hr'
      · obtain ⟨rfl, rfl⟩ := hposting ht
        rcases hnew _ hs with heq | heq | hs
        · cases heq
        · cases heq
          exact ⟨rfl, hr⟩
        · exact absurd (h.posted _ (List.mem_cons_of_mem _ hs) _ rfl) (Nat.lt_irrefl _)
      · obtain ⟨rfl, rfl⟩ := hposting ht
        rw [h.numbers s.posts (Nat.le_refl _)] at hr'
        cases hr'
      · rw [hsaving] at hs
        cases hs
      · rcases hnew t ht with rfl | rfl | ht
        · cases hm
        · cases hm
        · rcases h.awaited t (List.mem_cons_of_mem _ ht) m hm with ⟨u, hu, hun⟩ | hs
          · refine .inl ?_
            rcases List.mem_cons.mp hu with rfl | hu
            · exact ⟨_, List.mem_cons_self, hun⟩
            · exact ⟨u, List.mem_append_right _ hu, hun⟩
          · rw [hsaving] at hs
            cases hs
    · exact h.idle rfl rfl rfl hload rfl rfl rfl hends hposting (fun r r' hr hle => ⟨r', hr, hle⟩)
        fun _ he => absurd (show "Recovery is unavailable. Keep this screen open until you save or copy the text." = "" from he) (by decide)
  · next hsaving =>
    have hsaving : s.snapshot.saving = false := by simpa using hsaving
    refine h.idle rfl rfl hsaving hload rfl rfl rfl hends hposting
      (fun r r' hr hle => ⟨r', hr, hle⟩) fun hl he => ?_
    obtain ⟨row, hr, hv, hn, hlt⟩ := h.synced hl hsaving he
    refine ⟨row, hr, hv, hn, fun t ht r hr => ?_⟩
    rcases List.mem_cons.mp ht with rfl | ht
    · cases hr
    · exact hlt t (List.mem_cons_of_mem _ ht) r hr

/-- The loop catches an error. -/
theorem Held.failed {s : Shared V} {t : Task V} {ts : List (Task V)} {n : ℕ} {m : String}
    (h : Held s (t :: ts)) (hload : s.load = .done) (hnone : ∀ m k o, Task.posting m k o ∉ ts)
    (hm : m ≠ "") :
    Held (Recovery.loop n (s.fail m)).1 ((Recovery.loop n (s.fail m)).2 ++ ts) := by
  refine Held.loop (s := s.fail m) (h.idle rfl rfl rfl hload rfl rfl rfl (fun u hu => ?_) (fun m' k o hu => ?_)
    (fun r r' hr hle => ⟨r', hr, hle⟩) fun _ he => absurd he hm) hload hnone
  · rcases List.mem_cons.mp hu with rfl | hu
    · exact .inr ⟨rfl, rfl, rfl⟩
    · exact .inl (List.mem_cons_of_mem _ hu)
  · exact hnone m' k o ((List.mem_cons.mp hu).resolve_left nofun)

/-- The answer to a save reaches the loop. -/
theorem Held.answered [DecidableEq V] {s : Shared V} {ts : List (Task V)} {n k r : ℕ}
    {o : Snapshot V} (h : Held s (.posting n k o :: ts)) (hload : s.load = .done)
    (hnone : ∀ m k o, Task.posting m k o ∉ ts) (hr : s.results k = some (.ok r)) :
    Held (answered n o r s).1 ((answered n o r s).2 ++ ts) := by
  obtain ⟨row, hrow, hvalue, hrevision, r', hversions, rfl⟩ :=
    h.accepted n k o List.mem_cons_self r hr
  have hsaving := h.saving n k o List.mem_cons_self
  have hsent : ∀ q q', s.versions = some q' → q ≤ q' → ∃ q'', some (r' + 1) = some q'' ∧ q ≤ q'' := by
    intro q q' hq hle
    rw [hversions, Option.some.injEq] at hq
    exact ⟨r' + 1, rfl, by omega⟩
  have hgone : ∀ m k o, Task.posting m k o ∉ .waiting n :: ts := fun m k o hu =>
    hnone m k o ((List.mem_cons.mp hu).resolve_left nofun)
  unfold Recovery.answered
  refine Held.loop ?_ ?_ hnone
  · split
    · next hsame =>
      refine h.idle rfl (congrArg Snapshot.value hsame).symm rfl hload rfl rfl rfl (fun u hu => ?_)
        hgone hsent fun hl _ => ?_
      · rcases List.mem_cons.mp hu with rfl | hu
        · exact .inr ⟨rfl, rfl, rfl⟩
        · exact .inl (List.mem_cons_of_mem _ hu)
      · obtain ⟨v, hv⟩ := Option.ne_none_iff_exists'.mp hl
        refine ⟨row, hrow, ?_, by rw [hrevision]; rfl, fun u hu q hq => ?_⟩
        · rw [hvalue, ← hsame, h.value v hv]
          exact hv
        · rcases List.mem_cons.mp hu with rfl | hu
          · cases hq
          · obtain ⟨q', hq', hle⟩ := h.sent u (List.mem_cons_of_mem _ hu) q hq
            rw [hversions, Option.some.injEq] at hq'
            omega
    · refine ⟨h.value, fun hl => absurd hload hl, h.numbers, fun u hu => ?_, fun u hu q hq => ?_,
        fun m k o hu => absurd hu (hgone m k o), fun m k o hu => absurd hu (hgone m k o),
        fun m k o hu => absurd hu (hgone m k o), fun _ hs => ?_, fun u hu m hm => ?_, h.flushed⟩
      · rcases List.mem_cons.mp hu with rfl | hu
        · exact fun _ hk => nomatch hk
        · exact h.posted u (List.mem_cons_of_mem _ hu)
      · rcases List.mem_cons.mp hu with rfl | hu
        · cases hq
        · obtain ⟨q', hq', hle⟩ := h.sent u (List.mem_cons_of_mem _ hu) q hq
          exact hsent q q' hq' hle
      · exact absurd (hsaving.symm.trans hs) (by decide)
      · rcases List.mem_cons.mp hu with rfl | hu
        · cases hm
        · rcases h.awaited u (List.mem_cons_of_mem _ hu) m hm with ⟨w, hw, hwm⟩ | hs
          · rcases List.mem_cons.mp hw with rfl | hw
            · exact .inl ⟨_, List.mem_cons_self, hwm⟩
            · exact .inl ⟨w, List.mem_cons_of_mem _ hw, hwm⟩
          · exact .inr hs
  · split
    · exact hload
    · exact hload

theorem numbers_update {f : ℕ → Option (Except String ℕ)} {k p : ℕ} {v : Option (Except String ℕ)}
    (h : ∀ k', p ≤ k' → f k' = none) (hk : k < p) (k' : ℕ) (hk' : p ≤ k') :
    Function.update f k v k' = none := by
  rw [Function.update_of_ne (by omega)]
  exact h k' hk'

/-- The server refuses a save. -/
theorem Held.refused {s : Shared V} {ts : List (Task V)} {k r : ℕ} {value : Option V}
    (h : Held s (.sent k value r :: ts)) (m : String) :
    Held { s with results := Function.update s.results k (some (.error m)) } ts := by
  have hrest : Held s ts := h.congr rfl rfl (fun hl => hl) rfl rfl rfl rfl rfl
    (fun t ht => .inl (List.mem_cons_of_mem _ ht)) fun t ht hloop => .inl ⟨t, by
      rcases List.mem_cons.mp ht with rfl | ht
      · cases hloop
      · exact ht, rfl⟩
  have hk := h.posted _ List.mem_cons_self k rfl
  refine ⟨hrest.value, hrest.early, numbers_update hrest.numbers hk, hrest.posted, hrest.sent,
    hrest.saving, hrest.body, fun n k' o ht q hq => ?_, hrest.synced, hrest.awaited, hrest.flushed⟩
  · rcases update_eq_some hq with ⟨-, heq⟩ | ⟨-, hq⟩
    · cases heq
    · exact hrest.accepted n k' o ht q hq

/-- A save that the server accepts is the one that the page waits for, or the page has an edit to save
or an error to show. -/
theorem Held.saveRecovery {s : Shared V} {ts : List (Task V)} {k r : ℕ} {value : Option V}
    (h : Held s (.sent k value r :: ts)) : Held (saveRecovery k value r s) ts := by
  unfold Recovery.saveRecovery
  split
  · next heq =>
    have hk := h.posted _ List.mem_cons_self k rfl
    obtain ⟨r', hr', hle⟩ := h.sent _ List.mem_cons_self r rfl
    refine ⟨h.value, h.early, numbers_update h.numbers hk,
      fun t ht => h.posted t (List.mem_cons_of_mem _ ht),
      fun t ht => h.sent t (List.mem_cons_of_mem _ ht),
      fun n k' o ht => h.saving n k' o (List.mem_cons_of_mem _ ht),
      fun n k' o ht v q hs => h.body n k' o (List.mem_cons_of_mem _ ht) v q (List.mem_cons_of_mem _ hs),
      fun n k' o ht q hq => ?_, fun hl hs he => ?_, fun t ht n hn => ?_, h.flushed⟩
    · rcases update_eq_some hq with ⟨rfl, hok⟩ | ⟨-, hq⟩
      · cases hok
        obtain ⟨hv, hversions⟩ := h.body n k' o (List.mem_cons_of_mem _ ht) value r List.mem_cons_self
        exact ⟨_, rfl, hv, rfl, r, hversions, by rw [heq]⟩
      · -- the save that the page waits for has been accepted already
        obtain ⟨row, hrow, -, hrevision, q', hq', rfl⟩ :=
          h.accepted n k' o (List.mem_cons_of_mem _ ht) q hq
        have hrev : s.revision = row.revision := by rw [Shared.revision, hrow]; rfl
        have hsame : q' = r' := Option.some.inj (hq'.symm.trans hr')
        omega
    · obtain ⟨row, hrow, -, -, hlt⟩ := h.synced hl hs he
      have hrev : s.revision = row.revision := by rw [Shared.revision, hrow]; rfl
      have hless := hlt _ List.mem_cons_self r rfl
      omega
    · rcases h.awaited t (List.mem_cons_of_mem _ ht) n hn with ⟨u, hu, hun⟩ | hs
      · rcases List.mem_cons.mp hu with rfl | hu
        · cases hun
        · exact .inl ⟨u, hu, hun⟩
      · exact .inr hs
  · exact h.refused _

theorem revision_early {t : Task V} (h : t.early) : t.revision = none := by
  cases t with
  | sent => cases h
  | _ => rfl

/-- Before hydration is over no save waits or is on its way. -/
theorem Held.hydrates {s s' : Shared V} {ts after : List (Task V)} (h : Held s ts)
    (hload : s.load ≠ .done) (hearly : ∀ t ∈ ts, t.early) (hload' : s'.load = .done)
    (hlatest : s'.latest = s.latest) (hvalue : s.latest ≠ none → s'.snapshot.value = s.snapshot.value)
    (hsaving : s'.snapshot.saving = s.snapshot.saving) (hposts : s'.posts = s.posts)
    (hresults : s'.results = s.results) (hflushed : s'.flushed = s.flushed)
    (hafter : ∀ t ∈ after, t.Plain) : Held s' (after ++ ts) := by
  have hposting : ∀ n k o, Task.posting n k o ∉ after ++ ts := by
    intro n k o ht
    rcases List.mem_append.mp ht with ht | ht
    · exact plain_posting (hafter _ ht)
    · exact nomatch hearly _ ht
  have hsent : ∀ t ∈ after ++ ts, ∀ r, t.revision ≠ some r := by
    intro t ht r hr
    rcases List.mem_append.mp ht with ht | ht
    · exact nomatch (hafter t ht).1.symm.trans hr
    · rw [revision_early (hearly t ht)] at hr
      cases hr
  refine ⟨fun v hv => ?_, fun hl => absurd hload' hl, by rw [hposts, hresults]; exact h.numbers,
    fun t ht k hk => ?_, fun t ht r hr => absurd hr (hsent t ht r),
    fun n k o ht => absurd ht (hposting n k o), fun n k o ht => absurd ht (hposting n k o),
    fun n k o ht => absurd ht (hposting n k o), fun hl hs _ => ?_, fun t ht n hn => ?_,
    by rw [hflushed]; exact h.flushed⟩
  · rw [hlatest] at hv
    rw [hvalue (by rw [hv]; exact Option.some_ne_none v)]
    exact h.value v hv
  · rw [hposts]
    rcases List.mem_append.mp ht with ht | ht
    · rw [(hafter t ht).2.1] at hk
      cases hk
    · exact h.posted t ht k hk
  · rw [hlatest] at hl
    have hsav := h.early hload hl
    rw [← hsaving, hs] at hsav
    cases hsav
  · rw [hsaving]
    rcases List.mem_append.mp ht with ht | ht
    · rw [(hafter t ht).2.2] at hn
      cases hn
    · refine (h.awaited t ht n hn).imp_left ?_
      rintro ⟨u, hu, hun⟩
      exact ⟨u, List.mem_append_right _ hu, hun⟩

theorem Held.hydrated [DecidableEq V] {s : Shared V} {ts : List (Task V)} (h : Held s ts)
    (hload : s.load ≠ .done) (hearly : ∀ t ∈ ts, t.early) (original : Snapshot V)
    (found : Option (Row V)) :
    Held (hydrated original found s).1 ((hydrated original found s).2 ++ ts) := by
  unfold Recovery.hydrated
  split
  · next hsame =>
    have hidle : s.snapshot.saving = false := by rw [hsame.1]; exact hsame.2
    -- an edit before this would still wait to be saved
    have hnone : s.latest = none := by
      by_contra hl
      rw [h.early hload hl] at hidle
      cases hidle
    split
    · exact h.hydrates hload hearly rfl rfl (fun hl => absurd hnone hl) hidle.symm rfl rfl rfl
        fun _ ht => absurd ht List.not_mem_nil
    · refine h.hydrates hload hearly rfl rfl (fun hl => absurd hnone hl) hidle.symm rfl rfl rfl ?_
      intro t ht
      dsimp only at ht
      split at ht
      · rw [List.mem_singleton.mp ht]
        exact ⟨rfl, rfl, rfl⟩
      · cases ht
  · exact h.hydrates hload hearly rfl rfl (fun _ => rfl) rfl rfl rfl rfl
      fun _ ht => absurd ht List.not_mem_nil

/-- A flush ends when its saver has been taken out of `saves`. -/
theorem Held.ended {s : Shared V} {ts : List (Task V)} {n : ℕ} (h : Held s (.flushing n :: ts))
    (ho : Orderly s (.flushing n :: ts)) (hn : s.saves ≠ some n) :
    Held (Recovery.flushed s) ts := by
  have hrest : Held s ts := h.congr rfl rfl (fun hl => hl) rfl rfl rfl rfl rfl
    (fun t ht => .inl (List.mem_cons_of_mem _ ht)) fun t ht hloop => .inl ⟨t, by
      rcases List.mem_cons.mp ht with rfl | ht
      · cases hloop
      · exact ht, rfl⟩
  have hsaving : s.snapshot.saving = false := by
    refine (h.awaited _ List.mem_cons_self n rfl).resolve_left ?_
    rintro ⟨u, hu, hun⟩
    have hsaver : u.saver = some n := by
      cases u <;> first | exact hun | cases hun
    have hmem : n ∈ s.saves.toList := ho.one ▸ List.mem_filterMap.mpr ⟨u, hu, hsaver⟩
    exact hn (Option.mem_toList.mp hmem)
  unfold Recovery.flushed
  split
  · next herror =>
    refine ⟨hrest.value, hrest.early, hrest.numbers, hrest.posted, hrest.sent, hrest.saving,
      hrest.body, hrest.accepted, hrest.synced, hrest.awaited, fun p hp v hv => ?_⟩
    rcases List.mem_cons.mp hp with rfl | hp
    · have hv : s.latest = some v := hv
      obtain ⟨row, hrow, hlatest, -⟩ := hrest.synced (by rw [hv]; exact Option.some_ne_none v)
        hsaving herror
      rw [hlatest, Option.some.injEq] at hv
      rw [hrow, ← hv]
      rfl
    · exact hrest.flushed p hp v hv
  · exact hrest

theorem Held.resume [DecidableEq V] {s : Shared V} {t : Task V} {ts : List (Task V)} {x : Input}
    (h : Held s (t :: ts)) (ho : Orderly s (t :: ts)) (hC : Undisturbed.resume t x s ts) :
    Held (resume t x s).1 ((resume t x s).2 ++ ts) := by
  have hrest : t.looping = none → Held s ts := fun hloop =>
    h.congr rfl rfl (fun hl => hl) rfl rfl rfl rfl rfl (fun u hu => .inl (List.mem_cons_of_mem _ hu))
      fun u hu hsome => .inl ⟨u, by
        rcases List.mem_cons.mp hu with rfl | hu
        · rw [hloop] at hsome
          cases hsome
        · exact hu, rfl⟩
  -- while hydration waits it is not over
  have hearly : t.hydrates → s.load ≠ .done ∧ ∀ u ∈ ts, u.early := by
    intro ht
    have hl : s.load ≠ .done := by
      intro hl
      have hloads := ho.loads
      rw [List.countP_cons_of_pos ht, hl, if_neg (by decide)] at hloads
      cases hloads
    exact ⟨hl, fun u hu => ho.early hl u (List.mem_cons_of_mem _ hu)⟩
  have hunhydrated : t.hydrates → t.looping = none → Held (unhydrated s) ([] ++ ts) := by
    intro ht hloop
    exact (hrest hloop).hydrates (hearly ht).1 (hearly ht).2 rfl rfl (fun _ => rfl) rfl rfl rfl rfl
      fun _ hu => absurd hu List.not_mem_nil
  unfold Recovery.resume
  split
  · refine (hrest rfl).more rfl rfl (fun hl => hl) rfl rfl rfl rfl rfl fun u hu => ?_
    rw [List.mem_singleton.mp hu]
    exact ⟨rfl, rfl, rfl⟩
  · exact hunhydrated rfl rfl
  · exact hunhydrated rfl rfl
  · exact hunhydrated rfl rfl
  · exact (hrest rfl).hydrated (hearly rfl).1 (hearly rfl).2 _ _
  · exact (hrest rfl).write hC _ _
  · split
    · next hload => exact h.loop hload fun _ _ _ => not_posting ho rfl
    · exact h
  · have hload := ho.done rfl
    have hnone : ∀ m k o, Task.posting m k o ∉ ts := fun _ _ _ => not_posting ho rfl
    split
    · next hr => exact h.answered hload hnone hr
    · refine h.failed hload hnone ?_
      split
      · decide
      · assumption
    · exact h
  · next m => exact h.failed (ho.done rfl) (fun _ _ _ => not_posting ho rfl) m.2
  · exact (hrest rfl).congr rfl rfl (fun hl => hl) rfl rfl rfl rfl rfl (fun u hu => .inl hu)
      fun u hu _ => .inl ⟨u, hu, rfl⟩
  · exact h.saveRecovery
  · exact h.refused _
  · split
    · exact h
    · next hn => exact h.ended ho hn
  · exact h

theorem Held.perm {s : Shared V} {ts us : List (Task V)} (hp : ts.Perm us) (h : Held s ts) :
    Held s us :=
  h.congr rfl rfl (fun hl => hl) rfl rfl rfl rfl rfl (fun _ ht => .inl (hp.mem_iff.mpr ht))
    fun t ht _ => .inl ⟨t, hp.mem_iff.mp ht, rfl⟩

theorem Held.enter {s : Shared V} {ts : List (Task V)} (h : Held s ts) {r : Request V}
    (hC : Undisturbed.enter r s ts) (hothers : (enter r s).1.others = false) :
    Held (enter r s).1 ((enter r s).2 ++ ts) := by
  cases r with
  | write value stored => exact h.write hC value stored
  | flush => exact h.flush hC
  | other value => cases hothers
  | hydrate =>
    obtain ⟨load, hs, hload, hplain⟩ := hydrate_spec s
    rw [Recovery.enter, hs]
    exact h.more rfl rfl (fun hl hd => hl (hload hd)) rfl rfl rfl rfl rfl hplain

/-! ### Runs -/

/-- Only another view's save changes whether one has written. -/
theorem others_resume [DecidableEq V] (t : Task V) (x : Input) (s : Shared V) :
    (resume t x s).1.others = s.others := by
  have hpersist : ∀ s : Shared V, (persist s).2.1.others = s.others := by
    intro s
    obtain ⟨load, saves, savers, hs, -⟩ := persist_spec s
    rw [hs]
  have hloop : ∀ (n : ℕ) (s : Shared V), (loop n s).1.others = s.others := by
    intro n s
    unfold loop
    split
    · split <;> rfl
    · rfl
  unfold resume
  split
  · rfl
  · rfl
  · rfl
  · rfl
  · unfold hydrated
    split
    · split <;> rfl
    · rfl
  · exact hpersist _
  · split
    · exact hloop _ _
    · rfl
  · split
    · refine (hloop _ _).trans ?_
      split <;> rfl
    · exact hloop _ _
    · rfl
  · exact hloop _ _
  · rfl
  · unfold saveRecovery
    split <;> rfl
  · rfl
  · split
    · rfl
    · unfold flushed
      split <;> rfl
  · rfl

theorem others_enter (r : Request V) {s : Shared V} (h : (enter r s).1.others = false) :
    s.others = false := by
  cases r with
  | other value => cases h
  | write value stored =>
    obtain ⟨load, saves, savers, hs, -⟩ := persist_spec ({ s with latest := some value }.set value
      (if stored then ""
      else "Browser recovery is unavailable. Keep this screen open until the workspace confirms the save.")
      true s.snapshot.ready)
    rw [enter, write, hs] at h
    exact h
  | flush =>
    obtain ⟨load, saves, savers, hs, -⟩ := persist_spec s
    rw [enter, flush, hs] at h
    exact h
  | hydrate =>
    obtain ⟨load, hs, -⟩ := hydrate_spec s
    rw [enter, hs] at h
    exact h

/-- While edits, saves and hydration do not meet. -/
def Sound (s : Shared V) (ts : List (Task V)) : Prop :=
  Orderly s ts ∧ Seen s ts ∧ (s.others = false → Held s ts)

theorem invariant [DecidableEq V] :
    Invariant (server (V := V)) Undisturbed Sound where
  perm s ts us hp h :=
    ⟨h.1.perm hp, h.2.1.congr rfl rfl rfl rfl fun _ ht => .inl (hp.mem_iff.mpr ht),
      fun ho => (h.2.2 ho).perm hp⟩
  enter r s ts h hC :=
    ⟨h.1.enter r, h.2.1.enter r, fun ho => (h.2.2 (others_enter r ho)).enter hC ho⟩
  resume t x s ts h hC :=
    ⟨h.1.resume x, h.2.1.resume hC,
      fun ho => (h.2.2 ((others_resume t x s).symm.trans ho)).resume h.1 hC⟩
  restart s ts h := by
    rw [show ts.filter (server (V := V)).survives = ts from List.filter_eq_self.mpr fun _ _ => rfl]
    exact h

theorem sound_initial (opening : Bool) (row : Option (Row V)) (copy : Option (Option V)) :
    Sound (initial opening row copy).shared (initial opening row copy).waiting := by
  refine ⟨⟨rfl, ?_, fun _ _ ht => absurd ht List.not_mem_nil⟩,
    ⟨fun _ hr => (nomatch hr), fun _ ht => absurd ht List.not_mem_nil, fun _ _ hr => (nomatch hr),
      fun _ hr => absurd hr List.not_mem_nil⟩,
    fun _ => ⟨fun _ hv => (nomatch hv), fun _ hl => absurd rfl hl, fun _ _ => rfl,
      fun _ ht => absurd ht List.not_mem_nil, fun _ ht => absurd ht List.not_mem_nil,
      fun _ _ _ ht => absurd ht List.not_mem_nil, fun _ _ _ ht => absurd ht List.not_mem_nil,
      fun _ _ _ ht => absurd ht List.not_mem_nil, fun hl => absurd rfl hl,
      fun _ ht => absurd ht List.not_mem_nil, fun _ hp => absurd hp List.not_mem_nil⟩⟩
  cases opening <;> rfl

/-- While edits, saves and hydration do not meet, no save replaces a revision that the view has
neither loaded nor written, and if no other view writes, the server holds the latest edit whenever a
flush ends without an error. -/
theorem flush_holds_latest [DecidableEq V] (opening : Bool) (row : Option (Row V))
    (copy : Option (Option V)) (es : List (Event (Request V) Input))
    (h : Along server.step Undisturbed.At (initial opening row copy) es) :
    (∀ r ∈ (server.run (initial opening row copy) es).shared.replaced,
      r ∈ (server.run (initial opening row copy) es).shared.known) ∧
    ((server.run (initial opening row copy) es).shared.others = false →
      ∀ p ∈ (server.run (initial opening row copy) es).shared.flushed,
        ∀ v, p.1 = some v → p.2 = some v) := by
  obtain ⟨-, hseen, hheld⟩ := invariant.run (sound_initial opening row copy) h
  exact ⟨hseen.replaced, fun hothers => (hheld hothers).flushed⟩

instance : (r : Request V) → (s : Shared V) → (ts : List (Task V)) →
    Decidable (Undisturbed.enter r s ts)
  | .write _ _, _, ts => inferInstanceAs (Decidable (Attended ts))
  | .flush, s, ts => inferInstanceAs (Decidable
      (∀ n ∈ s.saves, (∃ t ∈ ts, t.looping = some n) ∨ s.snapshot.saving = false))
  | .hydrate, _, _ | .other _, _, _ => .isTrue trivial

instance [DecidableEq V] : (t : Task V) → (x : Input) → (s : Shared V) → (ts : List (Task V)) →
    Decidable (Undisturbed.resume t x s ts) := fun t x s ts => by
  unfold Undisturbed
  dsimp only
  split
  · exact inferInstanceAs (Decidable (Attended ts))
  · exact inferInstanceAs (Decidable (_ ∧ _))
  · exact .isTrue trivial

/-- A row is loaded, two edits are made, the second while the first is being saved, and flushed. -/
def typing : List (Event (Request String) Input) :=
  [.arrive .hydrate, .wake 0 .go, .wake 0 .go, .arrive (.write (some "a") true), .wake 0 .go,
    .arrive (.write (some "ab") true), .arrive .flush, .wake 2 .go, .wake 1 .go, .wake 1 .go,
    .wake 0 .go, .wake 0 .go, .wake 0 .go]

/-- What the server has of an earlier visit. -/
def earlier : Option (Row String) := some ⟨some "old", 7, by decide⟩

theorem flush_holds_latest_typing :
    (∀ r ∈ (server.run (initial false earlier none) typing).shared.replaced,
      r ∈ (server.run (initial false earlier none) typing).shared.known) ∧
    ((server.run (initial false earlier none) typing).shared.others = false →
      ∀ p ∈ (server.run (initial false earlier none) typing).shared.flushed,
        ∀ v, p.1 = some v → p.2 = some v) :=
  flush_holds_latest false earlier none typing (by decide)

/-- An edit between the end of the loop and the saver's removal stays unsaved when the flush ends; an
edit during hydration is saved over a row that the view has not loaded. -/
theorem edit_missed_and_row_unseen :
    (server.run (initial (V := String) false none none)
      [.arrive .hydrate, .wake 0 .go, .wake 0 .go, .arrive (.write (some "a") true), .wake 0 .go,
        .wake 1 .go, .wake 0 .go, .arrive .flush, .arrive (.write (some "ab") true), .wake 1 .go,
        .wake 0 .go]).shared.flushed = [(some (some "ab"), some (some "a"))] ∧
    (server.run (initial false earlier none)
      [.arrive .hydrate, .arrive (.write (some "a") true), .wake 1 .go, .wake 0 .go, .wake 0 .go,
        .wake 1 .go]).shared.replaced = [7] ∧
    7 ∉ (server.run (initial false earlier none)
      [.arrive .hydrate, .arrive (.write (some "a") true), .wake 1 .go, .wake 0 .go, .wake 0 .go,
        .wake 1 .go]).shared.known := by
  decide

end ForgeOS.Galaxy.Recovery
