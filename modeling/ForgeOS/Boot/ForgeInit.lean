import Mathlib.Algebra.Group.Nat.Defs
import Mathlib.Logic.Function.Basic
import ForgeOS.Library.Conditions

/-! `forge_init`, the first process of the tablet. It starts four children and then, once a second, reaps
those that have exited and starts some of them again. A child is known by the id that its variable
holds. -/

namespace ForgeOS.Boot.ForgeInit

open ForgeOS.Library.Conditions

/-! ### Children -/

abbrev Pid := ℕ

inductive Kind
  | adb
  | screen
  | network
  | runtime
  deriving DecidableEq, Repr

/-- A process that has been started: it runs, or has exited and not been reaped. -/
structure Child where
  kind : Kind
  alive : Bool
  deriving DecidableEq, Repr

/-- `unsigned` -/
def wrap (n : ℕ) : ℕ := n % 2 ^ 32

/-- The variables of `main`, and the processes that it has started. An id of -1 is `none`. -/
structure State where
  table : Pid → Option Child
  /-- `adb`, `screen`, `network` and `runtime` -/
  var : Kind → Option Pid
  storageOk : Bool
  /-- `recovery_requested`, or the file of a request exists -/
  requested : Bool
  runtimeRetry : ℕ
  networkRetry : ℕ
  failures : ℕ
  seconds : ℕ
  /-- the loop has not been left -/
  running : Bool

namespace State

/-- `spawn`, with what `fork` returns, into the variable of a kind. -/
def spawn (s : State) (k : Kind) (fork : Option Pid) : State :=
  { s with
    table := fun p => if fork = some p then some ⟨k, true⟩ else s.table p
    var := Function.update s.var k fork }

/-- The body of the `while` loop, for a child that has been reaped: `fork` returns one value for the
screen and one for `adbd`. -/
def handle (s : State) (p : Pid) (screen adb : Option Pid) : State :=
  let s := if s.var .screen = some p then { s with var := Function.update s.var .screen none } else s
  let s :=
    if s.var .runtime = some p then
      let failures := wrap (s.failures + 1)
      { s with
        var := Function.update s.var .runtime none
        failures := failures
        runtimeRetry := wrap (s.seconds + if failures ≥ 3 then 60 else 5) }.spawn .screen screen
    else s
  let s :=
    if s.var .network = some p then
      { s with
        var := Function.update s.var .network none
        networkRetry := wrap (s.seconds + 5) }
    else s
  if s.var .adb = some p then s.spawn .adb adb else s

/-- A child that is missing is started when its time has come. -/
def retry (s : State) (k : Kind) (time : ℕ) (fork : Option Pid) : State :=
  if s.storageOk ∧ s.var k = none ∧ s.seconds ≥ time then s.spawn k fork else s

/-- The condition of the loop and the one under which it is left. -/
def check (s : State) (probe : ℕ) : State :=
  { s with
    running := s.running && (probe == 0 || decide (s.seconds < probe)) && !s.requested &&
      (s.storageOk || decide (s.seconds < 15)) }

/-- The rest of a round, once no child is left to reap. -/
def round (s : State) (probe : ℕ) (runtime network : Option Pid) : State :=
  let s := s.retry .runtime s.runtimeRetry runtime
  let s := s.retry .network s.networkRetry network
  { s with seconds := wrap (s.seconds + 1) }.check probe

end State

/-- Before the loop. -/
def boot (probe : ℕ) (storageOk requested : Bool) (forks : Kind → Option Pid) : State :=
  let s : State :=
    { table := fun _ => none
      var := fun _ => none
      storageOk := storageOk
      requested := requested
      runtimeRetry := 0
      networkRetry := 0
      failures := 0
      seconds := 0
      running := true }
  let s := s.spawn .adb (forks .adb)
  let s := s.spawn .screen (forks .screen)
  let s := if storageOk then s.spawn .network (forks .network) else s
  let s := if storageOk then s.spawn .runtime (forks .runtime) else s
  s.check probe

/-! ### Steps -/

inductive Event
  /-- a child exits, by itself or because it is killed -/
  | exit (p : Pid)
  /-- `waitpid` returns a child, and what `fork` returns after that -/
  | reap (p : Pid) (screen adb : Option Pid)
  /-- `waitpid` returns none -/
  | second (runtime network : Option Pid)
  | request
  deriving DecidableEq

/-- Once the loop has been left, children are reaped and none is started. -/
def step (probe : ℕ) (s : State) : Event → State
  | .exit p =>
    let exited := (s.table p).map fun c => { c with alive := false }
    { s with table := Function.update s.table p exited }
  | .reap p screen adb =>
    let s := { s with table := Function.update s.table p none }
    if s.running then s.handle p screen adb else s
  | .second runtime network => if s.running then s.round probe runtime network else s
  | .request => { s with requested := true }

/-- `fork` returns an id that no process has, or fails. -/
def Fresh (table : Pid → Option Child) (fork : Option Pid) : Prop := ∀ p ∈ fork, table p = none

/-- What the kernel can do. A process that `waitpid` returns has exited; it may also be one that `main`
has not started. No child is returned only if none has exited. -/
def Possible (s : State) : Event → Prop
  | .exit p => ∃ k, s.table p = some ⟨k, true⟩
  | .reap p screen adb =>
    (∀ c ∈ s.table p, c.alive = false) ∧ Fresh (Function.update s.table p none) screen ∧
      Fresh (Function.update s.table p none) adb
  | .second runtime network =>
    (∀ p, ∀ c ∈ s.table p, c.alive = true) ∧ Fresh s.table runtime ∧ Fresh s.table network ∧
      ∀ p ∈ runtime, p ∉ network
  | .request => True

def Live (s : State) (k : Kind) (p : Pid) : Prop := s.table p = some ⟨k, true⟩

/-- There are no two live children of one kind. -/
def State.Unique (s : State) : Prop := ∀ k p q, Live s k p → Live s k q → p = q

/-- Under what circumstances children are started again. -/
def State.Active (s : State) (probe : ℕ) : Prop :=
  s.storageOk = true ∧ s.requested = false ∧ (probe = 0 ∨ s.seconds < probe)

/-- When the runtime is reaped no screen lives or none can be started; a new `adbd` can be started; and
so can what is missing in the last second before the count of seconds begins again. -/
def Condition (s : State) : Event → Prop
  | .reap p screen adb => s.running = true →
    (s.var .runtime = some p → screen = none ∨ ∀ q, ¬Live s .screen q) ∧
      (s.var .adb = some p → adb ≠ none)
  | .second runtime network => s.running = true → s.seconds + 1 = 2 ^ 32 →
    (s.var .runtime = none → runtime ≠ none) ∧ (s.var .network = none → network ≠ none)
  | _ => True

/-! ### The children that are known -/

/-- The children are known by their variables. A screen may live that is not. -/
structure Inv (s : State) : Prop where
  unique : s.Unique
  tracked : s.running = true → ∀ k p, s.var k = some p → ∃ alive, s.table p = some ⟨k, alive⟩
  covered : s.running = true → ∀ k ≠ .screen, ∀ p, Live s k p → s.var k = some p

/-- The times do not matter for what is known. -/
theorem Inv.congr {s s' : State} (h : Inv s) (htable : s'.table = s.table) (hvar : s'.var = s.var)
    (hrunning : s'.running = true → s.running = true) : Inv s' where
  unique := by simpa only [State.Unique, Live, htable] using h.unique
  tracked := by
    rw [htable, hvar]
    exact fun htrue => h.tracked (hrunning htrue)
  covered := by
    simp only [Live, htable, hvar]
    exact fun htrue => h.covered (hrunning htrue)

theorem live_spawn {s : State} {k k' : Kind} {fork : Option Pid} {p : Pid} :
    Live (s.spawn k fork) k' p ↔ fork = some p ∧ k' = k ∨ fork ≠ some p ∧ Live s k' p := by
  unfold Live State.spawn
  by_cases h : fork = some p
  · simp [h, eq_comm]
  · simp [h]

theorem Inv.spawn {s : State} (h : Inv s) {k : Kind} {fork : Option Pid} (hfresh : Fresh s.table fork)
    (hdead : (k = .screen ∧ fork = none) ∨ ∀ q, ¬Live s k q) : Inv (s.spawn k fork) where
  unique := by
    intro k' p q hp hq
    rw [live_spawn] at hp hq
    rcases hp with ⟨hfork, rfl⟩ | ⟨-, hp⟩
    · rcases hq with ⟨hfork', -⟩ | ⟨-, hq⟩
      · rw [hfork] at hfork'
        exact Option.some.inj hfork'
      · rcases hdead with ⟨-, hnone⟩ | hdead
        · rw [hfork] at hnone
          cases hnone
        · exact absurd hq (hdead q)
    · rcases hq with ⟨hfork, rfl⟩ | ⟨-, hq⟩
      · rcases hdead with ⟨-, hnone⟩ | hdead
        · rw [hfork] at hnone
          cases hnone
        · exact absurd hp (hdead p)
      · exact h.unique k' p q hp hq
  tracked := by
    intro hrunning k' p hvar
    by_cases hk : k' = k
    · subst hk
      have hfork : fork = some p := by simpa [State.spawn] using hvar
      exact ⟨true, by simp [State.spawn, hfork]⟩
    · have hvar' : s.var k' = some p := by simpa [State.spawn, hk] using hvar
      obtain ⟨alive, htable⟩ := h.tracked hrunning k' p hvar'
      have hne : fork ≠ some p := by
        intro hfork
        rw [hfresh p hfork] at htable
        cases htable
      exact ⟨alive, by simp [State.spawn, hne, htable]⟩
  covered := by
    intro hrunning k' hscreen p hp
    rw [live_spawn] at hp
    rcases hp with ⟨hfork, rfl⟩ | ⟨-, hp⟩
    · simp [State.spawn, hfork]
    · have hk : k' ≠ k := by
        rintro rfl
        rcases hdead with ⟨heq, -⟩ | hdead
        · exact hscreen heq
        · exact hdead p hp
      have hvar := h.covered hrunning k' hscreen p hp
      simpa [State.spawn, hk] using hvar

/-- A child that has been reaped, out of the variable that held its id. -/
def State.forget (s : State) (p : Pid) (k : Kind) : State :=
  { s with table := Function.update s.table p none, var := Function.update s.var k none }

/-- A child that has been reaped and that no variable held. -/
def State.discard (s : State) (p : Pid) : State :=
  { s with table := Function.update s.table p none }

theorem live_discard {s : State} {p q : Pid} {k : Kind} :
    Live (s.discard p) k q ↔ q ≠ p ∧ Live s k q := by
  unfold Live State.discard
  by_cases h : q = p
  · simp [h]
  · simp [h]

theorem Inv.discard {s : State} (h : Inv s) {p : Pid} (hvar : s.running = true → ∀ k, s.var k ≠ some p) :
    Inv (s.discard p) where
  unique := fun k q q' hq hq' => h.unique k q q' (live_discard.mp hq).2 (live_discard.mp hq').2
  tracked := by
    intro hrunning k q hq
    have hne : q ≠ p := by
      rintro rfl
      exact hvar hrunning k hq
    obtain ⟨alive, htable⟩ := h.tracked hrunning k q hq
    exact ⟨alive, by simp [State.discard, hne, htable]⟩
  covered := fun hrunning k hk q hq => h.covered hrunning k hk q (live_discard.mp hq).2

/-- Two variables do not hold one id. -/
theorem Inv.var_inj {s : State} (h : Inv s) (hrunning : s.running = true) {k k' : Kind} {p : Pid}
    (hk : s.var k = some p) (hk' : s.var k' = some p) : k' = k := by
  obtain ⟨alive, htable⟩ := h.tracked hrunning k p hk
  obtain ⟨alive', htable'⟩ := h.tracked hrunning k' p hk'
  rw [htable] at htable'
  cases htable'
  rfl

theorem Inv.forget {s : State} (h : Inv s) {p : Pid} {k : Kind}
    (hvar : s.running = true → s.var k = some p) : Inv (s.forget p k) where
  unique := fun k q q' hq hq' => h.unique k q q' (live_discard.mp hq).2 (live_discard.mp hq').2
  tracked := by
    intro hrunning k' q hq
    have hk : k' ≠ k := by
      rintro rfl
      simp [State.forget] at hq
    have hq' : s.var k' = some q := by simpa [State.forget, hk] using hq
    have hne : q ≠ p := by
      rintro rfl
      exact hk (h.var_inj hrunning (hvar hrunning) hq')
    obtain ⟨alive, htable⟩ := h.tracked hrunning k' q hq'
    exact ⟨alive, by simp [State.forget, hne, htable]⟩
  covered := by
    intro hrunning k' hscreen q hq
    obtain ⟨hne, hq⟩ := live_discard.mp hq
    have hq' := h.covered hrunning k' hscreen q hq
    have hk : k' ≠ k := by
      rintro rfl
      rw [hvar hrunning] at hq'
      exact hne (Option.some.inj hq').symm
    simpa [State.forget, hk] using hq'

/-! ### What a step does -/

/-- What `main` does with a child that it has reaped. -/
inductive Reaped (s : State) (p : Pid) (screen adb : Option Pid) : State → Prop
  | unknown : (∀ k, s.var k ≠ some p) → Reaped s p screen adb (s.discard p)
  | screen : s.var .screen = some p → Reaped s p screen adb (s.forget p .screen)
  | runtime (failures time : ℕ) : s.var .runtime = some p → time < 2 ^ 32 → time ≤ s.seconds + 60 →
      Reaped s p screen adb
        (({ s.forget p .runtime with failures := failures, runtimeRetry := time } : State).spawn .screen
          screen)
  | network (time : ℕ) : s.var .network = some p → time < 2 ^ 32 → time ≤ s.seconds + 60 →
      Reaped s p screen adb { s.forget p .network with networkRetry := time }
  | adb : s.var .adb = some p → Reaped s p screen adb ((s.forget p .adb).spawn .adb adb)

theorem wrap_lt (n : ℕ) : wrap n < 2 ^ 32 := Nat.mod_lt _ (by decide)

theorem wrap_le (n : ℕ) : wrap n ≤ n := Nat.mod_le _ _

theorem reaped_of_step {probe : ℕ} {s : State} (h : Inv s) (hrunning : s.running = true) (p : Pid)
    (screen adb : Option Pid) : Reaped s p screen adb (step probe s (.reap p screen adb)) := by
  have hother : ∀ k, s.var k = some p → ∀ k', k' ≠ k → s.var k' ≠ some p :=
    fun k hk k' hne hk' => hne (h.var_inj hrunning hk hk')
  have hstep : step probe s (.reap p screen adb) = (s.discard p).handle p screen adb := by
    simp [step, hrunning, State.discard]
  have hvar : (s.discard p).var = s.var := rfl
  have hseconds : (s.discard p).seconds = s.seconds := rfl
  rw [hstep, State.handle]
  simp only [hvar, hseconds]
  by_cases hscreen : s.var .screen = some p
  · have hr := hother .screen hscreen .runtime (by decide)
    have hn := hother .screen hscreen .network (by decide)
    have ha := hother .screen hscreen .adb (by decide)
    have hreaped : Reaped s p screen adb (s.forget p .screen) := .screen hscreen
    simpa [hscreen, hr, hn, ha, hvar, State.discard, State.forget] using hreaped
  rw [if_neg hscreen]
  by_cases hruntime : s.var .runtime = some p
  · have hn := hother .runtime hruntime .network (by decide)
    have ha := hother .runtime hruntime .adb (by decide)
    have hle : wrap (s.seconds + if wrap ((s.discard p).failures + 1) ≥ 3 then 60 else 5) ≤
        s.seconds + 60 := by
      refine Nat.le_trans (wrap_le _) ?_
      split_ifs <;> omega
    have hreaped : Reaped s p screen adb _ :=
      .runtime (wrap ((s.discard p).failures + 1)) _ hruntime (wrap_lt _) hle
    simpa [hruntime, hn, ha, hvar, State.discard, State.forget, State.spawn] using hreaped
  simp only [hvar, hruntime, if_false]
  by_cases hnetwork : s.var .network = some p
  · have ha := hother .network hnetwork .adb (by decide)
    have hreaped : Reaped s p screen adb
        { s.forget p .network with networkRetry := wrap (s.seconds + 5) } :=
      .network _ hnetwork (wrap_lt _) (Nat.le_trans (wrap_le _) (by omega))
    simpa [hnetwork, ha, hvar, State.discard, State.forget] using hreaped
  simp only [hnetwork, if_false]
  by_cases hadb : s.var .adb = some p
  · have hreaped : Reaped s p screen adb ((s.forget p .adb).spawn .adb adb) := .adb hadb
    simpa [hadb, hvar, State.discard, State.forget, State.spawn] using hreaped
  · rw [hvar, if_neg hadb]
    refine .unknown fun k => ?_
    cases k with
    | adb => exact hadb
    | screen => exact hscreen
    | network => exact hnetwork
    | runtime => exact hruntime

section Round

variable {s : State} {k : Kind} {time : ℕ} {fork : Option Pid}

/-- A child is started if it is missing and its time has come. -/
theorem retry_cases (s : State) (k : Kind) (time : ℕ) (fork : Option Pid) :
    (s.storageOk = true ∧ s.var k = none ∧ time ≤ s.seconds) ∧ s.retry k time fork = s.spawn k fork ∨
      ¬(s.storageOk = true ∧ s.var k = none ∧ time ≤ s.seconds) ∧ s.retry k time fork = s := by
  unfold State.retry
  by_cases h : s.storageOk ∧ s.var k = none ∧ s.seconds ≥ time
  · exact .inl ⟨h, if_pos h⟩
  · exact .inr ⟨h, if_neg h⟩

theorem retry_var (s : State) (k : Kind) (time : ℕ) (fork : Option Pid) :
    (s.retry k time fork).var k =
      if s.storageOk = true ∧ s.var k = none ∧ time ≤ s.seconds then fork else s.var k := by
  rcases retry_cases s k time fork with ⟨h, heq⟩ | ⟨h, heq⟩
  · rw [heq, if_pos h]
    exact Function.update_self k fork s.var
  · rw [heq, if_neg h]

/-- All that a start can change is the table and the variable of its kind. -/
theorem retry_kept (s : State) (k : Kind) (time : ℕ) (fork : Option Pid) :
    (s.retry k time fork).running = s.running ∧ (s.retry k time fork).storageOk = s.storageOk ∧
      (s.retry k time fork).seconds = s.seconds ∧
      (s.retry k time fork).runtimeRetry = s.runtimeRetry ∧
      (s.retry k time fork).networkRetry = s.networkRetry ∧
      ∀ k' ≠ k, (s.retry k time fork).var k' = s.var k' := by
  rcases retry_cases s k time fork with ⟨-, h⟩ | ⟨-, h⟩
  · rw [h]
    exact ⟨rfl, rfl, rfl, rfl, rfl, fun k' hk => Function.update_of_ne hk _ _⟩
  · rw [h]
    exact ⟨rfl, rfl, rfl, rfl, rfl, fun _ _ => rfl⟩

theorem Inv.retry (h : Inv s) (hrunning : s.running = true) (hk : k ≠ .screen)
    (hfresh : Fresh s.table fork) : Inv (s.retry k time fork) := by
  rcases retry_cases s k time fork with ⟨⟨-, hnone, -⟩, heq⟩ | ⟨-, heq⟩
  · rw [heq]
    refine h.spawn hfresh (.inr fun q hq => ?_)
    rw [h.covered hrunning k hk q hq] at hnone
    cases hnone
  · rwa [heq]

/-- An id that is not used stays so, unless it is given to the child that is started. -/
theorem fresh_retry {fork' : Option Pid} (hfresh : Fresh s.table fork')
    (hne : ∀ p ∈ fork, p ∉ fork') : Fresh (s.retry k time fork).table fork' := by
  intro p hp
  rcases retry_cases s k time fork with ⟨-, heq⟩ | ⟨-, heq⟩
  · have hfork : fork ≠ some p := fun hfork => hne p hfork hp
    rw [heq]
    simp [State.spawn, hfork, hfresh p hp]
  · rw [heq]
    exact hfresh p hp

end Round

/-- The two starts of a round keep what is known. -/
theorem Inv.starts {s : State} (h : Inv s) (hrunning : s.running = true)
    {runtime network : Option Pid} (hr : Fresh s.table runtime) (hn : Fresh s.table network)
    (hne : ∀ p ∈ runtime, p ∉ network) :
    Inv ((s.retry .runtime s.runtimeRetry runtime).retry .network
      (s.retry .runtime s.runtimeRetry runtime).networkRetry network) := by
  have hfirst : Inv (s.retry .runtime s.runtimeRetry runtime) := h.retry hrunning (by decide) hr
  have hrunning' := (retry_kept s .runtime s.runtimeRetry runtime).1.trans hrunning
  exact hfirst.retry hrunning' (by decide) (fresh_retry hn hne)

theorem running_starts {s : State} (hrunning : s.running = true) (runtime network : Option Pid) :
    ((s.retry .runtime s.runtimeRetry runtime).retry .network
      (s.retry .runtime s.runtimeRetry runtime).networkRetry network).running = true :=
  ((retry_kept _ .network _ network).1.trans (retry_kept s .runtime _ runtime).1).trans hrunning

theorem alive_retry {s : State} (h : ∀ p, ∀ c ∈ s.table p, c.alive = true) (k : Kind) (time : ℕ)
    (fork : Option Pid) : ∀ p, ∀ c ∈ (s.retry k time fork).table p, c.alive = true := by
  rcases retry_cases s k time fork with ⟨-, heq⟩ | ⟨-, heq⟩
  · rw [heq]
    intro p c hc
    by_cases hfork : fork = some p
    · have hc' : (⟨k, true⟩ : Child) = c := by simpa [State.spawn, hfork] using hc
      rw [← hc']
    · exact h p c (by simpa [State.spawn, hfork] using hc)
  · rwa [heq]

/-- The table of what `exit` leaves. -/
theorem live_exit {probe : ℕ} {s : State} {p q : Pid} {k : Kind} :
    Live (step probe s (.exit p)) k q ↔ q ≠ p ∧ Live s k q := by
  unfold Live step
  by_cases h : q = p
  · subst h
    simp
  · simp [h]

theorem Reaped.inv {s s' : State} {p : Pid} {screen adb : Option Pid}
    (hreaped : Reaped s p screen adb s') (h : Inv s) (hrunning : s.running = true)
    (hfresh : Fresh (Function.update s.table p none) screen)
    (hfresh' : Fresh (Function.update s.table p none) adb)
    (hscreen : s.var .runtime = some p → screen = none ∨ ∀ q, ¬Live s .screen q) : Inv s' := by
  cases hreaped with
  | unknown hvar => exact h.discard fun _ => hvar
  | screen hvar => exact h.forget fun _ => hvar
  | runtime failures time hvar hlt hle =>
    have hspawn : Inv ((s.forget p .runtime).spawn .screen screen) := by
      refine (h.forget fun _ => hvar).spawn hfresh ?_
      rcases hscreen hvar with hnone | hdead
      · exact .inl ⟨rfl, hnone⟩
      · exact .inr fun q hq => hdead q (live_discard.mp hq).2
    exact hspawn.congr rfl rfl id
  | network time hvar hlt hle => exact (h.forget fun _ => hvar).congr rfl rfl id
  | adb hvar =>
    refine (h.forget fun _ => hvar).spawn hfresh' (.inr fun q hq => ?_)
    obtain ⟨hne, hq⟩ := live_discard.mp hq
    have hq' := h.covered hrunning .adb (by decide) q hq
    rw [hvar] at hq'
    exact hne (Option.some.inj hq').symm

theorem Inv.step {s : State} (h : Inv s) {probe : ℕ} {e : Event} (hpossible : Possible s e)
    (hcondition : Condition s e) : Inv (step probe s e) := by
  cases e with
  | exit p =>
    refine ⟨fun k q q' hq hq' => h.unique k q q' (live_exit.mp hq).2 (live_exit.mp hq').2, ?_,
      fun hrunning k hk q hq => h.covered hrunning k hk q (live_exit.mp hq).2⟩
    intro hrunning k q hq
    obtain ⟨alive, htable⟩ := h.tracked hrunning k q hq
    by_cases hne : q = p
    · subst hne
      exact ⟨false, by simp [ForgeInit.step, htable]⟩
    · exact ⟨alive, by simp [ForgeInit.step, hne, htable]⟩
  | reap p screen adb =>
    obtain ⟨-, hfresh, hfresh'⟩ := hpossible
    by_cases hrunning : s.running = true
    · exact (reaped_of_step h hrunning p screen adb).inv h hrunning hfresh hfresh'
        (hcondition hrunning).1
    · have hstep : ForgeInit.step probe s (.reap p screen adb) = s.discard p := by
        simp [ForgeInit.step, hrunning, State.discard]
      rw [hstep]
      exact h.discard fun htrue => absurd htrue hrunning
  | second runtime network =>
    obtain ⟨-, hr, hn, hne⟩ := hpossible
    by_cases hrunning : s.running = true
    · rw [ForgeInit.step, if_pos hrunning]
      exact (h.starts hrunning hr hn hne).congr rfl rfl fun _ => running_starts hrunning _ _
    · rwa [ForgeInit.step, if_neg hrunning]
  | request => exact h.congr rfl rfl id

end ForgeOS.Boot.ForgeInit
