import ForgeOS.Boot.ForgeInit

/-! What `forge_init` keeps up over a run: how long a missing child is waited for, and that there are
never two of a kind. -/

namespace ForgeOS.Boot.ForgeInit

open ForgeOS.Library.Conditions

/-! ### Waiting for a start -/

/-- `runtime_retry` and `network_retry`, for the two kinds that are started again in a round. -/
def State.time (s : State) : Kind → ℕ
  | .runtime => s.runtimeRetry
  | _ => s.networkRetry

def forkOf (runtime network : Option Pid) : Kind → Option Pid
  | .runtime => runtime
  | _ => network

def Retried (k : Kind) : Prop := k = .runtime ∨ k = .network

/-- The counts are unsigned, and what is missing is not waited for longer than a minute. -/
structure Due (s : State) : Prop where
  seconds : s.seconds < 2 ^ 32
  times : ∀ k, s.time k < 2 ^ 32
  soon : s.storageOk = true → ∀ k, Retried k → s.var k = none → s.time k ≤ s.seconds + 60

/-- A child is missing and is waited for a number of seconds at most, or has exited and is not reaped
yet. -/
def Waiting (s : State) (k : Kind) (d : ℕ) : Prop :=
  s.var k = none ∧ s.time k ≤ s.seconds + d ∨ s.var k ≠ none ∧ d = 60

theorem Due.congr {s s' : State} (h : Due s) (hseconds : s'.seconds = s.seconds)
    (hr : s'.runtimeRetry = s.runtimeRetry) (hn : s'.networkRetry = s.networkRetry)
    (hvar : s'.var = s.var) (hstorage : s'.storageOk = s.storageOk) : Due s' := by
  have htime : ∀ k, s'.time k = s.time k := by
    intro k
    cases k with
    | runtime => exact hr
    | _ => exact hn
  refine ⟨by rw [hseconds]; exact h.seconds, fun k => by rw [htime]; exact h.times k, ?_⟩
  rw [hvar, hstorage, hseconds]
  intro htrue k hk hnone
  rw [htime]
  exact h.soon htrue k hk hnone

theorem Due.waiting {s : State} (h : Due s) (hstorage : s.storageOk = true) {k : Kind}
    (hk : Retried k) : Waiting s k 60 := by
  by_cases hnone : s.var k = none
  · exact .inl ⟨hnone, h.soon hstorage k hk hnone⟩
  · exact .inr ⟨hnone, rfl⟩

section Reaped

variable {s s' : State} {p : Pid} {screen adb : Option Pid}

/-- A reaped child's variable is emptied, and its time set to at most a minute from now; nothing else
changes of the two that are started in a round. -/
theorem Reaped.retried (h : Reaped s p screen adb s') :
    s'.seconds = s.seconds ∧ s'.storageOk = s.storageOk ∧ s'.running = s.running ∧
      ∀ k, Retried k → (s'.var k = s.var k ∧ s'.time k = s.time k) ∨
        (s'.var k = none ∧ s'.time k < 2 ^ 32 ∧ s'.time k ≤ s.seconds + 60 ∧ s.var k ≠ none) := by
  cases h with
  | unknown hvar => exact ⟨rfl, rfl, rfl, fun k _ => .inl ⟨rfl, rfl⟩⟩
  | screen hvar =>
    refine ⟨rfl, rfl, rfl, ?_⟩
    rintro k (rfl | rfl) <;> exact .inl ⟨rfl, rfl⟩
  | runtime failures time hvar hlt hle =>
    refine ⟨rfl, rfl, rfl, ?_⟩
    rintro k (rfl | rfl)
    · exact .inr ⟨rfl, hlt, hle, by simp [hvar]⟩
    · exact .inl ⟨rfl, rfl⟩
  | network time hvar hlt hle =>
    refine ⟨rfl, rfl, rfl, ?_⟩
    rintro k (rfl | rfl)
    · exact .inl ⟨rfl, rfl⟩
    · exact .inr ⟨rfl, hlt, hle, by simp [hvar]⟩
  | adb hvar =>
    refine ⟨rfl, rfl, rfl, ?_⟩
    rintro k (rfl | rfl) <;> exact .inl ⟨rfl, rfl⟩

theorem Reaped.times (h : Reaped s p screen adb s') (hdue : Due s) (k : Kind) :
    s'.time k < 2 ^ 32 := by
  have hold := hdue.times k
  cases h with
  | runtime failures time hvar hlt hle =>
    cases k with
    | runtime => exact hlt
    | _ => exact hold
  | network time hvar hlt hle =>
    cases k with
    | runtime => exact hold
    | _ => exact hlt
  | _ => cases k <;> exact hold

theorem Reaped.due (h : Reaped s p screen adb s') (hdue : Due s) : Due s' := by
  obtain ⟨hseconds, hstorage, -, hkinds⟩ := h.retried
  refine ⟨by rw [hseconds]; exact hdue.seconds, h.times hdue, fun htrue k hk hnone => ?_⟩
  rcases hkinds k hk with ⟨hvar, htime⟩ | ⟨-, -, hle, -⟩
  · rw [htime, hseconds]
    exact hdue.soon (hstorage.symm.trans htrue) k hk (hvar.symm.trans hnone)
  · rwa [hseconds]

theorem Reaped.waiting (h : Reaped s p screen adb s') {k : Kind} (hk : Retried k) {d : ℕ}
    (hwaiting : Waiting s k d) : Waiting s' k d := by
  obtain ⟨hseconds, -, -, hkinds⟩ := h.retried
  rcases hkinds k hk with ⟨hvar, htime⟩ | ⟨hnone, -, hle, hsome⟩
  · rwa [Waiting, hvar, htime, hseconds]
  · rcases hwaiting with ⟨hvar, -⟩ | ⟨-, rfl⟩
    · exact absurd hvar hsome
    · exact .inl ⟨hnone, by rwa [hseconds]⟩

end Reaped

section Second

variable {s : State} {probe : ℕ} {runtime network : Option Pid} {k : Kind}

theorem round_kept (s : State) (probe : ℕ) (runtime network : Option Pid) :
    (s.round probe runtime network).seconds = wrap (s.seconds + 1) ∧
      (s.round probe runtime network).storageOk = s.storageOk ∧
      ∀ k, (s.round probe runtime network).time k = s.time k := by
  obtain ⟨-, hstorage, hseconds, hr, hn, -⟩ := retry_kept s .runtime s.runtimeRetry runtime
  obtain ⟨-, hstorage', hseconds', hr', hn', -⟩ :=
    retry_kept (s.retry .runtime s.runtimeRetry runtime) .network
      (s.retry .runtime s.runtimeRetry runtime).networkRetry network
  refine ⟨?_, hstorage'.trans hstorage, ?_⟩
  · exact congrArg (fun n => wrap (n + 1)) (hseconds'.trans hseconds)
  · intro k
    cases k with
    | runtime => exact hr'.trans hr
    | _ => exact hn'.trans hn

/-- The start of each of the two kinds in a round, by itself. -/
theorem round_var (hk : Retried k) : (s.round probe runtime network).var k =
    if s.storageOk = true ∧ s.var k = none ∧ s.time k ≤ s.seconds then forkOf runtime network k
    else s.var k := by
  obtain ⟨-, hstorage, hseconds, -, hn, hvar⟩ := retry_kept s .runtime s.runtimeRetry runtime
  rcases hk with rfl | rfl
  · have hkept := (retry_kept (s.retry .runtime s.runtimeRetry runtime) .network
      (s.retry .runtime s.runtimeRetry runtime).networkRetry network).2.2.2.2.2 .runtime (by decide)
    exact hkept.trans (retry_var s .runtime s.runtimeRetry runtime)
  · refine (retry_var (s.retry .runtime s.runtimeRetry runtime) .network
      (s.retry .runtime s.runtimeRetry runtime).networkRetry network).trans ?_
    rw [hstorage, hseconds, hn, hvar .network (by decide)]
    rfl

theorem live_round (h : Inv s) (hrunning : s.running = true)
    (hpossible : Possible s (.second runtime network)) {p : Pid}
    (hvar : (s.round probe runtime network).var k = some p) :
    Live (s.round probe runtime network) k p := by
  obtain ⟨halive, hr, hn, hne⟩ := hpossible
  obtain ⟨alive, htable⟩ := (h.starts hrunning hr hn hne).tracked (running_starts hrunning _ _) k p hvar
  have htrue := alive_retry (alive_retry halive .runtime s.runtimeRetry runtime) .network
    (s.retry .runtime s.runtimeRetry runtime).networkRetry network p _ htable
  rw [Live, ← htrue]
  exact htable

end Second

section Step

variable {probe : ℕ} {s : State} {e : Event} {k : Kind} {runtime network : Option Pid}

theorem step_storage (h : Inv s) : (step probe s e).storageOk = s.storageOk := by
  cases e with
  | exit p => rfl
  | reap p screen adb =>
    by_cases hrunning : s.running = true
    · exact (reaped_of_step h hrunning p screen adb).retried.2.1
    · simp [step, hrunning]
  | second runtime network =>
    by_cases hrunning : s.running = true
    · rw [step, if_pos hrunning]
      exact (round_kept s probe runtime network).2.1
    · rw [step, if_neg hrunning]
  | request => rfl

/-- The loop is not entered again. -/
theorem running_of_step (hrunning : (step probe s e).running = true) : s.running = true := by
  by_contra hstopped
  cases e with
  | exit p => exact hstopped hrunning
  | reap p screen adb => simp [step, hstopped] at hrunning
  | second runtime network => simp [step, hstopped] at hrunning
  | request => exact hstopped hrunning

/-- In the last second of the count what is missing is started. -/
theorem var_of_wrap (hdue : Due s) (hcondition : Condition s (.second runtime network))
    (hrunning : s.running = true) (hstorage : s.storageOk = true) (hlast : s.seconds + 1 = 2 ^ 32)
    (hk : Retried k) : (s.round probe runtime network).var k ≠ none := by
  obtain ⟨hr, hn⟩ := hcondition hrunning hlast
  have htime : s.time k ≤ s.seconds := by
    have hlt := hdue.times k
    omega
  rw [round_var hk]
  by_cases hnone : s.var k = none
  · rw [if_pos ⟨hstorage, hnone, htime⟩]
    rcases hk with rfl | rfl
    · exact hr hnone
    · exact hn hnone
  · rw [if_neg fun h => hnone h.2.1]
    exact hnone

theorem var_of_round (hk : Retried k) (hnone : (s.round probe runtime network).var k = none) :
    s.var k = none ∧ (s.storageOk = true → s.time k ≤ s.seconds → forkOf runtime network k = none) := by
  rw [round_var hk] at hnone
  split_ifs at hnone with hstart
  · exact ⟨hstart.2.1, fun _ _ => hnone⟩
  · exact ⟨hnone, fun hstorage hle => absurd ⟨hstorage, hnone, hle⟩ hstart⟩

theorem Due.step (hdue : Due s) (h : Inv s) (hcondition : Condition s e) : Due (step probe s e) := by
  cases e with
  | exit p => exact hdue.congr rfl rfl rfl rfl rfl
  | reap p screen adb =>
    by_cases hrunning : s.running = true
    · exact (reaped_of_step h hrunning p screen adb).due hdue
    · have hstep : ForgeInit.step probe s (.reap p screen adb) = s.discard p := by
        simp [ForgeInit.step, hrunning, State.discard]
      rw [hstep]
      exact hdue.congr rfl rfl rfl rfl rfl
  | second runtime network =>
    by_cases hrunning : s.running = true
    · rw [ForgeInit.step, if_pos hrunning]
      obtain ⟨hseconds, hstorage, htime⟩ := round_kept s probe runtime network
      refine ⟨by rw [hseconds]; exact wrap_lt _, fun k => by rw [htime]; exact hdue.times k, ?_⟩
      intro htrue k hk hnone
      rw [hstorage] at htrue
      have hlt := hdue.seconds
      have hne : s.seconds + 1 ≠ 2 ^ 32 :=
        fun hlast => var_of_wrap hdue hcondition hrunning htrue hlast hk hnone
      have hsoon := hdue.soon htrue k hk (var_of_round hk hnone).1
      rw [htime, hseconds, wrap, Nat.mod_eq_of_lt (by omega)]
      omega
    · rwa [ForgeInit.step, if_neg hrunning]
  | request => exact hdue.congr rfl rfl rfl rfl rfl

def Event.isSecond : Event → Bool
  | .second _ _ => true
  | _ => false

/-- While a child is missing it is waited for, a second less after every second. -/
theorem Waiting.step (h : Inv s) (hdue : Due s) (hrunning : s.running = true)
    (hstorage : s.storageOk = true) (hk : Retried k) (hpossible : Possible s e)
    (hcondition : Condition s e) (hdead : ∀ p, ¬Live (ForgeInit.step probe s e) k p) {d : ℕ}
    (hwaiting : Waiting s k d) :
    Waiting (ForgeInit.step probe s e) k (d - if e.isSecond then 1 else 0) := by
  cases e with
  | exit p => rcases hk with rfl | rfl <;> exact hwaiting
  | reap p screen adb => exact (reaped_of_step h hrunning p screen adb).waiting hk hwaiting
  | second runtime network =>
    rw [ForgeInit.step, if_pos hrunning] at hdead ⊢
    have hnone : (s.round probe runtime network).var k = none := by
      cases hvar : (s.round probe runtime network).var k with
      | none => rfl
      | some p => exact absurd (live_round h hrunning hpossible hvar) (hdead p)
    have hne : s.seconds + 1 ≠ 2 ^ 32 :=
      fun hlast => var_of_wrap hdue hcondition hrunning hstorage hlast hk hnone
    have hlt := hdue.seconds
    have hbefore := (var_of_round hk hnone).1
    obtain ⟨hseconds, -, htime⟩ := round_kept s probe runtime network
    rcases hwaiting with ⟨-, hle⟩ | ⟨hsome, -⟩
    · refine .inl ⟨hnone, ?_⟩
      rw [htime, hseconds, wrap, Nat.mod_eq_of_lt (by omega)]
      simp only [Event.isSecond, if_true]
      omega
    · exact absurd hbefore hsome
  | request => rcases hk with rfl | rfl <;> exact hwaiting

/-- A variable of `adbd` that holds an id holds one after every step. -/
theorem adb_kept (h : Inv s) (hrunning : s.running = true) (hcondition : Condition s e)
    (hsome : s.var .adb ≠ none) : (ForgeInit.step probe s e).var .adb ≠ none := by
  cases e with
  | exit p => exact hsome
  | reap p screen adb =>
    obtain ⟨-, hadb⟩ := hcondition hrunning
    have hreaped : Reaped s p screen adb (ForgeInit.step probe s (.reap p screen adb)) :=
      reaped_of_step h hrunning p screen adb
    generalize ForgeInit.step probe s (.reap p screen adb) = s' at hreaped ⊢
    cases hreaped with
    | adb hvar => simpa [State.spawn] using hadb hvar
    | _ => exact hsome
  | second runtime network =>
    rw [ForgeInit.step, if_pos hrunning]
    obtain ⟨-, -, -, -, -, hvar⟩ := retry_kept s .runtime s.runtimeRetry runtime
    obtain ⟨-, -, -, -, -, hvar'⟩ := retry_kept (s.retry .runtime s.runtimeRetry runtime) .network
      (s.retry .runtime s.runtimeRetry runtime).networkRetry network
    have hkept : (s.round probe runtime network).var .adb = s.var .adb :=
      (hvar' .adb (by decide)).trans (hvar .adb (by decide))
    rwa [hkept]
  | request => exact hsome

end Step

/-! ### Runs -/

/-- What the kernel can do, and under which a child is started again. -/
def Allowed (s : State) (e : Event) : Prop := Possible s e ∧ Condition s e

/-- A run in which every step is allowed. -/
abbrev AllowedRun (probe : ℕ) (s : State) (es : List Event) : Prop := Along (step probe) Allowed s es

section Run

variable {probe : ℕ} {s : State} {es : List Event} {k : Kind}

def run (probe : ℕ) (s : State) (es : List Event) : State := es.foldl (step probe) s

theorem run_append (s : State) (es fs : List Event) :
    run probe s (es ++ fs) = run probe (run probe s es) fs := List.foldl_append

theorem Inv.run (h : Inv s) (halong : AllowedRun probe s es) : Inv (run probe s es) := by
  induction es generalizing s with
  | nil => exact h
  | cons e es ih => exact ih (h.step halong.1.1 halong.1.2) halong.2

theorem Due.run (hdue : Due s) (h : Inv s) (halong : AllowedRun probe s es) :
    Due (run probe s es) := by
  induction es generalizing s with
  | nil => exact hdue
  | cons e es ih =>
    exact ih (hdue.step h halong.1.2) (h.step halong.1.1 halong.1.2) halong.2

theorem run_storage (h : Inv s) (halong : AllowedRun probe s es) :
    (run probe s es).storageOk = s.storageOk := by
  induction es generalizing s with
  | nil => rfl
  | cons e es ih =>
    exact (ih (h.step halong.1.1 halong.1.2) halong.2).trans (step_storage h)

theorem running_of_run (hrunning : (run probe s es).running = true) : s.running = true := by
  induction es generalizing s with
  | nil => exact hrunning
  | cons e es ih => exact running_of_step (ih hrunning)

theorem Waiting.run (h : Inv s) (hdue : Due s) (hstorage : s.storageOk = true) (hk : Retried k)
    (halong : AllowedRun probe s es) (hrunning : (run probe s es).running = true)
    (hdead : ∀ m, m <+: es → ∀ p, ¬Live (ForgeInit.run probe s m) k p) {d : ℕ}
    (hwaiting : Waiting s k d) :
    Waiting (ForgeInit.run probe s es) k (d - es.countP Event.isSecond) := by
  induction es generalizing s d with
  | nil => exact hwaiting
  | cons e es ih =>
    obtain ⟨⟨hpossible, hcondition⟩, halong⟩ := halong
    have hfirst := hwaiting.step h hdue (running_of_run hrunning) hstorage hk hpossible hcondition
      (hdead [e] ⟨es, rfl⟩)
    have hrest := ih (h.step hpossible hcondition) (hdue.step h hcondition)
      ((step_storage h).trans hstorage) halong hrunning
      (fun m hm => hdead (e :: m) ((List.prefix_cons_inj e).mpr hm)) hfirst
    rw [List.countP_cons, Nat.add_comm, ← Nat.sub_sub]
    exact hrest

theorem adb_run (h : Inv s) (halong : AllowedRun probe s es)
    (hrunning : (run probe s es).running = true) (hsome : s.var .adb ≠ none) :
    (run probe s es).var .adb ≠ none := by
  induction es generalizing s with
  | nil => exact hsome
  | cons e es ih =>
    obtain ⟨⟨hpossible, hcondition⟩, halong⟩ := halong
    exact ih (h.step hpossible hcondition) halong hrunning
      (adb_kept h (@running_of_run probe s (e :: es) hrunning) hcondition hsome)

end Run

/-! ### From the boot on -/

/-- The ids that `fork` returns before the loop are different. -/
def Distinct (forks : Kind → Option Pid) : Prop := ∀ k k', k ≠ k' → ∀ p ∈ forks k, p ∉ forks k'

/-- Exactly the children that the variables hold have been started, and all live. -/
def Exact (s : State) : Prop := ∀ k p, s.var k = some p ↔ s.table p = some ⟨k, true⟩

theorem Exact.inv {s : State} (h : Exact s) : Inv s where
  unique := by
    intro k p q hp hq
    rw [Live, ← h k p] at hp
    rw [Live, ← h k q, hp] at hq
    exact Option.some.inj hq
  tracked := fun _ k p hvar => ⟨true, (h k p).mp hvar⟩
  covered := fun _ k _ p hp => (h k p).mpr hp

theorem Exact.spawn {s : State} (h : Exact s) {k : Kind} {fork : Option Pid}
    (hfresh : Fresh s.table fork) (hnone : s.var k = none) : Exact (s.spawn k fork) := by
  intro k' p
  have hlive : Live (s.spawn k fork) k' p ↔ _ := live_spawn
  rw [Live] at hlive
  rw [hlive]
  by_cases hk : k' = k
  · subst hk
    have hdead : ¬Live s k' p := by
      rw [Live, ← h k' p, hnone]
      simp
    simp [State.spawn, hdead]
  · have hne : s.var k' = some p → fork ≠ some p := by
      intro hvar hfork
      rw [h k' p, hfresh p hfork] at hvar
      cases hvar
    have hiff := h k' p
    simp only [State.spawn, Function.update_of_ne hk, hk, and_false, false_or, Live, ← hiff]
    exact ⟨fun hvar => ⟨hne hvar, hvar⟩, fun hvar => hvar.2⟩

/-- An id that is not used stays so when another one is given to a child. -/
theorem fresh_spawn {s : State} {k : Kind} {fork fork' : Option Pid} (hfresh : Fresh s.table fork')
    (hne : ∀ p ∈ fork, p ∉ fork') : Fresh (s.spawn k fork).table fork' := by
  intro p hp
  have hfork : fork ≠ some p := fun hfork => hne p hfork hp
  simp [State.spawn, hfork, hfresh p hp]

theorem exact_boot (probe : ℕ) (storageOk requested : Bool) {forks : Kind → Option Pid}
    (h : Distinct forks) : Exact (boot probe storageOk requested forks) := by
  let s₀ : State :=
    { table := fun _ => none
      var := fun _ => none
      storageOk := storageOk
      requested := requested
      runtimeRetry := 0
      networkRetry := 0
      failures := 0
      seconds := 0
      running := true }
  have hfree : ∀ k, Fresh s₀.table (forks k) := fun _ _ _ => rfl
  have h₀ : Exact s₀ := fun k p => by simp [s₀]
  have h₁ : Exact (s₀.spawn .adb (forks .adb)) := h₀.spawn (hfree _) rfl
  have hfree₁ : ∀ k ≠ .adb, Fresh (s₀.spawn .adb (forks .adb)).table (forks k) :=
    fun k hk => fresh_spawn (hfree k) (h .adb k hk.symm)
  have h₂ : Exact ((s₀.spawn .adb (forks .adb)).spawn .screen (forks .screen)) :=
    h₁.spawn (hfree₁ _ (by decide)) rfl
  have hfree₂ : ∀ k ≠ .adb, k ≠ .screen →
      Fresh ((s₀.spawn .adb (forks .adb)).spawn .screen (forks .screen)).table (forks k) :=
    fun k hk hk' => fresh_spawn (hfree₁ k hk) (h .screen k hk'.symm)
  cases storageOk with
  | false => exact h₂
  | true =>
    have h₃ : Exact (((s₀.spawn .adb (forks .adb)).spawn .screen (forks .screen)).spawn .network
        (forks .network)) := h₂.spawn (hfree₂ .network (by decide) (by decide)) rfl
    exact h₃.spawn (k := .runtime) (fresh_spawn (hfree₂ .runtime (by decide) (by decide))
      (h .network .runtime (by decide))) rfl

theorem due_boot (probe : ℕ) (storageOk requested : Bool) (forks : Kind → Option Pid) :
    Due (boot probe storageOk requested forks) := by
  have htime : ∀ k, (boot probe storageOk requested forks).time k = 0 := by
    intro k
    cases storageOk <;> cases k <;> rfl
  have hseconds : (boot probe storageOk requested forks).seconds = 0 := by
    cases storageOk <;> rfl
  refine ⟨by rw [hseconds]; decide, fun k => by rw [htime]; decide, fun _ k _ _ => ?_⟩
  rw [htime]
  exact Nat.zero_le _

/-- Why the loop has been left. -/
def Left (probe : ℕ) (s : State) : Prop :=
  s.running = false → s.storageOk = false ∨ s.requested = true ∨ probe ≠ 0 ∧ probe ≤ s.seconds

theorem left_check {probe : ℕ} {s : State} (hrunning : s.running = true) : Left probe (s.check probe) := by
  intro hleft
  by_contra hactive
  simp only [State.check] at hactive hleft
  grind

theorem Left.step {probe : ℕ} {s : State} (h : Inv s) (hleft : Left probe s) (e : Event) :
    Left probe (step probe s e) := by
  cases e with
  | exit p => exact hleft
  | reap p screen adb =>
    by_cases hrunning : s.running = true
    · intro hstopped
      rw [(reaped_of_step h hrunning p screen adb).retried.2.2.1, hrunning] at hstopped
      cases hstopped
    · have hstep : ForgeInit.step probe s (.reap p screen adb) = s.discard p := by
        simp [ForgeInit.step, hrunning, State.discard]
      rw [hstep]
      exact hleft
  | second runtime network =>
    by_cases hrunning : s.running = true
    · rw [ForgeInit.step, if_pos hrunning]
      exact left_check (s := { (s.retry .runtime s.runtimeRetry runtime).retry .network
        (s.retry .runtime s.runtimeRetry runtime).networkRetry network with
          seconds := _ }) (running_starts hrunning runtime network)
    · rwa [ForgeInit.step, if_neg hrunning]
  | request =>
    intro hstopped
    exact .inr (.inl rfl)

theorem Left.run {probe : ℕ} {s : State} {es : List Event} (h : Inv s) (hleft : Left probe s)
    (halong : AllowedRun probe s es) : Left probe (run probe s es) := by
  induction es generalizing s with
  | nil => exact hleft
  | cons e es ih => exact ih (h.step halong.1.1 halong.1.2) (hleft.step h e) halong.2

theorem left_boot (probe : ℕ) (storageOk requested : Bool) (forks : Kind → Option Pid) :
    Left probe (boot probe storageOk requested forks) := by
  cases storageOk with
  | false => exact left_check rfl
  | true => exact left_check rfl

theorem Left.running {probe : ℕ} {s : State} (hleft : Left probe s) (hactive : s.Active probe) :
    s.running = true := by
  obtain ⟨hstorage, hrequested, hprobe⟩ := hactive
  by_contra hstopped
  rcases hleft (Bool.eq_false_iff.mpr hstopped) with hs | hr | ⟨hne, hle⟩
  · rw [hstorage] at hs
    cases hs
  · rw [hrequested] at hr
    cases hr
  · rcases hprobe with hzero | hlt
    · exact hne hzero
    · omega

/-! ### Supervision -/

/-- A child of this kind has been started at some time of a run. -/
def Started (probe : ℕ) (s : State) (es : List Event) (k : Kind) : Prop :=
  ∃ m, m <+: es ∧ ∃ p, Live (run probe s m) k p

section Supervision

variable {probe : ℕ} {s : State} {before during : List Event} {runtime network : Option Pid} {k : Kind}

/-- A missing runtime or network is started in the first second from its time on in which that is
possible. -/
theorem retried_started (h : Inv s) (hdue : Due s) (hstorage : s.storageOk = true) (hk : Retried k)
    (halong : AllowedRun probe s (during ++ [.second runtime network]))
    (hrunning : (run probe s during).running = true)
    (hminute : 60 ≤ during.countP Event.isSecond) (hfork : forkOf runtime network k ≠ none) :
    Started probe s (during ++ [.second runtime network]) k := by
  rw [AllowedRun, along_append] at halong
  obtain ⟨halong, ⟨hpossible, -⟩, -⟩ := halong
  by_contra hmissing
  have hdead : ∀ m, m <+: during → ∀ p, ¬Live (run probe s m) k p :=
    fun m hm p hp => hmissing ⟨m, hm.trans (List.prefix_append _ _), p, hp⟩
  have hwaiting := (hdue.waiting hstorage hk).run h hdue hstorage hk halong hrunning hdead
  rw [Nat.sub_eq_zero_of_le hminute] at hwaiting
  rcases hwaiting with ⟨hnone, htime⟩ | ⟨-, hzero⟩
  · obtain ⟨p, hp⟩ := Option.ne_none_iff_exists'.mp hfork
    have hvar : ((run probe s during).round probe runtime network).var k = some p := by
      rw [round_var hk, if_pos ⟨(run_storage h halong).trans hstorage, hnone, htime⟩, hp]
    refine hmissing ⟨_, List.prefix_rfl, p, ?_⟩
    have hlast : run probe s (during ++ [.second runtime network]) =
        (run probe s during).round probe runtime network := by
      rw [run_append]
      exact if_pos hrunning
    rw [hlast]
    exact live_round (h.run halong) hrunning hpossible hvar
  · cases hzero

/-- A dead `adbd` is reaped before the second is over, and started at once. -/
theorem adb_started (h : Inv s) (halong : AllowedRun probe s (during ++ [.second runtime network]))
    (hrunning : (run probe s during).running = true) (hsome : s.var .adb ≠ none) :
    Started probe s (during ++ [.second runtime network]) .adb := by
  rw [AllowedRun, along_append] at halong
  obtain ⟨halong, ⟨⟨halive, -⟩, -⟩, -⟩ := halong
  obtain ⟨p, hp⟩ := Option.ne_none_iff_exists'.mp (adb_run h halong hrunning hsome)
  obtain ⟨alive, htable⟩ := (h.run halong).tracked hrunning .adb p hp
  have htrue : alive = true := halive p _ htable
  rw [htrue] at htable
  exact ⟨during, List.prefix_append _ _, p, htable⟩

end Supervision

/-- What differs from one start of the tablet to another. -/
structure Setup where
  /-- `PROBE_SECONDS` -/
  probe : ℕ
  storageOk : Bool
  requested : Bool
  forks : Kind → Option Pid
  distinct : Distinct forks

def Setup.boot (b : Setup) : State := ForgeInit.boot b.probe b.storageOk b.requested b.forks

theorem Setup.inv (b : Setup) : Inv b.boot := (exact_boot b.probe _ _ b.distinct).inv

/-- A variable of `adbd` holds an id from its first start on. -/
theorem adb_of_started {b : Setup} {es : List Event} (halong : AllowedRun b.probe b.boot es)
    (hrunning : (run b.probe b.boot es).running = true)
    (hstarted : Started b.probe b.boot es .adb) : (run b.probe b.boot es).var .adb ≠ none := by
  obtain ⟨m, ⟨rest, rfl⟩, p, hp⟩ := hstarted
  obtain ⟨hm, hrest⟩ := along_append.mp halong
  rw [run_append] at hrunning ⊢
  have hinv := b.inv.run hm
  have hvar := hinv.covered (running_of_run hrunning) .adb (by decide) p hp
  exact adb_run hinv hrest hrunning (by simp [hvar])

/-- In every run in which each step meets the condition, there are never two live children of a kind,
and a runtime, network or `adbd` that has been started lives again a minute later at the latest, or in
the first second after it in which it can be started, while storage is available and no recovery has
been requested. -/
theorem supervises (b : Setup) (es : List Event) (halong : AllowedRun b.probe b.boot es) :
    (run b.probe b.boot es).Unique ∧
    ∀ before during runtime network, es = before ++ (during ++ [.second runtime network]) →
      (run b.probe b.boot (before ++ during)).Active b.probe →
      60 ≤ during.countP Event.isSecond →
      ∀ k ≠ .screen, Started b.probe b.boot before k →
        (k ≠ .adb → forkOf runtime network k ≠ none) →
        Started b.probe (run b.probe b.boot before) (during ++ [.second runtime network]) k := by
  refine ⟨(b.inv.run halong).unique, ?_⟩
  intro before during runtime network hes hactive hminute k hscreen hstarted hfork
  subst hes
  obtain ⟨hbefore, hafter⟩ := along_append.mp halong
  have hduring := (along_append.mp hafter).1
  rw [run_append] at hactive
  have hleft := ((left_boot b.probe b.storageOk b.requested b.forks).run b.inv hbefore).run
    (b.inv.run hbefore) hduring
  have hrunning := hleft.running hactive
  have hstorage := (run_storage (b.inv.run hbefore) hduring).symm.trans hactive.1
  have hdue := (due_boot b.probe b.storageOk b.requested b.forks).run b.inv hbefore
  cases k with
  | screen => exact absurd rfl hscreen
  | adb =>
    exact adb_started (b.inv.run hbefore) hafter hrunning
      (adb_of_started hbefore (running_of_run hrunning) hstarted)
  | network =>
    exact retried_started (b.inv.run hbefore) hdue hstorage (.inr rfl) hafter hrunning hminute
      (hfork (by decide))
  | runtime =>
    exact retried_started (b.inv.run hbefore) hdue hstorage (.inl rfl) hafter hrunning hminute
      (hfork (by decide))

/-- A permanent appliance whose four children have been started. -/
def appliance : Setup where
  probe := 0
  storageOk := true
  requested := false
  forks := fun k => match k with
    | .adb => some 2
    | .screen => some 3
    | .network => some 4
    | .runtime => some 5
  distinct := by
    intro k k' hk p hp hp'
    cases k <;> cases k' <;> first | exact hk rfl | (cases hp; cases hp')

/-- The screen has exited before the runtime is reaped. -/
theorem appliance_supervised :
    (run 0 appliance.boot [.exit 3, .exit 5, .reap 5 (some 6) none]).Unique := by
  have hscreen : ∀ q, Live appliance.boot .screen q → q = 3 := by
    intro q hq
    have hvar := (exact_boot 0 true false appliance.distinct .screen q).mpr hq
    exact (Option.some.inj hvar).symm
  refine (supervises appliance [.exit 3, .exit 5, .reap 5 (some 6) none]
    ⟨⟨⟨.screen, rfl⟩, trivial⟩, ⟨⟨.runtime, rfl⟩, trivial⟩, ⟨⟨?_, ?_, ?_⟩, ?_⟩, trivial⟩).1
  · intro c hc
    rw [← Option.some.inj hc]
  · intro p hp
    cases hp
    rfl
  · intro p hp
    cases hp
  · intro _
    refine ⟨fun _ => .inr fun q hq => ?_, fun hvar => absurd hvar (by decide)⟩
    obtain ⟨hne, hlive⟩ := live_exit.mp (live_exit.mp hq).2
    exact hne (hscreen q hlive)

/-- No `adbd` lives and its variable is empty. -/
def Lost (s : State) : Prop := s.var .adb = none ∧ ∀ p, ¬Live s .adb p

theorem Lost.congr {s s' : State} (h : Lost s) (htable : s'.table = s.table)
    (hvar : s'.var .adb = s.var .adb) : Lost s' := by
  refine ⟨hvar.trans h.1, fun p => ?_⟩
  rw [Live, htable]
  exact h.2 p

theorem Lost.spawn {s : State} (h : Lost s) {k : Kind} (hk : k ≠ .adb) (fork : Option Pid) :
    Lost (s.spawn k fork) := by
  have hvar : (s.spawn k fork).var .adb = s.var .adb := by simp [State.spawn, hk.symm]
  refine ⟨hvar.trans h.1, fun p hp => ?_⟩
  rcases live_spawn.mp hp with ⟨-, heq⟩ | ⟨-, hlive⟩
  · exact hk heq.symm
  · exact h.2 p hlive

theorem Lost.retry {s : State} (h : Lost s) {k : Kind} (hk : k ≠ .adb) (time : ℕ)
    (fork : Option Pid) : Lost (s.retry k time fork) := by
  rcases retry_cases s k time fork with ⟨-, heq⟩ | ⟨-, heq⟩
  · rw [heq]
    exact h.spawn hk fork
  · rwa [heq]

theorem Lost.handle {s : State} (h : Lost s) (p : Pid) (screen adb : Option Pid) :
    Lost (s.handle p screen adb) := by
  unfold State.handle
  extract_lets s₁ failures s₂ s₃
  have h₁ : Lost s₁ := by
    unfold s₁
    split_ifs
    · exact h.congr rfl rfl
    · exact h
  have h₂ : Lost s₂ := by
    unfold s₂
    by_cases hruntime : s₁.var .runtime = some p
    · rw [if_pos hruntime]
      exact Lost.spawn (h₁.congr rfl rfl) (by decide) screen
    · rwa [if_neg hruntime]
  have h₃ : Lost s₃ := by
    unfold s₃
    split_ifs
    · exact h₂.congr rfl rfl
    · exact h₂
  have hnone : s₃.var .adb ≠ some p := by
    rw [h₃.1]
    simp
  rwa [if_neg hnone]

/-- An `adbd` that could not be started is never tried again. -/
theorem Lost.step {probe : ℕ} {s : State} (h : Lost s) (e : Event) : Lost (step probe s e) := by
  cases e with
  | exit p => exact ⟨h.1, fun q hq => h.2 q (live_exit.mp hq).2⟩
  | reap p screen adb =>
    have hdiscard : Lost (s.discard p) := ⟨h.1, fun q hq => h.2 q (live_discard.mp hq).2⟩
    rw [ForgeInit.step]
    split_ifs
    · exact hdiscard.handle p screen adb
    · exact hdiscard
  | second runtime network =>
    rw [ForgeInit.step]
    split_ifs
    · exact (h.retry (by decide) s.runtimeRetry runtime).retry (by decide) _ network
    · exact h
  | request => exact h

theorem Lost.run {probe : ℕ} {s : State} (h : Lost s) (es : List Event) : Lost (run probe s es) := by
  induction es generalizing s with
  | nil => exact h
  | cons e es ih => exact ih (h.step e)

/-- The runtime exits while the screen lives: a second screen is started beside it. An `adbd` exits and
cannot be started at that moment: none lives in any state that follows. -/
theorem second_screen_lost_adb :
    (Along (step 0) Possible appliance.boot [.exit 5, .reap 5 (some 6) none] ∧
      Live (run 0 appliance.boot [.exit 5, .reap 5 (some 6) none]) .screen 3 ∧
      Live (run 0 appliance.boot [.exit 5, .reap 5 (some 6) none]) .screen 6) ∧
    Along (step 0) Possible appliance.boot [.exit 2, .reap 2 none none] ∧
      ∀ es p, ¬Live (run 0 appliance.boot ([.exit 2, .reap 2 none none] ++ es)) .adb p := by
  have hreaped : ∀ {table : Pid → Option Child} {p : Pid} {k : Kind}, table p = some ⟨k, false⟩ →
      ∀ c ∈ table p, c.alive = false := by
    intro table p k htable c hc
    rw [Option.mem_def, htable] at hc
    rw [← Option.some.inj hc]
  have hnone : ∀ table, Fresh table none := by
    intro table p hp
    cases hp
  refine ⟨⟨⟨⟨.runtime, rfl⟩, ⟨hreaped rfl, ?_, hnone _⟩, trivial⟩, rfl, rfl⟩,
    ⟨⟨.adb, rfl⟩, ⟨hreaped rfl, hnone _, hnone _⟩, trivial⟩, fun es p => ?_⟩
  · intro p hp
    cases hp
    rfl
  · rw [run_append]
    refine (Lost.run ⟨rfl, fun q hq => ?_⟩ es).2 p
    obtain ⟨hne, hlive⟩ : q ≠ 2 ∧ Live (step 0 appliance.boot (.exit 2)) .adb q := live_discard.mp hq
    have hvar := (exact_boot 0 true false appliance.distinct .adb q).mpr (live_exit.mp hlive).2
    exact hne (Option.some.inj hvar).symm

end ForgeOS.Boot.ForgeInit
