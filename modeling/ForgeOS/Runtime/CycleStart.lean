import ForgeOS.Runtime.History

/-! The cycles that the actions of a run start, with the session that each one finds. -/

namespace ForgeOS.Runtime

open ForgeOS.Python ForgeOS.Flash ForgeOS.Session ForgeOS.Library.Journal ForgeOS.Library.Trace

/-- A cycle with the session it works on, as it finds it. -/
structure CycleStart where
  name : String
  o : Orchestrator
  c : CycleInputs
  r : RuntimeState

namespace CycleStart

def result (k : CycleStart) : CycleResult := answer (runRuntimeCycle k.o k.c) k.r

/-- The session behind the cycle and the storage of its flash plan. -/
def finish (k : CycleStart) : SessionDir :=
  inDirectory k.name (final (recompute k.o k.c) k.r).dir

/-- The state of the session behind the cycle. -/
def ending (k : CycleStart) : SessionStateName := k.finish.file.current.state

/-- Where the records of the cycle lead from and to. -/
def recorded (k : CycleStart) : List (SessionStateName × SessionStateName) :=
  (edges k.finish.file.current.history).drop k.r.current.history.length

theorem file_recompute (o : Orchestrator) (c : CycleInputs) (r : RuntimeState) :
    (final (recompute o c) r).dir.file = (final (runRuntimeCycle o c) r).dir.file := by
  have hplan : ∀ (plan : FlashPlan) (r : RuntimeState),
      (final (writeFlashPlan plan) r).dir.file = r.dir.file := fun _ _ => rfl
  rw [recompute, final_bind]
  exact hplan _ _

theorem profile_recompute (o : Orchestrator) (c : CycleInputs) (r : RuntimeState) :
    (final (recompute o c) r).dir.profile = (final (runRuntimeCycle o c) r).dir.profile := by
  have hplan : ∀ (plan : FlashPlan) (r : RuntimeState),
      (final (writeFlashPlan plan) r).dir.profile = r.dir.profile := fun _ _ => rfl
  rw [recompute, final_bind]
  exact hplan _ _

theorem finish_current (k : CycleStart) :
    k.finish.file.current = (final (runRuntimeCycle k.o k.c) k.r).current := by
  rw [RuntimeState.current, ← file_recompute]
  rfl

theorem finish_profile (k : CycleStart) :
    k.finish.profile = (final (runRuntimeCycle k.o k.c) k.r).dir.profile := by
  rw [← profile_recompute]
  rfl

/-- What the cycle knows at its end. -/
def outcome (k : CycleStart) : Progress := Runtime.outcome k.o k.c k.r

def opening (k : CycleStart) : Opening := openingOf k.o k.c k.r

theorem result_eq (k : CycleStart) : k.result = resultOf k.o k.c k.opening k.outcome :=
  answer_cycle k.o k.c k.r

/-- A cycle ends where its moves lead, and records the moves that are made. -/
theorem exists_moves (k : CycleStart) : ∃ again : Bool,
    k.ending = tryMoves isTransitionAllowed k.r.current.state
        (cycleMoves k.o k.c k.opening k.outcome again) ∧
      k.recorded = madeMoves isTransitionAllowed k.r.current.state
        (cycleMoves k.o k.c k.opening k.outcome again) := by
  obtain ⟨again, ls, hdoes⟩ := does_cycle k.o k.c k.r
  have hlength : (edges k.r.current.history).length = k.r.current.history.length := List.length_map _
  refine ⟨again, ?_, ?_⟩
  · rw [ending, finish_current]
    exact hdoes.state_eq
  · rw [recorded, finish_current, hdoes.edges_eq, ← hlength, List.drop_left]
    rfl

end CycleStart

section Cycle

variable (lower digest : String → String)

/-- The cycle that an action runs. -/
def Appliance.cycle (a : Appliance) : Action → Option CycleStart
  | .event o c x =>
    (findSession (a.meet lower digest c).devices (eventName lower digest a.devices c)).map fun d =>
      { name := eventName lower digest a.devices c
        o
        c := x.inputs (a.awaits c)
        r := final (x.opening (a.awaits c)) ((a.meet lower digest c).enter d) }
  | .recompute o name c lightweight => (findSession a.devices name).map fun d =>
      { name, o, c := c.atWeight lightweight, r := a.enter d }
  | _ => none

variable {lower digest} {a : Appliance}

theorem mem_on {α : Type} {m : RuntimeM α} {name : String} {d e : SessionDir}
    (hfind : findSession a.devices name = some d) : e ∈ (a.on name m).devices ↔
      e = inDirectory name (final m (a.enter d)).dir ∨ (e ∈ a.devices ∧ e.name ≠ name) := by
  rw [Appliance.on, hfind]
  refine mem_leave.trans ⟨?_, ?_⟩
  · rintro ⟨e₀, he₀, rfl⟩
    split_ifs with heq
    · exact .inl rfl
    · exact .inr ⟨he₀, heq⟩
  · rintro (rfl | ⟨he, hne⟩)
    · exact ⟨d, List.mem_of_find?_eq_some hfind, (if_pos (findSession_name hfind)).symm⟩
    · exact ⟨e, he, (if_neg hne).symm⟩

/-- An event does nothing to the sessions of other names. -/
theorem mem_meet {c : Contact} {e : SessionDir} (hne : e.name ≠ eventName lower digest a.devices c) :
    e ∈ (a.meet lower digest c).devices ↔ e ∈ a.devices := by
  rw [eventName] at hne
  rw [Appliance.meet, handleDeviceEvent_eq]
  cases hsession : eventSession lower digest a.devices c with
  | some d =>
    rw [hsession] at hne
    refine mem_putSession.trans ⟨?_, fun he => ⟨e, he, (if_neg hne).symm⟩⟩
    rintro ⟨e₀, he₀, rfl⟩
    split_ifs at hne ⊢ with heq
    · exact absurd rfl hne
    · exact he₀
  | none =>
    rw [hsession] at hne
    refine List.mem_append.trans (or_iff_left fun he => hne ?_)
    rw [List.mem_singleton.mp he]
    rfl

/-- The sessions behind an action that runs a cycle. -/
theorem mem_step_of_cycle {x : Action} {k : CycleStart} (hk : a.cycle lower digest x = some k)
    {e : SessionDir} : e ∈ (a.step lower digest x).devices ↔
      e = k.finish ∨ (e ∈ a.devices ∧ e.name ≠ k.name) := by
  cases x with
  | event o c x =>
    obtain ⟨d, hfind, rfl⟩ := Option.map_eq_some_iff.mp hk
    have hon := mem_on (e := e)
      (m := do x.opening (a.awaits c); recompute o (x.inputs (a.awaits c))) hfind
    rw [final_bind] at hon
    exact hon.trans (or_congr_right (and_congr_left fun hne => mem_meet hne))
  | recompute o name c lightweight =>
    obtain ⟨d, hfind, rfl⟩ := Option.map_eq_some_iff.mp hk
    exact mem_on hfind
  | contact c => exact nomatch hk
  | approve name x => exact nomatch hk
  | flash name x => exact nomatch hk
  | profile name x => exact nomatch hk
  | operation name op => exact nomatch hk

end Cycle

/-- The first event founds a session and runs its cycle there. -/
theorem cycle_firstEvent {lower digest : String → String} (clock : ℕ → String) (o : Orchestrator)
    (c : Contact) (x : EventInputs) :
    (emptyAppliance clock).cycle lower digest (.event o c x) =
      some
        { name := (newSession lower digest (probed c)).name
          o
          c := x.attached.atWeight false
          r := final (attach x) { dir := newSession lower digest (probed c), clock } } := by
  have hwaiting : waitingFor [] c = none := by
    rw [waitingFor, findWaitingSession]
    split_ifs <;> rfl
  have hresumed : resumed lower digest [] (probed c) = none := by
    rw [resumed, findUpgradeCandidate]
    split_ifs <;> rfl
  have hsession : eventSession lower digest [] c = none := by
    rw [eventSession, hwaiting, hresumed]
    rfl
  have hname : eventName lower digest [] c = (newSession lower digest (probed c)).name := by
    rw [eventName, hsession]
    rfl
  have hmet : ((emptyAppliance clock).meet lower digest c).devices =
      [newSession lower digest (probed c)] := by
    show handleDeviceEvent lower digest [] c = _
    rw [handleDeviceEvent_eq, hsession]
    rfl
  have hawaits : (emptyAppliance clock).awaits c = false := by
    show (waitingFor [] c).isSome = false
    rw [hwaiting]
    rfl
  have hfind : findSession ((emptyAppliance clock).meet lower digest c).devices
      (eventName lower digest (emptyAppliance clock).devices c) =
        some (newSession lower digest (probed c)) := by
    rw [show (emptyAppliance clock).devices = [] from rfl, hname, hmet, findSession,
      List.find?_cons_of_pos (by simp)]
  have hopening : x.opening false = attach x := if_neg Bool.false_ne_true
  have hinputs : x.inputs false = x.attached.atWeight false := rfl
  rw [Appliance.cycle, hfind, hawaits, hopening, hinputs, Option.map_some,
    show (emptyAppliance clock).devices = [] from rfl, hname]
  rfl

def openingMoves : List SessionStateName := [.recommend, .blockerClassify]

/-- The moves between the classification and the question at the end. -/
def bookkeeping (preview verify install : Bool) : List SessionStateName :=
  [.backupReady] ++ ((if preview then [.previewBuild, .previewReview] else []) ++
    ((if verify then [.interactiveVerify] else []) ++ if install then [.installApproval] else []))

/-! ### A machine without workers -/

/-- No worker is there. -/
def bareSetup : WorkerSetup where
  sessionDir := ""
  ollamaAvailable := false
  gooseReady := false
  aiderReady := false
  codexAvailable := false
  selectModel _ := ""
  frontierScript _ := none
  httpAnswers := false
  modelReplies _ := false
  healPrompt _ := ""
  failureSummary _ := ""

def bareOrchestrator : Orchestrator where
  host := fastbootdHost.toRuntimeHost
  setup := bareSetup
  policy := {}
  lower := asciiLower
  title := id

/-- Nothing is on the path, and no command gets through. -/
def bareContext : ReplyContext where
  which _ := false
  whichAfter _ := false
  downloads _ := false
  ends _ := .notFound

end ForgeOS.Runtime
