import ForgeOS.Runtime.CycleStart

/-! Installs over runs. A cycle that finds the install ready is to end at `INSTALL_APPROVAL`,
and a live flash is to be in the history. Both moves are tried from wherever the session is,
and dropped where the table does not lead there. -/

namespace ForgeOS.Runtime

open ForgeOS.Python ForgeOS.Flash ForgeOS.Session ForgeOS.Library.Journal ForgeOS.Library.Trace
open ForgeOS.Library.Conditions

/-! ### Cycles that find the install ready -/

/-- States that the bookkeeping leads on to the approval. -/
def bookkept : List SessionStateName :=
  [.backupPlan, .backupReady, .previewBuild, .previewReview, .interactiveVerify, .flashPrep,
    .installApproval]

/-- States from which a question leads to the bookkeeping. -/
def askable : List SessionStateName :=
  [.pathSelect, .inspectResult, .iterate, .questionGate, .blocked, .blockerClassify,
    .remediationDecide, .taskCreate, .codegenTask, .codegenWrite, .patchApply, .executeArtifact,
    .executeStep, .connectivityValidate, .securityValidate, .accessEnablement]

/-- The moves in the middle of a cycle: a remediation, a question or nothing. -/
inductive Middle : List SessionStateName → Bool → Prop
  | remediation (left : Bool) : Middle (remediationMoves left) false
  | question : Middle [.questionGate] true
  | nothing : Middle [] false

theorem approval_iff {ts : List SessionStateName} {asked : Bool} (hmiddle : Middle ts asked)
    (s : SessionStateName) :
    tryMoves isTransitionAllowed s (openingMoves ++ (ts ++ bookkeeping true true true)) =
      .installApproval ↔ s ∈ bookkept ∨ (asked = true ∧ s ∈ askable) := by
  cases hmiddle with
  | remediation left => cases left <;> (revert s; set_option maxRecDepth 8000 in decide)
  | question => revert s; decide
  | nothing => revert s; decide

/-- A question behind the bookkeeping neither leads to the approval nor away from it. -/
theorem tryMoves_tail_iff {tail : List SessionStateName} (htail : tail = [] ∨ tail = [.questionGate])
    (s : SessionStateName) :
    tryMoves isTransitionAllowed s tail = .installApproval ↔ s = .installApproval := by
  rcases htail with rfl | rfl
  · exact Iff.rfl
  · revert s
    decide

namespace CycleStart

/-- The cycle asks the operator about its first blocker. -/
def asks (k : CycleStart) : Bool :=
  !remediates k.o k.c k.opening && k.opening.blocker.blockerType ≠ .none &&
    !modelActs k.o k.c k.opening

/-- The session starts where the moves of the cycle lead to the approval. -/
def LeadsToApproval (k : CycleStart) : Prop :=
  k.r.current.state ∈ bookkept ∨ (k.asks = true ∧ k.r.current.state ∈ askable)

instance (k : CycleStart) : Decidable k.LeadsToApproval :=
  inferInstanceAs (Decidable (_ ∨ _))

variable {k : CycleStart}

theorem asks_eq_true_iff : k.asks = true ↔ remediates k.o k.c k.opening = false ∧
    k.opening.blocker.blockerType ≠ .none ∧ modelActs k.o k.c k.opening = false := by
  simp [asks, and_assoc]

theorem middle (k : CycleStart) : Middle (middleMoves k.o k.c k.opening k.outcome) k.asks := by
  rw [middleMoves]
  split_ifs with hremediates hasked
  · have hasks : k.asks = false := by rw [asks, hremediates]; rfl
    rw [hasks]
    exact .remediation _
  · rw [asks_eq_true_iff.mpr ⟨Bool.eq_false_iff.mpr hremediates, hasked⟩]
    exact .question
  · have hasks : k.asks = false := Bool.eq_false_iff.mpr fun h => hasked (asks_eq_true_iff.mp h).2
    rw [hasks]
    exact .nothing

/-- The moves of a cycle that finds the install ready. -/
theorem moves_of_installReady (hready : installReady k.o k.c k.opening k.outcome = true)
    (again : Bool) : ∃ tail, (tail = [] ∨ tail = [.questionGate]) ∧
      cycleMoves k.o k.c k.opening k.outcome again =
        openingMoves ++ (middleMoves k.o k.c k.opening k.outcome ++ bookkeeping true true true) ++
          tail := by
  have hparts := hready
  simp only [installReady, Bool.and_eq_true] at hparts
  have hpreviewed : previewed k.o k.c k.opening k.outcome = true := hparts.1.1.2
  have hverified : verified k.o k.c k.opening k.outcome = true := hparts.1.2
  let tail : List SessionStateName :=
    if k.outcome.blocker.blockerType = .none then []
    else if k.outcome.blocker.machineSolvable = false then [.questionGate] else []
  refine ⟨tail, ?_, ?_⟩
  · show (if _ then _ else _) = _ ∨ (if _ then _ else _) = _
    split_ifs
    · exact .inl rfl
    · exact .inr rfl
    · exact .inl rfl
  · rw [cycleMoves, closingMoves, hready, hpreviewed, hverified]
    simp only [if_true, openingMoves, bookkeeping, List.append_assoc]
    rfl

theorem ending_eq_approval_iff (hready : k.result.installReady = true) :
    k.ending = .installApproval ↔ k.LeadsToApproval := by
  rw [k.result_eq] at hready
  obtain ⟨again, hending, -⟩ := k.exists_moves
  obtain ⟨tail, htail, hmoves⟩ := moves_of_installReady hready again
  rw [hending, hmoves, tryMoves_append, tryMoves_tail_iff htail, approval_iff k.middle]
  rfl

end CycleStart

/-! ### Flashes -/

/-- The history has a record to `FLASH_PREP` or `INSTALL_APPROVAL`, and right behind it one to
`FLASH`. -/
def FlashRecorded (s : SessionState) : Prop :=
  ∃ r r' : TransitionRecord, [r, r'] <:+: s.history ∧
    r.toState ∈ [SessionStateName.flashPrep, .installApproval] ∧ r'.toState = .flash

def flashEdges : List (SessionStateName × SessionStateName) :=
  [(.flashPrep, .flash), (.installApproval, .flash)]

/-- States from which the moves of a flash lead to `FLASH`. -/
def flashable : List SessionStateName :=
  [.backupReady, .questionGate, .signImages, .flashPrep, .installApproval]

theorem flashRecorded_iff {s : SessionState} (h : Journaled s) :
    FlashRecorded s ↔ ∃ e ∈ edges s.history, e ∈ flashEdges := by
  constructor
  · rintro ⟨r, r', hpair, hto, hflash⟩
    have hlinked : r'.fromState = r.toState := by
      have hlinks := List.IsChain.infix h.chained hpair
      simpa using hlinks
    refine ⟨(r'.fromState, r'.toState), List.mem_map_of_mem (hpair.subset (by simp)), ?_⟩
    rw [hlinked, hflash]
    simpa [flashEdges] using hto
  · rintro ⟨e, he, hedge⟩
    obtain ⟨r', hr', rfl⟩ := List.mem_map.mp he
    have hends : r'.fromState ∈ [SessionStateName.flashPrep, .installApproval] ∧
        r'.toState = .flash := by
      rcases List.mem_pair.mp hedge with heq | heq <;> (rw [Prod.mk.injEq] at heq; simp [heq])
    obtain ⟨front, back, hsplit⟩ := List.append_of_mem hr'
    rcases List.eq_nil_or_concat front with rfl | ⟨front', r, rfl⟩
    · -- the first record leads to `DEVICE_ATTACHED`
      have hfirst := h.first
      rw [hsplit] at hfirst
      simp [hends.2] at hfirst
    · have hpair : [r, r'] <:+: s.history := ⟨front', back, by rw [hsplit]; simp⟩
      have hlinks := List.IsChain.infix h.chained hpair
      refine ⟨r, r', hpair, ?_, hends.2⟩
      have hlinked : r'.fromState = r.toState := by simpa using hlinks
      exact hlinked ▸ hends.1

theorem madeMoves_flash_iff (s : SessionStateName) :
    (∃ e ∈ madeMoves isTransitionAllowed s [.flashPrep, .flash], e ∈ flashEdges) ↔ s ∈ flashable := by
  revert s
  decide

/-- A flash that completes tries its two moves. -/
theorem does_approvedFlash {x : FlashInputs} {r : RuntimeState} {result : RunResult}
    (hending : (x.run r.dir).ending = .returned result)
    (hstatus : result.status ∈ ["dry_run_complete", "live_execution_complete"]) :
    Does (approvedFlash x) r [.flashPrep, .flash] ((x.run r.dir).issued.map .tool) := by
  have hrecord : ∀ r', Does (recordFlash (x.run r.dir).ending) r' [.flashPrep, .flash] [] := by
    intro r'
    rw [hending, recordFlash, if_pos hstatus]
    exact (does_safeTransition _ _ _).bind (does_safeTransition _ _ _)
  have hget : Does (get : RuntimeM RuntimeState) r [] [] := ⟨[], .nil r, rfl, rfl⟩
  exact (hget.bind ((does_launch _ _).bind (hrecord _))).of_eq rfl (List.append_nil _)

/-! ### Runs -/

section Runs

variable (lower digest : String → String) {a : Appliance}

/-- A cycle that finds the install ready leaves its session at the approval. -/
def CycleApproves (a : Appliance) (x : Action) : Prop :=
  ∀ k, a.cycle lower digest x = some k → k.result.installReady = true → k.ending = .installApproval

/-- The flash of an action completes live in the session. -/
def FlashesLive (a : Appliance) (action : Action) (d : SessionDir) : Prop :=
  ∃ name x result, action = .flash name x ∧ findSession a.devices name = some d ∧
    (x.run d).ending = .returned result ∧ result.status = "live_execution_complete"

/-- A live flash that completes is in the history of its session. -/
def FlashRecords (a : Appliance) (x : Action) : Prop :=
  ∀ d, FlashesLive a x d →
    ∀ d' ∈ (a.step lower digest x).devices, d'.name = d.name → FlashRecorded d'.file.current

/-- The install of a step goes by its states. -/
def Installs (a : Appliance) (x : Action) : Prop :=
  CycleApproves lower digest a x ∧ FlashRecords lower digest a x

/-- A cycle that will find the install ready starts where it leads to the approval, and a live
flash that will complete starts where its moves lead to `FLASH`, or finds a flash recorded. -/
def InstallsInOrder (a : Appliance) (x : Action) : Prop :=
  (∀ k, a.cycle lower digest x = some k → installReady k.o k.c k.opening k.outcome = true →
    k.LeadsToApproval) ∧
    ∀ d, FlashesLive a x d →
      d.file.current.state ∈ flashable ∨ FlashRecorded d.file.current

theorem cycleApproves_iff (a : Appliance) (x : Action) : CycleApproves lower digest a x ↔
    ∀ k, a.cycle lower digest x = some k → installReady k.o k.c k.opening k.outcome = true →
      k.LeadsToApproval := by
  refine forall_congr' fun k => forall_congr' fun _ => ?_
  have hresult : k.result.installReady = installReady k.o k.c k.opening k.outcome := by
    rw [k.result_eq]
    rfl
  rw [hresult]
  exact forall_congr' fun hready => CycleStart.ending_eq_approval_iff (hresult.trans hready)

theorem flashRecorded_behind (ha : a.Sound) {x : FlashInputs} {name : String} {d : SessionDir}
    (hfind : findSession a.devices name = some d) {result : RunResult}
    (hending : (x.run d).ending = .returned result)
    (hstatus : result.status = "live_execution_complete") :
    (∀ d' ∈ (a.on name (approvedFlash x)).devices, d'.name = d.name →
      FlashRecorded d'.file.current) ↔
        d.file.current.state ∈ flashable ∨ FlashRecorded d.file.current := by
  have hbefore := flashRecorded_iff ((ha.sound d (List.mem_of_find?_eq_some hfind)).journaled
    d.file.current (by simp [StateFile.persisted]))
  have hdoes := does_approvedFlash (r := a.enter d) hending (by simp [hstatus])
  have hedges : edges (final (approvedFlash x) (a.enter d)).current.history =
      edges d.file.current.history ++
        madeMoves isTransitionAllowed d.file.current.state [.flashPrep, .flash] := hdoes.edges_eq
  let after : SessionDir := inDirectory name (final (approvedFlash x) (a.enter d)).dir
  have hmem : after ∈ (a.on name (approvedFlash x)).devices := (mem_on hfind).mpr (.inl rfl)
  have hafter : FlashRecorded after.file.current ↔
      d.file.current.state ∈ flashable ∨ FlashRecorded d.file.current := by
    have hjournaled : Journaled after.file.current :=
      ((ha.on (logs_approvedFlash x)).sound after hmem).journaled _ (by simp [StateFile.persisted])
    rw [flashRecorded_iff hjournaled, hbefore, ← madeMoves_flash_iff]
    have hsplit : edges after.file.current.history = edges d.file.current.history ++
        madeMoves isTransitionAllowed d.file.current.state [.flashPrep, .flash] := hedges
    simp only [hsplit, List.mem_append, or_and_right, exists_or]
    exact or_comm
  refine Iff.trans ⟨fun h => h after hmem (findSession_name hfind).symm, fun h d' hd' hname => ?_⟩ hafter
  rcases (mem_on hfind).mp hd' with rfl | ⟨-, hne⟩
  · exact h
  · exact absurd (hname.trans (findSession_name hfind)) hne

theorem installs_iff_inOrder (ha : a.Sound) (x : Action) :
    Installs lower digest a x ↔ InstallsInOrder lower digest a x := by
  refine and_congr (cycleApproves_iff lower digest a x) (forall_congr' fun d => ?_)
  refine forall_congr' fun hlive => ?_
  obtain ⟨name, x, result, rfl, hfind, hending, hstatus⟩ := hlive
  exact flashRecorded_behind ha hfind hending hstatus

end Runs

/-! ### An install that is not approved -/

/-- Everything that an install needs is there, but that lawful use is attested. -/
def readyInputs : EventInputs where
  strategy := "hardened_stock"
  cycle :=
    { built := unattestedInputs.built
      backup := unattestedInputs.backup
      restorePathFeasible := true
      context := bareContext }

/-- The first event of the phone, the operator who attests, and the lightweight cycle behind it. -/
def attestedActions : List Action :=
  [.event bareOrchestrator pixelContact readyInputs,
    .profile pixelSession.name
      { userProfile :=
          { lawfulUseAttested := true, targetUseCase := "lightweight_custom_android" }
        strategy := "hardened_stock" },
    .recompute bareOrchestrator pixelSession.name readyInputs.attached true]

def attestedAppliance : Appliance :=
  (emptyAppliance fun _ => "").after asciiLower id attestedActions

/-- The next full cycle of the session. -/
def readyAction : Action := .recompute bareOrchestrator pixelSession.name readyInputs.attached false

/-- The session as that cycle finds it, behind a lightweight cycle that went on to `BUILD_GENERIC`. -/
def attestedSession : SessionDir := attestedAppliance.devices.headD pixelSession

def readyCycle : CycleStart where
  name := pixelSession.name
  o := bareOrchestrator
  c := readyInputs.attached.atWeight false
  r := attestedAppliance.enter attestedSession

theorem cycle_readyAction : attestedAppliance.cycle asciiLower id readyAction = some readyCycle := by
  have hfind : findSession attestedAppliance.devices pixelSession.name = some attestedSession := rfl
  rw [readyAction, Appliance.cycle, hfind]
  rfl

end ForgeOS.Runtime
