import ForgeOS.Runtime.CycleStart

/-! Cycles that end with a blocker for the operator. The session is to wait at the question
gate, where the next event of the device finds it. A cycle that asks at once passes the gate
twice: the bookkeeping in between moves the session on to `BACKUP_READY`, from where the
table leads to the gate no more. -/

namespace ForgeOS.Runtime

open ForgeOS.Python ForgeOS.Flash ForgeOS.Session ForgeOS.Library.Journal ForgeOS.Library.Trace
open ForgeOS.Library.Conditions

/-! ### The moves of a cycle with a blocker for the operator -/

theorem closingMoves_external {o : Orchestrator} {c : CycleInputs} {opening : Opening}
    {progress : Progress} (hblocked : progress.blocker.blockerType ≠ .none)
    (hexternal : progress.blocker.machineSolvable = false) (again : Bool) :
    closingMoves o c opening progress again =
      bookkeeping (previewed o c opening progress) (verified o c opening progress)
        (installReady o c opening progress) ++ [.questionGate] := by
  rw [closingMoves, if_neg hblocked, if_pos hexternal, bookkeeping]
  simp only [List.append_assoc]

/-- From the classification none of the bookkeeping moves is made. -/
theorem closing_of_classified (p v i : Bool) :
    tryMoves isTransitionAllowed .blockerClassify (bookkeeping p v i ++ [.questionGate]) =
      .questionGate := by
  cases p <;> cases v <;> cases i <;> rfl

/-- From the question gate they lead to states that the gate cannot be reached from. -/
theorem closing_of_asked (p v i : Bool) :
    tryMoves isTransitionAllowed .questionGate (bookkeeping p v i ++ [.questionGate]) ≠
      .questionGate := by
  cases p <;> cases v <;> cases i <;> decide

theorem blockerClassify_notMem_closing (p v i : Bool) :
    .blockerClassify ∉ bookkeeping p v i ++ [.questionGate] := by
  cases p <;> cases v <;> cases i <;> decide

theorem blockerClassify_notMem_asked (p v i : Bool) :
    .blockerClassify ∉ [.questionGate] ++ (bookkeeping p v i ++ [.questionGate]) := by
  cases p <;> cases v <;> cases i <;> decide

/-- The opening of a cycle leads from the state to the classification. -/
def classified (s : SessionStateName) : Bool :=
  tryMoves isTransitionAllowed s openingMoves = .blockerClassify

/-- The opening and a remediation that leaves a blocker lead from the state to the classification. -/
def classifiedAgain (s : SessionStateName) : Bool :=
  tryMoves isTransitionAllowed s (openingMoves ++ remediationMoves true) = .blockerClassify

/-- The session was in `BLOCKER_CLASSIFY` at the start, or a move led there. -/
def visits (s : SessionStateName) (ts : List SessionStateName) : Bool :=
  s = .blockerClassify ∨ .blockerClassify ∈ (madeMoves isTransitionAllowed s ts).map Prod.snd

theorem visits_append {s : SessionStateName} {ts us : List SessionStateName}
    (hus : .blockerClassify ∉ us) : visits s (ts ++ us) = visits s ts := by
  have hnone : .blockerClassify ∉
      (madeMoves isTransitionAllowed (tryMoves isTransitionAllowed s ts) us).map Prod.snd := by
    rintro h
    obtain ⟨m, hm, heq⟩ := List.mem_map.mp h
    exact hus (heq ▸ mem_of_mem_madeMoves isTransitionAllowed hm)
  simp only [visits, madeMoves_append, List.map_append, List.mem_append, or_iff_left hnone]

theorem visits_opening (s : SessionStateName) : visits s openingMoves = classified s := by
  revert s
  decide

theorem visits_remediation (s : SessionStateName) :
    visits s (openingMoves ++ remediationMoves true) = classifiedAgain s := by
  revert s
  decide

/-! ### Blockers for the operator -/

namespace CycleStart

/-- The cycle was in `BLOCKER_CLASSIFY` and ends with a blocker for the operator, on which the
model took no action. -/
structure LeftToOperator (k : CycleStart) : Prop where
  entered : k.r.current.state = .blockerClassify ∨ .blockerClassify ∈ k.recorded.map Prod.snd
  blocked : k.result.blocker.blockerType ≠ .none
  external : k.result.blocker.machineSolvable = false
  idle : k.result.acted = false

/-- The classification is reached, and its first blocker is one for the operator on which the
model does nothing. -/
structure AskedAtOnce (k : CycleStart) : Prop where
  classified : classified k.r.current.state = true
  blocked : k.opening.blocker.blockerType ≠ .none
  external : k.opening.blocker.machineSolvable = false
  idle : modelActs k.o k.c k.opening = false

/-- The first blocker is remediated, the classification is reached again, and its second blocker
is one for the operator. -/
structure AskedAfterRemediation (k : CycleStart) : Prop where
  remediates : remediates k.o k.c k.opening = true
  classified : classifiedAgain k.r.current.state = true
  blocked : k.outcome.blocker.blockerType ≠ .none
  external : k.outcome.blocker.machineSolvable = false

variable {k : CycleStart}

theorem outcome_of_remediates (h : Runtime.remediates k.o k.c k.opening = true) :
    k.outcome = remediated k.c (inspected k.c (scannedProfile k.o k.r))
      (k.r.current.remediationIteration + 1) := if_pos h

theorem outcome_of_asked (h : Runtime.remediates k.o k.c k.opening = false) :
    k.outcome = unremediated k.o k.c k.opening := if_neg (Bool.eq_false_iff.mp h)

/-- The moves of the cycle between the classification and the question at its end. -/
def bookkeepingMoves (k : CycleStart) : List SessionStateName :=
  bookkeeping (previewed k.o k.c k.opening k.outcome) (verified k.o k.c k.opening k.outcome)
    (installReady k.o k.c k.opening k.outcome)

/-- The moves of a cycle that remediates and ends with a blocker for the operator. -/
theorem moves_of_remediates (hremediates : Runtime.remediates k.o k.c k.opening = true)
    (hblocked : k.outcome.blocker.blockerType ≠ .none)
    (hexternal : k.outcome.blocker.machineSolvable = false) (again : Bool) :
    cycleMoves k.o k.c k.opening k.outcome again =
      openingMoves ++ remediationMoves true ++ (k.bookkeepingMoves ++ [.questionGate]) := by
  rw [cycleMoves, middleMoves, if_pos hremediates, closingMoves_external hblocked hexternal,
    decide_eq_true hblocked, List.append_assoc]
  rfl

/-- The moves of a cycle that asks about its first blocker. -/
theorem moves_of_asked (hremediates : Runtime.remediates k.o k.c k.opening = false)
    (hblocked : k.opening.blocker.blockerType ≠ .none)
    (hexternal : k.opening.blocker.machineSolvable = false)
    (hidle : modelActs k.o k.c k.opening = false) (again : Bool) :
    cycleMoves k.o k.c k.opening k.outcome again =
      openingMoves ++ ([.questionGate] ++ (k.bookkeepingMoves ++ [.questionGate])) := by
  have houtcome : k.outcome.blocker = k.opening.blocker := by rw [outcome_of_asked hremediates]; rfl
  rw [cycleMoves, middleMoves, if_neg (by simp [hremediates]), if_pos ⟨hblocked, hidle⟩,
    closingMoves_external (houtcome ▸ hblocked) (houtcome ▸ hexternal)]
  rfl

theorem not_remediates_of_external (h : k.opening.blocker.machineSolvable = false) :
    Runtime.remediates k.o k.c k.opening = false := by
  rw [Runtime.remediates, h]
  rfl

theorem visits_of_remediates (hremediates : Runtime.remediates k.o k.c k.opening = true)
    (hblocked : k.outcome.blocker.blockerType ≠ .none)
    (hexternal : k.outcome.blocker.machineSolvable = false) (again : Bool) :
    visits k.r.current.state (cycleMoves k.o k.c k.opening k.outcome again) =
      classifiedAgain k.r.current.state := by
  rw [moves_of_remediates hremediates hblocked hexternal, bookkeepingMoves,
    visits_append (blockerClassify_notMem_closing _ _ _), visits_remediation]

theorem visits_of_asked (hremediates : Runtime.remediates k.o k.c k.opening = false)
    (hblocked : k.opening.blocker.blockerType ≠ .none)
    (hexternal : k.opening.blocker.machineSolvable = false)
    (hidle : modelActs k.o k.c k.opening = false) (again : Bool) :
    visits k.r.current.state (cycleMoves k.o k.c k.opening k.outcome again) =
      Runtime.classified k.r.current.state := by
  rw [moves_of_asked hremediates hblocked hexternal hidle, bookkeepingMoves,
    visits_append (blockerClassify_notMem_asked _ _ _), visits_opening]

/-- A session that asks at once does not wait. -/
theorem AskedAtOnce.ending_ne (h : k.AskedAtOnce) : k.ending ≠ .questionGate := by
  obtain ⟨again, hending, -⟩ := k.exists_moves
  have hmoves :=
    moves_of_asked (not_remediates_of_external h.external) h.blocked h.external h.idle again
  have hopening : tryMoves isTransitionAllowed k.r.current.state openingMoves = .blockerClassify :=
    of_decide_eq_true h.classified
  have hgate : tryMoves isTransitionAllowed .blockerClassify [.questionGate] = .questionGate := rfl
  rw [hending, hmoves, tryMoves_append, hopening, tryMoves_append, hgate]
  exact closing_of_asked _ _ _

/-- A session that asks after a remediation waits. -/
theorem AskedAfterRemediation.ending_eq (h : k.AskedAfterRemediation) :
    k.ending = .questionGate := by
  obtain ⟨again, hending, -⟩ := k.exists_moves
  have hmoves := moves_of_remediates h.remediates h.blocked h.external again
  have hagain : tryMoves isTransitionAllowed k.r.current.state
      (openingMoves ++ remediationMoves true) = .blockerClassify := of_decide_eq_true h.classified
  rw [hending, hmoves, tryMoves_append, hagain]
  exact closing_of_classified _ _ _

/-- What is left to the operator, from the moves and what the cycle knows at its end. -/
theorem exists_leftToOperator_iff (k : CycleStart) : ∃ again : Bool, k.LeftToOperator ↔
    visits k.r.current.state (cycleMoves k.o k.c k.opening k.outcome again) = true ∧
      k.outcome.blocker.blockerType ≠ .none ∧ k.outcome.blocker.machineSolvable = false ∧
      k.outcome.acted = false := by
  obtain ⟨again, -, hrecorded⟩ := k.exists_moves
  refine ⟨again, ?_⟩
  rw [visits, ← hrecorded, decide_eq_true_iff]
  constructor
  · rintro ⟨hentered, hblocked, hexternal, hidle⟩
    rw [k.result_eq] at hblocked hexternal hidle
    exact ⟨hentered, hblocked, hexternal, hidle⟩
  · rintro ⟨hentered, hblocked, hexternal, hidle⟩
    refine ⟨hentered, ?_, ?_, ?_⟩
    · rw [k.result_eq]
      exact hblocked
    · rw [k.result_eq]
      exact hexternal
    · rw [k.result_eq]
      exact hidle

theorem leftToOperator_of_remediates (h : Runtime.remediates k.o k.c k.opening = true) :
    k.LeftToOperator ↔ k.AskedAfterRemediation := by
  obtain ⟨again, hleft⟩ := k.exists_leftToOperator_iff
  have hidle : k.outcome.acted = false := by rw [outcome_of_remediates h]; rfl
  rw [hleft]
  constructor
  · rintro ⟨hvisits, hblocked, hexternal, -⟩
    rw [visits_of_remediates h hblocked hexternal] at hvisits
    exact ⟨h, hvisits, hblocked, hexternal⟩
  · rintro ⟨-, hclassified, hblocked, hexternal⟩
    refine ⟨?_, hblocked, hexternal, hidle⟩
    rw [visits_of_remediates h hblocked hexternal]
    exact hclassified

theorem leftToOperator_of_asked (h : Runtime.remediates k.o k.c k.opening = false) :
    k.LeftToOperator ↔ k.AskedAtOnce := by
  obtain ⟨again, hleft⟩ := k.exists_leftToOperator_iff
  have hblocker : k.outcome.blocker = k.opening.blocker := by rw [outcome_of_asked h]; rfl
  have hacted : k.opening.blocker.blockerType ≠ .none →
      k.outcome.acted = modelActs k.o k.c k.opening := by
    intro hblocked
    rw [outcome_of_asked h]
    exact if_pos hblocked
  rw [hleft, hblocker]
  constructor
  · rintro ⟨hvisits, hblocked, hexternal, hidle⟩
    rw [hacted hblocked] at hidle
    rw [visits_of_asked h hblocked hexternal hidle] at hvisits
    exact ⟨hvisits, hblocked, hexternal, hidle⟩
  · rintro ⟨hclassified, hblocked, hexternal, hidle⟩
    refine ⟨?_, hblocked, hexternal, (hacted hblocked).trans hidle⟩
    rw [visits_of_asked h hblocked hexternal hidle]
    exact hclassified

theorem leftToOperator_iff : k.LeftToOperator ↔ k.AskedAtOnce ∨ k.AskedAfterRemediation := by
  by_cases h : Runtime.remediates k.o k.c k.opening = true
  · rw [leftToOperator_of_remediates h]
    refine (or_iff_right fun hasked => ?_).symm
    rw [not_remediates_of_external hasked.external] at h
    exact absurd h Bool.false_ne_true
  · rw [leftToOperator_of_asked (Bool.eq_false_iff.mpr h)]
    exact (or_iff_left fun hagain => h hagain.remediates).symm

end CycleStart

/-! ### Sessions that are resumed -/

section Resumed

variable (lower digest : String → String)

/-- The session stands at the question gate, and every event with its serial finds it there and
classifies its blocker again. -/
def Resumes (a : Appliance) (k : CycleStart) : Prop :=
  k.ending = .questionGate ∧
    ∀ (o : Orchestrator) (c : Contact) (x : EventInputs),
      orText (probed c).probe.serial "" = orText k.finish.profile.serial "" →
        (∃ d, waitingFor a.devices c = some d ∧ d.name = k.name) ∧
          ∃ k', a.cycle lower digest (.event o c x) = some k' ∧ k'.name = k.name ∧
            k'.r.current.state = .blockerClassify

/-- The serial that a session with a blocker ends with. -/
def CycleStart.serial (k : CycleStart) : String := orText k.outcome.profile.serial ""

/-- Another session with the serial waits, and comes first by its name. -/
def Rival (a : Appliance) (k : CycleStart) : Prop :=
  k.serial ≠ "" ∧ ∃ d ∈ a.devices, waitsFor k.serial d = true ∧ ¬k.name ≤ d.name

variable {lower digest} {a : Appliance}

theorem serial_finish {k : CycleStart} (h : k.AskedAfterRemediation) :
    orText k.finish.profile.serial "" = k.serial := by
  rw [k.finish_profile, profile_cycle k.o k.c h.blocked]
  rfl

theorem serial_probed_ne (c : Contact) : orText (probed c).probe.serial "" ≠ "" := by
  have hne : orText c.probe.serial "unknown-serial" ≠ "" :=
    IdentityField.filled_ne c.probe .serial
  show orText (some (orText c.probe.serial "unknown-serial")) "" ≠ ""
  rw [orText_of_ne hne]
  exact hne

/-- An event that finds a waiting session classifies its blocker again. -/
theorem cycle_of_waiting (hnodup : (names a.devices).Nodup) {c : Contact} {d : SessionDir}
    (hwait : waitingFor a.devices c = some d) (o : Orchestrator) (x : EventInputs) :
    ∃ k, a.cycle lower digest (.event o c x) = some k ∧ k.name = d.name ∧
      k.r.current.state = .blockerClassify := by
  have hfound := (findWaitingSession_eq_some_iff hnodup).mp hwait
  have hsession : eventSession lower digest a.devices c = some d := by
    rw [eventSession, hwait]
    rfl
  have hname : eventName lower digest a.devices c = d.name := by
    rw [eventName, hsession]
    rfl
  have hawaits : a.awaits c = true := by
    rw [Appliance.awaits, hwait]
    rfl
  have hmet : findSession (a.meet lower digest c).devices d.name =
      some { d with profile := mergeProbe d.profile (deviceProbe c.probe) } := by
    have hmerge : (a.meet lower digest c).devices = mergeInto a.devices d c.probe := by
      rw [Appliance.meet, handleDeviceEvent_eq, hsession]
    rw [hmerge, mergeInto.eq_def, findSession_putSession, if_pos rfl,
      findSession_of_mem hnodup hfound.2.1]
    rfl
  have hstate : d.file.current.state = .questionGate := by
    have hwaits := hfound.2.2.1
    rw [waitsFor, Bool.and_eq_true] at hwaits
    exact of_decide_eq_true hwaits.1
  let met : RuntimeState := (a.meet lower digest c).enter
    { d with profile := mergeProbe d.profile (deviceProbe c.probe) }
  refine ⟨⟨d.name, o, x.cycle.atWeight false, final reenter met⟩, ?_, rfl, ?_⟩
  · rw [Appliance.cycle, hname, hmet, hawaits]
    rfl
  · have hmove := (does_safeTransition .blockerClassify
      "Device state changed while waiting at QUESTION_GATE — re-entering blocker classification"
      met).state_eq
    have hmet : met.current.state = .questionGate := hstate
    rw [hmet] at hmove
    exact hmove

theorem waitsFor_finish {k : CycleStart} (h : k.AskedAfterRemediation) :
    waitsFor k.serial k.finish = true := by
  have hending : k.finish.file.current.state = .questionGate := h.ending_eq
  rw [waitsFor, serial_finish h, hending]
  simp

/-- A session that asks after a remediation is resumed, unless another one is found first. -/
theorem resumes_iff (ha : a.Sound) {x : Action} {k : CycleStart}
    (hk : a.cycle lower digest x = some k) (h : k.AskedAfterRemediation) :
    Resumes lower digest (a.step lower digest x) k ↔ ¬Rival a k := by
  have hnodup : (names (a.step lower digest x).devices).Nodup := (ha.step lower digest x).distinct
  constructor
  · rintro ⟨-, hfinds⟩ ⟨hne, d, hd, hwaits, hlater⟩
    let c : Contact := { probe := { serial := some k.serial }, today := "" }
    have hserial : orText (probed c).probe.serial "" = k.serial := by
      show orText (some (orText (some k.serial) "unknown-serial")) "" = k.serial
      rw [orText_of_ne hne, orText_of_ne hne]
    obtain ⟨⟨d', hfound, hname⟩, -⟩ :=
      hfinds k.o c { cycle := k.c } (hserial.trans (serial_finish h).symm)
    have hfirst := ((findWaitingSession_eq_some_iff hnodup).mp hfound).2.2.2
    have hmem : d ∈ (a.step lower digest x).devices :=
      (mem_step_of_cycle hk).mpr (.inr ⟨hd, fun hsame => hlater (hsame ▸ String.le_refl _)⟩)
    rw [hserial] at hfirst
    exact hlater (hname ▸ hfirst d hmem hwaits)
  · intro hrival
    refine ⟨h.ending_eq, fun o c x' hsame => ?_⟩
    have hserial : orText (probed c).probe.serial "" = k.serial := hsame.trans (serial_finish h)
    have hfound : waitingFor (a.step lower digest x).devices c = some k.finish := by
      refine (findWaitingSession_eq_some_iff hnodup).mpr ⟨serial_probed_ne c, ?_, ?_, ?_⟩
      · exact (mem_step_of_cycle hk).mpr (.inl rfl)
      · rw [hserial]
        exact waitsFor_finish h
      · intro d hd hwaits
        rw [hserial] at hwaits
        rcases (mem_step_of_cycle hk).mp hd with rfl | ⟨hold, -⟩
        · exact String.le_refl _
        · by_contra hlater
          exact hrival ⟨hserial ▸ serial_probed_ne c, d, hold, hwaits, hlater⟩
    exact ⟨⟨k.finish, hfound, rfl⟩, cycle_of_waiting hnodup hfound o x'⟩

variable (lower digest)

/-- A cycle that leaves its blocker to the operator leaves its session where it is resumed. -/
def CycleWaits (a : Appliance) (x : Action) : Prop :=
  ∀ k, a.cycle lower digest x = some k → k.LeftToOperator →
    Resumes lower digest (a.step lower digest x) k

/-- The cycle does not ask about its first blocker, and where it asks after a remediation no other
session with the serial waits and comes first by its name. -/
def CycleAsksLate (a : Appliance) (x : Action) : Prop :=
  ∀ k, a.cycle lower digest x = some k →
    ¬k.AskedAtOnce ∧ (k.AskedAfterRemediation → ¬Rival a k)

theorem cycleWaits_iff (ha : a.Sound) (x : Action) :
    CycleWaits lower digest a x ↔ CycleAsksLate lower digest a x := by
  refine forall_congr' fun k => forall_congr' fun hk => ?_
  rw [CycleStart.leftToOperator_iff]
  constructor
  · intro hwaits
    refine ⟨fun hasked => hasked.ending_ne (hwaits (.inl hasked)).1, fun hasked => ?_⟩
    exact (resumes_iff ha hk hasked).mp (hwaits (.inr hasked))
  · rintro ⟨hnever, hfirst⟩ (hasked | hasked)
    · exact absurd hasked hnever
    · exact (resumes_iff ha hk hasked).mpr (hfirst hasked)

/-- Over every run of events, cycles and everything else that happens to sessions, the sessions that
are left to the operator wait where they are resumed exactly when no cycle asks about its first
blocker and none that asks after a remediation is hidden by another session with its serial. -/
theorem waits_iff (clock : ℕ → String) (actions : List Action) :
    Along (Appliance.step lower digest) (CycleWaits lower digest) (emptyAppliance clock) actions ↔
      Along (Appliance.step lower digest) (CycleAsksLate lower digest) (emptyAppliance clock)
        actions :=
  along_congr (I := Appliance.Sound) (fun _ x ha => ha.step lower digest x)
    (fun _ x ha => cycleWaits_iff lower digest ha x) (sound_emptyAppliance clock) actions

end Resumed

/-! ### A session that does not wait -/

/-- The phone asks on its screen whether to trust the computer, and no transport is there. -/
def untrustedInputs : EventInputs where
  supportStatus := .blocked
  cycle :=
    { assessment := { engagementStatus := "awaiting_user_approval" }
      built := { status := "missing_source" }
      context := bareContext }

def untrustedContact : Contact where
  probe := { manufacturer := some "Google", model := some "Pixel 7", serial := some "ABC" }
  today := "2026-01-01"

def untrustedEvent : Action := .event bareOrchestrator untrustedContact untrustedInputs

def untrustedSession : SessionDir := newSession asciiLower id (probed untrustedContact)

/-- The cycle of the event, in the new session. -/
def untrustedCycle : CycleStart where
  name := untrustedSession.name
  o := bareOrchestrator
  c := untrustedInputs.attached.atWeight false
  r := final (attach untrustedInputs)
    { dir := untrustedSession, clock := fun _ => "" }

theorem askedAtOnce_untrustedCycle : untrustedCycle.AskedAtOnce where
  classified := by decide
  blocked := by decide
  external := by decide
  idle := by decide

/-- The session of a phone whose trust prompt is open leaves the question gate in the same cycle. -/
theorem untrusted_does_not_wait :
    ¬Along (Appliance.step asciiLower id) (CycleWaits asciiLower id) (emptyAppliance fun _ => "")
      [untrustedEvent] := by
  rintro ⟨hwaits, -⟩
  have hcycle : (emptyAppliance fun _ => "").cycle asciiLower id untrustedEvent =
      some untrustedCycle :=
    cycle_firstEvent _ bareOrchestrator untrustedContact untrustedInputs
  have hleft := CycleStart.leftToOperator_iff.mpr (.inl askedAtOnce_untrustedCycle)
  exact askedAtOnce_untrustedCycle.ending_ne (hwaits untrustedCycle hcycle hleft).1

end ForgeOS.Runtime
