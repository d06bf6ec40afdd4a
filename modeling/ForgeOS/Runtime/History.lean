import ForgeOS.Runtime.Appliance

/-! The histories of the sessions over every run of the appliance. Whatever an action does
to the state file of a session, it does by writes that keep the records; a file is only ever
founded with the first record. -/

namespace ForgeOS.Runtime

open ForgeOS.Python ForgeOS.Flash ForgeOS.Session ForgeOS.Library.Journal ForgeOS.Library.Trace

/-! ### Programs -/

/-- The program does to the state file what the table allows. -/
def Logs {α : Type} (m : RuntimeM α) : Prop :=
  ∀ r : RuntimeState, r.dir.file.Steps (final m r).dir.file

theorem Logs.bind {α β : Type} {m : RuntimeM α} {k : α → RuntimeM β} (hm : Logs m)
    (hk : ∀ a, Logs (k a)) : Logs (m >>= k) := fun r => (hm r).trans (hk _ _)

theorem logs_pure {α : Type} (a : α) : Logs (pure a : RuntimeM α) := fun _ => .refl

theorem logs_load : Logs loadSessionState := fun _ => .refl

theorem logs_launch (ls : List Launch) : Logs (launch ls) := fun _ => .refl

theorem logs_annotate (note : String) : Logs (annotate note) := fun r => (does_annotate note r).steps

theorem logs_transition (target : SessionStateName) (reason : String) :
    Logs (transition target reason) := fun r => (does_transition target reason r).steps

theorem logs_safeTransition (target : SessionStateName) (reason : String) :
    Logs (safeTransition target reason) := fun r => (does_safeTransition target reason r).steps

theorem logs_update {change : SessionState → SessionState} (hstate : ∀ s, (change s).state = s.state)
    (hhistory : ∀ s, (change s).history = s.history) : Logs (updateSessionState change) :=
  fun r => (does_update change hstate hhistory r).steps

theorem logs_chooseStrategy (x : EventInputs) : Logs (chooseStrategy x) := by
  have hstrategy : Logs (updateSessionState fun s =>
      { s with selectedStrategy := some x.strategy, supportStatus := x.supportStatus }) :=
    logs_update (fun _ => rfl) fun _ => rfl
  refine logs_load.bind fun state => ?_
  split_ifs
  · exact (logs_transition _ _).bind fun _ => logs_pure _
  · exact logs_pure _
  · exact hstrategy.bind fun _ => logs_safeTransition _ _

theorem logs_attach (x : EventInputs) : Logs (attach x) :=
  (logs_safeTransition _ _).bind fun _ => (logs_safeTransition _ _).bind fun _ =>
    (logs_safeTransition _ _).bind fun _ => (logs_safeTransition _ _).bind fun _ =>
      (logs_annotate _).bind fun _ => (logs_annotate _).bind fun _ =>
        (logs_safeTransition _ _).bind fun _ => (logs_safeTransition _ _).bind fun _ =>
          logs_chooseStrategy x

theorem logs_opening (x : EventInputs) (waiting : Bool) : Logs (x.opening waiting) := by
  rw [EventInputs.opening]
  split_ifs
  · exact logs_safeTransition _ _
  · exact logs_attach x

theorem logs_runRuntimeCycle (o : Orchestrator) (c : CycleInputs) : Logs (runRuntimeCycle o c) := by
  intro r
  obtain ⟨again, ls, hdoes⟩ := does_cycle o c r
  exact hdoes.steps

theorem logs_recompute (o : Orchestrator) (c : CycleInputs) : Logs (recompute o c) :=
  (logs_runRuntimeCycle o c).bind fun _ _ => .refl

theorem logs_recordWipeApproval (x : WipeApproval) : Logs (recordWipeApproval x) :=
  Logs.bind (fun _ => .refl) fun _ => Logs.bind (fun _ => .refl) fun _ =>
    logs_update (fun _ => rfl) fun _ => rfl

theorem logs_recordFlash (ending : RunEnd) : Logs (recordFlash ending) := by
  cases ending with
  | returned result =>
    rw [recordFlash]
    split_ifs
    · exact (logs_safeTransition _ _).bind fun _ => logs_safeTransition _ _
    · exact logs_pure _
  | raised error => exact logs_pure _

theorem logs_approvedFlash (x : FlashInputs) : Logs (approvedFlash x) :=
  Logs.bind (fun _ => .refl) fun _ => (logs_launch _).bind fun _ => logs_recordFlash _

theorem logs_saveProfile (x : ProfileAnswers) : Logs (saveProfile x) :=
  Logs.bind (fun _ => .refl) fun _ => logs_update (fun _ => rfl) fun _ => rfl

theorem FieldUpdate.apply_state (u : FieldUpdate) (s : SessionState) : (u.apply s).state = s.state := by
  cases u with
  | reclassified c b => exact reclassified_state c b s
  | _ => rfl

theorem FieldUpdate.apply_history (u : FieldUpdate) (s : SessionState) :
    (u.apply s).history = s.history := by
  cases u with
  | reclassified c b => exact reclassified_history c b s
  | _ => rfl

theorem logs_operation (op : Operation) : Logs op.run := by
  cases op with
  | transition target reason => exact (logs_transition target reason).bind fun _ => logs_pure _
  | safeTransition target reason => exact logs_safeTransition target reason
  | annotate note => exact logs_annotate note
  | update u => exact logs_update u.apply_state u.apply_history

/-! ### Sessions -/

/-- The names are apart, and the history of every session is sound. -/
structure Appliance.Sound (a : Appliance) : Prop where
  distinct : (names a.devices).Nodup
  sound : ∀ d ∈ a.devices, d.file.Sound

/-- Every session is still there, and its file has only been written as the table allows. -/
def Appliance.Grows (a a' : Appliance) : Prop :=
  ∀ d ∈ a.devices, ∃ d' ∈ a'.devices, d'.name = d.name ∧ d.file.Steps d'.file

theorem Appliance.Grows.refl (a : Appliance) : a.Grows a := fun d hd => ⟨d, hd, rfl, .refl⟩

theorem Appliance.Grows.trans {a b c : Appliance} (h : a.Grows b) (h' : b.Grows c) : a.Grows c := by
  intro d hd
  obtain ⟨d', hd', hname, hsteps⟩ := h d hd
  obtain ⟨e, he, hname', hsteps'⟩ := h' d' hd'
  exact ⟨e, he, hname'.trans hname, hsteps.trans hsteps'⟩

variable {a : Appliance} {name : String}

theorem mem_leave {r : RuntimeState} {d : SessionDir} : d ∈ (a.leave name r).devices ↔
    ∃ e ∈ a.devices, d = if e.name = name then inDirectory name r.dir else e := mem_putSession

theorem Appliance.grows_on {α : Type} {m : RuntimeM α} (hm : Logs m) (ha : a.Sound) :
    a.Grows (a.on name m) := by
  rw [Appliance.on]
  cases hfind : findSession a.devices name with
  | none => exact .refl a
  | some d =>
    have hd : d ∈ a.devices := List.mem_of_find?_eq_some hfind
    have hname := findSession_name hfind
    intro e he
    refine ⟨_, mem_leave.mpr ⟨e, he, rfl⟩, ?_⟩
    split_ifs with heq
    · obtain rfl : e = d := List.inj_on_of_nodup_map ha.distinct he hd (heq.trans hname.symm)
      exact ⟨hname.symm, hm (a.enter e)⟩
    · exact ⟨rfl, .refl⟩

theorem Appliance.Sound.on {α : Type} {m : RuntimeM α} (hm : Logs m) (ha : a.Sound) :
    (a.on name m).Sound := by
  rw [Appliance.on]
  cases hfind : findSession a.devices name with
  | none => exact ha
  | some d =>
    have hd : d ∈ a.devices := List.mem_of_find?_eq_some hfind
    refine ⟨?_, fun e he => ?_⟩
    · show (names (putSession a.devices _)).Nodup
      rw [names_putSession]
      exact ha.distinct
    · obtain ⟨e₀, he₀, rfl⟩ := mem_leave.mp he
      split_ifs
      · exact (ha.sound d hd).steps (hm (a.enter d))
      · exact ha.sound e₀ he₀

/-! ### Devices that are met -/

variable (lower digest : String → String)

/-- What a device event does to the sessions before any of its programs: a profile is
replaced, or a session is founded. -/
inductive Meets (devices : Devices) : Devices → Prop
  | merged {d : SessionDir} (hd : d ∈ devices) (profile : DeviceProfile) :
      Meets devices (putSession devices { d with profile })
  | founded {c : Contact} (hnew : (newSession lower digest c).name ∉ names devices) :
      Meets devices (devices ++ [newSession lower digest c])

variable {lower digest}

theorem meets_handleDeviceEvent {devices : Devices} (hnodup : (names devices).Nodup) (c : Contact) :
    Meets lower digest devices (handleDeviceEvent lower digest devices c) := by
  rw [handleDeviceEvent_eq]
  cases hsession : eventSession lower digest devices c with
  | some d => exact .merged (eventSession_mem hnodup hsession) _
  | none => exact .founded (name_notMem_of_eventSession hsession)

theorem meets_createOrResume (devices : Devices) (c : Contact) :
    Meets lower digest devices (createOrResume lower digest devices c).1 := by
  rw [createOrResume]
  cases hresumed : resumed lower digest devices c with
  | some d => exact .merged (resumed_mem lower digest hresumed) _
  | none =>
    rw [resumed, Option.or_eq_none_iff] at hresumed
    exact .founded (findSession_eq_none.mp hresumed.1)

/-- A new session has the first record, and nothing was persisted before. -/
theorem sound_newSession (c : Contact) : (newSession lower digest c).file.Sound where
  journaled s hs := by
    obtain rfl := List.mem_singleton.mp hs
    let first : TransitionRecord := ⟨.idle, .deviceAttached, "Device detected", c.now⟩
    exact Linked.start (r := first)
  kept := List.pairwise_singleton _ _

theorem Meets.grows {devices devices' : Devices} (h : Meets lower digest devices devices')
    (hnodup : (names devices).Nodup) :
    ∀ d ∈ devices, ∃ d' ∈ devices', d'.name = d.name ∧ d.file.Steps d'.file := by
  cases h with
  | @merged d hd profile =>
    intro e he
    refine ⟨_, mem_putSession.mpr ⟨e, he, rfl⟩, ?_⟩
    split_ifs with heq
    · obtain rfl : e = d := List.inj_on_of_nodup_map hnodup he hd heq
      exact ⟨rfl, .refl⟩
    · exact ⟨rfl, .refl⟩
  | founded hnew => exact fun e he => ⟨e, List.mem_append_left _ he, rfl, .refl⟩

theorem Meets.distinct {devices devices' : Devices} (h : Meets lower digest devices devices')
    (hnodup : (names devices).Nodup) : (names devices').Nodup := by
  cases h with
  | merged hd profile =>
    rw [names_putSession]
    exact hnodup
  | founded hnew =>
    rw [names, List.map_append, List.nodup_append]
    refine ⟨hnodup, List.nodup_singleton _, fun m hm n hn hmn => hnew ?_⟩
    rw [← List.mem_singleton.mp hn, ← hmn]
    exact hm

theorem Meets.sound {devices devices' : Devices} (h : Meets lower digest devices devices')
    (hsound : ∀ d ∈ devices, d.file.Sound) : ∀ d ∈ devices', d.file.Sound := by
  cases h with
  | @merged d hd profile =>
    intro e he
    obtain ⟨e₀, he₀, rfl⟩ := mem_putSession.mp he
    split_ifs
    · exact hsound d hd
    · exact hsound e₀ he₀
  | @founded c hnew =>
    intro e he
    rcases List.mem_append.mp he with he | he
    · exact hsound e he
    · rw [List.mem_singleton.mp he]
      exact sound_newSession c

/-! ### Runs -/

variable (lower digest)

theorem Appliance.Sound.meet {c : Contact} (ha : a.Sound) : (a.meet lower digest c).Sound where
  distinct := (meets_handleDeviceEvent ha.distinct c).distinct ha.distinct
  sound := (meets_handleDeviceEvent ha.distinct c).sound ha.sound

/-- An action keeps the histories sound. -/
theorem Appliance.Sound.step (ha : a.Sound) (x : Action) : (a.step lower digest x).Sound := by
  cases x with
  | contact c =>
    exact ⟨(meets_createOrResume a.devices c).distinct ha.distinct,
      (meets_createOrResume a.devices c).sound ha.sound⟩
  | event o c x =>
    exact (ha.meet lower digest).on ((logs_opening x _).bind fun _ => logs_recompute o _)
  | recompute o name c lightweight => exact ha.on (logs_recompute o _)
  | approve name x => exact ha.on (logs_recordWipeApproval x)
  | flash name x => exact ha.on (logs_approvedFlash x)
  | profile name x => exact ha.on (logs_saveProfile x)
  | operation name op => exact ha.on (logs_operation op)

/-- An action loses nothing of any history. -/
theorem Appliance.grows_step (ha : a.Sound) (x : Action) : a.Grows (a.step lower digest x) := by
  cases x with
  | contact c => exact (meets_createOrResume a.devices c).grows ha.distinct
  | event o c x =>
    have hmeet : a.Grows (a.meet lower digest c) :=
      (meets_handleDeviceEvent ha.distinct c).grows ha.distinct
    exact hmeet.trans
      (grows_on ((logs_opening x _).bind fun _ => logs_recompute o _) (ha.meet lower digest))
  | recompute o name c lightweight => exact grows_on (logs_recompute o _) ha
  | approve name x => exact grows_on (logs_recordWipeApproval x) ha
  | flash name x => exact grows_on (logs_approvedFlash x) ha
  | profile name x => exact grows_on (logs_saveProfile x) ha
  | operation name op => exact grows_on (logs_operation op) ha

theorem Appliance.Sound.after (ha : a.Sound) (actions : List Action) :
    (a.after lower digest actions).Sound := by
  induction actions generalizing a with
  | nil => exact ha
  | cons x actions ih => exact ih (ha.step lower digest x)

theorem Appliance.grows_after (ha : a.Sound) (actions : List Action) :
    a.Grows (a.after lower digest actions) := by
  induction actions generalizing a with
  | nil => exact .refl a
  | cons x actions ih => exact (grows_step lower digest ha x).trans (ih (ha.step lower digest x))

theorem after_append (actions more : List Action) :
    a.after lower digest (actions ++ more) = (a.after lower digest actions).after lower digest more :=
  List.foldl_append

/-- An appliance that has not seen a device. -/
def emptyAppliance (clock : ℕ → String) : Appliance where
  clock

theorem sound_emptyAppliance (clock : ℕ → String) : (emptyAppliance clock).Sound where
  distinct := List.nodup_nil
  sound _ hd := absurd hd List.not_mem_nil

/-- Behind every run of actions the history of every session starts with the attachment of the
device, goes on by allowed moves and ends in the persisted state, as it did whenever it was
persisted; and whatever a session had persisted at any time of the run is there in the end. -/
theorem histories_sound (clock : ℕ → String) (actions more : List Action) :
    (∀ d ∈ ((emptyAppliance clock).after lower digest actions).devices,
      (∀ s ∈ d.file.persisted, Journaled s) ∧
        d.file.persisted.Pairwise fun s s' => s.history <+: s'.history) ∧
    ∀ d ∈ ((emptyAppliance clock).after lower digest actions).devices,
      ∃ d' ∈ ((emptyAppliance clock).after lower digest (actions ++ more)).devices,
        d'.name = d.name ∧ d.file.persisted <+: d'.file.persisted := by
  have hsound := (sound_emptyAppliance clock).after lower digest actions
  constructor
  · intro d hd
    exact ⟨(hsound.sound d hd).journaled, (hsound.sound d hd).kept⟩
  · intro d hd
    rw [after_append]
    obtain ⟨d', hd', hname, hsteps⟩ := Appliance.grows_after lower digest hsound more d hd
    exact ⟨d', hd', hname, hsteps.persisted_isPrefix⟩

end ForgeOS.Runtime
