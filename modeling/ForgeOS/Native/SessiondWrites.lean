import ForgeOS.Native.SessiondJournal

/-! What a kill leaves of the files that the session daemon replaces. The file itself always has
its old or its new content; an unfinished journal is taken away at the next start, but an unfinished
home page stays, and no later one can be written. -/

namespace ForgeOS.Native.Sessiond

open ForgeOS.Library.CrashHoare

/-! ### Unfinished files -/

/-- What `open` with `O_EXCL` does. -/
def openEffect (file : File) (s : State) (a : Answer) : State :=
  if a.ok && (s.staging file).isNone then
    { s with staging := Function.update s.staging file (some []) }
  else s

/-- Which unfinished files are there. -/
def Unfinished (left : File → Bool) (s : State) : Prop :=
  ∀ file, (s.staging file).isSome = left file

/-- The files that were unfinished stay so, and a file is opened while no other one is written. -/
def Fit (left : File → Bool) (effect : State → Answer → State) (s : State) : Prop :=
  (∀ file, left file = true → (s.staging file).isSome = true) ∧
    ∀ file, effect = openEffect file → Unfinished left s

/-- The world beside the daemon does not write its files. -/
def Apart (s t : State) : Prop := t.staging = s.staging

theorem apart_rely : Rely Apart fun _ => True where
  refl _ := rfl
  trans h h' := h'.trans h
  keeps _ _ := trivial

/-- A file is being written that was not left unfinished. -/
structure Writing (left : File → Bool) (file : File) (s : State) : Prop where
  fresh : left file = false
  there : (s.staging file).isSome = true
  others : ∀ other, other ≠ file → (s.staging other).isSome = left other

section

variable {left : File → Bool} {α β : Type}

theorem stable_unfinished : Stable Apart (Unfinished left) := by
  intro s t h hs file
  rw [show t.staging = s.staging from h]
  exact hs file

theorem stable_writing (file : File) : Stable Apart (Writing left file) := by
  intro s t h hs
  have hstaging : t.staging = s.staging := h
  refine ⟨hs.fresh, ?_, ?_⟩
  · rw [hstaging]
    exact hs.there
  · rw [hstaging]
    exact hs.others

theorem Unfinished.fit {s : State} (h : Unfinished left s) (effect : State → Answer → State) :
    Fit left effect s :=
  ⟨fun file hleft => (h file).trans hleft, fun _ _ => h⟩

theorem Writing.fit {file : File} {s : State} (h : Writing left file s)
    {effect : State → Answer → State} (heffect : ∀ other, effect ≠ openEffect other) :
    Fit left effect s := by
  refine ⟨fun other hleft => ?_, fun other hopen => absurd hopen (heffect other)⟩
  by_cases hother : other = file
  · rw [hother]
    exact h.there
  · rw [h.others other hother, hleft]

/-- The steps on a file that has been opened do not open one. -/
theorem fill_ne_open (file : File) (data : Bytes) (other : File) :
    (fun (s : State) (a : Answer) => { s with
        staging := Function.update s.staging file
          (some (if a.ok then data else data.take a.number)) }) ≠ openEffect other := by
  intro h
  have hat := congrFun (congrFun h installed) { ok := false, number := 0, text := [] }
  have hstaging := congrFun (congrArg State.staging hat) file
  simp [openEffect, installed] at hstaging

theorem ne_open {effect : State → Answer → State} (other : File)
    (h : ∀ a, (effect installed a).staging other = none) : effect ≠ openEffect other := by
  rintro rfl
  have hat := h { ok := true, number := 0, text := [] }
  simp [openEffect, installed] at hat

/-! ### Programs that leave no more unfinished files -/

abbrev Watches (left : File → Bool) (P : State → Prop) (p : Program α)
    (Q : α → State → Prop) : Prop :=
  Watch Apart (Fit left) P p Q

/-- Behind the program the same files are unfinished as before it. -/
abbrev Steady (left : File → Bool) (p : Program α) : Prop :=
  Watches left (Unfinished left) p fun _ => Unfinished left

theorem Steady.bind {p : Program α} {k : α → Program β} (h : Steady left p)
    (hk : ∀ a, Steady left (k a)) : Steady left (p >>= k) :=
  Watch.bind apart_rely h hk

theorem steady_pure (a : α) : Steady left (pure a) := Watch.pure stable_unfinished fun _ h => h

theorem Steady.ite {c : Prop} [Decidable c] {p q : Program α} (hp : Steady left p)
    (hq : Steady left q) : Steady left (if c then p else q) := by
  split_ifs
  · exact hp
  · exact hq

/-- A step that leaves the unfinished files alone. -/
theorem steady_act {effect : State → Answer → State} {result : State → Answer → α}
    (h : ∀ s a, (effect s a).staging = s.staging) : Steady left (.act effect result) := by
  refine Watch.act stable_unfinished (fun _ => stable_unfinished) fun s hs =>
    ⟨hs.fit _, fun a => ?_⟩
  exact stable_unfinished s (effect s a) (h s a) hs

theorem watch_openStaging (file : File) :
    Watches left (Unfinished left) (openStaging file) fun ok s =>
      if ok = true then Writing left file s else Unfinished left s := by
  refine Watch.act stable_unfinished ?_ fun s hs => ⟨hs.fit _, fun a => ?_⟩
  · intro ok
    cases ok
    · exact stable_unfinished
    · exact stable_writing file
  · by_cases hopen : (a.ok && (s.staging file).isNone) = true
    · rw [if_pos hopen, if_pos hopen]
      have hnone : (s.staging file).isSome = false := by
        rw [Bool.and_eq_true, Option.isNone_iff_eq_none] at hopen
        rw [hopen.2]
        rfl
      refine ⟨(hs file).symm.trans hnone, ?_, fun other hother => ?_⟩
      · simp only [Function.update_self, Option.isSome_some]
      · simp only [Function.update_of_ne hother]
        exact hs other
    · rw [if_neg hopen, if_neg hopen]
      exact hs

theorem watch_fill (file : File) (data : Bytes) :
    Watches left (Writing left file) (fill file data) fun _ => Writing left file := by
  refine Watch.act (stable_writing file) (fun _ => stable_writing file) fun s hs =>
    ⟨hs.fit (fill_ne_open file data), fun a => ⟨hs.fresh, ?_, fun other hother => ?_⟩⟩
  · simp only [Function.update_self, Option.isSome_some]
  · simp only [Function.update_of_ne hother]
    exact hs.others other hother

/-- What is left when the file that is being written is gone. -/
theorem Writing.gone {file : File} {s t : State} (h : Writing left file s)
    (ht : t.staging = Function.update s.staging file none) : Unfinished left t := by
  intro other
  rw [ht]
  by_cases hother : other = file
  · rw [hother, Function.update_self, h.fresh]
    rfl
  · rw [Function.update_of_ne hother]
    exact h.others other hother

theorem watch_rename (file : File) :
    Watches left (Writing left file) (rename file) fun ok s =>
      if ok = true then Unfinished left s else Writing left file s := by
  refine Watch.act (stable_writing file) ?_ fun s hs => ⟨hs.fit fun other => ?_, fun a => ?_⟩
  · intro ok
    cases ok
    · exact stable_writing file
    · exact stable_unfinished
  · refine ne_open other fun a => ?_
    cases hok : a.ok
    · rfl
    · simp only [installed, if_true, Function.update_apply, ite_self]
  · by_cases hok : a.ok = true
    · rw [if_pos hok, if_pos hok]
      exact hs.gone rfl
    · rw [if_neg hok, if_neg hok]
      exact hs

theorem unlink_ne_open (file other : File) :
    (fun (s : State) (_ : Answer) => { s with staging := Function.update s.staging file none }) ≠
      openEffect other := by
  refine ne_open other fun a => ?_
  simp only [installed, Function.update_apply, ite_self]

theorem watch_unlink (file : File) :
    Watches left (Writing left file) (unlink file) fun _ => Unfinished left :=
  Watch.act (stable_writing file) (fun _ => stable_unfinished) fun _ hs =>
    ⟨hs.fit (unlink_ne_open file), fun _ => hs.gone rfl⟩

theorem steady_ask : Steady left ask := steady_act fun _ _ => rfl

theorem steady_look : Steady left look := steady_act fun _ _ => rfl

theorem steady_assign (f : Memory → Memory) : Steady left (assign f) := steady_act fun _ _ => rfl

theorem steady_atomicWrite (file : File) (data : Bytes) : Steady left (atomicWrite file data) := by
  refine Watch.bind apart_rely (watch_openStaging file) fun opened => ?_
  cases opened
  · exact steady_pure false
  · refine Watch.bind (Q := fun ok s =>
      if ok = true then Unfinished left s else Writing left file s) apart_rely ?_ fun renamed => ?_
    · refine Watch.bind apart_rely (watch_fill file data) fun filled => ?_
      cases filled
      · exact Watch.pure (stable_writing file) fun s hs => hs
      · exact watch_rename file
    · cases renamed
      · exact Watch.bind apart_rely (watch_unlink file) fun _ => steady_pure false
      · exact steady_ask.bind fun directory => Steady.ite steady_ask (steady_pure false)

theorem steady_saveState (next : Status) : Steady left (saveState next) :=
  steady_look.bind fun _ => (steady_atomicWrite _ _).bind fun _ =>
    Steady.ite ((steady_assign _).bind fun _ => steady_pure _)
      ((steady_assign _).bind fun _ => steady_pure _)

theorem steady_fork (recover : Bool) : Steady left (fork recover) := by
  refine steady_act fun s a => ?_
  split_ifs <;> rfl

theorem steady_release (recover : Bool) : Steady left (release recover) := by
  refine steady_act fun s a => ?_
  split_ifs <;> rfl

theorem steady_launch (recover : Bool) : Steady left (launch recover) := by
  refine steady_ask.bind fun _ => Steady.ite ?_ (steady_pure _)
  refine (steady_saveState _).bind fun _ => Steady.ite ?_ (steady_pure _)
  refine steady_ask.bind fun _ => Steady.ite ?_ (steady_pure _)
  refine (steady_fork recover).bind fun forked => ?_
  cases forked with
  | none => exact steady_pure _
  | some pid =>
    refine Steady.bind (steady_act fun _ _ => rfl) fun ticks => steady_look.bind fun mem =>
      Steady.bind ?_ fun released => Steady.ite (steady_pure _)
        (Steady.bind (steady_act fun _ _ => rfl) fun _ => steady_pure _)
    exact Steady.ite (steady_pure _) ((steady_saveState _).bind fun _ =>
      Steady.ite (steady_release recover) (steady_pure _))

theorem steady_launchOrFail (recover : Bool) : Steady left (launchOrFail recover) :=
  (steady_launch recover).bind fun _ => Steady.ite (steady_pure _)
    ((steady_saveState _).bind fun _ => steady_pure _)

theorem steady_reap : Steady left reap := by
  refine steady_look.bind fun mem => Steady.ite (steady_pure _) ?_
  refine Steady.bind (steady_act fun _ _ => rfl) fun waited => ?_
  cases waited with
  | none => exact steady_pure _
  | some code =>
    refine (steady_assign _).bind fun _ => Steady.ite ?_ ?_
    · exact (steady_assign _).bind fun _ => (steady_saveState _).bind fun _ => steady_pure _
    · exact (steady_assign _).bind fun _ => steady_launchOrFail true

theorem steady_replyStatus : Steady left replyStatus := steady_look.bind fun _ => steady_pure _

theorem steady_handleStart : Steady left handleStart := by
  refine steady_look.bind fun mem => Steady.ite (steady_pure _) ?_
  refine (steady_launch false).bind fun _ => Steady.ite steady_replyStatus ?_
  exact (steady_assign _).bind fun _ => (steady_saveState _).bind fun _ => steady_pure _

theorem steady_handleStop : Steady left handleStop := by
  refine steady_look.bind fun mem => Steady.ite (Steady.ite ?_ steady_replyStatus)
    (Steady.ite ?_ steady_replyStatus)
  · exact (steady_saveState _).bind fun _ => Steady.ite steady_replyStatus (steady_pure _)
  · exact (steady_launchOrFail true).bind fun _ => steady_replyStatus

theorem steady_handleHome (url : Bytes) : Steady left (handleHome url) := by
  refine steady_look.bind fun mem => Steady.ite (steady_pure _) (Steady.ite (steady_pure _) ?_)
  refine steady_ask.bind fun _ => Steady.ite ?_ (steady_pure _)
  exact (steady_atomicWrite _ _).bind fun _ => Steady.ite (steady_pure _) (steady_pure _)

theorem steady_client : Steady left client := by
  refine steady_ask.bind fun _ => Steady.ite ?_ (steady_pure _)
  refine Steady.bind (steady_act fun _ _ => rfl) fun input => Steady.ite ?_ (steady_pure _)
  unfold handle
  exact Steady.ite steady_replyStatus (Steady.ite steady_handleStart
    (Steady.ite steady_handleStop (Steady.ite (steady_handleHome _) (steady_pure _))))

theorem steady_noteReady : Steady left noteReady := by
  refine steady_look.bind fun mem => Steady.ite ?_ (steady_pure _)
  refine Steady.bind (steady_act fun _ _ => rfl) fun _ => Steady.ite ?_ (steady_pure _)
  exact (steady_saveState _).bind fun _ => steady_pure _

theorem steady_turn : Steady left turn := by
  refine steady_ask.bind fun _ => Steady.ite (steady_pure _) ?_
  refine steady_reap.bind fun _ => steady_noteReady.bind fun _ => steady_ask.bind fun _ => ?_
  exact Steady.ite (steady_client.bind fun _ => steady_pure _) (steady_pure _)

theorem steady_close : Steady left close := by
  refine steady_look.bind fun mem => Steady.ite (steady_pure _) ?_
  exact steady_reap.bind fun _ => steady_ask.bind fun _ =>
    Steady.ite (steady_pure _) (steady_pure _)

/-- `boot` behind the place where an unfinished journal is taken away. -/
def bootBehind : Program Place := do
  let (previous, unread) ← readJournal
  if (← lockFound unread) || (previous ≠ [] && previous ≠ Status.idle.word) then
    launchOrFail true
    pure .serving
  else if ← saveState .idle then pure .serving
  else pure .booting

theorem steady_bootBehind : Steady left bootBehind := by
  refine Steady.bind (steady_act fun _ _ => rfl) fun (previous, unread) => ?_
  refine Steady.bind (steady_act fun _ _ => rfl) fun found => Steady.ite ?_ ?_
  · exact (steady_launchOrFail true).bind fun _ => steady_pure _
  · exact (steady_saveState _).bind fun _ => Steady.ite (steady_pure _) (steady_pure _)

end

/-! ### Kills -/

/-- The daemon has been killed over an unfinished home page. -/
def HomeCut (events : List (Event Answer World)) : Prop :=
  ∃ front, front ++ [.crash] <+: events ∧ (history front).state.staging .homeUrl ≠ none

/-- Wherever the daemon has looked for an unfinished journal, its calls have succeeded. -/
def JournalChecked (events : List (Event Answer World)) : Prop :=
  ∀ front a, front ++ [.go a] <+: events →
    ∀ k : Unit → Program Place, (history front).prog = (discardStaging >>= k) → a.ok = true

/-- Where the daemon is: in front of the place where an unfinished journal is taken away, or in a
program that leaves the unfinished files as they are. -/
inductive Known (home checked : Prop) : Config State Answer Place → Prop
  | booting (s : State) (hs : (s.staging .homeUrl).isSome = true ↔ home) :
    Known home checked { place := .booting, prog := boot, state := s }
  | refusing (s : State) (hs : (s.staging .homeUrl).isSome = true ↔ home) :
    Known home checked { place := .booting, prog := pure .booting, state := s }
  | checking (s : State) (hs : (s.staging .homeUrl).isSome = true ↔ home) :
    Known home checked
      { place := .booting, prog := discardStaging >>= fun _ => bootBehind, state := s }
  | discarding (s : State) (hs : (s.staging .homeUrl).isSome = true ↔ home) :
    Known home checked
      { place := .booting, prog := unlink .journal >>= fun _ => bootBehind, state := s }
  | serving (left : File → Bool) (c : Config State Answer Place)
    (hhome : left .homeUrl = true ↔ home) (hjournal : checked → left .journal = false)
    (hprog : Watched Apart (Fit left) (fun _ => Unfinished left) c.prog c.state) :
    Known home checked c

theorem Known.of_unfinished {home checked : Prop} {p : Program Place} (place : Place) (s : State)
    (hp : ∀ left, Steady left p) (hhome : (s.staging .homeUrl).isSome = true ↔ home)
    (hjournal : checked → s.staging .journal = none) :
    Known home checked { place, prog := p, state := s } := by
  refine .serving (fun file => (s.staging file).isSome) _ hhome (fun h => ?_)
    (hp _ s fun file => rfl)
  rw [hjournal h]
  rfl

theorem Known.mono {home checked checked' : Prop} (h : checked' → checked)
    {c : Config State Answer Place} (hc : Known home checked c) : Known home checked' c := by
  cases hc with
  | booting s hs => exact .booting s hs
  | refusing s hs => exact .refusing s hs
  | checking s hs => exact .checking s hs
  | discarding s hs => exact .discarding s hs
  | serving left c hhome hjournal hprog =>
    exact .serving left c hhome (fun hc => hjournal (h hc)) hprog

/-- What is known of a home page is not forgotten before a kill. -/
theorem Known.home {home checked : Prop} {c : Config State Answer Place}
    (hc : Known home checked c) (hhome : home) : (c.state.staging .homeUrl).isSome = true := by
  cases hc with
  | booting s hs => exact hs.mpr hhome
  | refusing s hs => exact hs.mpr hhome
  | checking s hs => exact hs.mpr hhome
  | discarding s hs => exact hs.mpr hhome
  | serving left c hleft hjournal hprog =>
    have hleft := hleft.mpr hhome
    cases hp : c.prog with
    | done place =>
      rw [hp] at hprog
      exact (hprog c.state rfl .homeUrl).trans hleft
    | step effect next =>
      rw [hp] at hprog
      exact (hprog c.state rfl).1.1 .homeUrl hleft

theorem steady_program (left : File → Bool) {place : Place} (h : place ≠ .booting) :
    Steady left (daemon.program place) := by
  cases place with
  | booting => exact absurd rfl h
  | serving => exact steady_turn
  | closing => exact steady_close

theorem step_booting (s : State) (a : Answer) :
    daemon.step { place := .booting, prog := boot, state := s } (.go a) =
      { place := .booting
        prog := if a.ok = true then discardStaging >>= fun _ => bootBehind else pure .booting
        state := s } := rfl

theorem step_checking (s : State) (a : Answer) :
    daemon.step
        { place := .booting, prog := discardStaging >>= fun _ => bootBehind, state := s } (.go a) =
      { place := .booting
        prog := (if a.ok = true then unlink .journal else pure ()) >>= fun _ => bootBehind
        state := s } := rfl

theorem step_discarding (s : State) (a : Answer) :
    daemon.step
        { place := .booting, prog := unlink .journal >>= fun _ => bootBehind, state := s } (.go a) =
      { place := .booting
        prog := bootBehind
        state := { s with staging := Function.update s.staging .journal none } } := rfl

/-- A step of the daemon. -/
theorem Known.go {home checked : Prop} {c : Config State Answer Place} (hc : Known home checked c)
    (a : Answer) (hchecked : checked → ∀ k : Unit → Program Place,
      c.prog = (discardStaging >>= k) → a.ok = true) :
    Known home checked (daemon.step c (.go a)) := by
  cases hc with
  | booting s hs =>
    rw [step_booting]
    split_ifs
    · exact .checking s hs
    · exact .refusing s hs
  | refusing s hs => exact .booting s.restart hs
  | checking s hs =>
    rw [step_checking]
    split_ifs with hok
    · exact .discarding s hs
    · refine Known.of_unfinished .booting s (fun _ => steady_bootBehind) hs fun h => ?_
      exact absurd (hchecked h _ rfl) hok
  | discarding s hs =>
    rw [step_discarding]
    refine Known.of_unfinished .booting _ (fun _ => steady_bootBehind) ?_ fun _ => ?_
    · have hother : File.homeUrl ≠ .journal := by decide
      simpa only [Function.update_of_ne hother] using hs
    · show Function.update s.staging .journal none .journal = none
      rw [Function.update_self]
  | serving left c hhome hjournal hprog =>
    cases hp : c.prog with
    | done place =>
      rw [hp] at hprog
      have hleft : Unfinished left c.state := hprog c.state rfl
      rw [Machine.step, hp]
      by_cases hplace : place = .booting
      · subst hplace
        refine .booting _ ?_
        rw [← hhome, ← hleft .homeUrl]
        rfl
      · refine .serving left _ hhome hjournal (steady_program left hplace _ ?_)
        simpa only [daemon, if_neg hplace] using hleft
    | step effect next =>
      rw [hp] at hprog
      rw [Machine.step, hp]
      exact .serving left _ hhome hjournal ((hprog c.state rfl).2 a)

/-- The world beside the daemon does not come near its files. -/
theorem Known.world {home checked : Prop} {c : Config State Answer Place}
    (hc : Known home checked c) (e : World) : Known home checked (daemon.step c (.world e)) := by
  have hstaging (s : State) : (World.happen e s).staging = s.staging := (happen_beside e s).staging
  have hhome {s : State} (hs : (s.staging .homeUrl).isSome = true ↔ home) :
      ((World.happen e s).staging .homeUrl).isSome = true ↔ home := by
    rw [hstaging]
    exact hs
  cases hc with
  | booting s hs => exact .booting _ (hhome hs)
  | refusing s hs => exact .refusing _ (hhome hs)
  | checking s hs => exact .checking _ (hhome hs)
  | discarding s hs => exact .discarding _ (hhome hs)
  | serving left c hleft hjournal hprog =>
    exact .serving left _ hleft hjournal (hprog.rely apart_rely (hstaging c.state))

theorem prefix_concat {front events : List (Event Answer World)} {e event : Event Answer World} :
    front ++ [e] <+: events ++ [event] ↔
      (front = events ∧ e = event) ∨ front ++ [e] <+: events := by
  rw [List.prefix_concat_iff, ← List.concat_eq_append, ← List.concat_eq_append, List.concat_inj]

theorem history_concat (events : List (Event Answer World)) (event : Event Answer World) :
    history (events ++ [event]) = daemon.step (history events) event := by
  rw [history, Machine.run, List.foldl_append]
  rfl

theorem homeCut_concat {events : List (Event Answer World)} {event : Event Answer World} :
    HomeCut (events ++ [event]) ↔
      HomeCut events ∨ (event = .crash ∧ (history events).state.staging .homeUrl ≠ none) := by
  constructor
  · rintro ⟨front, hfront, hleft⟩
    rcases prefix_concat.mp hfront with ⟨rfl, rfl⟩ | hfront
    · exact .inr ⟨rfl, hleft⟩
    · exact .inl ⟨front, hfront, hleft⟩
  · rintro (⟨front, hfront, hleft⟩ | ⟨rfl, hleft⟩)
    · exact ⟨front, prefix_concat.mpr (.inr hfront), hleft⟩
    · exact ⟨events, prefix_concat.mpr (.inl ⟨rfl, rfl⟩), hleft⟩

theorem JournalChecked.concat {events : List (Event Answer World)} {event : Event Answer World}
    (h : JournalChecked (events ++ [event])) : JournalChecked events :=
  fun front a hfront => h front a (prefix_concat.mpr (.inr hfront))

theorem JournalChecked.last {events : List (Event Answer World)} {a : Answer}
    (h : JournalChecked (events ++ [.go a])) (k : Unit → Program Place)
    (hk : (history events).prog = (discardStaging >>= k)) : a.ok = true :=
  h events a (prefix_concat.mpr (.inl ⟨rfl, rfl⟩)) k hk

/-- What is known of the daemon in every run. -/
theorem known_history (events : List (Event Answer World)) :
    Known (HomeCut events) (JournalChecked events) (history events) := by
  induction events using List.reverseRecOn with
  | nil =>
    refine .booting installed ?_
    refine iff_of_false (by decide) ?_
    rintro ⟨front, hfront, -⟩
    exact absurd (List.prefix_nil.mp hfront) (List.append_ne_nil_of_right_ne_nil _ (by decide))
  | append_singleton events event ih =>
    have hmono : Known (HomeCut events) (JournalChecked (events ++ [event])) (history events) :=
      ih.mono JournalChecked.concat
    rw [history_concat]
    have hsame (hevent : event ≠ .crash) : HomeCut (events ++ [event]) ↔ HomeCut events := by
      rw [homeCut_concat, or_iff_left fun h => hevent h.1]
    cases event with
    | go a =>
      rw [hsame (by simp)]
      exact hmono.go a fun hchecked => hchecked.last
    | world e =>
      rw [hsame (by simp)]
      exact hmono.world e
    | crash =>
      -- a home page that was left unfinished before is unfinished still
      refine .booting _ ?_
      rw [homeCut_concat, and_iff_right rfl, ← Option.isSome_iff_ne_none]
      exact ⟨.inr, fun h => h.elim ih.home id⟩

/-! ### A write -/

/-- A write does what it is to do when its system calls succeed. -/
def Succeeds (file : File) (data : Bytes) (s : State) : Prop :=
  ∀ answers : List Answer, answers.length = 5 → (∀ a ∈ answers, a.ok = true) →
    ∃ t, (atomicWrite file data).steps s answers = (.done true, t) ∧ t.files file = some data

/-- Where an unfinished file is left, a write ends at `open`. -/
theorem steps_left {file : File} {s : State} (h : s.staging file ≠ none) (data : Bytes) (a : Answer)
    (answers : List Answer) :
    (atomicWrite file data).steps s (a :: answers) = (.done false, s) := by
  have hsome : (s.staging file).isNone = false := by
    rw [Option.isNone_eq_false_iff, Option.isSome_iff_ne_none]
    exact h
  simp only [atomicWrite, openStaging, Prog.act_bind, Prog.steps, hsome, Bool.and_false,
    Bool.false_eq_true, if_false]
  rfl

/-- `atomic_write` behind `open`. -/
def writeBehind (file : File) (data : Bytes) : Program Bool := do
  if ← (do if ← fill file data then rename file else pure false) then
    if ← ask then ask else pure false
  else
    unlink file
    pure false

theorem steps_fresh {file : File} {s : State} (h : s.staging file = none) (data : Bytes)
    {a : Answer} (ha : a.ok = true) (answers : List Answer) :
    (atomicWrite file data).steps s (a :: answers) =
      (writeBehind file data).steps
        { s with staging := Function.update s.staging file (some []) } answers := by
  simp only [atomicWrite, openStaging, Prog.act_bind, Prog.steps, ha, h, Option.isNone_none,
    Bool.and_self, if_true]
  rfl

theorem steps_refused (file : File) (s : State) (data : Bytes) {a : Answer} (ha : a.ok = false)
    (answers : List Answer) :
    (atomicWrite file data).steps s (a :: answers) = (.done false, s) := by
  simp only [atomicWrite, openStaging, Prog.act_bind, Prog.steps, ha, Bool.false_and,
    Bool.false_eq_true, if_false]
  rfl

theorem steps_writeBehind (file : File) (data : Bytes) (s : State) {b c : Answer} (hb : b.ok = true)
    (hc : c.ok = true) (answers : List Answer) :
    (writeBehind file data).steps s (b :: c :: answers) =
      (do if ← ask then ask else pure false : Program Bool).steps
        { s with
          files := Function.update s.files file (some data)
          staging := Function.update (Function.update s.staging file (some data)) file none }
        answers := by
  simp only [writeBehind, fill, rename, Prog.act_bind, Prog.step_bind, Prog.steps, hb, hc, if_true,
    Function.update_self]

theorem steps_ask (s : State) (a : Answer) (answers : List Answer) :
    ask.steps s (a :: answers) = (.done a.ok, s) := rfl

theorem steps_sync (s : State) {d : Answer} (hd : d.ok = true) (answers : List Answer) :
    (do if ← ask then ask else pure false : Program Bool).steps s (d :: answers) =
      ask.steps s answers := by
  simp only [ask, Prog.act_bind, Prog.steps, hd, if_true]

theorem succeeds_iff (file : File) (data : Bytes) (s : State) :
    Succeeds file data s ↔ s.staging file = none := by
  constructor
  · intro h
    by_contra hleft
    obtain ⟨t, hsteps, -⟩ := h (List.replicate 5 { ok := true, number := 0, text := [] })
      (by decide) (by decide)
    rw [List.replicate_succ, steps_left hleft] at hsteps
    cases hsteps
  · intro h answers hlength hok
    obtain ⟨a, b, c, d, e, rfl⟩ : ∃ a b c d e, answers = [a, b, c, d, e] := by
      rcases answers with _ | ⟨a, _ | ⟨b, _ | ⟨c, _ | ⟨d, _ | ⟨e, _ | ⟨f, answers⟩⟩⟩⟩⟩⟩
      all_goals first | exact ⟨_, _, _, _, _, rfl⟩ | (simp at hlength)
    simp only [List.forall_mem_cons] at hok
    obtain ⟨ha, hb, hc, hd, he, -⟩ := hok
    rw [steps_fresh h data ha, steps_writeBehind _ _ _ hb hc, steps_sync _ hd, steps_ask, he]
    exact ⟨_, rfl, Function.update_self file _ _⟩

/-- Giving up does not touch the file. -/
theorem files_giveUp (file : File) (s : State) (answers : List Answer) :
    ((unlink file >>= fun _ => pure false : Program Bool).steps s answers).2.files = s.files := by
  cases answers <;> rfl

/-- Bringing the directory to the disk does not touch the file. -/
theorem files_sync (s : State) (answers : List Answer) :
    ((do if ← ask then ask else pure false : Program Bool).steps s answers).2.files = s.files := by
  rcases answers with _ | ⟨d, answers⟩
  · rfl
  · cases hd : d.ok
    · simp only [ask, Prog.act_bind, Prog.steps, hd, Bool.false_eq_true, if_false]
      rfl
    · rw [steps_sync s hd]
      cases answers <;> rfl

/-- Wherever a write is interrupted, the file has its old or its new content. -/
theorem files_steps (file : File) (data : Bytes) (s : State) (answers : List Answer) :
    ((atomicWrite file data).steps s answers).2.files file = s.files file ∨
      ((atomicWrite file data).steps s answers).2.files file = some data := by
  rcases answers with _ | ⟨a, answers⟩
  · exact .inl rfl
  by_cases hleft : s.staging file = none
  · cases ha : a.ok
    · rw [steps_refused file s data ha]
      exact .inl rfl
    · rw [steps_fresh hleft data ha]
      rcases answers with _ | ⟨b, answers⟩
      · exact .inl rfl
      cases hb : b.ok
      · left
        simp only [writeBehind, fill, Prog.act_bind, Prog.step_bind, Prog.pure_bind, Prog.steps, hb,
          Bool.false_eq_true, if_false, files_giveUp]
      · rcases answers with _ | ⟨c, answers⟩
        · simp only [writeBehind, fill, rename, Prog.act_bind, Prog.step_bind, Prog.steps, hb,
            if_true]
          exact .inl trivial
        cases hc : c.ok
        · left
          simp only [writeBehind, fill, rename, Prog.act_bind, Prog.step_bind, Prog.steps, hb, hc,
            if_true, Bool.false_eq_true, if_false, files_giveUp]
        · right
          rw [steps_writeBehind _ _ _ hb hc, files_sync]
          exact Function.update_self ..
  · rw [steps_left hleft]
    exact .inl rfl

/-! ### Writes in a run -/

theorem write_eq_step (file : File) (data : Bytes) (k : Bool → Program Place) :
    ∃ next, (atomicWrite file data >>= k) = .step (openEffect file) next := ⟨_, rfl⟩

/-- Where a write begins, it is known which unfinished files there are. -/
theorem Known.unfinished {home checked : Prop} {c : Config State Answer Place}
    (hc : Known home checked c) {file : File} {data : Bytes} {k : Bool → Program Place}
    (hwrite : c.prog = (atomicWrite file data >>= k)) :
    ∃ left : File → Bool, (left .homeUrl = true ↔ home) ∧ (checked → left .journal = false) ∧
      Unfinished left c.state := by
  obtain ⟨next, hstep⟩ := write_eq_step file data k
  rw [hstep] at hwrite
  have hidle : (fun (s : State) (_ : Answer) => s) ≠ openEffect file := ne_open file fun _ => rfl
  cases hc with
  | booting s hs => exact absurd (Prog.step.inj hwrite).1 hidle
  | refusing s hs => cases hwrite
  | checking s hs => exact absurd (Prog.step.inj hwrite).1 hidle
  | discarding s hs => exact absurd (Prog.step.inj hwrite).1 (unlink_ne_open .journal file)
  | serving left c hhome hjournal hprog =>
    rw [hwrite] at hprog
    exact ⟨left, hhome, hjournal, (hprog c.state rfl).1.2 file rfl⟩

/-- Wherever the daemon is killed in a write, the file has its old or its new content. A write of
the journal succeeds when its system calls do, as long as those have that look for an unfinished
one; a write of the home page does exactly if the daemon has never been killed over an unfinished
one. -/
theorem write_after_kills (events : List (Event Answer World)) {file : File} {data : Bytes}
    {k : Bool → Program Place} (hwrite : (history events).prog = (atomicWrite file data >>= k)) :
    (∀ answers, let killed := ((atomicWrite file data).steps (history events).state answers).2
      killed.restart.files file = (history events).state.files file ∨
        killed.restart.files file = some data) ∧
    (file = .journal → JournalChecked events → Succeeds file data (history events).state) ∧
    (file = .homeUrl → (Succeeds file data (history events).state ↔ ¬HomeCut events)) := by
  obtain ⟨left, hhome, hjournal, hleft⟩ := (known_history events).unfinished hwrite
  refine ⟨files_steps file data (history events).state, ?_, ?_⟩
  · rintro rfl hchecked
    have hnone := hleft .journal
    rw [hjournal hchecked, Option.isSome_eq_false_iff, Option.isNone_iff_eq_none] at hnone
    exact (succeeds_iff _ data _).mpr hnone
  · rintro rfl
    rw [succeeds_iff, ← hhome, ← hleft .homeUrl, Option.isSome_iff_ne_none, not_not]

/-- The daemon is killed over an unfinished journal, and starts again up to where it is written. -/
def journalCut : List (Event Answer World) :=
  List.replicate 8 (yes []) ++ .crash :: List.replicate 6 (yes [])

theorem write_after_kills_journal :
    Succeeds .journal (stateLine .idle 0 0 0) (history journalCut).state := by
  have hprog : (history journalCut).prog =
      ((atomicWrite .journal (stateLine .idle 0 0 0) >>= fun written =>
        if written then do
          assign fun mem => { mem with state := .idle }
          pure true
        else do
          assign fun mem => { mem with state := .failed }
          pure false) >>= fun saved => if saved then pure .serving else pure .booting) := rfl
  rw [Prog.bind_assoc] at hprog
  refine (write_after_kills journalCut hprog).2.1 rfl fun front a hfront _ _ => ?_
  have hmem : Event.go a ∈ journalCut := hfront.subset (List.mem_append_right _ List.mem_cons_self)
  have hyes : Event.go a = yes [] := by
    simpa [journalCut] using hmem
  rw [yes, Event.go.injEq] at hyes
  rw [hyes]

/-- The daemon starts, and a client asks for a home page up to the place where it is written. -/
def homeAsked : List (Event Answer World) :=
  List.replicate 13 (yes []) ++ no :: List.replicate 7 (yes (ascii "HOME http://a\n"))

/-- It is killed when the file has been opened, and asked again. -/
def homeAskedAgain : List (Event Answer World) := homeAsked ++ [yes [], .crash] ++ homeAsked

/-- After a kill over an unfinished home page, none is written although all system calls would
succeed. -/
theorem home_after_kill :
    ¬∀ (events : List (Event Answer World)) (file : File) (data : Bytes)
      (k : Bool → Program Place), (history events).prog = (atomicWrite file data >>= k) →
        Succeeds file data (history events).state := by
  intro h
  have hprog : (history homeAskedAgain).prog =
      ((atomicWrite .homeUrl (homeValue (ascii "http://a")) >>= fun written =>
        if written then pure (ascii "OK SAVED\n") else pure (ascii "ERR STATE_IO\n")) >>=
          fun _ => pure .serving) := rfl
  rw [Prog.bind_assoc] at hprog
  have hleft : (history homeAskedAgain).state.staging .homeUrl ≠ none := by decide
  exact hleft ((succeeds_iff _ _ _).mp (h homeAskedAgain .homeUrl _ _ hprog))

end ForgeOS.Native.Sessiond
