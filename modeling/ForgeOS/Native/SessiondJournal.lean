import ForgeOS.Native.Sessiond

/-! What the journal of the session daemon says of the system. Through crashes between any two
steps it says `IDLE` only where no session has been let go since the last recovery, as long as a
start-up that finds a journal can read it. -/

namespace ForgeOS.Native.Sessiond

open ForgeOS.Library.CrashHoare

/-! ### The invariant -/

/-- The journal holds a line with this status. -/
def Says (s : State) (status : Status) : Prop :=
  ∃ lastExit child ticks, s.files .journal = some (stateLine status lastExit child ticks)

/-- A recovery script that has ended well leaves a system without a session to recover. -/
def Recovered (s : State) : Prop :=
  ∀ proc, s.proc = some proc → proc.recovery = true → proc.exited = some 0 → s.dirty = false

/-- Nothing is to be recovered, as far as the journals that were there could be read. -/
def Clean (s : State) : Prop := s.misread = false → s.dirty = false

/-- Once the daemon is `up`, its memory is to be right too. -/
structure Inv (up : Bool) (s : State) : Prop where
  recovered : Recovered s
  child : ∀ pid, s.mem.child = some pid → s.proc.map Proc.recovery = some s.mem.recoveryChild
  journal : Clean s ∨ ∃ status, status ≠ .idle ∧ Says s status
  memory : up = true → s.mem.state = .idle → Clean s

/-- What the world may do: end the child, and thereby clean up. -/
structure Beside (s t : State) : Prop where
  files : t.files = s.files
  staging : t.staging = s.staging
  mem : t.mem = s.mem
  misread : t.misread = s.misread
  recovery : t.proc.map Proc.recovery = s.proc.map Proc.recovery
  dirty : s.dirty = false → t.dirty = false
  recovered : Recovered s → Recovered t

theorem Beside.clean {s t : State} (h : Beside s t) (hs : Clean s) : Clean t :=
  fun hmisread => h.dirty (hs (h.misread ▸ hmisread))

theorem Beside.reads {s t : State} (h : Beside s t) {status : Status} : Says t status ↔ Says s status := by
  rw [Says, Says, h.files]

theorem rely (up : Bool) : Rely Beside (Inv up) where
  refl s := ⟨rfl, rfl, rfl, rfl, rfl, id, id⟩
  trans h h' := ⟨h'.files.trans h.files, h'.staging.trans h.staging, h'.mem.trans h.mem,
    h'.misread.trans h.misread, h'.recovery.trans h.recovery, h'.dirty ∘ h.dirty,
    h'.recovered ∘ h.recovered⟩
  keeps := by
    intro s t h ⟨recovered, child, journal, memory⟩
    refine ⟨h.recovered recovered, ?_, ?_, ?_⟩
    · rw [h.mem, h.recovery]
      exact child
    · rcases journal with hclean | htold
      · exact .inl (h.clean hclean)
      · simpa only [h.reads] using Or.inr htold
    · intro hup hidle
      exact h.clean (memory hup (h.mem ▸ hidle))

theorem happen_beside (e : World) (s : State) : Beside s (e.happen s) := by
  cases e with
  | exit code =>
    cases hproc : s.proc with
    | none =>
      simp only [World.happen, hproc]
      exact (rely true).refl s
    | some proc =>
      simp only [World.happen, hproc]
      split_ifs
      · refine ⟨rfl, rfl, rfl, rfl, by rw [hproc]; rfl, ?_, ?_⟩
        · intro hclean
          simp only [hclean, Bool.false_and]
        · intro _ p hp hrecovery hexited
          cases hp
          cases hexited
          simp only at hrecovery
          simp only [hrecovery, decide_true, Bool.and_true, Bool.not_true, Bool.and_false]
      · exact (rely true).refl s
  | lock present => exact ⟨rfl, rfl, rfl, rfl, rfl, id, id⟩
  | ready present => exact ⟨rfl, rfl, rfl, rfl, rfl, id, id⟩

/-- A triple about the daemon. -/
abbrev Spec (up : Bool) {α : Type} (P : State → Prop) (p : Program α) (Q : α → State → Prop) : Prop :=
  Triple Beside (Inv up) P p Q

section

variable {up : Bool} {α β : Type} {P P' F : State → Prop} {Q : α → State → Prop}

theorem Spec.bind {p : Program α} {k : α → Program β} {Q' : β → State → Prop} (h : Spec up P p Q)
    (hk : ∀ a, Spec up (Q a) (k a) Q') : Spec up P (p >>= k) Q' :=
  Triple.bind (rely up) h hk

theorem Spec.pure {a : α} (hP : Stable Beside P) (h : ∀ s, Inv up s → P s → Q a s) :
    Spec up P (pure a) Q :=
  Triple.pure (rely up) hP h

theorem Spec.ite {c : Bool} {p q : Program α} (hp : c = true → Spec up P p Q)
    (hq : c = false → Spec up P q Q) : Spec up P (if c = true then p else q) Q := by
  cases c with
  | true => exact hp rfl
  | false => exact hq rfl

/-- A step that only looks. -/
theorem spec_read {f : State → Answer → α} (hP : Stable Beside P) (hQ : ∀ a, Stable Beside (Q a))
    (h : ∀ s i, Inv up s → P s → Q (f s i) s) : Spec up P (.act (fun s _ => s) f) Q :=
  Triple.act (rely up) hP hQ fun s i hs hPs => ⟨hs, h s i hs hPs⟩

theorem spec_ask (hP : Stable Beside P) : Spec up P ask fun _ => P :=
  spec_read hP (fun _ => hP) fun _ _ _ h => h

theorem stable_mem (m : Memory) : Stable Beside fun s => s.mem = m := fun _ _ h hs => h.mem.trans hs

theorem Stable.and (hP : Stable Beside P) (hP' : Stable Beside P') :
    Stable Beside fun s => P s ∧ P' s :=
  fun s t h hs => ⟨hP s t h hs.1, hP' s t h hs.2⟩

theorem Stable.imp (p : Prop) (hP : Stable Beside P) : Stable Beside fun s => p → P s :=
  fun s t h hs hp => hP s t h (hs hp)

theorem stable_clean : Stable Beside Clean := fun _ _ h hs => h.clean hs

theorem stable_status (status : Status) : Stable Beside fun s => Says s status :=
  fun _ _ h hs => h.reads.mpr hs

theorem stable_true : Stable Beside fun _ => True := fun _ _ _ _ => trivial

theorem spec_look (hP : Stable Beside P) : Spec up P look fun m s => s.mem = m ∧ P s :=
  spec_read hP (fun m => Stable.and (stable_mem m) hP) fun _ _ _ h => ⟨rfl, h⟩

/-! ### Files -/

/-- A condition that is about the memory and the two marks only. -/
structure Framed (F : State → Prop) : Prop where
  stable : Stable Beside F
  disk : ∀ {s t}, F s → t.mem = s.mem → t.dirty = s.dirty → t.misread = s.misread → F t

theorem Inv.of_disk {s t : State} (h : Inv up s) (hproc : t.proc = s.proc) (hmem : t.mem = s.mem)
    (hdirty : t.dirty = s.dirty) (hmisread : t.misread = s.misread)
    (hfiles : t.files .journal = s.files .journal) : Inv up t := by
  obtain ⟨recovered, child, journal, memory⟩ := h
  have hclean : Clean s → Clean t := by
    rw [Clean, Clean, hdirty, hmisread]
    exact id
  have htold : ∀ status, Says t status ↔ Says s status := by
    intro status
    rw [Says, Says, hfiles]
  refine ⟨?_, ?_, ?_, ?_⟩
  · rw [Recovered, hproc, hdirty]
    exact recovered
  · rw [hmem, hproc]
    exact child
  · rcases journal with h | h
    · exact .inl (hclean h)
    · simpa only [htold] using Or.inr h
  · intro hup hidle
    exact hclean (memory hup (hmem ▸ hidle))

/-- What is to be in the staging file when it is renamed. -/
def Staged (file : File) (data : Bytes) (s : State) : Prop := s.staging file = some data

theorem stable_staged (file : File) (data : Bytes) : Stable Beside (Staged file data) :=
  fun _ _ h hs => (congrFun h.staging file).trans hs

theorem spec_openStaging (file : File) (hF : Framed F) : Spec up F (openStaging file) fun _ => F := by
  refine Triple.act (rely up) hF.stable (fun _ => hF.stable) fun s i hs hFs => ?_
  split_ifs
  · exact ⟨hs.of_disk rfl rfl rfl rfl rfl, hF.disk hFs rfl rfl rfl⟩
  · exact ⟨hs, hFs⟩

theorem spec_fill (file : File) (data : Bytes) (hF : Framed F) :
    Spec up F (fill file data) fun ok s => (ok = true → Staged file data s) ∧ F s := by
  refine Triple.act (rely up) hF.stable
    (fun ok => Stable.and (Stable.imp _ (stable_staged file data)) hF.stable) fun s i hs hFs => ?_
  refine ⟨hs.of_disk rfl rfl rfl rfl rfl, ?_, hF.disk hFs rfl rfl rfl⟩
  intro hok
  simp only [Staged, Function.update_self, hok, if_true]

theorem spec_unlink (file : File) (hF : Framed F) : Spec up F (unlink file) fun _ => F :=
  Triple.act (rely up) hF.stable (fun _ => hF.stable) fun _ _ hs hFs =>
    ⟨hs.of_disk rfl rfl rfl rfl rfl, hF.disk hFs rfl rfl rfl⟩

/-- The journal may be told a status that is right. -/
theorem Inv.of_journal {s t : State} (h : Inv up s) {status : Status} (htold : Says t status)
    (hright : status = .idle → Clean s) (hproc : t.proc = s.proc) (hmem : t.mem = s.mem)
    (hdirty : t.dirty = s.dirty) (hmisread : t.misread = s.misread) : Inv up t := by
  obtain ⟨recovered, child, journal, memory⟩ := h
  have hclean : Clean s → Clean t := by
    rw [Clean, Clean, hdirty, hmisread]
    exact id
  refine ⟨?_, ?_, ?_, ?_⟩
  · rw [Recovered, hproc, hdirty]
    exact recovered
  · rw [hmem, hproc]
    exact child
  · by_cases hidle : status = .idle
    · exact .inl (hclean (hright hidle))
    · exact .inr ⟨status, hidle, htold⟩
  · intro hup hidle
    exact hclean (memory hup (hmem ▸ hidle))

/-- What replacing a file by some data gives. -/
structure Gives (up : Bool) (file : File) (data : Bytes) (F T : State → Prop) : Prop where
  framed : Framed F
  stable : Stable Beside T
  replaced : ∀ {s}, Inv up s → F s → ∀ staging,
    Inv up { s with files := Function.update s.files file (some data), staging } ∧
      T { s with files := Function.update s.files file (some data), staging }

theorem spec_rename {file : File} {data : Bytes} {T : State → Prop} (h : Gives up file data F T) :
    Spec up (fun s => Staged file data s ∧ F s) (rename file) fun ok s => (ok = true → T s) ∧ F s := by
  refine Triple.act (rely up) (Stable.and (stable_staged file data) h.framed.stable)
    (fun ok => Stable.and (Stable.imp _ h.stable) h.framed.stable) ?_
  rintro s i hs ⟨hstaged, hFs⟩
  split_ifs with hok
  · rw [show s.staging file = some data from hstaged]
    obtain ⟨hinv, hT⟩ := h.replaced hs hFs (Function.update s.staging file none)
    exact ⟨hinv, fun _ => hT, h.framed.disk hFs rfl rfl rfl⟩
  · exact ⟨hs, fun h => absurd h hok, hFs⟩

/-- Whatever becomes of the write, the frame is kept, and success means that it is done. -/
theorem spec_atomicWrite {file : File} {data : Bytes} {T : State → Prop}
    (h : Gives up file data F T) :
    Spec up F (atomicWrite file data) fun ok s => (ok = true → T s) ∧ F s := by
  have hF := h.framed
  have hfail : ∀ {P : State → Prop}, Stable Beside P → (∀ s, P s → F s) →
      Spec up P (Pure.pure false) fun (ok : Bool) s => (ok = true → T s) ∧ F s :=
    fun hP hPF => Spec.pure hP fun s _ hs => ⟨(fun h => nomatch h), hPF s hs⟩
  refine (spec_openStaging file hF).bind fun opened => Spec.ite (fun _ => ?_) fun _ =>
    hfail hF.stable fun _ => id
  refine Spec.bind (Q := fun ok s => (ok = true → T s) ∧ F s) ?_ fun renamed => ?_
  · refine (spec_fill file data hF).bind fun filled => Spec.ite ?_ fun _ => ?_
    · rintro rfl
      exact (spec_rename h).pre fun s _ hs => ⟨hs.1 rfl, hs.2⟩
    · exact hfail (Stable.and (Stable.imp _ (stable_staged file data)) hF.stable) fun s hs => hs.2
  · refine Spec.ite ?_ fun _ => ?_
    · rintro rfl
      have hT : Stable Beside fun s => T s ∧ F s := Stable.and h.stable hF.stable
      refine Spec.bind ((spec_ask hT).pre fun s _ hs => ⟨hs.1 rfl, hs.2⟩) fun directory =>
        Spec.ite (fun _ => ?_) fun _ => hfail hT fun s hs => hs.2
      exact (spec_ask hT).post fun _ s hs => ⟨fun _ => hs.1, hs.2⟩
    · refine Spec.bind ((spec_unlink file hF).pre fun s _ hs => hs.2) fun _ => ?_
      exact hfail hF.stable fun _ => id

/-! ### The status -/

/-- The child in the memory and what it is for. -/
def Memory.kin (m : Memory) : Option ℕ × Bool := (m.child, m.recoveryChild)

/-- The memory, the child in it, and what the status asks for. -/
def Right (m : Memory) (kin : Option ℕ × Bool) (status : Status) (s : State) : Prop :=
  s.mem = m ∧ m.kin = kin ∧ (status = .idle → Clean s)

theorem framed_right (m : Memory) (kin : Option ℕ × Bool) (status : Status) :
    Framed (Right m kin status) where
  stable s t h hs := ⟨h.mem.trans hs.1, hs.2.1, fun hidle => h.clean (hs.2.2 hidle)⟩
  disk := by
    rintro s t ⟨hm, hkin, hclean⟩ hmem hdirty hmisread
    refine ⟨hmem.trans hm, hkin, ?_⟩
    rw [Clean, hdirty, hmisread]
    exact hclean

theorem gives_journal (m : Memory) (kin : Option ℕ × Bool) (status : Status) :
    Gives up .journal (stateLine status m.lastExit (m.child.getD 0) m.childTicks)
      (Right m kin status) fun s => Says s status where
  framed := framed_right m kin status
  stable := stable_status status
  replaced := by
    rintro s hs ⟨-, -, hclean⟩ staging
    have htold : ∀ t : State, t.files = Function.update s.files .journal
        (some (stateLine status m.lastExit (m.child.getD 0) m.childTicks)) → Says t status := by
      intro t ht
      exact ⟨m.lastExit, m.child.getD 0, m.childTicks, by rw [ht, Function.update_self]⟩
    exact ⟨hs.of_journal (htold _ rfl) hclean rfl rfl rfl rfl, htold _ rfl⟩

/-- The memory may take on what is right. -/
theorem spec_assign {f : Memory → Memory} (hP : Stable Beside P) (hF : Stable Beside F)
    (hchild : ∀ m, (f m).child = none ∨ (f m).child = m.child ∧ (f m).recoveryChild = m.recoveryChild)
    (h : ∀ s, Inv up s → P s → F { s with mem := f s.mem } ∧
      (up = true → (f s.mem).state = .idle → Clean s)) : Spec up P (assign f) fun _ => F := by
  refine Triple.act (rely up) hP (fun _ => hF) fun s i hs hPs => ?_
  obtain ⟨hFs, hidle⟩ := h s hs hPs
  obtain ⟨recovered, child, journal, memory⟩ := hs
  refine ⟨⟨recovered, ?_, journal, hidle⟩, hFs⟩
  intro pid hpid
  rcases hchild s.mem with hnone | ⟨hsame, hrecovery⟩
  · cases hnone.symm.trans hpid
  · exact (child pid (hsame ▸ hpid)).trans (congrArg some hrecovery.symm)

/-- A status that has been saved is in the journal and in the memory; otherwise the memory says that
something has failed. -/
structure Saved (kin : Option ℕ × Bool) (next : Status) (ok : Bool) (s : State) : Prop where
  kin : s.mem.kin = kin
  clean : next = .idle → Clean s
  saved : ok = true → s.mem.state = next ∧ Says s next
  failed : ok = false → s.mem.state = .failed

theorem stable_saved (kin : Option ℕ × Bool) (next : Status) (ok : Bool) :
    Stable Beside (Saved kin next ok) := by
  intro s t h ⟨hkin, hclean, hsaved, hfailed⟩
  refine ⟨?_, fun hidle => h.clean (hclean hidle), ?_, ?_⟩
  · rw [h.mem]
    exact hkin
  · rw [h.mem, h.reads]
    exact hsaved
  · rw [h.mem]
    exact hfailed

/-- What a status needs before it is saved. -/
def Savable (kin : Option ℕ × Bool) (next : Status) (s : State) : Prop :=
  s.mem.kin = kin ∧ (next = .idle → Clean s)

theorem stable_savable (kin : Option ℕ × Bool) (next : Status) : Stable Beside (Savable kin next) :=
  fun _ _ h hs => ⟨by rw [h.mem]; exact hs.1, fun hidle => h.clean (hs.2 hidle)⟩

theorem spec_saveState (kin : Option ℕ × Bool) (next : Status) :
    Spec up (Savable kin next) (saveState next) (Saved kin next) := by
  refine (spec_look (stable_savable kin next)).bind fun m => ?_
  refine Spec.bind ((spec_atomicWrite (gives_journal m kin next)).pre ?_) fun written => ?_
  · rintro s - ⟨hm, hkin, hclean⟩
    exact ⟨hm, hm ▸ hkin, hclean⟩
  · have hstable : Stable Beside fun s => (written = true → Says s next) ∧ Right m kin next s :=
      Stable.and (Stable.imp _ (stable_status next)) (framed_right m kin next).stable
    refine Spec.ite ?_ ?_
    · rintro rfl
      refine Spec.bind (spec_assign (F := Saved kin next true) hstable (stable_saved _ _ _)
        (fun m => .inr ⟨rfl, rfl⟩) ?_) fun _ => Spec.pure (stable_saved _ _ _) fun _ _ hs => hs
      rintro s - ⟨htold, hm, hkin, hclean⟩
      exact ⟨⟨hm ▸ hkin, hclean, fun _ => ⟨rfl, htold rfl⟩, (fun h => nomatch h)⟩,
        fun _ => hclean⟩
    · rintro rfl
      refine Spec.bind (spec_assign (F := Saved kin next false) hstable (stable_saved _ _ _)
        (fun m => .inr ⟨rfl, rfl⟩) ?_) fun _ => Spec.pure (stable_saved _ _ _) fun _ _ hs => hs
      rintro s - ⟨-, hm, hkin, hclean⟩
      exact ⟨⟨hm ▸ hkin, hclean, (fun h => nomatch h), fun _ => rfl⟩, (fun _ h => nomatch h)⟩

/-! ### Launching a script -/

/-- The journal has been told of a script that is about to go. -/
def Told (s : State) : Prop := s.mem.state ≠ .idle ∧ Says s s.mem.state

theorem stable_told : Stable Beside Told := by
  rintro s t h ⟨hne, htold⟩
  rw [Told, h.mem, h.reads]
  exact ⟨hne, htold⟩

/-- The child at the gate is for this script. -/
def Forked (recover : Bool) (s : State) : Prop := s.proc.map Proc.recovery = some recover

theorem stable_forked (recover : Bool) : Stable Beside (Forked recover) :=
  fun _ _ h hs => h.recovery.trans hs

def Childless (s : State) : Prop := s.mem.child = none

theorem stable_childless : Stable Beside Childless :=
  fun s t h hs => by rw [Childless, h.mem]; exact hs

def Busy (s : State) : Prop := s.mem.state ≠ .idle

theorem stable_busy : Stable Beside Busy :=
  fun s t h hs => by rw [Busy, h.mem]; exact hs

/-- A script that has been let go, or no child. -/
def Launched (ok : Bool) (s : State) : Prop := if ok then Busy s else Childless s

theorem stable_launched (ok : Bool) : Stable Beside (Launched ok) := by
  intro s t h hs
  cases ok with
  | true => exact stable_busy s t h hs
  | false => exact stable_childless s t h hs

theorem spec_fork (recover : Bool) :
    Spec up (fun s => Told s ∧ Childless s) (fork recover) fun pid s =>
      (Told s ∧ Childless s) ∧ (pid.isSome = true → Forked recover s) := by
  have hP : Stable Beside fun s => Told s ∧ Childless s := Stable.and stable_told stable_childless
  refine Triple.act (rely up) hP
    (fun pid => Stable.and hP (Stable.imp _ (stable_forked recover))) ?_
  rintro s i ⟨recovered, child, journal, memory⟩ ⟨htold, hchildless⟩
  have hnone : ∀ pid, s.mem.child ≠ some pid := fun pid hpid =>
    nomatch hpid.symm.trans hchildless
  split_ifs with hok
  · refine ⟨⟨?_, fun pid hpid => absurd hpid (hnone pid), journal, memory⟩,
      ⟨htold, hchildless⟩, fun _ => rfl⟩
    intro proc hproc _ hexited
    cases hproc
    cases hexited
  · exact ⟨⟨recovered, child, journal, memory⟩, ⟨htold, hchildless⟩, (fun h => nomatch h)⟩

theorem stable_kin (kin : Option ℕ × Bool) : Stable Beside fun s => s.mem.kin = kin :=
  fun _ _ h hs => (congrArg Memory.kin h.mem).trans hs

theorem spec_noteChild (recover : Bool) (pid : ℕ) :
    Spec up (fun s => Told s ∧ Forked recover s) (noteChild recover pid) fun _ s =>
      Told s ∧ s.mem.kin = (some pid, recover) := by
  have hkin := stable_kin (some pid, recover)
  refine Triple.act (rely up) (Stable.and stable_told (stable_forked recover))
    (fun _ => Stable.and stable_told hkin) ?_
  rintro s i ⟨recovered, child, journal, memory⟩ ⟨htold, hforked⟩
  exact ⟨⟨recovered, fun _ _ => hforked, journal, memory⟩, htold, rfl⟩

/-- A session that is let go leaves a system to be recovered, and the journal says so. -/
theorem spec_release (recover : Bool) :
    Spec up (fun s => Told s ∧ Forked recover s) (release recover) fun _ => Told := by
  refine Triple.act (rely up) (Stable.and stable_told (stable_forked recover))
    (fun _ => stable_told) ?_
  rintro s i ⟨recovered, child, journal, memory⟩ ⟨htold, hforked⟩
  split_ifs with hok
  · refine ⟨⟨?_, ?_, .inr ⟨_, htold.1, htold.2⟩, fun _ hidle => absurd hidle htold.1⟩, htold⟩
    · intro proc hproc hrecovery hexited
      obtain ⟨old, hold, rfl⟩ := Option.map_eq_some_iff.mp hproc
      have hrecover : old.recovery = recover := by
        rw [Forked, hold] at hforked
        exact Option.some.inj hforked
      simp only at hrecovery hexited
      rw [recovered old hold hrecovery hexited, ← hrecover, hrecovery]
      rfl
    · intro pid hpid
      rw [Option.map_map]
      exact child pid hpid
  · exact ⟨⟨recovered, child, journal, memory⟩, htold⟩

theorem spec_abandon (hP : Stable Beside P) : Spec up P abandon fun _ => Childless := by
  refine Triple.act (rely up) hP (fun _ => stable_childless) ?_
  rintro s i ⟨recovered, child, journal, memory⟩ -
  exact ⟨⟨(fun _ h => nomatch h), (fun _ h => nomatch h), journal, memory⟩, rfl⟩

/-- What the memory holds of the child at the start may be remembered. -/
theorem Spec.kin {p : Program α}
    (h : ∀ kin, Spec up (fun s => s.mem.kin = kin ∧ P s) p Q) : Spec up P p Q :=
  fun s hs hP => h s.mem.kin s hs ⟨rfl, hP⟩

theorem Spec.absurd {p : Program α} (h : ∀ s, ¬P s) : Spec up P p Q := fun s _ hs => (h s hs).elim

/-- The child is noted down in the journal again, and then let go. -/
theorem spec_letGo (recover : Bool) (pid ticks : ℕ) (m : Memory) :
    Spec up (fun s => s.mem = m ∧ Told s ∧ s.mem.kin = (some pid, recover))
      (if ticks = 0 then Pure.pure false
        else do if ← saveState m.state then release recover else Pure.pure false)
      fun ok s => ok = true → Told s := by
  have hP : Stable Beside fun s => s.mem = m ∧ Told s ∧ s.mem.kin = (some pid, recover) :=
    Stable.and (stable_mem m) (Stable.and stable_told (stable_kin _))
  split_ifs
  · exact Spec.pure hP fun _ _ _ h => nomatch h
  · by_cases hidle : m.state = .idle
    · refine Spec.absurd ?_
      rintro s ⟨rfl, htold, -⟩
      exact htold.1 hidle
    · refine Spec.bind ((spec_saveState (some pid, recover) m.state).pre ?_) fun saved =>
        Spec.ite ?_ fun _ => Spec.pure (stable_saved _ _ _) fun _ _ _ h => nomatch h
      · rintro s - ⟨-, -, hkin⟩
        exact ⟨hkin, fun h => absurd h hidle⟩
      · rintro rfl
        refine ((spec_release recover).pre ?_).post fun _ _ h _ => h
        intro s hs hsaved
        obtain ⟨hstate, htold⟩ := hsaved.saved rfl
        have hkin := Prod.ext_iff.mp hsaved.kin
        exact ⟨⟨hstate ▸ hidle, hstate ▸ htold⟩,
          (hs.child pid hkin.1).trans (congrArg some hkin.2)⟩

/-- Where a launch succeeds the memory does not say that nothing goes on; where it fails, there is
no child. -/
theorem spec_launch (recover : Bool) : Spec up Childless (launch recover) Launched := by
  have hfail : ∀ {P : State → Prop}, Stable Beside P → (∀ s, P s → Childless s) →
      Spec up P (Pure.pure false) Launched := fun hP h => Spec.pure hP fun s _ hs => h s hs
  have hnext : (if recover then Status.recovering else .starting) ≠ .idle := by
    cases recover <;> decide
  have hsaved : ∀ {kin ok s}, kin.1 = none →
      Saved kin (if recover then Status.recovering else .starting) ok s → Childless s :=
    fun hkin h => (congrArg Prod.fst h.kin).trans hkin
  refine (spec_ask stable_childless).bind fun trusted =>
    Spec.ite (fun _ => ?_) fun _ => hfail stable_childless fun _ => id
  refine Spec.kin fun kin => ?_
  by_cases hkin : kin.1 = none
  · refine Spec.bind ((spec_saveState kin _).pre fun s _ hs => ⟨hs.1, fun h => absurd h hnext⟩)
      fun saved => Spec.ite ?_ fun _ => hfail (stable_saved _ _ _) fun _ => hsaved hkin
    rintro rfl
    refine (spec_ask (stable_saved kin _ true)).bind fun piped =>
      Spec.ite (fun _ => ?_) fun _ => hfail (stable_saved _ _ _) fun _ => hsaved hkin
    refine Spec.bind ((spec_fork recover).pre ?_) fun pid => ?_
    · intro s _ h
      obtain ⟨hstate, htold⟩ := h.saved rfl
      exact ⟨⟨hstate ▸ hnext, hstate ▸ htold⟩, hsaved hkin h⟩
    · cases pid with
      | none =>
        exact hfail (Stable.and (Stable.and stable_told stable_childless)
          (Stable.imp _ (stable_forked recover))) fun s hs => hs.1.2
      | some pid =>
        refine Spec.bind ((spec_noteChild recover pid).pre fun s _ hs => ⟨hs.1.1, hs.2 rfl⟩)
          fun ticks => ?_
        refine (spec_look (Stable.and stable_told (stable_kin _))).bind fun m => ?_
        refine Spec.bind (spec_letGo recover pid ticks m) fun gone => Spec.ite ?_ fun _ => ?_
        · rintro rfl
          exact Spec.pure (Stable.imp _ stable_told) fun s _ hs => (hs rfl).1
        · refine Spec.bind (spec_abandon (Stable.imp _ stable_told)) fun _ => ?_
          exact hfail stable_childless fun _ => id
  · refine Spec.absurd ?_
    rintro s ⟨rfl, hchildless⟩
    exact hkin hchildless

/-- Whether a launch succeeds or fails, the memory does not say that nothing goes on. -/
theorem spec_launchOrFail (recover : Bool) :
    Spec up Childless (launchOrFail recover) fun _ => Busy := by
  refine (spec_launch recover).bind fun launched => Spec.ite ?_ ?_
  · rintro rfl
    exact Spec.pure (stable_launched true) fun _ _ h => h
  · rintro rfl
    refine Spec.kin fun kin => ?_
    refine Spec.bind ((spec_saveState kin .failed).pre fun s _ hs => ⟨hs.1, (fun h => nomatch h)⟩)
      fun saved => Spec.pure (stable_saved _ _ _) fun s _ hs => ?_
    cases saved with
    | true => exact fun hidle => nomatch (hs.saved rfl).1.symm.trans hidle
    | false => exact fun hidle => nomatch (hs.failed rfl).symm.trans hidle

/-! ### Reaping and requests -/

/-- A program that keeps the invariant from any state. -/
abbrev Kept (up : Bool) (p : Program α) : Prop := Spec up (fun _ => True) p fun _ _ => True

theorem Spec.kept {p : Program α} (h : Spec up P p Q) : Spec up P p fun _ _ => True :=
  h.post fun _ _ _ => trivial

theorem kept_pure (hP : Stable Beside P) (a : α) :
    Spec up P (Pure.pure a : Program α) fun _ _ => True :=
  Spec.pure hP fun _ _ _ => trivial

/-- Anything but `IDLE` may be saved at any time. -/
theorem kept_saveState (next : Status) (hnext : next ≠ .idle) : Kept up (saveState next) := by
  refine Spec.kin fun kin => Spec.kept ((spec_saveState kin next).pre ?_)
  exact fun _ _ hs => ⟨hs.1, fun h => absurd h hnext⟩

/-- A recovery script that has ended well has left nothing to recover. -/
theorem spec_waitChild {m : Memory} (hchild : m.child.isSome = true) :
    Spec up (fun s => s.mem = m) waitChild fun code s =>
      s.mem = m ∧ (code = some 0 ∧ m.recoveryChild = true → Clean s) := by
  refine spec_read (stable_mem m)
    (fun _ => Stable.and (stable_mem m) (Stable.imp _ stable_clean)) ?_
  rintro s i hs rfl
  refine ⟨rfl, ?_⟩
  rintro ⟨hcode, hrecovery⟩ -
  obtain ⟨pid, hpid⟩ := Option.isSome_iff_exists.mp hchild
  obtain ⟨proc, hproc, hexited⟩ := Option.bind_eq_some_iff.mp hcode
  have hkin := hs.child pid hpid
  rw [hproc] at hkin
  exact hs.recovered proc hproc ((Option.some.inj hkin).trans hrecovery) hexited

theorem kept_reap : Kept up reap := by
  refine (spec_look stable_true).bind fun m => ?_
  have hm : Stable Beside fun s => s.mem = m ∧ True := Stable.and (stable_mem m) stable_true
  refine Spec.ite (fun _ => kept_pure hm _) fun hchild => ?_
  have hsome : m.child.isSome = true := by
    cases h : m.child with
    | none => rw [h] at hchild; cases hchild
    | some pid => rfl
  refine Spec.bind ((spec_waitChild hsome).pre fun _ _ h => h.1) fun code => ?_
  have hcode : Stable Beside fun s => s.mem = m ∧ (code = some 0 ∧ m.recoveryChild = true → Clean s) :=
    Stable.and (stable_mem m) (Stable.imp _ stable_clean)
  cases code with
  | none => exact kept_pure hcode _
  | some code =>
    have hend : Stable Beside fun s =>
        s.mem.kin = (none, m.recoveryChild) ∧ (code = 0 ∧ m.recoveryChild = true → Clean s) :=
      Stable.and (stable_kin _) (Stable.imp _ stable_clean)
    refine Spec.bind (spec_assign hcode hend (fun _ => .inl rfl) ?_) fun _ => Spec.ite ?_ ?_
    · rintro s hs ⟨rfl, hclean⟩
      exact ⟨⟨rfl, fun h => hclean ⟨congrArg some h.1, h.2⟩⟩, hs.memory⟩
    · intro hrecovery
      refine Spec.bind (spec_assign hend hend (fun _ => .inr ⟨rfl, rfl⟩) fun s hs h =>
        ⟨h, hs.memory⟩) fun _ => ?_
      refine Spec.bind ((spec_saveState (none, m.recoveryChild) _).pre ?_) fun saved =>
        kept_pure (stable_saved _ _ _) _
      rintro s - ⟨hkin, hclean⟩
      refine ⟨hkin, fun hidle => hclean ⟨?_, hrecovery⟩⟩
      split_ifs at hidle with hzero
      exact hzero
    · intro _
      refine Spec.bind (spec_assign hend stable_childless (fun _ => .inr ⟨rfl, rfl⟩) fun s hs h =>
        ⟨congrArg Prod.fst h.1, hs.memory⟩) fun _ => (spec_launchOrFail true).kept

theorem kept_replyStatus : Kept up replyStatus :=
  (spec_look stable_true).bind fun _ => kept_pure (Stable.and (stable_mem _) stable_true) _

theorem kept_handleStart : Kept up handleStart := by
  refine (spec_look stable_true).bind fun m => ?_
  have hm : Stable Beside fun s => s.mem = m ∧ True := Stable.and (stable_mem m) stable_true
  split_ifs with hbusy
  · exact kept_pure hm _
  · rw [not_or, Bool.not_eq_true, Option.isSome_eq_false_iff, Option.isNone_iff_eq_none] at hbusy
    refine Spec.bind ((spec_launch false).pre ?_) fun launched => Spec.ite ?_ ?_
    · rintro s - ⟨rfl, -⟩
      exact hbusy.2
    · exact fun _ => Spec.kept (kept_replyStatus.pre fun _ _ _ => trivial)
    · rintro rfl
      refine Spec.bind (spec_assign (stable_launched false) stable_true
        (fun _ => .inr ⟨rfl, rfl⟩) fun s hs _ => ⟨trivial, hs.memory⟩) fun _ => ?_
      exact (kept_saveState .failed (by decide)).bind fun _ => kept_pure stable_true _

theorem kept_handleStop : Kept up handleStop := by
  refine (spec_look stable_true).bind fun m => ?_
  have hm : Stable Beside fun s => s.mem = m ∧ True := Stable.and (stable_mem m) stable_true
  have hreply : Spec up (fun s => s.mem = m ∧ True) replyStatus fun _ _ => True :=
    kept_replyStatus.pre fun _ _ _ => trivial
  refine Spec.ite (fun _ => ?_) fun hchild => ?_
  · refine Spec.ite (fun _ => ?_) fun _ => hreply
    refine Spec.bind ((kept_saveState .stopping (by decide)).pre fun _ _ _ => trivial)
      fun saved => Spec.ite (fun _ => kept_replyStatus) fun _ => kept_pure stable_true _
  · split_ifs
    · refine Spec.bind ((spec_launchOrFail true).pre ?_) fun _ =>
        kept_replyStatus.pre fun _ _ _ => trivial
      rintro s - ⟨rfl, -⟩
      exact Option.isNone_iff_eq_none.mp (Option.isSome_eq_false_iff.mp hchild)
    · exact hreply

theorem gives_homeUrl (data : Bytes) : Gives up .homeUrl data (fun _ => True) fun _ => True where
  framed := ⟨stable_true, fun _ _ _ _ => trivial⟩
  stable := stable_true
  replaced := by
    intro s hs _ staging
    have hfiles : Function.update s.files .homeUrl (some data) .journal = s.files .journal :=
      Function.update_of_ne (by decide) _ _
    exact ⟨hs.of_disk rfl rfl rfl rfl hfiles, trivial⟩

theorem kept_handleHome (url : Bytes) : Kept up (handleHome url) := by
  refine (spec_look stable_true).bind fun m => ?_
  have hm : Stable Beside fun s => s.mem = m ∧ True := Stable.and (stable_mem m) stable_true
  split_ifs
  · exact kept_pure hm _
  · exact kept_pure hm _
  · refine (spec_ask hm).bind fun trusted => Spec.ite (fun _ => ?_) fun _ => kept_pure hm _
    refine Spec.bind ((spec_atomicWrite (gives_homeUrl _)).pre fun _ _ _ => trivial) fun written =>
      Spec.ite (fun _ => kept_pure ?_ _) fun _ => kept_pure ?_ _
    all_goals exact fun _ _ _ _ => ⟨fun _ => trivial, trivial⟩

theorem kept_handle (request : Bytes) : Kept up (handle request) := by
  unfold handle
  split_ifs
  · exact kept_replyStatus
  · exact kept_handleStart
  · exact kept_handleStop
  · exact kept_handleHome _
  · exact kept_pure stable_true _

theorem kept_client : Kept up client := by
  refine (spec_ask stable_true).bind fun authorized => Spec.ite (fun _ => ?_) fun _ =>
    kept_pure stable_true _
  refine (spec_read stable_true (fun _ => stable_true) fun _ _ _ _ => trivial).bind fun input => ?_
  split_ifs
  · exact kept_handle _
  · exact kept_pure stable_true _

/-! ### The daemon -/

theorem kept_noteReady : Kept up noteReady := by
  refine (spec_look stable_true).bind fun m => ?_
  have hm : Stable Beside fun s => s.mem = m ∧ True := Stable.and (stable_mem m) stable_true
  refine Spec.ite (fun _ => ?_) fun _ => kept_pure hm _
  refine (spec_read hm (fun _ => hm) fun _ _ _ h => h).bind fun ready =>
    Spec.ite (fun _ => ?_) fun _ => kept_pure hm _
  exact Spec.bind ((kept_saveState .running (by decide)).pre fun _ _ _ => trivial) fun _ =>
    kept_pure stable_true _

end

/-- Whether the memory counts in a place. -/
def Place.up : Place → Bool
  | .booting => false
  | .serving => true
  | .closing => true

/-- A new process has no child. -/
def Entry : Place → State → Prop
  | .booting, s => Childless s
  | _, _ => True

/-- Where a program ends, the next one can begin. -/
def Hands (next : Place) (s : State) : Prop :=
  Inv next.up (daemon.enter next s) ∧ Entry next (daemon.enter next s)

theorem Inv.restart {up : Bool} {s : State} (h : Inv up s) : Inv false s.restart where
  recovered _ h := nomatch h
  child _ h := nomatch h
  journal := h.journal
  memory h := nomatch h

theorem hands_booting {up : Bool} {s : State} (h : Inv up s) : Hands .booting s := ⟨h.restart, rfl⟩

theorem spec_turn : Spec true (fun _ => True) turn Hands := by
  refine (spec_ask stable_true).bind fun stopping => Spec.ite (fun _ => ?_) fun _ => ?_
  · exact Spec.pure stable_true fun s hs _ => ⟨hs, trivial⟩
  · refine kept_reap.bind fun _ => kept_noteReady.bind fun _ => (spec_ask stable_true).bind fun peer =>
      Spec.ite (fun _ => kept_client.bind fun _ => ?_) fun _ => ?_
    · exact Spec.pure stable_true fun s hs _ => ⟨hs, trivial⟩
    · exact Spec.pure stable_true fun s hs _ => ⟨hs, trivial⟩

theorem spec_close : Spec true (fun _ => True) close Hands := by
  refine (spec_look stable_true).bind fun m => Spec.ite (fun _ => ?_) fun _ => ?_
  · exact Spec.pure (Stable.and (stable_mem m) stable_true) fun s hs _ => hands_booting hs
  · refine Spec.bind (kept_reap.pre fun _ _ _ => trivial) fun _ => (spec_ask stable_true).bind
      fun late => Spec.ite (fun _ => ?_) fun _ => ?_
    · exact Spec.pure stable_true fun s hs _ => hands_booting hs
    · exact Spec.pure stable_true fun s hs _ => ⟨hs, trivial⟩

/-! ### Reading the journal back -/

theorem word_spec (status : Status) :
    status.word ≠ [] ∧ status.word.length ≤ 10 ∧ ∀ c ∈ status.word, isspace c = false := by
  have hany : status.word ≠ [] ∧ status.word.length ≤ 10 ∧ status.word.any isspace = false := by
    cases status <;> decide
  simpa using hany

theorem word_injective {status status' : Status} (h : status.word = status'.word) :
    status = status' := by
  cases status <;> cases status' <;> first | rfl | exact absurd h (by decide)

theorem readWord_stateLine (status : Status) (lastExit child ticks : ℕ) :
    readWord (stateLine status lastExit child ticks) = status.word := by
  obtain ⟨hne, hlen, hspace⟩ := word_spec status
  have hline : ∀ c ∈ status.word, (c != 10) = true := by
    intro c hc
    rw [bne_iff_ne]
    rintro rfl
    cases hspace 10 hc
  have hfirst : ∀ rest, ∃ rest', firstLine (status.word ++ 32 :: rest) = status.word ++ 32 :: rest' := by
    intro rest
    obtain ⟨k, hk⟩ : ∃ k, 159 - status.word.length = k + 1 := ⟨158 - status.word.length, by omega⟩
    refine ⟨(rest.take k).takeWhile (· != 10), ?_⟩
    rw [firstLine, List.take_append, List.take_of_length_le (by omega), hk, List.take_succ_cons,
      List.takeWhile_append_of_pos hline, List.takeWhile_cons_of_pos (by decide)]
  obtain ⟨rest', hrest⟩ := hfirst
    (decimal lastExit ++ 32 :: (decimal child ++ 32 :: (decimal ticks ++ [10])))
  rw [readWord, stateLine, hrest, scanWord_append hne (by omega) hspace]

/-- What a start-up makes of the journal: where it takes it for clean, it is. -/
theorem clean_of_journal {up : Bool} {s : State} (h : Inv up s)
    (hidle : ∀ text, s.files .journal = some text →
      readWord text = [] ∨ readWord text = Status.idle.word) : Clean s := by
  rcases h.journal with hclean | ⟨status, hne, lastExit, child, ticks, htext⟩
  · exact hclean
  · have hword := hidle _ htext
    rw [readWord_stateLine] at hword
    rcases hword with hword | hword
    · exact absurd hword (word_spec status).1
    · exact absurd (word_injective hword) hne

theorem framed_childless : Framed Childless where
  stable := stable_childless
  disk hs hmem _ _ := (congrArg Memory.child hmem).trans hs

/-- What a start-up has read, and what it says if it could be read. -/
def Read (previous : Bytes) (unread : Bool) (s : State) : Prop :=
  Childless s ∧ (unread = false → previous = [] ∨ previous = Status.idle.word → Clean s)

theorem stable_read (previous : Bytes) (unread : Bool) : Stable Beside (Read previous unread) :=
  fun s t h hs => ⟨stable_childless s t h hs.1, fun hread hidle => h.clean (hs.2 hread hidle)⟩

theorem spec_readJournal :
    Spec false Childless readJournal fun journal s => Read journal.1 journal.2 s := by
  refine spec_read stable_childless (fun _ => stable_read _ _) fun s i hs hchildless => ?_
  refine ⟨hchildless, fun hread hidle => clean_of_journal hs fun text htext => ?_⟩
  simp only [htext] at hread hidle
  split_ifs at hread hidle
  exact hidle

/-- Without the lock, a journal that could not be read leaves its mark. -/
theorem spec_lockFound (previous : Bytes) (unread : Bool) :
    Spec false (Read previous unread) (lockFound unread) fun found s =>
      Childless s ∧ (found = false → previous = [] ∨ previous = Status.idle.word → Clean s) := by
  refine Triple.act (rely false) (stable_read _ _)
    (fun _ => Stable.and stable_childless (Stable.imp _ (Stable.imp _ stable_clean))) ?_
  rintro s i ⟨recovered, child, journal, memory⟩ ⟨hchildless, hclean⟩
  have hkept : ∀ mark, Clean s → Clean { s with misread := s.misread || mark } :=
    fun mark h hmisread => h (Bool.or_eq_false_iff.mp hmisread).1
  refine ⟨⟨recovered, child, ?_, fun h => nomatch h⟩, hchildless, fun hfound hidle => ?_⟩
  · rcases journal with h | h
    · exact .inl (hkept _ h)
    · exact .inr h
  · cases unread with
    | false => exact hkept _ (hclean rfl hidle)
    | true =>
      intro hmisread
      simp only [hfound, Bool.not_false, Bool.and_self, Bool.or_true, Bool.true_eq_false] at hmisread

theorem hands_serving {s : State} (hs : Inv false s) (h : s.mem.state = .idle → Clean s) :
    Hands .serving s :=
  ⟨⟨hs.recovered, hs.child, hs.journal, fun _ => h⟩, trivial⟩

theorem spec_discardStaging : Spec false Childless discardStaging fun _ => Childless :=
  (spec_ask stable_childless).bind fun _ => Spec.ite
    (fun _ => spec_unlink .journal framed_childless) fun _ => Spec.pure stable_childless fun _ _ hs => hs

theorem spec_boot : Spec false Childless boot Hands := by
  refine (spec_ask stable_childless).bind fun checked => Spec.ite (fun _ => ?_) fun _ =>
    Spec.pure stable_childless fun s hs _ => hands_booting hs
  refine spec_discardStaging.bind fun _ => spec_readJournal.bind fun (previous, unread) => ?_
  refine (spec_lockFound previous unread).bind fun found => Spec.ite (fun _ => ?_) fun hidle => ?_
  · refine Spec.bind ((spec_launchOrFail true).pre fun s _ hs => hs.1) fun _ => ?_
    exact Spec.pure stable_busy fun s hs hbusy => hands_serving hs fun h => absurd h hbusy
  · rw [Bool.or_eq_false_iff, Bool.and_eq_false_iff, decide_eq_false_iff_not, not_not,
      decide_eq_false_iff_not, not_not] at hidle
    refine Spec.kin fun kin => Spec.bind ((spec_saveState kin .idle).pre fun s _ hs =>
      ⟨hs.1, fun _ => hs.2.2 hidle.1 hidle.2⟩) fun saved => Spec.ite (fun _ => ?_) fun _ => ?_
    · exact Spec.pure (stable_saved _ _ _) fun s hs h => hands_serving hs fun _ => h.clean rfl
    · exact Spec.pure (stable_saved _ _ _) fun s hs _ => hands_booting hs

theorem spec_program (place : Place) :
    Spec place.up (Entry place) (daemon.program place) Hands := by
  cases place with
  | booting => exact spec_boot
  | serving => exact spec_turn
  | closing => exact spec_close

theorem installed_inv : Inv false installed where
  recovered _ h := nomatch h
  child _ h := nomatch h
  journal := .inl fun _ => rfl
  memory h := nomatch h

/-- The daemon from its installation through whatever happens. -/
def history (events : List (Event Answer World)) : Config State Answer Place :=
  daemon.run (daemon.start installed) events

theorem history_inv (events : List (Event Answer World)) :
    Inv (history events).place.up (history events).state :=
  Machine.run_invariant (P := Entry) (fun place => rely place.up) happen_beside spec_program
    (fun _ _ hs => ⟨hs.restart, rfl⟩) installed_inv rfl events

/-- What the journal says, as a start-up reads it. -/
def JournalSays (status : Status) (s : State) : Prop :=
  ∃ text, s.files .journal = some text ∧ readWord text = status.word

/-- As long as no start-up has taken a journal for none because it could not read it: where the
journal says `IDLE`, or the memory of a daemon that is through its start-up does, no session has
been let go since the last recovery that has ended with status 0. -/
theorem idle_means_recovered {events : List (Event Answer World)}
    (h : (history events).state.misread = false) :
    (JournalSays .idle (history events).state → (history events).state.dirty = false) ∧
      ((history events).place ≠ .booting → (history events).state.mem.state = .idle →
        (history events).state.dirty = false) := by
  have hinv := history_inv events
  constructor
  · rintro ⟨text, htext, hword⟩
    refine clean_of_journal hinv (fun text' htext' => .inr ?_) h
    rw [htext] at htext'
    rw [← Option.some.inj htext', hword]
  · intro hplace hidle
    refine hinv.memory ?_ hidle h
    cases hup : (history events).place with
    | booting => exact absurd hup hplace
    | serving => rfl
    | closing => rfl

/-! ### A session and a crash -/

/-- A step whose calls succeed, with what a client may have sent. -/
def yes (text : Bytes) : Event Answer World := .go { ok := true, number := 7, text }

def no : Event Answer World := .go { ok := false, number := 0, text := [] }

/-- The daemon starts and lets a session go. -/
def sessionStarted : List (Event Answer World) :=
  List.replicate 13 (yes []) ++ no :: List.replicate 26 (yes (ascii "START\n"))

/-- It crashes, and the new daemon cannot read the journal. -/
def journalUnread : List (Event Answer World) :=
  sessionStarted ++ [.crash, yes [], yes [], yes [], no] ++ List.replicate 5 (yes [])

/-- It crashes, and the new daemon recovers. -/
def sessionRecovered : List (Event Answer World) :=
  sessionStarted ++ [.crash] ++ List.replicate 26 (yes []) ++
    [.world (.exit 0), yes [], no] ++ List.replicate 12 (yes [])

/-- The journal says `IDLE` over a session when a start-up has not been able to read it, and the
memory of a new daemon does until the journal is read. -/
theorem idle_without_recovery :
    (¬∀ events, JournalSays .idle (history events).state → (history events).state.dirty = false) ∧
      ¬∀ events, (history events).state.mem.state = .idle → (history events).state.dirty = false := by
  constructor
  · intro h
    have hidle : JournalSays .idle (history journalUnread).state :=
      ⟨stateLine .idle 0 0 0, by decide, by decide⟩
    have hdirty : (history journalUnread).state.dirty = true := by decide
    cases hdirty.symm.trans (h _ hidle)
  · intro h
    have hdirty : (history (sessionStarted ++ [.crash])).state.dirty = true := by decide
    cases hdirty.symm.trans (h _ rfl)

theorem idle_means_recovered_session :
    JournalSays .idle (history sessionRecovered).state ∧
      (history sessionRecovered).state.dirty = false := by
  have hidle : JournalSays .idle (history sessionRecovered).state :=
    ⟨stateLine .idle 0 0 0, by decide, by decide⟩
  exact ⟨hidle, (idle_means_recovered (by decide)).1 hidle⟩

end ForgeOS.Native.Sessiond
