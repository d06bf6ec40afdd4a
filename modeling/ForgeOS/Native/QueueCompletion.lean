import ForgeOS.Native.QueueRendering

/-! What the component shows while the script gives its queue out in batches. A queue that is cut
short has more to come: a timer of its generation is pending, or the rest of one will set the next.
From this the front that is shown only grows, and the timers that are pending show the whole. -/

namespace ForgeOS.Native.QueueRendering

variable {α : Type*} {s s' : State α} {i j a g : ℕ}

/-! ### What one state of the script leaves alone of another -/

/-- A timer of the present generation is pending. -/
def Live (s : State α) (i a : ℕ) : Prop :=
  ∃ id, s.timers id = some ⟨i, a, (s.states i).generation⟩

/-- Nothing has happened to a state of the script. -/
structure Spares (i : ℕ) (s s' : State α) : Prop where
  states : s'.states i = s.states i
  current : s'.current = s.current
  given : s'.given i = s.given i
  data : s'.page.data = s.page.data
  items : s'.page.items = s.page.items
  live {a : ℕ} : Live s i a → Live s' i a

theorem Spares.refl (i : ℕ) (s : State α) : Spares i s s := ⟨rfl, rfl, rfl, rfl, rfl, fun h => h⟩

theorem Spares.trans {t : State α} (h : Spares i s t) (h' : Spares i t s') : Spares i s s' :=
  ⟨h'.states.trans h.states, h'.current.trans h.current, h'.given.trans h.given,
    h'.data.trans h.data, h'.items.trans h.items, fun hl => h'.live (h.live hl)⟩

theorem spares_modify (s : State α) (hne : i ≠ j) (f : Rendering → Rendering) :
    Spares i s (s.modify j f) := by
  refine ⟨by simp [hne], rfl, rfl, rfl, rfl, ?_⟩
  rintro a ⟨n, hn⟩
  exact ⟨n, by simpa [hne] using hn⟩

theorem spares_place (s : State α) (i c : ℕ) (m : Method) : Spares i s (s.place c m) :=
  ⟨rfl, rfl, rfl, rfl, rfl, fun h => h⟩

theorem spares_setItems (s : State α) (i c : ℕ) (items : Option (List α)) :
    Spares i s (s.setItems c items) :=
  ⟨rfl, rfl, rfl, rfl, rfl, fun h => h⟩

theorem Sound.spares_cancel (h : Sound s) (hne : i ≠ j) :
    Spares i s (QueueRendering.cancel j s) := by
  refine ⟨by simp [hne], rfl, rfl, rfl, rfl, ?_⟩
  rintro a ⟨n, hn⟩
  refine ⟨n, ?_⟩
  -- the handle that is cleared is a timer of the other state
  have hother : (s.states j).timer ≠ some n := by
    intro hj
    obtain ⟨b, hb⟩ := h.handle hj
    rw [hn] at hb
    cases hb
    exact hne rfl
  simp only [cancel_timers, clearTimeout_of_ne hother, hn, ne_eq, hne, not_false_eq_true,
    cancel_other]

theorem Sound.live_schedule (h : Sound s) {b : ℕ} (hl : Live s i b) :
    Live (QueueRendering.schedule j a g s) i b := by
  obtain ⟨n, hn⟩ := hl
  refine ⟨n, ?_⟩
  have hmade : n ≠ s.made := Nat.ne_of_lt (h.made hn)
  by_cases hi : i = j
  · subst hi
    simpa [hmade] using hn
  · simpa [hmade, hi] using hn

theorem Sound.spares_schedule (h : Sound s) (hne : i ≠ j) :
    Spares i s (QueueRendering.schedule j a g s) :=
  ⟨by simp [hne], rfl, rfl, rfl, rfl, fun hl => h.live_schedule hl⟩

theorem Sound.spares_restore (h : Sound s) (hne : i ≠ j) :
    Spares i s (QueueRendering.restore j s) := by
  simp only [QueueRendering.restore]
  split
  · exact (h.spares_cancel hne).trans (spares_place ..)
  · exact h.spares_cancel hne

theorem Sound.spares_giveUp (h : Sound s) (hne : i ≠ j) : Spares i s (QueueRendering.giveUp j s) :=
  (h.spares_restore hne).trans (spares_modify _ hne _)

theorem Sound.spares_fail (h : Sound s) (hne : i ≠ j) (answer : Option (Option (List α))) :
    Spares i s (QueueRendering.fail j answer s) := by
  have := h.spares_giveUp hne
  simp only [QueueRendering.fail]
  split
  · cases answer with
    | none => exact this
    | some items => exact this.trans (spares_setItems ..)
  · exact this

theorem Sound.spares_release (h : Sound s) (hne : i ≠ j) :
    Spares i s (QueueRendering.release j s) :=
  (h.spares_cancel hne).trans (spares_modify _ hne _)

theorem Sound.spares_wrapped (h : Sound s) (hj : j < s.count) (hne : i ≠ j) (a full : Value) :
    Spares i s (QueueRendering.wrapped j a full s).1 := by
  simp only [QueueRendering.wrapped]
  split
  · exact h.spares_release hne
  · next r _ =>
    have htake (n : ℕ) : Spares i s (QueueRendering.takeUp j r n s) := by
      simp only [QueueRendering.takeUp]
      split
      · have hsound := h.renew j
          (keeps_taken (some r) (min (s.page.items r).length (max 4 (n + 3))))
        have := (h.spares_cancel hne).trans (spares_modify _ hne fun x =>
          { x with input := some r, size := min (s.page.items r).length (max 4 (n + 3)) })
        split
        · exact this.trans (hsound.spares_schedule hne)
        · exact this
      · exact .refl i s
    have hgrow := (htake (selected s.page (s.states j).c (s.page.items r).length)).trans
      (spares_modify _ hne (raise (min (s.page.items r).length
        (selected s.page (s.states j).c (s.page.items r).length + 3))))
    simp only [QueueRendering.serve, QueueRendering.ensure]
    split
    · exact hgrow.trans ((((h.takeUp hj _ _).modify j (keeps_raise _)) fun _ => rfl).spares_schedule
        hne)
    · exact hgrow

/-- Neither the page nor what a state of the script belongs to is another. -/
structure Stays (s s' : State α) : Prop where
  page : s'.page = s.page
  current : s'.current = s.current
  given : s'.given = s.given
  count : s'.count = s.count
  q (k : ℕ) : (s'.states k).q = (s.states k).q
  c (k : ℕ) : (s'.states k).c = (s.states k).c

theorem Stays.trans {t : State α} (h : Stays s t) (h' : Stays t s') : Stays s s' :=
  ⟨h'.page.trans h.page, h'.current.trans h.current, h'.given.trans h.given,
    h'.count.trans h.count, fun k => (h'.q k).trans (h.q k), fun k => (h'.c k).trans (h.c k)⟩

theorem Stays.refl (s : State α) : Stays s s := ⟨rfl, rfl, rfl, rfl, fun _ => rfl, fun _ => rfl⟩

theorem stays_update (s : State α) (timers : ℕ → Option Timer) (made i : ℕ)
    {f : Rendering → Rendering} (hq : ∀ x, (f x).q = x.q) (hc : ∀ x, (f x).c = x.c) :
    Stays s ({ s with timers := timers, made := made }.modify i f) := by
  refine ⟨rfl, rfl, rfl, rfl, ?_, ?_⟩ <;> intro k <;> by_cases hk : k = i
  · subst hk
    simp [hq]
  · simp [hk]
  · subst hk
    simp [hc]
  · simp [hk]

theorem stays_modify (s : State α) (i : ℕ) {f : Rendering → Rendering} (hf : Keeps f) :
    Stays s (s.modify i f) := stays_update s s.timers s.made i hf.q hf.c

theorem stays_cancel (s : State α) (i : ℕ) : Stays s (cancel i s) :=
  stays_update s _ s.made i (fun _ => rfl) fun _ => rfl

theorem stays_schedule (s : State α) (i a g : ℕ) : Stays s (schedule i a g s) :=
  stays_update s _ _ i (fun _ => rfl) fun _ => rfl

theorem stays_release (s : State α) (i : ℕ) : Stays s (release i s) :=
  (stays_cancel s i).trans (stays_modify _ i (keeps_input none))

theorem stays_takeUp (s : State α) (i r n : ℕ) : Stays s (takeUp i r n s) := by
  have h := (stays_cancel s i).trans (stays_modify _ i
    (keeps_taken (some r) (min (s.page.items r).length (max 4 (n + 3)))))
  simp only [takeUp]
  split
  · split
    · exact h.trans (stays_schedule ..)
    · exact h
  · exact .refl s

theorem stays_serve (s : State α) (i r : ℕ) : Stays s (serve i r s) := by
  have h := (stays_takeUp s i r (selected s.page (s.states i).c (s.page.items r).length)).trans
    (stays_modify _ i (keeps_raise (min (s.page.items r).length
      (selected s.page (s.states i).c (s.page.items r).length + 3))))
  simp only [serve, ensure]
  split
  · exact h.trans (stays_schedule ..)
  · exact h

theorem stays_wrapped (s : State α) (i : ℕ) (a full : Value) : Stays s (wrapped i a full s).1 := by
  simp only [wrapped]
  split
  · exact stays_release ..
  · exact stays_serve ..

/-- A later form of a state: while the generation is the same, so is the array, and no fewer of its
items are given out. -/
structure Rendering.Later (x y : Rendering) : Prop where
  c : y.c = x.c
  generation : x.generation ≤ y.generation
  input : y.generation = x.generation → y.input = x.input
  size : y.generation = x.generation → x.size ≤ y.size

theorem Rendering.Later.refl (x : Rendering) : x.Later x :=
  ⟨rfl, Nat.le_refl _, fun _ => rfl, fun _ => Nat.le_refl _⟩

theorem Rendering.Later.trans {x y z : Rendering} (h : x.Later y) (h' : y.Later z) : x.Later z := by
  have hxy := h.generation
  have hyz := h'.generation
  refine ⟨h'.c.trans h.c, Nat.le_trans hxy hyz, ?_, ?_⟩
  · intro e
    exact (h'.input (by omega)).trans (h.input (by omega))
  · intro e
    exact Nat.le_trans (h.size (by omega)) (h'.size (by omega))

/-- What holds of any two states of the script, the one after the other. -/
structure Advances (s s' : State α) : Prop where
  count : s.count ≤ s'.count
  states {i : ℕ} : i < s.count → (s.states i).Later (s'.states i)
  given {i : ℕ} : i < s.count → (s.given i).isSome → (s'.given i).isSome

theorem Advances.refl (s : State α) : Advances s s :=
  ⟨Nat.le_refl _, fun _ => .refl _, fun _ h => h⟩

theorem Advances.trans {t : State α} (h : Advances s t) (h' : Advances t s') : Advances s s' :=
  ⟨Nat.le_trans h.count h'.count,
    fun hi => (h.states hi).trans (h'.states (Nat.lt_of_lt_of_le hi h.count)),
    fun hi hg => h'.given (Nat.lt_of_lt_of_le hi h.count) (h.given hi hg)⟩

theorem advances_of_states (hstates : s'.states = s.states) (hcount : s'.count = s.count)
    (hgiven : s'.given = s.given) : Advances s s' :=
  ⟨Nat.le_of_eq hcount.symm, fun _ => by rw [hstates]; exact .refl _, fun _ h => by rwa [hgiven]⟩

theorem advances_modify (s : State α) (i : ℕ) {f : Rendering → Rendering}
    (hf : (s.states i).Later (f (s.states i))) : Advances s (s.modify i f) := by
  refine ⟨Nat.le_refl _, ?_, fun _ h => h⟩
  intro k _
  by_cases hk : k = i
  · subst hk
    rw [modify_self]
    exact hf
  · rw [modify_other _ _ _ hk]
    exact .refl _

theorem advances_renew (s : State α) (i : ℕ) {f : Rendering → Rendering} (hf : Keeps f) :
    Advances s ((cancel i s).modify i f) := by
  refine ⟨Nat.le_refl _, ?_, fun _ h => h⟩
  intro k _
  by_cases hk : k = i
  · subst hk
    rw [modify_self, cancel_self]
    refine ⟨hf.c _, ?_, ?_, ?_⟩
    · rw [hf.generation]
      exact Nat.le_succ _
    · intro e
      rw [hf.generation] at e
      exact absurd e (Nat.succ_ne_self _)
    · intro e
      rw [hf.generation] at e
      exact absurd e (Nat.succ_ne_self _)
  · rw [modify_other _ _ _ hk, cancel_other _ _ hk]
    exact .refl _

theorem advances_cancel (s : State α) (i : ℕ) : Advances s (cancel i s) := by
  have := advances_renew s i (f := fun x => x)
    ⟨fun _ => rfl, fun _ => rfl, fun _ => rfl, fun _ => rfl, fun _ => rfl⟩
  rwa [modify_same] at this

theorem advances_schedule (s : State α) (i a g : ℕ) : Advances s (schedule i a g s) := by
  refine ⟨Nat.le_refl _, ?_, fun _ h => h⟩
  intro k _
  by_cases hk : k = i
  · subst hk
    rw [schedule_self]
    exact ⟨rfl, Nat.le_refl _, fun _ => rfl, fun _ => Nat.le_refl _⟩
  · rw [schedule_other _ _ _ _ hk]
    exact .refl _

theorem advances_restore (s : State α) (i : ℕ) : Advances s (restore i s) := by
  simp only [restore]
  split
  · exact (advances_cancel s i).trans (advances_of_states rfl rfl rfl)
  · exact advances_cancel s i

theorem advances_giveUp (s : State α) (i : ℕ) : Advances s (giveUp i s) :=
  (advances_restore s i).trans (advances_modify _ i
    ⟨rfl, Nat.le_refl _, fun _ => rfl, fun _ => Nat.le_refl _⟩)

theorem advances_fail (s : State α) (i : ℕ) (answer : Option (Option (List α))) :
    Advances s (fail i answer s) := by
  have h : Advances s (giveUp i s) := advances_giveUp s i
  simp only [fail]
  split
  · cases answer with
    | none => exact h
    | some items => exact h.trans (advances_of_states rfl rfl rfl)
  · exact h

theorem advances_wrapped (s : State α) (i : ℕ) (a full : Value) :
    Advances s (wrapped i a full s).1 := by
  have htake (r n : ℕ) : Advances s (takeUp i r n s) := by
    have h := advances_renew s i
      (keeps_taken (some r) (min (s.page.items r).length (max 4 (n + 3))))
    simp only [takeUp]
    split
    · split
      · exact h.trans (advances_schedule ..)
      · exact h
    · exact .refl s
  simp only [wrapped]
  split
  · exact advances_renew s i (keeps_input none)
  · next r _ =>
    have h := (htake r (selected s.page (s.states i).c (s.page.items r).length)).trans
      (advances_modify _ i (f := raise (min (s.page.items r).length
        (selected s.page (s.states i).c (s.page.items r).length + 3)))
        ⟨rfl, Nat.le_refl _, fun _ => rfl, fun _ => Nat.le_max_left _ _⟩)
    simp only [serve, ensure]
    split
    · exact h.trans (advances_schedule ..)
    · exact h

theorem advances_compute (s : State α) (c : ℕ) (a full : Value) :
    Advances s (compute c a full s) := by
  simp only [compute]
  split
  · next i _ =>
    refine (advances_wrapped s i a full).trans ⟨Nat.le_refl _, fun _ => .refl _, ?_⟩
    intro k _ hk
    by_cases hki : k = i
    · simp [hki]
    · simpa [hki] using hk
  · exact advances_of_states rfl rfl rfl

theorem advances_install (s : State α) (q c : ℕ) (m : Method) : Advances s (install q c m s) := by
  refine ⟨Nat.le_succ _, ?_, ?_⟩
  · intro i hi
    have hne : i ≠ s.count := Nat.ne_of_lt hi
    simp only [install, Function.update_of_ne hne]
    exact .refl _
  · intro i hi hg
    have hne : i ≠ s.count := Nat.ne_of_lt hi
    simpa [install, hne] using hg

theorem advances_maintain (s : State α) : Advances s (maintain s).1 := by
  have h : Advances s (supersede s) := by
    simp only [supersede]
    split
    · split
      · exact (advances_restore ..).trans (advances_of_states rfl rfl rfl)
      · exact .refl s
    · exact .refl s
  simp only [maintain]
  split
  · exact .refl s
  · split
    · split
      · exact h
      · split
        · exact h
        · split
          · split
            · exact h.trans (advances_giveUp ..)
            · exact h
          · exact h.trans (advances_install ..)
    · exact h

theorem advances_change (s : State α) (e : Change α) : Advances s (change s e) := by
  cases e with
  | page p => exact advances_of_states rfl rfl rfl
  | render q c a items full =>
    exact .trans (t := s.feed q a items) (advances_of_states rfl rfl rfl) (advances_compute ..)
  | overtake c f => exact advances_of_states rfl rfl rfl
  | call i a full => exact advances_wrapped ..
  | maintain => exact advances_maintain s

theorem advances_changes (s : State α) (es : List (Change α)) : Advances s (es.foldl change s) := by
  induction es generalizing s with
  | nil => exact .refl s
  | cons e es ih => exact (advances_change s e).trans (ih (change s e))

theorem advances_resume (s : State α) (i a g : ℕ) (setting : Setting α) :
    Advances s (resume i a g setting s) := by
  simp only [resume]
  split
  · split
    · exact (advances_restore s i).trans (advances_of_states rfl rfl rfl)
    · exact advances_restore s i
  · split
    · exact advances_giveUp s i
    · split
      · exact advances_cancel s i
      · split
        · exact .refl s
        · next hlt =>
          have h : Advances s (grow i a s) := advances_modify s i
            ⟨rfl, Nat.le_refl _, fun _ => rfl, fun _ => Nat.le_of_not_le hlt⟩
          cases setting with
          | thrown answer => exact h.trans (advances_fail ..)
          | done changes =>
            have hpresent : Advances s (present i a (grow i a s)) :=
              h.trans (advances_of_states rfl rfl rfl)
            have hchanges := hpresent.trans (advances_changes _ changes)
            simp only [proceed]
            split
            · exact hchanges.trans (advances_schedule ..)
            · exact hchanges

theorem advances_step (s : State α) (e : Event α) : Advances s (step s e) := by
  cases e with
  | change e => exact advances_change s e
  | fire id setting =>
    simp only [step, fire]
    split
    · exact .refl s
    · next i a g _ =>
      have hremove : Advances s (s.remove id) := advances_of_states rfl rfl rfl
      split
      · exact hremove
      · exact (hremove.trans (advances_modify _ i
          ⟨rfl, Nat.le_refl _, fun _ => rfl, fun _ => Nat.le_refl _⟩)).trans (advances_resume ..)

theorem advances_run (s : State α) (es : List (Event α)) : Advances s (run s es) := by
  induction es generalizing s with
  | nil => exact .refl s
  | cons e es ih => exact (advances_step s e).trans (ih (step s e))

/-! ### A queue is never left cut short -/

/-- The state at `globalThis[key]`, with its wrapper in place. -/
def OnDuty (s : State α) (i : ℕ) : Prop :=
  s.current = some i ∧ s.page.computeShowItemsToRender (s.states i).c = some (.wrapped i)

/-- The rest of a timer, whose items are being set. -/
structure Rest where
  state : ℕ
  a : ℕ
  g : ℕ
  size : ℕ

/-- More is to come: a timer is pending, or the rest of one will set the next. -/
def Pending (rest : Option Rest) (s : State α) (i a : ℕ) : Prop :=
  Live s i a ∨ rest = some ⟨i, a, (s.states i).generation, (s.states i).size⟩

/-- What the component shows of what the page's own function gave. -/
def Shows (rest : Option Rest) (s : State α) (i : ℕ) (given : Option (List α)) : Prop :=
  ((s.states i).input = none ∧ s.page.itemsToRender (s.states i).c = given) ∨
    ∃ a, (s.states i).input = some a ∧ s.page.data (s.states i).q = .array a ∧
      given = some (s.page.items a) ∧
      s.page.itemsToRender (s.states i).c = some ((s.page.items a).take (s.states i).size) ∧
      ((s.states i).size < (s.page.items a).length → Pending rest s i a)

def Good (rest : Option Rest) (s : State α) : Prop :=
  ∀ i, OnDuty s i → ∀ given, s.given i = some given → Shows rest s i given

/-- When no task rests, what is pending has a timer. -/
theorem Pending.live {i a : ℕ} (h : Pending none s i a) : Live s i a :=
  h.resolve_right (Option.some_ne_none _).symm

/-- What is shown while no task rests is shown while one does. -/
theorem Shows.rests {given : Option (List α)} (hs : Shows none s i given) (rest : Option Rest) :
    Shows rest s i given := by
  rcases hs with hs | ⟨a, ha, hdata, hgiven, hshown, hpending⟩
  · exact .inl hs
  · exact .inr ⟨a, ha, hdata, hgiven, hshown, fun hlt => .inl (hpending hlt).live⟩

theorem Spares.shows {rest : Option Rest} (h : Spares i s s')
    (hshown : s'.page.itemsToRender (s.states i).c = s.page.itemsToRender (s.states i).c)
    {given : Option (List α)} (hs : Shows rest s i given) : Shows rest s' i given := by
  simp only [Shows, h.states, h.data, h.items, hshown, Pending] at hs ⊢
  rcases hs with hs | ⟨a, ha, hdata, hgiven, hitems, hpending⟩
  · exact .inl hs
  · exact .inr ⟨a, ha, hdata, hgiven, hitems, fun hlt => (hpending hlt).imp h.live fun e => e⟩

theorem live_schedule (s : State α) (i a : ℕ) :
    Live (schedule i a (s.states i).generation s) i a := ⟨s.made, by simp⟩

/-- The handle of a state is a timer for its array. -/
theorem Sound.live (h : Sound s) (ha : (s.states i).input = some a)
    (ht : (s.states i).timer ≠ none) : Live s i a := by
  obtain ⟨n, hn⟩ := Option.ne_none_iff_exists'.mp ht
  obtain ⟨b, hb⟩ := h.handle hn
  have hsame := h.same hb rfl
  rw [ha] at hsame
  cases hsame
  exact ⟨n, hb⟩

theorem ensure_live (h : Sound s) {r : ℕ} (hr : (s.states i).input = some r)
    (hlt : (s.states i).size < (s.page.items r).length) : Live (ensure i r s) i r := by
  simp only [ensure]
  split
  · exact live_schedule ..
  · next hn => exact h.live hr fun e => hn ⟨hlt, e⟩

theorem ensure_state (s : State α) (i r : ℕ) :
    ((ensure i r s).states i).input = (s.states i).input ∧
      ((ensure i r s).states i).size = (s.states i).size := by
  simp only [ensure]
  split <;> simp

theorem Sound.serve_live (h : Sound s) (hi : i < s.count) {r : ℕ}
    (hlt : ((QueueRendering.serve i r s).states i).size < (s.page.items r).length) :
    Live (QueueRendering.serve i r s) i r := by
  have htake := stays_takeUp s i r (selected s.page (s.states i).c (s.page.items r).length)
  refine ensure_live ((h.takeUp hi _ _).modify i (keeps_raise _) fun _ => rfl) ?_ ?_
  · rw [modify_self]
    exact takeUp_input ..
  · rw [QueueRendering.serve, (ensure_state ..).2] at hlt
    rw [modify_page, htake.page]
    exact hlt

theorem serve_input (s : State α) (i r : ℕ) : ((serve i r s).states i).input = some r := by
  rw [serve, (ensure_state ..).1, modify_self]
  exact takeUp_input ..

theorem accepted_eq_some {s : State α} {i r : ℕ} {a full : Value}
    (h : accepted s i a full = some r) :
    a = .array r ∧ a = s.page.data (s.states i).q ∧ full = a := by
  cases a with
  | other n => exact nomatch h
  | array x =>
    simp only [accepted] at h
    split at h
    · exact nomatch h
    · next hn =>
      simp only [Option.some.injEq] at h
      subst h
      simp only [not_or, not_not] at hn
      exact ⟨rfl, hn.2.1, hn.2.2.1⟩

/-- What a call through a state of the script gives is shown whole or by its front. -/
theorem Sound.wrapped_shows (h : Sound s) (hi : i < s.count) (a full : Value) (rest : Option Rest) :
    Shows rest ((QueueRendering.wrapped i a full s).1.setItems (s.states i).c
      (QueueRendering.wrapped i a full s).2) i (s.page.value full) := by
  have hstays := stays_wrapped s i a full
  simp only [QueueRendering.wrapped] at hstays ⊢
  split
  · next hn =>
    left
    simp [QueueRendering.release]
  · next r hr =>
    obtain ⟨rfl, hdata, rfl⟩ := accepted_eq_some hr
    right
    have hserve := stays_serve s i r
    refine ⟨r, serve_input s i r, ?_, ?_, ?_, ?_⟩
    · rw [setItems_states, setItems_data, hserve.page, hserve.q]
      exact hdata.symm
    · rw [setItems_items, hserve.page]
      rfl
    · simp only [setItems_states, setItems_items, setItems_itemsToRender, hserve.c, hserve.page,
        Function.update_self]
    · intro hlt
      rw [setItems_states, setItems_items, hserve.page] at hlt
      exact .inl (h.serve_live hi hlt)

/-- The selected item and the two behind it are always among those that a call gives. -/
theorem wrapped_selected (s : State α) (i : ℕ) (a full : Value) :
    (wrapped i a full s).2 = s.page.value full ∨
      ∃ r n, full = .array r ∧ (wrapped i a full s).2 = some ((s.page.items r).take n) ∧
        min (s.page.items r).length
          (selected s.page (s.states i).c (s.page.items r).length + 3) ≤ n := by
  simp only [wrapped]
  split
  · exact .inl rfl
  · next r hr =>
    obtain ⟨rfl, -, rfl⟩ := accepted_eq_some hr
    right
    refine ⟨r, _, rfl, by rw [(stays_serve s i r).page], ?_⟩
    rw [serve, (ensure_state ..).2, modify_self]
    exact Nat.le_max_right ..

/-- What is expected of the page: it sets the items of a component only by computing them, with the
function that the component has, when the component's element has new data, and it changes an array
that is given out only in this way. It calls a wrapper that it has kept only when the wrapper is out
of its place. -/
def Proper (s : State α) : Change α → Prop
  | .page p =>
    p.computeShowItemsToRender = s.page.computeShowItemsToRender ∧
      p.itemsToRender = s.page.itemsToRender ∧ p.data = s.page.data ∧
      ∀ i, s.current = some i → ∀ r, s.page.data (s.states i).q = .array r →
        p.items r = s.page.items r
  | .render q c _ items _ =>
    ∀ i, s.current = some i → (q = (s.states i).q → c = (s.states i).c) ∧
      (q ≠ (s.states i).q → ∀ r, s.page.data (s.states i).q = .array r →
        items r = s.page.items r)
  | .overtake _ _ => True
  | .call i _ _ => i < s.count ∧ ¬OnDuty s i
  | .maintain => True

theorem Sound.compute (h : Sound s) (c : ℕ) (a full : Value) : Sound (compute c a full s) := by
  simp only [QueueRendering.compute]
  split
  · next i hi => exact ((h.wrapped (h.placed hi).1 a full).given _).setItems _ _
  · exact h.setItems _ _

theorem Sound.feed (h : Sound s) (q : ℕ) (a : Value) (items : ℕ → List α) :
    Sound (s.feed q a items) := h.page rfl

theorem Sound.supersede (h : Sound s) : Sound (supersede s) := by
  simp only [QueueRendering.supersede]
  split
  · next i hi =>
    have := h.latest hi
    split
    · exact (h.restore (by omega)).forget
    · exact h
  · exact h

theorem Sound.install (h : Sound s) {q c : ℕ} {m : Method}
    (hm : s.page.computeShowItemsToRender c = some m) : Sound (install q c m s) where
  made ht := h.made ht
  owner ht := Nat.lt_succ_of_lt (h.owner ht)
  past {n t} ht := by
    have hne : t.state ≠ s.count := Nat.ne_of_lt (h.owner ht)
    simpa [QueueRendering.install, hne] using h.past ht
  same {n t} ht hg := by
    have hne : t.state ≠ s.count := Nat.ne_of_lt (h.owner ht)
    simp only [QueueRendering.install, Function.update_of_ne hne] at hg ⊢
    exact h.same ht hg
  handle {k n} hn := by
    by_cases hk : k = s.count
    · simp [QueueRendering.install, hk] at hn
    · simp only [QueueRendering.install, Function.update_of_ne hk] at hn ⊢
      exact h.handle hn
  placed {d k} hd := by
    by_cases hdc : d = c
    · simp only [QueueRendering.install, place_compute, hdc, Function.update_self,
        Option.some.injEq, Method.wrapped.injEq] at hd
      subst hd
      simp [QueueRendering.install, hdc]
    · have hold := h.placed (c := d) (i := k) (by simpa [QueueRendering.install, hdc] using hd)
      have hne : k ≠ s.count := Nat.ne_of_lt hold.1
      simp only [QueueRendering.install, Function.update_of_ne hne]
      exact ⟨by omega, hold.2⟩
  replaced {k l} hk hor := by
    by_cases hkc : k = s.count
    · simp only [QueueRendering.install, hkc, Function.update_self] at hor ⊢
      have hold := h.placed (hor ▸ hm)
      have hne : l ≠ s.count := Nat.ne_of_lt hold.1
      simpa [hne] using hold
    · simp only [QueueRendering.install, Function.update_of_ne hkc] at hk hor ⊢
      have hold := h.replaced (by omega) hor
      have hne : l ≠ s.count := by omega
      simpa [hne] using hold
  latest hcur := by
    simp only [QueueRendering.install, Option.some.injEq] at hcur ⊢
    omega

theorem Sound.maintain (h : Sound s) : Sound (maintain s).1 := by
  have hs := h.supersede
  simp only [QueueRendering.maintain]
  split
  · exact h
  · split
    · split
      · exact hs
      · split
        · exact hs
        · next m hm =>
          split
          · next i hi =>
            have hlast := hs.latest (Option.filter_eq_some_iff.mp hi).1
            split
            · exact hs.giveUp (by omega)
            · exact hs
          · exact hs.install hm
    · exact hs

theorem Sound.change (h : Sound s) {e : Change α} (he : Proper s e) : Sound (change s e) := by
  cases e with
  | page p => exact h.page he.1
  | render q c a items full => exact (h.feed q a items).compute c a full
  | overtake c f => exact h.place fun k hk => nomatch hk
  | call i a full => exact h.wrapped he.1 a full
  | maintain => exact h.maintain

variable {rest : Option Rest}

/-- What was on duty still is, its component shows the same, and nothing has happened to it. -/
theorem Good.of_spares (h : Good rest s)
    (hs : ∀ i, OnDuty s' i → OnDuty s i ∧ Spares i s s' ∧
      s'.page.itemsToRender (s.states i).c = s.page.itemsToRender (s.states i).c) :
    Good rest s' := by
  intro i hi given hg
  obtain ⟨hold, hspares, hshown⟩ := hs i hi
  rw [hspares.given] at hg
  exact hspares.shows hshown (h i hold given hg)

theorem Good.feed (h : Good rest s) {q : ℕ} {a : Value} {items : ℕ → List α} (hi : OnDuty s i)
    (hq : q ≠ (s.states i).q)
    (hitems : ∀ r, s.page.data (s.states i).q = .array r → items r = s.page.items r)
    {given : Option (List α)} (hg : s.given i = some given) :
    Shows rest (s.feed q a items) i given := by
  rcases h i hi given hg with hshown | ⟨r, hr, hdata, hgiven, hshown, hpending⟩
  · exact .inl hshown
  · have hsame : items r = s.page.items r := hitems r hdata
    refine .inr ⟨r, hr, ?_, ?_, ?_, ?_⟩
    · simpa [State.feed, Ne.symm hq] using hdata
    · simpa [State.feed, hsame] using hgiven
    · simpa [State.feed, hsame] using hshown
    · intro hlt
      exact hpending (by simpa [State.feed, hsame] using hlt)

/-- The component that computes is that of the state on duty, or another one. -/
theorem Sound.compute_shows (h : Sound s) {c : ℕ} {a full : Value}
    (hother : ∀ given, OnDuty s i → s.given i = some given → c ≠ (s.states i).c →
      Shows rest s i given)
    (hi : OnDuty (QueueRendering.compute c a full s) i) {given : Option (List α)}
    (hg : (QueueRendering.compute c a full s).given i = some given) :
    Shows rest (QueueRendering.compute c a full s) i given := by
  simp only [QueueRendering.compute] at hi hg ⊢
  split at hi
  · next j hj =>
    obtain ⟨hlt, hc⟩ := h.placed hj
    have hstays := stays_wrapped s j a full
    have hduty : OnDuty s i := by
      refine ⟨hstays.current ▸ hi.1, ?_⟩
      have := hi.2
      simp only [setItems_states, setItems_compute] at this
      rwa [hstays.page, hstays.c] at this
    simp only [hj] at hg ⊢
    by_cases hij : i = j
    · subst hij
      simp only [setItems_given, Function.update_self, Option.some.injEq] at hg
      subst hg
      rw [← hc]
      exact h.wrapped_shows hlt a full rest
    · simp only [setItems_given, Function.update_of_ne hij] at hg
      rw [hstays.given] at hg
      have hne : c ≠ (s.states i).c := by
        rintro rfl
        rw [hduty.2] at hj
        cases hj
        exact hij rfl
      have hspares := h.spares_wrapped hlt hij a full
      refine Spares.shows ?_ ?_ (hother given hduty hg hne)
      · refine ⟨hspares.states, hspares.current, ?_, hspares.data, hspares.items, hspares.live⟩
        simp only [setItems_given, Function.update_of_ne hij]
        exact hspares.given
      · simp only [setItems_itemsToRender, Function.update_of_ne (Ne.symm hne)]
        rw [hstays.page]
  · next hj =>
    have hne : c ≠ (s.states i).c := by
      rintro rfl
      exact hj i hi.2
    refine (spares_setItems s i c _).shows ?_ (hother given hi ?_ hne)
    · simp [Ne.symm hne]
    · simpa using hg

/-- Where a wrapper has been put back, it is not that of the state on duty. -/
theorem Sound.onDuty_restore (h : Sound s) (hj : j < s.count)
    (hi : OnDuty (QueueRendering.restore j s) i) : OnDuty s i ∧ i ≠ j := by
  have hcur : s.current = some i := by
    have := hi.1
    simp only [QueueRendering.restore] at this
    split at this <;> exact this
  have hlast := h.latest hcur
  have hduty := hi.2
  simp only [QueueRendering.restore] at hduty
  split at hduty
  · have hij : i ≠ j := by
      rintro rfl
      simp only [place_compute, place_states, cancel_self, Function.update_self,
        Option.some.injEq] at hduty
      have := (h.replaced hj hduty).1
      omega
    simp only [place_compute, place_states, cancel_self, ne_eq, hij, not_false_eq_true,
      cancel_other] at hduty
    have hc : (s.states i).c ≠ (s.states j).c := by
      intro hc
      simp only [hc, Function.update_self, Option.some.injEq] at hduty
      have := (h.replaced hj hduty).1
      omega
    rw [Function.update_of_ne hc] at hduty
    exact ⟨⟨hcur, hduty⟩, hij⟩
  · next hplaced =>
    have hij : i ≠ j := by
      rintro rfl
      exact hplaced hduty
    simp only [cancel_page, ne_eq, hij, not_false_eq_true, cancel_other] at hduty
    exact ⟨⟨hcur, hduty⟩, hij⟩

theorem restore_shown (s : State α) (j : ℕ) :
    (restore j s).page.itemsToRender = s.page.itemsToRender := by
  simp only [restore]
  split <;> rfl

theorem Good.restore (h : Good rest s) (hs : Sound s) (hj : j < s.count) :
    Good rest (restore j s) := by
  apply h.of_spares
  intro i hi
  obtain ⟨hduty, hij⟩ := hs.onDuty_restore hj hi
  exact ⟨hduty, hs.spares_restore hij, by rw [restore_shown]⟩

theorem onDuty_modify {f : Rendering → Rendering} (hf : Keeps f) (hi : OnDuty (s.modify j f) i) :
    OnDuty s i := by
  obtain ⟨hcur, hduty⟩ := hi
  rw [(stays_modify s j hf).c] at hduty
  exact ⟨hcur, hduty⟩

theorem Sound.onDuty_giveUp (h : Sound s) (hj : j < s.count)
    (hi : OnDuty (QueueRendering.giveUp j s) i) :
    OnDuty s i ∧ i ≠ j :=
  h.onDuty_restore hj (onDuty_modify keeps_failed hi)

theorem Good.giveUp (h : Good rest s) (hs : Sound s) (hj : j < s.count) :
    Good rest (giveUp j s) := by
  apply h.of_spares
  intro i hi
  obtain ⟨hduty, hij⟩ := hs.onDuty_giveUp hj hi
  refine ⟨hduty, hs.spares_giveUp hij, ?_⟩
  rw [QueueRendering.giveUp, modify_page, restore_shown]

theorem good_forget (s : State α) : Good rest { s with current := none } :=
  fun _ hi => nomatch hi.1

theorem Good.supersede (h : Good rest s) : Good rest (supersede s) := by
  simp only [QueueRendering.supersede]
  split
  · split
    · exact good_forget _
    · exact h
  · exact h

theorem good_install (s : State α) (q c : ℕ) (m : Method) : Good rest (install q c m s) := by
  intro i hi given hg
  obtain rfl : s.count = i := Option.some.inj hi.1
  simp [install] at hg

theorem Good.maintain (h : Good rest s) (hs : Sound s) : Good rest (maintain s).1 := by
  have hgood := h.supersede
  have hsound := hs.supersede
  simp only [QueueRendering.maintain]
  split
  · exact h
  · split
    · split
      · exact hgood
      · split
        · exact hgood
        · split
          · next i hi =>
            have hlast := hsound.latest (Option.filter_eq_some_iff.mp hi).1
            split
            · exact hgood.giveUp hsound (by omega)
            · exact hgood
          · exact good_install _ _ _ _
    · exact hgood

theorem Good.change (h : Good rest s) (hs : Sound s) {e : Change α} (he : Proper s e) :
    Good rest (change s e) := by
  cases e with
  | page p =>
    obtain ⟨hcompute, hshown, hdata, hitems⟩ := he
    intro i hi given hg
    have hduty : OnDuty s i := ⟨hi.1, hcompute ▸ hi.2⟩
    have hsame := hitems i hduty.1
    rcases h i hduty given hg with ⟨hin, hs'⟩ | ⟨r, hr, hd, hgiven, hs', hpending⟩
    · exact .inl ⟨hin, by simpa [QueueRendering.change, hshown] using hs'⟩
    · have hr' : p.items r = s.page.items r := hsame r hd
      refine .inr ⟨r, hr, ?_, ?_, ?_, ?_⟩
      · simpa [QueueRendering.change, hdata] using hd
      · simpa [QueueRendering.change, hr'] using hgiven
      · simpa [QueueRendering.change, hshown, hr'] using hs'
      · intro hlt
        exact hpending (by simpa [QueueRendering.change, hr'] using hlt)
  | render q c a items full =>
    intro i hi given hg
    apply (hs.feed q a items).compute_shows ?_ hi hg
    intro given' hduty hg' hne
    obtain ⟨hqc, hitems⟩ := he i hduty.1
    have hq : q ≠ (s.states i).q := fun e => hne (hqc e)
    exact h.feed hduty hq (hitems hq) hg'
  | overtake c f =>
    apply h.of_spares
    intro i hi
    have hne : (s.states i).c ≠ c := by
      intro hc
      have := hi.2
      simp [QueueRendering.change, hc] at this
    refine ⟨⟨hi.1, ?_⟩, spares_place .., rfl⟩
    have := hi.2
    simpa [QueueRendering.change, hne] using this
  | call j a full =>
    obtain ⟨hj, hfree⟩ := he
    have hstays := stays_wrapped s j a full
    apply h.of_spares
    intro i hi
    have hduty : OnDuty s i := by
      refine ⟨hstays.current ▸ hi.1, ?_⟩
      have := hi.2
      simp only [QueueRendering.change] at this
      rwa [hstays.page, hstays.c] at this
    have hij : i ≠ j := by
      rintro rfl
      exact hfree hduty
    refine ⟨hduty, hs.spares_wrapped hj hij a full, ?_⟩
    simp only [QueueRendering.change]
    rw [hstays.page]
  | maintain => exact h.maintain hs

/-! ### Timers that go off -/

theorem restore_states_c (s : State α) (j k : ℕ) : ((restore j s).states k).c = (s.states k).c := by
  have := (stays_cancel s j).c k
  simp only [restore]
  split <;> exact this

theorem Sound.onDuty_fail (h : Sound s) (hj : j < s.count) {answer : Option (Option (List α))}
    (hi : OnDuty (QueueRendering.fail j answer s) i) : OnDuty s i ∧ i ≠ j := by
  have hup : OnDuty (QueueRendering.giveUp j s) i := by
    simp only [QueueRendering.fail] at hi
    split at hi
    · cases answer with
      | none => exact hi
      | some items => exact hi
    · exact hi
  exact h.onDuty_giveUp hj hup

theorem fail_shown {c : ℕ} (hne : c ≠ (s.states j).c) (answer : Option (Option (List α))) :
    (fail j answer s).page.itemsToRender c = s.page.itemsToRender c := by
  have hc : ((giveUp j s).states j).c = (s.states j).c := by
    rw [giveUp, (stays_modify _ j keeps_failed).c, restore_states_c]
  have hup : (giveUp j s).page.itemsToRender = s.page.itemsToRender := restore_shown s j
  simp only [fail]
  split
  · cases answer with
    | none => exact congrFun hup c
    | some items =>
      rw [setItems_itemsToRender]
      change Function.update (giveUp j s).page.itemsToRender ((giveUp j s).states j).c items c = _
      rw [hc, Function.update_of_ne hne, hup]
  · exact congrFun hup c

/-- The rest of a timer is no business of a state that is not on duty. -/
theorem Good.settled {t : Rest} (h : Good (some t) s) (ht : ¬OnDuty s t.state) : Good none s := by
  intro i hi given hg
  have hne : t.state ≠ i := by
    rintro rfl
    exact ht hi
  rcases h i hi given hg with hs | ⟨a, ha, hdata, hgiven, hshown, hpending⟩
  · exact .inl hs
  · refine .inr ⟨a, ha, hdata, hgiven, hshown, fun hlt => .inl ?_⟩
    rcases hpending hlt with hl | hr
    · exact hl
    · cases hr
      exact absurd rfl hne

theorem Good.remove_stale (h : Good rest s) {id : ℕ} (hid : s.timers id = some ⟨j, a, g⟩)
    (hstale : g ≠ (s.states j).generation) : Good rest (s.remove id) := by
  apply h.of_spares
  intro i hi
  refine ⟨hi, ⟨rfl, rfl, rfl, rfl, rfl, ?_⟩, rfl⟩
  rintro b ⟨n, hn⟩
  have hne : n ≠ id := by
    rintro rfl
    rw [hid] at hn
    cases hn
    exact hstale rfl
  exact ⟨n, by simpa [hne] using hn⟩

theorem live_pop {id : ℕ} (hid : s.timers id = some ⟨j, a, g⟩) (hne : i ≠ j) {b : ℕ}
    (h : Live s i b) : Live ((s.remove id).modify j unset) i b := by
  obtain ⟨n, hn⟩ := h
  have : n ≠ id := by
    rintro rfl
    rw [hid] at hn
    cases hn
    exact hne rfl
  exact ⟨n, by simpa [this, hne] using hn⟩

/-- A timer that goes off leaves its rest to be done. -/
theorem Good.pop (h : Good none s) {id : ℕ}
    (hid : s.timers id = some ⟨j, a, (s.states j).generation⟩)
    (ha : (s.states j).input = some a) :
    Good (some ⟨j, a, (s.states j).generation, (s.states j).size⟩)
      ((s.remove id).modify j unset) := by
  intro i hi given hg
  by_cases hij : i = j
  · subst hij
    have hduty : OnDuty s i := ⟨hi.1, by simpa [unset] using hi.2⟩
    rcases h i hduty given hg with ⟨hin, -⟩ | ⟨b, hb, hdata, hgiven, hshown, -⟩
    · rw [ha] at hin
      cases hin
    · rw [ha] at hb
      cases hb
      refine .inr ⟨a, ?_, ?_, hgiven, ?_, fun _ => .inr ?_⟩
      · simpa [unset] using ha
      · simpa [unset] using hdata
      · simpa [unset] using hshown
      · simp [unset]
  · have hduty : OnDuty s i := ⟨hi.1, by simpa [hij] using hi.2⟩
    have hspares : Spares i s ((s.remove id).modify j unset) :=
      ⟨by simp [hij], rfl, rfl, rfl, rfl, live_pop hid hij⟩
    exact (hspares.shows rfl (h i hduty given hg)).rests _

/-- Each other state on duty shows what it did. -/
theorem Good.but {t : Rest} (h : Good (some t) s) (hne : i ≠ t.state) (hi : OnDuty s i)
    {given : Option (List α)} (hg : s.given i = some given) : Shows none s i given := by
  rcases h i hi given hg with hs | ⟨a, ha, hdata, hgiven, hshown, hpending⟩
  · exact .inl hs
  · refine .inr ⟨a, ha, hdata, hgiven, hshown, fun hlt => .inl ?_⟩
    rcases hpending hlt with hl | hr
    · exact hl
    · cases hr
      exact absurd rfl hne

theorem schedule_state (s : State α) (j a g i : ℕ) :
    ((schedule j a g s).states i).input = (s.states i).input ∧
      ((schedule j a g s).states i).size = (s.states i).size := by
  by_cases hij : i = j
  · subst hij
    simp
  · simp [hij]

theorem Good.proceed {size : ℕ} (hs : Sound s) (h : Good (some ⟨j, a, g, size⟩) s) :
    Good none (proceed j a g size s) := by
  intro i hi given hg
  simp only [QueueRendering.proceed] at hi hg ⊢
  split at hi
  · next hcond =>
    have hstays := stays_schedule s j a g
    have hduty : OnDuty s i := ⟨hi.1, by rw [← hstays.c]; exact hi.2⟩
    rw [if_pos hcond] at hg ⊢
    rcases h i hduty given hg with ⟨hin, hshown⟩ | ⟨b, hb, hdata, hgiven, hshown, hpending⟩
    · refine .inl ⟨(schedule_state ..).1.trans hin, ?_⟩
      rw [hstays.c]
      exact hshown
    · refine .inr ⟨b, (schedule_state ..).1.trans hb, ?_, hgiven, ?_, fun hlt => .inl ?_⟩
      · rw [hstays.q]
        exact hdata
      · rw [hstays.c, (schedule_state ..).2]
        exact hshown
      · rw [(schedule_state ..).2] at hlt
        rcases hpending hlt with hl | hr
        · exact hs.live_schedule hl
        · cases hr
          exact live_schedule s _ a
  · next hcond =>
    rw [if_neg hcond] at hg ⊢
    rcases h i hi given hg with hshown | ⟨b, hb, hdata, hgiven, hshown, hpending⟩
    · exact .inl hshown
    · refine .inr ⟨b, hb, hdata, hgiven, hshown, fun hlt => .inl ?_⟩
      rcases hpending hlt with hl | hr
      · exact hl
      · cases hr
        exact absurd ⟨rfl, hb, hdata, hlt⟩ hcond

/-- The items that a timer sets are the front of the array, with its rest still to be done. -/
theorem Good.present (h : Good (some ⟨j, a, g, (s.states j).size⟩) s)
    (hg : g = (s.states j).generation) (ha : (s.states j).input = some a)
    (hplaced : s.page.computeShowItemsToRender (s.states j).c = some (.wrapped j)) :
    Good (some ⟨j, a, g, following s j a⟩) (present j a (grow j a s)) := by
  intro i hi given hgiven
  have hc : ((grow j a s).states i).c = (s.states i).c := by
    by_cases hij : i = j
    · subst hij
      simp [grow]
    · simp [grow, hij]
  have hduty : OnDuty s i := ⟨hi.1, by rw [← hc]; exact hi.2⟩
  by_cases hij : i = j
  · subst hij
    rcases h i hduty given hgiven with ⟨hin, -⟩ | ⟨b, hb, hdata, hgiven', hshown, -⟩
    · rw [ha] at hin
      cases hin
    · rw [ha] at hb
      cases hb
      refine .inr ⟨a, ?_, ?_, hgiven', ?_, fun _ => .inr ?_⟩
      · simpa [QueueRendering.present, grow] using ha
      · simpa [QueueRendering.present, grow] using hdata
      · simp [QueueRendering.present, grow]
      · simp [QueueRendering.present, grow, hg]
  · have hne : (s.states i).c ≠ (s.states j).c := by
      intro he
      have := hduty.2
      rw [he, hplaced] at this
      cases this
      exact hij rfl
    have hspares : Spares i s (QueueRendering.present j a (grow j a s)) :=
      (spares_modify s hij _).trans (spares_setItems ..)
    have hs' := hspares.shows ?_ (h.but hij hduty hgiven)
    · exact hs'.rests _
    · simp [QueueRendering.present, grow, hne]

/-! ### Runs -/

def ProperAll (s : State α) : List (Change α) → Prop
  | [] => True
  | e :: es => Proper s e ∧ ProperAll (change s e) es

theorem Good.changes {es : List (Change α)} (hs : Sound s) (h : Good rest s)
    (hp : ProperAll s es) :
    Sound (es.foldl QueueRendering.change s) ∧
      Good rest (es.foldl QueueRendering.change s) := by
  induction es generalizing s with
  | nil => exact ⟨hs, h⟩
  | cons e es ih => exact ih (hs.change hp.1) (h.change hs hp.1) hp.2

/-- What happens while a timer sets its items is proper where it happens. -/
def ProperEvent (s : State α) : Event α → Prop
  | .change e => Proper s e
  | .fire _ (.thrown _) => True
  | .fire id (.done changes) =>
    ∀ t, s.timers id = some t →
      ProperAll (present t.state t.a (grow t.state t.a ((s.remove id).modify t.state unset)))
        changes

theorem keeps_sized (n : ℕ) : Keeps fun x => { x with size := n } :=
  ⟨fun _ => rfl, fun _ => rfl, fun _ => rfl, fun _ => rfl, fun _ => rfl⟩

theorem Sound.proceed {size : ℕ} (h : Sound s) (hj : j < s.count) :
    Sound (proceed j a g size s) := by
  simp only [QueueRendering.proceed]
  split
  · next hcond =>
    rw [hcond.1]
    exact h.schedule hj hcond.2.1
  · exact h

theorem Sound.resume (hs : Sound s) (hj : j < s.count) (hg : g = (s.states j).generation)
    (ha : (s.states j).input = some a) {setting : Setting α}
    (hp : ∀ changes, setting = .done changes → ProperAll (present j a (grow j a s)) changes)
    (h : Good (some ⟨j, a, g, (s.states j).size⟩) s) :
    Sound (resume j a g setting s) ∧ Good none (resume j a g setting s) := by
  have hgrow : Sound (grow j a s) := hs.modify j (keeps_sized (following s j a)) fun _ => rfl
  simp only [QueueRendering.resume]
  split
  · split
    · exact ⟨(hs.restore hj).forget, good_forget _⟩
    · exact ⟨hs.restore hj, (h.restore hs hj).settled fun hd => (hs.onDuty_restore hj hd).2 rfl⟩
  · split
    · exact ⟨hs.giveUp hj, (h.giveUp hs hj).settled fun hd => (hs.onDuty_giveUp hj hd).2 rfl⟩
    · next hplaced =>
      rw [ne_eq, not_not] at hplaced
      split
      · next hother =>
        refine ⟨hs.cancel j, ?_⟩
        intro i hi given hgiven
        have hduty : OnDuty s i := ⟨hi.1, by rw [← (stays_cancel s j).c]; exact hi.2⟩
        by_cases hij : i = j
        · -- the state on duty gives out the data of its element, and this timer was for it
          subst hij
          rcases h i hduty given hgiven with ⟨hin, -⟩ | ⟨b, hb, hdata, -⟩
          · rw [ha] at hin
            cases hin
          · rw [ha] at hb
            cases hb
            exact absurd hother (by simp [ha, hdata])
        · exact (hs.spares_cancel hij).shows rfl (h.but hij hduty hgiven)
      · split
        · next hfull =>
          refine ⟨hs, ?_⟩
          intro i hi given hgiven
          by_cases hij : i = j
          · subst hij
            rcases h i hi given hgiven with hshown | ⟨b, hb, hdata, hgiven', hshown, -⟩
            · exact .inl hshown
            · rw [ha] at hb
              cases hb
              refine .inr ⟨a, ha, hdata, hgiven', hshown, fun hlt => ?_⟩
              simp only [following] at hfull
              omega
          · exact h.but hij hi hgiven
        · cases setting with
          | thrown answer =>
            refine ⟨hgrow.fail hj answer, ?_⟩
            intro i hi given hgiven
            obtain ⟨hgrown, hij⟩ := hgrow.onDuty_fail hj hi
            have hduty : OnDuty s i := onDuty_modify (keeps_sized (following s j a)) hgrown
            have hspares := (spares_modify s hij _).trans (hgrow.spares_fail hij answer)
            have hgiven' : s.given i = some given := by
              rw [← hspares.given]
              exact hgiven
            refine hspares.shows ?_ (h.but hij hduty hgiven')
            have hne : (s.states i).c ≠ ((grow j a s).states j).c := by
              intro he
              have := hduty.2
              rw [he, grow, modify_self, hplaced] at this
              cases this
              exact hij rfl
            exact fail_shown hne answer
          | done changes =>
            have hpresent := Good.present h hg ha hplaced
            have hcount := (advances_changes (present j a (grow j a s)) changes).count
            obtain ⟨hs', hgood⟩ := hpresent.changes (hgrow.setItems _ _) (hp changes rfl)
            exact ⟨hs'.proceed (Nat.lt_of_lt_of_le hj hcount), hgood.proceed hs'⟩

theorem step_good (hs : Sound s) (h : Good none s) {e : Event α} (he : ProperEvent s e) :
    Sound (step s e) ∧ Good none (step s e) := by
  cases e with
  | change e => exact ⟨hs.change he, h.change hs he⟩
  | fire id setting =>
    simp only [step, fire]
    split
    · exact ⟨hs, h⟩
    · next i a g hid =>
      split
      · next hstale => exact ⟨hs.drop hid hstale, h.remove_stale hid hstale⟩
      · next hlive =>
        rw [ne_eq, not_not] at hlive
        subst hlive
        have ha := hs.same hid rfl
        refine (hs.take hid).resume (hs.owner hid) ?_ ?_ ?_ ?_
        · simp [unset]
        · simpa [unset] using ha
        · rintro changes rfl
          exact he _ hid
        · have := h.pop hid ha
          simpa [unset] using this

def ProperRun (s : State α) : List (Event α) → Prop
  | [] => True
  | e :: es => ProperEvent s e ∧ ProperRun (step s e) es

theorem run_good {es : List (Event α)} (hs : Sound s) (h : Good none s) (hp : ProperRun s es) :
    Sound (run s es) ∧ Good none (run s es) := by
  induction es generalizing s with
  | nil => exact ⟨hs, h⟩
  | cons e es ih =>
    obtain ⟨hs', h'⟩ := step_good hs h hp.1
    exact ih hs' h' hp.2

theorem good_initial (p : Page α) : Good none (initial p) := fun _ hi => nomatch hi.1

/-- Timers that go off one after the other, with nothing else in between. -/
def fires (ids : List ℕ) : List (Event α) := ids.map fun id => .fire id (.done [])

/-- The next timer of a state on duty gives out four items more, or the rest. -/
theorem fire_grows (hi : OnDuty s i) (hconnected : connected s.page (s.states i))
    (ha : (s.states i).input = some a) (hdata : s.page.data (s.states i).q = .array a)
    (hlt : (s.states i).size < (s.page.items a).length) (hlive : Live s i a) :
    ∃ id, let t := step s (.fire id (.done []))
      OnDuty t i ∧ connected t.page (t.states i) ∧ t.given = s.given ∧
        (t.states i).input = some a ∧ t.page.items = s.page.items ∧
        (t.states i).c = (s.states i).c ∧
        min (s.page.items a).length ((s.states i).size + 4) ≤ (t.states i).size := by
  obtain ⟨id, hid⟩ := hlive
  refine ⟨id, ?_⟩
  let u := (s.remove id).modify i unset
  have hstep : step s (.fire id (.done [])) =
      proceed i a (s.states i).generation (following u i a) (present i a (grow i a u)) := by
    have hnext : ¬following u i a ≤ (u.states i).size := by
      simp only [following, u, modify_page, remove_page, modify_self, remove_states, unset]
      omega
    simp only [step, fire, hid, ne_eq, not_true_eq_false, if_false]
    rw [resume, if_neg, if_neg, if_neg, if_neg hnext]
    · rfl
    · simp [unset, ha, hdata]
    · simp [unset, hi.2]
    · simpa [u, unset, connected] using hconnected
  have hstays : Stays (present i a (grow i a u)) (step s (.fire id (.done []))) := by
    rw [hstep, proceed]
    split
    · exact stays_schedule ..
    · exact .refl _
  have hstate : ((step s (.fire id (.done []))).states i).input = some a ∧
      ((step s (.fire id (.done []))).states i).size = following u i a := by
    rw [hstep, proceed]
    split
    · rw [(schedule_state ..).1, (schedule_state ..).2]
      simp [present, grow, u, unset, ha]
    · simp [present, grow, u, unset, ha]
  have hq : ((step s (.fire id (.done []))).states i).q = (s.states i).q := by
    rw [hstays.q]
    simp [present, grow, u, unset]
  have hc : ((step s (.fire id (.done []))).states i).c = (s.states i).c := by
    rw [hstays.c]
    simp [present, grow, u, unset]
  refine ⟨⟨?_, ?_⟩, ?_, hstays.given, hstate.1, ?_, hc, ?_⟩
  · rw [hstays.current]
    exact hi.1
  · rw [hc, hstays.page]
    exact hi.2
  · rw [connected, hq, hc, hstays.page]
    exact hconnected
  · rw [hstays.page]
    rfl
  · rw [hstate.2]
    simp only [following, u, modify_page, remove_page, modify_self, remove_states, unset]
    omega

/-- As many timers as it takes, four items with each, show the queue whole. -/
theorem completes {n : ℕ} (hs : Sound s) (h : Good none s) (hi : OnDuty s i)
    (hconnected : connected s.page (s.states i)) {given : Option (List α)}
    (hgiven : s.given i = some given)
    (hn : ∀ l, given = some l → l.length ≤ (s.states i).size + 4 * n) :
    ∃ ids : List ℕ, ids.length ≤ n ∧
      (run s (fires ids)).page.itemsToRender (s.states i).c = given := by
  induction n generalizing s with
  | zero =>
    refine ⟨[], Nat.le_refl _, ?_⟩
    rcases h i hi given hgiven with ⟨-, hshown⟩ | ⟨a, ha, hdata, hitems, hshown, -⟩
    · exact hshown
    · have := hn _ hitems
      rw [List.take_of_length_le (by omega)] at hshown
      exact hshown.trans hitems.symm
  | succ n ih =>
    rcases h i hi given hgiven with ⟨-, hshown⟩ | ⟨a, ha, hdata, hitems, hshown, hpending⟩
    · exact ⟨[], Nat.zero_le _, hshown⟩
    · by_cases hlt : (s.states i).size < (s.page.items a).length
      · have hlive : Live s i a := (hpending hlt).live
        obtain ⟨id, hduty, hconnected', hsame, -, hpage, hc, hsize⟩ :=
          fire_grows hi hconnected ha hdata hlt hlive
        have hproper : ProperEvent s (.fire id (.done [])) := fun _ _ => trivial
        obtain ⟨hs', h'⟩ := step_good hs h hproper
        obtain ⟨ids, hlength, hdone⟩ := ih hs' h' hduty hconnected' (hsame ▸ hgiven) fun l hl => by
          have := hn l hl
          rw [hitems, Option.some.injEq] at hl
          rw [← hl] at this ⊢
          omega
        refine ⟨id :: ids, Nat.succ_le_succ hlength, ?_⟩
        rw [hc] at hdone
        exact hdone
      · refine ⟨[], Nat.zero_le _, ?_⟩
        rw [List.take_of_length_le (by omega)] at hshown
        exact hshown.trans hitems.symm

/-- In every run of a proper page the component of the state on duty shows the front of what the
page's own function gave last; and while it is connected, at most one timer for each four items
shows the whole, whatever of it is shown. -/
theorem queue_completes {p : Page α} (hp : Untouched p) {es : List (Event α)}
    (hes : ProperRun (initial p) es) {i : ℕ} (hi : OnDuty (run (initial p) es) i)
    {given : Option (List α)} (hgiven : (run (initial p) es).given i = some given) :
    let s := run (initial p) es
    (∃ n, s.page.itemsToRender (s.states i).c = given.map (List.take n)) ∧
      (connected s.page (s.states i) →
        ∃ ids : List ℕ, ids.length ≤ ((given.getD []).length + 3) / 4 ∧
          (run s (fires ids)).page.itemsToRender (s.states i).c = given) := by
  obtain ⟨hs, h⟩ := run_good (sound_initial hp) (good_initial p) hes
  refine ⟨?_, fun hconnected => ?_⟩
  · rcases h i hi given hgiven with ⟨-, hshown⟩ | ⟨a, ha, hdata, hitems, hshown, -⟩
    · refine ⟨(given.getD []).length, ?_⟩
      rw [hshown]
      cases given with
      | none => rfl
      | some l => simp
    · exact ⟨_, hshown.trans (by rw [hitems]; rfl)⟩
  · refine completes hs h hi hconnected hgiven fun l hl => ?_
    subst hl
    simp only [Option.getD_some]
    omega

def sixItems : Page ℕ where
  home := true
  queue := some 0
  inst _ := some 0
  polymerController _ := some 0
  isConnected _ := true
  data _ := .other 0
  items _ := []
  computeShowItemsToRender _ := some (.own 0)
  setProperties _ := true
  selectedQueueItemIndex _ := none
  itemsToRender _ := none

/-- The script is evaluated, and then the page computes a queue of six. -/
def computed : List (Event ℕ) :=
  [.change .maintain, .change (.render 0 0 (.array 1) (fun _ => [1, 2, 3, 4, 5, 6]) (.array 1))]

theorem sixItems_untouched : Untouched sixItems := fun _ _ h => nomatch h

theorem computed_proper : ProperRun (initial sixItems) computed := by
  refine ⟨trivial, ?_, trivial⟩
  intro i hi
  obtain rfl : 0 = i := Option.some.inj hi
  exact ⟨fun _ => rfl, fun h => absurd rfl h⟩

theorem sixItems_complete : ∃ ids : List ℕ, ids.length ≤ 2 ∧
    (run (run (initial sixItems) computed) (fires ids)).page.itemsToRender 0 =
      some [1, 2, 3, 4, 5, 6] :=
  (queue_completes sixItems_untouched computed_proper (i := 0) ⟨rfl, rfl⟩ rfl).2 rfl

/-- While the array and its generation stay, whatever else happens, nothing that is shown of a queue
is taken back. -/
theorem queue_grows {p : Page α} (hp : Untouched p) {es fs : List (Event α)}
    (hes : ProperRun (initial p) es) (hfs : ProperRun (run (initial p) es) fs) {i a : ℕ}
    (hi : OnDuty (run (initial p) es) i)
    (hgiven : ((run (initial p) es).given i).isSome)
    (ha : ((run (initial p) es).states i).input = some a)
    (hi' : OnDuty (run (initial p) (es ++ fs)) i)
    (hgeneration : ((run (initial p) (es ++ fs)).states i).generation =
      ((run (initial p) es).states i).generation)
    (hitems : (run (initial p) (es ++ fs)).page.items a = (run (initial p) es).page.items a) :
    ∃ l l', (run (initial p) es).page.itemsToRender ((run (initial p) es).states i).c = some l ∧
      (run (initial p) (es ++ fs)).page.itemsToRender
        ((run (initial p) (es ++ fs)).states i).c = some l' ∧ l <+: l' := by
  obtain ⟨hs, h⟩ := run_good (sound_initial hp) (good_initial p) hes
  obtain ⟨hs', h'⟩ := run_good hs h hfs
  have happend : run (initial p) (es ++ fs) = run (run (initial p) es) fs := List.foldl_append
  rw [happend] at hi' hgeneration hitems ⊢
  generalize run (initial p) es = s at *
  have hadvances := advances_run s fs
  have hlast := hs.latest hi.1
  have hlater := hadvances.states (i := i) (by omega)
  have ha' : ((run s fs).states i).input = some a := (hlater.input hgeneration).trans ha
  obtain ⟨given, hg⟩ := Option.isSome_iff_exists.mp hgiven
  obtain ⟨given', hg'⟩ := Option.isSome_iff_exists.mp (hadvances.given (by omega) hgiven)
  rcases h i hi given hg with ⟨hin, -⟩ | ⟨b, hb, -, -, hshown, -⟩
  · rw [ha] at hin
    cases hin
  rcases h' i hi' given' hg' with ⟨hin, -⟩ | ⟨b', hb', -, -, hshown', -⟩
  · rw [ha'] at hin
    cases hin
  rw [ha] at hb
  cases hb
  rw [ha'] at hb'
  cases hb'
  refine ⟨_, _, hshown, hshown', ?_⟩
  rw [hitems]
  exact List.take_prefix_take_left (hlater.size hgeneration)

theorem sixItems_grow : ∃ l l',
    (run (initial sixItems) computed).page.itemsToRender 0 = some l ∧
      (run (initial sixItems) (computed ++ fires [0])).page.itemsToRender 0 = some l' ∧
        l <+: l' := by
  have hfires : ProperRun (run (initial sixItems) computed) (fires [0]) :=
    ⟨fun _ _ => trivial, trivial⟩
  exact queue_grows (a := 1) (i := 0) sixItems_untouched computed_proper hfires ⟨rfl, rfl⟩ rfl rfl
    ⟨rfl, rfl⟩ rfl rfl

end ForgeOS.Native.QueueRendering
