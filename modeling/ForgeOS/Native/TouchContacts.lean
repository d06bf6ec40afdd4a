import ForgeOS.Native.Touch

/-! The contacts behind the events of a touch screen, and that the gestures are theirs. A contact
begins when a slot gets a tracking id that it did not have and ends when it loses it. It leads
when it goes down while no contact leads and none that did was lifted in the same frame. -/

namespace ForgeOS.Native.Touch

open ForgeOS.Library.Conditions

/-! ### Contacts -/

structure Contact where
  id : ℤ
  leads : Bool
  /-- Where the contact was at the end of the frame in which it went down. -/
  begun : Option (ℤ × ℤ)
  deriving DecidableEq, Repr

/-- What the events say of the contacts on a device. -/
structure Observer where
  slot : ℤ
  x : ℤ → ℤ
  y : ℤ → ℤ
  held : ℤ → Option Contact
  /-- The leading contact that was lifted in this frame, and where. -/
  lifted : Option (Contact × ℤ × ℤ)
  dropped : Bool

/-- The contact that a tracking value names. With a single contact it has no name. -/
def Device.contact (d : Device) (value : ℤ) : Option ℤ :=
  if d.isDown value then some (if d.mt then value else 0) else none

/-- The slot and the places of all slots, where they can be read. -/
def Readout.slotTable (d : Device) (r : Readout) : Option (ℤ × (ℤ → ℤ) × (ℤ → ℤ)) :=
  match r.mtX, r.mtY, r.mtSlot with
  | some x, some y, some slot => if d.Slot slot then some (slot, x, y) else none
  | _, _, _ => none

def Readout.singleTable (r : Readout) : Option (ℤ × (ℤ → ℤ) × (ℤ → ℤ)) :=
  match r.legacyX, r.legacyY with
  | some x, some y => some (0, fun _ => x, fun _ => y)
  | _, _ => none

def Readout.table (d : Device) (r : Readout) : Option (ℤ × (ℤ → ℤ) × (ℤ → ℤ)) :=
  if d.mt then r.slotTable d else r.singleTable

namespace Observer

variable (d : Device)

/-- Whether a contact leads. -/
def led (o : Observer) : Bool :=
  (List.range d.count.toNat).any fun i => (o.held i).any Contact.leads

/-- The contact of a slot is lifted. -/
def lift (o : Observer) : Observer :=
  match o.held o.slot with
  | none => o
  | some c =>
    { o with
      held := Function.update o.held o.slot none
      lifted := if c.leads then some (c, o.x o.slot, o.y o.slot) else o.lifted }

/-- A contact goes down, unless it is the one that the slot holds. -/
def land (o : Observer) (id : ℤ) : Observer :=
  if (o.held o.slot).any fun c => c.id == id then o
  else
    { o with
      held := Function.update o.held o.slot
        (some ⟨id, !o.led d && o.lifted.isNone, none⟩) }

/-- Where the leading contact is at the end of its first frame is where it began. -/
def endFrame (o : Observer) : Observer :=
  { o with
    held := fun i => (o.held i).map fun c =>
      if c.leads && c.begun.isNone then { c with begun := some (o.x i, o.y i) } else c
    lifted := none }

/-- From here on no contact that is down leads. -/
def drop (o : Observer) : Observer :=
  { o with
    held := fun i => (o.held i).map fun c => { c with leads := false }
    lifted := none
    dropped := true }

def resync (r : Readout) (o : Observer) : Observer :=
  match r.table d with
  | none => o
  | some (slot, x, y) =>
    { slot, x, y
      held := fun i =>
        if d.Slot i then (d.contact (r.contacts i)).map fun id => ⟨id, false, none⟩ else none
      lifted := none
      dropped := false }

end Observer

/-- What an event is for. -/
inductive Kind
  | select
  | x
  | y
  | track
  | report
  | other
  deriving DecidableEq

def Device.kind (d : Device) (e : InputEvent) : Kind :=
  if d.mt && e.is evAbs absMtSlot then .select
  else if e.is evAbs d.codeX then .x
  else if e.is evAbs d.codeY then .y
  else if d.tracks e then .track
  else if e.is evSyn synReport then .report
  else .other

def Observer.step (d : Device) (e : InputEvent) (r : Readout) (o : Observer) : Observer :=
  if e.is evSyn synDropped then o.drop
  else if o.dropped then if e.is evSyn synReport then o.resync d r else o
  else
    match d.kind e with
    | .select => if d.Slot e.value then { o with slot := e.value } else o
    | .x => { o with x := Function.update o.x o.slot e.value }
    | .y => { o with y := Function.update o.y o.slot e.value }
    | .track =>
      match d.contact e.value with
      | none => o.lift
      | some id => o.land d id
    | .report => o.endFrame
    | .other => o

/-! ### What an event does -/

/-- An event is of one kind only. -/
theorem kind_only (d : Device) (e : InputEvent) :
    (d.mt && e.is evAbs absMtSlot) = decide (d.kind e = .select) ∧
      e.is evAbs d.codeX = decide (d.kind e = .x) ∧
      e.is evAbs d.codeY = decide (d.kind e = .y) ∧
      d.tracks e = decide (d.kind e = .track) ∧
      e.is evSyn synReport = decide (d.kind e = .report) := by
  obtain ⟨type, code, value⟩ := e
  unfold Device.kind Device.tracks Device.codeX Device.codeY InputEvent.is evAbs evSyn evKey
    absMtSlot absMtPositionX absMtPositionY absX absY absMtTrackingId btnTouch synReport
  cases d.mt <;> simp <;> grind

/-- What an event does that is not part of dropped frames. -/
theorem forgeTouchEvent_of_kind {e : InputEvent} {s : ForgeTouch} (r : Readout)
    (he : e.is evSyn synDropped = false) (hs : s.dropped = false) :
    forgeTouchEvent e r s =
      match s.device.kind e with
      | .select =>
        if s.device.Slot e.value then ({ s with slot := e.value }, .nothing) else (s, .error)
      | .x => ({ s with x := Function.update s.x s.slot e.value }, .nothing)
      | .y => ({ s with y := Function.update s.y s.slot e.value }, .nothing)
      | .track => (track e s, .nothing)
      | .report => finishFrame e s
      | .other => (s, .nothing) := by
  obtain ⟨hselect, hx, hy, htrack, hreport⟩ := kind_only s.device e
  cases hkind : s.device.kind e with
  | select =>
    by_cases hslot : s.device.Slot e.value
    all_goals simp [forgeTouchEvent, he, hs, selectSlot, place, track, finishFrame, hselect, hx, hy,
      htrack, hreport, hkind, hslot]
  | x => simp [forgeTouchEvent, he, hs, selectSlot, place, track, finishFrame, hselect, hx, hy,
      htrack, hreport, hkind]
  | y => simp [forgeTouchEvent, he, hs, selectSlot, place, track, finishFrame, hselect, hx, hy,
      htrack, hreport, hkind]
  | track =>
    have hdevice : (track e s).device = s.device := by
      unfold track
      simp only
      split_ifs <;> rfl
    simp [forgeTouchEvent, he, hs, selectSlot, place, finishFrame, hselect, hx, hy, hreport, hkind]
  | report => simp [forgeTouchEvent, he, hs, selectSlot, place, track, hselect, hx, hy, htrack, hkind]
  | other => simp [forgeTouchEvent, he, hs, selectSlot, place, track, finishFrame, hselect, hx, hy,
      htrack, hreport, hkind]

theorem Observer.step_of_kind {d : Device} {e : InputEvent} {o : Observer} (r : Readout)
    (he : e.is evSyn synDropped = false) (ho : o.dropped = false) :
    o.step d e r =
      match d.kind e with
      | .select => if d.Slot e.value then { o with slot := e.value } else o
      | .x => { o with x := Function.update o.x o.slot e.value }
      | .y => { o with y := Function.update o.y o.slot e.value }
      | .track =>
        match d.contact e.value with
        | none => o.lift
        | some id => o.land d id
      | .report => o.endFrame
      | .other => o := by
  simp only [Observer.step, he, ho, Bool.false_eq_true, if_false]

/-- What reading the device after dropped frames does to the state. -/
structure Read (s t : ForgeTouch) : Prop where
  device : t.device = s.device
  dropped : t.dropped = s.dropped
  primary : t.primary = s.primary
  released : t.released = s.released

theorem resyncSlots_read (r : Readout) (s : ForgeTouch) : Read s (resyncSlots r s).1 := by
  unfold resyncSlots
  split
  · exact ⟨rfl, rfl, rfl, rfl⟩
  · simp only
    split <;> exact ⟨rfl, rfl, rfl, rfl⟩

theorem resyncSingle_read (r : Readout) (s : ForgeTouch) : Read s (resyncSingle r s).1 := by
  unfold resyncSingle
  split <;> exact ⟨rfl, rfl, rfl, rfl⟩

theorem forgeTouchResync_read (r : Readout) (s : ForgeTouch) :
    Read { s with primary := -1, released := false } (forgeTouchResync r s).1 := by
  unfold forgeTouchResync
  split_ifs
  · exact resyncSlots_read r _
  · exact resyncSingle_read r _

theorem forgeTouchResync_keeps {r : Readout} {s t : ForgeTouch} {ok : Bool}
    (h : forgeTouchResync r s = (t, ok)) : t.device = s.device ∧ t.dropped = s.dropped := by
  have hread := forgeTouchResync_read r s
  rw [h] at hread
  exact ⟨hread.device, hread.dropped⟩

/-- The state has the slot and the places that were read. -/
def Shows (table : Option (ℤ × (ℤ → ℤ) × (ℤ → ℤ))) (result : ForgeTouch × Bool) : Prop :=
  match table with
  | none => result.2 = false
  | some (slot, x, y) => result.2 = true ∧ result.1.slot = slot ∧ result.1.device.Slot slot ∧
      ∀ i, result.1.device.Slot i → result.1.x i = x i ∧ result.1.y i = y i

theorem resyncSlots_shows (r : Readout) (s : ForgeTouch) :
    Shows (r.slotTable s.device) (resyncSlots r s) := by
  unfold Readout.slotTable resyncSlots
  cases r.mtX with
  | none => exact rfl
  | some xs =>
    cases r.mtY with
    | none => exact rfl
    | some ys =>
      cases r.mtSlot with
      | none => exact rfl
      | some slot =>
        by_cases hslot : s.device.Slot slot
        · simp only [if_pos hslot]
          refine ⟨decide_eq_true hslot, rfl, hslot, fun i hi => ?_⟩
          simp only [overwrite, if_pos hi, and_self]
        · simp only [if_neg hslot]
          exact decide_eq_false hslot

theorem resyncSingle_shows (r : Readout) {s : ForgeTouch} (hcount : s.device.count = 1) :
    Shows r.singleTable (resyncSingle r s) := by
  unfold Readout.singleTable resyncSingle
  cases r.legacyX with
  | none => exact rfl
  | some x =>
    cases r.legacyY with
    | none => exact rfl
    | some y =>
      refine ⟨rfl, rfl, ⟨le_refl 0, by simp only [hcount]; omega⟩, fun i hi => ?_⟩
      have hi0 : i = 0 := by
        unfold Device.Slot at hi
        simp only [hcount] at hi
        omega
      simp only [hi0, Function.update_self, and_self]

theorem forgeTouchResync_shows (r : Readout) (s : ForgeTouch) :
    Shows (r.table s.device) (forgeTouchResync r s) := by
  unfold Readout.table forgeTouchResync
  split_ifs with hmt
  · exact resyncSlots_shows r { s with primary := -1, released := false }
  · exact resyncSingle_shows r (s.device.single (Bool.eq_false_iff.mpr hmt))

/-! ### The state and the contacts -/

/-- The first place that the state has kept is where the contact began. -/
def Began (first : ℤ × ℤ) (c : Contact) : Prop :=
  match c.begun with
  | none => first.1 = int32Min
  | some b => b = first ∧ int32Min < first.1

/-- Of the contacts that are held the primary one leads, the one that was lifted did, and the
places that are kept are theirs. -/
structure Assigned (d : Device) (held : ℤ → Option Contact) (lifted : Option (Contact × ℤ × ℤ))
    (primary : ℤ) (released : Bool) (first last : ℤ × ℤ) : Prop where
  slots : ∀ i c, held i = some c → d.Slot i
  leader : ∀ i c, held i = some c → (c.leads = true ↔ i = primary)
  holds : 0 ≤ primary → ∃ c, held primary = some c ∧ Began first c
  rest : lifted = none → released = false
  leaves : ∀ c p, lifted = some (c, p) →
    released = true ∧ primary < 0 ∧ c.leads = true ∧ p = last ∧ Began first c

theorem held_of_update {held : ℤ → Option Contact} {k i : ℤ} {v : Option Contact} {c : Contact}
    (h : Function.update held k v i = some c) : i = k ∧ v = some c ∨ i ≠ k ∧ held i = some c := by
  by_cases heq : i = k
  · rw [heq, Function.update_self] at h
    exact .inl ⟨heq, h⟩
  · rw [Function.update_of_ne heq] at h
    exact .inr ⟨heq, h⟩

namespace Assigned

variable {d : Device} {held : ℤ → Option Contact} {lifted : Option (Contact × ℤ × ℤ)}
  {primary k : ℤ} {released : Bool} {first last : ℤ × ℤ}

/-- No contact leads. -/
theorem fresh (hslots : ∀ i c, held i = some c → d.Slot i ∧ c.leads = false) :
    Assigned d held none (-1) false first last where
  slots i c hc := (hslots i c hc).1
  leader i c hc := by
    obtain ⟨⟨hpos, -⟩, hleads⟩ := hslots i c hc
    rw [hleads]
    simp only [Bool.false_eq_true, false_iff]
    omega
  holds hpos := by omega
  rest _ := rfl
  leaves c p hl := by cases hl

/-- The primary contact is lifted. -/
theorem lift (h : Assigned d held lifted primary released first last) (hprimary : 0 ≤ primary)
    (place : ℤ × ℤ) :
    ∃ c, held primary = some c ∧ c.leads = true ∧
      Assigned d (Function.update held primary none) (some (c, place)) (-1) true first place := by
  obtain ⟨c, hc, hbegan⟩ := h.holds hprimary
  have hleads : c.leads = true := (h.leader _ c hc).mpr rfl
  refine ⟨c, hc, hleads, ?_⟩
  exact {
    slots := fun i c' hi => by
      rcases held_of_update hi with ⟨-, hnone⟩ | ⟨-, hi⟩
      · cases hnone
      · exact h.slots i c' hi
    leader := fun i c' hi => by
      rcases held_of_update hi with ⟨-, hnone⟩ | ⟨hne, hi⟩
      · cases hnone
      · have hpos := (h.slots i c' hi).1
        rw [h.leader i c' hi]
        omega
    holds := fun hpos => by omega
    rest := fun hnone => by cases hnone
    leaves := fun c' p hl => by
      cases hl
      exact ⟨rfl, by omega, hleads, rfl, hbegan⟩ }

/-- Another slot than the primary one loses its contact, or gets one that does not lead. -/
theorem change (h : Assigned d held lifted primary released first last) (hk : k ≠ primary)
    (hslot : d.Slot k) {v : Option Contact} (hv : ∀ c, v = some c → c.leads = false) :
    Assigned d (Function.update held k v) lifted primary released first last where
  slots i c hi := by
    rcases held_of_update hi with ⟨rfl, -⟩ | ⟨-, hi⟩
    · exact hslot
    · exact h.slots i c hi
  leader i c hi := by
    rcases held_of_update hi with ⟨rfl, hc⟩ | ⟨-, hi⟩
    · rw [hv c hc]
      exact ⟨fun hfalse => absurd hfalse Bool.false_ne_true, fun heq => absurd heq hk⟩
    · exact h.leader i c hi
  holds hpos := by
    obtain ⟨c, hc, hbegan⟩ := h.holds hpos
    exact ⟨c, by rw [Function.update_of_ne hk.symm]; exact hc, hbegan⟩
  rest := h.rest
  leaves := h.leaves

/-- A contact goes down that leads. -/
theorem land (h : Assigned d held none primary released first last) (hprimary : primary < 0)
    (hslot : d.Slot k) {y : ℤ} (id : ℤ) :
    Assigned d (Function.update held k (some ⟨id, true, none⟩)) none k released (int32Min, y)
      last where
  slots i c hi := by
    rcases held_of_update hi with ⟨rfl, -⟩ | ⟨-, hi⟩
    · exact hslot
    · exact h.slots i c hi
  leader i c hi := by
    rcases held_of_update hi with ⟨rfl, hc⟩ | ⟨hne, hi⟩
    · cases hc
      simp only
    · have hpos := (h.slots i c hi).1
      rw [h.leader i c hi]
      exact ⟨fun heq => by omega, fun heq => absurd heq hne⟩
  holds _ := ⟨⟨id, true, none⟩, Function.update_self .., rfl⟩
  rest := h.rest
  leaves c p hl := by cases hl

/-- At the end of a frame the primary contact has its first place. -/
theorem endFrame (h : Assigned d held lifted primary released first last) (place : ℤ → ℤ × ℤ)
    (hplace : 0 ≤ primary → int32Min < (place primary).1) :
    Assigned d
      (fun i => (held i).map fun c =>
        if c.leads && c.begun.isNone then { c with begun := some (place i) } else c)
      none primary false (if 0 ≤ primary ∧ first.1 = int32Min then place primary else first) last where
  slots i c hc := by
    obtain ⟨c', hc', -⟩ := Option.map_eq_some_iff.mp hc
    exact h.slots i c' hc'
  leader i c hc := by
    obtain ⟨c', hc', rfl⟩ := Option.map_eq_some_iff.mp hc
    rw [← h.leader i c' hc']
    split_ifs <;> exact Iff.rfl
  holds hpos := by
    obtain ⟨c, hc, hbegan⟩ := h.holds hpos
    have hleads : c.leads = true := (h.leader _ c hc).mpr rfl
    refine ⟨_, Option.map_eq_some_iff.mpr ⟨c, hc, rfl⟩, ?_⟩
    unfold Began at hbegan ⊢
    cases hbegun : c.begun with
    | none =>
      simp only [hbegun] at hbegan
      simp only [hleads, Option.isNone_none, Bool.and_self, if_true, hpos, hbegan, and_self]
      exact ⟨trivial, hplace hpos⟩
    | some b =>
      simp only [hbegun] at hbegan
      have hne : first.1 ≠ int32Min := by omega
      simp only [hleads, hbegun, Option.isNone_some, Bool.and_false, Bool.false_eq_true, if_false, hne,
        and_false]
      exact hbegan
  rest _ := rfl
  leaves c p hl := by cases hl

end Assigned

/-- The state that the events have led to fits what they say of the contacts. -/
structure Related (d : Device) (o : Observer) (s : ForgeTouch) : Prop where
  device : s.device = d
  dropped : o.dropped = s.dropped
  slot : s.dropped = false → o.slot = s.slot ∧ d.Slot s.slot
  place : s.dropped = false → ∀ i, d.Slot i → o.x i = s.x i ∧ o.y i = s.y i ∧ int32Min < s.x i
  assigned : s.dropped = false →
    Assigned d o.held o.lifted s.primary s.released (s.beginx, s.beginy) (s.endx, s.endy)

namespace Related

variable {d : Device} {o : Observer} {s : ForgeTouch}

theorem led_iff (h : Related d o s) (hs : s.dropped = false) : o.led d = true ↔ 0 ≤ s.primary := by
  have hassigned := h.assigned hs
  unfold Observer.led
  rw [List.any_eq_true]
  constructor
  · rintro ⟨i, hi, hany⟩
    obtain ⟨c, hc, hleads⟩ := Option.any_eq_true _ _ |>.mp hany
    have hprimary := (hassigned.leader i c hc).mp hleads
    omega
  · intro hpos
    obtain ⟨c, hc, -⟩ := hassigned.holds hpos
    obtain ⟨-, hlt⟩ := hassigned.slots _ c hc
    refine ⟨s.primary.toNat, List.mem_range.mpr (by omega), ?_⟩
    rw [Int.toNat_of_nonneg hpos, hc]
    exact (hassigned.leader _ c hc).mpr rfl

theorem lifted_isNone (h : Related d o s) (hs : s.dropped = false) :
    o.lifted.isNone = !s.released := by
  cases hl : o.lifted with
  | none => rw [(h.assigned hs).rest hl]; rfl
  | some l => rw [((h.assigned hs).leaves _ _ hl).1]; rfl

theorem placeX (h : Related d o s) (hs : s.dropped = false) {v : ℤ} (hv : int32Min < v) :
    Related d { o with x := Function.update o.x o.slot v }
      { s with x := Function.update s.x s.slot v } := by
  obtain ⟨hslot, hin⟩ := h.slot hs
  refine ⟨h.device, h.dropped, h.slot, fun _ i hi => ?_, h.assigned⟩
  obtain ⟨hx, hy, hmin⟩ := h.place hs i hi
  simp only [hslot]
  by_cases heq : i = s.slot
  · simp only [heq, Function.update_self]
    exact ⟨trivial, heq ▸ hy, hv⟩
  · simp only [Function.update_of_ne heq]
    exact ⟨hx, hy, hmin⟩

theorem placeY (h : Related d o s) (hs : s.dropped = false) (v : ℤ) :
    Related d { o with y := Function.update o.y o.slot v }
      { s with y := Function.update s.y s.slot v } := by
  obtain ⟨hslot, hin⟩ := h.slot hs
  refine ⟨h.device, h.dropped, h.slot, fun _ i hi => ?_, h.assigned⟩
  obtain ⟨hx, hy, hmin⟩ := h.place hs i hi
  simp only [hslot]
  by_cases heq : i = s.slot
  · simp only [heq, Function.update_self]
    exact ⟨heq ▸ hx, trivial, heq ▸ hmin⟩
  · simp only [Function.update_of_ne heq]
    exact ⟨hx, hy, hmin⟩

/-- The contact of the slot goes. -/
theorem lift (h : Related d o s) (hs : s.dropped = false) {e : InputEvent} (ht : d.tracks e = true)
    (hup : d.isDown e.value = false) : Related d o.lift (track e s) := by
  obtain ⟨hslot, hin⟩ := h.slot hs
  have hassigned := h.assigned hs
  unfold track Observer.lift
  simp only [h.device, ht, hup, if_true, Bool.false_and, Bool.false_eq_true, if_false, Bool.not_false,
    Bool.true_and, beq_iff_eq]
  by_cases hprimary : s.primary = s.slot
  · obtain ⟨c, hc, hleads, hlifted⟩ := hassigned.lift (hprimary ▸ hin.1) (s.x s.slot, s.y s.slot)
    obtain ⟨hx, hy, -⟩ := h.place hs s.slot hin
    rw [hprimary] at hc hlifted
    simp only [hslot, hc, hleads, if_true, if_pos hprimary, hx, hy]
    exact ⟨rfl, h.dropped, fun _ => ⟨rfl, hin⟩, h.place, fun _ => hlifted⟩
  · rw [if_neg hprimary, hslot]
    cases hheld : o.held s.slot with
    | none => exact h
    | some c =>
      have hleads : ¬c.leads = true := fun hc =>
        hprimary ((hassigned.leader _ c hheld).mp hc).symm
      simp only [if_neg hleads]
      exact ⟨h.device, h.dropped, fun _ => ⟨rfl, hin⟩, h.place,
        fun _ => hassigned.change (Ne.symm hprimary) hin fun c' hc' => by cases hc'⟩

/-- A contact goes down. The code takes it for the primary one exactly when it leads. -/
theorem land (h : Related d o s) (hs : s.dropped = false) {e : InputEvent} (ht : d.tracks e = true)
    (hdown : d.isDown e.value = true) {id : ℤ}
    (horderly : ∀ c, o.held o.slot = some c →
      (c.id ≠ id → c.leads = false) ∧ (c.id = id → o.led d = true ∨ o.lifted.isSome = true)) :
    Related d (o.land d id) (track e s) := by
  obtain ⟨hslot, hin⟩ := h.slot hs
  have hassigned := h.assigned hs
  have hled := h.led_iff hs
  have hnone := h.lifted_isNone hs
  have htrack : track e s =
      if o.led d = false ∧ o.lifted.isNone = true then
        { s with primary := s.slot, beginx := int32Min }
      else s := by
    have hfree : (o.led d = false ∧ o.lifted.isNone = true) ↔ s.primary < 0 ∧ s.released = false := by
      rw [hnone, ← Bool.not_eq_true, hled]
      simp only [Bool.not_eq_true', not_le]
    unfold track
    simp only [h.device, ht, hdown, if_true, Bool.true_and, Bool.not_true, Bool.false_and,
      Bool.false_eq_true, if_false, hfree, Bool.and_eq_true, decide_eq_true_eq, Bool.not_eq_true']
  rw [htrack]
  unfold Observer.land
  by_cases hsame : ∃ c, o.held o.slot = some c ∧ c.id = id
  · obtain ⟨c, hc, hid⟩ := hsame
    have hbusy := (horderly c hc).2 hid
    rw [if_pos (by rw [hc]; simpa using hid), if_neg]
    · exact h
    · rintro ⟨hfree, hfree'⟩
      rcases hbusy with hbusy | hbusy
      · rw [hfree] at hbusy
        exact Bool.false_ne_true hbusy
      · rw [Option.isNone_iff_eq_none] at hfree'
        rw [hfree'] at hbusy
        exact Bool.false_ne_true hbusy
  · have hother : ∀ c, o.held s.slot = some c → c.leads = false := fun c hc =>
      (horderly c (hslot ▸ hc)).1 fun hid => hsame ⟨c, hslot ▸ hc, hid⟩
    have hfind : ¬((o.held o.slot).any fun c => c.id == id) = true := by
      intro hany
      obtain ⟨c, hc, hid⟩ := Option.any_eq_true _ _ |>.mp hany
      exact hsame ⟨c, hc, by simpa using hid⟩
    have hprimary : s.slot ≠ s.primary := by
      intro heq
      obtain ⟨c, hc, -⟩ := hassigned.holds (heq ▸ hin.1)
      have hleads := (hassigned.leader _ c hc).mpr rfl
      rw [← heq] at hc
      rw [hother c hc] at hleads
      exact Bool.false_ne_true hleads
    rw [if_neg hfind]
    simp only [hslot]
    by_cases hfree : o.led d = false ∧ o.lifted.isNone = true
    · obtain ⟨hfree₁, hfree₂⟩ := hfree
      have hlifted := Option.isNone_iff_eq_none.mp hfree₂
      have hneg : s.primary < 0 := by
        rw [← not_le, ← hled, hfree₁]
        exact Bool.false_ne_true
      rw [if_pos ⟨hfree₁, hfree₂⟩, hfree₁, hlifted]
      rw [hlifted] at hassigned
      exact ⟨h.device, h.dropped, fun _ => ⟨rfl, hin⟩, h.place,
        fun _ => hassigned.land hneg hin id⟩
    · have hleads : (!o.led d && o.lifted.isNone) = false := by
        rw [← Bool.not_eq_true]
        simpa using hfree
      rw [if_neg hfree, hleads]
      exact ⟨h.device, h.dropped, fun _ => ⟨rfl, hin⟩, h.place,
        fun _ => hassigned.change hprimary hin fun c hc => by cases hc; rfl⟩

end Related

/-! ### Gestures of contacts -/

/-- The screen point of the contact that was lifted, and how far it has moved since the end of its
first frame. -/
def gestureOf (d : Device) (c : Contact) (p : ℤ × ℤ) : Outcome :=
  .gesture (d.scaledX p.1) (d.scaledY p.2)
    (match c.begun with
      | none => 0
      | some b => d.scaledX p.1 - d.scaledX b.1)
    (match c.begun with
      | none => 0
      | some b => d.scaledY p.2 - d.scaledY b.2)

/-- What comes of an event is a gesture only at the end of a frame in which a leading contact was
lifted, and then it is the gesture of that contact, inside the screen. -/
def Genuine (d : Device) (o : Observer) (e : InputEvent) (outcome : Outcome) : Prop :=
  ∀ x y dx dy, outcome = .gesture x y dx dy →
    e.is evSyn synReport = true ∧ 0 ≤ x ∧ x < d.width ∧ 0 ≤ y ∧ y < d.height ∧
      ∃ c p, o.lifted = some (c, p) ∧ c.leads = true ∧ outcome = gestureOf d c p

theorem genuine_nothing {d : Device} {o : Observer} {e : InputEvent} : Genuine d o e .nothing := by
  intro x y dx dy h
  cases h

theorem genuine_error {d : Device} {o : Observer} {e : InputEvent} : Genuine d o e .error := by
  intro x y dx dy h
  cases h

theorem genuine_gestureOf {d : Device} {o : Observer} {e : InputEvent} {c : Contact} {p : ℤ × ℤ}
    (he : e.is evSyn synReport = true) (hl : o.lifted = some (c, p)) (hc : c.leads = true) :
    Genuine d o e (gestureOf d c p) := by
  intro x y dx dy h
  obtain ⟨hx0, hx⟩ := forgeTouchScaled_bounds d.x_range d.width_pos p.1
  obtain ⟨hy0, hy⟩ := forgeTouchScaled_bounds d.y_range d.height_pos p.2
  unfold gestureOf at h
  injection h with hxe hye
  rw [← hxe, ← hye]
  exact ⟨he, hx0, hx, hy0, hy, c, p, hl, hc, rfl⟩

/-- Coordinates are told from the mark for a contact without a first place. -/
def AboveMin (d : Device) (e : InputEvent) (r : Readout) : Prop :=
  (e.is evAbs d.codeX = true → int32Min < e.value) ∧
    ∀ t, r.table d = some t → ∀ i, d.Slot i → int32Min < t.2.1 i

/-- A slot gets no other contact in the place of one that leads, and a contact that is held is
named again only while one leads or has just been lifted. -/
def Orderly (d : Device) (o : Observer) (e : InputEvent) : Prop :=
  o.dropped = false → d.tracks e = true → ∀ id, d.contact e.value = some id →
    ∀ c, o.held o.slot = some c →
      (c.id ≠ id → c.leads = false) ∧ (c.id = id → o.led d = true ∨ o.lifted.isSome = true)

namespace Related

variable {d : Device} {o : Observer} {s : ForgeTouch}

theorem markBegin (h : Related d o s) (hs : s.dropped = false) :
    Related d o.endFrame { Touch.markBegin s with released := false } := by
  have hassigned := h.assigned hs
  have hplace : ∀ i, 0 ≤ i ∧ i = s.primary →
      (o.x i, o.y i) = (s.x s.primary, s.y s.primary) ∧ int32Min < s.x s.primary := by
    rintro i ⟨hpos, rfl⟩
    obtain ⟨c, hc, -⟩ := hassigned.holds hpos
    obtain ⟨hx, hy, hmin⟩ := h.place hs _ (hassigned.slots _ c hc)
    exact ⟨by rw [hx, hy], hmin⟩
  have hend := hassigned.endFrame (fun i => (o.x i, o.y i)) fun hpos => by
    obtain ⟨hsame, hmin⟩ := hplace _ ⟨hpos, rfl⟩
    rw [hsame]
    exact hmin
  unfold Touch.markBegin
  split_ifs with hbegin
  · rw [if_pos hbegin, (hplace _ ⟨hbegin.1, rfl⟩).1] at hend
    exact ⟨h.device, h.dropped, h.slot, h.place, fun _ => hend⟩
  · rw [if_neg hbegin] at hend
    exact ⟨h.device, h.dropped, h.slot, h.place, fun _ => hend⟩

theorem finishFrame (h : Related d o s) (hs : s.dropped = false) {e : InputEvent}
    (he : e.is evSyn synReport = true) :
    Related d o.endFrame (Touch.finishFrame e s).1 ∧ Genuine d o e (Touch.finishFrame e s).2 := by
  have hrelated := h.markBegin hs
  have hassigned := h.assigned hs
  have hreleased : (Touch.markBegin s).released = s.released := by
    unfold Touch.markBegin
    split_ifs <;> rfl
  unfold Touch.finishFrame
  simp only [he, if_true, hreleased]
  cases hl : o.lifted with
  | none =>
    have hrest := hassigned.rest hl
    have hsame : { Touch.markBegin s with released := false } = Touch.markBegin s := by
      rw [← hrest, ← hreleased]
    rw [hsame] at hrelated
    simp only [hrest, Bool.false_eq_true, if_false]
    exact ⟨hrelated, genuine_nothing⟩
  | some l =>
    obtain ⟨c, p⟩ := l
    obtain ⟨hreleased', hprimary, hleads, hp, hbegan⟩ := hassigned.leaves c p hl
    have hmark : Touch.markBegin s = s := if_neg fun hbegin => by omega
    have hgesture : gestureOf d c p = .gesture (d.scaledX s.endx) (d.scaledY s.endy)
        (if s.beginx = int32Min then 0 else d.scaledX s.endx - d.scaledX s.beginx)
        (if s.beginx = int32Min then 0 else d.scaledY s.endy - d.scaledY s.beginy) := by
      unfold Began at hbegan
      unfold gestureOf
      rw [hp]
      cases hbegun : c.begun with
      | none =>
        simp only [hbegun] at hbegan
        simp only [hbegan, if_true]
      | some b =>
        simp only [hbegun] at hbegan
        have hne : s.beginx ≠ int32Min := by omega
        simp only [hbegan.1, if_neg hne]
    simp only [hreleased', if_true]
    refine ⟨hrelated, ?_⟩
    rw [hmark, h.device, ← hgesture]
    exact genuine_gestureOf he hl hleads

end Related

/-- Reading the device puts the contacts that are down out of play. -/
theorem related_resync {d : Device} {s t : ForgeTouch} (hd : s.device = d) (o : Observer) {r : Readout}
    (hmin : ∀ t, r.table d = some t → ∀ i, d.Slot i → int32Min < t.2.1 i)
    (hresult : forgeTouchResync r s = (t, true)) :
    Related d (o.resync d r) { t with dropped := false } := by
  have hread := forgeTouchResync_read r s
  have hshows := forgeTouchResync_shows r s
  rw [hresult] at hread hshows
  have hdevice : t.device = d := hread.device.trans hd
  have hprimary : t.primary = -1 := hread.primary
  have hreleased : t.released = false := hread.released
  rw [hd] at hshows
  unfold Observer.resync
  cases htable : r.table d with
  | none =>
    rw [htable] at hshows
    exact absurd hshows.symm Bool.false_ne_true
  | some table =>
    obtain ⟨slot, x, y⟩ := table
    rw [htable] at hshows
    obtain ⟨-, hslot, hin, hplace⟩ := hshows
    simp only [hdevice] at hslot hin hplace
    refine ⟨hdevice, rfl, fun _ => ⟨hslot.symm, hslot ▸ hin⟩, fun _ i hi => ?_, fun _ => ?_⟩
    · obtain ⟨hx, hy⟩ := hplace i hi
      simp only [hx, hy, true_and]
      exact hmin _ htable i hi
    · simp only [hprimary, hreleased]
      refine Assigned.fresh fun i c hc => ?_
      split_ifs at hc with hi
      obtain ⟨id, -, rfl⟩ := Option.map_eq_some_iff.mp hc
      exact ⟨hi, rfl⟩

namespace Related

variable {d : Device} {o : Observer} {s : ForgeTouch}

/-- As long as the device cannot be read its frames count as dropped. -/
theorem resync_failed (h : Related d o s) (hs : s.dropped = true) {r : Readout} {t : ForgeTouch}
    (hresult : forgeTouchResync r s = (t, false)) : Related d (o.resync d r) t := by
  have hread := forgeTouchResync_read r s
  have hshows := forgeTouchResync_shows r s
  rw [hresult] at hread hshows
  have hdropped : t.dropped = true := hread.dropped.trans hs
  have hlost : ∀ {P : Prop}, t.dropped = false → P := fun hd =>
    absurd (hdropped.symm.trans hd) Bool.noConfusion
  rw [h.device] at hshows
  unfold Observer.resync
  cases htable : r.table d with
  | none =>
    exact ⟨hread.device.trans h.device, h.dropped.trans (hs.trans hdropped.symm), hlost, hlost, hlost⟩
  | some table =>
    rw [htable] at hshows
    exact absurd hshows.1 Bool.false_ne_true

/-- One event keeps the relation, and its gesture is that of a contact. -/
theorem step (h : Related d o s) {e : InputEvent} {r : Readout} (hmin : AboveMin d e r)
    (horderly : Orderly d o e) :
    Related d (o.step d e r) (forgeTouchEvent e r s).1 ∧
      Genuine d o e (forgeTouchEvent e r s).2 := by
  by_cases hdrop : e.is evSyn synDropped = true
  · rw [Observer.step, forgeTouchEvent, if_pos hdrop, if_pos hdrop]
    exact ⟨⟨h.device, rfl, fun hd => absurd hd Bool.noConfusion, fun hd => absurd hd Bool.noConfusion,
      fun hd => absurd hd Bool.noConfusion⟩, genuine_nothing⟩
  cases hs : s.dropped with
  | true =>
    rw [Observer.step, forgeTouchEvent, if_neg hdrop, if_neg hdrop, h.dropped, hs, if_pos rfl,
      if_pos rfl]
    split_ifs with hreport
    · cases hresult : forgeTouchResync r s with
      | mk t ok =>
        cases ok with
        | false => exact ⟨h.resync_failed hs hresult, genuine_error⟩
        | true => exact ⟨related_resync h.device o hmin.2 hresult, genuine_nothing⟩
    · exact ⟨h, genuine_nothing⟩
  | false =>
    obtain ⟨-, hx, -, htrack, hreport⟩ := kind_only d e
    have hkeep := Bool.eq_false_iff.mpr hdrop
    rw [forgeTouchEvent_of_kind r hkeep hs, Observer.step_of_kind r hkeep (h.dropped.trans hs)]
    obtain rfl := h.device
    cases hkind : s.device.kind e with
    | select =>
      simp only
      split_ifs with hslot
      · exact ⟨⟨rfl, h.dropped, fun _ => ⟨rfl, hslot⟩, h.place, h.assigned⟩, genuine_nothing⟩
      · exact ⟨h, genuine_error⟩
    | x => exact ⟨h.placeX hs (hmin.1 (hx.trans (decide_eq_true hkind))), genuine_nothing⟩
    | y => exact ⟨h.placeY hs e.value, genuine_nothing⟩
    | track =>
      have ht : s.device.tracks e = true := htrack.trans (decide_eq_true hkind)
      refine ⟨?_, genuine_nothing⟩
      simp only
      by_cases hdown : s.device.isDown e.value = true
      · have hcontact : s.device.contact e.value = some (if s.device.mt then e.value else 0) := if_pos hdown
        rw [hcontact]
        exact h.land hs ht hdown (horderly (h.dropped.trans hs) ht _ hcontact)
      · have hcontact : s.device.contact e.value = none := if_neg hdown
        rw [hcontact]
        exact h.lift hs ht (Bool.eq_false_iff.mpr hdown)
    | report => exact h.finishFrame hs (hreport.trans (decide_eq_true hkind))
    | other => exact ⟨h, genuine_nothing⟩

end Related

/-! ### Runs -/

/-- What is known of the contacts on a device that has just been opened. -/
def Observer.initial (d : Device) (r : Readout) : Observer :=
  Observer.resync d r ⟨0, fun _ => 0, fun _ => 0, fun _ => none, none, true⟩

theorem forgeTouchInit_related {p : Probe} {r : Readout} {width height : ℤ} {s : ForgeTouch}
    (h : forgeTouchInit p r width height = some s)
    (hmin : ∀ t, r.table s.device = some t → ∀ i, s.device.Slot i → int32Min < t.2.1 i) :
    Related s.device (.initial s.device r) s := by
  unfold forgeTouchInit at h
  simp only at h
  split at h
  · split_ifs at h
    split at h
    · rename_i t hresult
      cases h
      have hread := forgeTouchResync_keeps hresult
      have hdropped : s.dropped = false := hread.2
      have hrelated := related_resync hread.1.symm
        ⟨0, fun _ => 0, fun _ => 0, fun _ => none, none, true⟩ hmin hresult
      rw [← hdropped] at hrelated
      exact hrelated
    · cases h
  · cases h

/-- An event as it reaches the contacts and the code. -/
def step (d : Device) (os : Observer × ForgeTouch) (er : InputEvent × Readout) :
    Observer × ForgeTouch :=
  (os.1.step d er.1 er.2, (forgeTouchEvent er.1 er.2 os.2).1)

/-- In every run in which no leading contact is replaced in its slot and none that is held is named
again while it could be taken for a new one, every gesture is that of one leading contact. -/
theorem gestures_genuine {p : Probe} {r : Readout} {width height : ℤ} {s : ForgeTouch}
    (hinit : forgeTouchInit p r width height = some s)
    (hmin : ∀ t, r.table s.device = some t → ∀ i, s.device.Slot i → int32Min < t.2.1 i)
    {events : List (InputEvent × Readout)}
    (hrun : Along (step s.device)
      (fun os er => AboveMin s.device er.1 er.2 ∧ Orderly s.device os.1 er.1)
      (.initial s.device r, s) events) :
    Along (step s.device)
      (fun os er => Genuine s.device os.1 er.1 (forgeTouchEvent er.1 er.2 os.2).2)
      (.initial s.device r, s) events :=
  hrun.of_invariant (I := fun os => Related s.device os.1 os.2)
    (fun _ _ h hcond => (h.step hcond.1 hcond.2).1) (fun _ _ h hcond => (h.step hcond.1 hcond.2).2)
    (forgeTouchInit_related hinit hmin)

/-! ### Two screens -/

/-- A screen of two slots and 101 points each way. -/
def twoSlots : Probe where
  slots := some ⟨0, 0, 1⟩
  mtX := some ⟨0, 0, 100⟩
  mtY := some ⟨0, 0, 100⟩
  legacyX := none
  legacyY := none

/-- Nothing touches the screen, and its slots were last left at one point. -/
def still : Readout where
  mtX := some fun _ => 10
  mtY := some fun _ => 10
  mtSlot := some 0
  legacyX := none
  legacyY := none
  contacts := fun _ => -1

def screen : Device where
  minx := 0
  maxx := 100
  miny := 0
  maxy := 100
  width := 101
  height := 101
  mt := true
  count := 2
  x_range := by decide
  y_range := by decide
  width_pos := by decide
  height_pos := by decide
  count_pos := by decide
  count_le := by decide
  single h := absurd h Bool.noConfusion

/-- The screen when it has just been opened. -/
def opened : ForgeTouch where
  device := screen
  slot := 0
  primary := -1
  dropped := false
  x := overwrite screen (fun _ => 10) fun _ => 0
  y := overwrite screen (fun _ => 10) fun _ => 0
  beginx := 0
  beginy := 0
  endx := 0
  endy := 0
  released := false

theorem forgeTouchInit_twoSlots : forgeTouchInit twoSlots still 101 101 = some opened := rfl

def tracking (id : ℤ) : InputEvent × Readout := (⟨evAbs, absMtTrackingId, id⟩, still)

def moveX (x : ℤ) : InputEvent × Readout := (⟨evAbs, absMtPositionX, x⟩, still)

def report : InputEvent × Readout := (⟨evSyn, synReport, 0⟩, still)

theorem still_above (d : Device) :
    ∀ t, still.table d = some t → ∀ i, d.Slot i → int32Min < t.2.1 i := by
  intro t ht i _
  unfold Readout.table Readout.slotTable Readout.singleTable still at ht
  simp only at ht
  split_ifs at ht
  cases ht
  exact (by decide : int32Min < 10)

theorem gestures_genuine_swipe :
    Along (step screen) (fun os er => Genuine screen os.1 er.1 (forgeTouchEvent er.1 er.2 os.2).2)
      (.initial screen still, opened) [tracking 5, report, moveX 60, tracking (-1), report] := by
  refine gestures_genuine forgeTouchInit_twoSlots (still_above screen) ?_
  refine ⟨⟨⟨fun h => ?_, still_above _⟩, fun _ _ id _ c hc => ?_⟩,
    ⟨⟨fun h => ?_, still_above _⟩, fun _ h => ?_⟩, ⟨⟨fun _ => ?_, still_above _⟩, fun _ h => ?_⟩,
    ⟨⟨fun h => ?_, still_above _⟩, fun _ _ id hid => ?_⟩,
    ⟨⟨fun h => ?_, still_above _⟩, fun _ h => ?_⟩, trivial⟩
  · cases h
  · cases hc
  · cases h
  · cases h
  · exact (by decide : int32Min < 60)
  · cases h
  · cases h
  · cases hid
  · cases h
  · cases h

/-- A finger that takes the place of another one in its slot ends the other one's gesture. -/
theorem replaced_contact_gesture :
    ¬∀ p r width height s, forgeTouchInit p r width height = some s →
      (∀ t, r.table s.device = some t → ∀ i, s.device.Slot i → int32Min < t.2.1 i) →
      ∀ events, Along (step s.device) (fun _ er => AboveMin s.device er.1 er.2)
          (.initial s.device r, s) events →
        Along (step s.device)
          (fun os er => Genuine s.device os.1 er.1 (forgeTouchEvent er.1 er.2 os.2).2)
          (.initial s.device r, s) events := by
  intro h
  have hrun := h twoSlots still 101 101 opened forgeTouchInit_twoSlots (still_above screen)
    [tracking 5, report, tracking 6, moveX 60, tracking (-1), report] ?_
  · obtain ⟨-, -, -, -, -, hlast, -⟩ := hrun
    obtain ⟨-, -, -, -, -, c, p, hlifted, -⟩ := hlast 60 10 50 0 rfl
    cases hlifted
  · refine ⟨⟨fun h => ?_, still_above _⟩, ⟨fun h => ?_, still_above _⟩, ⟨fun h => ?_, still_above _⟩,
      ⟨fun _ => ?_, still_above _⟩, ⟨fun h => ?_, still_above _⟩, ⟨fun h => ?_, still_above _⟩,
      trivial⟩
    · cases h
    · cases h
    · cases h
    · exact (by decide : int32Min < 60)
    · cases h
    · cases h

end ForgeOS.Native.Touch
