import Mathlib.Algebra.Order.Ring.Int
import Mathlib.Logic.Function.Basic
import Mathlib.Tactic.SplitIfs
import ForgeOS.Library.Conditions

/-! `touch_state.h`: the events of a touch screen, which is told apart by slots or knows a single
contact only, and the gestures that are made of them. -/

namespace ForgeOS.Native.Touch

/-! ### Events -/

/-- `EV_SYN` -/
def evSyn : ℕ := 0
/-- `EV_KEY` -/
def evKey : ℕ := 1
/-- `EV_ABS` -/
def evAbs : ℕ := 3
/-- `SYN_REPORT` -/
def synReport : ℕ := 0
/-- `SYN_DROPPED` -/
def synDropped : ℕ := 3
/-- `ABS_X` -/
def absX : ℕ := 0
/-- `ABS_Y` -/
def absY : ℕ := 1
/-- `ABS_MT_SLOT` -/
def absMtSlot : ℕ := 47
/-- `ABS_MT_POSITION_X` -/
def absMtPositionX : ℕ := 53
/-- `ABS_MT_POSITION_Y` -/
def absMtPositionY : ℕ := 54
/-- `ABS_MT_TRACKING_ID` -/
def absMtTrackingId : ℕ := 57
/-- `BTN_TOUCH` -/
def btnTouch : ℕ := 330

/-- `struct input_event` -/
structure InputEvent where
  type : ℕ
  code : ℕ
  value : ℤ
  deriving DecidableEq, Repr

def InputEvent.is (e : InputEvent) (type code : ℕ) : Bool := e.type == type && e.code == code

/-- `struct input_absinfo` -/
structure AbsInfo where
  value : ℤ
  minimum : ℤ
  maximum : ℤ

/-- `INT32_MIN` -/
def int32Min : ℤ := -2147483648

/-- `FORGE_TOUCH_SLOTS` -/
def forgeTouchSlots : ℤ := 32

/-! ### The device -/

/-- What `forge_touch_init` has accepted of a device. -/
structure Device where
  minx : ℤ
  maxx : ℤ
  miny : ℤ
  maxy : ℤ
  width : ℤ
  height : ℤ
  mt : Bool
  count : ℤ
  x_range : minx < maxx
  y_range : miny < maxy
  width_pos : 1 ≤ width
  height_pos : 1 ≤ height
  count_pos : 1 ≤ count
  count_le : count ≤ forgeTouchSlots
  single : mt = false → count = 1

namespace Device

variable (d : Device)

/-- The slots that the device has. -/
def Slot (i : ℤ) : Prop := 0 ≤ i ∧ i < d.count

instance (i : ℤ) : Decidable (d.Slot i) := inferInstanceAs (Decidable (_ ∧ _))

def codeX : ℕ := if d.mt then absMtPositionX else absX

def codeY : ℕ := if d.mt then absMtPositionY else absY

/-- An event that says that a contact is there or has gone. -/
def tracks (e : InputEvent) : Bool :=
  if d.mt then e.is evAbs absMtTrackingId else e.is evKey btnTouch

/-- Whether such a value says that a contact is there. -/
def isDown (value : ℤ) : Bool := if d.mt then 0 ≤ value else value != 0

end Device

/-- `forge_touch_scaled`, whose products fit into 64 bits -/
def forgeTouchScaled (value min max size : ℤ) : ℤ :=
  let value := if value < min then min else value
  let value := if value > max then max else value
  ((value - min) * (size - 1)).tdiv (max - min)

def Device.scaledX (d : Device) (x : ℤ) : ℤ := forgeTouchScaled x d.minx d.maxx d.width

def Device.scaledY (d : Device) (y : ℤ) : ℤ := forgeTouchScaled y d.miny d.maxy d.height

/-! ### The state -/

structure ForgeTouch where
  device : Device
  slot : ℤ
  primary : ℤ
  dropped : Bool
  x : ℤ → ℤ
  y : ℤ → ℤ
  beginx : ℤ
  beginy : ℤ
  endx : ℤ
  endy : ℤ
  released : Bool

/-- What the `ioctl` calls of `forge_touch_resync` give where they succeed, and the contacts that
the device has then, which are not asked for. -/
structure Readout where
  mtX : Option (ℤ → ℤ)
  mtY : Option (ℤ → ℤ)
  mtSlot : Option ℤ
  legacyX : Option ℤ
  legacyY : Option ℤ
  contacts : ℤ → ℤ

/-- The first slots of an array are written over. -/
def overwrite (d : Device) (values old : ℤ → ℤ) : ℤ → ℤ := fun i =>
  if d.Slot i then values i else old i

/-- The branch of `forge_touch_resync` for slots. -/
def resyncSlots (r : Readout) (s : ForgeTouch) : ForgeTouch × Bool :=
  match r.mtX with
  | none => (s, false)
  | some xs =>
    let s := { s with x := overwrite s.device xs s.x }
    match r.mtY, r.mtSlot with
    | some ys, some slot =>
      ({ s with y := overwrite s.device ys s.y, slot }, decide (s.device.Slot slot))
    | _, _ => (s, false)

/-- The branch for a single contact. -/
def resyncSingle (r : Readout) (s : ForgeTouch) : ForgeTouch × Bool :=
  match r.legacyX, r.legacyY with
  | some x, some y =>
    ({ s with x := Function.update s.x 0 x, y := Function.update s.y 0 y, slot := 0 }, true)
  | _, _ => (s, false)

def forgeTouchResync (r : Readout) (s : ForgeTouch) : ForgeTouch × Bool :=
  if s.device.mt then resyncSlots r { s with primary := -1, released := false }
  else resyncSingle r { s with primary := -1, released := false }

/-- What the other `ioctl` calls of `forge_touch_init` give. -/
structure Probe where
  slots : Option AbsInfo
  mtX : Option AbsInfo
  mtY : Option AbsInfo
  legacyX : Option AbsInfo
  legacyY : Option AbsInfo

/-- `count`, unless the slots are refused. -/
def Probe.count (p : Probe) :
    Option { n : ℤ // 1 ≤ n ∧ n ≤ forgeTouchSlots ∧ (p.slots.isSome = false → n = 1) } :=
  match p.slots with
  | some slots =>
    if h : slots.minimum ≠ 0 ∨ slots.maximum < 0 ∨ slots.maximum ≥ forgeTouchSlots then none
    else some ⟨slots.maximum + 1, by omega, by omega, fun hnone => absurd hnone Bool.noConfusion⟩
  | none => some ⟨1, by decide, by decide, fun _ => rfl⟩

def forgeTouchInit (p : Probe) (r : Readout) (width height : ℤ) : Option ForgeTouch :=
  let mt := p.slots.isSome
  match p.count, if mt then p.mtX else p.legacyX, if mt then p.mtY else p.legacyY with
  | some count, some x, some y =>
    if h : x.minimum < x.maximum ∧ y.minimum < y.maximum ∧ 1 ≤ width ∧ 1 ≤ height then
      let device : Device :=
        { minx := x.minimum, maxx := x.maximum, miny := y.minimum, maxy := y.maximum
          width, height, mt, count := count.val
          x_range := h.1, y_range := h.2.1, width_pos := h.2.2.1, height_pos := h.2.2.2
          count_pos := count.property.1, count_le := count.property.2.1
          single := count.property.2.2 }
      match forgeTouchResync r ⟨device, 0, 0, false, fun _ => 0, fun _ => 0, 0, 0, 0, 0, false⟩ with
      | (s, true) => some s
      | (_, false) => none
    else none
  | _, _, _ => none

/-! ### Gestures -/

inductive Outcome
  | nothing
  /-- -1 -/
  | error
  /-- 1 -/
  | gesture (x y dx dy : ℤ)
  deriving DecidableEq, Repr

def selectSlot (e : InputEvent) (s : ForgeTouch) : Option ForgeTouch :=
  if s.device.mt && e.is evAbs absMtSlot then
    if s.device.Slot e.value then some { s with slot := e.value } else none
  else some s

def place (e : InputEvent) (s : ForgeTouch) : ForgeTouch :=
  let s := if e.is evAbs s.device.codeX then { s with x := Function.update s.x s.slot e.value } else s
  if e.is evAbs s.device.codeY then { s with y := Function.update s.y s.slot e.value } else s

def track (e : InputEvent) (s : ForgeTouch) : ForgeTouch :=
  if s.device.tracks e then
    let down := s.device.isDown e.value
    let s :=
      if down && s.primary < 0 && !s.released then { s with primary := s.slot, beginx := int32Min }
      else s
    if !down && s.primary == s.slot then
      { s with released := true, endx := s.x s.slot, endy := s.y s.slot, primary := -1 }
    else s
  else s

def markBegin (s : ForgeTouch) : ForgeTouch :=
  if 0 ≤ s.primary ∧ s.beginx = int32Min then
    { s with beginx := s.x s.primary, beginy := s.y s.primary }
  else s

def finishFrame (e : InputEvent) (s : ForgeTouch) : ForgeTouch × Outcome :=
  if e.is evSyn synReport then
    let s := markBegin s
    if s.released then
      let x := s.device.scaledX s.endx
      let y := s.device.scaledY s.endy
      ({ s with released := false }, .gesture x y
        (if s.beginx = int32Min then 0 else x - s.device.scaledX s.beginx)
        (if s.beginx = int32Min then 0 else y - s.device.scaledY s.beginy))
    else (s, .nothing)
  else (s, .nothing)

def forgeTouchEvent (e : InputEvent) (r : Readout) (s : ForgeTouch) : ForgeTouch × Outcome :=
  if e.is evSyn synDropped then ({ s with dropped := true, primary := -1, released := false }, .nothing)
  else if s.dropped then
    if e.is evSyn synReport then
      match forgeTouchResync r s with
      | (s, false) => (s, .error)
      | (s, true) => ({ s with dropped := false }, .nothing)
    else (s, .nothing)
  else
    match selectSlot e s with
    | none => (s, .error)
    | some s => finishFrame e (track e (place e s))

/-! ### Scaling -/

theorem forgeTouchScaled_bounds {min max size : ℤ} (hrange : min < max) (hsize : 1 ≤ size)
    (value : ℤ) :
    0 ≤ forgeTouchScaled value min max size ∧ forgeTouchScaled value min max size < size := by
  unfold forgeTouchScaled
  simp only
  generalize hclamped :
    (if (if value < min then min else value) > max then max else
      (if value < min then min else value)) = clamped
  have hclamp : min ≤ clamped ∧ clamped ≤ max := by
    rw [← hclamped]
    split_ifs <;> omega
  have hnonneg : 0 ≤ (clamped - min) * (size - 1) := Int.mul_nonneg (by omega) (by omega)
  rw [Int.tdiv_eq_ediv_of_nonneg hnonneg]
  refine ⟨Int.ediv_nonneg hnonneg (by omega), ?_⟩
  have hle : (clamped - min) * (size - 1) ≤ (max - min) * (size - 1) :=
    Int.mul_le_mul_of_nonneg_right (by omega) (by omega)
  have hdiv : (clamped - min) * (size - 1) / (max - min) ≤ size - 1 := by
    apply Int.ediv_le_of_le_mul (by omega)
    rw [Int.mul_comm (size - 1)]
    exact hle
  omega

end ForgeOS.Native.Touch
