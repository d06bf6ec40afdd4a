import ForgeOS.Session.Resumption

/-! Sessions that wait for the operator, or for the device to come back. They are looked up
by the serial alone. -/

namespace ForgeOS.Session

open ForgeOS.Python ForgeOS.Library.Sorting

/-- The session stands at the question gate, and its profile holds the serial. -/
def waitsFor (serial : String) (d : SessionDir) : Bool :=
  d.file.current.state = .questionGate && orText d.profile.serial "" = serial

/-- `find_waiting_session` -/
def findWaitingSession (devices : Devices) (serial : String) : Option SessionDir :=
  if serial = "" then none else (listed devices).find? (waitsFor serial)

theorem sorts_devices {devices : Devices} (hnodup : (names devices).Nodup) :
    Sorts (fun d d' : SessionDir => d.name ≤ d'.name) devices where
  total _ _ := String.le_total _ _
  trans _ _ _ := String.le_trans
  anti _ hd _ hd' hle hge := List.inj_on_of_nodup_map hnodup hd hd' (String.le_antisymm hle hge)

/-- The session that is found is the first by name of those that wait with the serial. -/
theorem findWaitingSession_eq_some_iff {devices : Devices} (hnodup : (names devices).Nodup)
    {serial : String} {d : SessionDir} :
    findWaitingSession devices serial = some d ↔ serial ≠ "" ∧ d ∈ devices ∧
      waitsFor serial d = true ∧ ∀ d' ∈ devices, waitsFor serial d' = true → d.name ≤ d'.name := by
  rw [findWaitingSession]
  split_ifs with hserial
  · simp [hserial]
  · rw [listed, find?_insertionSort_eq_some_iff (sorts_devices hnodup)]
    exact (and_iff_right hserial).symm

end ForgeOS.Session
