import NoiseAI.ForStd.Machine
import NoiseAI.Native.DeviceManager

/-!
# The selected microphone

While devices come and go, the selected microphone should be a device that is there
(`SelectionPresent`). A selection is always a listed device (`Listed`), but the fallback of
`refreshDevices` needs a selection to fall back from: it is skipped when the last device was
unplugged before. `selection_present_iff` says that this is the only way to end without a
selection while devices are there.
-/

namespace Noise

namespace DeviceManager

variable {d d' : DeviceManager} {devices : List AudioDevice}

/-! ## The fallback -/

theorem defaultDevice_mem {device : AudioDevice} (h : defaultDevice devices = some device) :
    device ∈ devices := by
  unfold defaultDevice at h
  cases hfind : devices.find? (·.isDefault) with
  | some found =>
    rw [hfind, Option.some_or] at h
    cases h
    exact List.mem_of_find?_eq_some hfind
  | none =>
    rw [hfind, Option.none_or] at h
    exact List.mem_of_head? h

theorem defaultDevice_eq_none : defaultDevice devices = none ↔ devices = [] := by
  unfold defaultDevice
  cases devices with
  | nil => simp
  | cons device rest =>
    simp only [List.head?_cons, Option.or_eq_none_iff, reduceCtorEq, and_false]

theorem any_uid_iff {uid : String} :
    devices.any (·.uid == uid) = true ↔ ∃ device ∈ devices, device.uid = uid := by
  simp only [List.any_eq_true, beq_iff_eq]

/-! ## What the operations do -/

/-- `refreshDevices` keeps the selection if there is none or if it is listed, and falls
    back otherwise. -/
theorem refreshDevices_cases (d : DeviceManager) (hal : Hardware) :
    ((∀ uid, d.selectedDeviceUID = some uid → ∃ device ∈ hal.inputDevices, device.uid = uid) ∧
      d.refreshDevices hal = ({ d with inputDevices := hal.inputDevices }, none)) ∨
    ∃ uid, d.selectedDeviceUID = some uid ∧ (¬ ∃ device ∈ hal.inputDevices, device.uid = uid) ∧
      d.refreshDevices hal =
        (setSelectedDeviceUID { d with inputDevices := hal.inputDevices }
          ((defaultDevice hal.inputDevices).map (·.uid)),
        some ((defaultDevice hal.inputDevices).map (·.id))) := by
  cases hselected : d.selectedDeviceUID with
  | none =>
    left
    simp [refreshDevices, hselected]
  | some uid =>
    by_cases hlisted : ∃ device ∈ hal.inputDevices, device.uid = uid
    · left
      have hany := any_uid_iff.mpr hlisted
      constructor
      · intro uid' h
        cases h
        exact hlisted
      · simp only [refreshDevices, hselected, hany, if_true]
    · right
      refine ⟨uid, rfl, hlisted, ?_⟩
      have hany : hal.inputDevices.any (·.uid == uid) = false := by
        rw [Bool.eq_false_iff]
        exact fun h => hlisted (any_uid_iff.mp h)
      simp [refreshDevices, hselected, hany]

@[simp] theorem inputDevices_refreshDevices (d : DeviceManager) (hal : Hardware) :
    (d.refreshDevices hal).1.inputDevices = hal.inputDevices := by
  obtain ⟨_, h⟩ | ⟨uid, _, _, h⟩ := d.refreshDevices_cases hal
  · rw [h]
  · rw [h]
    rfl

@[simp] theorem inputDevices_restoreSelectedDevice (d : DeviceManager) :
    d.restoreSelectedDevice.inputDevices = d.inputDevices := by
  unfold restoreSelectedDevice
  split
  · split <;> rfl
  · rfl

/-- After `restoreSelectedDevice` the saved device or the fallback is selected. -/
theorem selectedDeviceUID_restoreSelectedDevice (d : DeviceManager) :
    (∃ device ∈ d.inputDevices, d.restoreSelectedDevice.selectedDeviceUID = some device.uid) ∨
      d.restoreSelectedDevice.selectedDeviceUID =
        (defaultDevice d.inputDevices).map (·.uid) := by
  unfold restoreSelectedDevice
  split
  · rename_i savedUID _
    split
    · rename_i hany
      left
      obtain ⟨device, hmem, rfl⟩ := any_uid_iff.mp hany
      exact ⟨device, hmem, rfl⟩
    · right
      rfl
  · right
    rfl

/-! ## The selection is there -/

/-- With devices present one of them is selected, without any there is no selection. -/
structure SelectionPresent (d : DeviceManager) : Prop where
  listed : d.inputDevices ≠ [] →
    ∃ device ∈ d.inputDevices, d.selectedDeviceUID = some device.uid
  empty : d.inputDevices = [] → d.selectedDeviceUID = none

/-- The event does not report devices when there were none. -/
def NotBackFromEmpty (d : DeviceManager) (ev : DeviceEvent) : Prop :=
  ∀ hal, ev = .refreshDevices hal → d.inputDevices = [] → hal.inputDevices = []

/-- The fallback is a selection that is there. -/
theorem selectionPresent_of_fallback
    (h : d.selectedDeviceUID = (defaultDevice d.inputDevices).map (·.uid)) :
    d.SelectionPresent := by
  constructor
  · intro hne
    cases hdefault : defaultDevice d.inputDevices with
    | none => exact absurd (defaultDevice_eq_none.mp hdefault) hne
    | some device =>
      refine ⟨device, defaultDevice_mem hdefault, ?_⟩
      rw [h, hdefault]
      rfl
  · intro hempty
    rw [h, defaultDevice_eq_none.mpr hempty]
    rfl

/-- A selection that is listed is there. -/
theorem selectionPresent_of_mem {device : AudioDevice} (hmem : device ∈ d.inputDevices)
    (h : d.selectedDeviceUID = some device.uid) : d.SelectionPresent where
  listed := fun _ => ⟨device, hmem, h⟩
  empty := fun hempty => absurd hmem (by rw [hempty]; exact List.not_mem_nil)

theorem selectionPresent_new (savedUID : Option String) (hal : Hardware) :
    (new savedUID hal).SelectionPresent := by
  unfold new
  -- the saved device is listed, or the constructor falls back to the default
  obtain ⟨device, hmem, h⟩ | h := selectedDeviceUID_restoreSelectedDevice
    (refreshDevices { inputDevices := [], selectedDeviceUID := none, savedUID } hal).1
  · refine selectionPresent_of_mem ?_ h
    rw [inputDevices_restoreSelectedDevice]
    exact hmem
  · apply selectionPresent_of_fallback
    rw [inputDevices_restoreSelectedDevice]
    exact h

/-- A refresh loses the selection exactly when it finds devices again. -/
theorem SelectionPresent.refreshDevices_iff (h : d.SelectionPresent) (hal : Hardware) :
    (d.refreshDevices hal).1.SelectionPresent ↔
      (d.inputDevices = [] → hal.inputDevices = []) := by
  -- the selection is kept, or its device is gone and the default takes over
  obtain ⟨hkept, heq⟩ | ⟨uid, hselected, _, heq⟩ := d.refreshDevices_cases hal
  · rw [heq]
    constructor
    · intro hnext hempty
      by_contra hne
      obtain ⟨device, _, hdevice⟩ := hnext.listed hne
      -- nothing was selected, and a refresh that keeps the selection selects nothing
      have hnone := h.empty hempty
      simp only [hnone] at hdevice
      exact nomatch hdevice
    · intro hback
      by_cases hempty : d.inputDevices = []
      · have hnone := h.empty hempty
        have hstill := hback hempty
        exact ⟨fun hne => absurd hstill hne, fun _ => hnone⟩
      · obtain ⟨device, _, hdevice⟩ := h.listed hempty
        obtain ⟨device', hmem, huid⟩ := hkept _ hdevice
        exact selectionPresent_of_mem hmem (by rw [huid]; exact hdevice)
  · rw [heq]
    constructor
    · intro _ hempty
      have hnone := h.empty hempty
      rw [hselected] at hnone
      exact nomatch hnone
    · intro _
      exact selectionPresent_of_fallback rfl

/-- A choice from the list is there. -/
theorem selectionPresent_selectDevice {uid : String}
    (hlisted : d.inputDevices.any (·.uid == uid) = true) :
    (d.selectDevice uid).1.SelectionPresent := by
  obtain ⟨device, hmem, rfl⟩ := any_uid_iff.mp hlisted
  exact selectionPresent_of_mem hmem rfl

/-- One event keeps the selection there exactly if it does not bring devices back. -/
theorem SelectionPresent.step_iff (h : d.SelectionPresent) {ev : DeviceEvent}
    (hstep : d.step ev = some d') : d'.SelectionPresent ↔ d.NotBackFromEmpty ev := by
  cases ev with
  | refreshDevices hal =>
    cases hstep
    rw [h.refreshDevices_iff]
    constructor
    · intro hback hal' heq
      cases heq
      exact hback
    · intro hback
      exact hback hal rfl
  | selectDevice uid =>
    simp only [step] at hstep
    split at hstep
    · rename_i hlisted
      cases hstep
      constructor
      · intro _ hal heq
        exact nomatch heq
      · intro _
        exact selectionPresent_selectDevice hlisted
    · exact nomatch hstep

end DeviceManager

open DeviceManager

/-- Over every run of hotplug events and choices, the selection is there after every event
    if and only if no refresh finds devices when none was listed before. -/
theorem selection_present_iff (savedUID : Option String) (hal : Hardware)
    (events : List DeviceEvent) (d : DeviceManager)
    (hrun : Machine.run DeviceManager.step (.new savedUID hal) events = some d) :
    (∀ before after u, events = before ++ after →
      Machine.run DeviceManager.step (.new savedUID hal) before = some u →
      u.SelectionPresent) ↔
    ∀ before ev after u, events = before ++ ev :: after →
      Machine.run DeviceManager.step (.new savedUID hal) before = some u →
      u.NotBackFromEmpty ev := by
  refine Machine.run_forall_iff (fun _ => True) SelectionPresent NotBackFromEmpty ?_ trivial
    (selectionPresent_new savedUID hal) hrun
  intro d ev d' _ h hstep
  exact ⟨trivial, h.step_iff hstep⟩

/-! ## Unplugging the only microphone -/

/-- A built-in microphone. -/
def builtInMic : AudioObject where
  id := 50
  inputStreams := true
  name := some "MacBook Pro Microphone"
  uid := some "BuiltInMicrophoneDevice"

/-- Exactly the built-in microphone is there. -/
def onlyBuiltIn : Hardware where
  defaultInputDeviceID := 50
  objects := [builtInMic]

/-- No input device is there. -/
def noDevices : Hardware where
  defaultInputDeviceID := 0
  objects := []

/-- The only microphone goes and comes back: it is listed, and nothing is selected. -/
theorem no_selection_after_replug :
    ∃ d, Machine.run DeviceManager.step (.new none onlyBuiltIn)
        [.refreshDevices noDevices, .refreshDevices onlyBuiltIn] = some d ∧
      d.inputDevices ≠ [] ∧ d.selectedDeviceUID = none ∧ ¬ d.SelectionPresent := by
  refine ⟨_, rfl, by decide, by decide, ?_⟩
  intro h
  obtain ⟨device, _, hdevice⟩ := h.listed (by decide)
  exact nomatch hdevice

/-- A run without that event: choosing the microphone that is listed. -/
theorem selection_present_iff_builtIn :
    (new none onlyBuiltIn).SelectionPresent ∧
      (selectDevice (new none onlyBuiltIn) "BuiltInMicrophoneDevice").1.SelectionPresent := by
  have hrun : Machine.run DeviceManager.step (.new none onlyBuiltIn)
      [.selectDevice "BuiltInMicrophoneDevice"] =
        some (selectDevice (new none onlyBuiltIn) "BuiltInMicrophoneDevice").1 := by
    decide
  have hall := (selection_present_iff none onlyBuiltIn _ _ hrun).mpr (by
    intro before ev after u hsplit hu hal heq
    cases before with
    | nil =>
      cases hsplit
      exact nomatch heq
    | cons first rest =>
      cases rest <;> cases hsplit)
  exact ⟨hall [] _ _ rfl rfl, hall _ [] _ rfl hrun⟩

end Noise
