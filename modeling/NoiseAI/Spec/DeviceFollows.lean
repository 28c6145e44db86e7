import NoiseAI.Native.AppDelegate
import NoiseAI.Spec.CapturePipeline
import NoiseAI.Spec.DeviceSelection
import Mathlib.Data.List.Nodup

/-!
# The captured device and the selected device

`DeviceManager` knows the selected device by its uid, `AudioManager` the captured one by its
`AudioObjectID`. The callback between them is called when the uid changes, and not when a
refresh lists the selected uid with another id. `device_follows_iff` says that this is the
only way for the two to come apart.
-/

namespace Noise

namespace DeviceManager

variable {d : DeviceManager}

/-- With unique uids a listed device is found by its uid. -/
theorem device_eq_of_mem (hnodup : (d.inputDevices.map (·.uid)).Nodup) {device : AudioDevice}
    (hmem : device ∈ d.inputDevices) : d.device device.uid = some device := by
  unfold DeviceManager.device
  cases hfind : d.inputDevices.find? (·.uid == device.uid) with
  | none =>
    rw [List.find?_eq_none] at hfind
    exact absurd (beq_self_eq_true _) (hfind device hmem)
  | some found =>
    have huid : found.uid = device.uid := by simpa using List.find?_some hfind
    rw [List.inj_on_of_nodup_map hnodup (List.mem_of_find?_eq_some hfind) hmem huid]

/-- The id of the selected device, when it is listed. -/
theorem selectedDeviceID_of_mem (hnodup : (d.inputDevices.map (·.uid)).Nodup)
    {device : AudioDevice} (hmem : device ∈ d.inputDevices)
    (hselected : d.selectedDeviceUID = some device.uid) :
    d.selectedDeviceID = some device.id := by
  simp [selectedDeviceID, hselected, device_eq_of_mem hnodup hmem]

/-- After a fallback the selected device is the one the callback is called with. -/
theorem selectedDeviceID_fallback (hnodup : (d.inputDevices.map (·.uid)).Nodup)
    (hselected : d.selectedDeviceUID = (defaultDevice d.inputDevices).map (·.uid)) :
    d.selectedDeviceID = (defaultDevice d.inputDevices).map (·.id) := by
  cases hdefault : defaultDevice d.inputDevices with
  | none => simp [selectedDeviceID, hselected, hdefault]
  | some device =>
    rw [hdefault] at hselected
    exact selectedDeviceID_of_mem hnodup (defaultDevice_mem hdefault) hselected

end DeviceManager

variable {α R M : Type} [Sample α]

namespace AudioManager

variable {m : AudioManager α R M}

/-- `switchDevice` leaves the manager with the device it is given. -/
theorem currentDeviceID_switchDevice (hhandle : m.engineHandle.isSome = true)
    (deviceID : Option AudioObjectID) (o : StartOutcome R M) :
    (m.switchDevice deviceID o).currentDeviceID = deviceID ∧
      (m.switchDevice deviceID o).engineHandle.isSome = true := by
  rcases Bool.eq_false_or_eq_true m.isProcessing with hprocessing | hprocessing
  · rw [switchDevice_of_processing hprocessing]
    obtain ⟨ctx, hctx⟩ := Option.isSome_iff_exists.mp hhandle
    have hstopped := stopped_stop (m := { m with currentDeviceID := deviceID }) hctx
    obtain ⟨ctx', hctx'⟩ := Option.isSome_iff_exists.mp hstopped.engineHandle
    have hstarted := started_start hctx' deviceID o
    refine ⟨?_, hstarted.engineHandle⟩
    rw [hstarted.currentDeviceID, hstopped.currentDeviceID]
    split <;> rfl
  · rw [switchDevice_of_idle hprocessing]
    exact ⟨rfl, hhandle⟩

/-- The toggle leaves the manager with the device it had if that is the device given. -/
theorem currentDeviceID_onChange (hhandle : m.engineHandle.isSome = true) (newValue : Bool)
    (o : StartOutcome R M) :
    (m.onChange newValue m.currentDeviceID o).currentDeviceID = m.currentDeviceID ∧
      (m.onChange newValue m.currentDeviceID o).engineHandle.isSome = true := by
  obtain ⟨ctx, hctx⟩ := Option.isSome_iff_exists.mp hhandle
  cases newValue with
  | true =>
    have hstarted := started_start hctx m.currentDeviceID o
    refine ⟨?_, hstarted.engineHandle⟩
    show (m.start m.currentDeviceID o).currentDeviceID = m.currentDeviceID
    rw [hstarted.currentDeviceID]
    split <;> rfl
  | false =>
    have hstopped := stopped_stop hctx
    exact ⟨hstopped.currentDeviceID, hstopped.engineHandle⟩

end AudioManager

namespace AppDelegate

variable {a a' : AppDelegate α R M}

/-- The captured device is the selected one. -/
def Follows (a : AppDelegate α R M) : Prop :=
  a.audioManager.currentDeviceID = a.deviceManager.selectedDeviceID

/-- If the event is a refresh that still lists the selected uid, it lists it with the same id. -/
def KeepsID (a : AppDelegate α R M) (ev : AppEvent R M) : Prop :=
  ∀ hal o, ev = .refreshDevices hal o → ∀ device ∈ hal.inputDevices,
    a.deviceManager.selectedDeviceUID = some device.uid →
    a.deviceManager.selectedDeviceID = some device.id

/-- A refresh keeps the devices together exactly if it keeps the id. -/
theorem Follows.refresh_iff (hhandle : a.audioManager.engineHandle.isSome = true)
    (h : a.Follows) {hal : Hardware} {o : StartOutcome R M}
    (hstep : a.step (.refreshDevices hal o) = some a') :
    a'.audioManager.engineHandle.isSome = true ∧
      (a'.Follows ↔ a.KeepsID (.refreshDevices hal o)) := by
  simp only [step] at hstep
  split at hstep
  · rename_i hnodup
    obtain ⟨hkept, heq⟩ | ⟨uid, hselected, hgone, heq⟩ := a.deviceManager.refreshDevices_cases hal
    · -- the selected uid is still listed: no callback, and the manager keeps its id
      rw [heq] at hstep
      cases hstep
      refine ⟨hhandle, ?_⟩
      have hcurrent : a.audioManager.currentDeviceID = a.deviceManager.selectedDeviceID := h
      constructor
      · intro hfollows hal' o' hev device hmem hselected
        cases hev
        have hafter : a.audioManager.currentDeviceID =
            ({ a.deviceManager with inputDevices := hal.inputDevices } :
              DeviceManager).selectedDeviceID := hfollows
        rw [← hcurrent, hafter]
        exact DeviceManager.selectedDeviceID_of_mem hnodup hmem hselected
      · intro hkeeps
        show a.audioManager.currentDeviceID =
          ({ a.deviceManager with inputDevices := hal.inputDevices } :
            DeviceManager).selectedDeviceID
        cases hselected : a.deviceManager.selectedDeviceUID with
        | none => simp [hcurrent, DeviceManager.selectedDeviceID, hselected]
        | some uid =>
          obtain ⟨device, hmem, rfl⟩ := hkept uid hselected
          rw [hcurrent, hkeeps hal o rfl device hmem hselected]
          symm
          exact DeviceManager.selectedDeviceID_of_mem hnodup hmem hselected
    · -- the selected device is gone: the callback passes the fallback on
      rw [heq] at hstep
      cases hstep
      obtain ⟨hcurrent, hhandle'⟩ := AudioManager.currentDeviceID_switchDevice hhandle
        ((DeviceManager.defaultDevice hal.inputDevices).map (·.id)) o
      refine ⟨hhandle', ?_⟩
      constructor
      · intro _ hal' o' hev device hmem hselected'
        cases hev
        rw [hselected] at hselected'
        exact absurd ⟨device, hmem, (Option.some.inj hselected').symm⟩ hgone
      · intro _
        refine hcurrent.trans ?_
        symm
        exact DeviceManager.selectedDeviceID_fallback (d := DeviceManager.setSelectedDeviceUID
          { a.deviceManager with inputDevices := hal.inputDevices }
          ((DeviceManager.defaultDevice hal.inputDevices).map (·.uid))) hnodup rfl
  · exact nomatch hstep

/-- A choice is passed on. -/
theorem follows_selectDevice (hhandle : a.audioManager.engineHandle.isSome = true) {uid : String}
    {o : StartOutcome R M} (hstep : a.step (.selectDevice uid o) = some a') :
    a'.audioManager.engineHandle.isSome = true ∧ a'.Follows := by
  simp only [step] at hstep
  split at hstep
  · rename_i hlisted
    cases hstep
    obtain ⟨listed, hmem, huid⟩ := DeviceManager.any_uid_iff.mp hlisted
    cases hdevice : a.deviceManager.device uid with
    | none =>
      -- only a listed device can be chosen
      have hfind := List.find?_eq_none.mp hdevice listed hmem
      simp [huid] at hfind
    | some device =>
      have hdevice' : (a.deviceManager.setSelectedDeviceUID (some uid)).device uid =
          some device := hdevice
      obtain ⟨hcurrent, hhandle'⟩ :=
        AudioManager.currentDeviceID_switchDevice hhandle (some device.id) o
      simp only [DeviceManager.selectDevice, hdevice', Option.map_some, onDeviceSelectionChanged]
      refine ⟨hhandle', hcurrent.trans ?_⟩
      show some device.id = (a.deviceManager.setSelectedDeviceUID (some uid)).selectedDeviceID
      unfold DeviceManager.selectedDeviceID
      show some device.id =
        ((a.deviceManager.setSelectedDeviceUID (some uid)).device uid).map (·.id)
      rw [hdevice', Option.map_some]
  · exact nomatch hstep

/-- One event keeps the devices together exactly if it keeps the id of the selected one. -/
theorem Follows.step_iff {ev : AppEvent R M} (hhandle : a.audioManager.engineHandle.isSome = true)
    (h : a.Follows) (hstep : a.step ev = some a') :
    a'.audioManager.engineHandle.isSome = true ∧ (a'.Follows ↔ a.KeepsID ev) := by
  cases ev with
  | refreshDevices hal o => exact h.refresh_iff hhandle hstep
  | selectDevice uid o =>
    obtain ⟨hhandle', hfollows⟩ := follows_selectDevice hhandle hstep
    exact ⟨hhandle', fun _ _ _ hev => (nomatch hev), fun _ => hfollows⟩
  | toggle o =>
    -- the toggle gives the manager the device it has
    cases hstep
    have hcurrent : a.audioManager.currentDeviceID = a.deviceManager.selectedDeviceID := h
    obtain ⟨hafter, hhandle'⟩ :=
      AudioManager.currentDeviceID_onChange hhandle (!a.wantsProcessing) o
    rw [← hcurrent]
    exact ⟨hhandle', fun _ _ _ hev => (nomatch hev), fun _ => hafter.trans hcurrent⟩

/-- After launching, the captured device is the selected one. -/
theorem follows_launch (shm : Shm α) (created : Option R) (found : Option (LoadOutcome M))
    (bundled : Option (Option (LoadOutcome M))) (d : DeviceManager) (o : StartOutcome R M) :
    (applicationDidFinishLaunching (.new shm created found bundled) d o).Follows := by
  unfold Follows applicationDidFinishLaunching
  cases hselected : d.selectedDeviceID with
  | none => rfl
  | some deviceID => rfl

end AppDelegate

open AppDelegate

/-- From launching on, over every run of refreshes, choices and toggles, the captured device
    is the selected one after every event if and only if no refresh lists the selected uid
    with another id. -/
theorem device_follows_iff (shm : Shm α) (created : Option R) (found : Option (LoadOutcome M))
    (bundled : Option (Option (LoadOutcome M))) (savedUID : Option String) (hal : Hardware)
    (o : StartOutcome R M) (events : List (AppEvent R M)) (a : AppDelegate α R M)
    (hrun : Machine.run AppDelegate.step
      (applicationDidFinishLaunching (.new shm created found bundled) (.new savedUID hal) o)
      events = some a) :
    (∀ before after u, events = before ++ after →
      Machine.run AppDelegate.step
        (applicationDidFinishLaunching (.new shm created found bundled) (.new savedUID hal) o)
        before = some u →
      u.audioManager.currentDeviceID = u.deviceManager.selectedDeviceID) ↔
    ∀ before ev after u, events = before ++ ev :: after →
      Machine.run AppDelegate.step
        (applicationDidFinishLaunching (.new shm created found bundled) (.new savedUID hal) o)
        before = some u →
      u.KeepsID ev := by
  refine Machine.run_forall_iff (fun a => a.audioManager.engineHandle.isSome = true) Follows
    KeepsID (fun _ _ _ hhandle h hstep => h.step_iff hhandle hstep) ?_
    (follows_launch shm created found bundled _ o) hrun
  unfold applicationDidFinishLaunching
  cases (DeviceManager.new savedUID hal).selectedDeviceID with
  | none => rfl
  | some deviceID => rfl

/-! ## A microphone that comes back with another id -/

/-- The app on a machine with a built-in microphone. -/
def launched : AppDelegate ℚ Unit Unit :=
  applicationDidFinishLaunching plainManager (.new none onlyBuiltIn) .ok

/-- The built-in microphone has another id, as after a restart of the audio server. -/
def renumbered : Hardware where
  defaultInputDeviceID := 51
  objects := [{ builtInMic with id := 51 }]

/-- The refresh keeps the selection, and the manager keeps the id that is gone. -/
theorem stale_device_after_refresh :
    ∃ a, Machine.run AppDelegate.step launched [.refreshDevices renumbered .ok] = some a ∧
      a.deviceManager.selectedDeviceID = some 51 ∧ a.audioManager.currentDeviceID = some 50 := by
  refine ⟨_, rfl, by decide, by decide⟩

/-- A refresh that finds no device. -/
theorem device_follows_iff_unplugged :
    ∃ a, Machine.run AppDelegate.step launched [.refreshDevices noDevices .ok] = some a ∧
      a.audioManager.currentDeviceID = a.deviceManager.selectedDeviceID := by
  obtain ⟨a, hrun⟩ : ∃ a, Machine.run AppDelegate.step launched
    [.refreshDevices noDevices .ok] = some a := ⟨_, rfl⟩
  refine ⟨a, hrun, ?_⟩
  refine (device_follows_iff .empty (some ()) none none none onlyBuiltIn .ok
    [.refreshDevices noDevices .ok] a hrun).mpr ?_ [.refreshDevices noDevices .ok] [] a rfl hrun
  intro before ev after u hsplit hu hal o hev device hmem
  cases before with
  | nil =>
    cases hsplit
    cases hev
    exact absurd hmem List.not_mem_nil
  | cons first rest => cases rest <;> cases hsplit

end Noise
