import NoiseAI.Native.CaptureDevices
import NoiseAI.Spec.DeviceFollows

/-!
# The app does not capture its own microphone

The virtual microphone is an input device like any other, and often the default one. The list of
`DeviceManager` leaves it out, and `findPhysicalInputDevice` looks past it, so no audio unit is
set to it as long as there is another input (`never_captures_itself`).
-/

namespace Noise

/-- `findPhysicalInputDevice` gives our own microphone only if there is no other. -/
theorem Hardware.only_own_microphone {hal : Hardware}
    (h : hal.isNoiseAI (AudioManager.findPhysicalInputDevice hal) = true) :
    hal.isNoiseAI hal.defaultInputDeviceID = true ∧
      ∀ o ∈ hal.objects, o.inputStreams = true → hal.isNoiseAI o.id = true := by
  cases hdefault : hal.isNoiseAI hal.defaultInputDeviceID with
  | false =>
    simp only [AudioManager.findPhysicalInputDevice, hdefault, Bool.not_false, if_true] at h
    exact nomatch h
  | true =>
    refine ⟨rfl, fun o hmem hinput => ?_⟩
    cases hfind : hal.objects.find? fun o => o.inputStreams && !hal.isNoiseAI o.id with
    | some other =>
      -- another input was found, and that is the one taken
      have hother := List.find?_some hfind
      simp only [AudioManager.findPhysicalInputDevice, hdefault, Bool.not_true,
        Bool.false_eq_true, if_false, hfind] at h
      rw [h, Bool.not_true, Bool.and_false] at hother
      exact nomatch hother
    | none =>
      have hnone := List.find?_eq_none.mp hfind o hmem
      simpa [hinput] using hnone

/-- A listed device has input streams and is not our own. -/
theorem Hardware.mem_inputDevices {hal : Hardware} {device : AudioDevice}
    (h : device ∈ hal.inputDevices) :
    ∃ o ∈ hal.objects, o.id = device.id ∧ o.inputStreams = true ∧ o.isNoiseAI = false := by
  obtain ⟨o, hmem, ho⟩ := List.mem_filterMap.mp h
  split at ho
  · rename_i hlisted
    cases ho
    simp only [Bool.and_eq_true, Bool.not_eq_true'] at hlisted
    exact ⟨o, hmem, rfl, hlisted.1, hlisted.2⟩
  · exact nomatch ho

namespace DeviceManager

variable {d : DeviceManager}

/-- The selected device is a listed one. -/
theorem selectedDeviceID_mem {id : AudioObjectID} (h : d.selectedDeviceID = some id) :
    ∃ device ∈ d.inputDevices, device.id = id := by
  obtain ⟨device, hdevice, rfl⟩ := Option.map_eq_some_iff.mp h
  obtain ⟨uid, -, hfind⟩ := Option.bind_eq_some_iff.mp hdevice
  exact ⟨device, List.mem_of_find?_eq_some hfind, rfl⟩

/-- `refreshDevices` calls back with a device that it has listed, if any. -/
theorem refreshDevices_calls (d : DeviceManager) (hal : Hardware) {id : AudioObjectID}
    (h : (d.refreshDevices hal).2 = some (some id)) :
    ∃ device ∈ hal.inputDevices, device.id = id := by
  rcases d.refreshDevices_cases hal with ⟨-, heq⟩ | ⟨uid, -, -, heq⟩
  · rw [heq] at h
    exact nomatch h
  · rw [heq] at h
    obtain ⟨device, hdefault, rfl⟩ := Option.map_eq_some_iff.mp (Option.some.inj h)
    exact ⟨device, defaultDevice_mem hdefault, rfl⟩

/-- `selectDevice` calls back with a listed device. -/
theorem selectDevice_calls (d : DeviceManager) (uid : String) {id : AudioObjectID}
    (h : (d.selectDevice uid).2 = some (some id)) :
    ∃ device ∈ d.inputDevices, device.id = id := by
  obtain ⟨device, hdevice, heq⟩ := Option.map_eq_some_iff.mp h
  cases heq
  exact ⟨device, List.mem_of_find?_eq_some hdevice, rfl⟩

end DeviceManager

variable {α R M : Type} [Sample α]

namespace AudioManager

/-- A call that makes at most one audio unit, for the device it is given. -/
structure Makes (m m' : AudioManager α R M) (deviceID : Option AudioObjectID) : Prop where
  engineHandle : m'.engineHandle.isSome = true
  one : m'.nextContext = m.nextContext ∨
    m'.nextContext = m.nextContext + 1 ∧ m'.currentDeviceID = deviceID

variable {m : AudioManager α R M}

theorem makes_start (hhandle : m.engineHandle.isSome = true) (deviceID : Option AudioObjectID)
    (o : StartOutcome R M) : Makes m (m.start deviceID o) deviceID := by
  obtain ⟨ctx, hctx⟩ := Option.isSome_iff_exists.mp hhandle
  have hstarted := started_start hctx deviceID o
  refine ⟨hstarted.engineHandle, ?_⟩
  rw [hstarted.nextContext, hstarted.currentDeviceID]
  cases o.sys.creates with
  | false => exact .inl rfl
  | true =>
    cases o.makesUnit with
    | false => exact .inl rfl
    | true => exact .inr ⟨rfl, rfl⟩

theorem makes_stop (hhandle : m.engineHandle.isSome = true) (deviceID : Option AudioObjectID) :
    Makes m m.stop deviceID := by
  obtain ⟨ctx, hctx⟩ := Option.isSome_iff_exists.mp hhandle
  have hstopped := stopped_stop hctx
  exact ⟨hstopped.engineHandle, .inl hstopped.nextContext⟩

theorem makes_switchDevice (hhandle : m.engineHandle.isSome = true)
    (deviceID : Option AudioObjectID) (o : StartOutcome R M) :
    Makes m (m.switchDevice deviceID o) deviceID := by
  rcases Bool.eq_false_or_eq_true m.isProcessing with hprocessing | hprocessing
  · rw [switchDevice_of_processing hprocessing]
    obtain ⟨ctx, hctx⟩ := Option.isSome_iff_exists.mp hhandle
    have hstopped := stopped_stop (m := { m with currentDeviceID := deviceID }) hctx
    have hstarted := makes_start hstopped.engineHandle deviceID o
    refine ⟨hstarted.engineHandle, ?_⟩
    rcases hstarted.one with hsame | ⟨hone, hdevice⟩
    · exact .inl (hsame.trans hstopped.nextContext)
    · exact .inr ⟨hone.trans (congrArg (· + 1) hstopped.nextContext), hdevice⟩
  · rw [switchDevice_of_idle hprocessing]
    exact ⟨hhandle, .inl rfl⟩

end AudioManager

namespace AppDelegate

open AudioManager (Makes)

variable {a a' : AppDelegate α R M}

/-- The device that an event makes an audio unit for is a listed one, unless none is given. -/
structure MakesListed (a a' : AppDelegate α R M) : Prop where
  engineHandle : a'.audioManager.engineHandle.isSome = true
  one : a'.audioManager.nextContext = a.audioManager.nextContext ∨
    a'.audioManager.nextContext = a.audioManager.nextContext + 1 ∧
      ∀ id, a'.audioManager.currentDeviceID = some id →
        ∃ device ∈ a'.deviceManager.inputDevices, device.id = id

omit [Sample α] in
theorem MakesListed.of_makes {deviceID : Option AudioObjectID}
    (h : Makes a.audioManager a'.audioManager deviceID)
    (hlisted : ∀ id, deviceID = some id →
      ∃ device ∈ a'.deviceManager.inputDevices, device.id = id) : MakesListed a a' := by
  refine ⟨h.engineHandle, ?_⟩
  rcases h.one with hsame | ⟨hone, hdevice⟩
  · exact .inl hsame
  · exact .inr ⟨hone, fun id hid => hlisted id (hdevice.symm.trans hid)⟩

/-- The callback of the device manager, with the new list in place. -/
theorem makes_onDeviceSelectionChanged (hhandle : a.audioManager.engineHandle.isSome = true)
    (d : DeviceManager) (called : Option (Option AudioObjectID)) (o : StartOutcome R M)
    (hlisted : ∀ id, called = some (some id) → ∃ device ∈ d.inputDevices, device.id = id) :
    MakesListed a ({ a with deviceManager := d }.onDeviceSelectionChanged called o) := by
  cases called with
  | none => exact ⟨hhandle, .inl rfl⟩
  | some deviceID =>
    exact .of_makes (AudioManager.makes_switchDevice hhandle deviceID o)
      fun id hid => hlisted id (congrArg some hid)

theorem makes_step (hhandle : a.audioManager.engineHandle.isSome = true) {ev : AppEvent R M}
    (hstep : a.step ev = some a') : MakesListed a a' := by
  cases ev with
  | refreshDevices hal o =>
    simp only [step] at hstep
    split at hstep
    · cases hstep
      refine makes_onDeviceSelectionChanged hhandle _ _ o fun id hid => ?_
      rw [DeviceManager.inputDevices_refreshDevices]
      exact a.deviceManager.refreshDevices_calls hal hid
    · cases hstep
  | selectDevice uid o =>
    simp only [step] at hstep
    split at hstep
    · cases hstep
      exact makes_onDeviceSelectionChanged hhandle _ _ o fun id hid =>
        a.deviceManager.selectDevice_calls uid hid
    · cases hstep
  | toggle o =>
    cases hstep
    have hlisted := fun id (hid : a.deviceManager.selectedDeviceID = some id) =>
      DeviceManager.selectedDeviceID_mem hid
    cases hwants : a.wantsProcessing with
    | false =>
      refine .of_makes (a.audioManager.makes_start hhandle _ o) hlisted
    | true => exact .of_makes (a.audioManager.makes_stop hhandle _) hlisted

theorem deviceManager_onDeviceSelectionChanged (a : AppDelegate α R M)
    (called : Option (Option AudioObjectID)) (o : StartOutcome R M) :
    (a.onDeviceSelectionChanged called o).deviceManager = a.deviceManager := by
  cases called with
  | none => rfl
  | some deviceID => rfl

/-- The list is that of the last refresh. -/
theorem inputDevices_step {ev : AppEvent R M} (hstep : a.step ev = some a') :
    a'.deviceManager.inputDevices =
      (ev.listed.map (·.inputDevices)).getD a.deviceManager.inputDevices := by
  cases ev with
  | refreshDevices hal o =>
    simp only [step] at hstep
    split at hstep
    · cases hstep
      rw [deviceManager_onDeviceSelectionChanged]
      exact a.deviceManager.inputDevices_refreshDevices hal
    · cases hstep
  | selectDevice uid o =>
    simp only [step] at hstep
    split at hstep
    · cases hstep
      rw [deviceManager_onDeviceSelectionChanged]
      rfl
    · cases hstep
  | toggle o =>
    cases hstep
    rfl

end AppDelegate

/-- A unit is set to a listed device, or to what `findPhysicalInputDevice` gives. -/
def UnitDevice.Chosen (u : UnitDevice) : Prop :=
  (∃ device ∈ u.listed.inputDevices, device.id = u.device) ∨
    u.device = AudioManager.findPhysicalInputDevice u.hal

namespace CaptureDevices

variable {s s' : CaptureDevices α R M}

/-- The record is complete, and its units are set to chosen devices. -/
structure Inv (s : CaptureDevices α R M) : Prop where
  engineHandle : s.app.audioManager.engineHandle.isSome = true
  inputDevices : s.app.deviceManager.inputDevices = s.listed.inputDevices
  made : s.units.length = s.app.audioManager.nextContext
  chosen : ∀ u ∈ s.units, u.Chosen

theorem inv_launch (shm : Shm α) (created : Option R) (found : Option (LoadOutcome M))
    (bundled : Option (Option (LoadOutcome M))) (savedUID : Option String) (hal : Hardware)
    (o : StartOutcome R M) :
    (launch shm created found bundled savedUID hal o : CaptureDevices α R M).Inv := by
  have hlist : (DeviceManager.new savedUID hal).inputDevices = hal.inputDevices := by
    rw [DeviceManager.new, DeviceManager.inputDevices_restoreSelectedDevice,
      DeviceManager.inputDevices_refreshDevices]
  unfold launch AppDelegate.applicationDidFinishLaunching
  cases (DeviceManager.new savedUID hal).selectedDeviceID with
  | none => exact ⟨rfl, hlist, rfl, fun _ h => nomatch h⟩
  | some deviceID => exact ⟨rfl, hlist, rfl, fun _ h => nomatch h⟩

theorem Inv.step (h : s.Inv) {ev : AppEvent R M × Hardware} (hstep : s.step ev = some s') :
    s'.Inv := by
  obtain ⟨app, happ, rfl⟩ := Option.map_eq_some_iff.mp hstep
  obtain ⟨hhandle, hone⟩ := AppDelegate.makes_step h.engineHandle happ
  have hlist : app.deviceManager.inputDevices = (ev.1.listed.getD s.listed).inputDevices := by
    rw [AppDelegate.inputDevices_step happ, h.inputDevices]
    cases ev.1.listed with
    | none => rfl
    | some hal => rfl
  dsimp only
  rcases hone with hsame | ⟨hone, hlisted⟩
  · -- no unit is made
    refine ⟨hhandle, hlist, ?_, ?_⟩
    · rw [if_pos hsame, hsame]
      exact h.made
    · rw [if_pos hsame]
      exact h.chosen
  · -- one is made, for a listed device or for the one that is found
    have hnew : app.audioManager.nextContext ≠ s.app.audioManager.nextContext := by omega
    refine ⟨hhandle, hlist, ?_, ?_⟩
    · rw [if_neg hnew, List.length_append, h.made, hone]
      rfl
    · rw [if_neg hnew]
      intro u hu
      rcases List.mem_append.mp hu with hu | hu
      · exact h.chosen u hu
      · obtain rfl := List.mem_singleton.mp hu
        cases hid : app.audioManager.currentDeviceID with
        | none => exact .inr (by rw [AudioManager.inputDeviceID])
        | some id =>
          obtain ⟨device, hmem, rfl⟩ := hlisted id hid
          exact .inl ⟨device, hlist ▸ hmem, by rw [AudioManager.inputDeviceID]⟩

end CaptureDevices

/-- The app does not capture its own microphone. Over every run of refreshes, choices and toggles,
    whatever is plugged in when: if an audio unit is set to a device that is our own microphone
    then, the id was another input device's when the devices were last listed, or the default
    input is our own microphone and there is no other input. All units that were made are on
    record. -/
theorem never_captures_itself (shm : Shm α) (created : Option R) (found : Option (LoadOutcome M))
    (bundled : Option (Option (LoadOutcome M))) (savedUID : Option String) (hal : Hardware)
    (o : StartOutcome R M) (events : List (AppEvent R M × Hardware)) (s : CaptureDevices α R M)
    (hrun : Machine.run CaptureDevices.step
      (.launch shm created found bundled savedUID hal o) events = some s) :
    s.units.length = s.app.audioManager.nextContext ∧
    ∀ u ∈ s.units, u.hal.isNoiseAI u.device = true →
      (∃ other ∈ u.listed.objects,
        other.id = u.device ∧ other.inputStreams = true ∧ other.isNoiseAI = false) ∨
      u.hal.isNoiseAI u.hal.defaultInputDeviceID = true ∧
        ∀ input ∈ u.hal.objects, input.inputStreams = true → u.hal.isNoiseAI input.id = true := by
  have hinv : s.Inv := Machine.run_invariant (fun _ => True) CaptureDevices.Inv
    (fun _ _ _ _ h hstep => h.step hstep)
    (CaptureDevices.inv_launch shm created found bundled savedUID hal o) (fun _ _ => trivial) hrun
  refine ⟨hinv.made, fun u hu hown => ?_⟩
  rcases hinv.chosen u hu with ⟨device, hmem, hid⟩ | hphysical
  · obtain ⟨other, hother, heq, hinput, hname⟩ := Hardware.mem_inputDevices hmem
    exact .inl ⟨other, hother, heq.trans hid, hinput, hname⟩
  · rw [hphysical] at hown
    exact .inr (Hardware.only_own_microphone hown)

/-! ## Our own microphone as the default input -/

/-- The virtual microphone as the driver names it. -/
def ownMic : AudioObject where
  id := 60
  inputStreams := true
  name := some "NoiseAI Microphone"
  uid := some "NoiseAI_VirtualMic_UID"

/-- Only our own microphone is there. -/
def onlyOwn : Hardware where
  defaultInputDeviceID := 60
  objects := [ownMic]

/-- A built-in microphone next to ours, which is the default. -/
def ownAndBuiltIn : Hardware where
  defaultInputDeviceID := 60
  objects := [ownMic, builtInMic]

/-- Nothing was selectable at launch; then a microphone is plugged in, and processing starts: the
    unit is set to that microphone. -/
theorem never_captures_itself_plugged :
    ∃ s : CaptureDevices ℚ Unit Unit, Machine.run CaptureDevices.step
        (.launch .empty (some ()) none none none onlyOwn .ok)
        [(.refreshDevices ownAndBuiltIn .ok, ownAndBuiltIn), (.toggle .ok, ownAndBuiltIn)] =
          some s ∧
      s.units.map (·.device) = [50] ∧
      ∀ u ∈ s.units, u.hal.isNoiseAI u.device = true →
        (∃ other ∈ u.listed.objects,
          other.id = u.device ∧ other.inputStreams = true ∧ other.isNoiseAI = false) ∨
        u.hal.isNoiseAI u.hal.defaultInputDeviceID = true ∧
          ∀ input ∈ u.hal.objects,
            input.inputStreams = true → u.hal.isNoiseAI input.id = true := by
  obtain ⟨s, hrun, hdevices⟩ : ∃ s : CaptureDevices ℚ Unit Unit, Machine.run CaptureDevices.step
      (.launch .empty (some ()) none none none onlyOwn .ok)
      [(.refreshDevices ownAndBuiltIn .ok, ownAndBuiltIn), (.toggle .ok, ownAndBuiltIn)] =
        some s ∧ s.units.map (·.device) = [50] :=
    ⟨_, rfl, by decide +kernel⟩
  exact ⟨s, hrun, hdevices, (never_captures_itself .empty (some ()) none none none onlyOwn .ok _ s
    hrun).2⟩

end Noise
