import NoiseAI.Native.AudioManager

/-!
# The app

Model of `applicationDidFinishLaunching` in `app/Sources/App/AppDelegate.swift`, as far as it
wires the two managers, and of the controls of `app/Sources/Views/MenuBarView.swift` that act
on them. An event carries what the calls of a `start` in it return. The saved mode comes with the
app as a whole; the popover and the status icon are left out.
-/

namespace Noise

variable {α R M : Type} [Sample α]

/-- The toggle of `MenuBarView` after it changed to `newValue`. -/
def AudioManager.onChange (m : AudioManager α R M) (newValue : Bool)
    (deviceID : Option AudioObjectID) (o : StartOutcome R M) : AudioManager α R M :=
  if newValue then m.start deviceID o else m.stop

/-- The managers, and the state of the toggle. -/
structure AppDelegate (α R M : Type) where
  audioManager : AudioManager α R M
  deviceManager : DeviceManager
  wantsProcessing : Bool

inductive AppEvent (R M : Type) where
  | refreshDevices (hal : Hardware) (o : StartOutcome R M)
  | selectDevice (uid : String) (o : StartOutcome R M)
  | toggle (o : StartOutcome R M)

namespace AppDelegate

/-- `applicationDidFinishLaunching`: restore the selected device on the audio manager. -/
def applicationDidFinishLaunching (audioManager : AudioManager α R M)
    (deviceManager : DeviceManager) (o : StartOutcome R M) : AppDelegate α R M where
  audioManager :=
    match deviceManager.selectedDeviceID with
    | some deviceID => audioManager.switchDevice (some deviceID) o
    | none => audioManager
  deviceManager := deviceManager
  wantsProcessing := false

/-- `onDeviceSelectionChanged`, if the device manager calls it. -/
def onDeviceSelectionChanged (a : AppDelegate α R M) (called : Option (Option AudioObjectID))
    (o : StartOutcome R M) : AppDelegate α R M :=
  match called with
  | none => a
  | some deviceID => { a with audioManager := a.audioManager.switchDevice deviceID o }

/-- One event. CoreAudio gives no two devices of a list the same uid, and only a device that
    is listed can be chosen. -/
def step (a : AppDelegate α R M) : AppEvent R M → Option (AppDelegate α R M)
  | .refreshDevices hal o =>
    if (hal.inputDevices.map (·.uid)).Nodup then
      let (deviceManager, called) := a.deviceManager.refreshDevices hal
      some ({ a with deviceManager := deviceManager }.onDeviceSelectionChanged called o)
    else none
  | .selectDevice uid o =>
    if a.deviceManager.inputDevices.any (·.uid == uid) then
      let (deviceManager, called) := a.deviceManager.selectDevice uid
      some ({ a with deviceManager := deviceManager }.onDeviceSelectionChanged called o)
    else none
  | .toggle o =>
    let newValue := !a.wantsProcessing
    let deviceID := a.deviceManager.selectedDeviceID
    some { a with
      wantsProcessing := newValue
      audioManager := a.audioManager.onChange newValue deviceID o }

end AppDelegate

end Noise
