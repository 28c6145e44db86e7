import Mathlib.Data.List.Infix

/-!
# The device manager

Model of `app/Sources/Models/DeviceManager.swift`. What CoreAudio answers to the queries
of `refreshDevices` is an argument. A call of `onDeviceSelectionChanged` is returned:
`none` when it is not called, `some id` when it is called with `id`. `selectedDeviceUID`
is stored in `UserDefaults` whenever it is set.
-/

namespace Noise

abbrev AudioObjectID := Nat

/-- What CoreAudio answers about one audio object; `none` is a failed query. -/
structure AudioObject where
  id : AudioObjectID
  inputStreams : Bool
  name : Option String
  uid : Option String
  deriving DecidableEq, Repr

/-- What CoreAudio answers to one `refreshDevices`. -/
structure Hardware where
  defaultInputDeviceID : AudioObjectID
  objects : List AudioObject
  deriving DecidableEq, Repr

structure AudioDevice where
  id : AudioObjectID
  uid : String
  name : String
  isDefault : Bool
  deriving DecidableEq, Repr

namespace AudioObject

/-- `getDeviceName`. -/
def getDeviceName (o : AudioObject) : String := o.name.getD "Unknown Device"

/-- `getDeviceUID`. -/
def getDeviceUID (o : AudioObject) : String := o.uid.getD ""

/-- `name.contains("NoiseAI")`: the app's own virtual device. -/
def isNoiseAI (o : AudioObject) : Bool := "NoiseAI".toList <:+: o.getDeviceName.toList

end AudioObject

/-- The list `refreshDevices` builds: every object with input streams but our own. -/
def Hardware.inputDevices (hal : Hardware) : List AudioDevice :=
  hal.objects.filterMap fun o =>
    if o.inputStreams && !o.isNoiseAI then
      some
        { id := o.id
          uid := o.getDeviceUID
          name := o.getDeviceName
          isDefault := o.id == hal.defaultInputDeviceID }
    else none

structure DeviceManager where
  inputDevices : List AudioDevice
  selectedDeviceUID : Option String
  -- "selectedDeviceUID" in `UserDefaults`
  savedUID : Option String
  deriving DecidableEq, Repr

namespace DeviceManager

/-- The default input device, or else the first one. -/
def defaultDevice (devices : List AudioDevice) : Option AudioDevice :=
  (devices.find? (·.isDefault)).or devices.head?

/-- `inputDevices.first(where: { $0.uid == uid })`. -/
def device (d : DeviceManager) (uid : String) : Option AudioDevice :=
  d.inputDevices.find? (·.uid == uid)

/-- Set `selectedDeviceUID`, with its `didSet`. -/
def setSelectedDeviceUID (d : DeviceManager) (uid : Option String) : DeviceManager :=
  { d with selectedDeviceUID := uid, savedUID := uid }

/-- `refreshDevices`: if the selected device is no longer available, fall back. -/
def refreshDevices (d : DeviceManager) (hal : Hardware) :
    DeviceManager × Option (Option AudioObjectID) :=
  let d := { d with inputDevices := hal.inputDevices }
  match d.selectedDeviceUID with
  | none => (d, none)
  | some selectedUID =>
    if d.inputDevices.any (·.uid == selectedUID) then (d, none)
    else
      let fallback := defaultDevice d.inputDevices
      (d.setSelectedDeviceUID (fallback.map (·.uid)), some (fallback.map (·.id)))

/-- `selectDevice`. -/
def selectDevice (d : DeviceManager) (uid : String) :
    DeviceManager × Option (Option AudioObjectID) :=
  let d := d.setSelectedDeviceUID (some uid)
  (d, (d.device uid).map fun device => some device.id)

/-- `selectedDeviceID`. -/
def selectedDeviceID (d : DeviceManager) : Option AudioObjectID :=
  (d.selectedDeviceUID.bind d.device).map (·.id)

/-- `restoreSelectedDevice`. -/
def restoreSelectedDevice (d : DeviceManager) : DeviceManager :=
  match d.savedUID with
  | some savedUID =>
    if d.inputDevices.any (·.uid == savedUID) then d.setSelectedDeviceUID (some savedUID)
    else d.setSelectedDeviceUID ((defaultDevice d.inputDevices).map (·.uid))
  | none => d.setSelectedDeviceUID ((defaultDevice d.inputDevices).map (·.uid))

/-- `init`, with what `UserDefaults` holds. No callback is installed yet. -/
def new (savedUID : Option String) (hal : Hardware) : DeviceManager :=
  let d : DeviceManager := { inputDevices := [], selectedDeviceUID := none, savedUID }
  (d.refreshDevices hal).1.restoreSelectedDevice

end DeviceManager

/-- A change that CoreAudio reports, or a choice of the user from the list shown. -/
inductive DeviceEvent where
  | refreshDevices (hal : Hardware)
  | selectDevice (uid : String)

/-- One event. Only a device that is listed can be chosen. -/
def DeviceManager.step (d : DeviceManager) : DeviceEvent → Option DeviceManager
  | .refreshDevices hal => some (d.refreshDevices hal).1
  | .selectDevice uid =>
    if d.inputDevices.any (·.uid == uid) then some (d.selectDevice uid).1 else none

end Noise
