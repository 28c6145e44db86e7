import NoiseAI.Native.AppDelegate

/-!
# The devices that are captured

The choice of the input device in `setupAudioUnit` of `app/Sources/App/AudioManager.swift`.
`CaptureDevices` is the app with a record of its audio units: which device each was set to, what
CoreAudio answered then, and what it had answered to the last `refreshDevices`. An event carries
what CoreAudio answers to a `setupAudioUnit` in it. Setting the device may fail, which is only
logged.
-/

namespace Noise

namespace Hardware

/-- `getDeviceName` of `AudioManager`. -/
def getDeviceName (hal : Hardware) (deviceID : AudioObjectID) : String :=
  ((hal.objects.find? (·.id == deviceID)).bind (·.name)).getD ""

/-- `name.contains("NoiseAI")`: our own virtual mic. -/
def isNoiseAI (hal : Hardware) (deviceID : AudioObjectID) : Bool :=
  "NoiseAI".toList <:+: (hal.getDeviceName deviceID).toList

end Hardware

namespace AudioManager

/-- `findPhysicalInputDevice`. -/
def findPhysicalInputDevice (hal : Hardware) : AudioObjectID :=
  let defaultDeviceID := hal.defaultInputDeviceID
  if !hal.isNoiseAI defaultDeviceID then defaultDeviceID
  else
    match hal.objects.find? fun o => o.inputStreams && !hal.isNoiseAI o.id with
    | some o => o.id
    -- fallback: the default device anyway
    | none => defaultDeviceID

/-- `inputDeviceID` of `setupAudioUnit`. -/
def inputDeviceID (hal : Hardware) (deviceID : Option AudioObjectID) : AudioObjectID :=
  match deviceID with
  | some explicit => explicit
  | none => findPhysicalInputDevice hal

end AudioManager

/-- What the event lists. -/
def AppEvent.listed {R M : Type} : AppEvent R M → Option Hardware
  | .refreshDevices hal _ => some hal
  | _ => none

/-- An audio unit when its device was set. -/
structure UnitDevice where
  device : AudioObjectID
  hal : Hardware
  listed : Hardware

structure CaptureDevices (α R M : Type) where
  app : AppDelegate α R M
  -- what has happened so far: what `refreshDevices` found last, and the audio units made
  listed : Hardware
  units : List UnitDevice

variable {α R M : Type} [Sample α]

namespace CaptureDevices

/-- The app is launched. -/
def launch (shm : Shm α) (created : Option R) (found : Option (LoadOutcome M))
    (bundled : Option (Option (LoadOutcome M))) (savedUID : Option String) (hal : Hardware)
    (o : StartOutcome R M) : CaptureDevices α R M where
  app := .applicationDidFinishLaunching (.new shm created found bundled) (.new savedUID hal) o
  listed := hal
  units := []

/-- One event. A `setupAudioUnit` that makes an audio unit makes a context for it. -/
def step (s : CaptureDevices α R M) (ev : AppEvent R M × Hardware) :
    Option (CaptureDevices α R M) :=
  (s.app.step ev.1).map fun app =>
    let listed := ev.1.listed.getD s.listed
    let device := AudioManager.inputDeviceID ev.2 app.audioManager.currentDeviceID
    { app := app
      listed := listed
      units :=
        if app.audioManager.nextContext = s.app.audioManager.nextContext then s.units
        else s.units ++ [⟨device, ev.2, listed⟩] }

end CaptureDevices

end Noise
