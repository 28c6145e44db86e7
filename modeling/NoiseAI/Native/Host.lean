import NoiseAI.Native.AppDelegate
import NoiseAI.Native.IOHandler
import NoiseAI.Native.Pipeline

/-!
# The app and the driver on one machine

`Host` is the running app, the handler of the driver, and what outlives the app: the shared
memory and `UserDefaults`. An event is one whole call: the user interface and CoreAudio call the
app, an audio unit that was started calls `auhalInputCallback`, the host of the driver calls the
handler. The app can be launched again at any time. `Quit` and a crash end the process and
nothing else; the segment and its name stay.
-/

namespace Noise

variable {α R M C : Type}

namespace NoiseMode

/-- `AudioManager.NoiseMode.rawValue`. -/
def rawValue : NoiseMode → String
  | .cpuSaver => "CPU Saver"
  | .balanced => "Balanced"
  | .maxQuality => "Max Quality"

/-- `AudioManager.NoiseMode(rawValue:)`. -/
def ofRawValue (rawValue : String) : Option NoiseMode :=
  [cpuSaver, balanced, maxQuality].find? fun mode => mode.rawValue == rawValue

end NoiseMode

namespace AudioManager

variable [Sample α]

/-- `setMode`, without `currentMode`. -/
def setMode (m : AudioManager α R M) (mode : NoiseMode) : AudioManager α R M :=
  { m with engineHandle := m.engineHandle.map (·.setMode mode) }

/-- An audio unit was started and not disposed: it calls `auhalInputCallback`. -/
def unitRuns (m : AudioManager α R M) : Bool :=
  (m.captureContext.bind (·.audioUnit)).any fun au => (m.units au).any (·.started)

/-- `auhalInputCallback`: `AudioUnitRender` fails (`none`) or fills the capture buffer. -/
def auhalInputCallback (api : Denoisers α R M) (m : AudioManager α R M) (inNumberFrames : Nat)
    (clock outputBuf : Nat → α) (rendered : Option (Nat → α)) : AudioManager α R M :=
  match m.captureContext.bind (·.audioUnit), rendered, m.engineHandle with
  | some _, some input, some ctx =>
    let (_, ctx, shm, _) := ctx.processAndWrite api clock m.shm outputBuf input
      (CaptureContext.framesToRender inNumberFrames)
    { m with engineHandle := some ctx, shm := shm }
  | _, _, _ => m

end AudioManager

/-- The app with its picker of the mode, the driver's handler, and `defaultMode` of
    `UserDefaults`. The shared memory is that of the `AudioManager`. -/
structure Host (α R M : Type) where
  app : AppDelegate α R M
  currentMode : NoiseMode
  defaultMode : Option String
  io : IOHandler
  -- what has happened so far: how many segments there were when the app was launched
  launchedAt : Nat

/-- What the calls of a launch return: of `rnnoise_create`, of the search for a model, of the
    load of the bundled model, of Core Audio. -/
structure Launch (R M : Type) where
  created : Option R
  found : Option (LoadOutcome M)
  bundled : Option (Option (LoadOutcome M))
  hal : Hardware
  o : StartOutcome R M

inductive HostEvent (α R M C : Type) where
  | app (ev : AppEvent R M)
  /-- The picker of `MenuBarView`. -/
  | pickMode (mode : NoiseMode)
  /-- The picker of `SettingsView`. -/
  | defaultMode (mode : NoiseMode)
  /-- `outputBuf` is what the thread-local buffer of the calling thread holds. -/
  | auhalInput (inNumberFrames : Nat) (clock outputBuf : Nat → α) (rendered : Option (Nat → α))
  /-- The process ends, with a `deinit` of the audio manager or without, and there is a new one. -/
  | relaunch (deinitialized : Bool) (l : Launch R M)
  | onStart
  | onStop
  | onReadClientInput (client : C) (bytesCount : Nat)
  /-- The process that hosts the driver starts again. -/
  | driverRestart

namespace Host

variable [Sample α]

/-- The shared memory. -/
def shm (s : Host α R M) : Shm α := s.app.audioManager.shm

/-- The host with another audio manager. -/
def withManager (s : Host α R M) (m : AudioManager α R M) : Host α R M :=
  { s with app := { s.app with audioManager := m } }

/-- The host after a call of the driver. -/
def withDriver (s : Host α R M) (io : IOHandler) (shm : Shm α) : Host α R M :=
  { s.withManager { s.app.audioManager with shm := shm } with io := io }

/-- `setMode` of the audio manager. -/
def setMode (s : Host α R M) (mode : NoiseMode) : Host α R M :=
  { s.withManager (s.app.audioManager.setMode mode) with currentMode := mode }

/-- The app is launched: its managers are made, and then `applicationDidFinishLaunching` restores
    the device and the mode. -/
def launch (shm : Shm α) (savedUID defaultMode : Option String) (io : IOHandler)
    (l : Launch R M) : Host α R M :=
  let s : Host α R M :=
    { app := .applicationDidFinishLaunching (.new shm l.created l.found l.bundled)
        (.new savedUID l.hal) l.o
      currentMode := .balanced
      defaultMode := defaultMode
      io := io
      launchedAt := shm.created }
  let savedMode := defaultMode.getD "Balanced"
  match NoiseMode.ofRawValue savedMode with
  | some mode => s.setMode mode
  | none => s

/-- One event. -/
def step (api : Denoisers α R M) (s : Host α R M) : HostEvent α R M C → Option (Host α R M)
  | .app ev => (s.app.step ev).map fun app => { s with app := app }
  | .pickMode mode =>
    if s.currentMode = mode then some s
    else some { s.setMode mode with defaultMode := some mode.rawValue }
  | .defaultMode mode => some { s with defaultMode := some mode.rawValue }
  | .auhalInput inNumberFrames clock outputBuf rendered =>
    if s.app.audioManager.unitRuns then
      some (s.withManager
        (s.app.audioManager.auhalInputCallback api inNumberFrames clock outputBuf rendered))
    else none
  | .relaunch deinitialized l =>
    let shm := if deinitialized then s.app.audioManager.deinit.shm else s.shm
    some (launch shm s.app.deviceManager.savedUID s.defaultMode s.io l)
  | .onStart =>
    let (io, shm) := s.io.onStartIO shmConsumer s.shm
    some (s.withDriver io shm)
  | .onStop => some { s with io := s.io.onStopIO }
  | .onReadClientInput _ bytesCount =>
    let (_, io, shm) := s.io.onReadClientInput shmConsumer s.shm bytesCount
    some (s.withDriver io shm)
  | .driverRestart => some { s with io := .new }

end Host

end Noise
