import NoiseAI.Native.Bridge
import NoiseAI.Native.DeviceManager

/-!
# The audio manager

Model of `app/Sources/App/AudioManager.swift`. The engine handle is the context it points
to. Calls that leave the object are appended to `log` with what they returned, in the
order of the source; so are the changes of `isProcessing` and the bounds of `start`.
What such a call returns is an argument (`StartOutcome`). An audio unit is known by the
number of units made before it, a `CaptureContext` likewise.

The properties set on an audio unit (a failure is only logged) are left out. The callback itself,
and the choice of a physical device when none is selected, have modules of their own.
-/

namespace Noise

/-- `CaptureContext`. -/
structure CaptureContext where
  id : Nat
  audioUnit : Option Nat
  deriving DecidableEq, Repr

/-- An audio unit that is not disposed. -/
structure AudioUnit where
  initialized : Bool
  started : Bool
  deriving DecidableEq, Repr

/-- A call that leaves `AudioManager`, with what it returned. -/
inductive AudioCall where
  | startEntered
  | startLeft
  | setProcessing (isProcessing : Bool)
  | noiseShmCreate (ok : Bool)
  | noiseShmDestroy
  | noiseEngineStart (ok : Bool)
  | noiseEngineStop
  | noiseEngineDestroy
  | audioComponentFindNext (ok : Bool)
  -- `none`: no instance was made
  | audioComponentInstanceNew (unit : Option Nat)
  | audioUnitInitialize (unit : Nat) (ok : Bool)
  | audioOutputUnitStart (unit : Nat) (ok : Bool)
  | audioOutputUnitStop (unit : Nat)
  | audioComponentInstanceDispose (unit : Nat)
  | passRetained (context : Nat)
  | release (context : Nat)
  deriving DecidableEq, Repr

/-- The call reports a failure. -/
def AudioCall.failed : AudioCall → Bool
  | .noiseShmCreate ok => !ok
  | .noiseEngineStart ok => !ok
  | .audioComponentFindNext ok => !ok
  | .audioComponentInstanceNew unit => unit.isNone
  | .audioUnitInitialize _ ok => !ok
  | .audioOutputUnitStart _ ok => !ok
  | _ => false

/-- What the calls of one `start` return: the system calls of `noise_shm_create`, what
    `init` of the engine gets, and the CoreAudio calls. -/
structure StartOutcome (R M : Type) where
  sys : SysCalls
  created : Option R
  found : Option (LoadOutcome M)
  audioComponentFindNext : Bool
  audioComponentInstanceNew : Bool
  audioUnitInitialize : Bool
  audioOutputUnitStart : Bool

namespace AudioManager

inductive EngineStatus where
  | stopped
  | running
  | error
  deriving DecidableEq, Repr

end AudioManager

/-- The fields of `AudioManager`, then the world it acts on: the shared memory, the audio
    units that are not disposed, how many units and contexts were made, and the calls. -/
structure AudioManager (α R M : Type) where
  isProcessing : Bool
  engineStatus : AudioManager.EngineStatus
  currentDeviceID : Option AudioObjectID
  engineHandle : Option (NoiseEngineContext α R M)
  captureContext : Option CaptureContext
  retainedContext : Option Nat
  shm : Shm α
  units : Nat → Option AudioUnit
  nextUnit : Nat
  nextContext : Nat
  log : List AudioCall

variable {α R M : Type} [Sample α]

namespace AudioManager

/-! ## Calls that leave the object -/

/-- Note a call. -/
def call (m : AudioManager α R M) (c : AudioCall) : AudioManager α R M :=
  { m with log := m.log ++ [c] }

/-- Set `isProcessing`. Its `didSet` updates the status icon. -/
def setProcessing (m : AudioManager α R M) (isProcessing : Bool) : AudioManager α R M :=
  { m.call (.setProcessing isProcessing) with isProcessing := isProcessing }

/-- `noise_shm_create(handle, 48000, 2)`. -/
def noiseShmCreate (m : AudioManager α R M) (ctx : NoiseEngineContext α R M) (sys : SysCalls) :
    Bool × AudioManager α R M :=
  let (ok, ctx, shm) := ctx.shmCreate m.shm 48000 2 sys
  (ok, { m.call (.noiseShmCreate ok) with engineHandle := some ctx, shm := shm })

/-- `noise_engine_start(handle)`. -/
def noiseEngineStart (m : AudioManager α R M) (created : Option R)
    (found : Option (LoadOutcome M)) : AudioManager α R M :=
  match m.engineHandle with
  | none => m
  | some ctx =>
    let (ok, ctx) := ctx.start created found
    { m.call (.noiseEngineStart ok) with engineHandle := some ctx }

/-- `noise_engine_stop(handle)`. -/
def noiseEngineStop (m : AudioManager α R M) (ctx : NoiseEngineContext α R M) :
    AudioManager α R M :=
  { m.call .noiseEngineStop with engineHandle := some ctx.stop }

/-- `noise_shm_destroy(handle)`. -/
def noiseShmDestroy (m : AudioManager α R M) : AudioManager α R M :=
  match m.engineHandle with
  | none => m
  | some ctx =>
    let (ctx, shm) := ctx.shmDestroy m.shm
    { m.call .noiseShmDestroy with engineHandle := some ctx, shm := shm }

/-- `AudioComponentInstanceNew(component, &au)`. -/
def audioComponentInstanceNew (m : AudioManager α R M) (ok : Bool) :
    Option Nat × AudioManager α R M :=
  if ok then
    (some m.nextUnit, { m.call (.audioComponentInstanceNew (some m.nextUnit)) with
      units := Function.update m.units m.nextUnit (some { initialized := false, started := false })
      nextUnit := m.nextUnit + 1 })
  else (none, m.call (.audioComponentInstanceNew none))

/-- `AudioUnitInitialize(audioUnit)`. -/
def audioUnitInitialize (m : AudioManager α R M) (unit : Nat) (ok : Bool) : AudioManager α R M :=
  { m.call (.audioUnitInitialize unit ok) with
    units := Function.update m.units unit
      ((m.units unit).map fun u => { u with initialized := u.initialized || ok }) }

/-- `AudioOutputUnitStart(audioUnit)`. -/
def audioOutputUnitStart (m : AudioManager α R M) (unit : Nat) (ok : Bool) :
    AudioManager α R M :=
  { m.call (.audioOutputUnitStart unit ok) with
    units := Function.update m.units unit
      ((m.units unit).map fun u => { u with started := u.started || ok }) }

/-- `AudioOutputUnitStop(au)`, then `AudioComponentInstanceDispose(au)`. -/
def stopAndDispose (m : AudioManager α R M) (unit : Nat) : AudioManager α R M :=
  let m := m.call (.audioOutputUnitStop unit)
  { m.call (.audioComponentInstanceDispose unit) with
    units := Function.update m.units unit none }

/-! ## The methods -/

/-- `setupAudioUnit`. -/
def setupAudioUnit (m : AudioManager α R M) (o : StartOutcome R M) : AudioManager α R M :=
  let m := m.call (.audioComponentFindNext o.audioComponentFindNext)
  if !o.audioComponentFindNext then { m with engineStatus := .error }
  else
    match m.audioComponentInstanceNew o.audioComponentInstanceNew with
    | (none, m) => { m with engineStatus := .error }
    | (some audioUnit, m) =>
      -- the context, retained for the callback
      let m := { m.call (.passRetained m.nextContext) with
        captureContext := some { id := m.nextContext, audioUnit := some audioUnit }
        retainedContext := some m.nextContext
        nextContext := m.nextContext + 1 }
      let m := m.audioUnitInitialize audioUnit o.audioUnitInitialize
      if !o.audioUnitInitialize then { m with engineStatus := .error }
      else
        let m := m.audioOutputUnitStart audioUnit o.audioOutputUnitStart
        if !o.audioOutputUnitStart then { m with engineStatus := .error } else m

/-- The body of `start(withDeviceID:)`. -/
def startBody (m : AudioManager α R M) (deviceID : Option AudioObjectID) (o : StartOutcome R M) :
    AudioManager α R M :=
  match m.engineHandle with
  | none => m.setProcessing false
  | some ctx =>
    let (ok, m) := m.noiseShmCreate ctx o.sys
    if !ok then { m with engineStatus := .error }.setProcessing false
    else
      -- what it returns is not looked at
      let m := m.noiseEngineStart o.created o.found
      let m := { m with currentDeviceID := deviceID }.setupAudioUnit o
      { m.setProcessing true with engineStatus := .running }

/-- `start(withDeviceID:)`. -/
def start (m : AudioManager α R M) (deviceID : Option AudioObjectID) (o : StartOutcome R M) :
    AudioManager α R M :=
  ((m.call .startEntered).startBody deviceID o).call .startLeft

/-- Stop and dispose the audio unit of the context. -/
def disposeUnit (m : AudioManager α R M) : AudioManager α R M :=
  match m.captureContext.bind (·.audioUnit) with
  | none => m
  | some au =>
    { m.stopAndDispose au with
      captureContext := m.captureContext.map fun ctx => { ctx with audioUnit := none } }

/-- Release the retained context. -/
def releaseContext (m : AudioManager α R M) : AudioManager α R M :=
  match m.retainedContext with
  | none => { m with captureContext := none }
  | some context =>
    { m.call (.release context) with retainedContext := none, captureContext := none }

/-- `stop`. -/
def stop (m : AudioManager α R M) : AudioManager α R M :=
  let m := m.disposeUnit.releaseContext
  let m :=
    match m.engineHandle with
    | none => m
    | some ctx => (m.noiseEngineStop ctx).noiseShmDestroy
  { m.setProcessing false with engineStatus := .stopped }

/-- `switchDevice(to:)`: if currently processing, capture is restarted. -/
def switchDevice (m : AudioManager α R M) (deviceID : Option AudioObjectID)
    (o : StartOutcome R M) : AudioManager α R M :=
  let m := { m with currentDeviceID := deviceID }
  if m.isProcessing then m.stop.start deviceID o else m

/-- `init`, in a process with shared memory `shm`: the engine is created, and the bundled
    model is loaded into it if there is one. -/
def new (shm : Shm α) (created : Option R) (found : Option (LoadOutcome M))
    (bundled : Option (Option (LoadOutcome M))) : AudioManager α R M :=
  let ctx : NoiseEngineContext α R M := .create 48000 2 128 created found
  { isProcessing := false
    engineStatus := .stopped
    currentDeviceID := none
    engineHandle := some (match bundled with
      | none => ctx
      | some file => (ctx.loadDeepfilterModel file).2)
    captureContext := none
    retainedContext := none
    shm := shm
    units := fun _ => none
    nextUnit := 0
    nextContext := 0
    log := [] }

/-- `deinit`: `stop`, then `noise_engine_destroy(handle)`. -/
def deinit (m : AudioManager α R M) : AudioManager α R M :=
  let m := m.stop
  match m.engineHandle with
  | none => m
  | some ctx =>
    let (_, shm) := ctx.resetSharedBuffer m.shm
    { m.call .noiseEngineDestroy with engineHandle := none, shm := shm }

end AudioManager

end Noise
