import NoiseAI.Native.BridgeCalls
import NoiseAI.Native.ShmSystem

/-!
# From the microphone to the client

`Pipeline` is the app with its engine, the driver, and the shared memory between them. The
capture callback `auhalInputCallback` of `app/Sources/App/AudioManager.swift` runs
`process_frame` and then, one shared access at a time, `write`; the rest of `ShmSystem` goes on
in between. The calls on the engine from the main thread are atomic. Restarting the app is one
label: the old process crashes, and the new one creates an engine.

A session lasts until the buffers of the engine are cleared. What each session was given, and
what `process_mono_chunk` made of it, is kept on record.
-/

namespace Noise

/-- `CaptureContext.maxFrames`. -/
def CaptureContext.maxFrames : Nat := 4096

/-- `framesToRender`: clamped to the pre-allocated buffer. -/
def CaptureContext.framesToRender (inNumberFrames : Nat) : Nat :=
  min inNumberFrames CaptureContext.maxFrames

structure Pipeline (α R M : Type) where
  engine : Engine α R M
  outputBuf : Nat → α
  system : ShmSystem α
  -- what has happened so far: the number of the session, and of every session the mono samples
  -- and the chunks, each with its result
  session : Nat
  given : Nat → List α
  chunks : Nat → List (List α × List α)

inductive PipelineLabel (α R M : Type) where
  /-- `AudioUnitRender` fails (`none`), or fills the capture buffer; `clock` is the time each
      inference takes. -/
  | capture (inNumberFrames : Nat) (clock : Nat → α) (rendered : Option (Nat → α))
  | engineStart (created : Option R) (found : Option (LoadOutcome M))
  | engineStop
  | setMode (mode : NoiseMode)
  | setDryMix (mix : α)
  | setAttenuationLimit (db : α)
  | loadDeepfilterModel (file : Option (LoadOutcome M))
  | relaunch (created : Option R) (found : Option (LoadOutcome M))
  | system (l : ShmLabel α)

variable {α R M : Type} [Sample α]

/-- A chunk that enters `process_mono_chunk`, with its result. -/
def Engine.chunkResult (api : Denoisers α R M) (entry : Engine α R M × α) : List α × List α :=
  let chunk := entry.1.inputBuffer.take DENOISE_FRAME_SIZE
  (chunk, (entry.1.denoiseChunk api entry.2 chunk).1)

namespace Pipeline

/-- A new process, with its engine, before any segment was created. -/
def init (created : Option R) (found : Option (LoadOutcome M)) : Pipeline α R M where
  engine := (NoiseEngineContext.create 48000 2 128 created found).engine
  outputBuf := fun _ => 0
  system := ShmSystem.init
  session := 0
  given := fun _ => []
  chunks := fun _ => []

/-- The engine has cleared its buffers. -/
def startOver (s : Pipeline α R M) (e : Engine α R M) : Pipeline α R M :=
  { s with engine := e, session := s.session + 1 }

/-- Put a call of `process_frame` on record. -/
def record (api : Denoisers α R M) (s : Pipeline α R M) (c : ProcessCall α) : Pipeline α R M :=
  { s with
    given := Function.update s.given s.session (s.given s.session ++
      (List.range c.numFrames).map (Engine.monoSample s.engine.channels c.input))
    chunks := Function.update s.chunks s.session (s.chunks s.session ++
      (s.engine.entries api c).map (Engine.chunkResult api)) }

/-- `noise_engine_process_and_write`, up to the first access of `write`. -/
def processAndWrite (api : Denoisers α R M) (clock : Nat → α) (s : Pipeline α R M)
    (input : Nat → α) (numFrames : Nat) : Option (Pipeline α R M) :=
  match s.system.app.buffer.bind (·.segment) with
  | none => some s
  | some _ =>
    let c : ProcessCall α := ⟨clock, input, s.outputBuf, numFrames⟩
    let (ok, output, engine) := s.engine.process api c
    if !ok then some { s with engine := engine, outputBuf := output }
    else (s.system.step (.processAndWrite output numFrames)).map fun t =>
      { s.record api c with engine := engine, outputBuf := output, system := t }

/-- `auhalInputCallback`. -/
def auhalInputCallback (api : Denoisers α R M) (clock : Nat → α) (s : Pipeline α R M)
    (inNumberFrames : Nat) (rendered : Option (Nat → α)) : Option (Pipeline α R M) :=
  match rendered with
  | none => some s
  | some input => s.processAndWrite api clock input (CaptureContext.framesToRender inNumberFrames)

/-- One step. The callback runs while the app does nothing else on shared memory. -/
def step (api : Denoisers α R M) (s : Pipeline α R M) :
    PipelineLabel α R M → Option (Pipeline α R M)
  | .capture inNumberFrames clock rendered =>
    match s.system.app.task with
    | .idle => s.auhalInputCallback api clock inNumberFrames rendered
    | _ => none
  | .engineStart created found =>
    let format : AudioFormat := { sampleRate := 48000, channels := 2, framesPerBuffer := 128 }
    some (s.startOver (s.engine.init format created found).2)
  | .engineStop => some (s.startOver s.engine.shutdown)
  | .setMode mode =>
    if s.engine.mode = mode then some s else some (s.startOver (s.engine.setMode mode))
  | .setDryMix mix => some { s with engine := s.engine.setDryMix mix }
  | .setAttenuationLimit db => some { s with engine := s.engine.setAttenuationLimit db }
  | .loadDeepfilterModel file =>
    some { s with engine := (s.engine.loadDeepfilterModelFrom file).2 }
  | .relaunch created found =>
    (s.system.step .crash).map fun t =>
      { s.startOver (NoiseEngineContext.create 48000 2 128 created found).engine with
        outputBuf := fun _ => 0
        system := t }
  | .system l =>
    match l with
    -- only through the capture callback, and with a new process
    | .processAndWrite _ _ | .crash => none
    | l => (s.system.step l).map fun t => { s with system := t }

/-- What `process_mono_chunk` made of session `k`. -/
def denoised (s : Pipeline α R M) (k : Nat) : List α := (s.chunks k).flatMap Prod.snd

end Pipeline

end Noise
