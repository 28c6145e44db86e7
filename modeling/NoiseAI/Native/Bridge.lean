import NoiseAI.Native.Engine
import NoiseAI.Native.SharedRingBuffer

/-!
# The C bridge

Model of `bridge/src/noise_bridge.cpp`. A handle is a pointer to a context: `none` is the
null pointer, `some h` the context number `h`. `Bridge` is the state of the app's process:
the contexts that are alive, the shared memory, and the thread-local output buffer of
`noise_engine_process_and_write`. A call on a handle whose context does not exist is not
defined (`none`). Logging is left out.
-/

namespace Noise

/-- `"/com.noiseai.audio"`. -/
def shmName : String := "/com.noiseai.audio"

/-- `NoiseEngineContext`. -/
structure NoiseEngineContext (α R M : Type) where
  engine : Engine α R M
  sharedBuffer : Option SharedRingBuffer

structure Bridge (α R M : Type) where
  shm : Shm α
  contexts : Nat → Option (NoiseEngineContext α R M)
  outputBuf : Nat → α

variable {α R M : Type} [Sample α]

namespace NoiseEngineContext

/-- Samples of about 100 ms: `static_cast<size_t>(sample_rate * channels / 10)`. -/
def shmCapacity (sampleRate channels : Nat) : Nat := u32 (sampleRate * channels) / 10

/-- `shared_buffer.reset()`. -/
def resetSharedBuffer (ctx : NoiseEngineContext α R M) (m : Shm α) :
    NoiseEngineContext α R M × Shm α :=
  match ctx.sharedBuffer with
  | none => (ctx, m)
  | some b => ({ ctx with sharedBuffer := none }, b.destroy m)

/-- `noise_shm_create`: the new buffer is constructed before the old one is destroyed. -/
def shmCreate (ctx : NoiseEngineContext α R M) (m : Shm α) (sampleRate channels : Nat)
    (sys : SysCalls) : Bool × NoiseEngineContext α R M × Shm α :=
  let (b, m) :=
    SharedRingBuffer.create m shmName (shmCapacity sampleRate channels) channels sampleRate sys
  let m := (ctx.resetSharedBuffer m).2
  (b.isValid, { ctx with sharedBuffer := some b }, m)

/-- `noise_shm_destroy`. -/
def shmDestroy (ctx : NoiseEngineContext α R M) (m : Shm α) : NoiseEngineContext α R M × Shm α :=
  ctx.resetSharedBuffer m

/-- The context `noise_engine_create` allocates; a failed `init` shows only in the status. -/
def create (sampleRate channels framesPerBuffer : Nat) (created : Option R)
    (found : Option (LoadOutcome M)) : NoiseEngineContext α R M where
  engine := (Engine.new.init { sampleRate, channels, framesPerBuffer } created found).2
  sharedBuffer := none

/-- `noise_engine_start`: a new `init`, with a fixed format. -/
def start (ctx : NoiseEngineContext α R M) (created : Option R) (found : Option (LoadOutcome M)) :
    Bool × NoiseEngineContext α R M :=
  let format : AudioFormat := { sampleRate := 48000, channels := 2, framesPerBuffer := 128 }
  let (ok, engine) := ctx.engine.init format created found
  (ok, { ctx with engine := engine })

/-- `noise_engine_stop`. -/
def stop (ctx : NoiseEngineContext α R M) : NoiseEngineContext α R M :=
  { ctx with engine := ctx.engine.shutdown }

/-- `noise_engine_set_mode`, with an `int` that stands for a mode. -/
def setMode (ctx : NoiseEngineContext α R M) (mode : NoiseMode) : NoiseEngineContext α R M :=
  { ctx with engine := ctx.engine.setMode mode }

/-- `noise_engine_load_deepfilter_model`. -/
def loadDeepfilterModel (ctx : NoiseEngineContext α R M) (file : Option (LoadOutcome M)) :
    Bool × NoiseEngineContext α R M :=
  let (ok, engine) := ctx.engine.loadDeepfilterModelFrom file
  (ok, { ctx with engine := engine })

/-- `noise_engine_process`. -/
def process (api : Denoisers α R M) (clock : Nat → α) (ctx : NoiseEngineContext α R M)
    (input output : Nat → α) (numFrames : Nat) : Bool × (Nat → α) × NoiseEngineContext α R M :=
  let (ok, output, engine) := ctx.engine.processFrame api clock input output numFrames
  (ok, output, { ctx with engine := engine })

/-- `noise_engine_process_and_write`: `output` is the thread-local buffer before the call. -/
def processAndWrite (api : Denoisers α R M) (clock : Nat → α) (ctx : NoiseEngineContext α R M)
    (m : Shm α) (output input : Nat → α) (numFrames : Nat) :
    Bool × NoiseEngineContext α R M × Shm α × (Nat → α) :=
  match ctx.sharedBuffer with
  | none => (false, ctx, m, output)
  | some b =>
    if !b.isValid then (false, ctx, m, output)
    else
      let totalSamples := u32 (numFrames * 2)
      let (ok, output, engine) := ctx.engine.processFrame api clock input output numFrames
      let ctx := { ctx with engine := engine }
      if !ok then (false, ctx, m, output)
      else
        let (writeOk, m) := b.write m ((List.range totalSamples).map output)
        (writeOk, ctx, m, output)

/-- `noise_shm_write`. -/
def shmWrite (ctx : NoiseEngineContext α R M) (m : Shm α) (data : List α) : Bool × Shm α :=
  match ctx.sharedBuffer with
  | none => (false, m)
  | some b => if !b.isValid then (false, m) else b.write m data

end NoiseEngineContext

namespace Bridge

/-- A process without contexts. -/
def empty (m : Shm α) : Bridge α R M where
  shm := m
  contexts := fun _ => none
  outputBuf := fun _ => 0

/-- The buffer of a context that is alive. -/
def sharedBuffer (b : Bridge α R M) (h : Nat) : Option SharedRingBuffer :=
  (b.contexts h).bind (·.sharedBuffer)

/-- `noise_engine_create`: a new context `h`; a failed `init` shows only in the status. -/
def noiseEngineCreate (b : Bridge α R M) (h : Nat) (sampleRate channels framesPerBuffer : Nat)
    (created : Option R) (found : Option (LoadOutcome M)) : Option (Bridge α R M) :=
  match b.contexts h with
  | some _ => none
  | none =>
    let format := { sampleRate, channels, framesPerBuffer }
    let ctx := { engine := (Engine.new.init format created found).2, sharedBuffer := none }
    some { b with contexts := Function.update b.contexts h (some ctx) }

/-- `noise_engine_destroy`. -/
def noiseEngineDestroy (b : Bridge α R M) : Option Nat → Option (Bridge α R M)
  | none => some b
  | some h => (b.contexts h).map fun ctx =>
    let (_, m) := ctx.resetSharedBuffer b.shm
    { b with shm := m, contexts := Function.update b.contexts h none }

/-- `noise_shm_create`. -/
def noiseShmCreate (b : Bridge α R M) (sampleRate channels : Nat) (sys : SysCalls) :
    Option Nat → Option (Bool × Bridge α R M)
  | none => some (false, b)
  | some h => (b.contexts h).map fun ctx =>
    let (ok, ctx, m) := ctx.shmCreate b.shm sampleRate channels sys
    (ok, { b with shm := m, contexts := Function.update b.contexts h (some ctx) })

/-- `noise_shm_destroy`. -/
def noiseShmDestroy (b : Bridge α R M) : Option Nat → Option (Bridge α R M)
  | none => some b
  | some h => (b.contexts h).map fun ctx =>
    let (ctx, m) := ctx.shmDestroy b.shm
    { b with shm := m, contexts := Function.update b.contexts h (some ctx) }

/-- `noise_engine_process_and_write`. -/
def noiseEngineProcessAndWrite (api : Denoisers α R M) (clock : Nat → α) (b : Bridge α R M)
    (input : Nat → α) (numFrames : Nat) : Option Nat → Option (Bool × Bridge α R M)
  | none => some (false, b)
  | some h => (b.contexts h).map fun ctx =>
    let (ok, ctx, m, output) := ctx.processAndWrite api clock b.shm b.outputBuf input numFrames
    (ok, { shm := m, contexts := Function.update b.contexts h (some ctx), outputBuf := output })

end Bridge

end Noise
