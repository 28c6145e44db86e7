import NoiseAI.Native.Bridge
import NoiseAI.Native.EngineCalls

/-!
# Sequences of bridge calls

What the calls on one handle work on: the context it points to, the shared memory, and the
thread-local buffer of `noise_engine_process_and_write`. One constructor of `BridgeOp` for
each function of the bridge that changes the context or the shared memory, with what the world
decides about the call; `noise_shm_write`, which works on one segment only, is part of
`elsewhere` here.
-/

namespace Noise

structure NoiseEngineHandle (α R M : Type) where
  ctx : NoiseEngineContext α R M
  shm : Shm α
  outputBuf : Nat → α

inductive BridgeOp (α R M : Type) where
  | start (created : Option R) (found : Option (LoadOutcome M))
  | stop
  | setMode (mode : NoiseMode)
  | setDryMix (mix : α)
  | setAttenuationLimit (db : α)
  | loadDeepfilterModel (file : Option (LoadOutcome M))
  | shmCreate (sampleRate channels : Nat) (sys : SysCalls)
  | shmDestroy
  | process (call : ProcessCall α)
  | processAndWrite (clock input : Nat → α) (numFrames : Nat)
  /-- The other processes and threads, and the calls on other handles. -/
  | elsewhere (shm : Shm α) (outputBuf : Nat → α)

variable {α R M : Type} [Sample α]

namespace BridgeOp

/-- A call of `noise_engine_start`. -/
def isStart : BridgeOp α R M → Bool
  | .start _ _ => true
  | _ => false

/-- `num_frames`. -/
def numFrames : BridgeOp α R M → Nat
  | .process c => c.numFrames
  | .processAndWrite _ _ numFrames => numFrames
  | _ => 0

end BridgeOp

namespace NoiseEngineHandle

/-- The handle that `noise_engine_create` returns. -/
def create (shm : Shm α) (outputBuf : Nat → α) (sampleRate channels framesPerBuffer : Nat)
    (created : Option R) (found : Option (LoadOutcome M)) : NoiseEngineHandle α R M where
  ctx := .create sampleRate channels framesPerBuffer created found
  shm := shm
  outputBuf := outputBuf

/-- The engine of the context. -/
def engine (h : NoiseEngineHandle α R M) : Engine α R M := h.ctx.engine

/-- The handle after a call. -/
def after (api : Denoisers α R M) (h : NoiseEngineHandle α R M) :
    BridgeOp α R M → NoiseEngineHandle α R M
  | .start created found => { h with ctx := (h.ctx.start created found).2 }
  | .stop => { h with ctx := h.ctx.stop }
  | .setMode mode => { h with ctx := h.ctx.setMode mode }
  | .setDryMix mix => { h with ctx := { h.ctx with engine := h.ctx.engine.setDryMix mix } }
  | .setAttenuationLimit db =>
    { h with ctx := { h.ctx with engine := h.ctx.engine.setAttenuationLimit db } }
  | .loadDeepfilterModel file => { h with ctx := (h.ctx.loadDeepfilterModel file).2 }
  | .shmCreate sampleRate channels sys =>
    let (_, ctx, shm) := h.ctx.shmCreate h.shm sampleRate channels sys
    { h with ctx := ctx, shm := shm }
  | .shmDestroy =>
    let (ctx, shm) := h.ctx.shmDestroy h.shm
    { h with ctx := ctx, shm := shm }
  | .process c => { h with ctx := (h.ctx.process api c.clock c.input c.output c.numFrames).2.2 }
  | .processAndWrite clock input numFrames =>
    let (_, ctx, shm, outputBuf) :=
      h.ctx.processAndWrite api clock h.shm h.outputBuf input numFrames
    { ctx := ctx, shm := shm, outputBuf := outputBuf }
  | .elsewhere shm outputBuf => { h with shm := shm, outputBuf := outputBuf }

/-- The call of `process_frame` that a bridge call makes, with the arguments it passes on. -/
def processCall (h : NoiseEngineHandle α R M) : BridgeOp α R M → Option (ProcessCall α)
  | .process c => some c
  | .processAndWrite clock input numFrames =>
    if h.ctx.sharedBuffer.any (·.isValid) then
      some { clock := clock, input := input, output := h.outputBuf, numFrames := numFrames }
    else none
  | _ => none

end NoiseEngineHandle

end Noise
