import NoiseAI.Native.BridgeCalls
import NoiseAI.Native.RingSteps

/-!
# The use of one ring, one shared access at a time

`RingUse` is a handle of the bridge and the ring that a `noise_shm_create` on it has made, with
the consumer that has attached to that ring. The two calls that write, `noise_shm_write` and
`noise_engine_process_and_write`, run up to their `write` at once and then one shared access at
a time; so does the consumer, and any interleaving of the two is a run. The other calls on the
handle may come between two writes, also one that destroys the ring or makes the next one.
Other processes and other handles may do what they like elsewhere in the shared memory.
-/

namespace Noise

variable {α R M : Type}

namespace NoiseEngineContext

/-- The segment that `shared_buffer` has mapped. -/
def ring (ctx : NoiseEngineContext α R M) : Option Nat := ctx.sharedBuffer.bind (·.segment)

variable [Sample α]

/-- `noise_engine_process_and_write` up to its `write`: the block it writes and where, unless
    it returns 0 before. -/
def processBlock (api : Denoisers α R M) (clock : Nat → α) (ctx : NoiseEngineContext α R M)
    (output input : Nat → α) (numFrames : Nat) :
    Option (Nat × List α) × NoiseEngineContext α R M × (Nat → α) :=
  match ctx.ring with
  | none => (none, ctx, output)
  | some i =>
    let totalSamples := u32 (numFrames * 2)
    let (ok, output, engine) := ctx.engine.processFrame api clock input output numFrames
    let ctx := { ctx with engine := engine }
    if ok then (some (i, (List.range totalSamples).map output), ctx, output)
    else (none, ctx, output)

end NoiseEngineContext

/-- `producer` is the `write` of a call on the handle, with its segment. -/
structure RingUse (α R M : Type) where
  handle : NoiseEngineHandle α R M
  producer : Option (Nat × WriteOp α)
  consumer : Option (ReadOp α)

inductive RingUseLabel (α R M : Type) where
  | call (op : BridgeOp α R M)
  | shmWrite (data : List α)
  -- the next shared access of the call that writes
  | producer
  | read (numSamples : Nat)
  | flush
  | consumer
  -- the consumer goes away; another one may attach
  | detach
  | elsewhere (shm : Shm α) (outputBuf : Nat → α)

namespace RingUse

/-- A ring that nobody uses yet. -/
def start (handle : NoiseEngineHandle α R M) : RingUse α R M := ⟨handle, none, none⟩

/-- A call that has come to its `write`, if it gets there. -/
def write (s : RingUse α R M) (block : Option (Nat × List α)) : RingUse α R M :=
  { s with producer := block.map fun (i, data) => (i, .loadWritePos data) }

/-- Segment `i` after an access. -/
def setSegment (s : RingUse α R M) (i : Nat) (g : Segment α) : RingUse α R M :=
  { s with handle := { s.handle with shm := s.handle.shm.modify i fun _ => g } }

variable [Sample α]

/-- The state after a call on the handle has begun. -/
def call (api : Denoisers α R M) (s : RingUse α R M) : BridgeOp α R M → RingUse α R M
  | .processAndWrite clock input numFrames =>
    let (block, ctx, outputBuf) :=
      s.handle.ctx.processBlock api clock s.handle.outputBuf input numFrames
    { s with handle := { s.handle with ctx := ctx, outputBuf := outputBuf } }.write block
  | .elsewhere _ _ => s
  | op => { s with handle := s.handle.after api op }

/-- One step around ring `i`. The calls on the handle follow one another, and so do those of
    the consumer. -/
def step (api : Denoisers α R M) (i : Nat) (s : RingUse α R M) :
    RingUseLabel α R M → Option (RingUse α R M)
  | .call op => if s.producer.isNone then some (s.call api op) else none
  | .shmWrite data =>
    if s.producer.isNone then some (s.write (s.handle.ctx.ring.map fun j => (j, data))) else none
  | .producer =>
    match s.producer with
    | none => none
    | some (j, op) =>
      let (g, p) := op.step (s.handle.shm.segment j)
      match p with
      | .running op => some { s.setSegment j g with producer := some (j, op) }
      | .returned _ => some { s.setSegment j g with producer := none }
  | .read n => if s.consumer.isNone then some { s with consumer := some (.loadReadPos n) } else none
  | .flush => if s.consumer.isNone then some { s with consumer := some .flushLoad } else none
  | .consumer =>
    match s.consumer with
    | none => none
    | some op =>
      let (g, p) := op.step (s.handle.shm.segment i)
      match p with
      | .running op => some { s.setSegment i g with consumer := some op }
      | .returned _ => some { s.setSegment i g with consumer := none }
  | .detach => some { s with consumer := none }
  | .elsewhere shm outputBuf =>
    -- no segment goes away, and ring `i` is this handle's and this consumer's
    let shm := { shm with
      created := max s.handle.shm.created shm.created
      segment := Function.update shm.segment i (s.handle.shm.segment i) }
    some { s with handle := { s.handle with shm := shm, outputBuf := outputBuf } }

end RingUse

end Noise
