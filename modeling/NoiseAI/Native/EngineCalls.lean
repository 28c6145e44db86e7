import NoiseAI.ForStd.Ledger
import NoiseAI.ForStd.Observe
import NoiseAI.Native.Engine

/-!
# Sequences of engine calls

One constructor of `EngineOp` for each method of `Engine`, with what the world decides
about the call. `Engine.answers` is what a caller sees of a sequence of calls.
`Engine.entries` lists the states in which a call of `process_frame` enters
`process_mono_chunk`, `Engine.vectorSizes` how large the vectors get, and `Engine.inputReads` and
`Engine.outputWrites` the samples it touches, for statements about what happens inside a call.
-/

namespace Noise

/-- One call of `process_frame`: `clock k` is the time the inference of its `k`-th chunk
    takes, `output` what the output buffer holds before. -/
structure ProcessCall (α : Type) where
  clock : Nat → α
  input : Nat → α
  output : Nat → α
  numFrames : Nat

inductive EngineOp (α R M : Type) where
  | init (format : AudioFormat) (created : Option R) (found : Option (LoadOutcome M))
  | shutdown
  | setMode (mode : NoiseMode)
  | loadDeepfilterModel (found : Option (LoadOutcome M))
  | loadDeepfilterModelFrom (file : Option (LoadOutcome M))
  | setDryMix (mix : α)
  | setAttenuationLimit (db : α)
  | processFrame (call : ProcessCall α)

/-- What a caller sees of a call: what `process_frame` returns and leaves in the output
    buffer, and what `is_overloaded` and `get_status` answer after the call. -/
@[ext] structure Answer (α : Type) where
  returned : Option (Bool × (Nat → α))
  isOverloaded : Bool
  status : EngineStatus

variable {α R M : Type} [Sample α]

/-- The RNNoise state that a call creates. -/
def EngineOp.createdState : EngineOp α R M → Option R
  | .init _ created _ => created
  | _ => none

/-- What `init` reserves for each of the two vectors. -/
def RESERVED_SAMPLES : Nat := DENOISE_FRAME_SIZE * 4

namespace Engine

/-- `process_frame` on the arguments of a call. -/
def process (api : Denoisers α R M) (e : Engine α R M) (c : ProcessCall α) :
    Bool × (Nat → α) × Engine α R M :=
  e.processFrame api c.clock c.input c.output c.numFrames

/-- The engine after a call. -/
def after (api : Denoisers α R M) (e : Engine α R M) : EngineOp α R M → Engine α R M
  | .init format created found => (e.init format created found).2
  | .shutdown => e.shutdown
  | .setMode mode => e.setMode mode
  | .loadDeepfilterModel found => e.loadDeepfilterModel found
  | .loadDeepfilterModelFrom file => (e.loadDeepfilterModelFrom file).2
  | .setDryMix mix => e.setDryMix mix
  | .setAttenuationLimit db => e.setAttenuationLimit db
  | .processFrame c => (e.process api c).2.2

/-- Every call is allowed in every state. -/
def step (api : Denoisers α R M) (e : Engine α R M) (op : EngineOp α R M) :
    Option (Engine α R M) := some (e.after api op)

/-- What the caller sees of a call. -/
def answer (api : Denoisers α R M) (e : Engine α R M) (op : EngineOp α R M) : Answer α where
  returned :=
    match op with
    | .processFrame c => some ((e.process api c).1, (e.process api c).2.1)
    | _ => none
  isOverloaded := (e.after api op).isOverloaded
  status := (e.after api op).status

/-- What the caller sees of a sequence of calls. -/
def answers (api : Denoisers α R M) : Engine α R M → List (EngineOp α R M) → List (Answer α) :=
  Observe.outputs (Engine.after api) fun e op => [e.answer api op]

/-! ## Inside a call -/

/-- The states in which the loop of `process_frame` enters `process_mono_chunk`, each with
    the time its inference takes. -/
def chunkEntries (api : Denoisers α R M) (clock : Nat → α) :
    Nat → Nat → Engine α R M → List (Engine α R M × α)
  | 0, _, _ => []
  | fuel + 1, k, e =>
    if DENOISE_FRAME_SIZE ≤ e.inputBuffer.length then
      (e, clock k) :: chunkEntries api clock fuel (k + 1) (e.processMonoChunk api (clock k))
    else []

/-- The engine with the mono samples of a call appended to its input buffer. -/
def buffered (e : Engine α R M) (c : ProcessCall α) : Engine α R M :=
  { e with
    inputBuffer := e.inputBuffer ++
      (List.range c.numFrames).map (monoSample e.channels c.input) }

/-- The states in which a call enters `process_mono_chunk`. -/
def entries (api : Denoisers α R M) (e : Engine α R M) (c : ProcessCall α) :
    List (Engine α R M × α) :=
  if e.status ≠ .running then []
  else if !(e.rnnoiseState.isSome || e.deepfilterLoaded) then []
  else chunkEntries api c.clock (e.buffered c).inputBuffer.length 0 (e.buffered c)

/-- The sizes of the two vectors. -/
def sizes (e : Engine α R M) : Nat × Nat := (e.inputBuffer.length, e.outputBuffer.length)

/-- The sizes that the two vectors go through in a call: with the new samples, after every chunk,
    and at the end. From one to the next a vector only grows or only shrinks. -/
def vectorSizes (api : Denoisers α R M) (e : Engine α R M) (c : ProcessCall α) :
    List (Nat × Nat) :=
  if e.status ≠ .running then []
  else if !(e.rnnoiseState.isSome || e.deepfilterLoaded) then []
  else
    (e.buffered c).sizes ::
      (e.entries api c).map (fun entry => (entry.1.processMonoChunk api entry.2).sizes) ++
      [(e.process api c).2.2.sizes]

/-- The states in which a sequence of calls enters `process_mono_chunk`. -/
def chunks (api : Denoisers α R M) :
    Engine α R M → List (EngineOp α R M) → List (Engine α R M × α) :=
  Observe.outputs (Engine.after api) fun e op =>
    match op with
    | .processFrame c => e.entries api c
    | _ => []

/-- `process_mono_chunk` passes the chunk through. -/
def passes (e : Engine α R M) : Bool := e.inOverload && decide (0 < e.overloadCooldown)

/-- `process_mono_chunk` calls RNNoise. -/
def callsRnnoise (e : Engine α R M) : Bool := !e.passes && !e.useDeepfilter

/-- `process_mono_chunk` calls DeepFilterNet. -/
def callsDeepfilter (e : Engine α R M) : Bool := !e.passes && e.useDeepfilter

/-! ## The samples that a call touches -/

/-- `i * channels_ + ch` for every channel of every frame. -/
def frameIndices (channels numFrames : Nat) : List Nat :=
  (List.range numFrames).flatMap fun i =>
    (List.range channels).map fun ch => u32 (i * channels + ch)

/-- The samples of `input` that a call reads. -/
def inputReads (e : Engine α R M) (c : ProcessCall α) : List Nat :=
  if e.status ≠ .running then []
  else if !(e.rnnoiseState.isSome || e.deepfilterLoaded) then
    List.range (u32 (c.numFrames * e.channels))
  else frameIndices e.channels c.numFrames

/-- The samples of `output` that a call stores. -/
def outputWrites (api : Denoisers α R M) (e : Engine α R M) (c : ProcessCall α) : List Nat :=
  if e.status ≠ .running then []
  else if !(e.rnnoiseState.isSome || e.deepfilterLoaded) then
    List.range (u32 (c.numFrames * e.channels))
  else if (e.accept api c.clock c.input c.numFrames).prefill.ready c.numFrames then
    frameIndices e.channels c.numFrames
  else List.range (u32 (c.numFrames * e.channels))

/-! ## The life time of RNNoise states -/

/-- What a call does to RNNoise states, each known by its `allocation`: `init` and `shutdown`
    destroy the one `rnnoise_state_` points to, if it is not null, `init` creates another, and
    every chunk that is not passed through or given to DeepFilterNet uses `rnnoise_state_`. -/
def rnnoiseEvents {ι : Type} (api : Denoisers α R M) (allocation : R → ι) (e : Engine α R M) :
    EngineOp α R M → List (Ledger.Event ι)
  | .init _ created _ =>
    ((e.rnnoiseState.map allocation).map Ledger.Event.destroyed).toList ++
      (created.map fun state => Ledger.Event.created (allocation state)).toList
  | .shutdown => ((e.rnnoiseState.map allocation).map Ledger.Event.destroyed).toList
  | .processFrame c =>
    ((e.entries api c).filter fun entry => entry.1.callsRnnoise).map fun entry =>
      .used (entry.1.rnnoiseState.map allocation)
  | _ => []

/-- What a sequence of calls does to RNNoise states. -/
def lifeTimes {ι : Type} (api : Denoisers α R M) (allocation : R → ι) :
    Engine α R M → List (EngineOp α R M) → List (Ledger.Event ι) :=
  Observe.outputs (Engine.after api) (rnnoiseEvents api allocation)

end Engine

end Noise
