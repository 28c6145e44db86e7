import NoiseAI.Native.DeepFilter

/-!
# The engine

Model of `engine/src/engine.cpp`. The vectors are lists. `input` and `output`
are memory, indexed with the 32-bit arithmetic of the source. What the world
decides is an argument: the result of `rnnoise_create`, what a model search and a
model load do, and `clock k`, the milliseconds the inference of the `k`-th chunk
of a call takes. Logging, and the counter that only paces it, is left out.
-/

namespace Noise

inductive NoiseMode where
  | cpuSaver
  | balanced
  | maxQuality
  deriving DecidableEq, Repr

inductive EngineStatus where
  | stopped
  | running
  | error
  deriving DecidableEq, Repr

structure AudioFormat where
  sampleRate : Nat
  channels : Nat
  framesPerBuffer : Nat
  deriving DecidableEq, Repr

/-- Minimum output buffer level before reading from it starts. -/
def OUTPUT_PREFILL_SAMPLES : Nat := DENOISE_FRAME_SIZE * 2

def OVERLOAD_TRIGGER_COUNT : Nat := 5

def OVERLOAD_COOLDOWN_FRAMES : Nat := 100

/-- The fields of `Engine`. `rnnoiseState` is `none` for a null pointer. -/
structure Engine (α R M : Type) where
  mode : NoiseMode
  status : EngineStatus
  dryMixOverride : α
  attenLimOverride : α
  channels : Nat
  rnnoiseState : Option R
  deepfilter : Option (DeepFilterEngine α M)
  inputBuffer : List α
  outputBuffer : List α
  outputReadPos : Nat
  outputStarted : Bool
  overloadCount : Nat
  overloadCooldown : Nat
  inOverload : Bool

variable {α R M : Type} [Sample α]

/-- `std::min(a, b)`. -/
def stdMin (a b : α) : α := if b < a then b else a

/-- `std::max(a, b)`. -/
def stdMax (a b : α) : α := if a < b then b else a

/-- `std::max(-1.0f, std::min(1.0f, sample))`. -/
def clamp (sample : α) : α := stdMax (-1) (stdMin 1 sample)

namespace Engine

/-- `Engine::Engine`. -/
def new : Engine α R M where
  mode := .balanced
  status := .stopped
  dryMixOverride := -1
  attenLimOverride := -1
  channels := 2
  rnnoiseState := none
  deepfilter := none
  inputBuffer := []
  outputBuffer := []
  outputReadPos := 0
  outputStarted := false
  overloadCount := 0
  overloadCooldown := 0
  inOverload := false

/-- `deepfilter_ && deepfilter_->is_loaded()`. -/
def deepfilterLoaded (e : Engine α R M) : Bool := e.deepfilter.any (·.isLoaded)

/-- `get_attenuation_limit`, also the limit `apply_attenuation_for_mode` applies. -/
def getAttenuationLimit (e : Engine α R M) : α :=
  if 0 ≤ e.attenLimOverride then e.attenLimOverride else 0

/-- `apply_attenuation_for_mode`: all modes use the same default attenuation. -/
def applyAttenuationForMode (e : Engine α R M) : Engine α R M :=
  if e.deepfilterLoaded then
    { e with deepfilter := e.deepfilter.map fun d => d.setAttenuationLimit e.getAttenuationLimit }
  else e

/-- `dry_mix_for_mode`. -/
def dryMixForMode : NoiseMode → α
  | .balanced => 0.02
  | .maxQuality => 0.01
  | .cpuSaver => 0

/-- `get_dry_mix`. -/
def getDryMix (e : Engine α R M) : α :=
  if 0 ≤ e.dryMixOverride then e.dryMixOverride else dryMixForMode e.mode

/-- `load_deepfilter_model()`: a new model object, loaded from the first search path that
    has a file (`none`: no path has one). -/
def loadDeepfilterModel (e : Engine α R M) (found : Option (LoadOutcome M)) : Engine α R M :=
  let e := { e with deepfilter := some .new }
  match found with
  | none => e
  | some outcome =>
    let (ok, d) := DeepFilterEngine.new.load outcome
    let e := { e with deepfilter := some d }
    if ok then e.applyAttenuationForMode else e

/-- `load_deepfilter_model(path)`: `file` is what the file at `path` leads to, `none` when
    the path is empty or the file cannot be opened. -/
def loadDeepfilterModelFrom (e : Engine α R M) (file : Option (LoadOutcome M)) :
    Bool × Engine α R M :=
  match file with
  | none => (false, e)
  | some outcome =>
    let (ok, d) := (e.deepfilter.getD .new).load outcome
    let e := { e with deepfilter := some d }
    if ok then (true, e.applyAttenuationForMode) else (false, e)

/-- Empty the buffers. -/
def clearBuffers (e : Engine α R M) : Engine α R M :=
  { e with inputBuffer := [], outputBuffer := [], outputReadPos := 0, outputStarted := false }

/-- Back to inference, with no slow frame counted. -/
def resetOverload (e : Engine α R M) : Engine α R M :=
  { e with overloadCount := 0, overloadCooldown := 0, inOverload := false }

/-- `init`: `created` is what `rnnoise_create` returns, `found` what the model search finds
    if it has to be made. -/
def init (e : Engine α R M) (format : AudioFormat) (created : Option R)
    (found : Option (LoadOutcome M)) : Bool × Engine α R M :=
  let e := { e with channels := format.channels, rnnoiseState := created }
  if created.isNone then (false, { e with status := .error })
  else
    let e :=
      if e.deepfilterLoaded then
        { e with deepfilter := e.deepfilter.map DeepFilterEngine.resetState }
      else e.loadDeepfilterModel found
    (true, { e.clearBuffers.resetOverload with status := .running })

/-- `shutdown`: the model stays, with its state reset. -/
def shutdown (e : Engine α R M) : Engine α R M :=
  let e := { e with
    rnnoiseState := none
    deepfilter := e.deepfilter.map DeepFilterEngine.resetState }
  { e.clearBuffers.resetOverload with status := .stopped }

/-- `set_mode`. -/
def setMode (e : Engine α R M) (mode : NoiseMode) : Engine α R M :=
  if e.mode = mode then e
  else
    let e := { e.clearBuffers with mode := mode }
    { e with deepfilter := e.deepfilter.map DeepFilterEngine.resetState }.applyAttenuationForMode

/-- `set_dry_mix`. -/
def setDryMix (e : Engine α R M) (mix : α) : Engine α R M := { e with dryMixOverride := mix }

/-- `set_attenuation_limit`: applied at once if a model is loaded. -/
def setAttenuationLimit (e : Engine α R M) (db : α) : Engine α R M :=
  { e with attenLimOverride := db }.applyAttenuationForMode

/-- `is_overloaded`. -/
def isOverloaded (e : Engine α R M) : Bool := e.inOverload

/-! ## One chunk -/

/-- `use_deepfilter`. -/
def useDeepfilter (e : Engine α R M) : Bool := e.mode != .cpuSaver && e.deepfilterLoaded

/-- Blend denoised output with the original: `wet * out + dry * in` when `dry > 0`. -/
def dryWetMix (e : Engine α R M) (input out : List α) : List α :=
  let dry := e.getDryMix
  let wet := 1 - dry
  if 0 < dry then List.zipWith (fun x y => wet * y + dry * x) input out else out

/-- One chunk through the active denoiser: DeepFilterNet on samples in [-1, 1], or RNNoise
    on samples scaled to 16 bits. -/
def infer (api : Denoisers α R M) (e : Engine α R M) (chunk : List α) :
    List α × Engine α R M :=
  if e.useDeepfilter then
    match e.deepfilter with
    | some d =>
      let (_, out, d) := d.processFrame api chunk
      (e.dryWetMix chunk out, { e with deepfilter := some d })
    | none => (api.garbage, e)
  else
    match e.rnnoiseState with
    | some state =>
      let (out, state) := api.rnnoiseProcessFrame state (chunk.map (· * ((32768 : Nat) : α)))
      (out.map (· / ((32768 : Nat) : α)), { e with rnnoiseState := some state })
    | none => (api.garbage, e)

/-- Count consecutive slow frames; the fifth one starts a passthrough period.
    `OVERLOAD_THRESHOLD_MS` is 8. -/
def updateOverload (e : Engine α R M) (elapsedMs : α) : Engine α R M :=
  if ((8 : Nat) : α) < elapsedMs then
    let e := { e with overloadCount := e.overloadCount + 1 }
    if OVERLOAD_TRIGGER_COUNT ≤ e.overloadCount then
      { e with inOverload := true, overloadCooldown := OVERLOAD_COOLDOWN_FRAMES }
    else e
  else { e with overloadCount := 0 }

/-- Cooldown expired: resume inference. -/
def leaveOverload (e : Engine α R M) : Engine α R M :=
  if e.inOverload then { e with inOverload := false, overloadCount := 0 } else e

/-- What `process_mono_chunk` turns a chunk into, and its effect on everything but the
    buffers: passthrough during an overload, else timed inference. -/
def denoiseChunk (api : Denoisers α R M) (e : Engine α R M) (elapsedMs : α) (chunk : List α) :
    List α × Engine α R M :=
  if e.inOverload && 0 < e.overloadCooldown then
    (chunk, { e with overloadCooldown := e.overloadCooldown - 1 })
  else
    let (out, e) := e.leaveOverload.infer api chunk
    (out, e.updateOverload elapsedMs)

/-- `process_mono_chunk`: the first 480 buffered input samples are denoised, appended to
    the output buffer and removed from the input buffer. -/
def processMonoChunk (api : Denoisers α R M) (e : Engine α R M) (elapsedMs : α) :
    Engine α R M :=
  let (out, e') := e.denoiseChunk api elapsedMs (e.inputBuffer.take DENOISE_FRAME_SIZE)
  { e' with
    outputBuffer := e.outputBuffer ++ out
    inputBuffer := e.inputBuffer.drop DENOISE_FRAME_SIZE }

/-! ## One call -/

/-- The mean of frame `i`, with the 32-bit index of the source. -/
def monoSample (channels : Nat) (input : Nat → α) (i : Nat) : α :=
  (List.range channels).foldl (fun acc ch => acc + input (u32 (i * channels + ch))) 0 /
    (channels : α)

/-- The `while` loop over complete chunks, from chunk `k` of this call on. `fuel` bounds
    the number of iterations. -/
def processChunks (api : Denoisers α R M) (clock : Nat → α) :
    Nat → Nat → Engine α R M → Engine α R M
  | 0, _, e => e
  | fuel + 1, k, e =>
    if DENOISE_FRAME_SIZE ≤ e.inputBuffer.length then
      processChunks api clock fuel (k + 1) (e.processMonoChunk api (clock k))
    else e

/-- Steps 1 and 2 of `process_frame`: append the mono samples and denoise every complete
    chunk. Each iteration removes samples, so the buffer length bounds the loop. -/
def accept (api : Denoisers α R M) (clock : Nat → α) (e : Engine α R M) (input : Nat → α)
    (numFrames : Nat) : Engine α R M :=
  let e := { e with
    inputBuffer := e.inputBuffer ++ (List.range numFrames).map (monoSample e.channels input) }
  processChunks api clock e.inputBuffer.length 0 e

/-- `output_buffer_.size() - output_read_pos_`. -/
def available (e : Engine α R M) : Nat := e.outputBuffer.length - e.outputReadPos

/-- The prefill gate of step 3. -/
def prefill (e : Engine α R M) : Engine α R M :=
  if !e.outputStarted && OUTPUT_PREFILL_SAMPLES ≤ e.available then
    { e with outputStarted := true }
  else e

/-- `output_started_ && available >= num_frames`. -/
def ready (e : Engine α R M) (numFrames : Nat) : Bool :=
  e.outputStarted && numFrames ≤ e.available

/-- The interleaved stores of step 3, with the 32-bit index of the source. -/
def writeFrames (e : Engine α R M) (numFrames : Nat) (output : Nat → α) : Nat → α :=
  (List.range numFrames).foldl (fun output i =>
    let sample := clamp (e.outputBuffer.getD (e.outputReadPos + i) 0)
    (List.range e.channels).foldl (fun output ch =>
      Function.update output (u32 (i * e.channels + ch)) sample) output) output

/-- Advance the read cursor, and compact the output buffer when enough was consumed. -/
def advance (e : Engine α R M) (numFrames : Nat) : Engine α R M :=
  let e := { e with outputReadPos := e.outputReadPos + numFrames }
  if DENOISE_FRAME_SIZE * 2 < e.outputReadPos then
    { e with outputBuffer := e.outputBuffer.drop e.outputReadPos, outputReadPos := 0 }
  else e

/-- `std::memset(output, 0, num_frames * channels_ * sizeof(float))`: the product of the
    two 32-bit factors is a 32-bit value. -/
def writeSilence (e : Engine α R M) (numFrames : Nat) (output : Nat → α) : Nat → α := fun a =>
  if a < u32 (numFrames * e.channels) then 0 else output a

/-- `process_frame`. -/
def processFrame (api : Denoisers α R M) (clock : Nat → α) (e : Engine α R M)
    (input output : Nat → α) (numFrames : Nat) : Bool × (Nat → α) × Engine α R M :=
  if e.status ≠ .running then (false, output, e)
  else if !(e.rnnoiseState.isSome || e.deepfilterLoaded) then
    -- no denoiser: `memcpy` of the whole block
    (true, fun a => if a < u32 (numFrames * e.channels) then input a else output a, e)
  else
    let e := (e.accept api clock input numFrames).prefill
    if e.ready numFrames then (true, e.writeFrames numFrames output, e.advance numFrames)
    else (true, e.writeSilence numFrames output, e)

end Engine

end Noise
