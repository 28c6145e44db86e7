import NoiseAI.ForStd.Word
import Mathlib.Algebra.Field.Rat
import Mathlib.Algebra.Order.Ring.Rat
import Mathlib.Logic.Function.Basic

/-!
# The denoisers

`engine/src/deepfilter.cpp`, with ONNX Runtime and RNNoise left as parameters
(`Denoisers`): they are functions on blocks of 480 samples that carry their
recurrent state. `Sample` lists the `float` operations the engine uses; no law of
arithmetic is assumed of them.
-/

namespace Noise

/-- The operations on `float` that the engine uses. -/
class Sample (α : Type) extends Zero α, One α, Neg α, Add α, Sub α, Mul α, Div α, NatCast α,
    OfScientific α, LT α, LE α where
  decidableLT : ∀ a b : α, Decidable (a < b)
  decidableLE : ∀ a b : α, Decidable (a ≤ b)

instance Sample.instDecidableLT {α : Type} [Sample α] (a b : α) : Decidable (a < b) :=
  Sample.decidableLT a b

instance Sample.instDecidableLE {α : Type} [Sample α] (a b : α) : Decidable (a ≤ b) :=
  Sample.decidableLE a b

/-- Exact samples, to run the model on. -/
instance : Sample ℚ where
  decidableLT := inferInstance
  decidableLE := inferInstance

/-- Both denoisers process exactly 480 mono samples per frame. -/
def DENOISE_FRAME_SIZE : Nat := 480

/-- Number of values in the recurrent state of DeepFilterNet. -/
def STATE_SIZE : Nat := 45304

/-- The code outside the repository: `rnnoise_process_frame` on a `DenoiseState`, and
    `Ort::Session::Run` on the frame, the recurrent state and the attenuation limit
    (`none` when it throws). Both fill an array of 480 samples, and `Run` leaves the size of
    the recurrent state as it is. `garbage` is what an array holds that was never written. -/
structure Denoisers (α R M : Type) where
  rnnoiseProcessFrame : R → List α → List α × R
  rnnoise_length : ∀ r x, (rnnoiseProcessFrame r x).1.length = DENOISE_FRAME_SIZE
  sessionRun : M → List String → List String → List α → List α → α → Option (List α × List α)
  session_length : ∀ {m ins outs x states atten out states'},
    sessionRun m ins outs x states atten = some (out, states') → out.length = DENOISE_FRAME_SIZE
  session_states : ∀ {m ins outs x states atten out states'},
    sessionRun m ins outs x states atten = some (out, states') → states'.length = states.length
  garbage : List α
  garbage_length : garbage.length = DENOISE_FRAME_SIZE

/-- `DeepFilterEngine::Impl`. -/
structure DeepFilterEngine (α M : Type) where
  session : Option M
  states : List α
  attenLimDb : α
  inputNamesStr : List String
  outputNamesStr : List String
  inputNames : List String
  outputNames : List String
  loaded : Bool

/-- How far one `load` gets before ONNX Runtime throws, with what it has read by then. -/
inductive LoadOutcome (M : Type) where
  | sessionThrows
  | inputCountThrows (session : M)
  | inputThrows (session : M) (inputs : List String)
  | outputCountThrows (session : M) (inputs : List String)
  | outputThrows (session : M) (inputs outputs : List String)
  | ok (session : M) (inputs outputs : List String)

namespace DeepFilterEngine

variable {α R M : Type} [Sample α]

/-- `DeepFilterEngine::DeepFilterEngine`. -/
def new : DeepFilterEngine α M where
  session := none
  states := List.replicate STATE_SIZE 0
  attenLimDb := 0
  inputNamesStr := []
  outputNamesStr := []
  inputNames := []
  outputNames := []
  loaded := false

/-- `reset_state`. -/
def resetState (d : DeepFilterEngine α M) : DeepFilterEngine α M :=
  { d with states := List.replicate d.states.length 0 }

/-- `set_attenuation_limit`. -/
def setAttenuationLimit (d : DeepFilterEngine α M) (db : α) : DeepFilterEngine α M :=
  { d with attenLimDb := db }

/-- `is_loaded`. -/
def isLoaded (d : DeepFilterEngine α M) : Bool := d.loaded

/-- `load`: the session is replaced and the name tables are rebuilt step by step; an
    exception leaves what was done and clears `loaded`. -/
def load (d : DeepFilterEngine α M) : LoadOutcome M → Bool × DeepFilterEngine α M
  | .sessionThrows => (false, { d with loaded := false })
  | .inputCountThrows session => (false, { d with session := some session, loaded := false })
  | .inputThrows session inputs => (false, { d with
      session := some session
      inputNamesStr := inputs
      inputNames := []
      loaded := false })
  | .outputCountThrows session inputs => (false, { d with
      session := some session
      inputNamesStr := inputs
      inputNames := []
      loaded := false })
  | .outputThrows session inputs outputs => (false, { d with
      session := some session
      inputNamesStr := inputs
      inputNames := []
      outputNamesStr := outputs
      outputNames := []
      loaded := false })
  | .ok session inputs outputs => (true, { d.resetState with
      session := some session
      inputNamesStr := inputs
      inputNames := inputs
      outputNamesStr := outputs
      outputNames := outputs
      loaded := true })

/-- `process_frame`: the output array, and whether inference succeeded. Without a loaded
    session the array is left as it is; when `Run` throws it is filled with silence. -/
def processFrame (api : Denoisers α R M) (d : DeepFilterEngine α M) (input : List α) :
    Bool × List α × DeepFilterEngine α M :=
  match d.loaded, d.session with
  | true, some session =>
    match api.sessionRun session d.inputNames d.outputNames input d.states d.attenLimDb with
    | some (out, states) => (true, out, { d with states := states })
    | none => (false, List.replicate DENOISE_FRAME_SIZE 0, d)
  | _, _ => (false, api.garbage, d)

/-- Whatever happens, the output array holds 480 samples. -/
theorem processFrame_length (api : Denoisers α R M) (d : DeepFilterEngine α M) (input : List α) :
    (d.processFrame api input).2.1.length = DENOISE_FRAME_SIZE := by
  simp only [processFrame]
  split
  · split
    · rename_i hrun
      exact api.session_length hrun
    · exact List.length_replicate
  · exact api.garbage_length

end DeepFilterEngine

end Noise
