import NoiseAI.Spec.EngineInvariant
import NoiseAI.Spec.EngineSession

/-!
# A session starts afresh

Whatever an engine went through, a successful `init` leaves it in the state in which it
leaves a new engine that was given the same mode, the same overrides and the same loaded
model. What a caller sees of the session is then the same too.
-/

namespace Noise

variable {α R M : Type} [Sample α]

/-- A new object that loads a model. -/
theorem DeepFilterEngine.limited_new_load (session : M) (inputs outputs : List String)
    (limit : α) : ((new : DeepFilterEngine α M).load (.ok session inputs outputs)).2.limited limit =
      withModel session inputs outputs limit (List.replicate STATE_SIZE 0) := by
  show withModel session inputs outputs limit
    (List.replicate (List.replicate STATE_SIZE 0).length 0) = _
  rw [List.length_replicate]

namespace Engine

/-- The session of the loaded model, with its input and output names. -/
def loadedModel (e : Engine α R M) : Option (M × List String × List String) :=
  e.deepfilter.bind fun d =>
    if d.loaded then d.session.map fun session => (session, d.inputNames, d.outputNames) else none

/-- A new engine that is given the mode, the overrides and the loaded model of `e`. -/
def freshLike (e : Engine α R M) : Engine α R M :=
  let fresh := ((new.setMode e.mode).setDryMix e.dryMixOverride).setAttenuationLimit
    e.attenLimOverride
  match e.loadedModel with
  | some (session, inputs, outputs) =>
    (fresh.loadDeepfilterModelFrom (some (.ok session inputs outputs))).2
  | none => fresh

/-- The settings and the model of a fresh engine. -/
theorem freshLike_eq (e : Engine α R M) :
    e.freshLike = { (new : Engine α R M) with
      mode := e.mode
      dryMixOverride := e.dryMixOverride
      attenLimOverride := e.attenLimOverride
      deepfilter := e.loadedModel.map fun model =>
        .withModel model.1 model.2.1 model.2.2 e.getAttenuationLimit
          (List.replicate STATE_SIZE 0) } := by
  have hset : (((new : Engine α R M).setMode e.mode).setDryMix
      e.dryMixOverride).setAttenuationLimit e.attenLimOverride =
        { (new : Engine α R M) with
          mode := e.mode
          dryMixOverride := e.dryMixOverride
          attenLimOverride := e.attenLimOverride } := by
    unfold setAttenuationLimit setDryMix
    rw [applyAttenuationForMode_eq]
    -- `set_mode` does nothing in the mode that a new engine is in
    by_cases hmode : (new : Engine α R M).mode = e.mode
    · unfold setMode
      rw [if_pos hmode, ← hmode]
      rfl
    · rw [setMode_eq hmode]
      rfl
  unfold freshLike
  rw [hset]
  cases e.loadedModel with
  | none => rfl
  | some model =>
    dsimp only
    rw [loadDeepfilterModelFrom_eq]
    exact congrArg (withDeepfilter _ ∘ some) (DeepFilterEngine.limited_new_load ..)

/-- Resetting its state does not change which model is loaded. -/
theorem loadedModel_shutdown (e : Engine α R M) : e.shutdown.loadedModel = e.loadedModel := by
  show (e.deepfilter.map DeepFilterEngine.resetState).bind _ = e.deepfilter.bind _
  cases e.deepfilter <;> rfl

theorem freshLike_shutdown (e : Engine α R M) : e.shutdown.freshLike = e.freshLike := by
  rw [freshLike_eq, freshLike_eq, loadedModel_shutdown]
  rfl

/-- A session of `e` and one of a fresh engine start with the same model object. -/
theorem Inv.sessionModel_freshLike {e : Engine α R M} (h : e.Inv)
    (found : Option (LoadOutcome M)) : e.freshLike.sessionModel found = e.sessionModel found := by
  rw [freshLike_eq]
  cases hd : e.deepfilter with
  | none =>
    -- nothing to reset: both make the search
    simp only [sessionModel, deepfilterLoaded, loadedModel, hd, Option.bind_none, Option.map_none,
      Option.any_none]
    rfl
  | some d =>
    have hcomplete := h.model d hd
    cases hloaded : d.loaded with
    | false =>
      simp only [sessionModel, deepfilterLoaded, loadedModel, DeepFilterEngine.isLoaded, hd,
        hloaded, Option.bind_some, Option.map_none, Option.any_none, Option.any_some,
        Bool.false_eq_true, if_false]
      rfl
    | true =>
      obtain ⟨session, inputs, outputs, hmodel⟩ := hcomplete.loaded hloaded
      have hzeros : d.resetState = .withModel session inputs outputs e.getAttenuationLimit
          (List.replicate STATE_SIZE 0) := by
        unfold DeepFilterEngine.resetState
        rw [hcomplete.states, hmodel]
        rfl
      have hsame : e.loadedModel = some (session, inputs, outputs) := by
        unfold loadedModel
        rw [hd, hmodel]
        rfl
      have hhere : e.sessionModel found = some d.resetState := by
        simp [sessionModel, deepfilterLoaded, DeepFilterEngine.isLoaded, hd, hloaded]
      rw [hhere, hsame, hzeros]
      simp [sessionModel, deepfilterLoaded, DeepFilterEngine.isLoaded,
        DeepFilterEngine.withModel, DeepFilterEngine.resetState]

/-- `init` forgets all but the mode, the overrides and the loaded model. -/
theorem Inv.init_freshLike {e : Engine α R M} (h : e.Inv) (format : AudioFormat) (state : R)
    (found : Option (LoadOutcome M)) :
    e.freshLike.init format (some state) found = e.init format (some state) found := by
  rw [init_some, init_some, h.sessionModel_freshLike, freshLike_eq]
  rfl

end Engine

/-- After a successful `init`, with or without a `shutdown` before it, every sequence of calls
    is answered as by a fresh engine with the same mode, overrides and loaded model. -/
theorem session_starts_fresh (api : Denoisers α R M) {e : Engine α R M}
    (hreach : Machine.Reaches (Engine.step api) .new e) (format : AudioFormat)
    (created : Option R) (found : Option (LoadOutcome M))
    (hinit : (e.init format created found).1 = true) :
    (e.freshLike.init format created found).1 = true ∧
    (e.shutdown.init format created found).1 = true ∧
    ∀ ops : List (EngineOp α R M),
      e.answers api (.init format created found :: ops) =
        e.freshLike.answers api (.init format created found :: ops) ∧
      e.shutdown.answers api (.init format created found :: ops) =
        e.freshLike.answers api (.init format created found :: ops) := by
  cases created with
  | none => exact nomatch hinit
  | some state =>
    have hinv : e.Inv := Engine.inv_reachable hreach
    have hfresh := hinv.init_freshLike format state found
    have hshutdown := hinv.shutdown.init_freshLike format state found
    rw [Engine.freshLike_shutdown] at hshutdown
    refine ⟨by rw [hfresh]; exact hinit, by rw [← hshutdown, hfresh]; exact hinit, ?_⟩
    intro ops
    simp only [Engine.answers, Observe.outputs_cons, Engine.answer, Engine.after, hfresh,
      ← hshutdown, and_self]

/-- An engine with a model that has 100 frames of loud input left over. -/
def usedEngine : Engine ℚ Unit Unit :=
  (Engine.new.after identityDenoisers (.init stereo48k (some ()) (some (.ok () [] [])))).after
    identityDenoisers (.processFrame
      { clock := fun _ => 9, input := fun _ => 1, output := fun _ => 0, numFrames := 100 })

theorem session_starts_fresh_used :
    (usedEngine.freshLike.init stereo48k (some ()) none).1 = true ∧
    (usedEngine.shutdown.init stereo48k (some ()) none).1 = true ∧
    ∀ ops : List (EngineOp ℚ Unit Unit),
      usedEngine.answers identityDenoisers (.init stereo48k (some ()) none :: ops) =
        usedEngine.freshLike.answers identityDenoisers (.init stereo48k (some ()) none :: ops) ∧
      usedEngine.shutdown.answers identityDenoisers (.init stereo48k (some ()) none :: ops) =
        usedEngine.freshLike.answers identityDenoisers (.init stereo48k (some ()) none :: ops) :=
  session_starts_fresh identityDenoisers ⟨[_, _], rfl⟩ stereo48k (some ()) none rfl

end Noise
