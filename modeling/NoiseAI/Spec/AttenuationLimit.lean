import NoiseAI.Spec.EngineLifeCycle

/-!
# The attenuation limit

The limit lives twice: the engine keeps the override that `set_attenuation_limit` was called
with, and the model object the value that inference uses. The copy is made only while a model
is loaded, so a limit can be set when there is no object to copy it to. `ModelComplete` says
that the two agree whenever a model is loaded; here it is carried to the frames of the next
call, and the override is traced back to the call that set it.
-/

namespace Noise

variable {α R M : Type}

/-- The override that a call sets. -/
def EngineOp.attenLimSet : EngineOp α R M → Option α
  | .setAttenuationLimit db => some db
  | _ => none

variable [Sample α]

/-- The override after a sequence of calls, -1 when none of them set it. -/
def lastAttenLim (ops : List (EngineOp α R M)) : α :=
  (ops.filterMap EngineOp.attenLimSet).getLastD (-1)

namespace Engine

variable {api : Denoisers α R M} {e : Engine α R M}

/-! ## The override -/

/-- Only `set_attenuation_limit` changes the override. -/
theorem Inv.attenLimOverride_after (h : e.Inv) (api : Denoisers α R M) (op : EngineOp α R M) :
    (e.after api op).attenLimOverride = op.attenLimSet.getD e.attenLimOverride := by
  cases op with
  | init format created found =>
    show (e.init format created found).2.attenLimOverride = e.attenLimOverride
    cases created with
    | none => rfl
    | some state =>
      rw [init_some]
      rfl
  | shutdown => rfl
  | setMode m =>
    show (e.setMode m).attenLimOverride = e.attenLimOverride
    by_cases hsame : e.mode = m
    · rw [setMode_self hsame]
    · rw [setMode_eq hsame]
  | loadDeepfilterModel found =>
    show (e.loadDeepfilterModel found).attenLimOverride = e.attenLimOverride
    rw [loadDeepfilterModel_eq]
    rfl
  | loadDeepfilterModelFrom file =>
    show (e.loadDeepfilterModelFrom file).2.attenLimOverride = e.attenLimOverride
    rw [loadDeepfilterModelFrom_eq]
    rfl
  | setDryMix mix => rfl
  | setAttenuationLimit db =>
    -- with or without a model to copy the limit to
    show (e.setAttenuationLimit db).attenLimOverride = db
    unfold setAttenuationLimit
    rw [applyAttenuationForMode_eq]
    rfl
  | processFrame c => exact (h.keeps_process api c).attenLimOverride

/-- Along a sequence of calls the last one that sets the override wins. -/
theorem Inv.attenLimOverride_run (h : e.Inv) (api : Denoisers α R M) (ops : List (EngineOp α R M)) :
    (ops.foldl (Engine.after api) e).attenLimOverride =
      (ops.filterMap EngineOp.attenLimSet).getLastD e.attenLimOverride := by
  induction ops generalizing e with
  | nil => rfl
  | cons op ops ih =>
    have hop := h.attenLimOverride_after api op
    rw [List.foldl_cons, ih (h.after api op), hop]
    cases hset : op.attenLimSet with
    | none => rw [List.filterMap_cons_none hset, Option.getD_none]
    | some db => rw [List.filterMap_cons_some hset, Option.getD_some, List.getLastD_cons]

/-! ## The model -/

/-- A loaded model has the limit in force. -/
theorem ModelComplete.attenLimDb (h : e.ModelComplete) {d : DeepFilterEngine α M}
    (hd : e.deepfilter = some d) (hloaded : d.isLoaded = true) :
    d.attenLimDb = e.getAttenuationLimit := by
  obtain ⟨session, inputs, outputs, hmodel⟩ := (h d hd).loaded hloaded
  rw [hmodel]
  rfl

/-- So has the model that a call gives a chunk to. -/
theorem Inv.attenLimDb_entry (h : e.Inv) {c : ProcessCall α} {entry : Engine α R M × α}
    (hentry : entry ∈ e.entries api c) (hcalls : entry.1.callsDeepfilter = true) :
    ∃ d session, entry.1.deepfilter = some d ∧ d.loaded = true ∧ d.session = some session ∧
      d.attenLimDb = e.getAttenuationLimit := by
  obtain ⟨d, session, hd, hloaded, hsession⟩ := (h.chunkSound hentry).deepfilter hcalls
  have hkeeps := (h.entries hentry).2.1
  have hlimit := (h.model.keeps hkeeps).attenLimDb hd hloaded
  rw [hkeeps.getAttenuationLimit] at hlimit
  exact ⟨d, session, hd, hloaded, hsession, hlimit⟩

end Engine

/-- Whatever was called: a loaded model has the limit that `get_attenuation_limit` reports, the
    next call passes it to the model with every chunk it denoises, and it is the last one set,
    with a negative one counted as 0. -/
theorem attenuation_limit_in_force (api : Denoisers α R M) (ops : List (EngineOp α R M)) :
    (∀ d, (ops.foldl (Engine.after api) .new).deepfilter = some d → d.isLoaded = true →
      d.attenLimDb = (ops.foldl (Engine.after api) .new).getAttenuationLimit) ∧
    (∀ c, ∀ entry ∈ (ops.foldl (Engine.after api) .new).entries api c,
      entry.1.callsDeepfilter = true →
      ∃ d session, entry.1.deepfilter = some d ∧ d.loaded = true ∧ d.session = some session ∧
        d.attenLimDb = (ops.foldl (Engine.after api) .new).getAttenuationLimit) ∧
    (ops.foldl (Engine.after api) .new).getAttenuationLimit =
      if 0 ≤ lastAttenLim ops then lastAttenLim ops else 0 := by
  obtain ⟨_, hinv⟩ := Engine.inv_new.chunks api ops
  refine ⟨fun d hd hloaded => hinv.model.attenLimDb hd hloaded, ?_, ?_⟩
  · intro c entry hentry hcalls
    exact hinv.attenLimDb_entry hentry hcalls
  · have hlast : (ops.foldl (Engine.after api) .new).attenLimOverride = lastAttenLim ops :=
      Engine.inv_new.attenLimOverride_run api ops
    unfold Engine.getAttenuationLimit
    rw [hlast]

/-- A limit set between a failed load and one into the same object. -/
example : (([.setAttenuationLimit 12, .loadDeepfilterModel (some .sessionThrows),
      .setAttenuationLimit 6, .loadDeepfilterModelFrom (some (.ok () [] [])),
      .setMode .maxQuality] :
      List (EngineOp ℚ Unit Unit)).foldl (Engine.after identityDenoisers) .new).deepfilter.map
        (·.attenLimDb) = some 6 := by
  decide

end Noise
