import NoiseAI.Spec.EngineLockstep
import NoiseAI.Spec.EngineSession
import NoiseAI.Spec.Overload

/-!
# A failed model load

`load_deepfilter_model(path)` gives up early when there is no file at `path`. Otherwise it
loads into the model object in use: when that fails, a model that was loaded before is no
longer. The theorem at the end says when a caller can notice.
-/

namespace Noise

variable {α R M : Type} [Sample α]

/-- The calls that a failed load should make no difference to. -/
def EngineOp.AfterLoad : EngineOp α R M → Prop
  | .processFrame _ | .setMode _ | .setAttenuationLimit _ => True
  | _ => False

namespace Engine

variable {api : Denoisers α R M} {e e' : Engine α R M}

/-- The model that `process_frame` uses, with all its state. -/
def modelInUse (e : Engine α R M) : Option (DeepFilterEngine α M) :=
  if e.status = .running ∧ e.useDeepfilter = true then e.deepfilter else none

/-- Whatever calls follow, `e'` answers them as `e` does and uses the same model after them. -/
def BehavesAs (api : Denoisers α R M) (e e' : Engine α R M) : Prop :=
  ∀ ops : List (EngineOp α R M), (∀ op ∈ ops, op.AfterLoad) →
    e'.answers api ops = e.answers api ops ∧
    (ops.foldl (Engine.after api) e').modelInUse = (ops.foldl (Engine.after api) e).modelInUse

/-! ## Without a loaded model -/

/-- The engines differ only in a model object with no model loaded. -/
def Unloaded (e e' : Engine α R M) : Prop :=
  e.deepfilterLoaded = false ∧ e'.deepfilterLoaded = false ∧
    ∃ model, e' = e.withDeepfilter model

omit [Sample α] in
theorem useDeepfilter_of_not_loaded (h : e.deepfilterLoaded = false) : e.useDeepfilter = false := by
  unfold useDeepfilter
  rw [h, Bool.and_false]

/-- Then RNNoise denoises, and does not see the object. -/
theorem infer_withDeepfilter {model : Option (DeepFilterEngine α M)}
    (h : e.deepfilterLoaded = false) (h' : (e.withDeepfilter model).deepfilterLoaded = false)
    (chunk : List α) : (e.withDeepfilter model).infer api chunk =
      ((e.infer api chunk).1, (e.infer api chunk).2.withDeepfilter model) := by
  unfold infer
  rw [useDeepfilter_of_not_loaded h, useDeepfilter_of_not_loaded h']
  cases hr : e.rnnoiseState with
  | none => simp [withDeepfilter, hr]
  | some r => simp [withDeepfilter, hr]

theorem denoiseChunk_withDeepfilter (api : Denoisers α R M) {model : Option (DeepFilterEngine α M)}
    (h : e.deepfilterLoaded = false) (h' : (e.withDeepfilter model).deepfilterLoaded = false)
    (elapsedMs : α) (chunk : List α) :
    (e.withDeepfilter model).denoiseChunk api elapsedMs chunk =
      ((e.denoiseChunk api elapsedMs chunk).1,
        (e.denoiseChunk api elapsedMs chunk).2.withDeepfilter model) := by
  have hbreaker : (e.withDeepfilter model).breaker = e.breaker := rfl
  have hpasses : (e.withDeepfilter model).passes = e.passes := rfl
  rw [denoiseChunk_eq, denoiseChunk_eq, hbreaker, hpasses, infer_withDeepfilter h h']
  dsimp only
  split
  · rfl
  · rfl

theorem lockstep_unloaded (api : Denoisers α R M) :
    Lockstep api (fun _ => True) (Unloaded : Engine α R M → Engine α R M → Prop) where
  status := fun ⟨_, _, _, heq⟩ => by rw [heq]; rfl
  channels := fun ⟨_, _, _, heq⟩ => by rw [heq]; rfl
  inOverload := fun ⟨_, _, _, heq⟩ => by rw [heq]; rfl
  denoiser := fun ⟨h, h', _, heq⟩ => by rw [h, h', heq]; rfl
  mono := fun _ _ _ => trivial
  denoiseChunk := by
    intro e e' elapsedMs chunk ⟨h, h', model, heq⟩ _ _
    subst heq
    have hafter := denoiseChunk_withDeepfilter api h h' elapsedMs chunk
    have hkeeps := keeps_denoiseChunk api e elapsedMs chunk
    have hkeeps' := keeps_denoiseChunk api (e.withDeepfilter model) elapsedMs chunk
    refine ⟨by rw [hafter], ?_, ?_, model, by rw [hafter]⟩
    · rw [hkeeps.deepfilterLoaded]
      exact h
    · rw [hkeeps'.deepfilterLoaded]
      exact h'

/-- A change of mode or of the limit leaves the engines alike. -/
theorem Unloaded.setMode (h : Unloaded e e') (m : NoiseMode) :
    Unloaded (e.setMode m) (e'.setMode m) := by
  obtain ⟨hloaded, hloaded', model, rfl⟩ := h
  -- the mode is the same in both, so both switch or neither does
  by_cases hsame : e.mode = m
  · have hsame' : (e.withDeepfilter model).mode = m := hsame
    rw [setMode_self hsame, setMode_self hsame']
    exact ⟨hloaded, hloaded', model, rfl⟩
  · have hsame' : (e.withDeepfilter model).mode ≠ m := hsame
    have hloaded₁ : (e.setMode m).deepfilterLoaded = false := by
      rw [deepfilterLoaded_setMode]
      exact hloaded
    have hloaded₂ : ((e.withDeepfilter model).setMode m).deepfilterLoaded = false := by
      rw [deepfilterLoaded_setMode]
      exact hloaded'
    rw [setMode_eq hsame] at hloaded₁ ⊢
    rw [setMode_eq hsame'] at hloaded₂ ⊢
    exact ⟨hloaded₁, hloaded₂, _, rfl⟩

theorem Unloaded.setAttenuationLimit (h : Unloaded e e') (db : α) :
    Unloaded (e.setAttenuationLimit db) (e'.setAttenuationLimit db) := by
  obtain ⟨hloaded, hloaded', model, rfl⟩ := h
  unfold Engine.setAttenuationLimit
  rw [applyAttenuationForMode_eq, applyAttenuationForMode_eq]
  refine ⟨?_, ?_, _, rfl⟩
  · exact (loaded_map (fun d => loaded_limited d _) _).trans hloaded
  · exact (loaded_map (fun d => loaded_limited d _) _).trans hloaded'

/-- The engines answer alike, and neither has a model loaded. -/
def Alike (e e' : Engine α R M) : Prop := InStep (fun _ => True) Unloaded e e'

theorem Alike.setMode (h : Alike e e') (m : NoiseMode) : Alike (e.setMode m) (e'.setMode m) := by
  -- a switch of mode commutes with dropping the buffers
  have hcore : ∀ e : Engine α R M, (e.setMode m).core = e.core.setMode m := by
    intro e
    by_cases hsame : e.mode = m
    · have hsame' : e.core.mode = m := hsame
      rw [setMode_self hsame, setMode_self hsame']
    · have hsame' : e.core.mode ≠ m := hsame
      rw [setMode_eq hsame, setMode_eq hsame']
      rfl
  have hmode : e'.mode = e.mode := by
    obtain ⟨_, _, model, heq⟩ := h.similar
    have hcores := congrArg (fun e => e.mode) heq
    exact hcores
  have hsimilar : Unloaded (e.setMode m).core (e'.setMode m).core := by
    rw [hcore, hcore]
    exact Unloaded.setMode h.similar m
  by_cases hsame : e.mode = m
  · have hsame' : e'.mode = m := hmode.trans hsame
    rw [setMode_self hsame, setMode_self hsame']
    exact h
  · have hsame' : e'.mode ≠ m := hmode ▸ hsame
    rw [setMode_eq hsame, setMode_eq hsame'] at hsimilar ⊢
    exact ⟨hsimilar, fun _ _ => trivial, rfl, rfl, rfl, rfl⟩

theorem Alike.setAttenuationLimit (h : Alike e e') (db : α) :
    Alike (e.setAttenuationLimit db) (e'.setAttenuationLimit db) := by
  have hsimilar := Unloaded.setAttenuationLimit h.similar db
  unfold Engine.setAttenuationLimit at hsimilar ⊢
  rw [applyAttenuationForMode_eq, applyAttenuationForMode_eq] at hsimilar ⊢
  exact ⟨hsimilar, fun _ _ => trivial, h.inputBuffer, h.outputBuffer, h.outputReadPos,
    h.outputStarted⟩

theorem Alike.step (h : Alike e e') (api : Denoisers α R M) {op : EngineOp α R M}
    (hop : op.AfterLoad) :
    [e'.answer api op] = [e.answer api op] ∧ Alike (e.after api op) (e'.after api op) := by
  have hnext : Alike (e.after api op) (e'.after api op) ∧
      (e'.answer api op).returned = (e.answer api op).returned := by
    cases op with
    | setMode m => exact ⟨h.setMode m, rfl⟩
    | setAttenuationLimit db => exact ⟨h.setAttenuationLimit db, rfl⟩
    | processFrame c =>
      obtain ⟨hreturned, houtput, hstep⟩ := (lockstep_unloaded api).process h c
      exact ⟨hstep, congrArg some (Prod.ext hreturned houtput)⟩
    | init | shutdown | loadDeepfilterModel | loadDeepfilterModelFrom | setDryMix =>
      exact nomatch hop
  obtain ⟨hstatus, _, hover, _⟩ := (lockstep_unloaded api).same hnext.1
  exact ⟨congrArg (fun a => [a]) (Answer.ext hnext.2 hover hstatus), hnext.1⟩

/-! ## When the engine does not run -/

/-- Two engines that do not run and say the same about it. -/
def Quiet (e e' : Engine α R M) : Prop :=
  e.status ≠ .running ∧ e'.status = e.status ∧ e'.inOverload = e.inOverload

/-- The calls do nothing a caller could see. -/
theorem quiet_after (api : Denoisers α R M) (h : e.status ≠ .running) {op : EngineOp α R M}
    (hop : op.AfterLoad) :
    (e.after api op).status = e.status ∧ (e.after api op).inOverload = e.inOverload := by
  have hsetting : op.IsSetting → SameSession e (e.after api op) := sameSession_after api e
  cases op with
  | setMode | setAttenuationLimit =>
    exact ⟨(hsetting trivial).status, (hsetting trivial).inOverload⟩
  | processFrame c =>
    show (e.process api c).2.2.status = _ ∧ (e.process api c).2.2.inOverload = _
    rw [process_of_not_running h]
    exact ⟨rfl, rfl⟩
  | init | shutdown | loadDeepfilterModel | loadDeepfilterModelFrom | setDryMix =>
    exact nomatch hop

theorem Quiet.step (h : Quiet e e') (api : Denoisers α R M) {op : EngineOp α R M}
    (hop : op.AfterLoad) :
    [e'.answer api op] = [e.answer api op] ∧ Quiet (e.after api op) (e'.after api op) := by
  obtain ⟨hstatus, hsame, hover⟩ := h
  have hstatus' : e'.status ≠ .running := by
    rw [hsame]
    exact hstatus
  obtain ⟨hafter, hafterOver⟩ := quiet_after api hstatus hop
  obtain ⟨hafter', hafterOver'⟩ := quiet_after api hstatus' hop
  have hnext : Quiet (e.after api op) (e'.after api op) := by
    refine ⟨?_, ?_, ?_⟩
    · rw [hafter]
      exact hstatus
    · rw [hafter, hafter', hsame]
    · rw [hafterOver, hafterOver', hover]
  -- only `process_frame` returns something, and it refuses in both
  have hreturned : (e'.answer api op).returned = (e.answer api op).returned := by
    cases op with
    | processFrame c =>
      show some ((e'.process api c).1, (e'.process api c).2.1) =
        some ((e.process api c).1, (e.process api c).2.1)
      rw [process_of_not_running hstatus, process_of_not_running hstatus']
    | init | shutdown | setMode | loadDeepfilterModel | loadDeepfilterModelFrom | setDryMix
      | setAttenuationLimit => rfl
  exact ⟨congrArg (fun a => [a]) (Answer.ext hreturned hnext.2.2 hnext.2.1), hnext⟩

/-! ## A failed load -/

omit [Sample α] in
theorem modelInUse_of_unloaded (h : e.deepfilterLoaded = false) : e.modelInUse = none := by
  unfold modelInUse
  rw [useDeepfilter_of_not_loaded h, if_neg]
  exact fun hboth => Bool.false_ne_true hboth.2

theorem behavesAs_of_alike (h : Alike e e') : BehavesAs api e e' := by
  have hstep : ∀ (s t : Engine α R M) (op : EngineOp α R M), op.AfterLoad → Alike s t →
      [t.answer api op] = [s.answer api op] ∧ Alike (s.after api op) (t.after api op) :=
    fun _ _ _ hop hs => hs.step api hop
  intro ops hops
  obtain ⟨hanswers, hlast⟩ := Observe.outputs_of_simulation hstep h hops
  obtain ⟨hloaded, hloaded', _⟩ := hlast.similar
  exact ⟨hanswers, (modelInUse_of_unloaded hloaded').trans (modelInUse_of_unloaded hloaded).symm⟩

theorem behavesAs_of_quiet (h : Quiet e e') : BehavesAs api e e' := by
  intro ops hops
  have hstep : ∀ (s t : Engine α R M) (op : EngineOp α R M), op.AfterLoad → Quiet s t →
      [t.answer api op] = [s.answer api op] ∧ Quiet (s.after api op) (t.after api op) :=
    fun _ _ _ hop hs => hs.step api hop
  obtain ⟨hanswers, hstatus, hsame, _⟩ := Observe.outputs_of_simulation hstep h hops
  refine ⟨hanswers, ?_⟩
  unfold modelInUse
  rw [hsame, if_neg fun hboth => hstatus hboth.1, if_neg fun hboth => hstatus hboth.1]

omit [Sample α] in
/-- A running engine uses its model in every mode but one. -/
theorem modelInUse_of_loaded (h : e.deepfilterLoaded = true) (hrunning : e.status = .running)
    (hmode : e.mode ≠ .cpuSaver) : e.modelInUse.isSome = true := by
  have huse : e.useDeepfilter = true := by
    unfold useDeepfilter
    rw [h, Bool.and_true]
    exact bne_iff_ne.mpr hmode
  unfold modelInUse
  rw [if_pos ⟨hrunning, huse⟩]
  unfold deepfilterLoaded at h
  cases hd : e.deepfilter with
  | none =>
    rw [hd] at h
    exact nomatch h
  | some d => rfl

/-- A caller of a running engine can notice that no model is loaded any more. -/
theorem not_behavesAs_of_loaded (h : e.deepfilterLoaded = true) (hrunning : e.status = .running)
    (h' : e'.deepfilterLoaded = false) : ¬BehavesAs api e e' := by
  intro hsame
  by_cases hmode : e.mode = .cpuSaver
  · -- the model is put to use by a switch to another mode
    have hswitch := (hsame [.setMode .balanced] (by simp [EngineOp.AfterLoad])).2
    have hne : e.mode ≠ .balanced := by rw [hmode]; decide
    have hmodel : (e.setMode .balanced).modelInUse.isSome = true := by
      apply modelInUse_of_loaded
      · rw [deepfilterLoaded_setMode]
        exact h
      · rw [setMode_eq hne]
        exact hrunning
      · rw [setMode_eq hne]
        exact NoiseMode.noConfusion
    have hlost : (e'.setMode .balanced).modelInUse = none := by
      apply modelInUse_of_unloaded
      rw [deepfilterLoaded_setMode]
      exact h'
    have heq : (e'.setMode .balanced).modelInUse = (e.setMode .balanced).modelInUse := hswitch
    rw [← heq, hlost] at hmodel
    exact nomatch hmodel
  · have hmodel := modelInUse_of_loaded h hrunning hmode
    have heq : e'.modelInUse = e.modelInUse :=
      (hsame [] fun _ hop => absurd hop List.not_mem_nil).2
    rw [← heq, modelInUse_of_unloaded h'] at hmodel
    exact nomatch hmodel

/-- A failed load leaves no model loaded. -/
theorem loadDeepfilterModelFrom_failed (outcome : LoadOutcome M)
    (hfail : (e.loadDeepfilterModelFrom (some outcome)).1 = false) :
    (e.loadDeepfilterModelFrom (some outcome)).2.deepfilterLoaded = false := by
  obtain ⟨_, hloaded, _⟩ | ⟨session, inputs, outputs, hok, _⟩ :=
    (e.deepfilter.getD .new).load_spec outcome
  · rw [loadDeepfilterModelFrom_eq]
    show (((e.deepfilter.getD .new).load outcome).2.limited _).loaded = false
    rw [loaded_limited]
    exact hloaded
  -- a load that came out as `ok` does not fail
  · subst hok
    exact nomatch hfail

end Engine

/-- A failed load goes unnoticed exactly if there was no file, or no model was loaded before,
    or the engine does not run. -/
theorem failed_load_unnoticed_iff (api : Denoisers α R M) (e : Engine α R M)
    (file : Option (LoadOutcome M)) (hfail : (e.loadDeepfilterModelFrom file).1 = false) :
    Engine.BehavesAs api e (e.loadDeepfilterModelFrom file).2 ↔
      file = none ∨ e.deepfilterLoaded = false ∨ e.status ≠ .running := by
  cases file with
  | none => simp [Engine.loadDeepfilterModelFrom, Engine.BehavesAs]
  | some outcome =>
    have hloaded' := Engine.loadDeepfilterModelFrom_failed outcome hfail
    constructor
    · intro hsame
      by_contra hcases
      simp only [not_or, not_not, Bool.not_eq_false] at hcases
      exact Engine.not_behavesAs_of_loaded hcases.2.1 hcases.2.2 hloaded' hsame
    · intro hcases
      rw [Engine.loadDeepfilterModelFrom_eq] at hloaded' ⊢
      obtain hnone | hloaded | hstatus := hcases
      · cases hnone
      · exact Engine.behavesAs_of_alike
          ⟨⟨hloaded, hloaded', _, rfl⟩, fun _ _ => trivial, rfl, rfl, rfl, rfl⟩
      · exact Engine.behavesAs_of_quiet ⟨hstatus, rfl, rfl⟩

/-- A running engine, in the default mode, with a model. -/
def engineWithModel : Engine ℚ Unit Unit :=
  Engine.new.after identityDenoisers (.init stereo48k (some ()) (some (.ok () ["frame"] ["out"])))

/-- An engine that does not run does not notice. -/
theorem failed_load_unnoticed_stopped :
    Engine.BehavesAs identityDenoisers engineWithModel.shutdown
        (engineWithModel.shutdown.loadDeepfilterModelFrom (some .sessionThrows)).2 ↔
      (some LoadOutcome.sessionThrows : Option (LoadOutcome Unit)) = none ∨
        engineWithModel.shutdown.deepfilterLoaded = false ∨
        engineWithModel.shutdown.status ≠ .running :=
  failed_load_unnoticed_iff identityDenoisers _ (some .sessionThrows) rfl

/-- The second load fails when the session is created: the model in use is lost. -/
theorem model_lost_by_failed_load :
    Machine.Reaches (Engine.step identityDenoisers) .new engineWithModel ∧
    (engineWithModel.loadDeepfilterModelFrom (some .sessionThrows)).1 = false ∧
    engineWithModel.modelInUse.isSome = true ∧
    ¬Engine.BehavesAs identityDenoisers engineWithModel
      (engineWithModel.loadDeepfilterModelFrom (some .sessionThrows)).2 := by
  refine ⟨⟨[_], rfl⟩, rfl, rfl, ?_⟩
  exact Engine.not_behavesAs_of_loaded rfl rfl rfl

end Noise
