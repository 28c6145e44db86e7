import NoiseAI.ForStd.Machine
import NoiseAI.ForStd.Option
import NoiseAI.Native.EngineCalls
import NoiseAI.Spec.EngineStream
import Mathlib.Logic.Relation

/-!
# The engine between two calls

`process_frame` runs the denoisers and moves samples through the buffers, and leaves the
rest of the engine as it is (`Keeps`). `Inv` is what holds of the engine between any two
calls: a running engine has a DenoiseState, a loaded model is complete, the read cursor is
inside the output buffer and less than a chunk of input is left over.
-/

namespace Noise

variable {α R M : Type}

/-- A call that changes the mode, an override or the model. -/
def EngineOp.IsSetting : EngineOp α R M → Prop
  | .init _ _ _ | .shutdown | .processFrame _ => False
  | _ => True

/-! ## What denoising leaves as it is -/

/-- A model object that differs in its recurrent state only. -/
def DeepFilterEngine.Evolves (d d' : DeepFilterEngine α M) : Prop :=
  ∃ states, d' = { d with states := states } ∧ states.length = d.states.length

/-- A DenoiseState some frames later. -/
def Denoisers.Evolves (api : Denoisers α R M) : R → R → Prop :=
  Relation.ReflTransGen fun r r' => ∃ x, r' = (api.rnnoiseProcessFrame r x).2

theorem DeepFilterEngine.Evolves.refl (d : DeepFilterEngine α M) : d.Evolves d :=
  ⟨d.states, rfl, rfl⟩

theorem DeepFilterEngine.Evolves.trans {d d' d'' : DeepFilterEngine α M} (h : d.Evolves d')
    (h' : d'.Evolves d'') : d.Evolves d'' := by
  obtain ⟨states, rfl, hlen⟩ := h
  obtain ⟨states', rfl, hlen'⟩ := h'
  exact ⟨states', rfl, hlen'.trans hlen⟩

namespace Engine

variable {api : Denoisers α R M} {e e' e'' : Engine α R M}

/-- The two engines differ only in what denoising changes: the recurrent states, the buffers
    and the overload counters. -/
structure Keeps (api : Denoisers α R M) (e e' : Engine α R M) : Prop where
  mode : e'.mode = e.mode
  status : e'.status = e.status
  dryMixOverride : e'.dryMixOverride = e.dryMixOverride
  attenLimOverride : e'.attenLimOverride = e.attenLimOverride
  channels : e'.channels = e.channels
  deepfilter : Option.Rel DeepFilterEngine.Evolves e.deepfilter e'.deepfilter
  rnnoiseState : Option.Rel api.Evolves e.rnnoiseState e'.rnnoiseState

/-- The engine with other buffers and overload counters. -/
theorem keeps_withCounters (api : Denoisers α R M) (e : Engine α R M) (input output : List α)
    (readPos : Nat) (started : Bool) (count cooldown : Nat) (inOverload : Bool) :
    Keeps api e { e with
      inputBuffer := input
      outputBuffer := output
      outputReadPos := readPos
      outputStarted := started
      overloadCount := count
      overloadCooldown := cooldown
      inOverload := inOverload } :=
  ⟨rfl, rfl, rfl, rfl, rfl, Option.rel_self DeepFilterEngine.Evolves.refl _,
    Option.rel_self (fun _ => .refl) _⟩

theorem Keeps.refl (api : Denoisers α R M) (e : Engine α R M) : Keeps api e e :=
  keeps_withCounters api e e.inputBuffer e.outputBuffer e.outputReadPos e.outputStarted
    e.overloadCount e.overloadCooldown e.inOverload

theorem Keeps.trans (h : Keeps api e e') (h' : Keeps api e' e'') : Keeps api e e'' where
  mode := h'.mode.trans h.mode
  status := h'.status.trans h.status
  dryMixOverride := h'.dryMixOverride.trans h.dryMixOverride
  attenLimOverride := h'.attenLimOverride.trans h.attenLimOverride
  channels := h'.channels.trans h.channels
  deepfilter := Option.Rel.trans (r := DeepFilterEngine.Evolves) (fun _ _ _ => .trans)
    h.deepfilter h'.deepfilter
  rnnoiseState := Option.Rel.trans (r := api.Evolves) (fun _ _ _ => .trans)
    h.rnnoiseState h'.rnnoiseState

theorem Keeps.deepfilterLoaded (h : Keeps api e e') : e'.deepfilterLoaded = e.deepfilterLoaded := by
  have hd := h.deepfilter
  unfold Engine.deepfilterLoaded
  generalize e.deepfilter = a at hd
  generalize e'.deepfilter = b at hd
  cases hd with
  | none => rfl
  | some hevolves =>
    obtain ⟨states, rfl, _⟩ := hevolves
    rfl

theorem Keeps.useDeepfilter (h : Keeps api e e') : e'.useDeepfilter = e.useDeepfilter := by
  unfold Engine.useDeepfilter
  rw [h.mode, h.deepfilterLoaded]

variable [Sample α]

theorem Keeps.getAttenuationLimit (h : Keeps api e e') :
    e'.getAttenuationLimit = e.getAttenuationLimit := by
  unfold Engine.getAttenuationLimit
  rw [h.attenLimOverride]

theorem evolves_processFrame (api : Denoisers α R M)
    (d : DeepFilterEngine α M) (input : List α) : d.Evolves (d.processFrame api input).2.2 := by
  unfold DeepFilterEngine.processFrame
  split
  · split
    · rename_i hrun
      exact ⟨_, rfl, api.session_states hrun⟩
    · exact .refl d
  · exact .refl d

/-- Inference evolves one of the denoisers. -/
theorem keeps_infer (api : Denoisers α R M) (e : Engine α R M) (chunk : List α) :
    Keeps api e (e.infer api chunk).2 := by
  unfold infer
  split
  · split
    · rename_i d hd
      refine ⟨rfl, rfl, rfl, rfl, rfl, ?_, Option.rel_self (fun _ => .refl) _⟩
      rw [hd]
      exact .some (evolves_processFrame api d chunk)
    · exact .refl api e
  · split
    · rename_i r hr
      refine ⟨rfl, rfl, rfl, rfl, rfl, Option.rel_self DeepFilterEngine.Evolves.refl _, ?_⟩
      rw [hr]
      exact .some (.single ⟨_, rfl⟩)
    · exact .refl api e

theorem keeps_updateOverload (api : Denoisers α R M) (e : Engine α R M) (elapsedMs : α) :
    Keeps api e (e.updateOverload elapsedMs) := by
  unfold updateOverload
  dsimp only
  split
  · split <;> exact keeps_withCounters ..
  · exact keeps_withCounters ..

omit [Sample α] in
theorem keeps_leaveOverload (api : Denoisers α R M) (e : Engine α R M) :
    Keeps api e e.leaveOverload := by
  unfold leaveOverload
  split
  · exact keeps_withCounters ..
  · exact .refl api e

theorem keeps_denoiseChunk (api : Denoisers α R M) (e : Engine α R M) (elapsedMs : α)
    (chunk : List α) : Keeps api e (e.denoiseChunk api elapsedMs chunk).2 := by
  unfold denoiseChunk
  split
  · exact keeps_withCounters ..
  · exact ((keeps_leaveOverload api e).trans (keeps_infer api _ chunk)).trans
      (keeps_updateOverload api _ elapsedMs)

theorem keeps_processMonoChunk (api : Denoisers α R M) (e : Engine α R M) (elapsedMs : α) :
    Keeps api e (e.processMonoChunk api elapsedMs) :=
  (keeps_denoiseChunk api e elapsedMs _).trans (keeps_withCounters ..)

/-! ## The loop over complete chunks -/

/-- What every chunk preserves holds at every entry of the loop and after it. -/
theorem processChunks_invariant {P : Engine α R M → Prop}
    (hP : ∀ e elapsedMs, P e → DENOISE_FRAME_SIZE ≤ e.inputBuffer.length →
      P (e.processMonoChunk api elapsedMs))
    (clock : Nat → α) (fuel k : Nat) {e : Engine α R M} (h : P e) :
    (∀ entry ∈ chunkEntries api clock fuel k e,
      P entry.1 ∧ DENOISE_FRAME_SIZE ≤ entry.1.inputBuffer.length) ∧
    P (processChunks api clock fuel k e) := by
  induction fuel generalizing k e with
  | zero => exact ⟨fun _ hentry => absurd hentry List.not_mem_nil, h⟩
  | succ fuel ih =>
    unfold chunkEntries processChunks
    split
    · rename_i hfull
      obtain ⟨hentries, hafter⟩ := ih (k + 1) (hP e (clock k) h hfull)
      exact ⟨List.forall_mem_cons.mpr ⟨⟨h, hfull⟩, hentries⟩, hafter⟩
    · exact ⟨fun _ hentry => absurd hentry List.not_mem_nil, h⟩

/-- After the loop less than a chunk is left. -/
theorem length_processChunks (clock : Nat → α) (fuel k : Nat) {e : Engine α R M}
    (h : e.inputBuffer.length ≤ fuel) :
    (processChunks api clock fuel k e).inputBuffer.length < DENOISE_FRAME_SIZE := by
  induction fuel generalizing k e with
  | zero =>
    have hsize : 0 < DENOISE_FRAME_SIZE := by decide
    have hnil : e.inputBuffer.length = 0 := by omega
    show e.inputBuffer.length < DENOISE_FRAME_SIZE
    omega
  | succ fuel ih =>
    unfold processChunks
    split
    · apply ih
      show (e.inputBuffer.drop DENOISE_FRAME_SIZE).length ≤ fuel
      have hsize : 0 < DENOISE_FRAME_SIZE := by decide
      rw [List.length_drop]
      omega
    · omega

/-- Where every chunk applies `g` to a value `f` of the engine, the loop does so as often as
    the input holds a chunk. -/
theorem processChunks_iterate {β : Type} {f : Engine α R M → β} {g : β → β}
    {P : Engine α R M → Prop} (clock : Nat → α)
    (hstep : ∀ e k, P e → DENOISE_FRAME_SIZE ≤ e.inputBuffer.length →
      P (e.processMonoChunk api (clock k)) ∧ f (e.processMonoChunk api (clock k)) = g (f e))
    (fuel k : Nat) {e : Engine α R M} (hP : P e) (hfuel : e.inputBuffer.length ≤ fuel) :
    f (processChunks api clock fuel k e) =
      g^[e.inputBuffer.length / DENOISE_FRAME_SIZE] (f e) := by
  have hsize : 0 < DENOISE_FRAME_SIZE := by decide
  induction fuel generalizing k e with
  | zero =>
    have hnil : e.inputBuffer.length = 0 := by omega
    rw [hnil, Nat.zero_div]
    rfl
  | succ fuel ih =>
    unfold processChunks
    split
    · rename_i hfull
      have hlen : (e.processMonoChunk api (clock k)).inputBuffer.length =
          e.inputBuffer.length - DENOISE_FRAME_SIZE := List.length_drop
      obtain ⟨hnext, happly⟩ := hstep e k hP hfull
      rw [ih (k + 1) hnext (by omega), hlen, happly, Nat.div_eq_sub_div hsize hfull,
        Function.iterate_succ_apply]
    · rename_i hshort
      rw [Nat.div_eq_of_lt (by omega)]
      rfl

/-- What a chunk does to the buffers. -/
theorem processMonoChunk_eq (api : Denoisers α R M) (e : Engine α R M) (elapsedMs : α) :
    e.processMonoChunk api elapsedMs =
      (e.denoiseChunk api elapsedMs (e.inputBuffer.take DENOISE_FRAME_SIZE)).2.withBuffers
        (e.inputBuffer.drop DENOISE_FRAME_SIZE)
        (e.outputBuffer ++
          (e.denoiseChunk api elapsedMs (e.inputBuffer.take DENOISE_FRAME_SIZE)).1)
        e.outputReadPos e.outputStarted := by
  have hsame := congrArg Prod.snd (denoiseChunk_withBuffers api e e.inputBuffer e.outputBuffer
    e.outputReadPos e.outputStarted elapsedMs (e.inputBuffer.take DENOISE_FRAME_SIZE))
  have hself : e.withBuffers e.inputBuffer e.outputBuffer e.outputReadPos e.outputStarted = e := rfl
  rw [hself] at hsame
  unfold processMonoChunk
  dsimp only
  rw [hsame]
  rfl

/-! ## One call -/

/-- The read cursor is inside the output buffer. -/
def CursorInside (e : Engine α R M) : Prop := e.outputReadPos ≤ e.outputBuffer.length

theorem CursorInside.processMonoChunk (h : e.CursorInside) (api : Denoisers α R M)
    (elapsedMs : α) : (e.processMonoChunk api elapsedMs).CursorInside := by
  rw [processMonoChunk_eq]
  unfold CursorInside withBuffers at *
  simp only [List.length_append]
  omega

/-- Inside a call every chunk keeps the setup and the cursor. -/
theorem buffered_invariant (h : e.CursorInside) (api : Denoisers α R M) (c : ProcessCall α) :
    (∀ entry ∈ chunkEntries api c.clock (e.buffered c).inputBuffer.length 0 (e.buffered c),
      (Keeps api e entry.1 ∧ entry.1.CursorInside) ∧
        DENOISE_FRAME_SIZE ≤ entry.1.inputBuffer.length) ∧
    Keeps api e (e.accept api c.clock c.input c.numFrames) ∧
      (e.accept api c.clock c.input c.numFrames).CursorInside := by
  refine processChunks_invariant (P := fun e' => Keeps api e e' ∧ e'.CursorInside)
    ?_ c.clock (e.buffered c).inputBuffer.length 0 (e := e.buffered c) ?_
  · intro e' elapsedMs ⟨hkeeps, hcursor⟩ _
    exact ⟨hkeeps.trans (keeps_processMonoChunk api e' elapsedMs),
      hcursor.processMonoChunk api elapsedMs⟩
  · exact ⟨keeps_withCounters .., h⟩

omit [Sample α] in
theorem keeps_prefill (api : Denoisers α R M) (e : Engine α R M) : Keeps api e e.prefill := by
  rw [prefill_eq]
  exact keeps_withCounters ..

omit [Sample α] in
theorem keeps_advance (api : Denoisers α R M) (e : Engine α R M) (numFrames : Nat) :
    Keeps api e (e.advance numFrames) := by
  unfold advance
  dsimp only
  split <;> exact keeps_withCounters ..

/-- What is read after the prefill gate is there. -/
theorem CursorInside.accepted (h : e.CursorInside) (api : Denoisers α R M) (c : ProcessCall α) :
    Keeps api e (e.accepted api c.clock c.input c.numFrames) ∧
      (e.accepted api c.clock c.input c.numFrames).CursorInside := by
  obtain ⟨hkeeps, hcursor⟩ := (buffered_invariant h api c).2
  constructor
  · exact hkeeps.trans (keeps_prefill api _)
  · unfold Engine.accepted
    rw [prefill_eq]
    exact hcursor

omit [Sample α] in
theorem CursorInside.advance (h : e.CursorInside) {numFrames : Nat}
    (hready : e.ready numFrames = true) :
    e.outputReadPos + numFrames ≤ e.outputBuffer.length ∧
      (e.advance numFrames).CursorInside := by
  simp only [ready, Bool.and_eq_true, decide_eq_true_eq] at hready
  have havail := hready.2
  unfold available at havail
  unfold CursorInside at *
  unfold Engine.advance
  dsimp only
  -- the buffer is compacted once the cursor is far enough in
  split
  · exact ⟨by omega, Nat.zero_le _⟩
  · exact ⟨by omega, by dsimp only; omega⟩

/-- A call to an engine that is not running does nothing. -/
theorem process_of_not_running (hstatus : e.status ≠ .running) (api : Denoisers α R M)
    (c : ProcessCall α) : e.process api c = (false, c.output, e) := if_pos hstatus

/-- What a call keeps and where it leaves the buffers. -/
theorem keeps_process (hcursor : e.CursorInside)
    (hinput : e.inputBuffer.length < DENOISE_FRAME_SIZE)
    (hrunning : e.status = .running → e.rnnoiseState.isSome = true) (api : Denoisers α R M)
    (c : ProcessCall α) :
    Keeps api e (e.process api c).2.2 ∧ (e.process api c).2.2.CursorInside ∧
      (e.process api c).2.2.inputBuffer.length < DENOISE_FRAME_SIZE := by
  by_cases hstatus : e.status = .running
  · have hlive : e.Live e.channels := ⟨hstatus, hrunning hstatus, rfl⟩
    obtain ⟨hkeeps, hinside⟩ := hcursor.accepted api c
    -- after the loop over complete chunks less than a chunk is left
    have hshort : (e.accepted api c.clock c.input c.numFrames).inputBuffer.length <
        DENOISE_FRAME_SIZE := by
      unfold accepted
      rw [prefill_eq]
      exact length_processChunks c.clock _ 0 (Nat.le_refl _)
    unfold process
    rw [hlive.engine_processFrame]
    split
    · rename_i haudio
      refine ⟨hkeeps.trans (keeps_advance api _ _), (hinside.advance haudio).2, ?_⟩
      unfold advance
      dsimp only
      split <;> exact hshort
    · exact ⟨hkeeps, hinside, hshort⟩
  · rw [process_of_not_running hstatus]
    exact ⟨.refl api e, hcursor, hinput⟩

end Engine

/-! ## The model object -/

namespace DeepFilterEngine

variable [Sample α]

/-- The object with a model loaded. -/
def withModel (session : M) (inputs outputs : List String) (limit : α) (states : List α) :
    DeepFilterEngine α M where
  session := some session
  states := states
  attenLimDb := limit
  inputNamesStr := inputs
  outputNamesStr := outputs
  inputNames := inputs
  outputNames := outputs
  loaded := true

/-- The recurrent state has its size, and a loaded object has a session, the names of its
    inputs and outputs, and the limit `limit`. -/
structure Complete (d : DeepFilterEngine α M) (limit : α) : Prop where
  states : d.states.length = STATE_SIZE
  loaded : d.loaded = true →
    ∃ session inputs outputs, d = withModel session inputs outputs limit d.states

omit [Sample α] in
theorem Complete.evolves {d d' : DeepFilterEngine α M} {limit : α} (h : d.Complete limit)
    (hevolves : d.Evolves d') : d'.Complete limit := by
  obtain ⟨states, rfl, hlen⟩ := hevolves
  refine ⟨hlen.trans h.states, ?_⟩
  intro hloaded
  obtain ⟨session, inputs, outputs, hd⟩ := h.loaded hloaded
  refine ⟨session, inputs, outputs, ?_⟩
  rw [hd]
  rfl

theorem evolves_resetState (d : DeepFilterEngine α M) : d.Evolves d.resetState :=
  ⟨_, rfl, List.length_replicate⟩

omit [Sample α] in
theorem Complete.setAttenuationLimit {d : DeepFilterEngine α M} {limit : α} (h : d.Complete limit)
    [Sample α] (db : α) : (d.setAttenuationLimit db).Complete db := by
  refine ⟨h.states, ?_⟩
  intro hloaded
  obtain ⟨session, inputs, outputs, hd⟩ := h.loaded hloaded
  refine ⟨session, inputs, outputs, ?_⟩
  rw [hd]
  rfl

theorem complete_new (limit : α) : (new : DeepFilterEngine α M).Complete limit where
  states := List.length_replicate
  loaded := fun h => nomatch h

/-- A load that fails leaves no model loaded, one that succeeds a complete one. -/
theorem load_spec (d : DeepFilterEngine α M) (outcome : LoadOutcome M) :
    ((d.load outcome).1 = false ∧ (d.load outcome).2.loaded = false ∧
      (d.load outcome).2.states = d.states) ∨
    ∃ session inputs outputs, outcome = .ok session inputs outputs ∧
      d.load outcome = (true, withModel session inputs outputs d.attenLimDb
        (List.replicate d.states.length 0)) := by
  cases outcome with
  | ok session inputs outputs =>
    right
    exact ⟨session, inputs, outputs, rfl, rfl⟩
  | sessionThrows | inputCountThrows | inputThrows | outputCountThrows | outputThrows =>
    left
    exact ⟨rfl, rfl, rfl⟩

/-- The object with the limit applied if a model is loaded. -/
def limited (d : DeepFilterEngine α M) (limit : α) : DeepFilterEngine α M :=
  if d.loaded then d.setAttenuationLimit limit else d

omit [Sample α] in
theorem Complete.limited {d : DeepFilterEngine α M} {limit limit' : α} [Sample α]
    (h : d.Complete limit) : (d.limited limit').Complete limit' := by
  unfold DeepFilterEngine.limited
  split
  · exact h.setAttenuationLimit limit'
  · rename_i hloaded
    exact ⟨h.states, fun htrue => absurd htrue hloaded⟩

theorem Complete.load {d : DeepFilterEngine α M} {limit : α} (h : d.Complete limit)
    (outcome : LoadOutcome M) : (d.load outcome).2.Complete d.attenLimDb := by
  obtain ⟨_, hloaded, hstates⟩ | ⟨session, inputs, outputs, _, heq⟩ := d.load_spec outcome
  -- a failed load: nothing is promised of an object that is not loaded
  · constructor
    · rw [hstates]
      exact h.states
    · intro htrue
      rw [hloaded] at htrue
      exact nomatch htrue
  · rw [heq]
    exact ⟨List.length_replicate.trans h.states, fun _ => ⟨session, inputs, outputs, rfl⟩⟩

end DeepFilterEngine

namespace Engine

variable [Sample α] {api : Denoisers α R M} {e e' : Engine α R M}

/-! ## What the settings change -/

/-- The engine with another model object. -/
def withDeepfilter (e : Engine α R M) (model : Option (DeepFilterEngine α M)) : Engine α R M :=
  { e with deepfilter := model }

/-- The model object after a search that came out as `found`. -/
def searched (found : Option (LoadOutcome M)) (limit : α) : DeepFilterEngine α M :=
  match found with
  | none => .new
  | some outcome => (DeepFilterEngine.new.load outcome).2.limited limit

/-- The model object after a load from a file that came out as `file`. -/
def reloaded (model : Option (DeepFilterEngine α M)) (file : Option (LoadOutcome M)) (limit : α) :
    Option (DeepFilterEngine α M) :=
  match file with
  | none => model
  | some outcome => some (((model.getD .new).load outcome).2.limited limit)

theorem applyAttenuationForMode_eq (e : Engine α R M) :
    e.applyAttenuationForMode =
      e.withDeepfilter (e.deepfilter.map fun d => d.limited e.getAttenuationLimit) := by
  obtain ⟨mode, status, dry, limit, channels, rnnoise, model⟩ := e
  unfold applyAttenuationForMode withDeepfilter deepfilterLoaded
  cases model with
  | none => rfl
  | some d =>
    unfold DeepFilterEngine.limited DeepFilterEngine.isLoaded
    cases hloaded : d.loaded with
    | false => simp [hloaded]
    | true => simp [hloaded]

/-- Where a load fails there is no model to apply the limit to. -/
theorem limited_of_load (d : DeepFilterEngine α M) (outcome : LoadOutcome M) (e : Engine α R M) :
    (if (d.load outcome).1 then
        (e.withDeepfilter (some (d.load outcome).2)).applyAttenuationForMode
      else e.withDeepfilter (some (d.load outcome).2)) =
    e.withDeepfilter (some ((d.load outcome).2.limited e.getAttenuationLimit)) := by
  obtain ⟨hok, hloaded, _⟩ | ⟨session, inputs, outputs, _, heq⟩ := d.load_spec outcome
  · rw [hok, if_neg Bool.false_ne_true]
    unfold DeepFilterEngine.limited
    rw [hloaded, if_neg Bool.false_ne_true]
  · rw [heq, if_pos rfl, applyAttenuationForMode_eq]
    rfl

theorem loadDeepfilterModel_eq (e : Engine α R M) (found : Option (LoadOutcome M)) :
    e.loadDeepfilterModel found =
      e.withDeepfilter (some (searched found e.getAttenuationLimit)) := by
  cases found with
  | none => rfl
  | some outcome => exact limited_of_load .new outcome e

theorem loadDeepfilterModelFrom_eq (e : Engine α R M) (file : Option (LoadOutcome M)) :
    (e.loadDeepfilterModelFrom file).2 =
      e.withDeepfilter (reloaded e.deepfilter file e.getAttenuationLimit) := by
  cases file with
  | none => rfl
  -- the file was found: the object is made if there is none, and loaded
  | some outcome =>
    rw [reloaded, ← limited_of_load]
    unfold loadDeepfilterModelFrom
    dsimp only
    split <;> rfl

/-- A switch to the mode the engine is in does nothing. -/
theorem setMode_self {m : NoiseMode} (h : e.mode = m) : e.setMode m = e := if_pos h

/-- A switch to another mode. -/
theorem setMode_eq {m : NoiseMode} (h : e.mode ≠ m) :
    e.setMode m = { e with
      mode := m
      deepfilter := e.deepfilter.map fun d => d.resetState.limited e.getAttenuationLimit
      inputBuffer := []
      outputBuffer := []
      outputReadPos := 0
      outputStarted := false } := by
  unfold setMode
  rw [if_neg h]
  dsimp only
  rw [applyAttenuationForMode_eq]
  unfold withDeepfilter
  dsimp only
  rw [Option.map_map]
  rfl

/-- The model object a session starts with: a loaded one is reset, else a search is made. -/
def sessionModel (e : Engine α R M) (found : Option (LoadOutcome M)) :
    Option (DeepFilterEngine α M) :=
  if e.deepfilterLoaded then e.deepfilter.map DeepFilterEngine.resetState
  else some (searched found e.getAttenuationLimit)

/-- The engine at the start of a session. -/
def sessionStart (e : Engine α R M) (channels : Nat) (state : R)
    (model : Option (DeepFilterEngine α M)) : Engine α R M where
  mode := e.mode
  status := .running
  dryMixOverride := e.dryMixOverride
  attenLimOverride := e.attenLimOverride
  channels := channels
  rnnoiseState := some state
  deepfilter := model
  inputBuffer := []
  outputBuffer := []
  outputReadPos := 0
  outputStarted := false
  overloadCount := 0
  overloadCooldown := 0
  inOverload := false

theorem init_some (e : Engine α R M) (format : AudioFormat) (state : R)
    (found : Option (LoadOutcome M)) :
    e.init format (some state) found =
      (true, e.sessionStart format.channels state (e.sessionModel found)) := by
  have hloaded : ({ e with channels := format.channels, rnnoiseState := some state } :
      Engine α R M).deepfilterLoaded = e.deepfilterLoaded := rfl
  simp only [init, Option.isNone_some, Bool.false_eq_true, if_false, hloaded]
  unfold sessionModel
  -- a model loaded before is reset, else the search for one is made
  split
  · rfl
  · rw [loadDeepfilterModel_eq]
    rfl

omit [Sample α] in
theorem loaded_map {f : DeepFilterEngine α M → DeepFilterEngine α M}
    (hf : ∀ d, (f d).loaded = d.loaded) (model : Option (DeepFilterEngine α M)) :
    (model.map f).any (·.isLoaded) = model.any (·.isLoaded) := by
  cases model with
  | none => rfl
  | some d => exact hf d

omit [Sample α] in
theorem loaded_limited (d : DeepFilterEngine α M) (limit : α) :
    (d.limited limit).loaded = d.loaded := by
  unfold DeepFilterEngine.limited
  split <;> rfl

/-- A switch of mode keeps the model loaded. -/
theorem deepfilterLoaded_setMode (e : Engine α R M) (m : NoiseMode) :
    (e.setMode m).deepfilterLoaded = e.deepfilterLoaded := by
  by_cases hsame : e.mode = m
  · rw [setMode_self hsame]
  · rw [setMode_eq hsame]
    exact loaded_map (fun d => loaded_limited d.resetState _) _

/-! ## The settings -/

/-- The engines differ only in the settings, the model and the buffers. -/
structure SameSession (e e' : Engine α R M) : Prop where
  status : e'.status = e.status
  channels : e'.channels = e.channels
  rnnoiseState : e'.rnnoiseState = e.rnnoiseState
  overloadCount : e'.overloadCount = e.overloadCount
  overloadCooldown : e'.overloadCooldown = e.overloadCooldown
  inOverload : e'.inOverload = e.inOverload

/-- The settings belong to no session. -/
theorem sameSession_after (api : Denoisers α R M) (e : Engine α R M) {op : EngineOp α R M}
    (hop : op.IsSetting) : SameSession e (e.after api op) := by
  cases op with
  -- `init` and `shutdown` begin and end a session, `process_frame` runs in it
  | init | shutdown | processFrame => exact nomatch hop
  | setMode m =>
    show SameSession e (e.setMode m)
    by_cases hsame : e.mode = m
    · rw [setMode_self hsame]
      exact ⟨rfl, rfl, rfl, rfl, rfl, rfl⟩
    · rw [setMode_eq hsame]
      exact ⟨rfl, rfl, rfl, rfl, rfl, rfl⟩
  | loadDeepfilterModel found =>
    show SameSession e (e.loadDeepfilterModel found)
    rw [loadDeepfilterModel_eq]
    exact ⟨rfl, rfl, rfl, rfl, rfl, rfl⟩
  | loadDeepfilterModelFrom file =>
    show SameSession e (e.loadDeepfilterModelFrom file).2
    rw [loadDeepfilterModelFrom_eq]
    exact ⟨rfl, rfl, rfl, rfl, rfl, rfl⟩
  | setDryMix mix => exact ⟨rfl, rfl, rfl, rfl, rfl, rfl⟩
  | setAttenuationLimit db =>
    show SameSession e (e.setAttenuationLimit db)
    unfold setAttenuationLimit
    rw [applyAttenuationForMode_eq]
    exact ⟨rfl, rfl, rfl, rfl, rfl, rfl⟩

/-! ## Between two calls -/

/-- The model object is complete, with the limit in force. -/
def ModelComplete (e : Engine α R M) : Prop :=
  ∀ d ∈ e.deepfilter, d.Complete e.getAttenuationLimit

theorem ModelComplete.keeps (h : e.ModelComplete) (hkeeps : Keeps api e e') :
    e'.ModelComplete := by
  intro d' hd'
  have hmodel := hkeeps.deepfilter
  rw [Option.mem_def.mp hd'] at hmodel
  cases hd : e.deepfilter with
  | none =>
    rw [hd] at hmodel
    exact nomatch hmodel
  | some d =>
    rw [hd, Option.rel_some_some] at hmodel
    rw [hkeeps.getAttenuationLimit]
    exact (h d hd).evolves hmodel

theorem complete_searched (found : Option (LoadOutcome M)) (limit : α) :
    (searched found limit).Complete limit := by
  cases found with
  | none => exact DeepFilterEngine.complete_new limit
  | some outcome => exact ((DeepFilterEngine.complete_new limit).load outcome).limited

theorem ModelComplete.reloaded (h : e.ModelComplete) (file : Option (LoadOutcome M)) :
    ∀ d ∈ Engine.reloaded e.deepfilter file e.getAttenuationLimit,
      d.Complete e.getAttenuationLimit := by
  cases file with
  | none => exact h
  | some outcome =>
    intro d hd
    cases hd
    cases hmodel : e.deepfilter with
    | none => exact ((DeepFilterEngine.complete_new e.getAttenuationLimit).load outcome).limited
    | some d => exact ((h d hmodel).load outcome).limited

theorem ModelComplete.reset (h : e.ModelComplete) :
    ∀ d ∈ e.deepfilter.map DeepFilterEngine.resetState, d.Complete e.getAttenuationLimit := by
  intro d' hd'
  obtain ⟨d, hd, rfl⟩ := Option.map_eq_some_iff.mp hd'
  exact (h d hd).evolves d.evolves_resetState

theorem ModelComplete.sessionModel (h : e.ModelComplete) (found : Option (LoadOutcome M)) :
    ∀ d ∈ e.sessionModel found, d.Complete e.getAttenuationLimit := by
  unfold Engine.sessionModel
  split
  · exact h.reset
  · intro d hd
    cases hd
    exact complete_searched found e.getAttenuationLimit

/-- What holds between any two calls. -/
structure Inv (e : Engine α R M) : Prop where
  running : e.status = .running → e.rnnoiseState.isSome = true
  model : e.ModelComplete
  cursor : e.CursorInside
  input_lt : e.inputBuffer.length < DENOISE_FRAME_SIZE

/-- A running engine runs with a denoiser. -/
theorem Inv.live (h : e.Inv) (hrunning : e.status = .running) : e.Live e.channels :=
  ⟨hrunning, h.running hrunning, rfl⟩

theorem Inv.keeps_process (h : e.Inv) (api : Denoisers α R M) (c : ProcessCall α) :
    Keeps api e (e.process api c).2.2 :=
  (Engine.keeps_process h.cursor h.input_lt h.running api c).1

theorem inv_new : (new : Engine α R M).Inv where
  running := fun h => nomatch h
  model := fun _ h => nomatch h
  cursor := Nat.le_refl 0
  input_lt := by show 0 < DENOISE_FRAME_SIZE; decide

theorem Inv.init (h : e.Inv) (format : AudioFormat) (created : Option R)
    (found : Option (LoadOutcome M)) : (e.init format created found).2.Inv := by
  cases created with
  -- without a denoiser the status is `error`, so nothing runs
  | none => exact ⟨fun hrunning => (nomatch hrunning), h.model, h.cursor, h.input_lt⟩
  | some state =>
    rw [init_some]
    dsimp only
    exact ⟨fun _ => rfl, h.model.sessionModel found, Nat.le_refl 0,
      by show 0 < DENOISE_FRAME_SIZE; decide⟩

theorem Inv.shutdown (h : e.Inv) : e.shutdown.Inv where
  running := fun hrunning => nomatch hrunning
  model := h.model.reset
  cursor := Nat.le_refl 0
  input_lt := by show 0 < DENOISE_FRAME_SIZE; decide

theorem Inv.setMode (h : e.Inv) (m : NoiseMode) : (e.setMode m).Inv := by
  by_cases hsame : e.mode = m
  · rw [setMode_self hsame]
    exact h
  · rw [setMode_eq hsame]
    refine ⟨h.running, ?_, Nat.le_refl 0, by show 0 < DENOISE_FRAME_SIZE; decide⟩
    intro d' hd'
    obtain ⟨d, hd, rfl⟩ := Option.map_eq_some_iff.mp hd'
    exact ((h.model d hd).evolves d.evolves_resetState).limited

/-- Every call keeps the invariant. -/
theorem Inv.after (h : e.Inv) (api : Denoisers α R M) (op : EngineOp α R M) :
    (e.after api op).Inv := by
  cases op with
  | init format created found => exact h.init format created found
  | shutdown => exact h.shutdown
  | setMode m => exact h.setMode m
  | loadDeepfilterModel found =>
    show (e.loadDeepfilterModel found).Inv
    rw [loadDeepfilterModel_eq]
    refine ⟨h.running, ?_, h.cursor, h.input_lt⟩
    intro d hd
    cases hd
    exact complete_searched found _
  | loadDeepfilterModelFrom file =>
    show (e.loadDeepfilterModelFrom file).2.Inv
    rw [loadDeepfilterModelFrom_eq]
    exact ⟨h.running, h.model.reloaded file, h.cursor, h.input_lt⟩
  -- the mix is no part of the invariant
  | setDryMix mix => exact ⟨h.running, h.model, h.cursor, h.input_lt⟩
  | setAttenuationLimit db =>
    show (e.setAttenuationLimit db).Inv
    unfold setAttenuationLimit
    rw [applyAttenuationForMode_eq]
    refine ⟨h.running, ?_, h.cursor, h.input_lt⟩
    intro d' hd'
    obtain ⟨d, hd, rfl⟩ := Option.map_eq_some_iff.mp hd'
    exact (h.model d hd).limited
  | processFrame c =>
    obtain ⟨hkeeps, hcursor, hinput⟩ := Engine.keeps_process h.cursor h.input_lt h.running api c
    refine ⟨?_, h.model.keeps hkeeps, hcursor, hinput⟩
    intro hrunning
    show (e.process api c).2.2.rnnoiseState.isSome = true
    rw [Option.Rel.isSome_eq hkeeps.rnnoiseState]
    exact h.running (hkeeps.status.symm.trans hrunning)

/-- The engine is in such a state after any sequence of calls. -/
theorem inv_reachable (h : Machine.Reaches (Engine.step api) .new e) : e.Inv := by
  obtain ⟨ops, hops⟩ := h
  refine Machine.run_invariant (fun _ => True) Inv ?_ inv_new (fun _ _ => trivial) hops
  intro e op e' _ hinv hstep
  cases hstep
  exact hinv.after api op

end Engine

end Noise
