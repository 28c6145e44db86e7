import NoiseAI.Spec.EngineLockstep
import NoiseAI.Spec.EngineReset
import NoiseAI.Spec.Overload

/-!
# Switching mode

`set_mode` empties the buffers and resets DeepFilterNet. It leaves RNNoise and the overload
fields as they are, which a new engine would not have. The theorem at the end says when nothing
of that can be heard or seen.
-/

namespace Noise

variable {α R M : Type} [Sample α]

/-- A sample that a frame of `channels` channels can be mixed down to. -/
def IsMean (channels : Nat) (x : α) : Prop :=
  ∃ frame : Nat → α, Engine.monoSample channels frame 0 = x

/-- A chunk of the mono stream. -/
def IsChunk (channels : Nat) (chunk : List α) : Prop :=
  chunk.length = DENOISE_FRAME_SIZE ∧ ∀ x ∈ chunk, IsMean channels x

/-- What `process_mono_chunk` makes of a chunk with RNNoise. -/
def Denoisers.rnnoise (api : Denoisers α R M) (state : R) (chunk : List α) : List α × R :=
  let (out, state) := api.rnnoiseProcessFrame state (chunk.map (· * ((32768 : Nat) : α)))
  (out.map (· / ((32768 : Nat) : α)), state)

/-- What a listener hears of RNNoise on consecutive chunks. -/
def Denoisers.heard (api : Denoisers α R M) (channels : Nat) : R → List (List α) → List (List α)
  | _, [] => []
  | state, chunk :: chunks =>
    let (out, state) := api.rnnoise state chunk
    out.map (toFrame channels) ++ api.heard channels state chunks

/-- No stream of chunks sounds different with one RNNoise state than with the other. -/
def Denoisers.SoundAlike (api : Denoisers α R M) (channels : Nat) (state state' : R) : Prop :=
  ∀ chunks : List (List α), (∀ chunk ∈ chunks, IsChunk channels chunk) →
    api.heard channels state' chunks = api.heard channels state chunks

/-- The mono samples of a call are means of frames, wherever their index wraps to. -/
theorem isMean_monoSample (channels : Nat) (input : Nat → α) (i : Nat) :
    IsMean channels (Engine.monoSample channels input i) := by
  refine ⟨fun a => input (u32 (i * channels + a)), ?_⟩
  unfold Engine.monoSample
  have hindex : ∀ ch, u32 (i * channels + u32 (0 * channels + ch)) = u32 (i * channels + ch) := by
    intro ch
    unfold u32
    omega
  simp only [hindex]

theorem length_rnnoise (api : Denoisers α R M) (state : R) (chunk : List α) :
    (api.rnnoise state chunk).1.length = DENOISE_FRAME_SIZE := by
  unfold Denoisers.rnnoise
  dsimp only
  rw [List.length_map]
  exact api.rnnoise_length _ _

/-- States that sound alike do so on a first chunk, and after it. -/
theorem Denoisers.SoundAlike.step {api : Denoisers α R M} {channels : Nat} {state state' : R}
    (h : api.SoundAlike channels state state') {chunk : List α} (hchunk : IsChunk channels chunk) :
    (api.rnnoise state' chunk).1.map (toFrame channels) =
      (api.rnnoise state chunk).1.map (toFrame channels) ∧
    api.SoundAlike channels (api.rnnoise state chunk).2 (api.rnnoise state' chunk).2 := by
  have hlen : ((api.rnnoise state' chunk).1.map (toFrame channels)).length =
      ((api.rnnoise state chunk).1.map (toFrame channels)).length := by
    rw [List.length_map, List.length_map, length_rnnoise, length_rnnoise]
  -- the results of a chunk have one length, so what is heard splits at it
  constructor
  · have hfirst := h [chunk] (by simpa using hchunk)
    exact (List.append_inj hfirst hlen).1
  · intro chunks hchunks
    have hall := h (chunk :: chunks) (List.forall_mem_cons.mpr ⟨hchunk, hchunks⟩)
    exact (List.append_inj hall hlen).2

namespace Engine

variable {api : Denoisers α R M} {e e' : Engine α R M} {channels : Nat}

/-- Inference with RNNoise. -/
theorem infer_rnnoise (api : Denoisers α R M) {state : R} (hstate : e.rnnoiseState = some state)
    (huse : e.useDeepfilter = false) (chunk : List α) :
    e.infer api chunk = ((api.rnnoise state chunk).1,
      { e with rnnoiseState := some (api.rnnoise state chunk).2 }) := by
  unfold infer
  rw [huse, hstate]
  rfl

/-- Inference with DeepFilterNet neither reads nor writes the RNNoise state. -/
theorem infer_deepfilter (api : Denoisers α R M) (huse : e.useDeepfilter = true)
    (state : Option R) (chunk : List α) :
    ({ e with rnnoiseState := state }).infer api chunk =
      ((e.infer api chunk).1, { (e.infer api chunk).2 with rnnoiseState := state }) ∧
    (e.infer api chunk).2.rnnoiseState = e.rnnoiseState := by
  have huse' : ({ e with rnnoiseState := state } : Engine α R M).useDeepfilter = true := huse
  unfold infer
  rw [huse, huse']
  cases hd : e.deepfilter with
  | none => simp [hd]
  | some d =>
    simp only [if_true]
    exact ⟨rfl, trivial⟩

/-! ## An engine after a switch and a new one -/

/-- The engines differ only in what is not used: both denoise with the same DeepFilterNet, or
    both with RNNoise in states that sound alike. -/
structure Switched (api : Denoisers α R M) (channels : Nat) (e e' : Engine α R M) : Prop where
  channels_eq : e.channels = channels
  states : ∃ state state', e.rnnoiseState = some state ∧ e'.rnnoiseState = some state' ∧
    (e.useDeepfilter = false → api.SoundAlike channels state state')
  deepfilter : e.useDeepfilter = true → e'.deepfilter = e.deepfilter
  useDeepfilter : e'.useDeepfilter = e.useDeepfilter
  rest : e' = { e with rnnoiseState := e'.rnnoiseState, deepfilter := e'.deepfilter }

theorem Switched.withBreaker (h : Switched api channels e e') (b : Breaker.State) :
    Switched api channels (e.withBreaker b) (e'.withBreaker b) where
  channels_eq := h.channels_eq
  states := h.states
  deepfilter := h.deepfilter
  useDeepfilter := h.useDeepfilter
  rest := congrArg (fun e => e.withBreaker b) h.rest

theorem Switched.infer (h : Switched api channels e e') {chunk : List α}
    (hchunk : IsChunk channels chunk) :
    (e'.infer api chunk).1.map (toFrame channels) = (e.infer api chunk).1.map (toFrame channels) ∧
    Switched api channels (e.infer api chunk).2 (e'.infer api chunk).2 := by
  obtain ⟨state, state', hstate, hstate', halike⟩ := h.states
  have hkeeps := keeps_infer api e chunk
  have hkeeps' := keeps_infer api e' chunk
  have huses : (e'.infer api chunk).2.useDeepfilter = (e.infer api chunk).2.useDeepfilter := by
    rw [hkeeps.useDeepfilter, hkeeps'.useDeepfilter, h.useDeepfilter]
  cases huse : e.useDeepfilter with
  | true =>
    -- then the engines differ in the RNNoise state only
    have hother : e' = { e with rnnoiseState := some state' } := by
      have hrest := h.rest
      rw [h.deepfilter huse, hstate'] at hrest
      exact hrest
    obtain ⟨hsame, hkept⟩ := infer_deepfilter api huse (some state') chunk
    rw [hother, hsame] at huses ⊢
    refine ⟨rfl, ?_, ⟨state, state', hkept.trans hstate, rfl, ?_⟩, fun _ => rfl, huses, rfl⟩
    · exact hkeeps.channels.trans h.channels_eq
    · intro hnot
      rw [hkeeps.useDeepfilter, huse] at hnot
      exact nomatch hnot
  | false =>
    -- the DeepFilterNet objects may differ and are not looked at
    have huse' : e'.useDeepfilter = false := h.useDeepfilter.trans huse
    obtain ⟨hout, hnext⟩ := (halike huse).step hchunk
    rw [infer_rnnoise api hstate huse, infer_rnnoise api hstate' huse'] at huses ⊢
    refine ⟨hout, h.channels_eq, ⟨_, _, rfl, rfl, fun _ => hnext⟩, ?_, huses, ?_⟩
    · intro hyes
      exact absurd (huse.symm.trans hyes) Bool.false_ne_true
    · have hrest := congrArg (fun e =>
        ({ e with rnnoiseState := some (api.rnnoise state' chunk).2 } : Engine α R M)) h.rest
      exact hrest

theorem lockstep_switched (api : Denoisers α R M) (channels : Nat) :
    Lockstep api (IsMean channels) (Switched api channels) where
  status := fun h => congrArg (fun e => e.status) h.rest
  channels := fun h => congrArg (fun e => e.channels) h.rest
  inOverload := fun h => congrArg (fun e => e.inOverload) h.rest
  denoiser := by
    intro e e' h
    obtain ⟨state, state', hstate, hstate', _⟩ := h.states
    rw [hstate, hstate']
    rfl
  mono := by
    intro e e' h input i
    rw [h.channels_eq]
    exact isMean_monoSample channels input i
  denoiseChunk := by
    intro e e' elapsedMs chunk h hlen hmeans
    have hbreaker : e'.breaker = e.breaker := congrArg (fun e => e.breaker) h.rest
    have hpasses : e'.passes = e.passes := congrArg (fun e => e.passes) h.rest
    obtain ⟨hout, hnext⟩ := h.infer (⟨hlen, hmeans⟩ : IsChunk channels chunk)
    rw [denoiseChunk_eq, denoiseChunk_eq, hbreaker, hpasses, h.channels_eq]
    dsimp only
    split
    · -- passed through
      exact ⟨rfl, h.withBreaker _⟩
    · exact ⟨hout, hnext.withBreaker _⟩

/-- A new engine that `init` puts in the mode `m`, with the channels, the overrides and the
    loaded model of `e`. Without a loaded model the search of `init` finds none. -/
def freshIn (e : Engine α R M) (m : NoiseMode) (sampleRate framesPerBuffer : Nat) (state : R) :
    Engine α R M :=
  (({ e with mode := m } : Engine α R M).freshLike.init
    { sampleRate := sampleRate, channels := e.channels, framesPerBuffer := framesPerBuffer }
    (some state) none).2

theorem Inv.freshIn_eq (h : e.Inv) (m : NoiseMode) (sampleRate framesPerBuffer : Nat)
    (state : R) : e.freshIn m sampleRate framesPerBuffer state =
      ({ e with mode := m } : Engine α R M).sessionStart e.channels state
        (e.sessionModel none) := by
  have hmode : ({ e with mode := m } : Engine α R M).Inv :=
    ⟨h.running, h.model, h.cursor, h.input_lt⟩
  unfold freshIn
  rw [hmode.init_freshLike, init_some]
  rfl

/-- Both have a model loaded, or neither. -/
theorem sessionModel_loaded (e : Engine α R M) :
    (e.sessionModel none).any (·.isLoaded) = e.deepfilterLoaded := by
  unfold sessionModel
  cases hloaded : e.deepfilterLoaded with
  | true =>
    rw [if_pos rfl, loaded_map (f := DeepFilterEngine.resetState) fun _ => rfl]
    exact hloaded
  | false => rfl

/-- A switch decides which denoiser is used, and so does `init` in that mode. -/
theorem useDeepfilter_setMode {m : NoiseMode} (hm : e.mode ≠ m) :
    (e.setMode m).useDeepfilter = (m != .cpuSaver && e.deepfilterLoaded) := by
  have hloaded := deepfilterLoaded_setMode e m
  unfold useDeepfilter
  rw [hloaded, setMode_eq hm]

theorem Inv.useDeepfilter_freshIn (h : e.Inv) (m : NoiseMode) (sampleRate framesPerBuffer : Nat)
    (state : R) : (e.freshIn m sampleRate framesPerBuffer state).useDeepfilter =
      (m != .cpuSaver && e.deepfilterLoaded) := by
  rw [h.freshIn_eq, ← sessionModel_loaded]
  rfl

/-- After a switch a running engine runs on, with empty buffers. -/
theorem Inv.live_setMode (h : e.Inv) (hrunning : e.status = .running) {m : NoiseMode}
    (hm : e.mode ≠ m) :
    (e.setMode m).Live e.channels ∧ (e.setMode m).core = e.setMode m := by
  rw [setMode_eq hm]
  exact ⟨⟨hrunning, h.running hrunning, rfl⟩, rfl⟩

theorem Inv.live_freshIn (h : e.Inv) (m : NoiseMode) (sampleRate framesPerBuffer : Nat)
    (state : R) :
    (e.freshIn m sampleRate framesPerBuffer state).Live e.channels ∧
    (e.freshIn m sampleRate framesPerBuffer state).core =
      e.freshIn m sampleRate framesPerBuffer state := by
  rw [h.freshIn_eq]
  exact ⟨⟨rfl, rfl, rfl⟩, rfl⟩

/-- A loaded model is the same after a switch as after `init`. -/
theorem Inv.model_setMode (h : e.Inv) (hloaded : e.deepfilterLoaded = true) :
    e.sessionModel none =
      e.deepfilter.map fun d => d.resetState.limited e.getAttenuationLimit := by
  unfold sessionModel
  rw [hloaded, if_pos rfl]
  apply Option.map_congr
  intro d hd
  unfold deepfilterLoaded at hloaded
  rw [hd] at hloaded
  obtain ⟨session, inputs, outputs, hmodel⟩ := (h.model d hd).loaded hloaded
  unfold DeepFilterEngine.limited DeepFilterEngine.resetState DeepFilterEngine.setAttenuationLimit
  rw [hmodel]
  rfl

/-- Since the last reset, the overload fields are true to some history of chunks. -/
theorem tracks_reachable (hreach : Machine.Reaches (Engine.step api) .new e) :
    ∃ h, TracksChunks h e := by
  obtain ⟨ops, hops⟩ := hreach
  have hnew : ∃ h, TracksChunks h (new : Engine α R M) := ⟨[], Breaker.tracks_nil (by decide)⟩
  refine Machine.run_invariant (fun _ => True) (fun e => ∃ h, TracksChunks h e) ?_ hnew
    (fun _ _ => trivial) hops
  intro e op e' _ ⟨h, ht⟩ hstep
  cases hstep
  by_cases hop : op.InSession
  · -- the history grows by the chunks of the call
    have hone : ∀ op' ∈ [op], op'.InSession := by simpa using hop
    exact ⟨_, (ht.run api hone).2⟩
  · cases op with
    | shutdown => exact ⟨[], Breaker.tracks_nil (by decide)⟩
    | init format created found =>
      cases created with
      | none => exact ⟨h, ht⟩
      | some state =>
        refine ⟨[], ?_⟩
        show TracksChunks [] (e.init format (some state) found).2
        rw [init_some]
        exact Breaker.tracks_nil (by decide)
    | setMode | loadDeepfilterModel | loadDeepfilterModelFrom | setDryMix | setAttenuationLimit
      | processFrame => exact absurd trivial hop

/-- An engine that was switched with no overload behind it is in step with a new one. -/
theorem Inv.switched_fresh (h : e.Inv) (hrunning : e.status = .running) {m : NoiseMode}
    (hm : e.mode ≠ m) (sampleRate framesPerBuffer : Nat) {state state' : R}
    (hstate : e.rnnoiseState = some state) (hnormal : e.inOverload = false)
    (hcount : e.overloadCount = 0) (hcool : e.overloadCooldown = 0)
    (hdenoiser : (m ≠ .cpuSaver ∧ e.deepfilterLoaded = true) ∨
      api.SoundAlike e.channels state state') :
    InStep (IsMean e.channels) (Switched api e.channels) (e.setMode m)
      (e.freshIn m sampleRate framesPerBuffer state') := by
  have huse := useDeepfilter_setMode hm
  have huse' := h.useDeepfilter_freshIn m sampleRate framesPerBuffer state'
  rw [setMode_eq hm] at huse ⊢
  rw [h.freshIn_eq] at huse' ⊢
  refine ⟨?_, fun x hx => absurd hx List.not_mem_nil, rfl, rfl, rfl, rfl⟩
  constructor
  · rfl
  · refine ⟨state, state', hstate, rfl, fun hnot => ?_⟩
    obtain ⟨hmode, hloaded⟩ | halike := hdenoiser
    · have hyes : (m != NoiseMode.cpuSaver && e.deepfilterLoaded) = true := by
        rw [hloaded, Bool.and_true]
        exact bne_iff_ne.mpr hmode
      exact absurd (hyes.symm.trans (huse.symm.trans hnot)) Bool.noConfusion
    · exact halike
  · intro hyes
    have hboth := huse.symm.trans hyes
    exact h.model_setMode (Bool.and_eq_true_iff.mp hboth).2
  · exact huse'.trans huse.symm
  · simp only [core, withBuffers, sessionStart, hrunning, hnormal, hcount, hcool]

/-! ## What calls of `process_frame` can tell apart -/

/-- Every sequence of calls of `process_frame` is answered the same. -/
def SameAnswers (api : Denoisers α R M) (e e' : Engine α R M) : Prop :=
  ∀ calls : List (ProcessCall α),
    e'.answers api (calls.map .processFrame) = e.answers api (calls.map .processFrame)

/-- The first answer, and those after it. -/
theorem SameAnswers.call (h : SameAnswers api e e') (c : ProcessCall α) :
    e'.answer api (.processFrame c) = e.answer api (.processFrame c) ∧
    SameAnswers api (e.process api c).2.2 (e'.process api c).2.2 := by
  constructor
  · have hfirst := h [c]
    exact (List.cons.inj hfirst).1
  · intro calls
    have hall := h (c :: calls)
    exact (List.cons.inj hall).2

theorem sameAnswers_of_inStep {I : α → Prop} {S : Engine α R M → Engine α R M → Prop}
    (hlock : Lockstep api I S) (h : InStep I S e e') : SameAnswers api e e' := by
  intro calls
  have hstep : ∀ (s t : Engine α R M) (op : EngineOp α R M), (∃ c, op = .processFrame c) →
      InStep I S s t →
      [t.answer api op] = [s.answer api op] ∧ InStep I S (s.after api op) (t.after api op) := by
    rintro s t op ⟨c, rfl⟩ hs
    exact ⟨congrArg (fun a => [a]) (hlock.answer hs c), (hlock.process hs c).2.2⟩
  refine (Observe.outputs_of_simulation hstep h ?_).1
  intro op hop
  obtain ⟨c, _, rfl⟩ := List.mem_map.mp hop
  exact ⟨c, rfl⟩

/-! ### The overload fields -/

/-- A call of `numFrames` frames whose chunks all take `elapsedMs`. -/
def steadyCall (elapsedMs : α) (numFrames : Nat) : ProcessCall α where
  clock := fun _ => elapsedMs
  input := fun _ => 0
  output := fun _ => 0
  numFrames := numFrames

theorem breaker_process (api : Denoisers α R M) (hlive : e.Live channels) (hempty : e.core = e)
    (elapsedMs : α) (numFrames : Nat) :
    (e.process api (steadyCall elapsedMs numFrames)).2.2.breaker =
      (fun b => b.step OVERLOAD_TRIGGER_COUNT OVERLOAD_COOLDOWN_FRAMES
        (slow elapsedMs))^[numFrames / DENOISE_FRAME_SIZE] e.breaker := by
  have hinput : e.inputBuffer = [] := (congrArg Engine.inputBuffer hempty).symm
  have hlen : (e.buffered (steadyCall elapsedMs numFrames)).inputBuffer.length = numFrames := by
    unfold buffered
    rw [hinput]
    simp [steadyCall]
  have hchunk : ∀ e : Engine α R M, Nat → True → DENOISE_FRAME_SIZE ≤ e.inputBuffer.length →
      True ∧ (e.processMonoChunk api elapsedMs).breaker =
        e.breaker.step OVERLOAD_TRIGGER_COUNT OVERLOAD_COOLDOWN_FRAMES (slow elapsedMs) :=
    fun e _ _ _ => ⟨trivial, breaker_processMonoChunk e elapsedMs⟩
  have hloop := processChunks_iterate (f := breaker)
    (g := fun b => b.step OVERLOAD_TRIGGER_COUNT OVERLOAD_COOLDOWN_FRAMES (slow elapsedMs))
    (fun _ => elapsedMs) hchunk (e.buffered (steadyCall elapsedMs numFrames)).inputBuffer.length 0
    trivial (Nat.le_refl _)
  have hbreaker : (e.accept api (fun _ => elapsedMs) (fun _ => 0) numFrames).breaker = _ := hloop
  unfold process
  rw [hlive.engine_processFrame]
  unfold accepted
  rw [hlen] at hbreaker
  split
  · rw [breaker_advance, breaker_prefill]
    exact hbreaker
  · rw [breaker_prefill]
    exact hbreaker

/-- Engines that answer the same are in overload together, and as many slow chunks from it. -/
theorem SameAnswers.breaker (h : SameAnswers api e e') (hlive : e.Live channels)
    (hlive' : e'.Live channels) (hempty : e.core = e) (hempty' : e'.core = e')
    (elapsedMs : α) (n : Nat) :
    ((fun b => b.step OVERLOAD_TRIGGER_COUNT OVERLOAD_COOLDOWN_FRAMES (slow elapsedMs))^[n]
        e'.breaker).isOpen =
      ((fun b => b.step OVERLOAD_TRIGGER_COUNT OVERLOAD_COOLDOWN_FRAMES (slow elapsedMs))^[n]
        e.breaker).isOpen := by
  have hsize : 0 < DENOISE_FRAME_SIZE := by decide
  have hanswer := (h.call (steadyCall elapsedMs (n * DENOISE_FRAME_SIZE))).1
  have hover := congrArg Answer.isOverloaded hanswer
  have hnow := congrArg Breaker.State.isOpen
    (breaker_process api hlive hempty elapsedMs (n * DENOISE_FRAME_SIZE))
  have hnow' := congrArg Breaker.State.isOpen
    (breaker_process api hlive' hempty' elapsedMs (n * DENOISE_FRAME_SIZE))
  rw [Nat.mul_div_cancel _ hsize] at hnow hnow'
  exact hnow'.symm.trans (hover.trans hnow)

/-- A new engine is told apart by an overload or by slow chunks counted before. -/
theorem SameAnswers.no_overload (h : SameAnswers api e e') (hlive : e.Live channels)
    (hlive' : e'.Live channels) (hempty : e.core = e) (hempty' : e'.core = e')
    (hnew : e'.breaker = { count := 0, cooldown := 0, isOpen := false })
    {history : List (Engine α R M × α)} (ht : TracksChunks history e) :
    e.inOverload = false ∧ e.overloadCount = 0 := by
  have hclosed : e'.breaker.isOpen = false := by rw [hnew]
  have hzero : e'.breaker.count = 0 := by rw [hnew]
  have hlimit : OVERLOAD_TRIGGER_COUNT = 5 := rfl
  have hnormal : e.inOverload = false := by
    have hsame := h.breaker hlive hlive' hempty hempty' 0 0
    exact hsame.symm.trans hclosed
  refine ⟨hnormal, ?_⟩
  obtain ⟨_, hcount, hrow, _⟩ := ht.closed hnormal
  have hfield : e.breaker.count = e.overloadCount := rfl
  by_contra hne
  -- a slow chunk was counted, so there is a time that is too long
  have hslow : Breaker.Kind.slow ∈ history.map chunkKind :=
    Breaker.slow_mem_of_row _ (by omega)
  obtain ⟨entry, _, hkind⟩ := List.mem_map.mp hslow
  have hlong : slow entry.2 = true := by
    unfold chunkKind Breaker.State.kind at hkind
    split at hkind
    · exact nomatch hkind
    · split at hkind
      · assumption
      · exact nomatch hkind
  -- as many more as complete the row open the one breaker and not the other
  obtain ⟨n, hn⟩ : ∃ n, e.overloadCount + (n + 1) = OVERLOAD_TRIGGER_COUNT :=
    ⟨OVERLOAD_TRIGGER_COUNT - e.overloadCount - 1, by omega⟩
  have hsame := h.breaker hlive hlive' hempty hempty' entry.2 (n + 1)
  rw [hlong, Breaker.State.slow_jobs hclosed (by omega),
    Breaker.State.slow_jobs_open hnormal (by omega)] at hsame
  exact absurd (hclosed.symm.trans hsame) Bool.noConfusion

/-! ### What RNNoise makes of the input

The input is fed frame by frame. From the 960th call on every call returns the next sample of
the denoised stream, so what is heard of two engines that answer the same is the same. -/

/-- A call with one frame. -/
def frameCall (elapsedMs : α) (frame : Nat → α) : ProcessCall α where
  clock := fun _ => elapsedMs
  input := frame
  output := fun _ => 0
  numFrames := 1

/-- The counts after requests of one sample each. -/
def OneByOne (l : Prefill.Level) : Prop :=
  l.emitted = l.accepted - 959 ∧ l.started = decide (960 ≤ l.accepted)

theorem OneByOne.step {l : Prefill.Level} (h : OneByOne l) :
    OneByOne (l.step DENOISE_FRAME_SIZE OUTPUT_PREFILL_SAMPLES 1) := by
  obtain ⟨hemitted, hstarted⟩ := h
  have hsize : DENOISE_FRAME_SIZE = 480 := rfl
  have hcushion : OUTPUT_PREFILL_SAMPLES = 960 := rfl
  rw [hsize, hcushion]
  clear hsize hcushion
  -- the gate opens with the 960th sample, and one sample is ready from then on
  have hopen : (l.accept 480 960 1).started = decide (960 ≤ l.accepted + 1) := by
    show (l.started || decide (960 ≤ 480 * ((l.accepted + 1) / 480) - l.emitted)) = _
    rw [hstarted, hemitted, ← Bool.decide_or]
    apply decide_eq_decide.mpr
    omega
  cases hready : (l.accept 480 960 1).ready 480 1 with
  | true =>
    have hlate := (Prefill.Level.ready_iff.mp hready).1
    rw [hopen, decide_eq_true_eq] at hlate
    have hnext : l.emitted + 1 = l.accepted + 1 - 959 := by omega
    rw [Prefill.Level.step_of_ready hready]
    exact ⟨hnext, (decide_eq_true hlate).symm⟩
  | false =>
    have hearly : ¬960 ≤ l.accepted + 1 := by
      intro hlate
      have havail : 1 ≤ (l.accept 480 960 1).available 480 := by
        show 1 ≤ 480 * ((l.accepted + 1) / 480) - l.emitted
        omega
      have hyes := Prefill.Level.ready_iff.mpr ⟨hopen.trans (decide_eq_true hlate), havail⟩
      exact absurd (hready.symm.trans hyes) Bool.noConfusion
    have hnext : l.emitted = l.accepted + 1 - 959 := by
      rw [hemitted, Nat.sub_eq_zero_of_le (by omega), Nat.sub_eq_zero_of_le (by omega)]
    have hfields : (l.accept 480 960 1).emitted = l.emitted ∧
        (l.accept 480 960 1).accepted = l.accepted + 1 := ⟨rfl, rfl⟩
    rw [Prefill.Level.step_of_silent hready]
    unfold OneByOne
    rw [hopen, hfields.1, hfields.2]
    exact ⟨hnext, rfl⟩

/-- Two engines that were fed the same and have emitted the same for a listener. -/
structure HeardSame (channels : Nat) (e e' : Engine α R M) (t t' : Blocks.Feed (Engine α R M) α α)
    (emitted : Nat) : Prop where
  stream : e.Stream channels t emitted
  stream' : e'.Stream channels t' emitted
  input : t'.input = t.input
  started : e'.outputStarted = e.outputStarted
  level : OneByOne (e.level t emitted)
  heard : (t'.output.take emitted).map (toFrame channels) =
    (t.output.take emitted).map (toFrame channels)

/-- The frame that a call returns. -/
theorem Stream.output_frameCall {t : Blocks.Feed (Engine α R M) α α} {emitted : Nat}
    (h : e.Stream channels t emitted) (elapsedMs : α) (frame : Nat → α)
    (haudio : e.answersAudio api (fun _ => elapsedMs) frame 1 = true) (hchannels : 0 < channels) :
    (e.process api (frameCall elapsedMs frame)).2.1 0 =
      clamp ((fed api (fun _ => elapsedMs) t [monoSample channels frame 0]).output.getD
        emitted 0) := by
  have hacc := h.accepted api (fun _ => elapsedMs) frame 1
  have hget := hacc.getD_output 0 0
  have hzero : ∃ ch, ch < (e.accepted api (fun _ => elapsedMs) frame 1).channels ∧
      u32 (0 * (e.accepted api (fun _ => elapsedMs) frame 1).channels + ch) = 0 := by
    rw [hacc.live.channels]
    exact ⟨0, hchannels, by simp [u32]⟩
  unfold process frameCall
  rw [h.live.processFrame]
  dsimp only
  rw [if_pos haudio]
  unfold writeFrames
  simp only [List.range_one, List.foldl_cons, List.foldl_nil]
  rw [foldl_update_apply, if_pos hzero, hget]
  rfl

/-- What has been emitted stays when more is fed. -/
theorem take_output_fed {t : Blocks.Feed (Engine α R M) α α} {emitted : Nat} (elapsedMs : α)
    (samples : List α) (h : emitted ≤ t.output.length) :
    (fed api (fun _ => elapsedMs) t samples).output.take emitted = t.output.take emitted := by
  show (t.output ++ _).take emitted = _
  exact List.take_append_of_le_length h

/-- One more frame, where the answers are the same. -/
theorem HeardSame.step {t t' : Blocks.Feed (Engine α R M) α α} {emitted : Nat}
    (h : HeardSame channels e e' t t' emitted) (hsame : SameAnswers api e e') (elapsedMs : α)
    (frame : Nat → α) :
    ∃ emitted', HeardSame channels (e.process api (frameCall elapsedMs frame)).2.2
      (e'.process api (frameCall elapsedMs frame)).2.2
      (fed api (fun _ => elapsedMs) t [monoSample channels frame 0])
      (fed api (fun _ => elapsedMs) t' [monoSample channels frame 0]) emitted' := by
  -- the counts are the same, so both answer with audio or both are silent
  have hlevels : e'.level t' emitted = e.level t emitted := by
    unfold Engine.level
    rw [h.input, h.started]
  have hsingle : (List.range 1).map (monoSample channels frame) = [monoSample channels frame 0] :=
    rfl
  have haudio := h.stream.answersAudio_eq api (fun _ => elapsedMs) frame 1
  have haudio' := h.stream'.answersAudio_eq api (fun _ => elapsedMs) frame 1
  rw [hlevels, ← haudio] at haudio'
  have hnext := h.stream.processFrame api (fun _ => elapsedMs) frame (fun _ => 0) 1
  have hnext' := h.stream'.processFrame api (fun _ => elapsedMs) frame (fun _ => 0) 1
  have hlevel := h.stream.level_processFrame api (fun _ => elapsedMs) frame (fun _ => 0) 1
  have hlevel' := h.stream'.level_processFrame api (fun _ => elapsedMs) frame (fun _ => 0) 1
  dsimp only at haudio haudio' hnext hnext' hlevel hlevel'
  rw [hsingle] at hnext hnext' hlevel hlevel'
  rw [haudio'] at hnext' hlevel'
  rw [hlevels, ← hlevel] at hlevel'
  have hstarted := congrArg Prefill.Level.started hlevel'
  have hinput : (fed api (fun _ => elapsedMs) t' [monoSample channels frame 0]).input =
      (fed api (fun _ => elapsedMs) t [monoSample channels frame 0]).input :=
    congrArg (· ++ [monoSample channels frame 0]) h.input
  have hone : OneByOne _ := h.level.step
  rw [← hlevel] at hone
  refine ⟨_, hnext, hnext', hinput, hstarted, hone, ?_⟩
  cases hyes : e.answersAudio api (fun _ => elapsedMs) frame 1 with
  | false =>
    -- nothing is emitted
    rw [if_neg Bool.false_ne_true, take_output_fed elapsedMs _ h.stream.emitted_le,
      take_output_fed elapsedMs _ h.stream'.emitted_le]
    exact h.heard
  | true =>
    rw [hyes, if_pos rfl] at hnext hnext'
    have hyes' := haudio'.trans hyes
    have hlen := hnext.emitted_le
    have hlen' := hnext'.emitted_le
    -- the sample that this call returns
    have hframe : toFrame channels ((fed api (fun _ => elapsedMs) t'
          [monoSample channels frame 0]).output.getD emitted 0) =
        toFrame channels ((fed api (fun _ => elapsedMs) t
          [monoSample channels frame 0]).output.getD emitted 0) := by
      by_cases hchannels : 0 < channels
      · have hanswer := congrArg Answer.returned (hsame.call (frameCall elapsedMs frame)).1
        have houtput := congrArg (fun r => r.2 0) (Option.some.inj hanswer)
        dsimp only at houtput
        rw [h.stream.output_frameCall elapsedMs frame hyes hchannels,
          h.stream'.output_frameCall elapsedMs frame hyes' hchannels] at houtput
        unfold toFrame
        rw [houtput]
      · -- a frame without channels
        have hnone : channels = 0 := by omega
        rw [hnone]
        rfl
    -- what was emitted before, and this sample
    rw [if_pos rfl, List.take_add_one, List.take_add_one,
      take_output_fed elapsedMs _ h.stream.emitted_le,
      take_output_fed elapsedMs _ h.stream'.emitted_le, List.map_append, List.map_append, h.heard,
      List.getElem?_eq_getElem (by omega), List.getElem?_eq_getElem (by omega)]
    rw [List.getD_eq_getElem?_getD, List.getD_eq_getElem?_getD,
      List.getElem?_eq_getElem (by omega), List.getElem?_eq_getElem (by omega)] at hframe
    exact congrArg (fun f => _ ++ [f]) hframe

/-- Frame by frame. -/
theorem HeardSame.run {t t' : Blocks.Feed (Engine α R M) α α} {emitted : Nat}
    (h : HeardSame channels e e' t t' emitted) (hsame : SameAnswers api e e') (elapsedMs : α)
    (frames : List (Nat → α)) :
    ∃ last last' emitted', HeardSame channels last last'
      (fed api (fun _ => elapsedMs) t (frames.map (monoSample channels · 0)))
      (fed api (fun _ => elapsedMs) t' (frames.map (monoSample channels · 0))) emitted' := by
  induction frames generalizing e e' t t' emitted with
  | nil =>
    refine ⟨e, e', emitted, ?_⟩
    unfold fed
    rw [List.map_nil, Blocks.feed_nil, Blocks.feed_nil]
    exact h
  | cons frame frames ih =>
    obtain ⟨emitted', hnext⟩ := h.step hsame elapsedMs frame
    obtain ⟨last, last', emitted'', hlast⟩ :=
      ih hnext (hsame.call (frameCall elapsedMs frame)).2
    unfold fed at hlast
    rw [Blocks.feed_append, Blocks.feed_append] at hlast
    exact ⟨last, last', emitted'', hlast⟩

/-- A chunk with RNNoise, out of overload and in time. -/
theorem denoiseChunk_rnnoise (api : Denoisers α R M) {state : R}
    (hstate : e.rnnoiseState = some state) (huse : e.useDeepfilter = false)
    (hnormal : e.inOverload = false) {elapsedMs : α} (hfast : slow elapsedMs = false)
    (chunk : List α) :
    e.denoiseChunk api elapsedMs chunk = ((api.rnnoise state chunk).1,
      { e with rnnoiseState := some (api.rnnoise state chunk).2, overloadCount := 0 }) := by
  have hpasses : e.passes = false := by
    unfold passes
    rw [hnormal]
    rfl
  have hbreaker : e.breaker.step OVERLOAD_TRIGGER_COUNT OVERLOAD_COOLDOWN_FRAMES false =
      { e.breaker with count := 0 } := by
    have hclosed : e.breaker.isOpen = false := hnormal
    simp [Breaker.State.step, Breaker.State.passes, Breaker.State.leave, Breaker.State.update,
      hclosed]
  rw [denoiseChunk_eq, hpasses, hfast, hbreaker, infer_rnnoise api hstate huse]
  rfl

/-- What is heard of the denoised stream, where it starts with `chunks`. -/
theorem scan_heard (api : Denoisers α R M) (elapsedMs : α) (hfast : slow elapsedMs = false)
    {chunks : List (List α)} (hchunks : ∀ chunk ∈ chunks, IsChunk channels chunk)
    (before rest : List α) {k : Nat} (hbefore : before.length = DENOISE_FRAME_SIZE * k) {state : R}
    (hstate : e.rnnoiseState = some state) (huse : e.useDeepfilter = false)
    (hnormal : e.inOverload = false) :
    (Blocks.scan (transduce api (fun _ => elapsedMs)) DENOISE_FRAME_SIZE
        (before ++ chunks.flatten ++ rest) chunks.length k e).1.map (toFrame channels) =
      api.heard channels state chunks := by
  induction chunks generalizing before k e state with
  | nil => rfl
  | cons chunk chunks ih =>
    obtain ⟨hchunk, hlater⟩ := List.forall_mem_cons.mp hchunks
    have hlist : before ++ (chunk :: chunks).flatten ++ rest =
        before ++ chunk ++ chunks.flatten ++ rest := by simp
    have hslice : (before ++ chunk ++ chunks.flatten ++ rest).slice (DENOISE_FRAME_SIZE * k)
        DENOISE_FRAME_SIZE = chunk := by
      unfold List.slice
      rw [← hbefore, List.append_assoc, List.append_assoc, List.drop_left, ← hchunk.1,
        List.take_left]
    have hnext : (before ++ chunk).length = DENOISE_FRAME_SIZE * (k + 1) := by
      rw [List.length_append, hbefore, hchunk.1, Nat.mul_add, Nat.mul_one]
    have hdenoised := denoiseChunk_rnnoise api hstate huse hnormal hfast chunk
    rw [hlist]
    simp only [List.length_cons, Blocks.scan, hslice, transduce, hdenoised, List.map_append]
    exact congrArg _ (ih hlater (before ++ chunk) hnext rfl huse hnormal)

/-- Frames that are mixed down to given samples. -/
theorem exists_frames {samples : List α} (h : ∀ x ∈ samples, IsMean channels x) :
    ∃ frames : List (Nat → α), frames.map (monoSample channels · 0) = samples := by
  induction samples with
  | nil => exact ⟨[], rfl⟩
  | cons x samples ih =>
    obtain ⟨hx, hsamples⟩ := List.forall_mem_cons.mp h
    obtain ⟨frame, hframe⟩ := hx
    obtain ⟨frames, hframes⟩ := ih hsamples
    exact ⟨frame :: frames, by rw [List.map_cons, hframe, hframes]⟩

/-- The stream of an engine with nothing in its buffers. -/
def start (e : Engine α R M) : Blocks.Feed (Engine α R M) α α where
  state := e.core
  input := []
  output := []

omit [Sample α] in
theorem Live.stream_start (hlive : e.Live channels) (hempty : e.core = e) :
    e.Stream channels e.start 0 := by
  have hinput : e.inputBuffer = [] := (congrArg Engine.inputBuffer hempty).symm
  have houtput : e.outputBuffer = [] := (congrArg Engine.outputBuffer hempty).symm
  have hpos : e.outputReadPos = 0 := (congrArg Engine.outputReadPos hempty).symm
  refine ⟨hlive, rfl, ?_, ?_, ?_, Nat.le_refl 0, ?_, ?_, fun _ => rfl⟩
  · rw [hinput]
    exact List.drop_nil.symm
  · rw [houtput, List.drop_nil]
    rfl
  · simp [start]
  · rw [hpos]
    exact Nat.zero_le _
  · rw [hpos]
    exact Nat.zero_le _

omit [Sample α] in
theorem length_flatten_chunks {chunks : List (List α)}
    (h : ∀ chunk ∈ chunks, chunk.length = DENOISE_FRAME_SIZE) :
    chunks.flatten.length = DENOISE_FRAME_SIZE * chunks.length := by
  induction chunks with
  | nil => rfl
  | cons chunk chunks ih =>
    obtain ⟨hchunk, hlater⟩ := List.forall_mem_cons.mp h
    rw [List.flatten_cons, List.length_append, List.length_cons, ih hlater, hchunk, Nat.mul_add,
      Nat.mul_one, Nat.add_comm]

/-- What is heard of an engine with RNNoise, once all of `chunks` has been returned. -/
theorem heard_fed (api : Denoisers α R M) (hempty : e.core = e) (elapsedMs : α)
    (hfast : slow elapsedMs = false) {chunks : List (List α)}
    (hchunks : ∀ chunk ∈ chunks, IsChunk channels chunk) (rest : List α) {state : R}
    (hstate : e.rnnoiseState = some state) (huse : e.useDeepfilter = false)
    (hnormal : e.inOverload = false) :
    ((fed api (fun _ => elapsedMs) e.start (chunks.flatten ++ rest)).output.take
        (DENOISE_FRAME_SIZE * chunks.length)).map (toFrame channels) =
      api.heard channels state chunks := by
  have hall := length_flatten_chunks fun chunk hchunk => (hchunks chunk hchunk).1
  have hlen : DENOISE_FRAME_SIZE * chunks.length ≤ (chunks.flatten ++ rest).length := by
    rw [List.length_append]
    omega
  -- the scan over the whole input begins with that over the chunks
  obtain ⟨more, hmore⟩ : ∃ more, (chunks.flatten ++ rest).length / DENOISE_FRAME_SIZE =
      chunks.length + more := by
    have hle : chunks.length ≤ (chunks.flatten ++ rest).length / DENOISE_FRAME_SIZE :=
      (Nat.le_div_iff_mul_le (by decide)).mpr (by rw [Nat.mul_comm]; exact hlen)
    exact ⟨_, (Nat.add_sub_of_le hle).symm⟩
  have hscan := scan_heard api elapsedMs hfast hchunks [] rest (k := 0) rfl hstate huse hnormal
  have hlength := Blocks.length_scan (f := transduce api fun _ => elapsedMs)
    (fun s k x hx => length_denoiseChunk api s elapsedMs hx) (chunks.flatten ++ rest)
    chunks.length 0 e (by rw [Nat.zero_add]; exact hlen)
  have hfed : (fed api (fun _ => elapsedMs) e.start (chunks.flatten ++ rest)).output =
      (Blocks.scan (transduce api fun _ => elapsedMs) DENOISE_FRAME_SIZE (chunks.flatten ++ rest)
        (chunks.length + more) 0 e).1 := by
    unfold fed Blocks.Feed.feed start
    dsimp only
    rw [hempty, ← hmore, List.length_nil, Nat.zero_div, Nat.sub_zero]
    rfl
  rw [hfed, Blocks.scan_add, ← hlength, List.take_left]
  exact hscan

/-- RNNoise in the one engine sounds as in the other. -/
theorem SameAnswers.soundAlike (h : SameAnswers api e e') (hlive : e.Live channels)
    (hlive' : e'.Live channels) (hempty : e.core = e) (hempty' : e'.core = e')
    (huse : e.useDeepfilter = false) (huse' : e'.useDeepfilter = false)
    (hnormal : e.inOverload = false) (hnormal' : e'.inOverload = false) {state state' : R}
    (hstate : e.rnnoiseState = some state) (hstate' : e'.rnnoiseState = some state')
    {elapsedMs : α} (hfast : slow elapsedMs = false) :
    api.SoundAlike channels state state' := by
  intro chunks hchunks
  have hmeans : ∀ x ∈ chunks.flatten, IsMean channels x := by
    intro x hx
    obtain ⟨chunk, hchunk, hx⟩ := List.mem_flatten.mp hx
    exact (hchunks chunk hchunk).2 x hx
  obtain ⟨speech, hspeech⟩ := exists_frames hmeans
  -- 960 more frames, for all of it to be returned
  have hstart : HeardSame channels e e' e.start e'.start 0 := by
    refine ⟨hlive.stream_start hempty, hlive'.stream_start hempty', rfl, ?_,
      ⟨(Nat.zero_sub 959).symm, ?_⟩, rfl⟩
    · rw [← hempty, ← hempty']
      rfl
    · exact (congrArg Engine.outputStarted hempty).symm
  obtain ⟨last, last', emitted, hlast⟩ :=
    hstart.run h elapsedMs (speech ++ List.replicate 960 fun _ => 0)
  rw [List.map_append, hspeech] at hlast
  generalize hrest : (List.replicate 960 fun _ => (0 : α)).map (monoSample channels · 0) = rest
    at hlast
  have hmore : rest.length = 960 := by
    rw [← hrest, List.length_map, List.length_replicate]
  -- every call from the 960th on has returned a sample
  have hreturned : emitted = (chunks.flatten ++ rest).length - 959 := hlast.level.1
  have hall := length_flatten_chunks fun chunk hchunk => (hchunks chunk hchunk).1
  rw [List.length_append, hmore, hall] at hreturned
  have hheard := congrArg (List.take (DENOISE_FRAME_SIZE * chunks.length)) hlast.heard
  rw [← List.map_take, ← List.map_take, List.take_take, List.take_take,
    Nat.min_eq_left (by omega),
    heard_fed api hempty elapsedMs hfast hchunks rest hstate huse hnormal,
    heard_fed api hempty' elapsedMs hfast hchunks rest hstate' huse' hnormal'] at hheard
  exact hheard

/-- An overload outlives the denoiser that was too slow, and every call shows it. -/
theorem Inv.overload_setMode (h : e.Inv) (api : Denoisers α R M) (hrunning : e.status = .running)
    (hover : e.inOverload = true) {m : NoiseMode} (hm : e.mode ≠ m)
    (sampleRate framesPerBuffer : Nat) (state : R) :
    (e.setMode m).isOverloaded = true ∧
    (e.freshIn m sampleRate framesPerBuffer state).isOverloaded = false ∧
    ¬SameAnswers api (e.setMode m) (e.freshIn m sampleRate framesPerBuffer state) := by
  obtain ⟨hlive, hempty⟩ := h.live_setMode hrunning hm
  obtain ⟨hlive', hempty'⟩ := h.live_freshIn m sampleRate framesPerBuffer state
  have hopen : (e.setMode m).isOverloaded = true := by
    rw [setMode_eq hm]
    exact hover
  have hclosed : (e.freshIn m sampleRate framesPerBuffer state).isOverloaded = false := by
    rw [h.freshIn_eq]
    rfl
  refine ⟨hopen, hclosed, fun hsame => ?_⟩
  -- a call without frames
  have hanswer := hsame.breaker hlive hlive' hempty hempty' 0 0
  exact absurd (hclosed.symm.trans (hanswer.trans hopen)) Bool.false_ne_true

/-- Five slow chunks in a row. -/
theorem Inv.slow_call (h : e.Inv) (api : Denoisers α R M) (hrunning : e.status = .running)
    (hempty : e.core = e) (hclosed : e.inOverload = false) (hcount : e.overloadCount = 0)
    {elapsedMs : α} (hslow : slow elapsedMs = true) :
    (e.process api (steadyCall elapsedMs 2400)).2.2.inOverload = true ∧
    (e.process api (steadyCall elapsedMs 2400)).2.2.status = .running ∧
    (e.process api (steadyCall elapsedMs 2400)).2.2.mode = e.mode := by
  have hkeeps := h.keeps_process api (steadyCall elapsedMs 2400)
  have hchunks : 2400 / DENOISE_FRAME_SIZE = 4 + 1 := rfl
  have hlimit : e.breaker.count + (4 + 1) = OVERLOAD_TRIGGER_COUNT := by
    show e.overloadCount + (4 + 1) = 5
    omega
  have hlive := h.live hrunning
  have hbreaker := breaker_process api hlive hempty elapsedMs 2400
  rw [hslow, hchunks] at hbreaker
  have hopen := congrArg Breaker.State.isOpen hbreaker
  rw [Breaker.State.slow_jobs_open hclosed hlimit] at hopen
  exact ⟨hopen, hkeeps.status.trans hrunning, hkeeps.mode⟩

end Engine

/-- After a switch of mode, calls of `process_frame` are answered as by a new engine in that
    mode exactly if there is no overload, no slow chunk is counted, and RNNoise, where the mode
    uses it, sounds like a new one. -/
theorem mode_switch_fresh_iff (api : Denoisers α R M)
    (hfast : ∃ elapsedMs : α, ¬((8 : Nat) : α) < elapsedMs) {e : Engine α R M}
    (hreach : Machine.Reaches (Engine.step api) .new e) (hrunning : e.status = .running)
    {m : NoiseMode} (hm : e.mode ≠ m) (sampleRate framesPerBuffer : Nat) (state : R) :
    Engine.SameAnswers api (e.setMode m) (e.freshIn m sampleRate framesPerBuffer state) ↔
      e.inOverload = false ∧ e.overloadCount = 0 ∧
      ((m ≠ .cpuSaver ∧ e.deepfilterLoaded = true) ∨
        ∃ used, e.rnnoiseState = some used ∧ api.SoundAlike e.channels used state) := by
  have hinv : e.Inv := Engine.inv_reachable hreach
  obtain ⟨used, hused⟩ := Option.isSome_iff_exists.mp (hinv.running hrunning)
  obtain ⟨history, ht⟩ := Engine.tracks_reachable hreach
  constructor
  · intro hsame
    have huse := Engine.useDeepfilter_setMode hm
    have huse' := hinv.useDeepfilter_freshIn m sampleRate framesPerBuffer state
    obtain ⟨hlive, hempty⟩ := hinv.live_setMode hrunning hm
    obtain ⟨hlive', hempty'⟩ := hinv.live_freshIn m sampleRate framesPerBuffer state
    rw [Engine.setMode_eq hm] at hsame huse hlive hempty
    rw [hinv.freshIn_eq] at hsame huse' hlive' hempty'
    obtain ⟨hnormal, hcount⟩ := hsame.no_overload hlive hlive' hempty hempty' rfl ht
    refine ⟨hnormal, hcount, ?_⟩
    cases hwhich : m != NoiseMode.cpuSaver && e.deepfilterLoaded with
    | true =>
      obtain ⟨hmode, hloaded⟩ := Bool.and_eq_true_iff.mp hwhich
      exact .inl ⟨bne_iff_ne.mp hmode, hloaded⟩
    | false =>
      -- RNNoise is used, and is heard if every chunk is in time
      obtain ⟨elapsedMs, helapsed⟩ := hfast
      refine .inr ⟨used, hused, ?_⟩
      exact hsame.soundAlike hlive hlive' hempty hempty'
        (huse.trans hwhich) (huse'.trans hwhich) hnormal rfl hused rfl (decide_eq_false helapsed)
  · rintro ⟨hnormal, hcount, hdenoiser⟩
    have hcool : e.overloadCooldown = 0 := (ht.closed hnormal).1
    refine Engine.sameAnswers_of_inStep (Engine.lockstep_switched api e.channels)
      (hinv.switched_fresh hrunning hm sampleRate framesPerBuffer hused hnormal hcount hcool ?_)
    obtain hmodel | ⟨used', hused', halike⟩ := hdenoiser
    · exact .inl hmodel
    · rw [Option.some.inj (hused.symm.trans hused')]
      exact .inr halike

/-- RNNoise that is silent until a state has seen a frame. -/
def warmingUp : Denoisers ℚ Bool Unit where
  rnnoiseProcessFrame := fun seen frame =>
    (if seen then (identityDenoisers.rnnoiseProcessFrame () frame).1
      else List.replicate DENOISE_FRAME_SIZE 0, true)
  rnnoise_length := by
    intro seen frame
    cases seen with
    | false => exact List.length_replicate
    | true => exact identityDenoisers.rnnoise_length () frame
  sessionRun := identityDenoisers.sessionRun
  session_length := identityDenoisers.session_length
  session_states := identityDenoisers.session_states
  garbage := identityDenoisers.garbage
  garbage_length := identityDenoisers.garbage_length

/-- A chunk is denoised with RNNoise. -/
def warmUp (found : Option (LoadOutcome Unit)) : List (EngineOp ℚ Bool Unit) :=
  [.init stereo48k (some false) found, .setMode .cpuSaver,
    .processFrame (Engine.steadyCall 0 480)]

def warmedUpEngine (found : Option (LoadOutcome Unit)) : Engine ℚ Bool Unit :=
  (warmUp found).foldl (Engine.after warmingUp) .new

/-- The used RNNoise state is not heard in a mode with a model, and is heard without one. -/
theorem mode_switch_fresh_used :
    Engine.SameAnswers warmingUp ((warmedUpEngine (some (.ok () [] []))).setMode .balanced)
      ((warmedUpEngine (some (.ok () [] []))).freshIn .balanced 48000 480 false) ∧
    ¬Engine.SameAnswers warmingUp ((warmedUpEngine none).setMode .balanced)
      ((warmedUpEngine none).freshIn .balanced 48000 480 false) := by
  have hreach : ∀ found, Machine.Reaches (Engine.step warmingUp) .new (warmedUpEngine found) :=
    fun found => ⟨warmUp found, rfl⟩
  constructor
  · refine (mode_switch_fresh_iff warmingUp ⟨0, by decide⟩ (hreach _) (by decide +kernel)
      (by decide +kernel) 48000 480 false).mpr ⟨by decide +kernel, by decide +kernel, .inl ?_⟩
    exact ⟨by decide, by decide +kernel⟩
  · intro hsame
    obtain ⟨-, -, hmodel | ⟨used, hused, halike⟩⟩ :=
      (mode_switch_fresh_iff warmingUp ⟨0, by decide⟩ (hreach _) (by decide +kernel)
        (by decide +kernel) 48000 480 false).mp hsame
    · have hnone : (warmedUpEngine none).deepfilterLoaded = false := by decide +kernel
      exact absurd (hnone.symm.trans hmodel.2) Bool.false_ne_true
    · have hseen : (warmedUpEngine none).rnnoiseState = some true := by decide +kernel
      have hstereo : (warmedUpEngine none).channels = 2 := by decide +kernel
      cases hseen.symm.trans hused
      rw [hstereo] at halike
      -- a chunk of ones, which only the used state lets through
      have hchunk : IsChunk 2 (List.replicate DENOISE_FRAME_SIZE (1 : ℚ)) := by
        refine ⟨List.length_replicate, fun x hx => ?_⟩
        rw [List.eq_of_mem_replicate hx]
        exact ⟨fun _ => 1, by decide +kernel⟩
      have hheard := halike [List.replicate DENOISE_FRAME_SIZE 1] (by simpa using hchunk)
      exact absurd hheard (by decide +kernel)

/-- A running engine without a model, in the default mode. -/
def rnnoiseEngine : Engine ℚ Unit Unit :=
  Engine.new.after identityDenoisers (.init stereo48k (some ()) none)

/-- The engine after five chunks that took 9 ms each. -/
def slowEngine : Engine ℚ Unit Unit :=
  (rnnoiseEngine.process identityDenoisers (Engine.steadyCall 9 2400)).2.2

/-- The overload of the previous denoiser goes on after the switch to RNNoise. -/
theorem overload_survives_switch :
    Machine.Reaches (Engine.step identityDenoisers) .new slowEngine ∧
    slowEngine.status = .running ∧ slowEngine.mode ≠ .cpuSaver ∧
    (slowEngine.setMode .cpuSaver).isOverloaded = true ∧
    (slowEngine.freshIn .cpuSaver 48000 480 ()).isOverloaded = false ∧
    ¬Engine.SameAnswers identityDenoisers (slowEngine.setMode .cpuSaver)
      (slowEngine.freshIn .cpuSaver 48000 480 ()) := by
  have hstarted : Machine.Reaches (Engine.step identityDenoisers) .new rnnoiseEngine := ⟨[_], rfl⟩
  have hreach : Machine.Reaches (Engine.step identityDenoisers) .new slowEngine :=
    hstarted.trans (.single (.processFrame (Engine.steadyCall 9 2400)) rfl)
  have hslow : slow (9 : ℚ) = true := by decide
  obtain ⟨hover, hrunning, hsame⟩ := (Engine.inv_reachable hstarted).slow_call identityDenoisers
    rfl rfl rfl rfl hslow
  rw [show (rnnoiseEngine.process identityDenoisers (Engine.steadyCall 9 2400)).2.2 = slowEngine
    from rfl] at hover hrunning hsame
  have hmode : slowEngine.mode ≠ .cpuSaver := by
    rw [hsame]
    decide
  exact ⟨hreach, hrunning, hmode, (Engine.inv_reachable hreach).overload_setMode identityDenoisers
    hrunning hover hmode 48000 480 ()⟩

end Noise
