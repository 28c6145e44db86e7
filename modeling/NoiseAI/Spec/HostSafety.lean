import NoiseAI.Spec.DeviceSelection
import NoiseAI.Spec.HostInvariant
import NoiseAI.Spec.ModeSwitch

/-!
# What the app shows and what the driver hears

Over every run of the app and the driver, with any number of launches: while the app shows that
it is active, the name refers to the ring it writes to, and no other ring of this process is in
use; while it shows that it is off, none is (`published_while_active`). So what a client hears
comes from an app that shows it is active, or from a ring that an earlier process left behind.
`mode_in_force` says the same of the mode: every chunk is treated as the mode of the picker says,
by the model with the mix of the mode, or else without a mix.
-/

namespace Noise

variable {α R M C : Type} [Sample α]

namespace Host

variable {s : Host α R M}

/-- No consumer has been here, and no app. -/
theorem inv_first (api : Denoisers α R M) (savedUID defaultMode : Option String)
    (l : Launch R M) : (launch .empty savedUID defaultMode .new l : Host α R M).Inv := by
  have hnames : ∀ k, (Shm.empty : Shm α).names shmName = some k → k < 0 := fun _ h => nomatch h
  have hheld : ∀ j, IOHandler.new.segment = some j → j < 0 := fun _ h => nomatch h
  exact inv_launch hnames hheld .new api savedUID defaultMode l

/-- A segment of this process that is active is the one that the app writes to. -/
theorem Inv.live_of_active (h : s.Inv) {j : Nat} (hle : s.launchedAt ≤ j)
    (hlt : j < s.shm.created) (hactive : (s.shm.segment j).isActive = true) :
    s.live = some j := by
  by_contra hne
  have hquiet := h.manager.memory.quiet j hle hlt hne
  exact Bool.false_ne_true (hquiet.symm.trans hactive)

/-- What a callback delivers comes from the ring that the app writes to, or from one that is
    older than the process. -/
theorem Inv.delivers (h : s.Inv) (bytesCount : Nat)
    (hsome : (s.io.onReadClientInput shmConsumer s.shm bytesCount).1.isSome = true) :
    ∃ j, (s.io.onReadClientInput shmConsumer s.shm bytesCount).2.1.segment = some j ∧
      (s.app.audioManager.isProcessing = true ∧ s.live = some j ∨ j < s.launchedAt) := by
  obtain ⟨-, hheld, hdelivers⟩ := h.driver.inv.1.onReadClientInput_shm s.shm bytesCount
  obtain ⟨j, hj, hactive⟩ := hdelivers hsome
  refine ⟨j, hj, ?_⟩
  have hlt : j < s.shm.created := by
    rcases hheld j hj with hj | hj
    · exact h.manager.held j hj
    · exact h.manager.memory.name_lt j hj
  by_cases hle : s.launchedAt ≤ j
  · have hlive := h.live_of_active hle hlt hactive
    refine .inl ⟨h.manager.processing.trans ?_, hlive⟩
    show s.live.isSome = true
    rw [hlive]
    rfl
  · exact .inr (Nat.lt_of_not_le hle)

end Host

/-- Whatever the user, Core Audio and the clients do, and however often the app ends and is
    launched again: while the app shows that it is active, it has a live ring of the size it asked
    for, the name refers to it, and every other ring of this process is inactive. While it shows
    that it is off, every ring of this process is inactive and without the name. A callback that
    delivers samples has them from the live ring of an app that shows it is active, or from a ring
    that is older than the process. -/
theorem published_while_active (api : Denoisers α R M) (savedUID defaultMode : Option String)
    (l : Launch R M) (events : List (HostEvent α R M C)) (s : Host α R M)
    (hrun : Machine.run (Host.step api) (.launch .empty savedUID defaultMode .new l) events =
      some s) :
    (s.app.audioManager.isProcessing = true → ∃ i, s.live = some i ∧ s.launchedAt ≤ i ∧
      (∃ fill hb, s.shm.Serves i appCapacity fill hb) ∧
      ∀ j, s.launchedAt ≤ j → j < s.shm.created → j ≠ i → (s.shm.segment j).isActive = false) ∧
    (s.app.audioManager.isProcessing = false → s.live = none ∧
      ∀ j, s.launchedAt ≤ j → j < s.shm.created →
        s.shm.names shmName ≠ some j ∧ (s.shm.segment j).isActive = false) ∧
    ∀ bytesCount,
      (s.io.onReadClientInput shmConsumer s.shm bytesCount).1.isSome = true →
      ∃ j, (s.io.onReadClientInput shmConsumer s.shm bytesCount).2.1.segment = some j ∧
        (s.app.audioManager.isProcessing = true ∧ s.live = some j ∨ j < s.launchedAt) := by
  have hinv := (Host.inv_first api savedUID defaultMode l).run api hrun
  have hmemory := hinv.manager.memory
  refine ⟨?_, ?_, hinv.delivers⟩
  · intro hprocessing
    have hlive : s.live.isSome = true := hinv.manager.processing.symm.trans hprocessing
    obtain ⟨i, hi⟩ := Option.isSome_iff_exists.mp hlive
    obtain ⟨hle, -, fill, hb, hserves, -⟩ := hmemory.serves i hi
    refine ⟨i, hi, hle, ⟨fill, hb, hserves⟩, fun j hj hlt hne => ?_⟩
    have hother : s.app.audioManager.live ≠ some j := by
      intro heq
      exact hne (Option.some.inj (heq.symm.trans hi))
    exact hmemory.quiet j hj hlt hother
  · intro hoff
    have hlive : s.live.isSome = false := hinv.manager.processing.symm.trans hoff
    have hnone : s.live = none := Option.not_isSome_iff_eq_none.mp (by rw [hlive]; exact nofun)
    refine ⟨hnone, fun j hj hlt => ⟨fun hname => ?_, ?_⟩⟩
    · exact nomatch hnone.symm.trans (hmemory.name j hname hj)
    · exact hmemory.quiet j hj hlt (fun heq => nomatch hnone.symm.trans heq)

/-- A launch on a machine with a built-in microphone. -/
def plainLaunch : Launch Unit Unit := ⟨some (), none, none, onlyBuiltIn, .ok⟩

/-- The first launch. -/
def plainHost : Host ℚ Unit Unit := .launch .empty none none .new plainLaunch

/-- The app is toggled on, writes two frames, and quits; then it is launched again. -/
def leftBehind : List (HostEvent ℚ Unit Unit Unit) :=
  [.app (.toggle .ok), .onStart, .auhalInput 2 (fun _ => 0) (fun _ => 0) (some fun _ => 1),
    .relaunch false plainLaunch]

/-- The two frames are still heard, from a ring that is older than the process. -/
theorem published_while_active_leftBehind :
    ∃ s j, Machine.run (Host.step identityDenoisers) plainHost leftBehind = some s ∧
      s.live = none ∧ (s.io.onReadClientInput shmConsumer s.shm 16).2.1.segment = some j ∧
      j < s.launchedAt := by
  obtain ⟨s, hrun, hoff, hsome⟩ :
      ∃ s, Machine.run (Host.step identityDenoisers) plainHost leftBehind = some s ∧
        s.app.audioManager.isProcessing = false ∧
        (s.io.onReadClientInput shmConsumer s.shm 16).1.isSome = true :=
    ⟨_, rfl, by decide +kernel, by decide +kernel⟩
  obtain ⟨-, hidle, hdelivers⟩ :=
    published_while_active identityDenoisers none none plainLaunch leftBehind s hrun
  obtain ⟨j, hj, hlive | hold⟩ := hdelivers 16 hsome
  · exact nomatch (hidle hoff).1.symm.trans hlive.2
  · exact ⟨s, j, hrun, (hidle hoff).1, hj, hold⟩

/-! ## The mode -/

namespace Engine

variable {api : Denoisers α R M} {e : Engine α R M} {mode : NoiseMode}

/-- A denoised chunk with the share `dry` of the original in it. -/
def blend (dry : α) (input out : List α) : List α :=
  if 0 < dry then List.zipWith (fun x y => (1 - dry) * y + dry * x) input out else out

/-- What `process_mono_chunk` makes of a chunk in the state `e`, when the mode is `mode` and
    nothing overrides it. Only the output of the model is mixed with the original. -/
structure InMode (api : Denoisers α R M) (mode : NoiseMode) (e : Engine α R M) : Prop where
  mode_eq : e.mode = mode
  dryMix : e.getDryMix = dryMixForMode mode
  /-- During an overload the chunk stays as it is. -/
  passed : e.passes = true →
    ∀ (elapsedMs : α) (chunk : List α), (e.denoiseChunk api elapsedMs chunk).1 = chunk
  /-- RNNoise is for the CPU saver mode, and for an engine without a model. -/
  rnnoise : e.callsRnnoise = true → (mode = .cpuSaver ∨ e.deepfilterLoaded = false) ∧
    ∃ state, e.rnnoiseState = some state ∧ ∀ (elapsedMs : α) (chunk : List α),
      (e.denoiseChunk api elapsedMs chunk).1 = (api.rnnoise state chunk).1
  /-- The model runs without a limit, and its output is mixed as the mode says. -/
  deepfilter : e.callsDeepfilter = true → mode ≠ .cpuSaver ∧
    ∃ d, e.deepfilter = some d ∧ d.loaded = true ∧ d.attenLimDb = 0 ∧
      ∀ (elapsedMs : α) (chunk : List α), (e.denoiseChunk api elapsedMs chunk).1 =
        blend (dryMixForMode mode) chunk (d.processFrame api chunk).2.1

/-- A chunk that is not passed through is what inference makes of it. -/
theorem output_denoiseChunk (hpasses : e.passes = false) (elapsedMs : α) (chunk : List α) :
    (e.denoiseChunk api elapsedMs chunk).1 = (e.infer api chunk).1 := by
  rw [denoiseChunk_eq, hpasses]
  rfl

/-- Inference with DeepFilterNet is the output of the model, with the mix in force. -/
theorem output_infer_deepfilter (huse : e.useDeepfilter = true) {d : DeepFilterEngine α M}
    (hd : e.deepfilter = some d) (chunk : List α) :
    (e.infer api chunk).1 = blend e.getDryMix chunk (d.processFrame api chunk).2.1 := by
  unfold infer
  rw [huse, hd]
  rfl

/-- In the engine of the app no override is set, so its mode decides about every chunk. -/
theorem ForApp.chunk (h : e.ForApp mode) (hneg : ¬ (0 : α) ≤ -1) {c : ProcessCall α}
    {entry : Engine α R M × α} (hentry : entry ∈ e.entries api c) : InMode api mode entry.1 := by
  have hkeeps := (h.inv.entries hentry).2.1
  have hmode : entry.1.mode = mode := hkeeps.mode.trans h.mode
  -- the overrides are -1, so the values of the mode count
  have hdry : entry.1.getDryMix = dryMixForMode mode := by
    unfold getDryMix
    rw [hkeeps.dryMixOverride, h.dryMixOverride, if_neg hneg, hmode]
  refine ⟨hmode, hdry, ?_, ?_, ?_⟩
  · intro hpasses elapsedMs chunk
    rw [denoiseChunk_eq, hpasses]
    rfl
  · intro hcalls
    obtain ⟨state, hstate⟩ := (h.inv.chunkSound hentry).rnnoise hcalls
    simp only [callsRnnoise, Bool.and_eq_true, Bool.not_eq_true'] at hcalls
    obtain ⟨hpasses, huse⟩ := hcalls
    refine ⟨?_, state, hstate, fun elapsedMs chunk => ?_⟩
    · simp only [useDeepfilter, hmode, Bool.and_eq_false_iff, bne_eq_false_iff_eq] at huse
      exact huse
    · rw [output_denoiseChunk hpasses, infer_rnnoise api hstate huse]
  · intro hcalls
    obtain ⟨d, _, hd, hloaded, -, hlimit⟩ := h.inv.attenLimDb_entry hentry hcalls
    simp only [callsDeepfilter, Bool.and_eq_true, Bool.not_eq_true'] at hcalls
    obtain ⟨hpasses, huse⟩ := hcalls
    refine ⟨?_, d, hd, hloaded, ?_, fun elapsedMs chunk => ?_⟩
    · simp only [useDeepfilter, hmode, Bool.and_eq_true, bne_iff_ne] at huse
      exact huse.1
    · rw [hlimit, getAttenuationLimit, h.attenLimOverride, if_neg hneg]
    · rw [output_denoiseChunk hpasses, output_infer_deepfilter huse hd, hdry]

end Engine

/-- Over every run, the engine of the app is in the mode that the picker shows, and treats every
    chunk that a callback of the audio unit brings as that mode says: RNNoise gets it only in the
    CPU saver mode or without a model, and what it makes of the chunk is not mixed; the model gets
    it without a limit, and its output is mixed with the chunk as the mode says; and during an
    overload the chunk stays as it is. -/
theorem mode_in_force (hneg : ¬ (0 : α) ≤ -1) (api : Denoisers α R M)
    (savedUID defaultMode : Option String) (l : Launch R M) (events : List (HostEvent α R M C))
    (s : Host α R M)
    (hrun : Machine.run (Host.step api) (.launch .empty savedUID defaultMode .new l) events =
      some s) :
    ∃ ctx, s.app.audioManager.engineHandle = some ctx ∧ ctx.engine.mode = s.currentMode ∧
      ∀ c, ∀ entry ∈ ctx.engine.entries api c, Engine.InMode api s.currentMode entry.1 := by
  have hinv := (Host.inv_first api savedUID defaultMode l).run api hrun
  obtain ⟨ctx, hctx, hengine⟩ := hinv.manager.engine
  exact ⟨ctx, hctx, hengine.mode, fun c entry hentry => hengine.chunk hneg hentry⟩

/-- A model that hears nothing but noise. -/
def mutingDenoisers : Denoisers ℚ Unit Unit :=
  { identityDenoisers with
    sessionRun := fun _ _ _ _ states _ => some (List.replicate DENOISE_FRAME_SIZE 0, states)
    session_length := by
      intro m ins outs x states atten out states' h
      cases h
      exact List.length_replicate
    session_states := by
      intro m ins outs x states atten out states' h
      cases h
      rfl }

/-- A launch that finds the model. -/
def modelLaunch : Launch Unit Unit := { plainLaunch with found := some (.ok () [] []) }

/-- One chunk of ones. -/
def onesCall : ProcessCall ℚ := ⟨fun _ => 0, fun _ => 1, fun _ => 0, DENOISE_FRAME_SIZE⟩

/-- The user picks the mode of best quality, and the next process has it from the start: the
    model mutes a chunk of ones, and a hundredth of it is heard. -/
theorem mode_in_force_relaunched :
    ∃ s ctx entry, Machine.run (Host.step mutingDenoisers)
        (.launch .empty none none .new modelLaunch)
        ([.pickMode .maxQuality, .app (.toggle .ok), .relaunch false modelLaunch] :
          List (HostEvent ℚ Unit Unit Unit)) = some s ∧
      s.app.audioManager.engineHandle = some ctx ∧ ctx.engine.mode = .maxQuality ∧
      entry ∈ ctx.engine.entries mutingDenoisers onesCall ∧
      (entry.1.denoiseChunk mutingDenoisers entry.2 (List.replicate DENOISE_FRAME_SIZE 1)).1 =
        List.replicate DENOISE_FRAME_SIZE 0.01 := by
  obtain ⟨s, hrun, hmode, hcalls⟩ : ∃ s, Machine.run (Host.step mutingDenoisers)
      (.launch .empty none none .new modelLaunch)
      ([.pickMode .maxQuality, .app (.toggle .ok), .relaunch false modelLaunch] :
        List (HostEvent ℚ Unit Unit Unit)) = some s ∧ s.currentMode = .maxQuality ∧
      (s.app.audioManager.engineHandle.any fun ctx =>
        (ctx.engine.entries mutingDenoisers onesCall).any (·.1.callsDeepfilter)) = true :=
    ⟨_, rfl, by decide +kernel, by decide +kernel⟩
  -- one of the chunks of the call goes to the model
  obtain ⟨ctx, hctx, heq, hchunks⟩ :=
    mode_in_force (by decide) mutingDenoisers none none modelLaunch _ s hrun
  rw [hctx, Option.any_some, List.any_eq_true] at hcalls
  obtain ⟨entry, hentry, hdeepfilter⟩ := hcalls
  obtain ⟨-, d, -, -, -, hout⟩ := (hchunks onesCall entry hentry).deepfilter hdeepfilter
  -- with or without a session, the model gives silence
  have hmuted : ∀ chunk, (d.processFrame mutingDenoisers chunk).2.1 =
      List.replicate DENOISE_FRAME_SIZE 0 := by
    intro chunk
    unfold DeepFilterEngine.processFrame
    split
    · rfl
    · rfl
  refine ⟨s, ctx, entry, hrun, hctx, heq.trans hmode, hentry, ?_⟩
  rw [hout, hmuted, hmode]
  decide +kernel

end Noise
