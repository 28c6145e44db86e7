import NoiseAI.Native.EngineCalls
import NoiseAI.Spec.EngineInvariant
import NoiseAI.Spec.EngineSession

/-!
# Two engines side by side

The same calls of `process_frame` are made on two engines. If they denoise every chunk alike,
up to what a listener hears (`toFrame`), and their buffers hold the same, then they answer the
same and stay in step. `Lockstep` is what has to be shown about one chunk.
-/

namespace Noise

variable {α R M : Type} [Sample α]

namespace Engine

/-- `S` relates engines, taken without their buffers, that denoise alike. `I` holds of the
    samples that a chunk can consist of. -/
structure Lockstep (api : Denoisers α R M) (I : α → Prop)
    (S : Engine α R M → Engine α R M → Prop) : Prop where
  status : ∀ {e e'}, S e e' → e'.status = e.status
  channels : ∀ {e e'}, S e e' → e'.channels = e.channels
  inOverload : ∀ {e e'}, S e e' → e'.inOverload = e.inOverload
  denoiser : ∀ {e e'}, S e e' →
    (e'.rnnoiseState.isSome || e'.deepfilterLoaded) =
      (e.rnnoiseState.isSome || e.deepfilterLoaded)
  mono : ∀ {e e'}, S e e' → ∀ input i, I (monoSample e.channels input i)
  denoiseChunk : ∀ {e e'} elapsedMs chunk, S e e' → chunk.length = DENOISE_FRAME_SIZE →
    (∀ x ∈ chunk, I x) →
    (e'.denoiseChunk api elapsedMs chunk).1.map (toFrame e.channels) =
      (e.denoiseChunk api elapsedMs chunk).1.map (toFrame e.channels) ∧
    S (e.denoiseChunk api elapsedMs chunk).2 (e'.denoiseChunk api elapsedMs chunk).2

/-- Related engines whose buffers hold the same for a listener. -/
structure InStep (I : α → Prop) (S : Engine α R M → Engine α R M → Prop)
    (e e' : Engine α R M) : Prop where
  similar : S e.core e'.core
  samples : ∀ x ∈ e.inputBuffer, I x
  inputBuffer : e'.inputBuffer = e.inputBuffer
  outputBuffer : e'.outputBuffer.map (toFrame e.channels) =
    e.outputBuffer.map (toFrame e.channels)
  outputReadPos : e'.outputReadPos = e.outputReadPos
  outputStarted : e'.outputStarted = e.outputStarted

variable {api : Denoisers α R M} {I : α → Prop} {S : Engine α R M → Engine α R M → Prop}
  {e e' : Engine α R M}

theorem InStep.length_outputBuffer (hs : InStep I S e e') :
    e'.outputBuffer.length = e.outputBuffer.length := by
  have hlen := congrArg List.length hs.outputBuffer
  rw [List.length_map, List.length_map] at hlen
  exact hlen

/-- What a call reads besides the buffers is the same. -/
theorem Lockstep.same (h : Lockstep api I S) (hs : InStep I S e e') :
    e'.status = e.status ∧ e'.channels = e.channels ∧ e'.inOverload = e.inOverload ∧
      (e'.rnnoiseState.isSome || e'.deepfilterLoaded) =
        (e.rnnoiseState.isSome || e.deepfilterLoaded) := by
  have hstatus := h.status hs.similar
  have hchannels := h.channels hs.similar
  have hover := h.inOverload hs.similar
  have hdenoiser := h.denoiser hs.similar
  exact ⟨hstatus, hchannels, hover, hdenoiser⟩

theorem InStep.available (hs : InStep I S e e') : e'.available = e.available := by
  unfold Engine.available
  rw [hs.length_outputBuffer, hs.outputReadPos]

/-- Denoising a chunk of the input buffer leaves the core in the state it would have
    without the buffers. -/
theorem core_processMonoChunk (e : Engine α R M) (elapsedMs : α) :
    (e.processMonoChunk api elapsedMs).core =
      (e.core.denoiseChunk api elapsedMs (e.inputBuffer.take DENOISE_FRAME_SIZE)).2 := by
  rw [processMonoChunk_eq]
  unfold core
  rw [denoiseChunk_withBuffers]
  rfl

theorem output_denoiseChunk_core (e : Engine α R M) (elapsedMs : α) (chunk : List α) :
    (e.core.denoiseChunk api elapsedMs chunk).1 = (e.denoiseChunk api elapsedMs chunk).1 := by
  unfold core
  rw [denoiseChunk_withBuffers]

theorem Lockstep.processMonoChunk (h : Lockstep api I S) (hs : InStep I S e e') (elapsedMs : α)
    (hfull : DENOISE_FRAME_SIZE ≤ e.inputBuffer.length) :
    InStep I S (e.processMonoChunk api elapsedMs) (e'.processMonoChunk api elapsedMs) := by
  have hchunk : (e.inputBuffer.take DENOISE_FRAME_SIZE).length = DENOISE_FRAME_SIZE := by
    rw [List.length_take]
    omega
  obtain ⟨hout, hnext⟩ := h.denoiseChunk elapsedMs _ hs.similar hchunk
    fun x hx => hs.samples x (List.mem_of_mem_take hx)
  rw [output_denoiseChunk_core, output_denoiseChunk_core] at hout
  have hchannels := (keeps_processMonoChunk api e elapsedMs).channels
  constructor
  · rw [core_processMonoChunk, core_processMonoChunk, hs.inputBuffer]
    exact hnext
  · -- what is left of the input was there before
    intro x hx
    exact hs.samples x (List.mem_of_mem_drop hx)
  · show e'.inputBuffer.drop _ = e.inputBuffer.drop _
    rw [hs.inputBuffer]
  · rw [hchannels, processMonoChunk_eq, processMonoChunk_eq, hs.inputBuffer]
    dsimp only [withBuffers]
    rw [List.map_append, List.map_append, hs.outputBuffer]
    exact congrArg _ hout
  · rw [processMonoChunk_eq, processMonoChunk_eq]
    exact hs.outputReadPos
  · rw [processMonoChunk_eq, processMonoChunk_eq]
    exact hs.outputStarted

/-- The loop takes as many turns on one engine as on the other. -/
theorem Lockstep.processChunks (h : Lockstep api I S) (clock : Nat → α) (fuel k : Nat)
    (hs : InStep I S e e') :
    InStep I S (processChunks api clock fuel k e) (processChunks api clock fuel k e') := by
  induction fuel generalizing k e e' with
  | zero => exact hs
  | succ fuel ih =>
    unfold Engine.processChunks
    rw [hs.inputBuffer]
    split
    · rename_i hfull
      exact ih (k + 1) (h.processMonoChunk hs (clock k) hfull)
    · exact hs

theorem Lockstep.buffered (h : Lockstep api I S) (hs : InStep I S e e') (c : ProcessCall α) :
    InStep I S (e.buffered c) (e'.buffered c) where
  similar := hs.similar
  samples := by
    intro x hx
    obtain hold | hnew := List.mem_append.mp hx
    · exact hs.samples x hold
    · obtain ⟨i, _, rfl⟩ := List.mem_map.mp hnew
      have hmono := h.mono hs.similar c.input i
      exact hmono
  inputBuffer := by
    unfold Engine.buffered
    dsimp only
    rw [hs.inputBuffer, (h.same hs).2.1]
  outputBuffer := hs.outputBuffer
  outputReadPos := hs.outputReadPos
  outputStarted := hs.outputStarted

theorem InStep.prefill (hs : InStep I S e e') : InStep I S e.prefill e'.prefill := by
  have hstarted : e'.prefill.outputStarted = e.prefill.outputStarted := by
    rw [prefill_started, prefill_started, hs.outputStarted, hs.available]
  rw [prefill_eq e, prefill_eq e']
  exact ⟨hs.similar, hs.samples, hs.inputBuffer, hs.outputBuffer, hs.outputReadPos, hstarted⟩

theorem InStep.advance (hs : InStep I S e e') (numFrames : Nat) :
    InStep I S (e.advance numFrames) (e'.advance numFrames) := by
  unfold Engine.advance
  dsimp only
  rw [hs.outputReadPos]
  split
  · refine ⟨hs.similar, hs.samples, hs.inputBuffer, ?_, rfl, hs.outputStarted⟩
    dsimp only
    rw [List.map_drop, List.map_drop, hs.outputBuffer]
  · exact ⟨hs.similar, hs.samples, hs.inputBuffer, hs.outputBuffer, rfl, hs.outputStarted⟩

/-- Where the same frame is heard, the same is stored on every channel. -/
theorem InStep.stored (hs : InStep I S e e') (i : Nat) (output : Nat → α) (address : Nat → Nat) :
    (List.range e.channels).foldl (fun output ch => Function.update output (address ch)
        (clamp (e'.outputBuffer.getD (e'.outputReadPos + i) 0))) output =
      (List.range e.channels).foldl (fun output ch => Function.update output (address ch)
        (clamp (e.outputBuffer.getD (e.outputReadPos + i) 0))) output := by
  have hframe : toFrame e.channels (e'.outputBuffer.getD (e.outputReadPos + i) 0) =
      toFrame e.channels (e.outputBuffer.getD (e.outputReadPos + i) 0) := by
    have hget := congrArg (fun l => l[e.outputReadPos + i]?) hs.outputBuffer
    simp only [List.getElem?_map] at hget
    rw [List.getD_eq_getElem?_getD, List.getD_eq_getElem?_getD]
    cases hhere : e.outputBuffer[e.outputReadPos + i]? with
    | none =>
      rw [hhere, Option.map_none, Option.map_eq_none_iff] at hget
      rw [hget]
    | some x =>
      rw [hhere, Option.map_some, Option.map_eq_some_iff] at hget
      obtain ⟨y, hy, hframe⟩ := hget
      rw [hy]
      exact hframe
  rw [hs.outputReadPos]
  cases hchannels : e.channels with
  | zero =>
    -- nothing is stored
    rfl
  | succ n =>
    rw [hchannels] at hframe
    have hclamp := (List.replicate_inj.mp hframe).2.resolve_left (Nat.succ_ne_zero n)
    rw [hclamp]

/-- A call returns the same on engines in step, and they stay in step. -/
theorem Lockstep.process (h : Lockstep api I S) (hs : InStep I S e e') (c : ProcessCall α) :
    (e'.process api c).1 = (e.process api c).1 ∧
    (e'.process api c).2.1 = (e.process api c).2.1 ∧
    InStep I S (e.process api c).2.2 (e'.process api c).2.2 := by
  have haccepted : InStep I S (e.accept api c.clock c.input c.numFrames).prefill
      (e'.accept api c.clock c.input c.numFrames).prefill := by
    -- the buffers are equally long, so both loops run as often
    have hloop := h.processChunks c.clock (e.buffered c).inputBuffer.length 0 (h.buffered hs c)
    have hlen := congrArg List.length (h.buffered hs c).inputBuffer
    apply InStep.prefill
    show InStep I S _ (Engine.processChunks api c.clock (e'.buffered c).inputBuffer.length 0 _)
    rw [hlen]
    exact hloop
  obtain ⟨hstatus, hchannels, _, hdenoiser⟩ := h.same hs
  unfold Engine.process Engine.processFrame
  rw [hstatus, hdenoiser, hchannels]
  split
  · exact ⟨rfl, rfl, hs⟩
  · split
    · -- no denoiser: the input is copied
      exact ⟨rfl, rfl, hs⟩
    · dsimp only
      -- both are ready or neither is
      have hready : ∀ n, (e'.accept api c.clock c.input c.numFrames).prefill.ready n =
          (e.accept api c.clock c.input c.numFrames).prefill.ready n := by
        intro n
        unfold ready
        rw [haccepted.outputStarted, haccepted.available]
      have hsame : (e'.accept api c.clock c.input c.numFrames).prefill.channels =
          (e.accept api c.clock c.input c.numFrames).prefill.channels := (h.same haccepted).2.1
      rw [hready]
      split
      · refine ⟨rfl, ?_, haccepted.advance _⟩
        unfold writeFrames
        rw [hsame]
        apply List.foldl_ext
        intro output i _
        exact haccepted.stored i output _
      · refine ⟨rfl, ?_, haccepted⟩
        unfold writeSilence
        rw [hsame]

/-- Engines in step give the same answer to a call. -/
theorem Lockstep.answer (h : Lockstep api I S) (hs : InStep I S e e') (c : ProcessCall α) :
    e'.answer api (.processFrame c) = e.answer api (.processFrame c) := by
  obtain ⟨hreturned, houtput, hnext⟩ := h.process hs c
  obtain ⟨hstatus, _, hover, _⟩ := h.same hnext
  exact Answer.ext (congrArg some (Prod.ext hreturned houtput)) hover hstatus

end Engine

end Noise
