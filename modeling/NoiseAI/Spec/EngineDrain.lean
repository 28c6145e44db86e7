import NoiseAI.Native.Pipeline
import NoiseAI.Spec.EngineLifeCycle
import NoiseAI.Spec.EngineSession

/-!
# What a call hands out

`Drains` says what the buffers of the engine hold in terms of the calls of `process_mono_chunk`
since they were last cleared: what went into these calls, with the input buffer, is what the
engine was given, and the output buffer holds their results from the first one on that was not
handed out. `Drains.process` is the step lemma: a call is answered with silence, or with the next
results.
-/

namespace Noise

variable {α R M : Type} [Sample α]

namespace Engine

/-- `chunks` are the chunks denoised so far, each with its result, and the first `emitted`
    samples of the results were handed out. -/
structure Drains (e : Engine α R M) (given : List α) (chunks : List (List α × List α))
    (emitted : Nat) : Prop where
  input : chunks.flatMap Prod.fst ++ e.inputBuffer = given
  output : e.outputBuffer.drop e.outputReadPos = (chunks.flatMap Prod.snd).drop emitted
  emitted_le : emitted ≤ (chunks.flatMap Prod.snd).length
  cursor : e.CursorInside

variable {e : Engine α R M} {given : List α} {chunks : List (List α × List α)} {emitted : Nat}

omit [Sample α] in
/-- An engine with nothing in its buffers. -/
theorem drains_empty (h : e.core = e) : e.Drains [] [] 0 where
  input := (congrArg Engine.inputBuffer h).symm
  output := by
    have houtput : e.outputBuffer = [] := (congrArg Engine.outputBuffer h).symm
    rw [houtput, List.drop_nil]
    rfl
  emitted_le := Nat.le_refl 0
  cursor := by
    have hpos : e.outputReadPos = 0 := (congrArg Engine.outputReadPos h).symm
    unfold CursorInside
    rw [hpos]
    exact Nat.zero_le _

omit [Sample α] in
/-- Only the buffers and the read cursor matter. -/
theorem Drains.congr {e' : Engine α R M} (h : e.Drains given chunks emitted)
    (hin : e'.inputBuffer = e.inputBuffer) (hout : e'.outputBuffer = e.outputBuffer)
    (hpos : e'.outputReadPos = e.outputReadPos) : e'.Drains given chunks emitted := by
  refine ⟨?_, ?_, h.emitted_le, ?_⟩
  · rw [hin]
    exact h.input
  · rw [hout, hpos]
    exact h.output
  · unfold CursorInside
    rw [hout, hpos]
    exact h.cursor

omit [Sample α] in
/-- What is left of the results is in the output buffer. -/
theorem Drains.available (h : e.Drains given chunks emitted) :
    e.available = (chunks.flatMap Prod.snd).length - emitted := by
  have hlen := congrArg List.length h.output
  rw [List.length_drop, List.length_drop] at hlen
  exact hlen

omit [Sample α] in
theorem Drains.getD_output (h : e.Drains given chunks emitted) (i : Nat) (x : α) :
    e.outputBuffer.getD (e.outputReadPos + i) x =
      (chunks.flatMap Prod.snd).getD (emitted + i) x := by
  have hget := congrArg (fun l => l[i]?) h.output
  simp only [List.getElem?_drop] at hget
  rw [List.getD_eq_getElem?_getD, List.getD_eq_getElem?_getD, hget]

/-- `process_mono_chunk` takes one chunk and puts its result behind the others. -/
theorem Drains.processMonoChunk (h : e.Drains given chunks emitted) (api : Denoisers α R M)
    (elapsedMs : α) :
    (e.processMonoChunk api elapsedMs).Drains given
      (chunks ++ [chunkResult api (e, elapsedMs)]) emitted := by
  have hcursor := h.cursor.processMonoChunk api elapsedMs
  have hle := h.emitted_le
  rw [processMonoChunk_eq] at hcursor ⊢
  refine ⟨?_, ?_, ?_, hcursor⟩
  · rw [List.flatMap_append, List.flatMap_singleton, List.append_assoc]
    show _ ++ (e.inputBuffer.take _ ++ e.inputBuffer.drop _) = given
    rw [List.take_append_drop]
    exact h.input
  · rw [List.flatMap_append, List.flatMap_singleton, List.drop_append_of_le_length hle, ← h.output]
    show (e.outputBuffer ++ _).drop e.outputReadPos = _
    rw [List.drop_append_of_le_length h.cursor]
    rfl
  · rw [List.flatMap_append, List.length_append]
    omega

/-- The loop over complete chunks. -/
theorem Drains.processChunks (api : Denoisers α R M) (clock : Nat → α) (fuel k : Nat)
    (h : e.Drains given chunks emitted) :
    (Engine.processChunks api clock fuel k e).Drains given
      (chunks ++ (chunkEntries api clock fuel k e).map (chunkResult api)) emitted := by
  induction fuel generalizing k e chunks with
  | zero =>
    rw [chunkEntries, List.map_nil, List.append_nil]
    exact h
  | succ fuel ih =>
    unfold Engine.processChunks chunkEntries
    split
    · have hnext := ih (k + 1) (h.processMonoChunk api (clock k))
      rw [List.map_cons]
      rwa [List.append_assoc, List.singleton_append] at hnext
    · rw [List.map_nil, List.append_nil]
      exact h

variable {channels : Nat}

/-- The chunks of a call to an engine that runs. -/
theorem Live.entries_eq (hlive : e.Live channels) (api : Denoisers α R M) (c : ProcessCall α) :
    e.entries api c =
      chunkEntries api c.clock (e.buffered c).inputBuffer.length 0 (e.buffered c) := by
  have hdenoiser : (!(e.rnnoiseState.isSome || e.deepfilterLoaded)) = false := by
    rw [hlive.denoiser, Bool.true_or, Bool.not_true]
  unfold entries
  rw [if_neg (not_not.mpr hlive.running), hdenoiser]
  rfl

/-- Up to its answer a call takes the mono samples of its frames. -/
theorem Drains.accepted (h : e.Drains given chunks emitted) (hlive : e.Live channels)
    (api : Denoisers α R M) (c : ProcessCall α) :
    (e.accepted api c.clock c.input c.numFrames).Drains
      (given ++ (List.range c.numFrames).map (monoSample channels c.input))
      (chunks ++ (e.entries api c).map (chunkResult api)) emitted := by
  have hbuffered : (e.buffered c).Drains
      (given ++ (List.range c.numFrames).map (monoSample channels c.input)) chunks emitted := by
    refine ⟨?_, h.output, h.emitted_le, h.cursor⟩
    unfold buffered
    rw [← List.append_assoc, h.input, hlive.channels]
  rw [hlive.entries_eq]
  unfold Engine.accepted
  rw [prefill_eq]
  exact (hbuffered.processChunks api c.clock _ 0).congr rfl rfl rfl

omit [Sample α] in
/-- Reading the next `numFrames` results. -/
theorem Drains.advance (h : e.Drains given chunks emitted) {numFrames : Nat}
    (hready : e.ready numFrames = true) :
    emitted + numFrames ≤ (chunks.flatMap Prod.snd).length ∧
      (e.advance numFrames).Drains given chunks (emitted + numFrames) := by
  have havail := h.available
  have hle := h.emitted_le
  obtain ⟨hinside, hcursor⟩ := h.cursor.advance hready
  simp only [ready, Bool.and_eq_true, decide_eq_true_eq] at hready
  have hdrop : e.outputBuffer.drop (e.outputReadPos + numFrames) =
      (chunks.flatMap Prod.snd).drop (emitted + numFrames) := by
    rw [← List.drop_drop, h.output, List.drop_drop]
  have hfits : emitted + numFrames ≤ (chunks.flatMap Prod.snd).length := by omega
  refine ⟨hfits, ?_⟩
  unfold Engine.advance at hcursor ⊢
  dsimp only at hcursor ⊢
  -- compacting drops exactly what was read
  split
  · rename_i hfar
    rw [if_pos hfar] at hcursor
    exact ⟨h.input, hdrop, hfits, hcursor⟩
  · rename_i hnear
    rw [if_neg hnear] at hcursor
    exact ⟨h.input, hdrop, hfits, hcursor⟩

/-- The frames of an answer with audio are the next results, those of silence all zero. -/
theorem Drains.frames (h : e.Drains given chunks emitted) (hlive : e.Live channels)
    {numFrames : Nat} (hfits : numFrames * channels < 2 ^ 32) (output : Nat → α) :
    (e.ready numFrames = true →
      Noise.frames channels numFrames (e.writeFrames numFrames output) =
        ((chunks.flatMap Prod.snd).slice emitted numFrames).map (toFrame channels)) ∧
    Noise.frames channels numFrames (e.writeSilence numFrames output) =
      List.replicate numFrames (List.replicate channels 0) := by
  obtain rfl := hlive.channels
  constructor
  · intro hready
    rw [List.slice_eq_map_range 0 (h.advance hready).1, List.map_map, Noise.frames]
    apply List.map_congr_left
    intro i hi
    rw [List.mem_range] at hi
    simp only [Function.comp, toFrame, ← h.getD_output]
    -- each channel gets the same sample
    apply List.ext_getElem
    · rw [List.length_map, List.length_range, List.length_replicate]
    intro ch hch _
    rw [List.length_map, List.length_range] at hch
    rw [List.getElem_map, List.getElem_range, List.getElem_replicate]
    exact writeFrames_apply e output (Nat.le_of_lt hfits) hi hch
  · rw [Noise.frames, List.eq_replicate_iff, List.length_map, List.length_range]
    refine ⟨rfl, ?_⟩
    intro frame hframe
    obtain ⟨i, hi, rfl⟩ := List.mem_map.mp hframe
    rw [List.mem_range] at hi
    rw [List.eq_replicate_iff, List.length_map, List.length_range]
    refine ⟨rfl, ?_⟩
    intro x hx
    obtain ⟨ch, hch, rfl⟩ := List.mem_map.mp hx
    rw [List.mem_range] at hch
    exact writeSilence_apply e output hfits hi hch

/-- A call to an engine that runs is answered with silence or with the next results. -/
theorem Drains.process (h : e.Drains given chunks emitted) (hlive : e.Live channels)
    (api : Denoisers α R M) (c : ProcessCall α) (hfits : c.numFrames * channels < 2 ^ 32) :
    let given' := given ++ (List.range c.numFrames).map (monoSample channels c.input)
    let chunks' := chunks ++ (e.entries api c).map (chunkResult api)
    let out := Noise.frames channels c.numFrames (e.process api c).2.1
    (e.process api c).1 = true ∧
    ((out = List.replicate c.numFrames (List.replicate channels 0) ∧
        (e.process api c).2.2.Drains given' chunks' emitted) ∨
      (emitted + c.numFrames ≤ (chunks'.flatMap Prod.snd).length ∧
        out = ((chunks'.flatMap Prod.snd).slice emitted c.numFrames).map (toFrame channels) ∧
        (e.process api c).2.2.Drains given' chunks' (emitted + c.numFrames))) := by
  intro given' chunks' out
  have hacc := h.accepted hlive api c
  -- processing the chunks leaves the engine live
  have hlive' : (e.accepted api c.clock c.input c.numFrames).Live channels := by
    obtain ⟨hkeeps, _⟩ := h.cursor.accepted api c
    refine ⟨hkeeps.status.trans hlive.running, ?_, hkeeps.channels.trans hlive.channels⟩
    rw [Option.Rel.isSome_eq hkeeps.rnnoiseState]
    exact hlive.denoiser
  obtain ⟨haudio, hsilent⟩ := hacc.frames hlive' hfits c.output
  have hcall : e.process api c = _ := hlive.processFrame api c.clock c.input c.output c.numFrames
  cases hready : e.answersAudio api c.clock c.input c.numFrames with
  | true =>
    obtain ⟨hthere, hnext⟩ := hacc.advance hready
    rw [hready, if_pos rfl] at hcall
    refine ⟨by rw [hcall], .inr ⟨hthere, ?_, ?_⟩⟩
    · show Noise.frames channels c.numFrames (e.process api c).2.1 = _
      rw [hcall]
      exact haudio hready
    · rw [hcall]
      exact hnext
  | false =>
    rw [hready, if_neg Bool.false_ne_true] at hcall
    refine ⟨by rw [hcall], .inl ⟨?_, ?_⟩⟩
    · show Noise.frames channels c.numFrames (e.process api c).2.1 = _
      rw [hcall]
      exact hsilent
    · rw [hcall]
      exact hacc

end Engine

end Noise
