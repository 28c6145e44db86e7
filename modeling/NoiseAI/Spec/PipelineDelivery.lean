import NoiseAI.Spec.ChannelLayout
import NoiseAI.Spec.EngineDrain
import NoiseAI.Spec.ShmWrites

/-!
# From the microphone to the client, end to end

Every frame the app publishes is silence or one sample of what `process_mono_chunk` made of a
session (`Traced`), so what the driver delivers is too: over any run of the capture callback, the
engine calls, the shared memory and the driver, with restarts on every side, a client hears each
denoised sample at most once and in order, on both channels, and otherwise silence
(`pipeline_delivers`).
-/

namespace Noise

variable {α R M : Type} [Sample α]

/-- A clamped sample is one of the bounds or between them. -/
theorem clamp_cases (x : α) :
    clamp x = -1 ∨ clamp x = 1 ∨ (-1 < clamp x ∧ clamp x < 1) := by
  unfold clamp stdMax stdMin
  by_cases hhigh : x < 1
  · by_cases hlow : -1 < x
    · rw [if_pos hhigh, if_pos hlow]
      exact .inr (.inr ⟨hlow, hhigh⟩)
    · rw [if_pos hhigh, if_neg hlow]
      exact .inl rfl
  · rw [if_neg hhigh]
    split
    · exact .inr (.inl rfl)
    · exact .inl rfl

namespace Pipeline

open Machine (Reaches)

/-- Two samples of sessions are in order; silence is anywhere. -/
def Earlier (p q : Option (Nat × Nat)) : Prop :=
  ∀ x ∈ p, ∀ y ∈ q, Prod.Lex (· < ·) (· < ·) x y

/-- The sample of a frame that is silence, or sample `j` of session `k`. -/
def sample (s : Pipeline α R M) : Option (Nat × Nat) → α
  | none => 0
  | some (k, j) => clamp ((s.denoised k).getD j 0)

/-- The samples of frames, each twice. -/
def stereo (s : Pipeline α R M) (o : List (Option (Nat × Nat))) : List α :=
  o.flatMap fun p => List.replicate 2 (s.sample p)

theorem length_stereo (s : Pipeline α R M) (o : List (Option (Nat × Nat))) :
    (s.stereo o).length = 2 * o.length := by
  induction o with
  | nil => rfl
  | cons p o ih =>
    unfold stereo at ih ⊢
    rw [List.flatMap_cons, List.length_append, List.length_replicate, ih, List.length_cons]
    omega

theorem range_stereo (s : Pipeline α R M) {o : List (Option (Nat × Nat))} {x : α}
    (hx : x ∈ s.stereo o) : x = 0 ∨ x = -1 ∨ x = 1 ∨ (-1 < x ∧ x < 1) := by
  obtain ⟨p, _, hp⟩ := List.mem_flatMap.mp hx
  rw [List.eq_of_mem_replicate hp]
  cases p with
  | none => exact .inl rfl
  | some p => exact .inr (clamp_cases _)

/-- Sample `j` of session `k` was handed out; of the current session, `emitted` were. -/
def Made (s : Pipeline α R M) (emitted : Nat) (p : Option (Nat × Nat)) : Prop :=
  ∀ k j, p = some (k, j) →
    j < (s.denoised k).length ∧ (k < s.session ∨ (k = s.session ∧ j < emitted))

/-- The record of the sessions: whole chunks, taken from what was given in. -/
structure Recorded (s : Pipeline α R M) : Prop where
  taken : ∀ k, (s.chunks k).flatMap Prod.fst <+: s.given k
  whole : ∀ k, ∀ c ∈ s.chunks k, c.1.length = DENOISE_FRAME_SIZE ∧ c.2.length = DENOISE_FRAME_SIZE
  later : ∀ k, s.session < k → s.given k = [] ∧ s.chunks k = []

/-- `origin i` says where the frames published on segment `i` come from, `pending` where those
    of the block in progress do, and `emitted` how much of the session was handed out. -/
structure Traced (s : Pipeline α R M) (emitted : Nat) (origin : Nat → List (Option (Nat × Nat)))
    (pending : List (Option (Nat × Nat))) : Prop where
  system : Reaches ShmSystem.step ShmSystem.init s.system
  engine : s.engine.Inv
  channels : s.engine.channels = 2
  drains : s.engine.status = .running →
    s.engine.Drains (s.given s.session) (s.chunks s.session) emitted
  recorded : s.Recorded
  published : ∀ i < s.system.shm.created, (s.system.history i).written = s.stereo (origin i)
  unborn : ∀ i, s.system.shm.created ≤ i → origin i = []
  writing : ∀ i op, s.system.app.task = .write i op →
    s.system.app.buffer.bind (·.segment) = some i ∧ op.unpublished = s.stereo pending
  made : ∀ p ∈ (List.range s.system.shm.created).flatMap origin ++ pending, s.Made emitted p
  ordered : ((List.range s.system.shm.created).flatMap origin ++ pending).Pairwise Earlier
  newest : ∀ i, s.system.app.Fills i → ∀ j, i < j → origin j = []

omit [Sample α] in
theorem Recorded.congr {s s' : Pipeline α R M} (h : s.Recorded) (hsession : s'.session = s.session)
    (hgiven : s'.given = s.given) (hchunks : s'.chunks = s.chunks) : s'.Recorded := by
  refine ⟨?_, ?_, ?_⟩
  · rw [hgiven, hchunks]
    exact h.taken
  · rw [hchunks]
    exact h.whole
  · rw [hsession, hgiven, hchunks]
    exact h.later

variable {api : Denoisers α R M} {s s' : Pipeline α R M} {emitted : Nat}
  {origin : Nat → List (Option (Nat × Nat))} {pending : List (Option (Nat × Nat))}

/-- Samples that were made stay what they are when more are. -/
theorem stereo_congr {o : List (Option (Nat × Nat))} (hmade : ∀ p ∈ o, s.Made emitted p)
    (hmore : ∀ k, s.denoised k <+: s'.denoised k) : s'.stereo o = s.stereo o := by
  apply List.flatMap_congr
  intro p hp
  congr 1
  cases p with
  | none => rfl
  | some p =>
    obtain ⟨hlt, _⟩ := hmade (some p) hp p.1 p.2 rfl
    obtain ⟨rest, hrest⟩ := hmore p.1
    simp only [sample, ← hrest, List.getD_eq_getElem?_getD, List.getElem?_append_left hlt]

/-- A step of the system that the engine does not see. -/
theorem Traced.system_step (h : s.Traced emitted origin pending) {l : ShmLabel α}
    {t : ShmSystem α} (hl : ∀ outputBuf numFrames, l ≠ .processAndWrite outputBuf numFrames)
    (hstep : s.system.step l = some t) :
    ∃ origin' pending',
      ({ s with system := t } : Pipeline α R M).Traced emitted origin' pending' := by
  have hreach : Reaches ShmSystem.step ShmSystem.init t := h.system.trans (.single l hstep)
  have hinv := ShmSystem.Inv.reached h.system
  rcases ShmSystem.step_writes hinv hl hstep with hkeeps | ⟨i, data, hpub⟩
  · have hrange : (List.range t.shm.created).flatMap origin =
        (List.range s.system.shm.created).flatMap origin :=
      List.flatMap_range_of_empty hkeeps.created h.unborn
    refine ⟨origin, pending, hreach, h.engine, h.channels, h.drains, h.recorded.congr rfl rfl rfl,
      ?_, ?_, ?_, ?_, ?_, ?_⟩
    · intro i hi
      rcases Nat.lt_or_ge i s.system.shm.created with hold | hnew
      · exact (hkeeps.written i hold).trans (h.published i hold)
      · rw [h.unborn i hnew]
        exact hkeeps.fresh i hnew hi
    · exact fun i hi => h.unborn i (Nat.le_trans hkeeps.created hi)
    · intro i op' htask
      obtain ⟨hbuffer, op, hop, hblock⟩ := hkeeps.writing i op' htask
      obtain ⟨hseg, hpending⟩ := h.writing i op hop
      exact ⟨(congrArg (·.bind (·.segment)) hbuffer).trans hseg, hblock.trans hpending⟩
    · intro p hp
      rw [hrange] at hp
      exact h.made p hp
    · show ((List.range t.shm.created).flatMap origin ++ pending).Pairwise Earlier
      rw [hrange]
      exact h.ordered
    · intro i hfills j hj
      rcases hkeeps.fills i hfills with hold | hnew
      · exact h.newest i hold j hj
      · exact h.unborn j (by have := hkeeps.created; omega)
  · -- the block in progress is published behind what the segment holds
    obtain ⟨w, c, k, htask⟩ := hpub.task
    obtain ⟨hseg, hpending⟩ := h.writing i _ htask
    have hfills : s.system.app.Fills i := .inr hseg
    obtain ⟨b, hb, hbseg⟩ := Option.bind_eq_some_iff.mp hseg
    have hcreated : i < s.system.shm.created := (hinv.app.buffer b i hb hbseg).created
    have hlast := h.newest i hfills
    have hall : (List.range t.shm.created).flatMap
        (Function.update origin i (origin i ++ pending)) =
          (List.range s.system.shm.created).flatMap origin ++ pending := by
      rw [hpub.created]
      exact List.flatMap_range_update hcreated hlast pending
    refine ⟨Function.update origin i (origin i ++ pending), [], hreach, h.engine, h.channels,
      h.drains, h.recorded.congr rfl rfl rfl, ?_, ?_, ?_, ?_, ?_, ?_⟩
    · intro j hj
      have hj' : j < s.system.shm.created := hpub.created ▸ hj
      by_cases hji : j = i
      · subst hji
        have hdata : data = s.stereo pending := hpending
        rw [Function.update_self]
        show (t.history j).written = s.stereo (origin j ++ pending)
        rw [hpub.here, h.published j hj', hdata]
        exact (List.flatMap_append ..).symm
      · rw [Function.update_of_ne hji]
        exact (hpub.other j hji).trans (h.published j hj')
    · intro j hj
      have hj' : s.system.shm.created ≤ j := hpub.created ▸ hj
      rw [Function.update_of_ne (by omega)]
      exact h.unborn j hj'
    · intro j op htask'
      cases hpub.next.symm.trans htask'
      exact ⟨(congrArg (·.bind (·.segment)) hpub.buffer).trans hseg, rfl⟩
    · intro p hp
      rw [hall, List.append_nil] at hp
      exact h.made p hp
    · show (_ ++ []).Pairwise Earlier
      rw [hall, List.append_nil]
      exact h.ordered
    · intro j hj k hk
      -- the app fills this segment only
      have hji : j = i := by
        rcases hj with hj | hj
        · have hnext : t.app.task.fills = some i := by
            rw [hpub.next]
            rfl
          exact Option.some.inj (hj.symm.trans hnext)
        · have hsame : t.app.buffer.bind (·.segment) = some i :=
            (congrArg (·.bind (·.segment)) hpub.buffer).trans hseg
          exact Option.some.inj (hj.symm.trans hsame)
      subst hji
      rw [Function.update_of_ne (by omega)]
      exact hlast k hk

/-! ## The engine -/

/-- The engine takes a setting. -/
theorem Traced.setting (h : s.Traced emitted origin pending)
    {f : Engine α R M → Engine α R M} (hf : Engine.Setting f) (hinv : (f s.engine).Inv)
    (hstatus : (f s.engine).status = s.engine.status)
    (hchannels : (f s.engine).channels = s.engine.channels) :
    ({ s with engine := f s.engine } : Pipeline α R M).Traced emitted origin pending := by
  refine ⟨h.system, hinv, hchannels.trans h.channels, ?_, h.recorded.congr rfl rfl rfl,
    h.published, h.unborn, h.writing, h.made, h.ordered, h.newest⟩
  intro hrunning
  have hbuffers := hf.eq_withBuffers s.engine
  have hin : (f s.engine).inputBuffer = s.engine.inputBuffer := by rw [hbuffers]; rfl
  have hout : (f s.engine).outputBuffer = s.engine.outputBuffer := by rw [hbuffers]; rfl
  have hpos : (f s.engine).outputReadPos = s.engine.outputReadPos := by rw [hbuffers]; rfl
  exact (h.drains (hstatus.symm.trans hrunning)).congr hin hout hpos

/-- The engine clears its buffers: a new session. -/
theorem Traced.startOver (h : s.Traced emitted origin pending) {e : Engine α R M}
    (hinv : e.Inv) (hchannels : e.channels = 2) (hempty : e.status = .running → e.core = e) :
    (s.startOver e).Traced 0 origin pending := by
  refine ⟨h.system, hinv, hchannels, ?_, ⟨h.recorded.taken, h.recorded.whole, ?_⟩, h.published,
    h.unborn, h.writing, ?_, h.ordered, h.newest⟩
  · intro hrunning
    obtain ⟨hgiven, hchunks⟩ := h.recorded.later (s.session + 1) (Nat.lt_succ_self _)
    show e.Drains (s.given (s.session + 1)) (s.chunks (s.session + 1)) 0
    rw [hgiven, hchunks]
    exact Engine.drains_empty (hempty hrunning)
  · exact fun k hk => h.recorded.later k (Nat.lt_of_succ_lt hk)
  · intro p hp k j hkj
    obtain ⟨hlt, hbefore⟩ := h.made p hp k j hkj
    refine ⟨hlt, .inl ?_⟩
    show k < s.session + 1
    omega

theorem core_init (e : Engine α R M) (format : AudioFormat) (created : Option R)
    (found : Option (LoadOutcome M))
    (hrunning : (e.init format created found).2.status = .running) :
    (e.init format created found).2.core = (e.init format created found).2 := by
  cases created with
  | none => exact nomatch hrunning
  | some state =>
    rw [Engine.init_some]
    rfl

theorem channels_init (e : Engine α R M) (format : AudioFormat) (created : Option R)
    (found : Option (LoadOutcome M)) :
    (e.init format created found).2.channels = format.channels := by
  cases created with
  | none => rfl
  | some state =>
    rw [Engine.init_some]
    rfl

/-! ## The capture callback -/

/-- Where the frames of an answer come from. -/
structure Answered (s s' : Pipeline α R M) (emitted emitted' n : Nat) (output : Nat → α)
    (o : List (Option (Nat × Nat))) : Prop where
  block : (List.range (n * 2)).map output = s'.stereo o
  later : emitted ≤ emitted'
  made : ∀ p ∈ o, ∀ k j, p = some (k, j) →
    j < (s'.denoised k).length ∧ k = s.session ∧ emitted ≤ j ∧ j < emitted'
  ordered : o.Pairwise Earlier

variable (api) in
/-- A call of `process_frame` that is put on record. -/
theorem Traced.process (h : s.Traced emitted origin pending) (hrunning : s.engine.status = .running)
    (c : ProcessCall α) (hfits : c.numFrames * 2 < 2 ^ 32) :
    (s.engine.process api c).1 = true ∧ ∃ emitted' o,
      Answered s (s.record api c) emitted emitted' c.numFrames (s.engine.process api c).2.1 o ∧
      (s.engine.process api c).2.2.Drains ((s.record api c).given s.session)
        ((s.record api c).chunks s.session) emitted' := by
  have hlive : s.engine.Live 2 := h.channels ▸ h.engine.live hrunning
  have hgiven : (s.record api c).given s.session = s.given s.session ++
      (List.range c.numFrames).map (Engine.monoSample 2 c.input) := by
    rw [← h.channels]
    exact Function.update_self ..
  have hchunks : (s.record api c).chunks s.session = s.chunks s.session ++
      (s.engine.entries api c).map (Engine.chunkResult api) := Function.update_self ..
  obtain ⟨hok, hanswer⟩ := (h.drains hrunning).process hlive api c hfits
  rw [← hgiven, ← hchunks] at hanswer
  refine ⟨hok, ?_⟩
  rcases hanswer with ⟨hsilent, hnext⟩ | ⟨hthere, haudio, hnext⟩
  · -- silence: no frame has an origin
    refine ⟨emitted, List.replicate c.numFrames none, ⟨?_, Nat.le_refl _, ?_, ?_⟩, hnext⟩
    · rw [← flatten_frames, hsilent, stereo, List.flatMap_replicate]
      rfl
    · intro p hp k j hkj
      rw [List.eq_of_mem_replicate hp] at hkj
      exact nomatch hkj
    · apply List.pairwise_replicate.mpr
      right
      exact fun x hx => nomatch hx
  · -- audio: the frames are the next samples of the session
    have hdenoised : (s.record api c).denoised s.session =
        ((s.record api c).chunks s.session).flatMap Prod.snd := rfl
    refine ⟨emitted + c.numFrames, (List.range c.numFrames).map fun i =>
      some (s.session, emitted + i), ⟨?_, Nat.le_add_right _ _, ?_, ?_⟩, hnext⟩
    · rw [← flatten_frames, haudio, List.slice_eq_map_range 0 hthere, List.map_map, stereo,
        List.flatMap_map]
      rfl
    · intro p hp k j hkj
      obtain ⟨i, hi, rfl⟩ := List.mem_map.mp hp
      rw [List.mem_range] at hi
      cases hkj
      rw [hdenoised]
      exact ⟨by omega, rfl, Nat.le_add_right _ _, by omega⟩
    · rw [List.pairwise_map]
      apply List.pairwise_lt_range.imp
      intro i j hij x hx y hy
      cases hx
      cases hy
      exact Prod.Lex.right _ (by omega)

variable (api) in
/-- The record grows at the end of the session. -/
theorem Recorded.record (h : s.Recorded) (hinv : s.engine.Inv) (c : ProcessCall α)
    (htaken : ((s.record api c).chunks s.session).flatMap Prod.fst <+:
      (s.record api c).given s.session) :
    (s.record api c).Recorded ∧ ∀ k, s.denoised k <+: (s.record api c).denoised k := by
  have hother : ∀ k, k ≠ s.session → (s.record api c).given k = s.given k ∧
      (s.record api c).chunks k = s.chunks k :=
    fun k hk => ⟨Function.update_of_ne hk .., Function.update_of_ne hk ..⟩
  have hhere : (s.record api c).chunks s.session = s.chunks s.session ++
      (s.engine.entries api c).map (Engine.chunkResult api) := Function.update_self ..
  refine ⟨⟨?_, ?_, ?_⟩, ?_⟩
  · intro k
    by_cases hk : k = s.session
    · rw [hk]
      exact htaken
    · rw [(hother k hk).1, (hother k hk).2]
      exact h.taken k
  · intro k chunk hchunk
    by_cases hk : k = s.session
    · rw [hk, hhere] at hchunk
      rcases List.mem_append.mp hchunk with hold | hnew
      · exact h.whole _ chunk hold
      · -- a chunk is taken off a buffer that holds a whole one
        obtain ⟨entry, hentry, rfl⟩ := List.mem_map.mp hnew
        obtain ⟨_, _, _, hfull⟩ := hinv.entries hentry
        have hlen : (entry.1.inputBuffer.take DENOISE_FRAME_SIZE).length = DENOISE_FRAME_SIZE := by
          rw [List.length_take]
          omega
        exact ⟨hlen, Engine.length_denoiseChunk api _ _ hlen⟩
    · rw [(hother k hk).2] at hchunk
      exact h.whole k chunk hchunk
  · intro k hk
    have hk' : s.session < k := hk
    rw [(hother k (Nat.ne_of_gt hk')).1, (hother k (Nat.ne_of_gt hk')).2]
    exact h.later k hk'
  · intro k
    unfold denoised
    by_cases hk : k = s.session
    · rw [hk, hhere, List.flatMap_append]
      exact List.prefix_append _ _
    · rw [(hother k hk).2]

/-- `noise_engine_process_and_write` with a valid buffer on a running engine. -/
theorem Traced.write (h : s.Traced emitted origin pending) (hrunning : s.engine.status = .running)
    (c : ProcessCall α) (hfits : c.numFrames * 2 < 2 ^ 32) {i : Nat}
    (hseg : s.system.app.buffer.bind (·.segment) = some i) {t : ShmSystem α}
    (hidle : s.system.app.task = .idle)
    (hstep : s.system.step (.processAndWrite (s.engine.process api c).2.1 c.numFrames) = some t) :
    ∃ emitted' pending',
      ({ s.record api c with
          engine := (s.engine.process api c).2.2
          outputBuf := (s.engine.process api c).2.1
          system := t } : Pipeline α R M).Traced emitted' origin pending' := by
  obtain ⟨_, emitted', o, hanswer, hdrains⟩ := h.process api hrunning c hfits
  obtain ⟨hrecorded, hmore⟩ := h.recorded.record api h.engine c ⟨_, hdrains.input⟩
  have ht : t = s.system.setTask (.write i (.loadWritePos
      ((List.range (c.numFrames * 2)).map (s.engine.process api c).2.1))) := by
    simp only [ShmSystem.step, hidle, hseg, u32_of_lt hfits] at hstep
    exact (Option.some.inj hstep).symm
  -- what was made before stays what it is, and comes before what is handed out now
  have hsame : ∀ j < s.system.shm.created,
      (s.record api c).stereo (origin j) = s.stereo (origin j) := by
    intro j hj
    refine stereo_congr (fun p hp => h.made p ?_) hmore
    exact List.mem_append_left _ (List.mem_flatMap.mpr ⟨j, List.mem_range.mpr hj, hp⟩)
  have hbefore : ∀ p ∈ (List.range s.system.shm.created).flatMap origin, ∀ k j, p = some (k, j) →
      j < ((s.record api c).denoised k).length ∧
        (k < s.session ∨ (k = s.session ∧ j < emitted)) := by
    intro p hp k j hkj
    obtain ⟨hlt, hle⟩ := h.made p (List.mem_append_left _ hp) k j hkj
    exact ⟨Nat.lt_of_lt_of_le hlt (hmore k).length_le, hle⟩
  subst ht
  refine ⟨emitted', o, h.system.trans (.single _ hstep), ?_, ?_, fun _ => hdrains,
    hrecorded.congr rfl rfl rfl, ?_, h.unborn, ?_, ?_, ?_, ?_⟩
  · exact h.engine.after api (.processFrame c)
  · exact (h.engine.channels_after api (.processFrame c)).trans h.channels
  · exact fun j hj => (h.published j hj).trans (hsame j hj).symm
  · intro j op htask
    cases htask
    exact ⟨hseg, hanswer.block⟩
  · intro p hp k j hkj
    rcases List.mem_append.mp hp with hold | hnew
    · obtain ⟨hlt, hle⟩ := hbefore p hold k j hkj
      have hlater := hanswer.later
      refine ⟨hlt, ?_⟩
      show k < s.session ∨ (k = s.session ∧ j < emitted')
      omega
    · obtain ⟨hlt, hk, _, hj⟩ := hanswer.made p hnew k j hkj
      exact ⟨hlt, .inr ⟨hk, hj⟩⟩
  · refine List.pairwise_append.mpr ⟨(List.pairwise_append.mp h.ordered).1, hanswer.ordered, ?_⟩
    intro p hp q hq x hx y hy
    obtain ⟨_, hle⟩ := hbefore p hp x.1 x.2 hx
    obtain ⟨_, hk, hge, _⟩ := hanswer.made q hq y.1 y.2 hy
    rw [Prod.lex_def]
    omega
  · intro j hj k hk
    -- the app fills the segment of its buffer
    refine h.newest j (.inr ?_) k hk
    rcases hj with hj | hj
    · exact hseg.trans hj
    · exact hj

/-- Every step. -/
theorem Traced.step {l : PipelineLabel α R M} (h : s.Traced emitted origin pending)
    (hstep : s.step api l = some s') :
    ∃ emitted' origin' pending', s'.Traced emitted' origin' pending' := by
  cases l with
  | capture inNumberFrames clock rendered =>
    simp only [Pipeline.step] at hstep
    split at hstep
    · rename_i hidle
      cases rendered with
      | none =>
        cases hstep
        exact ⟨emitted, origin, pending, h⟩
      | some input =>
        simp only [auhalInputCallback, processAndWrite] at hstep
        split at hstep
        · cases hstep
          exact ⟨emitted, origin, pending, h⟩
        · rename_i i hseg
          generalize hc : (⟨clock, input, s.outputBuf,
            CaptureContext.framesToRender inNumberFrames⟩ : ProcessCall α) = c at hstep
          -- `auhalInputCallback` clamps the frames, so the product does not wrap
          have hfits : c.numFrames * 2 < 2 ^ 32 := by
            rw [← hc]
            show min inNumberFrames 4096 * 2 < 2 ^ 32
            omega
          by_cases hrunning : s.engine.status = .running
          · obtain ⟨hok, _⟩ := h.process api hrunning c hfits
            rw [hok] at hstep
            obtain ⟨t, ht, rfl⟩ := Option.map_eq_some_iff.mp hstep
            have hframes : CaptureContext.framesToRender inNumberFrames = c.numFrames := by
              rw [← hc]
            rw [hframes] at ht
            obtain ⟨emitted', pending', hnext⟩ := h.write hrunning c hfits hseg hidle ht
            exact ⟨emitted', origin, pending', hnext⟩
          · -- nothing is processed and nothing is written
            rw [Engine.process_of_not_running hrunning] at hstep
            cases hstep
            rw [← hc]
            exact ⟨emitted, origin, pending, h⟩
    · exact nomatch hstep
  | engineStart created found =>
    cases hstep
    -- `init`, `shutdown` and a change of mode start the stream over
    exact ⟨0, origin, pending, h.startOver (h.engine.init _ created found)
      (channels_init _ _ created found) (core_init _ _ created found)⟩
  | engineStop =>
    cases hstep
    exact ⟨0, origin, pending, h.startOver h.engine.shutdown h.channels fun hrunning =>
      nomatch hrunning⟩
  | setMode mode =>
    simp only [Pipeline.step] at hstep
    split at hstep
    · cases hstep
      exact ⟨emitted, origin, pending, h⟩
    · rename_i hmode
      cases hstep
      refine ⟨0, origin, pending, h.startOver (h.engine.setMode mode) ?_ ?_⟩
      · exact (h.engine.channels_after api (.setMode mode)).trans h.channels
      · intro _
        rw [Engine.setMode_eq hmode]
        rfl
  | setDryMix mix =>
    cases hstep
    exact ⟨emitted, origin, pending,
      h.setting (.setDryMix mix) (h.engine.after api (.setDryMix mix)) rfl rfl⟩
  | setAttenuationLimit db =>
    cases hstep
    have hsame : s.engine.SameSession (s.engine.after api (.setAttenuationLimit db)) :=
      Engine.sameSession_after api s.engine trivial
    exact ⟨emitted, origin, pending, h.setting (.setAttenuationLimit db)
      (h.engine.after api (.setAttenuationLimit db)) hsame.status hsame.channels⟩
  | loadDeepfilterModel file =>
    cases hstep
    have hsame : s.engine.SameSession (s.engine.after api (.loadDeepfilterModelFrom file)) :=
      Engine.sameSession_after api s.engine trivial
    exact ⟨emitted, origin, pending, h.setting (.loadDeepfilterModel file)
      (h.engine.after api (.loadDeepfilterModelFrom file)) hsame.status hsame.channels⟩
  | relaunch created found =>
    simp only [Pipeline.step] at hstep
    obtain ⟨t, ht, rfl⟩ := Option.map_eq_some_iff.mp hstep
    obtain ⟨origin', pending', hcrash⟩ := h.system_step (l := .crash) (fun _ _ h => nomatch h) ht
    have hnew := hcrash.startOver
      (e := (NoiseEngineContext.create 48000 2 128 created found).engine)
      (Engine.inv_new.init _ created found)
      (channels_init _ _ created found) (core_init _ _ created found)
    exact ⟨0, origin', pending', hnew.system, hnew.engine, hnew.channels, hnew.drains,
      hnew.recorded.congr rfl rfl rfl, hnew.published, hnew.unborn, hnew.writing, hnew.made,
      hnew.ordered, hnew.newest⟩
  | system l =>
    simp only [Pipeline.step] at hstep
    split at hstep
    · exact nomatch hstep
    · exact nomatch hstep
    · rename_i hwrite _
      obtain ⟨t, ht, rfl⟩ := Option.map_eq_some_iff.mp hstep
      obtain ⟨origin', pending', hnext⟩ := h.system_step (fun outputBuf numFrames heq =>
        hwrite outputBuf numFrames heq) ht
      exact ⟨emitted, origin', pending', hnext⟩

theorem Traced.init (created : Option R) (found : Option (LoadOutcome M)) :
    (init created found : Pipeline α R M).Traced 0 (fun _ => []) [] where
  system := ⟨[], rfl⟩
  engine := Engine.inv_new.init _ created found
  channels := channels_init _ _ created found
  drains := fun hrunning => Engine.drains_empty (core_init _ _ created found hrunning)
  recorded := ⟨fun _ => List.prefix_refl _, fun _ _ h => absurd h List.not_mem_nil,
    fun _ _ => ⟨rfl, rfl⟩⟩
  published := fun _ h => absurd h (Nat.not_lt_zero _)
  unborn := fun _ _ => rfl
  writing := fun _ _ h => nomatch h
  made := fun _ h => absurd h List.not_mem_nil
  ordered := List.Pairwise.nil
  newest := fun _ _ _ _ => rfl

theorem Traced.reached {created : Option R} {found : Option (LoadOutcome M)}
    (h : Reaches (Pipeline.step api) (Pipeline.init created found) s) :
    ∃ emitted origin pending, s.Traced emitted origin pending := by
  obtain ⟨ls, hrun⟩ := h
  refine Machine.run_invariant (fun _ => True)
    (fun s : Pipeline α R M => ∃ emitted origin pending, s.Traced emitted origin pending) ?_
    ⟨0, _, [], .init created found⟩ (fun _ _ => trivial) hrun
  rintro s l s' - ⟨emitted, origin, pending, htraced⟩ hstep
  exact htraced.step hstep

/-! ## What a client hears -/

/-- The frames of a callback come from `o`. -/
structure Hears (s : Pipeline α R M) (e : Callback α) (o : List (Option (Nat × Nat))) : Prop where
  silent : e.answer = none → o = []
  samples : ∀ i buf, e.answer = some (i, buf) → buf = s.stereo o
  range : ∀ i buf, e.answer = some (i, buf) → ∀ x ∈ buf,
    x = 0 ∨ x = -1 ∨ x = 1 ∨ (-1 < x ∧ x < 1)
  frames : e.answer.isSome = true → e.bytesCount % 8 = 0 → o.length = e.bytesCount / 8
  made : ∀ k j, some (k, j) ∈ o → j < (s.denoised k).length

/-- Where the frames of a callback come from. -/
def heard (origin : Nat → List (Option (Nat × Nat))) (e : Callback α) :
    List (Option (Nat × Nat)) :=
  match e.answer with
  | none => []
  | some (i, buf) => (origin i).slice (e.start / 2) (buf.length / 2)

theorem Traced.hears (h : s.Traced emitted origin pending)
    (hfew : ∀ i < s.system.shm.created, (s.system.history i).written.length < 2 ^ 64)
    {e : Callback α}
    (he : e ∈ s.system.log) : s.Hears e (heard origin e) := by
  have hinv := ShmSystem.Inv.reached h.system
  cases hanswer : e.answer with
  | none =>
    have hnone : heard origin e = [] := by
      unfold heard
      rw [hanswer]
    rw [hnone]
    refine ⟨fun _ => rfl, fun i buf hsome => ?_, fun i buf hsome => ?_, fun hsome => ?_,
      fun k j hmem => ?_⟩
    · exact nomatch hanswer.symm.trans hsome
    · exact nomatch hanswer.symm.trans hsome
    · rw [hanswer] at hsome
      exact nomatch hsome
    · exact absurd hmem List.not_mem_nil
  | some answer =>
    obtain ⟨i, buf⟩ := answer
    have hdel := hinv.log.delivered e he i buf hanswer
    have hheard : heard origin e = (origin i).slice (e.start / 2) (buf.length / 2) := by
      unfold heard
      rw [hanswer]
    have hwritten := h.published i hdel.created
    have hlength := hdel.length
    have hle := (hinv.segments i hdel.created).ring.positions.consumed_le
    have hconsumed := hdel.consumed
    have haligned := hdel.aligned
    have heven : buf.length % 2 = 0 := by
      rw [hlength]
      unfold IOHandler.totalSamples IOHandler.kChannels
      omega
    -- the positions of the samples are those of the frames, doubled
    have hsamples : buf = s.stereo (heard origin e) := by
      have hstart : e.start = 2 * (e.start / 2) := by omega
      have hcount : buf.length = 2 * (buf.length / 2) := by omega
      have hbuf := hdel.samples (hfew i hdel.created)
      rw [hwritten, hstart, hcount] at hbuf
      rw [hheard, stereo, ← List.slice_flatMap_replicate]
      exact hbuf
    have htwice := s.length_stereo (heard origin e)
    rw [← hsamples] at htwice
    refine ⟨fun hnone => ?_, fun j buf' hsome => ?_, fun j buf' hsome x hx => ?_,
      fun _ hwhole => ?_, fun k j hmem => ?_⟩
    · exact nomatch hanswer.symm.trans hnone
    · cases hanswer.symm.trans hsome
      exact hsamples
    · cases hanswer.symm.trans hsome
      rw [hsamples] at hx
      exact s.range_stereo hx
    · rw [hlength] at htwice
      unfold IOHandler.totalSamples IOHandler.kChannels sizeofFloat at htwice
      omega
    · rw [hheard] at hmem
      have hmem' : some (k, j) ∈ origin i := List.mem_of_mem_drop (List.mem_of_mem_take hmem)
      exact (h.made (some (k, j)) (List.mem_append_left _ (List.mem_flatMap.mpr
        ⟨i, List.mem_range.mpr hdel.created, hmem'⟩)) k j rfl).1

/-- Over the whole log the samples are in order. -/
theorem Traced.heard_ordered (h : s.Traced emitted origin pending) :
    (s.system.log.flatMap (heard origin)).Pairwise Earlier := by
  have hinv := ShmSystem.Inv.reached h.system
  obtain ⟨hwithin, hacross⟩ := List.pairwise_flatMap.mp (List.pairwise_append.mp h.ordered).1
  have hslice : ∀ {e : Callback α} {i buf p}, e.answer = some (i, buf) → p ∈ heard origin e →
      p ∈ (origin i).slice (e.start / 2) (buf.length / 2) := by
    intro e i buf p hanswer hp
    unfold heard at hp
    rwa [hanswer] at hp
  rw [List.pairwise_flatMap]
  constructor
  · intro e he
    unfold heard
    split
    · exact List.Pairwise.nil
    · rename_i i buf hanswer
      have hcreated := (hinv.log.delivered e he i buf hanswer).created
      exact ((hwithin i (List.mem_range.mpr hcreated)).drop).take
  · apply hinv.log.ordered.imp_of_mem
    intro e f he hf hbefore p hp q hq
    cases hanswer : e.answer with
    | none =>
      unfold heard at hp
      rw [hanswer] at hp
      exact absurd hp List.not_mem_nil
    | some answer =>
      cases hanswer' : f.answer with
      | none =>
        unfold heard at hq
        rw [hanswer'] at hq
        exact absurd hq List.not_mem_nil
      | some answer' =>
        obtain ⟨i, buf⟩ := answer
        obtain ⟨j, buf'⟩ := answer'
        have hp' := hslice hanswer hp
        have hq' := hslice hanswer' hq
        have hi := hinv.log.delivered e he i buf hanswer
        have hj := hinv.log.delivered f hf j buf' hanswer'
        rcases hbefore i buf hanswer j buf' hanswer' with hlt | ⟨rfl, hle⟩
        · -- an earlier segment
          have hcross := List.pairwise_iff_getElem.mp hacross i j
            (by rw [List.length_range]; exact hi.created)
            (by rw [List.length_range]; exact hj.created) hlt
          rw [List.getElem_range, List.getElem_range] at hcross
          exact hcross p (List.mem_of_mem_drop (List.mem_of_mem_take hp')) q
            (List.mem_of_mem_drop (List.mem_of_mem_take hq'))
        · -- the same segment, at later positions
          have heven := hi.aligned
          exact (hwithin i (List.mem_range.mpr hi.created)).slice (by omega) hp' hq'

/-- From the microphone to the client, with fewer than `2 ^ 64` samples written to a segment.
    Every callback is answered with silence or with whole frames that have one value on both
    channels, zero or a clamped sample of what `process_mono_chunk` made of the captured audio;
    each of these samples is heard at most once, and all are heard in order. The chunks are the
    captured samples in order, none taken twice and none left out. -/
theorem pipeline_delivers (api : Denoisers α R M) {created : Option R}
    {found : Option (LoadOutcome M)} {s : Pipeline α R M}
    (h : Reaches (Pipeline.step api) (Pipeline.init created found) s)
    (hfew : ∀ i < s.system.shm.created, (s.system.history i).written.length < 2 ^ 64) :
    ∃ heard : List (Callback α × List (Option (Nat × Nat))),
      heard.map Prod.fst = s.system.log ∧
      (∀ e o, (e, o) ∈ heard → s.Hears e o) ∧
      (heard.flatMap Prod.snd).Pairwise Earlier ∧
      s.Recorded := by
  obtain ⟨emitted, origin, pending, htraced⟩ := Traced.reached h
  refine ⟨s.system.log.map fun e => (e, heard origin e), ?_, ?_, ?_, htraced.recorded⟩
  · rw [List.map_map]
    exact List.map_id s.system.log
  · intro e o hmem
    obtain ⟨f, hf, heq⟩ := List.mem_map.mp hmem
    cases heq
    exact htraced.hears hfew hf
  · rw [List.flatMap_map]
    exact htraced.heard_ordered

/-- The app creates its segment, and the driver attaches to it. -/
def attaching : List (ShmLabel ℚ) :=
  [.shmCreate 48000 2] ++ List.replicate 11 (.app true) ++ [.onStart] ++
    List.replicate 5 (.driver true)

/-- The app publishes one frame, and the driver delivers it. -/
def delivering : List (ShmLabel ℚ) :=
  List.replicate 7 (.app true) ++ [.readClientInput 8] ++ List.replicate 8 (.driver true)

/-- One frame is captured. -/
def oneFrame : List (PipelineLabel ℚ Unit Unit) :=
  .engineStart (some ()) none :: attaching.map .system ++
    .capture 1 (fun _ => 0) (some fun _ => 1) :: delivering.map .system

theorem pipeline_delivers_oneFrame :
    ∃ s, Machine.run (Pipeline.step identityDenoisers) (Pipeline.init (some ()) none) oneFrame =
        some s ∧
      s.system.log = [⟨8, some (0, [0, 0]), 0, 0⟩] ∧
      ∃ heard : List (Callback ℚ × List (Option (Nat × Nat))),
        heard.map Prod.fst = s.system.log ∧
        (∀ e o, (e, o) ∈ heard → s.Hears e o) ∧
        (heard.flatMap Prod.snd).Pairwise Earlier ∧ s.Recorded := by
  have hends : (Machine.run (Pipeline.step identityDenoisers) (Pipeline.init (some ()) none)
      oneFrame).map (fun s => (s.system.log, s.system.shm.created, (s.system.history 0).written)) =
      some ([⟨8, some (0, [0, 0]), 0, 0⟩], 1, [0, 0]) := by decide +kernel
  obtain ⟨s, hrun, hs⟩ := Option.map_eq_some_iff.mp hends
  simp only [Prod.mk.injEq] at hs
  obtain ⟨hlog, hcreated, hwritten⟩ := hs
  have hreach : Reaches (Pipeline.step identityDenoisers) (Pipeline.init (some ()) none) s :=
    ⟨oneFrame, hrun⟩
  have hfew : ∀ i < s.system.shm.created, (s.system.history i).written.length < 2 ^ 64 := by
    intro i hi
    obtain rfl : i = 0 := by omega
    rw [hwritten]
    decide
  exact ⟨s, hrun, hlog, pipeline_delivers identityDenoisers hreach hfew⟩

end Pipeline

end Noise
