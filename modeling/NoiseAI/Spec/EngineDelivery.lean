import NoiseAI.Spec.EngineSession

/-!
# Delivery of the denoised stream

As long as the index of no sample wraps, a session delivers the denoised stream without
loss, repetition or reordering, however the input is cut into calls
(`process_frame_delivers`). With a call of `2 ^ 32` samples or more the silent answer
leaves samples of the output buffer as they were (`process_frame_wraps`).
-/

namespace Noise

variable {α R M : Type} [Sample α]

/-- The mean of the samples of a frame. -/
def mean (channels : Nat) (frame : List α) : α := frame.foldl (· + ·) 0 / (channels : α)

/-- The means of the frames of a call. -/
theorem map_frameMean (channels n : Nat) (input : Nat → α) :
    (List.range n).map (frameMean channels input) =
      (frames channels n input).map (mean channels) := by
  rw [frames, List.map_map]
  apply List.map_congr_left
  intro i _
  simp only [Function.comp, mean, frameMean, List.foldl_map]

/-- Every call that `op` is fits. -/
def SessionOp.Fits (channels : Nat) (op : SessionOp α M) : Prop :=
  ∀ c, op = .processFrame c → c.Fits channels

omit [Sample α] in
theorem SessionOp.fits_calls {channels : Nat} {calls : List (Call α)}
    (h : ∀ c ∈ calls, c.Fits channels) (op : SessionOp α M) (hop : op ∈ calls.map .processFrame) :
    op.Fits channels := by
  intro c hc
  obtain ⟨c', hmem, rfl⟩ := List.mem_map.mp hop
  cases hc
  exact h c hmem

namespace Session

variable {api : Denoisers α R M} {clock : Nat → α} {s s' : Session α R M} {channels : Nat}
  {c : Call α}

/-- The call is answered with silence, or with the next samples of the denoised stream. -/
def Answers (api : Denoisers α R M) (clock : Nat → α) (channels : Nat) (s : Session α R M)
    (c : Call α) : Prop :=
  ∀ s', s.step api clock (.processFrame c) = some s' →
    (frames channels c.numFrames (s.output api clock c) =
        List.replicate c.numFrames (List.replicate channels 0) ∧
      s'.delivered = s.delivered) ∨
    (s.delivered.length + c.numFrames ≤ s'.stream.output.length ∧
      frames channels c.numFrames (s.output api clock c) =
        (s'.stream.output.slice s.delivered.length c.numFrames).map (toFrame channels) ∧
      s'.delivered = s.delivered ++ frames channels c.numFrames (s.output api clock c))

/-- The engine tracks the transducer on the means of the frames, and what was delivered is
    the beginning of its output. -/
structure Faithful (channels : Nat) (s : Session α R M) : Prop where
  stream : s.engine.Stream channels s.stream s.delivered.length
  delivered : s.delivered = (s.stream.output.take s.delivered.length).map (toFrame channels)

theorem Faithful.start {e : Engine α R M} {format : AudioFormat} {created : Option R}
    {found : Option (LoadOutcome M)} (hinit : (e.init format created found).1 = true) :
    (start (e.init format created found).2).Faithful format.channels where
  stream := e.stream_init format created found hinit
  delivered := rfl

/-- The stream after a call. -/
def fedBy (api : Denoisers α R M) (clock : Nat → α) (channels : Nat) (s : Session α R M)
    (c : Call α) : Blocks.Feed (Engine α R M) α α :=
  Engine.fed api clock s.stream ((List.range c.numFrames).map (frameMean channels c.input))

/-- A call that fits, up to its answer. -/
theorem Faithful.accepted (h : s.Faithful channels) (api : Denoisers α R M) (clock : Nat → α)
    {c : Call α} (hc : c.Fits channels) :
    (s.engine.accepted api (s.clockFrom clock) c.input c.numFrames).Stream channels
      (s.fedBy api clock channels c) s.delivered.length := by
  have hacc := h.stream.accepted api clock c.input c.numFrames
  rw [Engine.map_monoSample (Nat.le_of_lt hc)] at hacc
  exact hacc

/-- An answer with audio is the next piece of the denoised stream. -/
theorem Faithful.frames_audio (h : s.Faithful channels) {c : Call α} (hc : c.Fits channels)
    (haudio : s.answersAudio api clock c = true) :
    s.delivered.length + c.numFrames ≤ (s.fedBy api clock channels c).output.length ∧
      frames channels c.numFrames (s.output api clock c) =
        ((s.fedBy api clock channels c).output.slice s.delivered.length c.numFrames).map
          (toFrame channels) := by
  have hacc := h.accepted api clock hc
  -- the chunks denoised by now reach past the answer
  have hle := (hacc.advance haudio).emitted_le
  have hchannels := hacc.live.channels
  refine ⟨hle, ?_⟩
  rw [List.slice_eq_map_range 0 hle, List.map_map, frames]
  apply List.map_congr_left
  intro i hi
  rw [List.mem_range] at hi
  simp only [Function.comp, toFrame, ← hacc.getD_output]
  -- each channel gets the same sample
  apply List.ext_getElem
  · rw [List.length_map, List.length_range, List.length_replicate]
  intro ch hch _
  rw [List.length_map, List.length_range] at hch
  rw [List.getElem_map, List.getElem_range, List.getElem_replicate]
  unfold output
  unfold answersAudio at haudio
  rw [h.stream.live.processFrame, if_pos haudio]
  subst hchannels
  exact Engine.writeFrames_apply _ _ (Nat.le_of_lt hc) hi hch

/-- A silent answer is all zero. -/
theorem Faithful.frames_silent (h : s.Faithful channels) {c : Call α} (hc : c.Fits channels)
    (hsilent : s.answersAudio api clock c = false) :
    frames channels c.numFrames (s.output api clock c) =
      List.replicate c.numFrames (List.replicate channels 0) := by
  have hchannels := (h.accepted api clock hc).live.channels
  rw [frames, List.eq_replicate_iff, List.length_map, List.length_range]
  refine ⟨rfl, ?_⟩
  intro frame hframe
  obtain ⟨i, hi, rfl⟩ := List.mem_map.mp hframe
  rw [List.mem_range] at hi
  rw [List.eq_replicate_iff, List.length_map, List.length_range]
  refine ⟨rfl, ?_⟩
  intro x hx
  obtain ⟨ch, hch, rfl⟩ := List.mem_map.mp hx
  rw [List.mem_range] at hch
  unfold output
  unfold answersAudio at hsilent
  rw [h.stream.live.processFrame, if_neg (by rw [hsilent]; exact Bool.false_ne_true)]
  subst hchannels
  exact Engine.writeSilence_apply _ _ hc hi hch

/-- What was delivered stays the beginning of the stream when the stream grows. -/
theorem Faithful.delivered_fedBy (h : s.Faithful channels) (api : Denoisers α R M)
    (clock : Nat → α) (c : Call α) :
    s.delivered =
      ((s.fedBy api clock channels c).output.take s.delivered.length).map (toFrame channels) := by
  have hgrow : s.stream.output <+: (s.fedBy api clock channels c).output :=
    Blocks.output_le_feed s.stream _
  obtain ⟨fresh, hfresh⟩ := hgrow
  rw [← hfresh, List.take_append_of_le_length h.stream.emitted_le]
  exact h.delivered

/-- The session after a call. -/
theorem step_call (hstep : s.step api clock (.processFrame c) = some s') :
    s'.engine = (s.engine.processFrame api (s.clockFrom clock) c.input c.output c.numFrames).2.2 ∧
      s'.stream = s.fedBy api clock s.engine.channels c ∧
      s'.delivered =
        if s.answersAudio api clock c then
          s.delivered ++ frames s.engine.channels c.numFrames (s.output api clock c)
        else s.delivered := by
  cases hstep
  exact ⟨rfl, rfl, rfl⟩

/-- A call that fits is answered with silence or with the next samples, and what was
    delivered stays the beginning of the stream. -/
theorem Faithful.call (h : s.Faithful channels) {c : Call α} (hc : c.Fits channels)
    (hstep : s.step api clock (.processFrame c) = some s') :
    s'.Faithful channels ∧ s'.stream = s.fedBy api clock channels c := by
  have hchannels := h.stream.live.channels
  have hnext : (s.engine.processFrame api (s.clockFrom clock) c.input c.output
      c.numFrames).2.2.Stream channels (s.fedBy api clock channels c)
      (if s.answersAudio api clock c then s.delivered.length + c.numFrames
        else s.delivered.length) := by
    have hcall := h.stream.processFrame api clock c.input c.output c.numFrames
    rw [Engine.map_monoSample (Nat.le_of_lt hc)] at hcall
    exact hcall
  obtain ⟨hengine, hstream, hdelivered⟩ := step_call hstep
  rw [hchannels] at hstream hdelivered
  refine ⟨?_, hstream⟩
  -- silence delivers nothing, audio the next `num_frames` frames
  cases haudio : s.answersAudio api clock c with
  | false =>
    rw [haudio, if_neg Bool.false_ne_true] at hnext hdelivered
    constructor
    · rw [hengine, hstream, hdelivered]
      exact hnext
    · rw [hstream, hdelivered]
      exact h.delivered_fedBy api clock c
  | true =>
    obtain ⟨_, hframes⟩ := h.frames_audio hc haudio
    rw [haudio, if_pos rfl] at hnext hdelivered
    have hlength : s'.delivered.length = s.delivered.length + c.numFrames := by
      rw [hdelivered, List.length_append, length_frames]
    constructor
    · rw [hengine, hstream, hlength]
      exact hnext
    · rw [hlength, hstream, List.take_add, List.map_append, ← h.delivered_fedBy api clock c,
        hdelivered, hframes]
      rfl

theorem Faithful.answers (h : s.Faithful channels) {c : Call α} (hc : c.Fits channels) :
    s.Answers api clock channels c := by
  intro s' hstep
  have hchannels := h.stream.live.channels
  obtain ⟨_, hstream, hdelivered⟩ := step_call hstep
  rw [hchannels] at hstream hdelivered
  cases haudio : s.answersAudio api clock c with
  | false =>
    left
    rw [haudio, if_neg Bool.false_ne_true] at hdelivered
    exact ⟨h.frames_silent hc haudio, hdelivered⟩
  | true =>
    right
    rw [haudio, if_pos rfl] at hdelivered
    obtain ⟨hle, hframes⟩ := h.frames_audio hc haudio
    rw [hstream]
    exact ⟨hle, hframes, hdelivered⟩

/-- Every step of a session whose calls fit. -/
theorem Faithful.step {op : SessionOp α M} (h : s.Faithful channels) (hop : op.Fits channels)
    (hstep : s.step api clock op = some s') : s'.Faithful channels := by
  rcases step_cases hstep with ⟨c, rfl, _⟩ | ⟨_, f, hf, rfl⟩
  · exact (h.call (hop c rfl) hstep).1
  · exact ⟨h.stream.setting hf, h.delivered⟩

theorem Faithful.run {ops : List (SessionOp α M)} (h : s.Faithful channels)
    (hops : ∀ op ∈ ops, op.Fits channels)
    (hrun : Machine.run (Session.step api clock) s ops = some s') : s'.Faithful channels :=
  Machine.run_invariant (fun op : SessionOp α M => op.Fits channels) (Faithful channels)
    (fun _ _ _ hop h hstep => h.step hop hstep) h hops hrun

/-- A run of calls feeds the means of their frames, in order. -/
theorem Faithful.run_calls {calls : List (Call α)} (h : s.Faithful channels)
    (hcalls : ∀ c ∈ calls, c.Fits channels)
    (hrun : Machine.run (Session.step api clock) s (calls.map .processFrame) = some s') :
    s'.stream = Engine.fed api clock s.stream
      ((calls.flatMap fun c => frames channels c.numFrames c.input).map (mean channels)) := by
  -- the stream is a function of the frames alone, however they were cut into calls
  induction calls generalizing s with
  | nil =>
    cases hrun
    exact (Blocks.feed_nil _).symm
  | cons c calls ih =>
    obtain ⟨s₁, hstep, hrest⟩ := Machine.run_cons_some hrun
    obtain ⟨hnext, hstream⟩ := h.call (hcalls c List.mem_cons_self) hstep
    rw [ih hnext (fun c' hc' => hcalls c' (List.mem_cons_of_mem _ hc')) hrest, hstream]
    rw [List.flatMap_cons, List.map_append, ← map_frameMean]
    exact Blocks.feed_append s.stream _ _

/-- The frames given in are the ones delivered, the ones in the output buffer and the ones in
    the input buffer. -/
theorem Faithful.conserved (h : s.Faithful channels) :
    s.stream.input.length = s.delivered.length +
      (s.engine.outputBuffer.length - s.engine.outputReadPos) + s.engine.inputBuffer.length := by
  have havail := h.stream.available_eq
  -- whole chunks were denoised, the rest waits in the input buffer
  have hdiv := Nat.div_add_mod s.stream.input.length DENOISE_FRAME_SIZE
  have hemitted := h.stream.emitted_le
  rw [h.stream.length] at hemitted
  simp only [Engine.available, Prefill.Level.available, Engine.level] at havail
  rw [h.stream.input, List.length_drop, havail]
  omega

/-- The chunks that were denoised and the samples in the input buffer make up the input. -/
theorem Faithful.chunks (h : s.Faithful channels) :
    (List.range (s.stream.output.length / DENOISE_FRAME_SIZE)).flatMap
        (fun k => s.stream.input.slice (DENOISE_FRAME_SIZE * k) DENOISE_FRAME_SIZE) ++
      s.engine.inputBuffer = s.stream.input := by
  rw [List.flatMap_slice_range, h.stream.length,
    Nat.mul_div_cancel_left _ (show 0 < DENOISE_FRAME_SIZE by decide), h.stream.input,
    List.take_append_drop]

/-- Two sessions with the same stream delivered beginnings of the same frames. -/
theorem Faithful.delivered_comparable (h : s.Faithful channels) (h' : s'.Faithful channels)
    (hstream : s.stream = s'.stream) :
    s.delivered <+: s'.delivered ∨ s'.delivered <+: s.delivered := by
  rw [h.delivered, h'.delivered, hstream]
  rcases Nat.le_total s.delivered.length s'.delivered.length with hle | hle
  · left
    exact (List.take_prefix_take_left hle).map _
  · right
    exact (List.take_prefix_take_left hle).map _

end Session

/-- The engine delivers the denoised stream. In every session in which the samples of each
    call number less than `2 ^ 32`: no frame is lost between input, buffers and output; each
    sample enters exactly one chunk; what was delivered is the beginning of the denoised
    stream; each call is answered with silence or with the next samples. Two ways of cutting
    the same frames into calls have the same denoised stream, and one delivers the beginning
    of what the other does. -/
theorem process_frame_delivers (api : Denoisers α R M) (clock : Nat → α) (e : Engine α R M)
    (format : AudioFormat) (created : Option R) (found : Option (LoadOutcome M))
    (hinit : (e.init format created found).1 = true) :
    (∀ (ops : List (SessionOp α M)) (s : Session α R M),
      (∀ op ∈ ops, op.Fits format.channels) →
      Machine.run (Session.step api clock) (Session.start (e.init format created found).2) ops =
        some s →
      s.stream.input.length = s.delivered.length +
        (s.engine.outputBuffer.length - s.engine.outputReadPos) + s.engine.inputBuffer.length ∧
      (List.range (s.stream.output.length / 480)).flatMap
          (fun k => s.stream.input.slice (480 * k) 480) ++ s.engine.inputBuffer =
        s.stream.input ∧
      s.delivered =
        (s.stream.output.take s.delivered.length).map (toFrame format.channels) ∧
      ∀ c : Call α, c.Fits format.channels →
        (s.engine.processFrame api (s.clockFrom clock) c.input c.output c.numFrames).1 = true ∧
        s.Answers api clock format.channels c) ∧
    ∀ (calls calls' : List (Call α)) (s s' : Session α R M),
      (∀ c ∈ calls ++ calls', c.Fits format.channels) →
      calls.flatMap (fun c => frames format.channels c.numFrames c.input) =
        calls'.flatMap (fun c => frames format.channels c.numFrames c.input) →
      Machine.run (Session.step api clock) (Session.start (e.init format created found).2)
        (calls.map .processFrame) = some s →
      Machine.run (Session.step api clock) (Session.start (e.init format created found).2)
        (calls'.map .processFrame) = some s' →
      s.stream.input = (calls.flatMap fun c =>
        frames format.channels c.numFrames c.input).map (mean format.channels) ∧
      s.stream.output = (Blocks.scan (Engine.transduce api clock) 480 s.stream.input
        (s.stream.input.length / 480) 0 (e.init format created found).2.core).1 ∧
      s'.stream = s.stream ∧
      (s.delivered <+: s'.delivered ∨ s'.delivered <+: s.delivered) := by
  have hstart := Session.Faithful.start hinit
  constructor
  · intro ops s hops hrun
    have h := hstart.run hops hrun
    refine ⟨h.conserved, h.chunks, h.delivered, ?_⟩
    intro c hc
    refine ⟨?_, h.answers hc⟩
    rw [h.stream.live.processFrame]
    split
    · rfl
    · rfl
  · intro calls calls' s s' hfits hframes hrun hrun'
    have hfit : ∀ c ∈ calls, c.Fits format.channels :=
      fun c hc => hfits c (List.mem_append_left _ hc)
    have hfit' : ∀ c ∈ calls', c.Fits format.channels :=
      fun c hc => hfits c (List.mem_append_right _ hc)
    have hstream := hstart.run_calls hfit hrun
    have hstream' := hstart.run_calls hfit' hrun'
    -- both sessions fed the same frames, so they have one stream
    have hsame : s'.stream = s.stream := by rw [hstream, hstream', hframes]
    have h := hstart.run (SessionOp.fits_calls hfit) hrun
    have h' := hstart.run (SessionOp.fits_calls hfit') hrun'
    refine ⟨by rw [hstream]; rfl, ?_, hsame, h.delivered_comparable h' hsame.symm⟩
    rw [hstream]
    simp only [Engine.fed, Blocks.Feed.feed, Session.start, List.nil_append, List.length_nil,
      Nat.zero_div, Nat.sub_zero]
    rfl

theorem frames_quietCall (channels n : Nat) :
    frames channels n (quietCall n).input = List.replicate n (List.replicate channels 0) := by
  rw [frames, List.eq_replicate_iff, List.length_map, List.length_range]
  refine ⟨rfl, ?_⟩
  intro frame hframe
  obtain ⟨i, _, rfl⟩ := List.mem_map.mp hframe
  show (List.range channels).map (fun _ => (0 : ℚ)) = _
  rw [List.map_const', List.length_range]

/-- Three calls of 480 frames and two calls of 720 frames. -/
theorem process_frame_delivers_stereo :
    ∃ s s', Machine.run (Session.step identityDenoisers fun _ => 0) stereoSession
        ((List.replicate 3 (quietCall 480)).map .processFrame) = some s ∧
      Machine.run (Session.step identityDenoisers fun _ => 0) stereoSession
        ((List.replicate 2 (quietCall 720)).map .processFrame) = some s' ∧
      s.delivered = (s.stream.output.take s.delivered.length).map (toFrame 2) ∧
      (s.delivered <+: s'.delivered ∨ s'.delivered <+: s.delivered) := by
  obtain ⟨s, hrun⟩ : ∃ s, Machine.run (Session.step identityDenoisers fun _ => 0) stereoSession
    ((List.replicate 3 (quietCall 480)).map .processFrame) = some s := ⟨_, rfl⟩
  obtain ⟨s', hrun'⟩ : ∃ s', Machine.run (Session.step identityDenoisers fun _ => 0) stereoSession
    ((List.replicate 2 (quietCall 720)).map .processFrame) = some s' := ⟨_, rfl⟩
  have hfits : ∀ c ∈ List.replicate 3 (quietCall 480) ++ List.replicate 2 (quietCall 720),
      c.Fits 2 := by
    intro c hc
    rcases List.mem_append.mp hc with h | h
    · rw [List.eq_of_mem_replicate h]
      exact (by decide : 480 * 2 < 2 ^ 32)
    · rw [List.eq_of_mem_replicate h]
      exact (by decide : 720 * 2 < 2 ^ 32)
  -- the same 1440 frames, cut in two ways
  have hframes : (List.replicate 3 (quietCall 480)).flatMap
        (fun c => frames 2 c.numFrames c.input) =
      (List.replicate 2 (quietCall 720)).flatMap (fun c => frames 2 c.numFrames c.input) := by
    show frames 2 480 (quietCall 480).input ++ (frames 2 480 (quietCall 480).input ++
        (frames 2 480 (quietCall 480).input ++ [])) =
      frames 2 720 (quietCall 720).input ++ (frames 2 720 (quietCall 720).input ++ [])
    rw [frames_quietCall, frames_quietCall, List.append_nil, List.append_nil,
      List.replicate_append_replicate, List.replicate_append_replicate,
      List.replicate_append_replicate]
  obtain ⟨hall, hsplit⟩ := process_frame_delivers identityDenoisers (fun _ => 0) Engine.new
    stereo48k (some ()) none rfl
  have hs := hall _ s (SessionOp.fits_calls fun c hc => hfits c (List.mem_append_left _ hc)) hrun
  exact ⟨s, s', hrun, hrun', hs.2.2.1, (hsplit _ _ s s' hfits hframes hrun hrun').2.2.2⟩

namespace Session

variable {api : Denoisers α R M} {clock : Nat → α} {s : Session α R M} {channels : Nat} {c : Call α}

/-- A silent answer leaves what lies behind the wrapped size. -/
theorem Tracks.output_silent (h : s.Tracks channels)
    (hsilent : s.answersAudio api clock c = false) {a : Nat}
    (ha : u32 (c.numFrames * channels) ≤ a) : s.output api clock c a = c.output a := by
  obtain ⟨t, hstream, hlen⟩ := h
  have hacc := hstream.accepted api clock c.input c.numFrames
  rw [hlen] at hacc
  have hchannels : (s.engine.accepted api (s.clockFrom clock) c.input c.numFrames).channels =
      channels := hacc.live.channels
  unfold output
  unfold answersAudio at hsilent
  rw [hstream.live.processFrame, if_neg (by rw [hsilent]; exact Bool.false_ne_true)]
  simp only [Engine.writeSilence, hchannels]
  rw [if_neg (by omega)]

/-- When the size of a silent call wraps, a sample that was not zero before stays. -/
theorem Tracks.not_answers (h : s.Tracks channels)
    (hsilent : s.answersAudio api clock c = false) {i ch : Nat} (hi : i < c.numFrames)
    (hch : ch < channels) (hwrap : u32 (c.numFrames * channels) ≤ i * channels + ch)
    (hne : c.output (i * channels + ch) ≠ 0) : ¬ s.Answers api clock channels c := by
  intro hanswers
  obtain ⟨s', hstep⟩ : ∃ s', s.step api clock (.processFrame c) = some s' := ⟨_, rfl⟩
  obtain ⟨_, _, hdelivered⟩ := step_call hstep
  rw [hsilent, if_neg Bool.false_ne_true] at hdelivered
  -- an audio answer would deliver frames, and this one delivers none
  rcases hanswers s' hstep with ⟨hzero, _⟩ | ⟨_, _, hmore⟩
  · have hframe : (List.range channels).map (fun ch => s.output api clock c (i * channels + ch)) ∈
        frames channels c.numFrames (s.output api clock c) :=
      List.mem_map.mpr ⟨i, List.mem_range.mpr hi, rfl⟩
    have hsample : s.output api clock c (i * channels + ch) ∈
        (List.range channels).map (fun ch => s.output api clock c (i * channels + ch)) :=
      List.mem_map.mpr ⟨ch, List.mem_range.mpr hch, rfl⟩
    rw [hzero] at hframe
    rw [List.eq_of_mem_replicate hframe] at hsample
    have hcleared := List.eq_of_mem_replicate hsample
    rw [h.output_silent hsilent hwrap] at hcleared
    exact hne hcleared
  · rw [hdelivered] at hmore
    have hlen := congrArg List.length hmore
    rw [List.length_append, length_frames] at hlen
    omega

end Session

/-- A call of `2 ^ 31` stereo frames: the silent answer clears no sample, since
    `num_frames * channels` is zero in 32 bits. -/
theorem process_frame_wraps :
    ¬ stereoSession.Answers identityDenoisers (fun _ => 0) 2 (quietCall (2 ^ 31)) := by
  have hinit : ((Engine.new : Engine ℚ Unit Unit).init stereo48k (some ()) none).1 = true := rfl
  have htracks : stereoSession.Tracks 2 := Session.tracks_start hinit
  have hlevel : stereoSession.level = { accepted := 0, emitted := 0, started := false } :=
    Session.level_start hinit
  have hsilent : stereoSession.answersAudio identityDenoisers (fun _ => 0)
      (quietCall (2 ^ 31)) = false := by
    rw [htracks.answersAudio_eq, hlevel]
    decide
  exact htracks.not_answers hsilent (i := 0) (Nat.two_pow_pos 31) (Nat.zero_lt_two)
    (Nat.zero_le _) one_ne_zero

end Noise
