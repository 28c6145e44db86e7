import NoiseAI.Spec.EngineStream
import Mathlib.Data.List.Basic

/-!
# Sessions: the engine from one reset to the next

A session is a run of `process_frame` calls after a successful `init`, with changes of
the settings between them that reset nothing. `Session` records beside the engine what
an observer sees: the frames given in, the frames delivered as audio, and how many were
answered with silence. `Session.stream` is the transducer of `EngineStream` on the
means of the frames given in.

The output of a call is memory, and its size `num_frames * channels` is computed in 32
bits. `Call.Fits` says that the product does not wrap.
-/

namespace Noise

variable {α R M : Type} [Sample α]

/-- One call of `process_frame`; `output` is what the output buffer holds before. -/
structure Call (α : Type) where
  input : Nat → α
  output : Nat → α
  numFrames : Nat

/-- The `num_frames * channels` samples of a call have an index below `2 ^ 32`. -/
def Call.Fits (c : Call α) (channels : Nat) : Prop := c.numFrames * channels < 2 ^ 32

/-- The mean of frame `i` of an interleaved buffer. -/
def frameMean (channels : Nat) (input : Nat → α) (i : Nat) : α :=
  (List.range channels).foldl (fun acc ch => acc + input (i * channels + ch)) 0 / (channels : α)

/-- The first `numFrames` frames of an interleaved buffer. -/
def frames (channels numFrames : Nat) (buffer : Nat → α) : List (List α) :=
  (List.range numFrames).map fun i => (List.range channels).map fun ch => buffer (i * channels + ch)

/-- A sample of the denoised stream as a frame: clamped, on every channel. -/
def toFrame (channels : Nat) (sample : α) : List α := List.replicate channels (clamp sample)

/-! ## Interleaved memory -/

omit [Sample α] in
/-- Stereo memory, frame by frame. -/
theorem flatten_frames (n : Nat) (output : Nat → α) :
    (frames 2 n output).flatten = (List.range (n * 2)).map output := by
  induction n with
  | zero => rfl
  | succ n ih =>
    have hframes : frames 2 (n + 1) output =
        frames 2 n output ++ [[output (n * 2), output (n * 2 + 1)]] := by
      unfold frames
      rw [List.range_succ (n := n), List.map_append]
      rfl
    rw [hframes, List.flatten_append, ih, Nat.succ_mul, List.range_add, List.map_append]
    rfl

/-- A 32-bit index of a frame of a call that fits is the index. -/
theorem u32_index {channels n i ch : Nat} (hfits : n * channels ≤ 2 ^ 32) (hi : i < n)
    (hch : ch < channels) : u32 (i * channels + ch) = i * channels + ch := by
  apply u32_of_lt
  have hle : (i + 1) * channels ≤ n * channels := Nat.mul_le_mul_right _ hi
  rw [Nat.add_mul, Nat.one_mul] at hle
  omega

omit [Sample α] in
/-- The stores of one value to the addresses `f 0, …, f (m - 1)`. -/
theorem foldl_update_apply (f : Nat → Nat) (x : α) (m : Nat) (buffer : Nat → α) (a : Nat) :
    (List.range m).foldl (fun buffer ch => Function.update buffer (f ch) x) buffer a =
      if ∃ ch, ch < m ∧ f ch = a then x else buffer a := by
  induction m with
  | zero => simp
  | succ m ih =>
    rw [List.range_succ, List.foldl_append]
    simp only [List.foldl_cons, List.foldl_nil]
    by_cases hlast : f m = a
    · rw [if_pos ⟨m, Nat.lt_succ_self m, hlast⟩, ← hlast, Function.update_self]
    · rw [Function.update_of_ne (Ne.symm hlast), ih]
      congr 1
      apply propext
      constructor
      · intro ⟨ch, hch, heq⟩
        exact ⟨ch, by omega, heq⟩
      · intro ⟨ch, hch, heq⟩
        have hne : ch ≠ m := by
          intro h
          rw [h] at heq
          exact hlast heq
        exact ⟨ch, by omega, heq⟩

namespace Engine

/-- Step 3 stores sample `i` on every channel of frame `i`. -/
theorem writeFrames_apply (e : Engine α R M) {n i ch : Nat} (output : Nat → α)
    (hfits : n * e.channels ≤ 2 ^ 32) (hi : i < n) (hch : ch < e.channels) :
    e.writeFrames n output (i * e.channels + ch) =
      clamp (e.outputBuffer.getD (e.outputReadPos + i) 0) := by
  -- the first `m` frames, as far as they contain frame `i`
  have hfirst : ∀ m, m ≤ n → i < m → e.writeFrames m output (i * e.channels + ch) =
      clamp (e.outputBuffer.getD (e.outputReadPos + i) 0) := by
    intro m
    induction m with
    | zero =>
      intro _ hlt
      exact absurd hlt (Nat.not_lt_zero i)
    | succ m ih =>
      intro hm hlt
      unfold writeFrames at ih ⊢
      rw [List.range_succ, List.foldl_append]
      simp only [List.foldl_cons, List.foldl_nil]
      rw [foldl_update_apply (fun ch => u32 (m * e.channels + ch))]
      split
      · rename_i hhit
        obtain ⟨ch', hch', haddr⟩ := hhit
        rw [u32_index hfits (by omega) hch'] at haddr
        have him : i = m := by
          have hdiv := congrArg (· / e.channels) haddr
          simp only [Nat.mul_comm _ e.channels] at hdiv
          rw [Nat.mul_add_div (by omega), Nat.mul_add_div (by omega), Nat.div_eq_of_lt hch,
            Nat.div_eq_of_lt hch'] at hdiv
          omega
        rw [him]
      · rename_i hmiss
        have hne : i ≠ m := by
          intro him
          apply hmiss
          exact ⟨ch, hch, by rw [u32_index hfits (by omega) hch, him]⟩
        exact ih (by omega) (by omega)
  exact hfirst n (Nat.le_refl n) hi

/-- The silent answer clears every sample of a call that fits. -/
theorem writeSilence_apply (e : Engine α R M) {n i ch : Nat} (output : Nat → α)
    (hfits : n * e.channels < 2 ^ 32) (hi : i < n) (hch : ch < e.channels) :
    e.writeSilence n output (i * e.channels + ch) = 0 := by
  have hle : (i + 1) * e.channels ≤ n * e.channels := Nat.mul_le_mul_right _ hi
  rw [Nat.add_mul, Nat.one_mul] at hle
  unfold writeSilence
  rw [u32_of_lt hfits, if_pos (by omega)]

/-- Without a wrap the mono samples of a call are the means of its frames. -/
theorem map_monoSample {channels n : Nat} (hfits : n * channels ≤ 2 ^ 32) (input : Nat → α) :
    (List.range n).map (monoSample channels input) =
      (List.range n).map (frameMean channels input) := by
  apply List.map_congr_left
  intro i hi
  rw [List.mem_range] at hi
  unfold monoSample frameMean
  congr 1
  apply List.foldl_ext
  intro acc ch hch
  rw [List.mem_range] at hch
  rw [u32_index hfits hi hch]

end Engine

/-! ## Sessions -/

/-- What can happen between two resets. -/
inductive SessionOp (α M : Type) where
  | processFrame (call : Call α)
  | setDryMix (mix : α)
  | setAttenuationLimit (db : α)
  -- enabled only if it keeps the mode
  | setMode (mode : NoiseMode)
  | loadDeepfilterModel (file : Option (LoadOutcome M))

/-- Every call that `op` is has a size that `P` allows. -/
def SessionOp.Sized (P : Nat → Prop) (op : SessionOp α M) : Prop :=
  ∀ c, op = .processFrame c → P c.numFrames

structure Session (α R M : Type) where
  engine : Engine α R M
  stream : Blocks.Feed (Engine α R M) α α
  delivered : List (List α)
  silent : Nat

namespace Session

/-- Right after a reset. -/
def start (e : Engine α R M) : Session α R M where
  engine := e
  stream := { state := e.core, input := [], output := [] }
  delivered := []
  silent := 0

/-- The times of the chunks from the next one on. -/
def clockFrom (clock : Nat → α) (s : Session α R M) (i : Nat) : α :=
  clock (s.stream.input.length / DENOISE_FRAME_SIZE + i)

/-- The next call is answered with audio. -/
def answersAudio (api : Denoisers α R M) (clock : Nat → α) (s : Session α R M) (c : Call α) :
    Bool :=
  s.engine.answersAudio api (s.clockFrom clock) c.input c.numFrames

/-- The output buffer after a call. -/
def output (api : Denoisers α R M) (clock : Nat → α) (s : Session α R M) (c : Call α) : Nat → α :=
  (s.engine.processFrame api (s.clockFrom clock) c.input c.output c.numFrames).2.1

/-- Change the settings of the engine, and so of the transducer. -/
def configure (s : Session α R M) (f : Engine α R M → Engine α R M) : Session α R M :=
  { s with engine := f s.engine, stream := { s.stream with state := f s.stream.state } }

def step (api : Denoisers α R M) (clock : Nat → α) (s : Session α R M) :
    SessionOp α M → Option (Session α R M)
  | .processFrame c =>
    let answer := frames s.engine.channels c.numFrames (s.output api clock c)
    let means := (List.range c.numFrames).map (frameMean s.engine.channels c.input)
    some
      { engine :=
          (s.engine.processFrame api (s.clockFrom clock) c.input c.output c.numFrames).2.2
        stream := Engine.fed api clock s.stream means
        delivered :=
          if s.answersAudio api clock c then s.delivered ++ answer else s.delivered
        silent := if s.answersAudio api clock c then s.silent else s.silent + c.numFrames }
  | .setDryMix mix => some (s.configure (·.setDryMix mix))
  | .setAttenuationLimit db => some (s.configure (·.setAttenuationLimit db))
  | .setMode mode =>
    if s.engine.mode = mode then some { s with engine := s.engine.setMode mode } else none
  | .loadDeepfilterModel file => some (s.configure fun e => (e.loadDeepfilterModelFrom file).2)

end Session

/-! ## Settings -/

namespace Engine

/-- `f` touches neither the buffers nor what a session needs of the engine. -/
structure Setting (f : Engine α R M → Engine α R M) : Prop where
  withBuffers : ∀ e input output readPos started,
    f (e.withBuffers input output readPos started) =
      (f e).withBuffers input output readPos started
  live : ∀ {e channels}, Live channels e → Live channels (f e)

omit [Sample α] in
theorem Setting.setDryMix (mix : α) : Setting fun e : Engine α R M => e.setDryMix mix where
  withBuffers := fun _ _ _ _ _ => rfl
  live := fun h => ⟨h.running, h.denoiser, h.channels⟩

theorem Setting.applyAttenuationForMode :
    Setting fun e : Engine α R M => e.applyAttenuationForMode where
  withBuffers := by
    intro e input output readPos started
    have hloaded : (e.withBuffers input output readPos started).deepfilterLoaded =
        e.deepfilterLoaded := rfl
    unfold Engine.applyAttenuationForMode
    rw [hloaded]
    split
    · rfl
    · rfl
  live := by
    intro e channels h
    unfold Engine.applyAttenuationForMode
    split
    · exact ⟨h.running, h.denoiser, h.channels⟩
    · exact h

theorem Setting.setAttenuationLimit (db : α) :
    Setting fun e : Engine α R M => e.setAttenuationLimit db where
  withBuffers := fun e input output readPos started =>
    Setting.applyAttenuationForMode.withBuffers { e with attenLimOverride := db } input output
      readPos started
  live := fun h =>
    Setting.applyAttenuationForMode.live ⟨h.running, h.denoiser, h.channels⟩

theorem Setting.loadDeepfilterModel (file : Option (LoadOutcome M)) :
    Setting fun e : Engine α R M => (e.loadDeepfilterModelFrom file).2 := by
  cases file with
  | none => exact ⟨fun _ _ _ _ _ => rfl, fun h => h⟩
  | some outcome =>
    constructor
    · intro e input output readPos started
      have hold : (e.withBuffers input output readPos started).deepfilter = e.deepfilter := rfl
      simp only [loadDeepfilterModelFrom, hold]
      split
      · exact Setting.applyAttenuationForMode.withBuffers
          { e with deepfilter := some ((e.deepfilter.getD .new).load outcome).2 } input output
          readPos started
      · rfl
    · intro e channels h
      have hlive : { e with
          deepfilter := some ((e.deepfilter.getD .new).load outcome).2 }.Live channels :=
        ⟨h.running, h.denoiser, h.channels⟩
      simp only [loadDeepfilterModelFrom]
      split
      · exact Setting.applyAttenuationForMode.live hlive
      · exact hlive

omit [Sample α] in
/-- A setting leaves the buffers as they are. -/
theorem Setting.eq_withBuffers {f : Engine α R M → Engine α R M} (hf : Setting f)
    (e : Engine α R M) :
    f e = (f e).withBuffers e.inputBuffer e.outputBuffer e.outputReadPos e.outputStarted :=
  hf.withBuffers e e.inputBuffer e.outputBuffer e.outputReadPos e.outputStarted

omit [Sample α] in
/-- The engine and the transducer take a setting alike. -/
theorem Stream.setting {f : Engine α R M → Engine α R M} (hf : Setting f) {channels emitted : Nat}
    {e : Engine α R M} {t : Blocks.Feed (Engine α R M) α α}
    (h : e.Stream channels t emitted) :
    (f e).Stream channels { t with state := f t.state } emitted := by
  have hlive := hf.live h.live
  have hstate : f t.state = (f e).core := by
    rw [h.state]
    exact hf.withBuffers e [] [] 0 false
  rw [hf.eq_withBuffers e] at hlive hstate ⊢
  exact ⟨hlive, hstate, h.input, h.output, h.length, h.emitted_le, h.readPos_le, h.compact,
    h.closed⟩

omit [Sample α] in
theorem Setting.level {f : Engine α R M → Engine α R M} (hf : Setting f) (e : Engine α R M)
    (t t' : Blocks.Feed (Engine α R M) α α) (emitted : Nat) (hinput : t'.input = t.input) :
    (f e).level t' emitted = e.level t emitted := by
  rw [hf.eq_withBuffers e]
  unfold Engine.level
  rw [hinput]
  rfl

end Engine

/-! ## Steps of a session -/

namespace Session

variable {api : Denoisers α R M} {clock : Nat → α} {s s' : Session α R M}

/-- What a step can do: answer a call, or take a setting. -/
theorem step_cases {op : SessionOp α M} (h : s.step api clock op = some s') :
    (∃ c, op = .processFrame c ∧
      s' =
        { engine :=
            (s.engine.processFrame api (s.clockFrom clock) c.input c.output c.numFrames).2.2
          stream := Engine.fed api clock s.stream
            ((List.range c.numFrames).map (frameMean s.engine.channels c.input))
          delivered :=
            if s.answersAudio api clock c then
              s.delivered ++ frames s.engine.channels c.numFrames (s.output api clock c)
            else s.delivered
          silent :=
            if s.answersAudio api clock c then s.silent else s.silent + c.numFrames }) ∨
    (∀ c, op ≠ .processFrame c) ∧ ∃ f, Engine.Setting f ∧ s' = s.configure f := by
  cases op with
  | processFrame c =>
    left
    exact ⟨c, rfl, (Option.some.inj h).symm⟩
  | setDryMix mix =>
    right
    exact ⟨fun _ => nofun, _, .setDryMix mix, (Option.some.inj h).symm⟩
  | setAttenuationLimit db =>
    right
    exact ⟨fun _ => nofun, _, .setAttenuationLimit db, (Option.some.inj h).symm⟩
  | setMode mode =>
    simp only [step] at h
    split at h
    · -- only the mode that the engine is in may be set, which does nothing
      rename_i hmode
      right
      refine ⟨fun _ => nofun, id, ⟨fun _ _ _ _ _ => rfl, fun h => h⟩, ?_⟩
      rw [← Option.some.inj h]
      unfold Engine.setMode configure
      rw [if_pos hmode]
      rfl
    · exact nomatch h
  | loadDeepfilterModel file =>
    right
    exact ⟨fun _ => nofun, _, .loadDeepfilterModel file, (Option.some.inj h).symm⟩

end Session

/-! ## The start of a session -/

theorem Engine.live_init (e : Engine α R M) (format : AudioFormat) (created : Option R)
    (found : Option (LoadOutcome M)) (h : (e.init format created found).1 = true) :
    (e.init format created found).2.Live format.channels := by
  cases created with
  | none => exact nomatch h
  | some state =>
    simp only [init, Option.isNone_some, Bool.false_eq_true, if_false]
    split
    · exact ⟨rfl, rfl, rfl⟩
    · cases found with
      | none => exact ⟨rfl, rfl, rfl⟩
      | some outcome =>
        simp only [loadDeepfilterModel]
        split
        · simp only [applyAttenuationForMode]
          split
          · exact ⟨rfl, rfl, rfl⟩
          · exact ⟨rfl, rfl, rfl⟩
        · exact ⟨rfl, rfl, rfl⟩

/-- A successful `init` starts a session with empty buffers. -/
theorem Engine.stream_init (e : Engine α R M) (format : AudioFormat) (created : Option R)
    (found : Option (LoadOutcome M)) (h : (e.init format created found).1 = true) :
    (e.init format created found).2.Stream format.channels
      (Session.start (e.init format created found).2).stream 0 := by
  have hlive := e.live_init format created found h
  cases created with
  | none => exact nomatch h
  | some state =>
    have hempty : 0 = DENOISE_FRAME_SIZE * (0 / DENOISE_FRAME_SIZE) := by decide
    exact ⟨hlive, rfl, List.drop_nil.symm, rfl, hempty, Nat.le_refl 0, Nat.le_refl 0,
      Nat.zero_le _, fun _ => rfl⟩

namespace Session

variable {api : Denoisers α R M} {clock : Nat → α} {s s' : Session α R M} {channels : Nat}

/-- The counts of a session. -/
def level (s : Session α R M) : Prefill.Level :=
  s.engine.level s.stream s.delivered.length

/-- The engine tracks a transducer that was fed as many samples as the session has frames.
    They are the means of the frames unless an index of a call wraps. -/
def Tracks (channels : Nat) (s : Session α R M) : Prop :=
  ∃ t, s.engine.Stream channels t s.delivered.length ∧ t.input.length = s.stream.input.length

omit [Sample α] in
theorem length_frames (channels numFrames : Nat) (buffer : Nat → α) :
    (frames channels numFrames buffer).length = numFrames := by
  rw [frames, List.length_map, List.length_range]

omit [Sample α] in
theorem level_eq {t : Blocks.Feed (Engine α R M) α α}
    (h : t.input.length = s.stream.input.length) :
    s.engine.level t s.delivered.length = s.level := by
  unfold level Engine.level
  rw [h]

theorem tracks_start {e : Engine α R M} {format : AudioFormat} {created : Option R}
    {found : Option (LoadOutcome M)} (hinit : (e.init format created found).1 = true) :
    (start (e.init format created found).2).Tracks format.channels :=
  ⟨_, e.stream_init format created found hinit, rfl⟩

theorem level_start {e : Engine α R M} {format : AudioFormat} {created : Option R}
    {found : Option (LoadOutcome M)} (hinit : (e.init format created found).1 = true) :
    (start (e.init format created found).2).level =
      { accepted := 0, emitted := 0, started := false } := by
  cases created with
  | none => exact nomatch hinit
  | some state => rfl

omit [Sample α] in
theorem Tracks.level_inv (h : s.Tracks channels) : s.level.Inv DENOISE_FRAME_SIZE := by
  obtain ⟨t, hstream, hlen⟩ := h
  rw [← level_eq hlen]
  exact hstream.level_inv

/-- The counts decide how a call is answered. -/
theorem Tracks.answersAudio_eq (h : s.Tracks channels) (api : Denoisers α R M) (clock : Nat → α)
    (c : Call α) :
    s.answersAudio api clock c =
      (s.level.accept DENOISE_FRAME_SIZE OUTPUT_PREFILL_SAMPLES c.numFrames).ready
        DENOISE_FRAME_SIZE c.numFrames := by
  obtain ⟨t, hstream, hlen⟩ := h
  unfold answersAudio clockFrom
  rw [← level_eq hlen, ← hlen]
  exact hstream.answersAudio_eq api clock c.input c.numFrames

/-- Every step of a session keeps the engine on track, moves its counts as the queue says and
    adds the silent frames up. -/
theorem Tracks.step {op : SessionOp α M} (h : s.Tracks channels)
    (hstep : s.step api clock op = some s') :
    s'.Tracks channels ∧
      ((∃ c, op = .processFrame c ∧
          s'.level = s.level.step DENOISE_FRAME_SIZE OUTPUT_PREFILL_SAMPLES c.numFrames ∧
          s'.silent =
            if s.answersAudio api clock c then s.silent else s.silent + c.numFrames) ∨
        (∀ c, op ≠ .processFrame c) ∧ s'.level = s.level ∧ s'.silent = s.silent) := by
  obtain ⟨t, hstream, hlen⟩ := h
  rcases step_cases hstep with ⟨c, rfl, rfl⟩ | ⟨hop, f, hf, rfl⟩
  -- the clock counts chunks of the whole stream, so a call goes on where the last one ended
  · have hclock : s.clockFrom clock =
        fun i => clock (t.input.length / DENOISE_FRAME_SIZE + i) := by
      unfold clockFrom
      rw [hlen]
    have hnext := hstream.processFrame api clock c.input c.output c.numFrames
    have hlevel :=
      hstream.level_processFrame api clock c.input c.output c.numFrames
    simp only [← hclock] at hnext hlevel
    let t' := Engine.fed api clock t
      ((List.range c.numFrames).map (Engine.monoSample channels c.input))
    -- only an answer with audio adds to what was delivered
    have hdelivered : (if s.answersAudio api clock c then
          s.delivered ++ frames s.engine.channels c.numFrames (s.output api clock c)
        else s.delivered).length =
        if s.engine.answersAudio api (s.clockFrom clock) c.input c.numFrames then
          s.delivered.length + c.numFrames else s.delivered.length := by
      unfold answersAudio
      split
      · rw [List.length_append, length_frames]
      · rfl
    have hinput : t'.input.length = (Engine.fed api clock s.stream
        ((List.range c.numFrames).map (frameMean s.engine.channels c.input))).input.length := by
      show (t.input ++ _).length = (s.stream.input ++ _).length
      rw [List.length_append, List.length_append, hlen, List.length_map, List.length_map]
    constructor
    · refine ⟨t', ?_, hinput⟩
      rw [hdelivered]
      exact hnext
    · left
      refine ⟨c, rfl, ?_, rfl⟩
      rw [← level_eq hlen, ← hlevel]
      unfold level Engine.level
      dsimp only
      rw [hdelivered, ← hinput]
  · constructor
    · exact ⟨{ t with state := f t.state }, hstream.setting hf, hlen⟩
    · right
      exact ⟨hop, hf.level s.engine s.stream _ _ rfl, rfl⟩

end Session

/-! ## A stereo engine on rational samples -/

/-- Denoisers that return the frame they get. -/
def identityDenoisers : Denoisers ℚ Unit Unit where
  rnnoiseProcessFrame := fun state frame =>
    ((List.range DENOISE_FRAME_SIZE).map fun i => frame.getD i 0, state)
  rnnoise_length := fun _ _ => by rw [List.length_map, List.length_range]
  sessionRun := fun _ _ _ frame states _ =>
    some ((List.range DENOISE_FRAME_SIZE).map fun i => frame.getD i 0, states)
  session_length := by
    intro m ins outs x states atten out states' h
    cases h
    rw [List.length_map, List.length_range]
  session_states := by
    intro m ins outs x states atten out states' h
    cases h
    rfl
  garbage := List.replicate DENOISE_FRAME_SIZE 0
  garbage_length := List.length_replicate

def stereo48k : AudioFormat := { sampleRate := 48000, channels := 2, framesPerBuffer := 480 }

/-- A call with silent input; the output buffer holds ones before. -/
def quietCall (numFrames : Nat) : Call ℚ where
  input := fun _ => 0
  output := fun _ => 1
  numFrames := numFrames

theorem sized_quietCall {P : Nat → Prop} {n : Nat} (h : P n) :
    (SessionOp.processFrame (quietCall n) : SessionOp ℚ Unit).Sized P := by
  intro c hc
  cases hc
  exact h

/-- A session of a new stereo engine with RNNoise. -/
def stereoSession : Session ℚ Unit Unit :=
  Session.start (Engine.new.init stereo48k (some ()) none).2

end Noise
