import NoiseAI.ForStd.Blocks
import NoiseAI.ForStd.Machine
import NoiseAI.ForStd.Prefill
import NoiseAI.Native.Engine

/-!
# What the engine buffers between two resets

Between two resets the engine is a block transducer behind a queue: `Feed` (the
transducer, fed with the mono samples of every call) says what the denoised stream
is, and `Stream` relates the two vectors, the read cursor and the prefill flag of the
engine to it. `Stream.processFrame` is the step lemma: a call feeds its mono samples
and then either emits the next samples or is silent, and `Level` (the counts of the
queue) decides which.
-/

namespace Noise

variable {α R M : Type} [Sample α]

open Prefill (Level)

namespace Engine

/-! ## The denoisers do not see the buffers -/

/-- The engine with other buffers, read cursor and prefill flag. -/
def withBuffers (e : Engine α R M) (input output : List α) (readPos : Nat) (started : Bool) :
    Engine α R M :=
  { e with
    inputBuffer := input
    outputBuffer := output
    outputReadPos := readPos
    outputStarted := started }

/-- The engine without what it has buffered. -/
def core (e : Engine α R M) : Engine α R M := e.withBuffers [] [] 0 false

variable (api : Denoisers α R M) (e : Engine α R M)

theorem infer_withBuffers (input output : List α) (readPos : Nat) (started : Bool)
    (chunk : List α) :
    (e.withBuffers input output readPos started).infer api chunk =
      ((e.infer api chunk).1, (e.infer api chunk).2.withBuffers input output readPos started) := by
  have huse : (e.withBuffers input output readPos started).useDeepfilter = e.useDeepfilter := rfl
  unfold infer
  rw [huse]
  split
  · cases hd : e.deepfilter with
    | none => simp only [withBuffers, hd]
    | some d => simp only [withBuffers, hd]; rfl
  · cases hr : e.rnnoiseState with
    | none => simp only [withBuffers, hr]
    | some r => simp only [withBuffers, hr]

theorem updateOverload_withBuffers (input output : List α) (readPos : Nat) (started : Bool)
    (elapsedMs : α) :
    (e.withBuffers input output readPos started).updateOverload elapsedMs =
      (e.updateOverload elapsedMs).withBuffers input output readPos started := by
  by_cases hslow : ((8 : Nat) : α) < elapsedMs
  · by_cases htrigger : OVERLOAD_TRIGGER_COUNT ≤ e.overloadCount + 1
    · simp only [updateOverload, withBuffers, hslow, htrigger, if_true]
    · simp only [updateOverload, withBuffers, hslow, htrigger, if_true, if_false]
  · simp only [updateOverload, withBuffers, hslow, if_false]

omit [Sample α] in
theorem leaveOverload_withBuffers (input output : List α) (readPos : Nat) (started : Bool) :
    (e.withBuffers input output readPos started).leaveOverload =
      e.leaveOverload.withBuffers input output readPos started := by
  cases hover : e.inOverload with
  | false => simp [leaveOverload, withBuffers, hover]
  | true => simp [leaveOverload, withBuffers, hover]

/-- Denoising a chunk neither reads nor writes the buffers. -/
theorem denoiseChunk_withBuffers (input output : List α) (readPos : Nat) (started : Bool)
    (elapsedMs : α) (chunk : List α) :
    (e.withBuffers input output readPos started).denoiseChunk api elapsedMs chunk =
      ((e.denoiseChunk api elapsedMs chunk).1,
        (e.denoiseChunk api elapsedMs chunk).2.withBuffers input output readPos started) := by
  have hin : (e.withBuffers input output readPos started).inOverload = e.inOverload := rfl
  have hcool : (e.withBuffers input output readPos started).overloadCooldown =
      e.overloadCooldown := rfl
  unfold denoiseChunk
  simp only [hin, hcool]
  split
  · rfl
  · simp only [leaveOverload_withBuffers, infer_withBuffers, updateOverload_withBuffers]

/-! ## What denoising a chunk leaves as it is -/

/-- The engine runs with `channels` channels and has a denoiser. -/
structure Live (channels : Nat) (e : Engine α R M) : Prop where
  running : e.status = .running
  denoiser : e.rnnoiseState.isSome = true
  channels : e.channels = channels

variable {e} {channels : Nat}

theorem Live.infer (h : e.Live channels) (chunk : List α) :
    (e.infer api chunk).2.Live channels := by
  unfold Engine.infer
  split
  · split
    · exact ⟨h.running, h.denoiser, h.channels⟩
    · exact h
  · split
    · exact ⟨h.running, rfl, h.channels⟩
    · exact h

theorem Live.updateOverload (h : e.Live channels) (elapsedMs : α) :
    (e.updateOverload elapsedMs).Live channels := by
  unfold Engine.updateOverload
  dsimp only
  split
  · split
    · exact ⟨h.running, h.denoiser, h.channels⟩
    · exact ⟨h.running, h.denoiser, h.channels⟩
  · exact ⟨h.running, h.denoiser, h.channels⟩

omit [Sample α] in
theorem Live.leaveOverload (h : e.Live channels) : e.leaveOverload.Live channels := by
  unfold Engine.leaveOverload
  split
  · exact ⟨h.running, h.denoiser, h.channels⟩
  · exact h

theorem Live.denoiseChunk (h : e.Live channels) (elapsedMs : α) (chunk : List α) :
    (e.denoiseChunk api elapsedMs chunk).2.Live channels := by
  unfold Engine.denoiseChunk
  split
  · exact ⟨h.running, h.denoiser, h.channels⟩
  · exact (h.leaveOverload.infer api chunk).updateOverload elapsedMs

/-- A chunk of 480 samples is turned into 480 samples. -/
theorem length_infer (e : Engine α R M) {chunk : List α}
    (h : chunk.length = DENOISE_FRAME_SIZE) :
    (e.infer api chunk).1.length = DENOISE_FRAME_SIZE := by
  unfold infer
  split
  · split
    · rename_i d hd
      have hout := d.processFrame_length api chunk
      simp only [dryWetMix]
      split
      · rw [List.length_zipWith, h, hout, Nat.min_self]
      · exact hout
    · exact api.garbage_length
  · split
    · rw [List.length_map]
      exact api.rnnoise_length _ _
    · exact api.garbage_length

theorem length_denoiseChunk (e : Engine α R M) (elapsedMs : α) {chunk : List α}
    (h : chunk.length = DENOISE_FRAME_SIZE) :
    (e.denoiseChunk api elapsedMs chunk).1.length = DENOISE_FRAME_SIZE := by
  unfold denoiseChunk
  split
  · exact h
  · exact length_infer api _ h

/-! ## The loop over complete chunks -/

/-- The engine as a block transducer; `clock k` is the time the inference of chunk `k`
    takes, counted from the last reset. -/
def transduce (api : Denoisers α R M) (clock : Nat → α) (e : Engine α R M) (k : Nat)
    (chunk : List α) : List α × Engine α R M :=
  e.denoiseChunk api (clock k) chunk

variable (clock : Nat → α)

theorem processChunks_of_lt (fuel j : Nat) {e : Engine α R M}
    (h : e.inputBuffer.length < DENOISE_FRAME_SIZE) : processChunks api clock fuel j e = e := by
  cases fuel with
  | zero => rfl
  | succ fuel => simp [processChunks, Nat.not_le_of_lt h]

theorem processChunks_succ (fuel j : Nat) {e : Engine α R M}
    (h : DENOISE_FRAME_SIZE ≤ e.inputBuffer.length) :
    processChunks api clock (fuel + 1) j e =
      processChunks api clock fuel (j + 1) (e.processMonoChunk api (clock j)) := by
  simp [processChunks, h]

/-- With `l` fed so far and chunk `start + j` the next one, the loop denoises the `n`
    complete chunks that are left and appends the results to the output buffer. -/
theorem processChunks_eq (l : List α) (start : Nat) {n fuel j : Nat} (hfuel : n ≤ fuel)
    (hn : start + j + n = l.length / DENOISE_FRAME_SIZE) (e : Engine α R M) (output : List α)
    (readPos : Nat) (started : Bool) :
    processChunks api (fun i => clock (start + i)) fuel j
        (e.withBuffers (l.drop (DENOISE_FRAME_SIZE * (start + j))) output readPos started) =
      (Blocks.scan (transduce api clock) DENOISE_FRAME_SIZE l n (start + j) e).2.withBuffers
        (l.drop (DENOISE_FRAME_SIZE * (l.length / DENOISE_FRAME_SIZE)))
        (output ++ (Blocks.scan (transduce api clock) DENOISE_FRAME_SIZE l n (start + j) e).1)
        readPos started := by
  have hsize : 0 < DENOISE_FRAME_SIZE := by decide
  have hdiv := Nat.div_add_mod l.length DENOISE_FRAME_SIZE
  have hmod := Nat.mod_lt l.length hsize
  -- one round of the loop is one step of the scan
  induction n generalizing fuel j e output with
  | zero =>
    have hj : start + j = l.length / DENOISE_FRAME_SIZE := by omega
    have hshort : (l.drop (DENOISE_FRAME_SIZE * (l.length / DENOISE_FRAME_SIZE))).length <
        DENOISE_FRAME_SIZE := by
      rw [List.length_drop]
      omega
    simp only [Blocks.scan, hj, List.append_nil]
    exact processChunks_of_lt api _ _ _ hshort
  | succ n ih =>
    obtain ⟨fuel, rfl⟩ : ∃ k, fuel = k + 1 := ⟨fuel - 1, by omega⟩
    have hle : DENOISE_FRAME_SIZE * (start + j + 1) ≤
        DENOISE_FRAME_SIZE * (l.length / DENOISE_FRAME_SIZE) :=
      Nat.mul_le_mul_left _ (by omega)
    have hfull : DENOISE_FRAME_SIZE ≤ (l.drop (DENOISE_FRAME_SIZE * (start + j))).length := by
      rw [List.length_drop]
      rw [Nat.mul_add, Nat.mul_one] at hle
      omega
    have hnext : (l.drop (DENOISE_FRAME_SIZE * (start + j))).drop DENOISE_FRAME_SIZE =
        l.drop (DENOISE_FRAME_SIZE * (start + (j + 1))) := by
      rw [List.drop_drop, ← Nat.add_assoc start, Nat.mul_add _ (start + j), Nat.mul_one]
    have hmono : (e.withBuffers (l.drop (DENOISE_FRAME_SIZE * (start + j))) output readPos
          started).processMonoChunk api (clock (start + j)) =
        (transduce api clock e (start + j)
            (l.slice (DENOISE_FRAME_SIZE * (start + j)) DENOISE_FRAME_SIZE)).2.withBuffers
          (l.drop (DENOISE_FRAME_SIZE * (start + (j + 1))))
          (output ++ (transduce api clock e (start + j)
            (l.slice (DENOISE_FRAME_SIZE * (start + j)) DENOISE_FRAME_SIZE)).1)
          readPos started := by
      unfold processMonoChunk
      rw [denoiseChunk_withBuffers, ← hnext]
      rfl
    rw [processChunks_succ api _ fuel j hfull, hmono, ih (by omega) (by omega)]
    simp only [Blocks.scan, ← Nat.add_assoc, List.append_assoc]

/-! ## The buffers and the stream -/

omit [Sample α] in
/-- A core stays a core. -/
theorem core_core (e : Engine α R M) : e.core.core = e.core := rfl

theorem core_transduce {e : Engine α R M} (h : e.core = e) (k : Nat) (chunk : List α) :
    (transduce api clock e k chunk).2.core = (transduce api clock e k chunk).2 := by
  have hcomm := denoiseChunk_withBuffers api e [] [] 0 false (clock k) chunk
  have hcore : e.withBuffers [] [] 0 false = e := h
  rw [hcore] at hcomm
  exact (congrArg Prod.snd hcomm).symm

/-- The engine after feeding `t` and emitting the first `emitted` samples of its output. -/
structure Stream (channels : Nat) (e : Engine α R M) (t : Blocks.Feed (Engine α R M) α α)
    (emitted : Nat) : Prop where
  live : e.Live channels
  state : t.state = e.core
  input : e.inputBuffer = t.input.drop (DENOISE_FRAME_SIZE * (t.input.length / DENOISE_FRAME_SIZE))
  output : e.outputBuffer.drop e.outputReadPos = t.output.drop emitted
  length : t.output.length = DENOISE_FRAME_SIZE * (t.input.length / DENOISE_FRAME_SIZE)
  emitted_le : emitted ≤ t.output.length
  readPos_le : e.outputReadPos ≤ e.outputBuffer.length
  compact : e.outputReadPos ≤ OUTPUT_PREFILL_SAMPLES
  closed : e.outputStarted = false → emitted = 0

/-- The counts of the stream. -/
def level (e : Engine α R M) (t : Blocks.Feed (Engine α R M) α α) (emitted : Nat) : Level where
  accepted := t.input.length
  emitted := emitted
  started := e.outputStarted

variable {t : Blocks.Feed (Engine α R M) α α} {emitted : Nat}

omit [Sample α] in
theorem Stream.level_inv (h : e.Stream channels t emitted) :
    (e.level t emitted).Inv DENOISE_FRAME_SIZE where
  emitted_le := by
    have hle := h.emitted_le
    rw [h.length] at hle
    exact hle
  closed := h.closed

omit [Sample α] in
/-- What is ready to be read is what the transducer has put out and nobody has read. -/
theorem Stream.available_eq (h : e.Stream channels t emitted) :
    e.available = (e.level t emitted).available DENOISE_FRAME_SIZE := by
  have hlen := congrArg List.length h.output
  rw [List.length_drop, List.length_drop, h.length] at hlen
  exact hlen

omit [Sample α] in
/-- The sample at the read cursor plus `i`. -/
theorem Stream.getD_output (h : e.Stream channels t emitted) (i : Nat) (x : α) :
    e.outputBuffer.getD (e.outputReadPos + i) x = t.output.getD (emitted + i) x := by
  have hget := congrArg (fun l => l[i]?) h.output
  simp only [List.getElem?_drop] at hget
  rw [List.getD_eq_getElem?_getD, List.getD_eq_getElem?_getD, hget]

/-- The transducer after `samples` have been fed to it. -/
def fed (api : Denoisers α R M) (clock : Nat → α) (t : Blocks.Feed (Engine α R M) α α)
    (samples : List α) : Blocks.Feed (Engine α R M) α α :=
  t.feed (transduce api clock) DENOISE_FRAME_SIZE samples

/-- The chunks of `t` that are complete once `samples` have been fed, run from the state
    of `t`. -/
def freshChunks (api : Denoisers α R M) (clock : Nat → α) (t : Blocks.Feed (Engine α R M) α α)
    (samples : List α) : List α × Engine α R M :=
  let start := t.input.length / DENOISE_FRAME_SIZE
  let n := (t.input ++ samples).length / DENOISE_FRAME_SIZE - start
  Blocks.scan (transduce api clock) DENOISE_FRAME_SIZE (t.input ++ samples) n start t.state

theorem length_transduce (e : Engine α R M) (k : Nat) (chunk : List α)
    (h : chunk.length = DENOISE_FRAME_SIZE) :
    (transduce api clock e k chunk).1.length = DENOISE_FRAME_SIZE :=
  length_denoiseChunk api e (clock k) h

theorem length_freshChunks (t : Blocks.Feed (Engine α R M) α α) (samples : List α) :
    DENOISE_FRAME_SIZE * (t.input.length / DENOISE_FRAME_SIZE) +
        (freshChunks api clock t samples).1.length =
      DENOISE_FRAME_SIZE * ((t.input ++ samples).length / DENOISE_FRAME_SIZE) := by
  have hmono : t.input.length / DENOISE_FRAME_SIZE ≤
      (t.input ++ samples).length / DENOISE_FRAME_SIZE :=
    Nat.div_le_div_right (by rw [List.length_append]; omega)
  have hsum : t.input.length / DENOISE_FRAME_SIZE +
      ((t.input ++ samples).length / DENOISE_FRAME_SIZE - t.input.length / DENOISE_FRAME_SIZE) =
      (t.input ++ samples).length / DENOISE_FRAME_SIZE := by omega
  rw [freshChunks, Blocks.length_scan (length_transduce api clock), ← Nat.mul_add, hsum]
  rw [hsum]
  exact Nat.mul_div_le _ _

/-- What steps 1 and 2 of a call do to the engine. -/
theorem Stream.accept_eq (h : e.Stream channels t emitted) (input : Nat → α) (numFrames : Nat) :
    let samples := (List.range numFrames).map (monoSample channels input)
    e.accept api (fun i => clock (t.input.length / DENOISE_FRAME_SIZE + i)) input numFrames =
      (freshChunks api clock t samples).2.withBuffers
        ((t.input ++ samples).drop
          (DENOISE_FRAME_SIZE * ((t.input ++ samples).length / DENOISE_FRAME_SIZE)))
        (e.outputBuffer ++ (freshChunks api clock t samples).1)
        e.outputReadPos e.outputStarted := by
  intro samples
  obtain rfl := h.live.channels
  have hwhole : DENOISE_FRAME_SIZE * (t.input.length / DENOISE_FRAME_SIZE) ≤ t.input.length :=
    Nat.mul_div_le _ _
  have hmono : t.input.length / DENOISE_FRAME_SIZE ≤
      (t.input ++ samples).length / DENOISE_FRAME_SIZE :=
    Nat.div_le_div_right (by rw [List.length_append]; omega)
  -- the input buffer is the tail of the stream, so appending extends that tail
  have hbuffer : e.inputBuffer ++ samples =
      (t.input ++ samples).drop
        (DENOISE_FRAME_SIZE * (t.input.length / DENOISE_FRAME_SIZE)) := by
    rw [h.input, List.drop_append_of_le_length hwhole]
  -- every iteration removes a chunk, so the buffer length is enough fuel
  have hfuel : (t.input ++ samples).length / DENOISE_FRAME_SIZE -
      t.input.length / DENOISE_FRAME_SIZE ≤ (e.inputBuffer ++ samples).length := by
    have hdiv : (t.input ++ samples).length / DENOISE_FRAME_SIZE * DENOISE_FRAME_SIZE ≤
        (t.input ++ samples).length := Nat.div_mul_le_self _ _
    rw [hbuffer, List.length_drop]
    simp only [DENOISE_FRAME_SIZE] at *
    omega
  have hloop := processChunks_eq api clock (t.input ++ samples)
    (t.input.length / DENOISE_FRAME_SIZE) (j := 0) hfuel (by omega) e.core e.outputBuffer
    e.outputReadPos e.outputStarted
  rw [Nat.add_zero, ← hbuffer, ← h.state] at hloop
  unfold freshChunks
  dsimp only
  rw [← hloop, h.state]
  rfl

theorem Stream.live_fresh (h : e.Stream channels t emitted) (samples : List α) :
    (freshChunks api clock t samples).2.Live channels := by
  -- the transducer runs on the core, which has the status and the denoiser
  have hstart : t.state.Live channels := by
    rw [h.state]
    exact ⟨h.live.running, h.live.denoiser, h.live.channels⟩
  exact Blocks.scan_state (Live channels) (fun s k x hs => hs.denoiseChunk api (clock k) x)
    _ _ _ _ hstart

theorem Stream.core_fresh (h : e.Stream channels t emitted) (samples : List α) :
    (freshChunks api clock t samples).2.core = (freshChunks api clock t samples).2 := by
  have hstart : t.state.core = t.state := by rw [h.state, core_core]
  exact Blocks.scan_state (fun s : Engine α R M => s.core = s)
    (fun s k x hs => core_transduce api clock hs k x) _ _ _ _ hstart

/-- Steps 1 and 2 feed the mono samples of the call. -/
theorem Stream.accept (h : e.Stream channels t emitted) (input : Nat → α) (numFrames : Nat) :
    (e.accept api (fun i => clock (t.input.length / DENOISE_FRAME_SIZE + i)) input
        numFrames).Stream channels
      (fed api clock t ((List.range numFrames).map (monoSample channels input))) emitted := by
  have hcall := h.accept_eq api clock input numFrames
  dsimp only at hcall
  rw [hcall]
  generalize (List.range numFrames).map (monoSample channels input) = samples
  have hlive := h.live_fresh api clock samples
  have hfresh := length_freshChunks api clock t samples
  -- the fresh chunks are appended to the output buffer and to the stream alike
  constructor
  · exact ⟨hlive.running, hlive.denoiser, hlive.channels⟩
  · exact (h.core_fresh api clock samples).symm
  · rfl
  · show (e.outputBuffer ++ _).drop e.outputReadPos = (t.output ++ _).drop emitted
    rw [List.drop_append_of_le_length h.readPos_le, h.output,
      ← List.drop_append_of_le_length h.emitted_le]
    rfl
  · show (t.output ++ (freshChunks api clock t samples).1).length = _
    rw [List.length_append, h.length, hfresh]
    rfl
  · show emitted ≤ (t.output ++ _).length
    have hle := h.emitted_le
    rw [List.length_append]
    omega
  · show e.outputReadPos ≤ (e.outputBuffer ++ _).length
    have hle := h.readPos_le
    rw [List.length_append]
    omega
  · exact h.compact
  · exact h.closed

/-! ## Answering a call -/

omit [Sample α] in
theorem prefill_started (e : Engine α R M) :
    e.prefill.outputStarted = (e.outputStarted || OUTPUT_PREFILL_SAMPLES ≤ e.available) := by
  unfold prefill
  cases hstarted : e.outputStarted with
  | true => simp [hstarted]
  | false =>
    by_cases hfull : OUTPUT_PREFILL_SAMPLES ≤ e.available
    · simp [hfull]
    · simp [hfull, hstarted]

omit [Sample α] in
theorem prefill_eq (e : Engine α R M) :
    e.prefill = { e with outputStarted := e.prefill.outputStarted } := by
  unfold prefill
  split
  · rfl
  · rfl

omit [Sample α] in
/-- Opening the prefill gate keeps the relation. -/
theorem Stream.prefill (h : e.Stream channels t emitted) :
    e.prefill.Stream channels t emitted := by
  have hclosed : e.prefill.outputStarted = false → emitted = 0 := by
    intro hopen
    rw [prefill_started, Bool.or_eq_false_iff] at hopen
    exact h.closed hopen.1
  rw [prefill_eq]
  exact ⟨⟨h.live.running, h.live.denoiser, h.live.channels⟩, h.state, h.input, h.output, h.length,
    h.emitted_le, h.readPos_le, h.compact, hclosed⟩

omit [Sample α] in
/-- Reading `numFrames` samples moves the stream on by as many. -/
theorem Stream.advance (h : e.Stream channels t emitted) {numFrames : Nat}
    (hready : e.ready numFrames = true) :
    (e.advance numFrames).Stream channels t (emitted + numFrames) := by
  simp only [ready, Bool.and_eq_true, decide_eq_true_eq] at hready
  obtain ⟨hstarted, havail⟩ := hready
  have hsame := h.available_eq
  have hcursor := h.readPos_le
  have hlen := h.length
  have hle := h.emitted_le
  have hread : e.outputReadPos + numFrames ≤ e.outputBuffer.length := by
    unfold available at havail
    omega
  have hemit : emitted + numFrames ≤ t.output.length := by
    rw [hsame] at havail
    simp only [Level.available, level] at havail
    omega
  have hdrop : e.outputBuffer.drop (e.outputReadPos + numFrames) =
      t.output.drop (emitted + numFrames) := by
    rw [← List.drop_drop, h.output, List.drop_drop]
  have hopen : e.outputStarted = false → emitted + numFrames = 0 := by
    intro hclosed
    rw [hclosed] at hstarted
    cases hstarted
  have hlive := h.live
  unfold Engine.advance
  dsimp only
  -- compacting drops exactly the samples that were read
  split
  · constructor
    · exact ⟨hlive.running, hlive.denoiser, hlive.channels⟩
    · exact h.state
    · exact h.input
    · exact hdrop
    · exact h.length
    · exact hemit
    · exact Nat.zero_le _
    · exact Nat.zero_le _
    · exact hopen
  · rename_i hsmall
    constructor
    · exact ⟨hlive.running, hlive.denoiser, hlive.channels⟩
    · exact h.state
    · exact h.input
    · exact hdrop
    · exact h.length
    · exact hemit
    · exact hread
    · exact Nat.le_of_not_lt hsmall
    · exact hopen

/-- The engine after steps 1 and 2 and the prefill gate of step 3. -/
def accepted (api : Denoisers α R M) (clock : Nat → α) (e : Engine α R M) (input : Nat → α)
    (numFrames : Nat) : Engine α R M :=
  (e.accept api clock input numFrames).prefill

/-- The call is answered with audio, not with silence. -/
def answersAudio (api : Denoisers α R M) (clock : Nat → α) (e : Engine α R M) (input : Nat → α)
    (numFrames : Nat) : Bool :=
  (e.accepted api clock input numFrames).ready numFrames

/-- A call to a running engine with a denoiser. -/
theorem Live.processFrame (h : e.Live channels) (clock : Nat → α) (input output : Nat → α)
    (numFrames : Nat) :
    e.processFrame api clock input output numFrames =
      if e.answersAudio api clock input numFrames then
        (true, (e.accepted api clock input numFrames).writeFrames numFrames output,
          (e.accepted api clock input numFrames).advance numFrames)
      else
        (true, (e.accepted api clock input numFrames).writeSilence numFrames output,
          e.accepted api clock input numFrames) := by
  have hdenoiser : (!(e.rnnoiseState.isSome || e.deepfilterLoaded)) = false := by
    rw [h.denoiser, Bool.true_or, Bool.not_true]
  simp only [Engine.processFrame, hdenoiser, h.running]
  rfl

/-- Up to the answer, a call feeds its mono samples and moves the counts of the queue on. -/
theorem Stream.accepted (h : e.Stream channels t emitted) (input : Nat → α) (numFrames : Nat) :
    (e.accepted api (fun i => clock (t.input.length / DENOISE_FRAME_SIZE + i)) input
        numFrames).Stream channels
      (fed api clock t ((List.range numFrames).map (monoSample channels input))) emitted :=
  (h.accept api clock input numFrames).prefill

theorem Stream.level_accepted (h : e.Stream channels t emitted) (input : Nat → α)
    (numFrames : Nat) :
    (e.accepted api (fun i => clock (t.input.length / DENOISE_FRAME_SIZE + i)) input
        numFrames).level
      (fed api clock t ((List.range numFrames).map (monoSample channels input))) emitted =
      (e.level t emitted).accept DENOISE_FRAME_SIZE OUTPUT_PREFILL_SAMPLES numFrames := by
  have hacc := h.accept api clock input numFrames
  have hcall := h.accept_eq api clock input numFrames
  have hstarted := congrArg Engine.outputStarted hcall
  have hlen : (fed api clock t ((List.range numFrames).map (monoSample channels
      input))).input.length = t.input.length + numFrames := by
    show (t.input ++ _).length = _
    rw [List.length_append, List.length_map, List.length_range]
  unfold Engine.accepted level Level.accept
  rw [prefill_started, hacc.available_eq, hlen, hstarted]
  simp only [Level.available, level, hlen]
  rfl

/-- Whether a call is answered with audio depends on the counts only. -/
theorem Stream.answersAudio_eq (h : e.Stream channels t emitted) (input : Nat → α)
    (numFrames : Nat) :
    e.answersAudio api (fun i => clock (t.input.length / DENOISE_FRAME_SIZE + i)) input
        numFrames =
      ((e.level t emitted).accept DENOISE_FRAME_SIZE OUTPUT_PREFILL_SAMPLES numFrames).ready
        DENOISE_FRAME_SIZE numFrames := by
  unfold answersAudio ready
  rw [(h.accepted api clock input numFrames).available_eq,
    h.level_accepted api clock input numFrames]
  have hstarted := congrArg Level.started (h.level_accepted api clock input
    numFrames)
  unfold Level.ready
  rw [← hstarted]
  rfl

/-- The state of the engine after a call. -/
theorem Live.engine_processFrame (h : e.Live channels) (clock : Nat → α) (input output : Nat → α)
    (numFrames : Nat) :
    (e.processFrame api clock input output numFrames).2.2 =
      if e.answersAudio api clock input numFrames then
        (e.accepted api clock input numFrames).advance numFrames
      else e.accepted api clock input numFrames := by
  rw [h.processFrame]
  split
  · rfl
  · rfl

/-- A call feeds its mono samples; with audio it emits the next `numFrames` samples. -/
theorem Stream.processFrame (h : e.Stream channels t emitted) (input output : Nat → α)
    (numFrames : Nat) :
    let clock' := fun i => clock (t.input.length / DENOISE_FRAME_SIZE + i)
    (e.processFrame api clock' input output numFrames).2.2.Stream channels
      (fed api clock t ((List.range numFrames).map (monoSample channels input)))
      (if e.answersAudio api clock' input numFrames then emitted + numFrames else emitted) := by
  intro clock'
  rw [h.live.engine_processFrame]
  have hacc := h.accepted api clock input numFrames
  split
  · rename_i haudio
    exact hacc.advance haudio
  · exact hacc

omit [Sample α] in
theorem level_advance (e : Engine α R M) (t : Blocks.Feed (Engine α R M) α α)
    (emitted numFrames : Nat) :
    (e.advance numFrames).level t (emitted + numFrames) =
      { e.level t emitted with emitted := (e.level t emitted).emitted + numFrames } := by
  unfold advance level
  dsimp only
  split
  · rfl
  · rfl

/-- The counts move as the queue says. -/
theorem Stream.level_processFrame (h : e.Stream channels t emitted) (input output : Nat → α)
    (numFrames : Nat) :
    let clock' := fun i => clock (t.input.length / DENOISE_FRAME_SIZE + i)
    (e.processFrame api clock' input output numFrames).2.2.level
      (fed api clock t ((List.range numFrames).map (monoSample channels input)))
      (if e.answersAudio api clock' input numFrames then emitted + numFrames else emitted) =
      (e.level t emitted).step DENOISE_FRAME_SIZE OUTPUT_PREFILL_SAMPLES numFrames := by
  intro clock'
  have hlevel := h.level_accepted api clock input numFrames
  have hanswer := h.answersAudio_eq api clock input numFrames
  rw [h.live.engine_processFrame]
  split
  · rename_i haudio
    rw [haudio] at hanswer
    simp only [Level.step, ← hanswer, if_true]
    rw [level_advance, hlevel]
  · rename_i hsilent
    rw [Bool.not_eq_true] at hsilent
    rw [hsilent] at hanswer
    simp only [Level.step, ← hanswer, Bool.false_eq_true, if_false]
    exact hlevel

end Engine

end Noise
