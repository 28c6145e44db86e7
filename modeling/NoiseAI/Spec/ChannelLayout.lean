import NoiseAI.ForStd.Stores
import NoiseAI.Native.BridgeCalls
import NoiseAI.Spec.EngineInvariant
import NoiseAI.Spec.EngineSession

/-!
# The channel layout of the bridge

`noise_engine_create` gives the engine the channels of its caller, `noise_engine_start` gives
it two, and `noise_engine_process_and_write` counts on two. `process_frame` touches the samples
of as many channels as the engine has. The theorem at the end says in which order of calls
that is what each caller counts on.
-/

namespace Noise

variable {α R M : Type} [Sample α]

namespace Engine

/-! ## The samples that `process_frame` touches -/

/-- The indices run through the whole block, modulo `2 ^ 32`. -/
theorem mem_frameIndices {channels numFrames a : Nat} :
    a ∈ frameIndices channels numFrames ↔ ∃ j < numFrames * channels, u32 j = a := by
  unfold frameIndices
  simp only [List.mem_flatMap, List.mem_map, List.mem_range]
  constructor
  · rintro ⟨i, hi, ch, hch, rfl⟩
    have hle : (i + 1) * channels ≤ numFrames * channels := Nat.mul_le_mul_right _ hi
    rw [Nat.add_mul, Nat.one_mul] at hle
    exact ⟨i * channels + ch, by omega, rfl⟩
  · -- sample `j` is channel `j % channels` of frame `j / channels`
    rintro ⟨j, hj, rfl⟩
    have hchannels : 0 < channels := Nat.pos_of_mul_pos_left (Nat.zero_lt_of_lt hj)
    refine ⟨j / channels, ?_, j % channels, Nat.mod_lt _ hchannels, ?_⟩
    · rw [Nat.div_lt_iff_lt_mul hchannels]
      exact hj
    · rw [Nat.div_add_mod']

/-- Without a wrap they are the indices below `numFrames * channels`. -/
theorem mem_frameIndices_of_le {channels numFrames : Nat} (h : numFrames * channels ≤ 2 ^ 32)
    (a : Nat) : a ∈ frameIndices channels numFrames ↔ a < numFrames * channels := by
  rw [mem_frameIndices]
  constructor
  · rintro ⟨j, hj, rfl⟩
    rw [u32_of_lt (by omega)]
    exact hj
  · intro ha
    exact ⟨a, ha, u32_of_lt (by omega)⟩

variable {api : Denoisers α R M} {e : Engine α R M}

/-- The mean of a frame reads the samples of the frame. -/
theorem monoSample_congr {channels numFrames : Nat} {input input' : Nat → α}
    (h : ∀ a ∈ frameIndices channels numFrames, input' a = input a) {i : Nat}
    (hi : i < numFrames) : monoSample channels input' i = monoSample channels input i := by
  unfold monoSample
  congr 1
  apply List.foldl_ext
  intro acc ch hch
  rw [List.mem_range] at hch
  have hmem : u32 (i * channels + ch) ∈ frameIndices channels numFrames := by
    unfold frameIndices
    simp only [List.mem_flatMap, List.mem_map, List.mem_range]
    exact ⟨i, hi, ch, hch, rfl⟩
  rw [h _ hmem]

/-- What a call does depends on the samples in `inputReads` only. -/
theorem process_congr (e : Engine α R M) (c : ProcessCall α) {input : Nat → α}
    (h : ∀ a ∈ e.inputReads c, input a = c.input a) :
    e.process api { c with input := input } = e.process api c := by
  unfold inputReads at h
  unfold Engine.process Engine.processFrame
  split at h
  · rename_i hstatus
    rw [if_pos hstatus, if_pos hstatus]
  · rename_i hstatus
    rw [if_neg hstatus, if_neg hstatus]
    split at h
    · rename_i hnone
      rw [if_pos hnone, if_pos hnone]
      -- the block is copied
      have hcopy : (fun a => if a < u32 (c.numFrames * e.channels) then input a else c.output a) =
          fun a => if a < u32 (c.numFrames * e.channels) then c.input a else c.output a := by
        funext a
        split
        · rename_i hlt
          exact h a (List.mem_range.mpr hlt)
        · rfl
      exact congrArg (fun output => (true, output, e)) hcopy
    · rename_i hsome
      rw [if_neg hsome, if_neg hsome]
      -- the input is mixed down before anything else is done with it
      have hmono : (List.range c.numFrames).map (monoSample e.channels input) =
          (List.range c.numFrames).map (monoSample e.channels c.input) := by
        apply List.map_congr_left
        intro i hi
        exact monoSample_congr h (List.mem_range.mp hi)
      have haccept : e.accept api c.clock input c.numFrames =
          e.accept api c.clock c.input c.numFrames := by
        unfold accept
        rw [hmono]
      dsimp only
      rw [haccept]

/-- Step 3 stores the frames. -/
theorem stores_writeFrames (e : Engine α R M) (numFrames : Nat) :
    Stores (e.writeFrames numFrames) (· ∈ frameIndices e.channels numFrames) := by
  -- a loop over the frames of loops over the channels of single stores
  refine (Stores.foldl (List.range numFrames) fun i _ =>
    Stores.foldl (List.range e.channels) fun ch _ =>
      Stores.update (u32 (i * e.channels + ch)) _).congr fun a => ?_
  unfold frameIndices
  simp only [List.mem_flatMap, List.mem_map, List.mem_range, eq_comm]

/-- A silent answer clears the block. -/
theorem stores_writeSilence (e : Engine α R M) (numFrames : Nat) :
    Stores (e.writeSilence numFrames) (· ∈ List.range (u32 (numFrames * e.channels))) :=
  (Stores.block (· < u32 (numFrames * e.channels)) fun _ => (0 : α)).congr fun _ =>
    List.mem_range.symm

/-- What a call leaves in the output buffer is stored at `outputWrites`. -/
theorem Inv.stores_process (h : e.Inv) (api : Denoisers α R M) (c : ProcessCall α) :
    Stores (fun output => (e.process api { c with output := output }).2.1)
      (· ∈ e.outputWrites api c) := by
  by_cases hstatus : e.status = .running
  · have hlive := h.live hstatus
    have hchannels := (h.cursor.accepted api c).1.channels
    unfold Engine.process outputWrites
    rw [if_neg (by simp [hstatus]), if_neg (by simp [hlive.denoiser])]
    dsimp only
    simp only [hlive.processFrame]
    show Stores _ fun a => a ∈ if e.answersAudio api c.clock c.input c.numFrames then _ else _
    split
    · rw [← hchannels]
      exact stores_writeFrames _ c.numFrames
    · rw [← hchannels]
      exact stores_writeSilence _ c.numFrames
  · have hnone : e.outputWrites api c = [] := if_pos hstatus
    have hsame : (fun output => (e.process api { c with output := output }).2.1) =
        fun output => output := by
      funext output
      rw [process_of_not_running hstatus]
    rw [hnone, hsame]
    exact Stores.none.congr fun a => by simp

/-! ## Whether a call is answered with audio -/

/-- With `numFrames` more samples denoised, the output is started and holds as many. -/
def willAnswer (e : Engine α R M) (numFrames : Nat) : Bool :=
  let available := e.available +
    DENOISE_FRAME_SIZE * ((e.inputBuffer.length + numFrames) / DENOISE_FRAME_SIZE)
  (e.outputStarted || OUTPUT_PREFILL_SAMPLES ≤ available) && numFrames ≤ available

/-- The loop adds a chunk to the output for each one it takes from the input. -/
theorem available_processChunks (api : Denoisers α R M) (clock : Nat → α) (fuel k : Nat)
    (hcursor : e.CursorInside) (hfuel : e.inputBuffer.length ≤ fuel) :
    (processChunks api clock fuel k e).available =
      e.available + DENOISE_FRAME_SIZE * (e.inputBuffer.length / DENOISE_FRAME_SIZE) := by
  have hchunk : ∀ e : Engine α R M, ∀ k, e.CursorInside →
      DENOISE_FRAME_SIZE ≤ e.inputBuffer.length →
      (e.processMonoChunk api (clock k)).CursorInside ∧
      (e.processMonoChunk api (clock k)).available = e.available + DENOISE_FRAME_SIZE := by
    intro e k hcursor hfull
    have hlen : (e.inputBuffer.take DENOISE_FRAME_SIZE).length = DENOISE_FRAME_SIZE := by
      rw [List.length_take]
      omega
    have hout := length_denoiseChunk api e (clock k) hlen
    refine ⟨hcursor.processMonoChunk api (clock k), ?_⟩
    unfold CursorInside at hcursor
    rw [processMonoChunk_eq]
    unfold available withBuffers
    dsimp only
    rw [List.length_append, hout]
    omega
  have hloop := processChunks_iterate (f := available) (g := (· + DENOISE_FRAME_SIZE)) clock hchunk
    fuel k hcursor hfuel
  rw [hloop, add_right_iterate, Nat.mul_comm]
  rfl

/-- The loop does not look at the prefill gate. -/
theorem outputStarted_processChunks (api : Denoisers α R M) (clock : Nat → α) (fuel k : Nat) :
    (processChunks api clock fuel k e).outputStarted = e.outputStarted := by
  refine (processChunks_invariant (P := fun e' => e'.outputStarted = e.outputStarted)
    ?_ clock fuel k rfl).2
  intro e' elapsedMs hsame _
  rw [processMonoChunk_eq]
  exact hsame

theorem Inv.answersAudio_eq (h : e.Inv) (api : Denoisers α R M) (c : ProcessCall α) :
    e.answersAudio api c.clock c.input c.numFrames = e.willAnswer c.numFrames := by
  have hbuffered : (e.buffered c).inputBuffer.length = e.inputBuffer.length + c.numFrames := by
    unfold buffered
    simp
  have hcursor : (e.buffered c).CursorInside := h.cursor
  have hstarted := outputStarted_processChunks (e := e.buffered c) api c.clock
    (e.buffered c).inputBuffer.length 0
  have hcount := available_processChunks api c.clock (e.buffered c).inputBuffer.length 0 hcursor
    (Nat.le_refl _)
  have hsame : (e.accept api c.clock c.input c.numFrames).outputStarted = e.outputStarted :=
    hstarted
  have havail : (e.accept api c.clock c.input c.numFrames).available = _ := hcount
  rw [hbuffered] at havail
  have hopened : (e.accepted api c.clock c.input c.numFrames).available =
      (e.accept api c.clock c.input c.numFrames).available := by
    unfold accepted
    rw [prefill_eq]
    rfl
  unfold answersAudio ready
  rw [hopened, havail]
  unfold accepted
  rw [prefill_started, hsame, havail]
  rfl

/-! ## What a caller counts on -/

/-- A call of `process_frame` reads none of the input but the first `k` samples, and stores the
    first `k` samples of the output and no others. -/
structure Within (api : Denoisers α R M) (e : Engine α R M) (c : ProcessCall α) (k : Nat) :
    Prop where
  reads : ∀ a ∈ e.inputReads c, a < k
  writes : ∀ a, a ∈ e.outputWrites api c ↔ a < k
  /-- The rest of the input does not matter. -/
  input : ∀ input, (∀ a < k, input a = c.input a) →
    e.process api { c with input := input } = e.process api c
  /-- The rest of the output stays. -/
  output : ∀ a, k ≤ a → (e.process api c).2.1 a = c.output a
  /-- The samples that are stored do not depend on what the buffer held before. -/
  defined : ∀ output a, a < k →
    (e.process api { c with output := output }).2.1 a = (e.process api c).2.1 a

/-- A call that is refused touches neither buffer. -/
structure Refuses (api : Denoisers α R M) (e : Engine α R M) (c : ProcessCall α) : Prop where
  returned : e.process api c = (false, c.output, e)
  reads : e.inputReads c = []
  writes : e.outputWrites api c = []

theorem refuses (api : Denoisers α R M) (hstatus : e.status ≠ .running) (c : ProcessCall α) :
    e.Refuses api c :=
  ⟨process_of_not_running hstatus api c, if_pos hstatus, if_pos hstatus⟩

theorem Inv.within (h : e.Inv) {c : ProcessCall α} {k : Nat} (hreads : ∀ a ∈ e.inputReads c, a < k)
    (hwrites : ∀ a, a ∈ e.outputWrites api c ↔ a < k) : e.Within api c k where
  reads := hreads
  writes := hwrites
  input := fun input hsame => process_congr e c fun a ha => hsame a (hreads a ha)
  output := by
    intro a ha
    refine (h.stores_process api c).frame c.output a fun hmem => ?_
    have hlt := (hwrites a).mp hmem
    omega
  defined := fun output a ha =>
    (h.stores_process api c).defined output c.output a ((hwrites a).mpr ha)

/-- The samples that a running engine reads. -/
theorem Inv.inputReads_eq (h : e.Inv) (hstatus : e.status = .running) (c : ProcessCall α) :
    e.inputReads c = frameIndices e.channels c.numFrames := by
  have hdenoiser : e.rnnoiseState.isSome = true := h.running hstatus
  unfold inputReads
  rw [if_neg (by simp [hstatus]), if_neg (by simp [hdenoiser])]

/-- The samples that a running engine stores. -/
theorem Inv.outputWrites_eq (h : e.Inv) (api : Denoisers α R M) (hstatus : e.status = .running)
    (c : ProcessCall α) :
    e.outputWrites api c = if e.willAnswer c.numFrames then frameIndices e.channels c.numFrames
      else List.range (u32 (c.numFrames * e.channels)) := by
  have hdenoiser : e.rnnoiseState.isSome = true := h.running hstatus
  rw [← h.answersAudio_eq api c]
  unfold outputWrites
  rw [if_neg (by simp [hstatus]), if_neg (by simp [hdenoiser])]
  rfl

/-- A call reads and stores the samples of as many channels as the engine has. -/
theorem Inv.within_channels (h : e.Inv) (api : Denoisers α R M) (hstatus : e.status = .running)
    (c : ProcessCall α) {k : Nat} (hk : c.numFrames * e.channels = k)
    (hfits : k < 2 ^ 32 ∨ (k = 2 ^ 32 ∧ e.willAnswer c.numFrames = true)) :
    e.Within api c k ∧ ∀ a < k, a ∈ e.inputReads c := by
  have hle : c.numFrames * e.channels ≤ 2 ^ 32 := by omega
  have hindices := mem_frameIndices_of_le hle
  have hreads := h.inputReads_eq hstatus c
  have hwrites := h.outputWrites_eq api hstatus c
  rw [hk] at hindices hwrites
  rw [← hreads] at hindices
  refine ⟨h.within (fun a => (hindices a).mp) ?_, fun a => (hindices a).mpr⟩
  intro a
  rw [hwrites, ← hreads]
  split
  · exact hindices a
  · rename_i hsilent
    have hlt : k < 2 ^ 32 := hfits.resolve_right fun h => hsilent h.2
    rw [u32_of_lt hlt, List.mem_range]

/-- A call that stays within `k` samples and stores them all has `k` samples. -/
theorem Within.channels_eq (hinv : e.Inv) (hstatus : e.status = .running) {c : ProcessCall α}
    {k : Nat} (h : e.Within api c k) (hk : k < 2 ^ 32) : c.numFrames * e.channels = k := by
  have hreads := hinv.inputReads_eq hstatus c
  have hle : c.numFrames * e.channels ≤ k := by
    by_contra hlong
    -- the sample after the `k` ones is read
    have hmem : k ∈ e.inputReads c := by
      rw [hreads, mem_frameIndices]
      exact ⟨k, by omega, u32_of_lt hk⟩
    exact absurd (h.reads k hmem) (Nat.lt_irrefl k)
  -- and then every sample is stored, so there are no fewer either
  have hall : ∀ a, a ∈ e.outputWrites api c ↔ a < c.numFrames * e.channels :=
    (hinv.within_channels api hstatus c rfl (.inl (by omega))).1.writes
  by_contra hshort
  have hlast := (hall (c.numFrames * e.channels)).mp ((h.writes _).mpr (by omega))
  exact absurd hlast (Nat.lt_irrefl _)

/-- A call that reads exactly the first `k` samples has `k` samples, if it has not too many. -/
theorem Within.channels_eq_of_reads (hinv : e.Inv) (hstatus : e.status = .running)
    {c : ProcessCall α} {k : Nat} (h : e.Within api c k) (hall : ∀ a < k, a ∈ e.inputReads c)
    (hfits : c.numFrames * e.channels ≤ 2 ^ 32) : c.numFrames * e.channels = k := by
  have hreads : ∀ a, a ∈ e.inputReads c ↔ a < c.numFrames * e.channels := by
    rw [hinv.inputReads_eq hstatus c]
    exact mem_frameIndices_of_le hfits
  by_contra hne
  by_cases hlong : k < c.numFrames * e.channels
  · exact absurd (h.reads k ((hreads k).mpr hlong)) (Nat.lt_irrefl k)
  · have hmem := (hreads (c.numFrames * e.channels)).mp (hall _ (by omega))
    exact absurd hmem (Nat.lt_irrefl _)

/-- A call that reads and stores `numFrames * channels` samples does not wrap, unless it
    fills all that 32 bits can count, with audio. -/
theorem Within.fits (hinv : e.Inv) (hstatus : e.status = .running) {c : ProcessCall α} {k : Nat}
    (h : e.Within api c k) (hall : ∀ a < k, a ∈ e.inputReads c)
    (hk : c.numFrames * e.channels = k) :
    k < 2 ^ 32 ∨ (k = 2 ^ 32 ∧ e.willAnswer c.numFrames = true) := by
  -- no 32-bit index reaches the sample at `2 ^ 32`
  have hle : k ≤ 2 ^ 32 := by
    by_contra hlong
    have hmem := hall (2 ^ 32) (by omega)
    rw [hinv.inputReads_eq hstatus c, mem_frameIndices] at hmem
    obtain ⟨j, _, hj⟩ := hmem
    have hlt : u32 j < 2 ^ 32 := Nat.mod_lt _ (by decide)
    omega
  by_cases hlt : k < 2 ^ 32
  · exact .inl hlt
  · have hfull : k = 2 ^ 32 := by omega
    refine .inr ⟨hfull, ?_⟩
    by_contra hsilent
    -- `memset` is told to clear nothing
    have hnone : e.outputWrites api c = [] := by
      rw [hinv.outputWrites_eq api hstatus c, if_neg hsilent, hk, hfull]
      rfl
    have hfirst := (h.writes 0).mpr (by omega)
    rw [hnone] at hfirst
    exact nomatch hfirst

/-- The samples of `channels` channels, where the engine has two channels if it was `started`
    again, and `channels` channels if not. -/
theorem Inv.touches_iff (h : e.Inv) (hstatus : e.status = .running) {c : ProcessCall α}
    (hframes : c.numFrames ≤ 4096) {channels : Nat} {started : Bool}
    (hchannels : e.channels = if started then 2 else channels) :
    (e.Within api c (c.numFrames * channels) ∧
      ∀ a < c.numFrames * channels, a ∈ e.inputReads c) ↔
    c.numFrames = 0 ∨ (channels = 2 ∨ started = false) ∧
      (c.numFrames * channels < 2 ^ 32 ∨
        (c.numFrames * channels = 2 ^ 32 ∧ e.willAnswer c.numFrames = true)) := by
  constructor
  · rintro ⟨hwithin, hall⟩
    by_cases hnone : c.numFrames = 0
    · exact .inl hnone
    · right
      cases started with
      | false =>
        rw [if_neg Bool.false_ne_true] at hchannels
        exact ⟨.inr rfl, hwithin.fits h hstatus hall (by rw [hchannels])⟩
      | true =>
        -- the engine has two channels, and the caller counts on `channels`
        rw [if_pos rfl] at hchannels
        have heq := hwithin.channels_eq_of_reads h hstatus hall (by rw [hchannels]; omega)
        rw [hchannels] at heq
        have htwo : 2 = channels := Nat.eq_of_mul_eq_mul_left (Nat.pos_of_ne_zero hnone) heq
        exact ⟨.inl htwo.symm, .inl (by rw [← htwo]; omega)⟩
  · rintro (hnone | ⟨hlayout, hfits⟩)
    · have hempty : c.numFrames * e.channels = c.numFrames * channels := by
        rw [hnone, Nat.zero_mul, Nat.zero_mul]
      exact h.within_channels api hstatus c hempty (.inl (by rw [hnone, Nat.zero_mul]; decide))
    · have hsame : e.channels = channels := by
        obtain rfl | rfl := hlayout
        · rw [hchannels, ite_self]
        · exact hchannels
      exact h.within_channels api hstatus c (by rw [hsame]) hfits

/-- The samples of two channels. -/
theorem Inv.stays_iff (h : e.Inv) (hstatus : e.status = .running) {c : ProcessCall α}
    (hframes : c.numFrames ≤ 4096) {channels : Nat} {started : Bool}
    (hchannels : e.channels = if started then 2 else channels) :
    e.Within api c (2 * c.numFrames) ↔ c.numFrames = 0 ∨ channels = 2 ∨ started = true := by
  constructor
  · intro hwithin
    have heq := hwithin.channels_eq h hstatus (by omega)
    by_cases hnone : c.numFrames = 0
    · exact .inl hnone
    · right
      cases started with
      | true => exact .inr rfl
      | false =>
        rw [hchannels, if_neg Bool.false_ne_true, Nat.mul_comm] at heq
        exact .inl (Nat.eq_of_mul_eq_mul_right (Nat.pos_of_ne_zero hnone) heq)
  · intro hlayout
    have heq : c.numFrames * e.channels = 2 * c.numFrames := by
      obtain hnone | rfl | rfl := hlayout
      · rw [hnone, Nat.zero_mul]
      · rw [hchannels, ite_self, Nat.mul_comm]
      · rw [hchannels, if_pos rfl, Nat.mul_comm]
    exact (h.within_channels api hstatus c heq (.inl (by omega))).1

/-! ## The channels between two calls -/

/-- Only `init` changes the number of channels. -/
theorem Inv.channels_after (h : e.Inv) (api : Denoisers α R M) (op : EngineOp α R M) :
    (e.after api op).channels = match op with
      | .init format _ _ => format.channels
      | _ => e.channels := by
  have hsetting : op.IsSetting → (e.after api op).channels = e.channels :=
    fun hop => (sameSession_after api e hop).channels
  cases op with
  | init format created found =>
    cases created with
    | none => rfl
    | some state =>
      show (e.init format (some state) found).2.channels = _
      rw [init_some]
      rfl
  | shutdown => rfl
  | setMode | loadDeepfilterModel | loadDeepfilterModelFrom | setDryMix | setAttenuationLimit =>
    exact hsetting trivial
  | processFrame c => exact (h.keeps_process api c).channels

end Engine

namespace NoiseEngineHandle

variable {api : Denoisers α R M} {h : NoiseEngineHandle α R M}

/-- The call of the engine that a bridge call makes. -/
def engineOp (h : NoiseEngineHandle α R M) : BridgeOp α R M → Option (EngineOp α R M)
  | .start created found =>
    some (.init { sampleRate := 48000, channels := 2, framesPerBuffer := 128 } created found)
  | .stop => some .shutdown
  | .setMode mode => some (.setMode mode)
  | .setDryMix mix => some (.setDryMix mix)
  | .setAttenuationLimit db => some (.setAttenuationLimit db)
  | .loadDeepfilterModel file => some (.loadDeepfilterModelFrom file)
  | op => (h.processCall op).map .processFrame

omit [Sample α] in
theorem engine_resetSharedBuffer (ctx : NoiseEngineContext α R M) (m : Shm α) :
    (ctx.resetSharedBuffer m).1.engine = ctx.engine := by
  unfold NoiseEngineContext.resetSharedBuffer
  split <;> rfl

/-- A bridge call does to the engine what its engine call does. -/
theorem engine_after (api : Denoisers α R M) (h : NoiseEngineHandle α R M)
    (op : BridgeOp α R M) :
    (h.after api op).engine = ((h.engineOp op).map (h.engine.after api)).getD h.engine := by
  cases op with
  | start | stop | setMode | setDryMix | setAttenuationLimit | loadDeepfilterModel | shmCreate
    | process | elsewhere => rfl
  | shmDestroy => exact engine_resetSharedBuffer h.ctx h.shm
  | processAndWrite clock input numFrames =>
    show (h.ctx.processAndWrite api clock h.shm h.outputBuf input numFrames).2.1.engine = _
    unfold NoiseEngineContext.processAndWrite engineOp processCall
    cases hbuffer : h.ctx.sharedBuffer with
    | none => rfl
    | some b =>
      cases hvalid : b.isValid with
      | false => simp [hvalid]; rfl
      | true =>
        have hany : (some b).any (·.isValid) = true := hvalid
        simp only [hvalid, hany, Bool.not_true, Bool.false_eq_true, if_true, if_false]
        split
        · rfl
        · rfl

theorem inv_after (hinv : h.engine.Inv) (api : Denoisers α R M) (op : BridgeOp α R M) :
    (h.after api op).engine.Inv := by
  rw [engine_after]
  cases h.engineOp op with
  | none => exact hinv
  | some eop => exact hinv.after api eop

/-- Only `noise_engine_start` changes the number of channels: to two. -/
theorem channels_after (hinv : h.engine.Inv) (api : Denoisers α R M) (op : BridgeOp α R M) :
    (h.after api op).engine.channels = if op.isStart then 2 else h.engine.channels := by
  have hcall : ∀ c : ProcessCall α,
      (h.engine.after api (.processFrame c)).channels = h.engine.channels :=
    fun c => hinv.channels_after api (.processFrame c)
  rw [engine_after]
  cases op with
  | start created found => exact hinv.channels_after api (.init _ created found)
  | stop => rfl
  | setMode m => exact hinv.channels_after api (.setMode m)
  | setDryMix mix => rfl
  | setAttenuationLimit db => exact hinv.channels_after api (.setAttenuationLimit db)
  | loadDeepfilterModel file => exact hinv.channels_after api (.loadDeepfilterModelFrom file)
  | process c => exact hcall c
  | processAndWrite clock input numFrames =>
    show ((((h.processCall (.processAndWrite clock input numFrames)).map
      EngineOp.processFrame).map (h.engine.after api)).getD h.engine).channels = h.engine.channels
    cases h.processCall (.processAndWrite clock input numFrames) with
    | none => rfl
    | some c => exact hcall c
  | shmCreate | shmDestroy | elsewhere => rfl

/-- The channels of the engine after any sequence of calls. -/
theorem channels_run (api : Denoisers α R M) (hinv : h.engine.Inv) (ops : List (BridgeOp α R M)) :
    (ops.foldl (after api) h).engine.Inv ∧
    (ops.foldl (after api) h).engine.channels =
      if ops.any (·.isStart) then 2 else h.engine.channels := by
  induction ops generalizing h with
  | nil => exact ⟨hinv, rfl⟩
  | cons op ops ih =>
    obtain ⟨hlast, hchannels⟩ := ih (inv_after hinv api op)
    refine ⟨hlast, ?_⟩
    rw [List.foldl_cons, hchannels, channels_after hinv api op, List.any_cons]
    cases op.isStart <;> cases ops.any (·.isStart) <;> rfl

theorem inv_create (api : Denoisers α R M) (shm : Shm α) (outputBuf : Nat → α)
    (sampleRate channels framesPerBuffer : Nat) (created : Option R)
    (found : Option (LoadOutcome M)) :
    (create shm outputBuf sampleRate channels framesPerBuffer created found).engine.Inv ∧
    (create shm outputBuf sampleRate channels framesPerBuffer created found).engine.channels =
      channels := by
  constructor
  · exact Engine.inv_new.init _ created found
  · exact Engine.inv_new.channels_after api (.init _ created found)

/-! ## The layouts that the callers count on -/

/-- What the caller of a bridge call counts on, where the handle was created with `channels`
    channels: `noise_engine_process` touches the samples of as many channels,
    `noise_engine_process_and_write` stays within two and fills them. -/
def LayoutKept (api : Denoisers α R M) (channels : Nat) (h : NoiseEngineHandle α R M)
    (op : BridgeOp α R M) (c : ProcessCall α) : Prop :=
  match op with
  | .process _ => h.engine.Within api c (c.numFrames * channels) ∧
      ∀ a < c.numFrames * channels, a ∈ h.engine.inputReads c
  | _ => h.engine.Within api c (2 * c.numFrames)

/-- The order of the calls suits the call `op` after the calls `before`: the caller has two
    channels, or `noise_engine_start` was not called before a `noise_engine_process` and was
    called before a `noise_engine_process_and_write`. -/
def LayoutFits (channels : Nat) (before : List (BridgeOp α R M)) (h : NoiseEngineHandle α R M)
    (op : BridgeOp α R M) : Prop :=
  op.numFrames = 0 ∨
  match op with
  | .process c => (channels = 2 ∨ before.any (·.isStart) = false) ∧
      (c.numFrames * channels < 2 ^ 32 ∨
        (c.numFrames * channels = 2 ^ 32 ∧ h.engine.willAnswer c.numFrames = true))
  | _ => channels = 2 ∨ before.any (·.isStart) = true

end NoiseEngineHandle

/-- After any sequence of bridge calls, a call of `process_frame` is refused and touches nothing,
    or the layout is as its caller counts on exactly if the order of the calls suits it. -/
theorem layout_kept_iff (api : Denoisers α R M) (shm : Shm α) (outputBuf : Nat → α)
    (sampleRate channels framesPerBuffer : Nat) (created : Option R)
    (found : Option (LoadOutcome M)) (before : List (BridgeOp α R M))
    {h : NoiseEngineHandle α R M}
    (hrun : before.foldl (NoiseEngineHandle.after api)
      (.create shm outputBuf sampleRate channels framesPerBuffer created found) = h)
    (op : BridgeOp α R M) (hframes : op.numFrames ≤ 4096) {c : ProcessCall α}
    (hcall : h.processCall op = some c) :
    (h.engine.status ≠ .running → h.engine.Refuses api c) ∧
    (h.engine.status = .running →
      (h.LayoutKept api channels op c ↔ h.LayoutFits channels before op)) := by
  obtain ⟨hstart, hcreated⟩ := NoiseEngineHandle.inv_create api shm outputBuf sampleRate channels
    framesPerBuffer created found
  obtain ⟨hinv, hchannels⟩ := NoiseEngineHandle.channels_run api hstart before
  rw [hrun, hcreated] at hchannels
  rw [hrun] at hinv
  refine ⟨fun hstatus => Engine.refuses api hstatus c, fun hstatus => ?_⟩
  -- the channels of the engine are known from the calls before
  cases op with
  | process call =>
    cases hcall
    exact hinv.touches_iff hstatus hframes hchannels
  | processAndWrite clock input numFrames =>
    obtain ⟨_, hc⟩ := Option.ite_none_right_eq_some.mp hcall
    have hnum : c.numFrames = numFrames := by
      rw [← Option.some.inj hc]
    unfold NoiseEngineHandle.LayoutKept NoiseEngineHandle.LayoutFits BridgeOp.numFrames
    rw [← hnum]
    exact hinv.stays_iff hstatus (by rw [hnum]; exact hframes) hchannels
  | start | stop | setMode | setDryMix | setAttenuationLimit | loadDeepfilterModel | shmCreate
    | shmDestroy | elsewhere => exact nomatch hcall

/-- A handle with `channels` channels and a shared buffer. -/
def capturingHandle (channels : Nat) : NoiseEngineHandle ℚ Unit Unit :=
  [BridgeOp.shmCreate 48000 2 .ok].foldl (NoiseEngineHandle.after identityDenoisers)
    (.create .empty (fun _ => 0) 48000 channels 480 (some ()) none)

/-- Four silent frames. -/
def silentCall : ProcessCall ℚ :=
  { clock := fun _ => 0, input := fun _ => 0, output := fun _ => 0, numFrames := 4 }

theorem layout_kept_stereo :
    ((capturingHandle 2).engine.status ≠ .running →
      (capturingHandle 2).engine.Refuses identityDenoisers silentCall) ∧
    ((capturingHandle 2).engine.status = .running →
      ((capturingHandle 2).LayoutKept identityDenoisers 2
          (.processAndWrite (fun _ => 0) (fun _ => 0) 4) silentCall ↔
        (capturingHandle 2).LayoutFits 2 [.shmCreate 48000 2 .ok]
          (.processAndWrite (fun _ => 0) (fun _ => 0) 4))) :=
  layout_kept_iff identityDenoisers .empty (fun _ => 0) 48000 2 480 (some ()) none
    [.shmCreate 48000 2 .ok] rfl (.processAndWrite (fun _ => 0) (fun _ => 0) 4) (by decide) rfl

/-- With four channels `noise_engine_process_and_write` reads and stores the sample after the
    ones it counts on, and once the engine is started `noise_engine_process` leaves out the
    sample after those of two channels. -/
theorem four_channels_overrun :
    (capturingHandle 4).processCall (.processAndWrite (fun _ => 0) (fun _ => 0) 4) =
      some silentCall ∧
    8 ∈ (capturingHandle 4).engine.inputReads silentCall ∧
    8 ∈ (capturingHandle 4).engine.outputWrites identityDenoisers silentCall ∧
    ¬(capturingHandle 4).LayoutKept identityDenoisers 4
      (.processAndWrite (fun _ => 0) (fun _ => 0) 4) silentCall ∧
    ¬((capturingHandle 4).after identityDenoisers (.start (some ()) none)).LayoutKept
      identityDenoisers 4 (.process silentCall) silentCall := by
  have hread : 8 ∈ (capturingHandle 4).engine.inputReads silentCall := by decide
  have hskipped : 8 ∉ ((capturingHandle 4).after identityDenoisers
      (.start (some ()) none)).engine.inputReads silentCall := by decide
  refine ⟨rfl, hread, by decide, ?_, ?_⟩
  · intro hkept
    exact absurd (hkept.reads 8 hread) (by decide)
  · rintro ⟨_, hall⟩
    exact hskipped (hall 8 (by decide))

end Noise
