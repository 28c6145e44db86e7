import NoiseAI.Spec.EngineDrain
import NoiseAI.Spec.HostSafety

/-!
# What a callback can cost

`Engine.Counted` says of the buffers of the engine what `Prefill.Level` counts, wherever the
engine is between two calls, not only within a session: a call that clears the buffers starts
the counts over. So a bound on the counts holds after every run of the engine, and of the app
(`Host.Has.run`), and with it bounds on the chunks that one callback denoises and on the sizes
that the two vectors take while it runs (`callback_bounded`).
-/

namespace Noise

variable {α R M C : Type} [Sample α]

open Prefill (Level)

/-- Every call of `process_frame` that `op` is has a size that `P` allows. -/
def EngineOp.Sized (P : Nat → Prop) (op : EngineOp α R M) : Prop :=
  ∀ c, op = .processFrame c → P c.numFrames

namespace Engine

variable {api : Denoisers α R M} {e : Engine α R M} {l : Level} {n : Nat}

/-! ## Inside a call -/

/-- A chunk goes from one vector to the other. -/
theorem sizes_processMonoChunk (api : Denoisers α R M) (e : Engine α R M) (elapsedMs : α)
    (hfull : DENOISE_FRAME_SIZE ≤ e.inputBuffer.length) :
    (e.processMonoChunk api elapsedMs).sizes =
      (e.inputBuffer.length - DENOISE_FRAME_SIZE, e.outputBuffer.length + DENOISE_FRAME_SIZE) := by
  have hchunk : (e.inputBuffer.take DENOISE_FRAME_SIZE).length = DENOISE_FRAME_SIZE := by
    rw [List.length_take]
    omega
  have hout := length_denoiseChunk api e elapsedMs hchunk
  rw [processMonoChunk_eq]
  unfold sizes withBuffers
  dsimp only
  rw [List.length_drop, List.length_append, hout]

/-- Whole chunks went from one vector to the other. -/
structure Moved (e e' : Engine α R M) : Prop where
  sum : e'.inputBuffer.length + e'.outputBuffer.length =
    e.inputBuffer.length + e.outputBuffer.length
  le : e'.inputBuffer.length ≤ e.inputBuffer.length
  mod : e'.inputBuffer.length % DENOISE_FRAME_SIZE = e.inputBuffer.length % DENOISE_FRAME_SIZE
  readPos : e'.outputReadPos = e.outputReadPos
  started : e'.outputStarted = e.outputStarted

omit [Sample α] in
theorem Moved.refl (e : Engine α R M) : e.Moved e := ⟨rfl, Nat.le_refl _, rfl, rfl, rfl⟩

theorem Moved.processMonoChunk {e' : Engine α R M} (h : e.Moved e') (api : Denoisers α R M)
    (elapsedMs : α) (hfull : DENOISE_FRAME_SIZE ≤ e'.inputBuffer.length) :
    e.Moved (e'.processMonoChunk api elapsedMs) := by
  have hsum := h.sum
  have hle := h.le
  have hsizes := sizes_processMonoChunk api e' elapsedMs hfull
  have hin := congrArg Prod.fst hsizes
  have hout := congrArg Prod.snd hsizes
  simp only [sizes] at hin hout
  refine ⟨by omega, by omega, ?_, ?_, ?_⟩
  · rw [hin, ← h.mod]
    exact (Nat.mod_eq_sub_mod hfull).symm
  · rw [processMonoChunk_eq]
    exact h.readPos
  · rw [processMonoChunk_eq]
    exact h.started

/-- The loop over complete chunks moves samples, at every entry and after it. -/
theorem moved_processChunks (api : Denoisers α R M) (clock : Nat → α) (fuel k : Nat)
    (e : Engine α R M) :
    (∀ entry ∈ chunkEntries api clock fuel k e,
      e.Moved entry.1 ∧ DENOISE_FRAME_SIZE ≤ entry.1.inputBuffer.length) ∧
    e.Moved (processChunks api clock fuel k e) :=
  processChunks_invariant (fun _ elapsedMs h hfull => h.processMonoChunk api elapsedMs hfull)
    clock fuel k (.refl e)

/-- Every chunk that is denoised was in the input. -/
theorem length_chunkEntries (api : Denoisers α R M) (clock : Nat → α) (fuel k : Nat)
    (e : Engine α R M) :
    DENOISE_FRAME_SIZE * (chunkEntries api clock fuel k e).length ≤ e.inputBuffer.length := by
  induction fuel generalizing k e with
  | zero => exact Nat.zero_le _
  | succ fuel ih =>
    unfold chunkEntries
    split
    · rename_i hfull
      have hrest := ih (k + 1) (e.processMonoChunk api (clock k))
      have hin := congrArg Prod.fst (sizes_processMonoChunk api e (clock k) hfull)
      simp only [sizes] at hin
      rw [List.length_cons, Nat.mul_add, Nat.mul_one]
      omega
    · exact Nat.zero_le _

theorem length_buffered (e : Engine α R M) (c : ProcessCall α) :
    (e.buffered c).inputBuffer.length = e.inputBuffer.length + c.numFrames := by
  unfold buffered
  rw [List.length_append, List.length_map, List.length_range]

/-- The chunks that one call denoises. -/
theorem length_entries (api : Denoisers α R M) (e : Engine α R M) (c : ProcessCall α) :
    DENOISE_FRAME_SIZE * (e.entries api c).length ≤ e.inputBuffer.length + c.numFrames := by
  have hloop := length_chunkEntries api c.clock (e.buffered c).inputBuffer.length 0 (e.buffered c)
  rw [length_buffered] at hloop
  unfold entries
  split
  · exact Nat.zero_le _
  · split
    · exact Nat.zero_le _
    · rw [length_buffered]
      exact hloop

omit [Sample α] in
/-- An answer takes nothing in. -/
theorem sizes_advance (e : Engine α R M) (numFrames : Nat) :
    (e.advance numFrames).sizes.1 = e.sizes.1 ∧ (e.advance numFrames).sizes.2 ≤ e.sizes.2 := by
  unfold advance sizes
  dsimp only
  split
  · refine ⟨rfl, ?_⟩
    rw [List.length_drop]
    omega
  · exact ⟨rfl, Nat.le_refl _⟩

/-- While a call runs, the first vector holds at most what was left over and the new samples, and
    the second at most this and what it held. -/
theorem Inv.vectorSizes_le (h : e.Inv) (api : Denoisers α R M) (c : ProcessCall α) :
    ∀ v ∈ e.vectorSizes api c, v.1 ≤ e.inputBuffer.length + c.numFrames ∧
      v.2 ≤ e.inputBuffer.length + c.numFrames + e.outputBuffer.length := by
  unfold vectorSizes
  split
  · exact fun _ hv => absurd hv List.not_mem_nil
  · rename_i hstatus
    have hlive := h.live (not_not.mp hstatus)
    split
    · exact fun _ hv => absurd hv List.not_mem_nil
    · have hlen := length_buffered e c
      obtain ⟨hentries, hafter⟩ :=
        moved_processChunks api c.clock (e.buffered c).inputBuffer.length 0 (e.buffered c)
      -- what holds of every state that the loop goes through
      have hmoved : ∀ e' : Engine α R M, (e.buffered c).Moved e' →
          e'.sizes.1 ≤ e.inputBuffer.length + c.numFrames ∧
          e'.sizes.2 ≤ e.inputBuffer.length + c.numFrames + e.outputBuffer.length := by
        intro e' hstate
        have hsum := hstate.sum
        have hle := hstate.le
        have hout : (e.buffered c).outputBuffer.length = e.outputBuffer.length := rfl
        simp only [sizes]
        omega
      intro v hv
      rw [List.mem_append, List.mem_cons, List.mem_singleton] at hv
      rcases hv with (rfl | hv) | rfl
      · exact hmoved _ (.refl _)
      · obtain ⟨entry, hentry, rfl⟩ := List.mem_map.mp hv
        rw [hlive.entries_eq] at hentry
        obtain ⟨hstate, hfull⟩ := hentries entry hentry
        exact hmoved _ (hstate.processMonoChunk api entry.2 hfull)
      · have haccepted : (e.accepted api c.clock c.input c.numFrames).sizes =
            (e.accept api c.clock c.input c.numFrames).sizes := by
          unfold accepted
          rw [prefill_eq]
          rfl
        have hloop := hmoved _ hafter
        have hsame : (processChunks api c.clock (e.buffered c).inputBuffer.length 0
            (e.buffered c)).sizes = (e.accept api c.clock c.input c.numFrames).sizes := rfl
        rw [hsame, ← haccepted] at hloop
        obtain ⟨hin, hout⟩ := sizes_advance (e.accepted api c.clock c.input c.numFrames) c.numFrames
        unfold process
        rw [hlive.engine_processFrame]
        split
        · omega
        · exact hloop

/-! ## Counts from one reset to the next -/

/-- `l` counts what went through the buffers since they were cleared. -/
structure Counted (l : Level) (e : Engine α R M) : Prop where
  inv : l.Inv DENOISE_FRAME_SIZE
  input : e.inputBuffer.length = l.accepted % DENOISE_FRAME_SIZE
  output : e.available = l.available DENOISE_FRAME_SIZE
  started : e.outputStarted = l.started
  compact : e.outputReadPos ≤ OUTPUT_PREFILL_SAMPLES

omit [Sample α] in
/-- An engine with nothing in its buffers. -/
theorem counted_empty (h : e.core = e) :
    e.Counted { accepted := 0, emitted := 0, started := false } where
  inv := ⟨Nat.zero_le _, fun _ => rfl⟩
  input := congrArg (fun e => e.inputBuffer.length) h.symm
  output := congrArg available h.symm
  started := (congrArg outputStarted h).symm
  compact := by
    have hpos : e.outputReadPos = 0 := (congrArg outputReadPos h).symm
    rw [hpos]
    exact Nat.zero_le _

omit [Sample α] in
/-- Only the buffers and the read cursor matter. -/
theorem Counted.congr (h : e.Counted l) {e' : Engine α R M}
    (hsame : e' = e'.withBuffers e.inputBuffer e.outputBuffer e.outputReadPos e.outputStarted) :
    e'.Counted l := by
  rw [hsame]
  exact ⟨h.inv, h.input, h.output, h.started, h.compact⟩

omit [Sample α] in
/-- The buffers hold the backlog. -/
theorem Counted.backlog_eq (h : e.Counted l) : e.inputBuffer.length + e.available = l.backlog := by
  have hle := h.inv.emitted_le
  have hdiv := Nat.div_add_mod l.accepted DENOISE_FRAME_SIZE
  rw [h.input, h.output]
  simp only [Level.available, Level.backlog]
  omega

/-- Up to its answer a call is counted as accepted. -/
theorem Counted.accepted (h : e.Counted l) (hinv : e.Inv) (api : Denoisers α R M)
    (c : ProcessCall α) :
    (e.accepted api c.clock c.input c.numFrames).Counted
      (l.accept DENOISE_FRAME_SIZE OUTPUT_PREFILL_SAMPLES c.numFrames) ∧
    (e.accepted api c.clock c.input c.numFrames).outputReadPos = e.outputReadPos := by
  have hlen := length_buffered e c
  have hshort : (processChunks api c.clock (e.buffered c).inputBuffer.length 0
      (e.buffered c)).inputBuffer.length < DENOISE_FRAME_SIZE :=
    length_processChunks c.clock _ 0 (Nat.le_refl _)
  obtain ⟨-, hmoved⟩ :=
    moved_processChunks api c.clock (e.buffered c).inputBuffer.length 0 (e.buffered c)
  have haccept : processChunks api c.clock (e.buffered c).inputBuffer.length 0 (e.buffered c) =
      e.accept api c.clock c.input c.numFrames := rfl
  rw [haccept] at hshort hmoved
  unfold Engine.accepted
  generalize e.accept api c.clock c.input c.numFrames = e' at hshort hmoved ⊢
  have hpos : e'.outputReadPos = e.outputReadPos := hmoved.readPos
  have hin : e'.inputBuffer.length = (l.accepted + c.numFrames) % DENOISE_FRAME_SIZE := by
    have hmod := hmoved.mod
    rw [Nat.mod_eq_of_lt hshort, hlen, h.input, Nat.mod_add_mod] at hmod
    exact hmod
  -- what left the input is in the output
  have hout : e'.available = (l.accept DENOISE_FRAME_SIZE OUTPUT_PREFILL_SAMPLES
      c.numFrames).available DENOISE_FRAME_SIZE := by
    have hsum : e'.inputBuffer.length + e'.outputBuffer.length =
        (e.buffered c).inputBuffer.length + e.outputBuffer.length := hmoved.sum
    have hcursor := hinv.cursor
    have hinput := h.input
    have houtput := h.output
    have hle := h.inv.emitted_le
    unfold CursorInside at hcursor
    unfold available at houtput ⊢
    simp only [Level.available, Level.accept, DENOISE_FRAME_SIZE] at *
    omega
  rw [prefill_eq]
  refine ⟨⟨h.inv.accept _ _, hin, hout, ?_, ?_⟩, hpos⟩
  · show e'.prefill.outputStarted = _
    rw [prefill_started, hmoved.started, hout]
    show (e.outputStarted || _) = _
    rw [h.started]
    rfl
  · show e'.outputReadPos ≤ _
    rw [hpos]
    exact h.compact

omit [Sample α] in
/-- Reading is counted as emitted, and moves the cursor on or back to the start. -/
theorem Counted.advance (h : e.Counted l) (hready : e.ready n = true) :
    (e.advance n).Counted { l with emitted := l.emitted + n } ∧
      ((e.advance n).outputReadPos = 0 ∨ (e.advance n).outputReadPos = e.outputReadPos + n) := by
  simp only [ready, Bool.and_eq_true, decide_eq_true_eq] at hready
  obtain ⟨hstarted, hthere⟩ := hready
  have hinv : ({ l with emitted := l.emitted + n } : Level).Inv DENOISE_FRAME_SIZE := by
    have hle := h.inv.emitted_le
    rw [h.output, Level.available] at hthere
    refine ⟨?_, fun hclosed => ?_⟩
    · show l.emitted + n ≤ DENOISE_FRAME_SIZE * (l.accepted / DENOISE_FRAME_SIZE)
      omega
    · cases hstarted.symm.trans (h.started.trans hclosed)
  have hout := h.output
  unfold available at hout hthere
  unfold Engine.advance
  dsimp only
  split
  · refine ⟨⟨hinv, h.input, ?_, h.started, Nat.zero_le _⟩, .inl rfl⟩
    show (e.outputBuffer.drop _).length - 0 = _
    rw [List.length_drop]
    simp only [Level.available] at hout ⊢
    omega
  · rename_i hnear
    refine ⟨⟨hinv, h.input, ?_, h.started, Nat.le_of_not_lt hnear⟩, .inr rfl⟩
    show e.outputBuffer.length - (e.outputReadPos + n) = _
    simp only [Level.available] at hout ⊢
    omega

/-- A call of a running engine is counted as a request. -/
theorem Counted.process (h : e.Counted l) (hinv : e.Inv) (hrunning : e.status = .running)
    (api : Denoisers α R M) (c : ProcessCall α) :
    (e.process api c).2.2.Counted
      (l.step DENOISE_FRAME_SIZE OUTPUT_PREFILL_SAMPLES c.numFrames) ∧
    ((e.process api c).2.2.outputReadPos = 0 ∨
      (e.process api c).2.2.outputReadPos = e.outputReadPos ∨
      (e.process api c).2.2.outputReadPos = e.outputReadPos + c.numFrames) := by
  obtain ⟨hacc, hpos⟩ := h.accepted hinv api c
  have hlive := hinv.live hrunning
  -- engine and counts agree on whether the call is answered with audio
  have hsame : (e.accepted api c.clock c.input c.numFrames).ready c.numFrames =
      (l.accept DENOISE_FRAME_SIZE OUTPUT_PREFILL_SAMPLES c.numFrames).ready
        DENOISE_FRAME_SIZE c.numFrames := by
    unfold ready Level.ready
    rw [hacc.started, hacc.output]
  unfold Engine.process
  rw [hlive.engine_processFrame]
  unfold answersAudio
  rw [hsame]
  cases hready : (l.accept DENOISE_FRAME_SIZE OUTPUT_PREFILL_SAMPLES c.numFrames).ready
      DENOISE_FRAME_SIZE c.numFrames with
  | true =>
    obtain ⟨hnext, hcursor⟩ := hacc.advance (hsame.trans hready)
    have hstarted := (Level.ready_iff.mp hready).1
    rw [if_pos rfl, Level.step_of_ready hready]
    rw [hpos] at hcursor
    refine ⟨?_, hcursor.imp_right .inr⟩
    have heq : ({ l.accept DENOISE_FRAME_SIZE OUTPUT_PREFILL_SAMPLES c.numFrames with
        emitted := l.emitted + c.numFrames } : Level) =
        { accepted := l.accepted + c.numFrames, emitted := l.emitted + c.numFrames,
          started := true } := by
      rw [← hstarted]
      rfl
    rw [← heq]
    exact hnext
  | false =>
    rw [if_neg Bool.false_ne_true, Level.step_of_silent hready]
    exact ⟨hacc, .inr (.inl hpos)⟩

/-- The buffers, the read cursor and the prefill flag are those of `e`, or they were cleared. -/
def KeepsOrClears (e e' : Engine α R M) : Prop :=
  e' = e'.withBuffers e.inputBuffer e.outputBuffer e.outputReadPos e.outputStarted ∨ e'.core = e'

/-- A call other than `process_frame` leaves the buffers as they are or clears them. -/
theorem keepsOrClears_after (api : Denoisers α R M) (e : Engine α R M) {op : EngineOp α R M}
    (hop : ∀ c, op ≠ .processFrame c) : e.KeepsOrClears (e.after api op) := by
  cases op with
  | init format created found =>
    show e.KeepsOrClears (e.init format created found).2
    cases created with
    | none => exact .inl rfl
    | some state =>
      rw [init_some]
      exact .inr rfl
  | shutdown => exact .inr rfl
  | setMode m =>
    show e.KeepsOrClears (e.setMode m)
    by_cases hsame : e.mode = m
    · rw [setMode_self hsame]
      exact .inl rfl
    · rw [setMode_eq hsame]
      exact .inr rfl
  | loadDeepfilterModel found =>
    show e.KeepsOrClears (e.loadDeepfilterModel found)
    rw [loadDeepfilterModel_eq]
    exact .inl rfl
  | loadDeepfilterModelFrom file =>
    show e.KeepsOrClears (e.loadDeepfilterModelFrom file).2
    rw [loadDeepfilterModelFrom_eq]
    exact .inl rfl
  | setDryMix mix => exact .inl rfl
  | setAttenuationLimit db =>
    show e.KeepsOrClears (e.setAttenuationLimit db)
    unfold setAttenuationLimit
    rw [applyAttenuationForMode_eq]
    exact .inl rfl
  | processFrame c => exact absurd rfl (hop c)

/-- What calls of the sizes `ok` keep of the counts and of the read cursor. -/
structure Kept (ok : Nat → Prop) (Q : Level → Prop) (P : Nat → Prop) : Prop where
  zero : Q { accepted := 0, emitted := 0, started := false }
  step : ∀ l n, l.Inv DENOISE_FRAME_SIZE → ok n → Q l →
    Q (l.step DENOISE_FRAME_SIZE OUTPUT_PREFILL_SAMPLES n)
  readPos_zero : P 0
  readPos_add : ∀ r n, ok n → P r → P (r + n)

/-- The engine between two calls, with counts in `Q` and a read cursor in `P`. -/
structure Tallied (Q : Level → Prop) (P : Nat → Prop) (e : Engine α R M) : Prop where
  inv : e.Inv
  level : ∃ l, e.Counted l ∧ Q l
  readPos : P e.outputReadPos

variable {ok : Nat → Prop} {Q : Level → Prop} {P : Nat → Prop}

omit [Sample α] in
/-- An engine with nothing in its buffers. -/
theorem Kept.empty [Sample α] (h : Kept ok Q P) (hinv : e.Inv) (hempty : e.core = e) :
    e.Tallied Q P where
  inv := hinv
  level := ⟨_, counted_empty hempty, h.zero⟩
  readPos := by
    have hpos : e.outputReadPos = 0 := (congrArg outputReadPos hempty).symm
    rw [hpos]
    exact h.readPos_zero

theorem Kept.new (h : Kept ok Q P) : (new : Engine α R M).Tallied Q P := h.empty inv_new rfl

/-- Every call keeps the counts and the cursor where they are. -/
theorem Kept.after (h : Kept ok Q P) (ht : e.Tallied Q P) (api : Denoisers α R M)
    {op : EngineOp α R M} (hop : op.Sized ok) : (e.after api op).Tallied Q P := by
  have hinv := ht.inv.after api op
  obtain ⟨l, hl, hq⟩ := ht.level
  by_cases hcall : ∃ c, op = .processFrame c
  · obtain ⟨c, rfl⟩ := hcall
    by_cases hrunning : e.status = .running
    · obtain ⟨hnext, hpos⟩ := hl.process ht.inv hrunning api c
      refine ⟨hinv, ⟨_, hnext, h.step l _ hl.inv (hop c rfl) hq⟩, ?_⟩
      show P (e.process api c).2.2.outputReadPos
      rcases hpos with hpos | hpos | hpos
      · rw [hpos]
        exact h.readPos_zero
      · rw [hpos]
        exact ht.readPos
      · rw [hpos]
        exact h.readPos_add _ _ (hop c rfl) ht.readPos
    · show (e.process api c).2.2.Tallied Q P
      rw [process_of_not_running hrunning]
      exact ht
  · rcases keepsOrClears_after api e (fun c hc => hcall ⟨c, hc⟩) with hsame | hempty
    · refine ⟨hinv, ⟨l, hl.congr hsame, hq⟩, ?_⟩
      rw [hsame]
      exact ht.readPos
    · exact h.empty hinv hempty

/-- Calls of at most `limit` frames keep the backlog bounded. -/
theorem kept_backlog (limit : Nat) :
    Kept (· ≤ limit) (fun l => l.backlog ≤ max 959 (limit + 478)) (fun _ => True) where
  zero := Nat.zero_le _
  step := fun _ _ hinv hle hl => hinv.backlog_step_le OUTPUT_PREFILL_SAMPLES limit (by decide)
    (by decide) hle hl
  readPos_zero := trivial
  readPos_add := fun _ _ _ _ => trivial

/-- Calls of one size, at most the cushion, keep their pace. -/
theorem kept_paced (hn : 0 < n) (hle : n ≤ OUTPUT_PREFILL_SAMPLES) :
    Kept (· = n) (Level.Paced DENOISE_FRAME_SIZE OUTPUT_PREFILL_SAMPLES n) (n ∣ ·) where
  zero := Level.paced_start hn (by decide)
  step := by
    rintro l m hinv rfl hl
    exact hl.step hinv (by decide) (by decide) (by decide) hn hle
  readPos_zero := Nat.dvd_zero n
  readPos_add := by
    rintro r m rfl hr
    exact Nat.dvd_add hr (Nat.dvd_refl m)

/-- While a call runs, the second vector holds at most what was read of it, the backlog and the new
    samples. -/
theorem Counted.vectorSizes_le (h : e.Counted l) (hinv : e.Inv) {c : ProcessCall α}
    {v : Nat × Nat} (hv : v ∈ e.vectorSizes api c) :
    v.1 < DENOISE_FRAME_SIZE + c.numFrames ∧
      v.2 ≤ e.outputReadPos + (l.backlog + c.numFrames) := by
  obtain ⟨hin, hout⟩ := hinv.vectorSizes_le api c v hv
  have hshort := hinv.input_lt
  have hcursor := hinv.cursor
  have hbacklog := h.backlog_eq
  unfold CursorInside at hcursor
  unfold available at hbacklog
  omega

/-- What a call of at most `limit` frames can cost. -/
theorem Tallied.call_le {limit : Nat}
    (h : e.Tallied (fun l => l.backlog ≤ max 959 (limit + 478)) fun _ => True)
    {c : ProcessCall α} (hle : c.numFrames ≤ limit) :
    (e.entries api c).length ≤ (limit + 479) / 480 ∧
      ∀ v ∈ e.vectorSizes api c,
        v.1 ≤ limit + 479 ∧ v.2 ≤ 960 + (max 959 (limit + 478) + limit) := by
  obtain ⟨l, hl, hbacklog⟩ := h.level
  have hentries := length_entries api e c
  have hshort := h.inv.input_lt
  simp only [DENOISE_FRAME_SIZE] at hentries hshort
  refine ⟨?_, fun v hv => ?_⟩
  · rw [Nat.le_div_iff_mul_le (by decide)]
    omega
  · have hcompact := hl.compact
    obtain ⟨hin, hout⟩ := hl.vectorSizes_le h.inv hv
    simp only [OUTPUT_PREFILL_SAMPLES, DENOISE_FRAME_SIZE] at hcompact hin
    omega

/-- What a call costs where all have `n` frames. -/
theorem Tallied.equal_call_le
    (h : e.Tallied (Level.Paced DENOISE_FRAME_SIZE OUTPUT_PREFILL_SAMPLES n) (n ∣ ·))
    (hn : 0 < n) {c : ProcessCall α} (hc : c.numFrames = n) {v : Nat × Nat}
    (hv : v ∈ e.vectorSizes api c) :
    v.1 ≤ n + 479 ∧ v.2 ≤ n * (960 / n) + n * ((960 + n - 1) / n) := by
  obtain ⟨l, hl, hpaced⟩ := h.level
  obtain ⟨hin, hout⟩ := hl.vectorSizes_le h.inv hv
  have hcompact : e.outputReadPos ≤ 960 := hl.compact
  have hbacklog : l.backlog + n ≤ n * ((960 + n - 1) / n) := hpaced.backlog
  -- the cursor is a multiple of the size
  have hcursor : e.outputReadPos ≤ n * (960 / n) := by
    obtain ⟨k, hk⟩ := h.readPos
    rw [hk] at hcompact ⊢
    refine Nat.mul_le_mul_left n ?_
    rw [Nat.le_div_iff_mul_le hn, Nat.mul_comm]
    exact hcompact
  rw [hc] at hin hout
  simp only [DENOISE_FRAME_SIZE] at hin
  omega

/-- Calls of the sizes `ok` keep `P`, from a new engine on. -/
structure Stable (api : Denoisers α R M) (ok : Nat → Prop) (P : Engine α R M → Prop) : Prop where
  new : P new
  after : ∀ e (op : EngineOp α R M), op.Sized ok → P e → P (e.after api op)

theorem Kept.stable (h : Kept ok Q P) (api : Denoisers α R M) :
    Stable api ok (Tallied Q P : Engine α R M → Prop) where
  new := h.new
  after := fun _ _ hop ht => h.after ht api hop

end Engine

/-! ## The engine of the app -/

open Engine (Stable)

omit [Sample α] in
theorem EngineOp.sized_of_ne {ok : Nat → Prop} {op : EngineOp α R M}
    (h : ∀ c, op ≠ .processFrame c) : op.Sized ok := fun c hc => absurd hc (h c)

namespace AudioManager

variable {m : AudioManager α R M} {api : Denoisers α R M} {ok : Nat → Prop}
  {P : Engine α R M → Prop}

/-- There is an engine, and it satisfies `P`. -/
def Has (P : Engine α R M → Prop) (m : AudioManager α R M) : Prop :=
  ∃ ctx, m.engineHandle = some ctx ∧ P ctx.engine

theorem Has.start (h : m.Has P) (hP : Stable api ok P) (deviceID : Option AudioObjectID)
    (o : StartOutcome R M) : (m.start deviceID o).Has P := by
  obtain ⟨ctx, hctx, hengine⟩ := h
  refine ⟨_, (start_shm hctx deviceID o).2, ?_⟩
  split
  · exact hP.after _ (.init ⟨48000, 2, 128⟩ o.created o.found) (EngineOp.sized_of_ne nofun) hengine
  · exact hengine

theorem Has.stop (h : m.Has P) (hP : Stable api ok P) : m.stop.Has P := by
  obtain ⟨ctx, hctx, hengine⟩ := h
  exact ⟨_, (stop_shm hctx).2, hP.after _ .shutdown (EngineOp.sized_of_ne nofun) hengine⟩

theorem Has.switchDevice (h : m.Has P) (hP : Stable api ok P) (deviceID : Option AudioObjectID)
    (o : StartOutcome R M) : (m.switchDevice deviceID o).Has P := by
  have hset : ({ m with currentDeviceID := deviceID } : AudioManager α R M).Has P := h
  rcases Bool.eq_false_or_eq_true m.isProcessing with hprocessing | hprocessing
  · rw [switchDevice_of_processing hprocessing]
    exact (hset.stop hP).start hP deviceID o
  · rw [switchDevice_of_idle hprocessing]
    exact hset

theorem Has.setMode (h : m.Has P) (hP : Stable api ok P) (mode : NoiseMode) :
    (m.setMode mode).Has P := by
  obtain ⟨ctx, hctx, hengine⟩ := h
  refine ⟨ctx.setMode mode, ?_, hP.after _ (.setMode mode) (EngineOp.sized_of_ne nofun) hengine⟩
  simp only [AudioManager.setMode, hctx, Option.map_some]

theorem Has.auhalInputCallback (h : m.Has P) (hP : Stable api ok P) {inNumberFrames : Nat}
    (hok : ok (CaptureContext.framesToRender inNumberFrames)) (clock outputBuf : Nat → α)
    (rendered : Option (Nat → α)) :
    (m.auhalInputCallback api inNumberFrames clock outputBuf rendered).Has P := by
  obtain ⟨ctx, hctx, hengine⟩ := h
  rcases auhalInputCallback_eq hctx api inNumberFrames clock outputBuf rendered with
    heq | ⟨input, heq⟩
  · rw [heq]
    exact ⟨ctx, hctx, hengine⟩
  · rw [heq]
    refine ⟨_, rfl, ?_⟩
    obtain ⟨-, -, hafter⟩ := ctx.processBlock_spec api clock outputBuf input
      (CaptureContext.framesToRender inNumberFrames)
    rcases hafter with hafter | hafter
    · rw [hafter]
      exact hengine
    · rw [hafter]
      refine hP.after _ _ ?_ hengine
      intro c hc
      cases hc
      exact hok

theorem has_new (hP : Stable api ok P) (shm : Shm α) (created : Option R)
    (found : Option (LoadOutcome M)) (bundled : Option (Option (LoadOutcome M))) :
    (new shm created found bundled).Has P := by
  have hcreate : P (NoiseEngineContext.create 48000 2 128 created found :
      NoiseEngineContext α R M).engine :=
    hP.after _ (.init ⟨48000, 2, 128⟩ created found) (EngineOp.sized_of_ne nofun) hP.new
  cases bundled with
  | none => exact ⟨_, rfl, hcreate⟩
  | some file =>
    exact ⟨_, rfl, hP.after _ (.loadDeepfilterModelFrom file) (EngineOp.sized_of_ne nofun) hcreate⟩

end AudioManager

/-- A callback of the audio unit makes a call of a size that `ok` allows. -/
def HostEvent.Brings (ok : Nat → Prop) : HostEvent α R M C → Prop
  | .auhalInput inNumberFrames _ _ _ => ok (CaptureContext.framesToRender inNumberFrames)
  | _ => True

namespace Host

variable {s s' : Host α R M} {api : Denoisers α R M} {ok : Nat → Prop} {P : Engine α R M → Prop}

/-- The engine of the app satisfies `P`. -/
def Has (P : Engine α R M → Prop) (s : Host α R M) : Prop := s.app.audioManager.Has P

theorem has_launch (hP : Stable api ok P) (shm : Shm α) (savedUID defaultMode : Option String)
    (io : IOHandler) (l : Launch R M) : (launch shm savedUID defaultMode io l).Has P := by
  have hnew := AudioManager.has_new hP shm l.created l.found l.bundled
  have hlaunched : (AppDelegate.applicationDidFinishLaunching
      (.new shm l.created l.found l.bundled) (.new savedUID l.hal) l.o).audioManager.Has P := by
    unfold AppDelegate.applicationDidFinishLaunching
    cases (DeviceManager.new savedUID l.hal).selectedDeviceID with
    | none => exact hnew
    | some deviceID => exact hnew.switchDevice hP (some deviceID) l.o
  unfold launch
  dsimp only
  split
  · exact hlaunched.setMode hP _
  · exact hlaunched

/-- Every event keeps what the calls of the engine keep. -/
theorem Has.step (h : s.Has P) (hP : Stable api ok P) {ev : HostEvent α R M C}
    (hok : ev.Brings ok) (hstep : s.step api ev = some s') : s'.Has P := by
  cases ev with
  | app ev =>
    obtain ⟨app, happ, rfl⟩ := Option.map_eq_some_iff.mp hstep
    rcases AppDelegate.step_cases happ with ⟨d, rfl⟩ | ⟨d, deviceID, rfl⟩ | ⟨-, rfl⟩ | ⟨-, rfl⟩
    · exact h
    · exact AudioManager.Has.switchDevice h hP deviceID _
    · exact AudioManager.Has.start h hP _ _
    · exact AudioManager.Has.stop h hP
  | pickMode mode =>
    simp only [Host.step] at hstep
    split at hstep
    · cases hstep
      exact h
    · cases hstep
      exact AudioManager.Has.setMode h hP mode
  | defaultMode mode =>
    cases hstep
    exact h
  | auhalInput inNumberFrames clock outputBuf rendered =>
    simp only [Host.step] at hstep
    split at hstep
    · cases hstep
      exact AudioManager.Has.auhalInputCallback h hP hok clock outputBuf rendered
    · cases hstep
  | relaunch deinitialized l =>
    cases hstep
    exact has_launch hP _ _ _ _ l
  -- the driver does not touch the app
  | onStart | onStop | onReadClientInput | driverRestart =>
    cases hstep
    exact h

theorem Has.run (h : s.Has P) (hP : Stable api ok P) {events : List (HostEvent α R M C)}
    (hok : ∀ ev ∈ events, ev.Brings ok) (hrun : Machine.run (Host.step api) s events = some s') :
    s'.Has P :=
  Machine.run_invariant (HostEvent.Brings ok) (Has P)
    (fun _ _ _ hok h hstep => h.step hP hok hstep) h hok hrun

end Host

/-- Whatever the user, Core Audio and the clients did before, and however often the app was
    launched: a callback of the audio unit denoises at most nine chunks, and while it runs the two
    vectors of the engine stay below fixed sizes. Where all callbacks bring `n` frames, both stay
    within what `init` reserves if the multiples of `n` next to 960 add up to no more than that. -/
theorem callback_bounded (api : Denoisers α R M) (shm : Shm α)
    (savedUID defaultMode : Option String) (io : IOHandler) (l : Launch R M)
    (events : List (HostEvent α R M C)) (s : Host α R M)
    (hrun : Machine.run (Host.step api) (.launch shm savedUID defaultMode io l) events = some s) :
    ∃ ctx, s.app.audioManager.engineHandle = some ctx ∧
      (∀ c : ProcessCall α, c.numFrames ≤ CaptureContext.maxFrames →
        (ctx.engine.entries api c).length ≤ 9 ∧
        ∀ v ∈ ctx.engine.vectorSizes api c, v.1 ≤ 4575 ∧ v.2 ≤ 9630) ∧
      ∀ n, 0 < n → n ≤ OUTPUT_PREFILL_SAMPLES →
        n * (960 / n) + n * ((960 + n - 1) / n) ≤ RESERVED_SAMPLES →
        (∀ ev ∈ events, ev.Brings (· = n)) →
        ∀ c : ProcessCall α, c.numFrames = n → ∀ v ∈ ctx.engine.vectorSizes api c,
          v.1 ≤ RESERVED_SAMPLES ∧ v.2 ≤ RESERVED_SAMPLES := by
  -- `auhalInputCallback` clamps every callback to 4096 frames
  have hclamped : ∀ ev ∈ events, ev.Brings (· ≤ 4096) := by
    intro ev _
    cases ev with
    | auhalInput inNumberFrames clock outputBuf rendered => exact Nat.min_le_right _ _
    | app | pickMode | defaultMode | relaunch | onStart | onStop | onReadClientInput
      | driverRestart => trivial
  have hbacklog := (Engine.kept_backlog 4096).stable api
  obtain ⟨ctx, hctx, htallied⟩ :=
    (Host.has_launch hbacklog shm savedUID defaultMode io l).run hbacklog hclamped hrun
  refine ⟨ctx, hctx, fun c hc => htallied.call_le hc, ?_⟩
  -- callbacks of `n` frames keep more than any do
  intro n hn hle hreserved hok c hc v hv
  have hpaced := (Engine.kept_paced hn hle).stable api
  obtain ⟨ctx', hctx', hsteady⟩ :=
    (Host.has_launch hpaced shm savedUID defaultMode io l).run hpaced hok hrun
  cases hctx.symm.trans hctx'
  obtain ⟨hin, hout⟩ := hsteady.equal_call_le hn hc hv
  refine ⟨?_, Nat.le_trans hout hreserved⟩
  have hcushion : n ≤ 960 := hle
  show v.1 ≤ 1920
  omega

/-- A callback of 128 frames. -/
def callback128 : HostEvent ℚ Unit Unit Unit :=
  .auhalInput 128 (fun _ => 0) (fun _ => 0) (some fun _ => 1)

/-- The app is toggled on, and the audio unit brings 128 frames at a time. -/
theorem callback_bounded_128 :
    ∃ s ctx, Machine.run (Host.step identityDenoisers) plainHost
        [.app (.toggle .ok), callback128, callback128] = some s ∧
      s.app.audioManager.engineHandle = some ctx ∧
      ∀ c : ProcessCall ℚ, c.numFrames = 128 →
        (ctx.engine.entries identityDenoisers c).length ≤ 9 ∧
        ∀ v ∈ ctx.engine.vectorSizes identityDenoisers c,
          v.1 ≤ RESERVED_SAMPLES ∧ v.2 ≤ RESERVED_SAMPLES := by
  have hsome : (Machine.run (Host.step identityDenoisers) plainHost
      [.app (.toggle .ok), callback128, callback128]).isSome = true := by decide +kernel
  obtain ⟨s, hrun⟩ := Option.isSome_iff_exists.mp hsome
  obtain ⟨ctx, hctx, hbounds, hreserved⟩ :=
    callback_bounded identityDenoisers .empty none none .new plainLaunch _ s hrun
  have hsizes : ∀ ev ∈ ([.app (.toggle .ok), callback128, callback128] :
      List (HostEvent ℚ Unit Unit Unit)), ev.Brings (· = 128) := by
    intro ev hev
    simp only [List.mem_cons, List.not_mem_nil, or_false] at hev
    rcases hev with rfl | rfl | rfl
    · trivial
    · rfl
    · rfl
  refine ⟨s, ctx, hrun, hctx, fun c hc => ⟨(hbounds c ?_).1, ?_⟩⟩
  · rw [hc]
    decide
  · exact hreserved 128 (by decide) (by decide) (by decide) hsizes c hc

end Noise
