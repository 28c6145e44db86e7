import NoiseAI.Spec.EngineSession

/-!
# Latency of the engine

The delay the engine adds is what it has accepted and not yet emitted as audio. Every
silent answer adds to it for good, and nothing takes it back. `backlog_bounded` bounds
it, and the two buffers, over every session; `no_silence_after_audio` says for which
calls the prefill cushion keeps the output going once it has started.
-/

namespace Noise

variable {α R M : Type} [Sample α]

namespace Session

variable {api : Denoisers α R M} {clock : Nat → α} {s s' : Session α R M} {channels limit : Nat}

/-- Frames accepted and not emitted as audio. -/
def backlog (s : Session α R M) : Nat := s.stream.input.length - s.delivered.length

omit [Sample α] in
/-- The backlog is what the two buffers of the engine hold. -/
theorem Tracks.backlog_eq (h : s.Tracks channels) :
    s.backlog = s.engine.inputBuffer.length +
      (s.engine.outputBuffer.length - s.engine.outputReadPos) := by
  obtain ⟨t, hstream, hlen⟩ := h
  have havail := hstream.available_eq
  have hdiv := Nat.div_add_mod t.input.length DENOISE_FRAME_SIZE
  have hemitted := hstream.emitted_le
  rw [hstream.length] at hemitted
  simp only [Engine.available, Prefill.Level.available, Engine.level] at havail
  rw [hstream.input, List.length_drop, havail, backlog, ← hlen]
  omega

omit [Sample α] in
/-- Less than a chunk waits in the input buffer. -/
theorem Tracks.inputBuffer_lt (h : s.Tracks channels) :
    s.engine.inputBuffer.length < DENOISE_FRAME_SIZE := by
  obtain ⟨t, hstream, _⟩ := h
  have hdiv := Nat.div_add_mod t.input.length DENOISE_FRAME_SIZE
  have hmod := Nat.mod_lt t.input.length (show 0 < DENOISE_FRAME_SIZE by decide)
  rw [hstream.input, List.length_drop]
  omega

omit [Sample α] in
/-- Compaction keeps the part of the output buffer that was read small. -/
theorem Tracks.outputBuffer_le (h : s.Tracks channels) :
    s.engine.outputBuffer.length ≤ OUTPUT_PREFILL_SAMPLES + s.backlog := by
  have hbacklog := h.backlog_eq
  obtain ⟨t, hstream, _⟩ := h
  have hcompact := hstream.compact
  omega

omit [Sample α] in
theorem Tracks.delivered_le (h : s.Tracks channels) :
    s.delivered.length ≤ s.stream.input.length := h.level_inv.emitted_le_accepted

/-- A session with calls of at most `limit` frames: the backlog is what was answered with
    silence, and it is bounded. -/
structure Bounded (channels limit : Nat) (s : Session α R M) : Prop where
  tracks : s.Tracks channels
  silent : s.backlog = s.silent
  bound : s.backlog ≤ max 959 (limit + 478)

theorem Bounded.start {e : Engine α R M} {format : AudioFormat} {created : Option R}
    {found : Option (LoadOutcome M)} (hinit : (e.init format created found).1 = true)
    (limit : Nat) : (start (e.init format created found).2).Bounded format.channels limit where
  tracks := tracks_start hinit
  silent := rfl
  bound := Nat.zero_le _

/-- A session step with a call of at most `limit` frames keeps the bound. -/
theorem Bounded.step {op : SessionOp α M} (h : s.Bounded channels limit)
    (hop : op.Sized (· ≤ limit))
    (hstep : s.step api clock op = some s') :
    s'.Bounded channels limit ∧ s.backlog ≤ s'.backlog := by
  have hinv := h.tracks.level_inv
  have hsilent := h.silent
  have hbound := h.bound
  obtain ⟨htracks, ⟨c, rfl, hlevel, hcount⟩ | ⟨_, hlevel, hcount⟩⟩ := h.tracks.step hstep
  · have hbacklog := congrArg Prefill.Level.backlog hlevel
    have hle := hinv.backlog_step_le OUTPUT_PREFILL_SAMPLES limit (by decide) (by decide)
      (hop c rfl)
      hbound
    rw [← hbacklog] at hle
    have hanswer := h.tracks.answersAudio_eq api clock c
    cases haudio : s.answersAudio api clock c with
    | true =>
      rw [haudio] at hanswer hcount
      rw [Prefill.Level.backlog_step_of_ready hanswer.symm] at hbacklog
      have hsame : s'.backlog = s.backlog := hbacklog
      exact ⟨⟨htracks, by rw [hsame, hsilent, hcount]; rfl, hle⟩, by omega⟩
    | false =>
      rw [haudio] at hanswer hcount
      rw [hinv.backlog_step_of_silent hanswer.symm] at hbacklog
      have hmore : s'.backlog = s.backlog + c.numFrames := hbacklog
      exact ⟨⟨htracks, by rw [hmore, hsilent, hcount]; rfl, hle⟩, by omega⟩
  · have hsame : s'.backlog = s.backlog := congrArg Prefill.Level.backlog hlevel
    exact ⟨⟨htracks, by rw [hsame, hsilent, hcount], by omega⟩, by omega⟩

/-- The bound holds after every run of a session. -/
theorem Bounded.run {e : Engine α R M} {format : AudioFormat} {created : Option R}
    {found : Option (LoadOutcome M)} (hinit : (e.init format created found).1 = true)
    {ops : List (SessionOp α M)} (hops : ∀ op ∈ ops, op.Sized (· ≤ limit))
    (hrun : Machine.run (Session.step api clock) (Session.start (e.init format created found).2)
      ops = some s) :
    s.Bounded format.channels limit :=
  Machine.run_invariant (fun op : SessionOp α M => op.Sized (· ≤ limit))
    (Bounded format.channels limit) (fun _ _ _ hop h hstep => (h.step hop hstep).1)
    (Bounded.start hinit limit) hops hrun

end Session

/-- The latency of the engine is bounded for all time: over every session with calls of at
    most `limit` frames the backlog is the number of frames answered with silence, never
    falls and stays below the bound, and so do the two buffers. In an endless session only
    finitely many frames are answered with silence. -/
theorem backlog_bounded (api : Denoisers α R M) (clock : Nat → α) (e : Engine α R M)
    (format : AudioFormat) (created : Option R) (found : Option (LoadOutcome M))
    (hinit : (e.init format created found).1 = true) (limit : Nat) :
    (∀ (ops : List (SessionOp α M)) (s : Session α R M),
      (∀ op ∈ ops, op.Sized (· ≤ limit)) →
      Machine.run (Session.step api clock) (Session.start (e.init format created found).2) ops =
        some s →
      s.delivered.length ≤ s.stream.input.length ∧
      s.stream.input.length - s.delivered.length =
        s.engine.inputBuffer.length + (s.engine.outputBuffer.length - s.engine.outputReadPos) ∧
      s.backlog = s.silent ∧
      s.backlog ≤ max 959 (limit + 478) ∧
      s.engine.inputBuffer.length ≤ 479 ∧
      s.engine.outputBuffer.length ≤ 960 + s.backlog ∧
      ∀ op s', op.Sized (· ≤ limit) → s.step api clock op = some s' →
        s.backlog ≤ s'.backlog) ∧
    ∀ (ops : Nat → SessionOp α M) (run : Nat → Session α R M),
      run 0 = Session.start (e.init format created found).2 →
      (∀ k, (ops k).Sized (· ≤ limit) ∧ (run k).step api clock (ops k) = some (run (k + 1))) →
      (∀ k, (run k).silent ≤ max 959 (limit + 478)) ∧
      ∃ K, ∀ k, K ≤ k → (run k).silent = (run K).silent := by
  constructor
  · intro ops s hops hrun
    have h := Session.Bounded.run hinit hops hrun
    have hinput := h.tracks.inputBuffer_lt
    exact ⟨h.tracks.delivered_le, h.tracks.backlog_eq, h.silent, h.bound, Nat.le_of_lt_succ hinput,
      h.tracks.outputBuffer_le, fun op s' hop hstep => (h.step hop hstep).2⟩
  · intro ops run hstart hsteps
    -- a run without end: the bound holds at every step, and the silence never shrinks
    have hall : ∀ k, (run k).Bounded format.channels limit := by
      intro k
      induction k with
      | zero => rw [hstart]; exact Session.Bounded.start hinit limit
      | succ k ih => exact (ih.step (hsteps k).1 (hsteps k).2).1
    have hbound : ∀ k, (run k).silent ≤ max 959 (limit + 478) := by
      intro k
      rw [← (hall k).silent]
      exact (hall k).bound
    have hmono : ∀ k, (run k).silent ≤ (run (k + 1)).silent := by
      intro k
      rw [← (hall k).silent, ← (hall (k + 1)).silent]
      exact ((hall k).step (hsteps k).1 (hsteps k).2).2
    exact ⟨hbound, Prefill.exists_const_of_bounded hmono hbound⟩

/-- Three calls of 480 frames. -/
theorem backlog_bounded_stereo :
    ∃ s, Machine.run (Session.step identityDenoisers fun _ => 0) stereoSession
        (List.replicate 3 (.processFrame (quietCall 480))) = some s ∧
      s.backlog = s.silent ∧ s.backlog ≤ 959 := by
  obtain ⟨s, hrun⟩ : ∃ s, Machine.run (Session.step identityDenoisers fun _ => 0) stereoSession
    (List.replicate 3 (.processFrame (quietCall 480))) = some s := ⟨_, rfl⟩
  have hsized : ∀ op : SessionOp ℚ Unit, op ∈ List.replicate 3 (.processFrame (quietCall 480)) →
      op.Sized (· ≤ 480) := by
    intro op hop
    rw [List.eq_of_mem_replicate hop]
    exact sized_quietCall (Nat.le_refl 480)
  have h := (backlog_bounded identityDenoisers (fun _ => 0) Engine.new stereo48k (some ()) none
    rfl 480).1 _ s hsized hrun
  exact ⟨s, hrun, h.2.2.1, h.2.2.2.1⟩

/-! ## No silence after the first audio -/

namespace Session

variable {api : Denoisers α R M} {clock : Nat → α} {s s' : Session α R M} {channels : Nat}

/-- The counts after a call. -/
theorem Tracks.level_call (h : s.Tracks channels) {c : Call α}
    (hstep : s.step api clock (.processFrame c) = some s') :
    s'.level = s.level.step DENOISE_FRAME_SIZE OUTPUT_PREFILL_SAMPLES c.numFrames := by
  rcases (h.step hstep).2 with ⟨c', hc, hlevel, _⟩ | ⟨hop, _⟩
  · cases hc
    exact hlevel
  · exact absurd rfl (hop c)

/-- A property of the counts that every allowed call preserves holds after every run of a
    session. -/
theorem Tracks.run_level {P : Nat → Prop} {Q : Prefill.Level → Prop}
    (hcall : ∀ l n, l.Inv DENOISE_FRAME_SIZE → P n → Q l →
      Q (l.step DENOISE_FRAME_SIZE OUTPUT_PREFILL_SAMPLES n))
    {ops : List (SessionOp α M)} (h : s.Tracks channels) (hq : Q s.level)
    (hops : ∀ op ∈ ops, op.Sized P)
    (hrun : Machine.run (Session.step api clock) s ops = some s') :
    s'.Tracks channels ∧ Q s'.level := by
  refine Machine.run_invariant (fun op : SessionOp α M => op.Sized P)
    (fun s => s.Tracks channels ∧ Q s.level) ?_ ⟨h, hq⟩ hops hrun
  intro s op s' hop ⟨h, hq⟩ hstep
  obtain ⟨htracks, ⟨c, rfl, hlevel, _⟩ | ⟨_, hlevel, _⟩⟩ := h.step hstep
  · rw [hlevel]
    exact ⟨htracks, hcall _ _ h.level_inv (hop c rfl) hq⟩
  · rw [hlevel]
    exact ⟨htracks, hq⟩

section
variable {e : Engine α R M} {format : AudioFormat} {created : Option R}
  {found : Option (LoadOutcome M)} (hinit : (e.init format created found).1 = true)
  {ops ops' : List (SessionOp α M)} {c c' : Call α} {s₁ : Session α R M}
  (hrun : Machine.run (Session.step api clock) (start (e.init format created found).2) ops = some s)
  (haudio : s.answersAudio api clock c = true)
  (hstep : s.step api clock (.processFrame c) = some s₁)
  (hrun' : Machine.run (Session.step api clock) s₁ ops' = some s')

include hinit hrun haudio hstep hrun'

/-- With calls of one size, the first audio starts the flow. -/
theorem audio_of_equal {n : Nat} (hops : ∀ op ∈ ops, op.Sized (· = n)) (hc : c.numFrames = n)
    (hops' : ∀ op ∈ ops', op.Sized (· = n)) (hc' : c'.numFrames = n) :
    s'.answersAudio api clock c' = true := by
  have hsize : 0 < DENOISE_FRAME_SIZE := by decide
  have hcushion : 2 * DENOISE_FRAME_SIZE ≤ OUTPUT_PREFILL_SAMPLES := by decide
  -- at the start nothing was accepted and nothing emitted
  have hbefore : (start (e.init format created found).2).level.EqualRequests
      DENOISE_FRAME_SIZE n := by
    rw [level_start hinit]
    exact ⟨Nat.dvd_zero n, .inl ⟨rfl, fun h => nomatch h⟩⟩
  obtain ⟨htracks, hequal⟩ := (tracks_start hinit).run_level
    (Q := (·.EqualRequests DENOISE_FRAME_SIZE n))
    (fun l m hinv hm h => by subst hm; exact h.step hinv hsize hcushion) hbefore hops hrun
  have hready := htracks.answersAudio_eq api clock c
  rw [haudio, hc] at hready
  -- the answer with audio leaves the counts in the range that every later call keeps
  have hflow := hequal.flowing_of_ready htracks.level_inv hsize hcushion hready.symm
  rw [← hc, ← htracks.level_call hstep, hc] at hflow
  obtain ⟨htracks', hflow'⟩ := (htracks.step hstep).1.run_level
    (Q := (·.Flowing DENOISE_FRAME_SIZE n))
    (fun l m hinv hm h => by subst hm; exact h.step hinv hsize) hflow hops' hrun'
  rw [htracks'.answersAudio_eq, hc']
  exact hflow'.ready htracks'.level_inv hsize _

/-- With calls of at most a chunk, the first audio leaves a chunk behind. -/
theorem audio_of_small (hops : ∀ op ∈ ops, op.Sized (· ≤ 480)) (hc : c.numFrames ≤ 480)
    (hops' : ∀ op ∈ ops', op.Sized (· ≤ 480)) : s'.answersAudio api clock c' = true := by
  have hsize : 0 < DENOISE_FRAME_SIZE := by decide
  have hcushion : 2 * DENOISE_FRAME_SIZE ≤ OUTPUT_PREFILL_SAMPLES := by decide
  have hbefore : (start (e.init format created found).2).level.SmallRequests
      DENOISE_FRAME_SIZE := by
    rw [level_start hinit]
    exact .inl rfl
  obtain ⟨htracks, hsmall⟩ := (tracks_start hinit).run_level
    (Q := (·.SmallRequests DENOISE_FRAME_SIZE))
    (fun l m hinv hm h => h.step hinv hsize hcushion hm) hbefore hops hrun
  have hready := htracks.answersAudio_eq api clock c
  rw [haudio] at hready
  -- the first audio leaves at least a chunk behind, which covers the next call
  have hprimed : s₁.level.Primed DENOISE_FRAME_SIZE := by
    have hnext := hsmall.step htracks.level_inv hsize hcushion hc
    rw [← htracks.level_call hstep] at hnext
    rcases hnext with hclosed | hprimed
    · rw [htracks.level_call hstep, Prefill.Level.step_of_ready hready.symm] at hclosed
      exact nomatch hclosed
    · exact hprimed
  obtain ⟨htracks', hprimed'⟩ := (htracks.step hstep).1.run_level
    (Q := (·.Primed DENOISE_FRAME_SIZE)) (fun l m hinv _ h => h.step hinv hsize) hprimed
    hops' hrun'
  rw [htracks'.answersAudio_eq]
  exact hprimed'.ready htracks'.level_inv hsize _ _

end

end Session

/-- The prefill cushion prevents underruns: in a session with calls of one size `n ≥ 1`, or
    with calls of at most 480 frames each, every call after one that was answered with
    audio is answered with audio. -/
theorem no_silence_after_audio (api : Denoisers α R M) (clock : Nat → α) (e : Engine α R M)
    (format : AudioFormat) (created : Option R) (found : Option (LoadOutcome M))
    (hinit : (e.init format created found).1 = true)
    (ops ops' : List (SessionOp α M)) (c c' : Call α) (s s₁ s' : Session α R M)
    (hsizes :
      (∃ n, 1 ≤ n ∧ ∀ op ∈ ops ++ .processFrame c :: ops' ++ [.processFrame c'],
        op.Sized (· = n)) ∨
      ∀ op ∈ ops ++ .processFrame c :: ops' ++ [.processFrame c'], op.Sized (· ≤ 480))
    (hrun : Machine.run (Session.step api clock) (Session.start (e.init format created found).2)
      ops = some s)
    (haudio : s.answersAudio api clock c = true)
    (hstep : s.step api clock (.processFrame c) = some s₁)
    (hrun' : Machine.run (Session.step api clock) s₁ ops' = some s') :
    s'.answersAudio api clock c' = true := by
  have hmem : ∀ op, op ∈ ops ∨ op = .processFrame c ∨ op ∈ ops' ∨ op = .processFrame c' →
      op ∈ ops ++ .processFrame c :: ops' ++ [.processFrame c'] := by
    intro op hop
    simp only [List.mem_append, List.mem_cons, List.not_mem_nil, or_false]
    rcases hop with h | h | h | h
    · exact .inl (.inl h)
    · exact .inl (.inr (.inl h))
    · exact .inl (.inr (.inr h))
    · exact .inr h
  -- calls of one size keep the stage flowing, small calls keep a chunk in reserve
  rcases hsizes with ⟨n, _, hsized⟩ | hsized
  · exact Session.audio_of_equal hinit hrun haudio hstep hrun'
      (fun op hop => hsized op (hmem op (.inl hop)))
      (hsized _ (hmem _ (.inr (.inl rfl))) c rfl)
      (fun op hop => hsized op (hmem op (.inr (.inr (.inl hop)))))
      (hsized _ (hmem _ (.inr (.inr (.inr rfl)))) c' rfl)
  · exact Session.audio_of_small hinit hrun haudio hstep hrun'
      (fun op hop => hsized op (hmem op (.inl hop)))
      (hsized _ (hmem _ (.inr (.inl rfl))) c rfl)
      (fun op hop => hsized op (hmem op (.inr (.inr (.inl hop)))))

/-- The second call of 480 frames fills the cushion, so it and the third are answered with
    audio. -/
theorem no_silence_after_audio_stereo :
    ∃ s s₁, Machine.run (Session.step identityDenoisers fun _ => 0) stereoSession
        [.processFrame (quietCall 480)] = some s ∧
      s.step identityDenoisers (fun _ => 0) (.processFrame (quietCall 480)) = some s₁ ∧
      s.answersAudio identityDenoisers (fun _ => 0) (quietCall 480) = true ∧
      s₁.answersAudio identityDenoisers (fun _ => 0) (quietCall 480) = true := by
  obtain ⟨s, hfirst⟩ : ∃ s, stereoSession.step identityDenoisers (fun _ => 0)
    (.processFrame (quietCall 480)) = some s := ⟨_, rfl⟩
  obtain ⟨s₁, hsecond⟩ : ∃ s₁, s.step identityDenoisers (fun _ => 0)
    (.processFrame (quietCall 480)) = some s₁ := ⟨_, rfl⟩
  have hrun : Machine.run (Session.step identityDenoisers fun _ => 0) stereoSession
      [.processFrame (quietCall 480)] = some s := by
    rw [Machine.run_cons, hfirst]
    rfl
  have hinit : ((Engine.new : Engine ℚ Unit Unit).init stereo48k (some ()) none).1 = true := rfl
  have hstart : stereoSession.Tracks 2 := Session.tracks_start hinit
  have haudio : s.answersAudio identityDenoisers (fun _ => 0) (quietCall 480) = true := by
    rw [(hstart.step hfirst).1.answersAudio_eq, hstart.level_call hfirst]
    decide
  refine ⟨s, s₁, hrun, hsecond, haudio, ?_⟩
  refine no_silence_after_audio identityDenoisers (fun _ => 0) Engine.new stereo48k (some ()) none
    rfl [.processFrame (quietCall 480)] [] (quietCall 480) (quietCall 480) s s₁ s₁ ?_ hrun haudio
    hsecond rfl
  left
  refine ⟨480, by decide, ?_⟩
  intro op hop
  simp only [List.cons_append, List.nil_append, List.mem_cons, List.not_mem_nil, or_false,
    or_self] at hop
  rw [hop]
  exact sized_quietCall rfl

end Noise
