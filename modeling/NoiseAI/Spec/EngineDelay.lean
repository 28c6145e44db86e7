import NoiseAI.ForStd.Lead
import NoiseAI.ForStd.Machine
import NoiseAI.Spec.EngineDelivery
import NoiseAI.Spec.EngineLatency

/-!
# The engine as a delay

With calls of one size, or of at most 480 frames each, everything that the engine writes over a
session is the denoised stream behind a fixed number of silent frames (`engine_delays`). That
number is `Prefill.lead` of the sizes of the calls: neither the audio nor the denoiser, the
settings or an overload have a part in it.
-/

namespace Noise

variable {α R M : Type} [Sample α]

/-- The size of the call. -/
def SessionOp.request : SessionOp α M → List Nat
  | .processFrame c => [c.numFrames]
  | _ => []

namespace Session

open Prefill

variable {api : Denoisers α R M} {clock : Nat → α} {s s' : Session α R M} {channels : Nat}

/-- The frames that a call leaves in its output buffer. -/
def played (api : Denoisers α R M) (clock : Nat → α) (s : Session α R M) :
    SessionOp α M → List (List α)
  | .processFrame c => frames s.engine.channels c.numFrames (s.output api clock c)
  | _ => []

theorem Faithful.tracks (h : s.Faithful channels) : s.Tracks channels :=
  ⟨s.stream, h.stream, rfl⟩

/-- What a call writes is the answer to a request of its size. -/
theorem Faithful.answered {c : Call α} (h : s.Faithful channels) (hc : c.Fits channels)
    (hstep : s.step api clock (.processFrame c) = some s') :
    ∃ delivered, Answered DENOISE_FRAME_SIZE OUTPUT_PREFILL_SAMPLES (List.replicate channels 0)
        s.level c.numFrames (frames channels c.numFrames (s.output api clock c)) delivered ∧
      s'.delivered = s.delivered ++ delivered ∧
      s'.level = s.level.step DENOISE_FRAME_SIZE OUTPUT_PREFILL_SAMPLES c.numFrames := by
  have hready := h.tracks.answersAudio_eq api clock c
  obtain ⟨-, -, hdelivered⟩ := step_call hstep
  rw [h.stream.live.channels] at hdelivered
  cases haudio : s.answersAudio api clock c with
  | false =>
    rw [haudio] at hready
    rw [haudio, if_neg Bool.false_ne_true] at hdelivered
    refine ⟨[], ?_, hdelivered.trans (List.append_nil _).symm, h.tracks.level_call hstep⟩
    rw [h.frames_silent hc haudio]
    exact .silence hready.symm
  | true =>
    rw [haudio] at hready
    rw [haudio, if_pos rfl] at hdelivered
    exact ⟨_, .audio hready.symm (length_frames _ _ _), hdelivered, h.tracks.level_call hstep⟩

/-- The sizes of the calls of a session. -/
def requests (ops : List (SessionOp α M)) : List Nat := ops.flatMap SessionOp.request

omit [Sample α] in
theorem sized_requests {P : Nat → Prop} {ops : List (SessionOp α M)}
    (h : ∀ op ∈ ops, op.Sized P) : ∀ n ∈ requests ops, P n := by
  intro n hn
  obtain ⟨op, hop, hn⟩ := List.mem_flatMap.mp hn
  cases op with
  | processFrame c =>
    rw [List.mem_singleton.mp hn]
    exact h _ hop c rfl
  | _ => exact absurd hn List.not_mem_nil

/-- All that the calls of a session write. -/
def playback (api : Denoisers α R M) (clock : Nat → α) (s : Session α R M)
    (ops : List (SessionOp α M)) : List (List α) :=
  Machine.trace (Session.step api clock) (played api clock) s ops

theorem playback_cons {op : SessionOp α M} {ops : List (SessionOp α M)}
    (hstep : s.step api clock op = some s') :
    playback api clock s (op :: ops) = s.played api clock op ++ playback api clock s' ops :=
  Machine.trace_cons hstep

/-- What a run of a session writes are the answers to requests of the sizes of its calls. -/
theorem Faithful.plays {ops : List (SessionOp α M)} (h : s.Faithful channels)
    (hfits : ∀ op ∈ ops, op.Fits channels)
    (hrun : Machine.run (Session.step api clock) s ops = some s') :
    ∃ rest, Plays DENOISE_FRAME_SIZE OUTPUT_PREFILL_SAMPLES (List.replicate channels 0) s.level
        (requests ops) (playback api clock s ops) rest ∧
      s'.delivered = s.delivered ++ rest ∧
      s'.stream.input.length = s.stream.input.length + (requests ops).sum := by
  induction ops generalizing s with
  | nil =>
    cases hrun
    exact ⟨[], .nil, (List.append_nil _).symm, rfl⟩
  | cons op ops ih =>
    obtain ⟨s₁, hstep, hrest⟩ := Machine.run_cons_some hrun
    have hop := hfits op List.mem_cons_self
    obtain ⟨rest, hplays, hdelivered, hinput⟩ := ih (h.step hop hstep)
      (fun op' hop' => hfits op' (List.mem_cons_of_mem _ hop')) hrest
    rw [playback_cons hstep, requests, List.flatMap_cons, ← requests]
    rcases step_cases hstep with ⟨c, rfl, -⟩ | ⟨hother, f, hf, rfl⟩
    · -- a call is one request, and its answer comes before those of the rest
      obtain ⟨delivered, hanswered, hnext, hlevel⟩ := h.answered (hop c rfl) hstep
      obtain ⟨-, hstream, -⟩ := step_call hstep
      rw [hlevel] at hplays
      refine ⟨delivered ++ rest, ?_, ?_, ?_⟩
      · rw [played, h.stream.live.channels]
        exact .cons hanswered hplays
      · rw [hdelivered, hnext, List.append_assoc]
      · rw [hinput, hstream, SessionOp.request, List.singleton_append, List.sum_cons,
          ← Nat.add_assoc]
        simp only [fedBy, Engine.fed, Blocks.Feed.feed, List.length_append, List.length_map,
          List.length_range]
    · -- a setting writes nothing and asks for nothing
      have hnothing : op.request = [] ∧ s.played api clock op = [] := by
        cases op with
        | processFrame c => exact absurd rfl (hother c)
        | _ => exact ⟨rfl, rfl⟩
      have hlevel : (s.configure f).level = s.level := hf.level s.engine s.stream _ _ rfl
      rw [hlevel] at hplays
      rw [hnothing.1, hnothing.2]
      exact ⟨rest, hplays, hdelivered, hinput⟩

/-- A session of one regime, from its start. -/
theorem playback_session {P : Nat → Prop} {before after : Level → Prop}
    (regime : Regime DENOISE_FRAME_SIZE OUTPUT_PREFILL_SAMPLES P before after) {e : Engine α R M}
    {format : AudioFormat} {created : Option R} {found : Option (LoadOutcome M)}
    (hinit : (e.init format created found).1 = true) {ops : List (SessionOp α M)}
    (hfits : ∀ op ∈ ops, op.Fits format.channels) (hsized : ∀ n ∈ requests ops, P n)
    (hrun : Machine.run (Session.step api clock) (start (e.init format created found).2) ops =
      some s) :
    playback api clock (start (e.init format created found).2) ops =
        List.replicate (lead 480 960 0 (requests ops)) (List.replicate format.channels 0) ++
          s.delivered ∧
      s.stream.input.length = lead 480 960 0 (requests ops) + s.delivered.length := by
  obtain ⟨rest, hplays, hdelivered, hinput⟩ := (Faithful.start hinit).plays hfits hrun
  rw [level_start hinit] at hplays
  obtain ⟨hall, hcount⟩ := hplays.eq_of_before regime ⟨Nat.zero_le _, fun _ => rfl⟩ regime.start
    (.start _ _) hsized
  have hrest : s.delivered = rest := hdelivered
  rw [hinput, hrest]
  exact ⟨hall, (Nat.zero_add _).trans hcount⟩

end Session

/-- The engine is a delay. In every session whose calls fit and are of one size, or of at most
    480 frames each, all that the calls write is first silence and then the denoised stream,
    every sample clamped and copied to every channel, none left out. How long the silence is
    follows from the sizes of the calls. -/
theorem engine_delays (api : Denoisers α R M) (clock : Nat → α) (e : Engine α R M)
    (format : AudioFormat) (created : Option R) (found : Option (LoadOutcome M))
    (hinit : (e.init format created found).1 = true) (ops : List (SessionOp α M))
    (s : Session α R M) (hfits : ∀ op ∈ ops, op.Fits format.channels)
    (hsizes : (∃ n, ∀ op ∈ ops, op.Sized (· = n)) ∨ ∀ op ∈ ops, op.Sized (· ≤ 480))
    (hrun : Machine.run (Session.step api clock) (Session.start (e.init format created found).2)
      ops = some s) :
    let silent := Prefill.lead 480 960 0 (Session.requests ops)
    Session.playback api clock (Session.start (e.init format created found).2) ops =
        List.replicate silent (List.replicate format.channels 0) ++
          (s.stream.output.take (s.stream.input.length - silent)).map (toFrame format.channels) ∧
      silent ≤ s.stream.input.length ∧
      s.stream.input.length - silent ≤ s.stream.output.length ∧
      ∀ limit, (∀ op ∈ ops, op.Sized (· ≤ limit)) → silent ≤ max 959 (limit + 478) := by
  intro silent
  have hsize : 0 < 480 := by decide
  have hcushion : 2 * 480 ≤ 960 := by decide
  obtain ⟨hall, hcount⟩ :
      Session.playback api clock (Session.start (e.init format created found).2) ops =
          List.replicate silent (List.replicate format.channels 0) ++ s.delivered ∧
        s.stream.input.length = silent + s.delivered.length := by
    -- either kind of sizes is a regime in which silence only comes first
    rcases hsizes with ⟨n, hsized⟩ | hsized
    · exact Session.playback_session (Prefill.Regime.equal hsize hcushion n) hinit hfits
        (Session.sized_requests hsized) hrun
    · exact Session.playback_session (Prefill.Regime.small hsize hcushion) hinit hfits
        (Session.sized_requests hsized) hrun
  have hfaithful := (Session.Faithful.start hinit).run hfits hrun
  have hdelivered : s.stream.input.length - silent = s.delivered.length := by omega
  refine ⟨?_, by omega, ?_, ?_⟩
  · rw [hall, hdelivered, ← hfaithful.delivered]
  · rw [hdelivered]
    exact hfaithful.stream.emitted_le
  · intro limit hlimit
    have hle := Prefill.lead_le hsize (show 480 ∣ 960 by decide)
      (Session.sized_requests hlimit) 0
    rw [Nat.zero_add, Nat.zero_max] at hle
    exact hle

/-- Three calls of 480 frames: 480 silent frames, and then the stream. -/
theorem engine_delays_stereo :
    ∃ s, Machine.run (Session.step identityDenoisers fun _ => 0) stereoSession
        (List.replicate 3 (.processFrame (quietCall 480))) = some s ∧
      Session.playback identityDenoisers (fun _ => 0) stereoSession
          (List.replicate 3 (.processFrame (quietCall 480))) =
        List.replicate 480 [0, 0] ++
          (s.stream.output.take (s.stream.input.length - 480)).map (toFrame 2) := by
  obtain ⟨s, hrun⟩ : ∃ s, Machine.run (Session.step identityDenoisers fun _ => 0)
    stereoSession (List.replicate 3 (.processFrame (quietCall 480))) = some s := ⟨_, rfl⟩
  have hmem : ∀ {op : SessionOp ℚ Unit}, op ∈ List.replicate 3 (.processFrame (quietCall 480)) →
      op = .processFrame (quietCall 480) := List.eq_of_mem_replicate
  have hfits : ∀ op : SessionOp ℚ Unit, op ∈ List.replicate 3 (.processFrame (quietCall 480)) →
      op.Fits 2 := by
    intro op hop c hc
    rw [hmem hop] at hc
    cases hc
    exact (by decide : 480 * 2 < 2 ^ 32)
  obtain ⟨hall, -⟩ := engine_delays identityDenoisers (fun _ => 0) Engine.new stereo48k (some ())
    none rfl _ s hfits (.inl ⟨480, fun op hop => hmem hop ▸ sized_quietCall rfl⟩) hrun
  exact ⟨s, hrun, hall⟩

end Noise
