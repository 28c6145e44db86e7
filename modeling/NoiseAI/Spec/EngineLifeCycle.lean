import NoiseAI.Spec.EngineInvariant
import NoiseAI.Spec.EngineSession

/-!
# The engine from its constructor to its destructor

The invariant of the engine in the words of the source, between two calls and at every entry
of `process_mono_chunk`, and the life time of its RNNoise states. The destructor is a
`shutdown` after all other calls.
-/

namespace Noise

open Ledger (Event Holds Live)

variable {α R M ι : Type} [Sample α]

namespace Engine

/-- What holds between two calls. -/
structure Sound (e : Engine α R M) : Prop where
  rnnoise : e.status = .running → ∃ state, e.rnnoiseState = some state
  /-- The branch without a denoiser is not taken. -/
  denoiser : e.status = .running → (e.rnnoiseState.isSome || e.deepfilterLoaded) = true
  readPos_le : e.outputReadPos ≤ e.outputBuffer.length
  input_lt : e.inputBuffer.length < DENOISE_FRAME_SIZE

/-- What holds when `process_mono_chunk` is entered. -/
structure ChunkSound (e : Engine α R M) : Prop where
  input_ge : DENOISE_FRAME_SIZE ≤ e.inputBuffer.length
  readPos_le : e.outputReadPos ≤ e.outputBuffer.length
  /-- RNNoise is not called on null. -/
  rnnoise : e.callsRnnoise = true → ∃ state, e.rnnoiseState = some state
  /-- DeepFilterNet is only called with a session. -/
  deepfilter : e.callsDeepfilter = true →
    ∃ d session, e.deepfilter = some d ∧ d.loaded = true ∧ d.session = some session

/-- What holds when step 3 of a call reads the output buffer. -/
structure ReadSound (api : Denoisers α R M) (e : Engine α R M) (c : ProcessCall α) : Prop where
  readPos_le : (e.accepted api c.clock c.input c.numFrames).outputReadPos ≤
    (e.accepted api c.clock c.input c.numFrames).outputBuffer.length
  /-- Every index read is in range. -/
  inside : (e.accepted api c.clock c.input c.numFrames).ready c.numFrames = true →
    (e.accepted api c.clock c.input c.numFrames).outputReadPos + c.numFrames ≤
      (e.accepted api c.clock c.input c.numFrames).outputBuffer.length

variable {api : Denoisers α R M} {e : Engine α R M}

theorem Inv.sound (h : e.Inv) : e.Sound where
  rnnoise := fun hrunning => Option.isSome_iff_exists.mp (h.running hrunning)
  denoiser := by
    intro hrunning
    rw [h.running hrunning, Bool.true_or]
  readPos_le := h.cursor
  input_lt := h.input_lt

theorem Inv.readSound (h : e.Inv) (api : Denoisers α R M) (c : ProcessCall α) :
    ReadSound api e c where
  readPos_le := (h.cursor.accepted api c).2
  inside := fun hready => ((h.cursor.accepted api c).2.advance hready).1

/-- A call enters `process_mono_chunk` only on a running engine, which it keeps. -/
theorem Inv.entries (h : e.Inv) {c : ProcessCall α} {entry : Engine α R M × α}
    (hentry : entry ∈ e.entries api c) :
    e.status = .running ∧ Keeps api e entry.1 ∧ entry.1.CursorInside ∧
      DENOISE_FRAME_SIZE ≤ entry.1.inputBuffer.length := by
  unfold Engine.entries at hentry
  split at hentry
  · exact absurd hentry List.not_mem_nil
  · rename_i hrunning
    split at hentry
    · exact absurd hentry List.not_mem_nil
    · obtain ⟨⟨hkeeps, hcursor⟩, hfull⟩ := (buffered_invariant h.cursor api c).1 entry hentry
      exact ⟨not_not.mp hrunning, hkeeps, hcursor, hfull⟩

theorem Inv.chunkSound (h : e.Inv) {c : ProcessCall α} {entry : Engine α R M × α}
    (hentry : entry ∈ e.entries api c) : ChunkSound entry.1 := by
  obtain ⟨hrunning, hkeeps, hcursor, hfull⟩ := h.entries hentry
  refine ⟨hfull, hcursor, ?_, ?_⟩
  · -- RNNoise: a running engine has a state, and denoising keeps it
    intro _
    apply Option.isSome_iff_exists.mp
    rw [Option.Rel.isSome_eq hkeeps.rnnoiseState]
    exact h.running hrunning
  · -- DeepFilterNet: a loaded model is complete
    intro hcalls
    have huse : entry.1.useDeepfilter = true := (Bool.and_eq_true_iff.mp hcalls).2
    have hloaded : entry.1.deepfilterLoaded = true := (Bool.and_eq_true_iff.mp huse).2
    unfold deepfilterLoaded at hloaded
    cases hd : entry.1.deepfilter with
    | none =>
      rw [hd] at hloaded
      exact nomatch hloaded
    | some d =>
      rw [hd] at hloaded
      obtain ⟨session, inputs, outputs, hmodel⟩ := (h.model.keeps hkeeps d hd).loaded hloaded
      exact ⟨d, session, rfl, hloaded, by rw [hmodel]; rfl⟩

/-- At every entry in a sequence of calls. -/
theorem Inv.chunks (h : e.Inv) (api : Denoisers α R M) (ops : List (EngineOp α R M)) :
    (∀ entry ∈ e.chunks api ops, ChunkSound entry.1) ∧ (ops.foldl (Engine.after api) e).Inv := by
  induction ops generalizing e with
  | nil => exact ⟨fun _ hentry => absurd hentry List.not_mem_nil, h⟩
  | cons op ops ih =>
    obtain ⟨hlater, hlast⟩ := ih (h.after api op)
    refine ⟨?_, hlast⟩
    intro entry hentry
    obtain hnow | hthen := List.mem_append.mp hentry
    · cases op with
      | processFrame c => exact h.chunkSound hnow
      | init | shutdown | setMode | loadDeepfilterModel | loadDeepfilterModelFrom | setDryMix
        | setAttenuationLimit => exact absurd hnow List.not_mem_nil
    · exact hlater entry hthen

/-! ## Life times -/

variable {allocation : R → ι}

omit [Sample α] in
/-- Denoising happens in place. -/
theorem allocation_evolves
    (hinplace : ∀ r x, allocation (api.rnnoiseProcessFrame r x).2 = allocation r) {r r' : R}
    (h : api.Evolves r r') : allocation r' = allocation r := by
  induction h with
  | refl => rfl
  | tail _ hstep ih =>
    obtain ⟨x, rfl⟩ := hstep
    rw [hinplace]
    exact ih

omit [Sample α] in
theorem Keeps.map_allocation {e' : Engine α R M}
    (hinplace : ∀ r x, allocation (api.rnnoiseProcessFrame r x).2 = allocation r)
    (h : Keeps api e e') :
    e'.rnnoiseState.map allocation = e.rnnoiseState.map allocation := by
  have hstate := h.rnnoiseState
  generalize e.rnnoiseState = a at hstate
  generalize e'.rnnoiseState = b at hstate
  cases hstate with
  | none => rfl
  | some hevolves => exact congrArg some (allocation_evolves hinplace hevolves)

/-- The RNNoise state alive is the one that `rnnoise_state_` points to, after every call that
    does not create the same state again. -/
theorem holds_after {events : List (Event ι)}
    (hinplace : ∀ r x, allocation (api.rnnoiseProcessFrame r x).2 = allocation r) (hinv : e.Inv)
    (h : Holds events (e.rnnoiseState.map allocation)) (op : EngineOp α R M)
    (hfresh : ∀ r ∈ op.createdState, .created (allocation r) ∉ events) :
    Holds (events ++ e.rnnoiseEvents api allocation op)
      ((e.after api op).rnnoiseState.map allocation) := by
  have hsame : ∀ e' : Engine α R M, e'.rnnoiseState = e.rnnoiseState →
      Holds (events ++ []) (e'.rnnoiseState.map allocation) := by
    intro e' heq
    rw [List.append_nil, heq]
    exact h
  have hsetting : op.IsSetting → (e.after api op).rnnoiseState = e.rnnoiseState :=
    fun hop => (sameSession_after api e hop).rnnoiseState
  cases op with
  | init format created found =>
    show Holds (events ++ (_ ++ _)) _
    rw [← List.append_assoc]
    cases created with
    | none =>
      show Holds (_ ++ []) none
      rw [List.append_nil]
      exact h.release
    | some state =>
      show Holds _ ((e.init format (some state) found).2.rnnoiseState.map allocation)
      rw [init_some]
      apply h.release.create
      intro hmem
      obtain hold | hnew := List.mem_append.mp hmem
      · exact hfresh state rfl hold
      · cases hstate : e.rnnoiseState with
        | none => simp [hstate] at hnew
        | some old => simp [hstate] at hnew
  | shutdown => exact h.release
  | setMode | loadDeepfilterModel | loadDeepfilterModelFrom | setDryMix | setAttenuationLimit =>
    exact hsame _ (hsetting trivial)
  | processFrame c =>
    have hkeeps := hinv.keeps_process api c
    show Holds _ ((e.process api c).2.2.rnnoiseState.map allocation)
    rw [hkeeps.map_allocation hinplace]
    cases hstate : e.rnnoiseState with
    | none =>
      -- then the engine does not run
      have hnone : e.entries api c = [] := by
        apply List.eq_nil_iff_forall_not_mem.mpr
        intro entry hentry
        have hsome := hinv.running (hinv.entries hentry).1
        rw [hstate] at hsome
        exact nomatch hsome
      have hnothing : e.rnnoiseEvents api allocation (.processFrame c) = [] := by
        simp only [rnnoiseEvents, hnone, List.filter_nil, List.map_nil]
      rw [hnothing, ← hstate]
      exact hsame e rfl
    | some r =>
      rw [hstate] at h
      apply h.uses
      intro event hevent
      obtain ⟨entry, hentry, rfl⟩ := List.mem_map.mp hevent
      have hentryKeeps := (hinv.entries (List.mem_of_mem_filter hentry)).2.1
      rw [hentryKeeps.map_allocation hinplace, hstate]
      rfl

/-- Only `init` creates. -/
theorem created_mem_rnnoiseEvents {op : EngineOp α R M} {i : ι} :
    .created i ∈ e.rnnoiseEvents api allocation op ↔ ∃ r ∈ op.createdState, allocation r = i := by
  cases op with
  | init format created found =>
    unfold rnnoiseEvents EngineOp.createdState
    cases created <;> cases e.rnnoiseState <;> simp [eq_comm]
  | shutdown =>
    unfold rnnoiseEvents EngineOp.createdState
    cases e.rnnoiseState <;> simp
  | processFrame c => simp [rnnoiseEvents, EngineOp.createdState]
  | setMode | loadDeepfilterModel | loadDeepfilterModelFrom | setDryMix | setAttenuationLimit =>
    simp [rnnoiseEvents, EngineOp.createdState]

theorem created_mem_lifeTimes {ops : List (EngineOp α R M)} {i : ι} :
    .created i ∈ e.lifeTimes api allocation ops ↔
      ∃ r ∈ ops.filterMap EngineOp.createdState, allocation r = i := by
  induction ops generalizing e with
  | nil => simp [lifeTimes, Observe.outputs]
  | cons op ops ih =>
    show .created i ∈ e.rnnoiseEvents api allocation op ++
      (e.after api op).lifeTimes api allocation ops ↔ _
    rw [List.mem_append, created_mem_rnnoiseEvents, ih]
    cases hop : op.createdState with
    | none => simp [hop]
    | some r => simp [hop]

/-- Along a sequence of calls in which no state is created twice. -/
theorem holds_run {events : List (Event ι)}
    (hinplace : ∀ r x, allocation (api.rnnoiseProcessFrame r x).2 = allocation r) (hinv : e.Inv)
    (h : Holds events (e.rnnoiseState.map allocation)) {ops : List (EngineOp α R M)}
    (hfresh : ((ops.filterMap EngineOp.createdState).map allocation).Nodup)
    (hnew : ∀ r ∈ ops.filterMap EngineOp.createdState, .created (allocation r) ∉ events) :
    Holds (events ++ e.lifeTimes api allocation ops)
      ((ops.foldl (Engine.after api) e).rnnoiseState.map allocation) := by
  induction ops generalizing e events with
  | nil =>
    show Holds (events ++ []) _
    rw [List.append_nil]
    exact h
  | cons op ops ih =>
    have hop : ∀ r ∈ op.createdState, r ∈ (op :: ops).filterMap EngineOp.createdState :=
      fun r hr => List.mem_filterMap.mpr ⟨op, List.mem_cons_self, hr⟩
    have hlater : ∀ r ∈ ops.filterMap EngineOp.createdState,
        r ∈ (op :: ops).filterMap EngineOp.createdState := by
      intro r hr
      obtain ⟨op', hop', hcreated⟩ := List.mem_filterMap.mp hr
      exact List.mem_filterMap.mpr ⟨op', List.mem_cons_of_mem _ hop', hcreated⟩
    have hstep := holds_after hinplace hinv h op fun r hr => hnew r (hop r hr)
    -- what is created later is neither of what was created before nor of this call
    have hrest : ((ops.filterMap EngineOp.createdState).map allocation).Nodup ∧
        ∀ r ∈ op.createdState, ∀ r' ∈ ops.filterMap EngineOp.createdState,
          allocation r' ≠ allocation r := by
      cases hcreated : op.createdState with
      | none =>
        simp only [List.filterMap_cons, hcreated] at hfresh
        exact ⟨hfresh, fun r hr => nomatch hr⟩
      | some state =>
        simp only [List.filterMap_cons, hcreated, List.map_cons, List.nodup_cons] at hfresh
        refine ⟨hfresh.2, ?_⟩
        intro r hr r' hr' heq
        cases hr
        exact hfresh.1 (heq ▸ List.mem_map_of_mem hr')
    have hnext := ih (hinv.after api op) hstep hrest.1 (by
      intro r hr hmem
      obtain hold | hthis := List.mem_append.mp hmem
      · exact hnew r (hlater r hr) hold
      · obtain ⟨r', hr', heq⟩ := created_mem_rnnoiseEvents.mp hthis
        exact hrest.2 r' hr' r hr heq.symm)
    rw [List.append_assoc] at hnext
    exact hnext

end Engine

/-- From the constructor on, whatever is called: the invariant holds between any two calls, at
    every chunk and at every read, and from the constructor to the destructor every RNNoise
    state is destroyed once and not used after that. `allocation` tells RNNoise states apart:
    `rnnoise_process_frame` works in place and `rnnoise_create` always makes a new one. -/
theorem engine_sound [DecidableEq ι] (api : Denoisers α R M) (allocation : R → ι)
    (hinplace : ∀ r x, allocation (api.rnnoiseProcessFrame r x).2 = allocation r)
    (ops : List (EngineOp α R M))
    (hfresh : ((ops.filterMap EngineOp.createdState).map allocation).Nodup) :
    (ops.foldl (Engine.after api) .new).Sound ∧
    (∀ c, Engine.ReadSound api (ops.foldl (Engine.after api) .new) c) ∧
    (∀ entry ∈ Engine.new.chunks api ops, Engine.ChunkSound entry.1) ∧
    (∀ state, (ops.foldl (Engine.after api) .new).rnnoiseState = some state →
      Live (Engine.new.lifeTimes api allocation ops) (allocation state)) ∧
    Ledger.Disciplined (Engine.new.lifeTimes api allocation (ops ++ [.shutdown])) ∧
    ∀ state ∈ ops.filterMap EngineOp.createdState,
      (Engine.new.lifeTimes api allocation (ops ++ [.shutdown])).count
          (.created (allocation state)) = 1 ∧
      (Engine.new.lifeTimes api allocation (ops ++ [.shutdown])).count
          (.destroyed (allocation state)) = 1 := by
  obtain ⟨hchunks, hinv⟩ := Engine.inv_new.chunks api ops
  have hnothing : ∀ r ∈ ops.filterMap EngineOp.createdState,
      Event.created (allocation r) ∉ ([] : List (Event ι)) := fun _ _ => List.not_mem_nil
  have hnow := Engine.holds_run hinplace Engine.inv_new Ledger.holds_nil hfresh hnothing
  have hcreated : (ops ++ [EngineOp.shutdown]).filterMap EngineOp.createdState =
      ops.filterMap EngineOp.createdState := by
    rw [List.filterMap_append]
    exact List.append_nil _
  rw [← hcreated] at hfresh hnothing
  -- the same with the destructor at the end, which leaves no state alive
  have hend := Engine.holds_run hinplace Engine.inv_new Ledger.holds_nil hfresh hnothing
  rw [List.foldl_append] at hend
  rw [List.nil_append] at hnow hend
  refine ⟨hinv.sound, hinv.readSound api, hchunks, ?_, hend.disciplined, ?_⟩
  · intro state hstate
    exact (hnow.live _).mpr (congrArg (Option.map allocation) hstate)
  · intro state hstate
    apply hend.disciplined.count_eq_one
    · intro i hlive
      exact nomatch (hend.live i).mp hlive
    · rw [← hcreated] at hstate
      exact Engine.created_mem_lifeTimes.mpr ⟨state, hstate, rfl⟩

/-- RNNoise states that are numbers; a frame leaves the state as it is. -/
def numberedDenoisers : Denoisers ℚ Nat Unit where
  rnnoiseProcessFrame := fun state frame =>
    ((identityDenoisers.rnnoiseProcessFrame () frame).1, state)
  rnnoise_length := fun _ frame => identityDenoisers.rnnoise_length () frame
  sessionRun := identityDenoisers.sessionRun
  session_length := identityDenoisers.session_length
  session_states := identityDenoisers.session_states
  garbage := identityDenoisers.garbage
  garbage_length := identityDenoisers.garbage_length

/-- A second `init` whose `rnnoise_create` fails, and a third that succeeds. -/
def threeInits : List (EngineOp ℚ Nat Unit) :=
  [.init stereo48k (some 0) none,
    .processFrame
      { clock := fun _ => 1, input := fun _ => 1, output := fun _ => 0, numFrames := 600 },
    .init stereo48k none none, .init stereo48k (some 1) none]

theorem engine_sound_threeInits :
    (threeInits.foldl (Engine.after numberedDenoisers) .new).Sound ∧
    (∀ c, Engine.ReadSound numberedDenoisers
      (threeInits.foldl (Engine.after numberedDenoisers) .new) c) ∧
    (∀ entry ∈ Engine.new.chunks numberedDenoisers threeInits, Engine.ChunkSound entry.1) ∧
    (∀ state, (threeInits.foldl (Engine.after numberedDenoisers) .new).rnnoiseState = some state →
      Live (Engine.new.lifeTimes numberedDenoisers id threeInits) (id state)) ∧
    Ledger.Disciplined (Engine.new.lifeTimes numberedDenoisers id (threeInits ++ [.shutdown])) ∧
    ∀ state ∈ threeInits.filterMap EngineOp.createdState,
      (Engine.new.lifeTimes numberedDenoisers id (threeInits ++ [.shutdown])).count
          (.created (id state)) = 1 ∧
      (Engine.new.lifeTimes numberedDenoisers id (threeInits ++ [.shutdown])).count
          (.destroyed (id state)) = 1 :=
  engine_sound numberedDenoisers id (fun _ _ => rfl) threeInits (by decide)

end Noise
