import NoiseAI.ForStd.Breaker
import NoiseAI.ForStd.List
import NoiseAI.Spec.EngineInvariant
import NoiseAI.Spec.EngineSession

/-!
# Overload handling

The three overload fields of the engine are a circuit breaker over the chunks it denoises.
Since `init` the breaker is true to the history of the chunks, however they are spread over
calls of `process_frame` and whatever settings and modes are changed in between.
-/

namespace Noise

open Breaker (Kind Trigger Tracks)

variable {α R M : Type} [Sample α]

/-- The inference of a chunk took longer than `OVERLOAD_THRESHOLD_MS`. -/
def slow (elapsedMs : α) : Bool := decide (((8 : Nat) : α) < elapsedMs)

/-- The calls that belong to the session that `init` started. -/
def EngineOp.InSession : EngineOp α R M → Prop
  | .init _ _ _ | .shutdown => False
  | _ => True

namespace Engine

/-- The overload fields. -/
def breaker (e : Engine α R M) : Breaker.State where
  count := e.overloadCount
  cooldown := e.overloadCooldown
  isOpen := e.inOverload

/-- What became of a chunk: passed through, or inferred slowly or fast. -/
def chunkKind (entry : Engine α R M × α) : Kind := entry.1.breaker.kind (slow entry.2)

/-- The overload fields after the chunks `h` since `init`. -/
structure OverloadSpec (h : List Kind) (e : Engine α R M) : Prop where
  passes : e.passes = true ↔
    ∃ j, Trigger OVERLOAD_TRIGGER_COUNT h j ∧ h.length ≤ j + OVERLOAD_COOLDOWN_FRAMES
  isOverloaded : e.isOverloaded = true ↔
    ∃ j, Trigger OVERLOAD_TRIGGER_COUNT h j ∧ h.length ≤ j + OVERLOAD_COOLDOWN_FRAMES + 1
  normal : e.inOverload = false → e.overloadCooldown = 0 ∧ e.overloadCount ≤ 4
  overload : e.inOverload = true →
    e.overloadCount = 5 ∧ e.overloadCooldown ≤ 100 ∧
    ∃ j, Trigger OVERLOAD_TRIGGER_COUNT h j ∧
      h.length + e.overloadCooldown = j + OVERLOAD_COOLDOWN_FRAMES + 1

/-- What `process_mono_chunk` does with the next chunk in the state `e`. -/
structure ChunkSpec (api : Denoisers α R M) (h : List Kind) (e : Engine α R M) : Prop
    extends OverloadSpec h e where
  /-- Passed on as it is, whatever the denoisers would have done. -/
  passed : e.passes = true → ∀ (api : Denoisers α R M) (elapsedMs : α) (chunk : List α),
    e.denoiseChunk api elapsedMs chunk =
      (chunk, { e with overloadCooldown := e.overloadCooldown - 1 })
  /-- Inferred, out of overload. -/
  inferred : e.passes = false → e.leaveOverload.inOverload = false ∧
    ∀ (elapsedMs : α) (chunk : List α), e.denoiseChunk api elapsedMs chunk =
      ((e.leaveOverload.infer api chunk).1,
        (e.leaveOverload.infer api chunk).2.updateOverload elapsedMs)
  /-- The first chunk after the passthrough is inferred with nothing counted. -/
  restart : ∀ j, Trigger OVERLOAD_TRIGGER_COUNT h j →
    h.length = j + OVERLOAD_COOLDOWN_FRAMES + 1 →
    e.passes = false ∧ e.leaveOverload.overloadCount = 0

variable {api : Denoisers α R M} {e : Engine α R M}

/-! ## One chunk -/

omit [Sample α] in
theorem breaker_passes (e : Engine α R M) : e.breaker.passes = e.passes := rfl

/-- The engine with other overload fields. -/
def withBreaker (e : Engine α R M) (b : Breaker.State) : Engine α R M :=
  { e with overloadCount := b.count, overloadCooldown := b.cooldown, inOverload := b.isOpen }

/-- The denoisers do not see the overload fields. -/
theorem infer_withBreaker (e : Engine α R M) (b : Breaker.State) (chunk : List α) :
    (e.withBreaker b).infer api chunk =
      ((e.infer api chunk).1, (e.infer api chunk).2.withBreaker b) := by
  have huse : (e.withBreaker b).useDeepfilter = e.useDeepfilter := rfl
  unfold infer
  rw [huse]
  split
  · cases hd : e.deepfilter with
    | none => simp only [withBreaker, hd]
    | some d => simp only [withBreaker, hd]; rfl
  · cases hr : e.rnnoiseState with
    | none => simp only [withBreaker, hr]
    | some r => simp only [withBreaker, hr]

theorem updateOverload_eq (e : Engine α R M) (elapsedMs : α) :
    e.updateOverload elapsedMs = e.withBreaker
      (e.breaker.update OVERLOAD_TRIGGER_COUNT OVERLOAD_COOLDOWN_FRAMES (slow elapsedMs)) := by
  by_cases hslow : ((8 : Nat) : α) < elapsedMs
  · have hlabel : slow elapsedMs = true := decide_eq_true hslow
    unfold updateOverload Breaker.State.update
    rw [hlabel, if_pos hslow, if_pos rfl]
    by_cases hfull : OVERLOAD_TRIGGER_COUNT ≤ e.overloadCount + 1
    · simp only [breaker, withBreaker, hfull, if_true]
    · simp only [breaker, withBreaker, hfull, if_false]
  · have hlabel : slow elapsedMs = false := decide_eq_false hslow
    unfold updateOverload Breaker.State.update
    rw [hlabel, if_neg hslow, if_neg Bool.false_ne_true]
    rfl

omit [Sample α] in
theorem leaveOverload_eq (e : Engine α R M) :
    e.leaveOverload = e.withBreaker e.breaker.leave := by
  have hsame : e.breaker.isOpen = e.inOverload := rfl
  unfold leaveOverload Breaker.State.leave
  rw [hsame]
  split
  · rfl
  · rfl

/-- A chunk is one job of the breaker. -/
theorem denoiseChunk_eq (api : Denoisers α R M) (e : Engine α R M) (elapsedMs : α)
    (chunk : List α) :
    e.denoiseChunk api elapsedMs chunk =
      let next := e.breaker.step OVERLOAD_TRIGGER_COUNT OVERLOAD_COOLDOWN_FRAMES (slow elapsedMs)
      if e.passes then (chunk, e.withBreaker next)
      else ((e.infer api chunk).1, (e.infer api chunk).2.withBreaker next) := by
  have hbreaker : ∀ (e : Engine α R M) (b : Breaker.State), (e.withBreaker b).breaker = b :=
    fun _ _ => rfl
  -- the breaker decides before the chunk, its state is updated after it
  unfold denoiseChunk Breaker.State.step
  rw [breaker_passes, leaveOverload_eq, infer_withBreaker]
  dsimp only
  rw [updateOverload_eq, hbreaker]
  show (if e.passes = true then _ else _) = _
  split
  · rfl
  · rfl

theorem breaker_processMonoChunk (e : Engine α R M) (elapsedMs : α) :
    (e.processMonoChunk api elapsedMs).breaker =
      e.breaker.step OVERLOAD_TRIGGER_COUNT OVERLOAD_COOLDOWN_FRAMES (slow elapsedMs) := by
  rw [processMonoChunk_eq, denoiseChunk_eq]
  dsimp only
  split
  · rfl
  · rfl

omit [Sample α] in
theorem breaker_prefill (e : Engine α R M) : e.prefill.breaker = e.breaker := by
  rw [prefill_eq]
  rfl

omit [Sample α] in
theorem breaker_advance (e : Engine α R M) (numFrames : Nat) :
    (e.advance numFrames).breaker = e.breaker := by
  unfold advance
  dsimp only
  split <;> rfl

/-! ## A sequence of calls -/

/-- The overload fields are true to the chunks since `init`. -/
def TracksChunks (h : List (Engine α R M × α)) (e : Engine α R M) : Prop :=
  Tracks OVERLOAD_TRIGGER_COUNT OVERLOAD_COOLDOWN_FRAMES e.breaker (h.map chunkKind)

theorem TracksChunks.processMonoChunk {h : List (Engine α R M × α)} (ht : TracksChunks h e)
    (api : Denoisers α R M) (elapsedMs : α) :
    TracksChunks (h ++ [(e, elapsedMs)]) (e.processMonoChunk api elapsedMs) := by
  unfold TracksChunks
  rw [List.map_append, breaker_processMonoChunk]
  exact Tracks.step ht (by decide) (by decide) (slow elapsedMs)

/-- In the loop over complete chunks. -/
theorem TracksChunks.processChunks (api : Denoisers α R M) (clock : Nat → α) (fuel k : Nat)
    {h : List (Engine α R M × α)} (ht : TracksChunks h e) :
    List.Along (fun h entry => TracksChunks h entry.1) h (chunkEntries api clock fuel k e) ∧
    TracksChunks (h ++ chunkEntries api clock fuel k e) (processChunks api clock fuel k e) := by
  -- the history grows by one entry for each chunk of the loop
  induction fuel generalizing k e h with
  | zero =>
    show True ∧ TracksChunks (h ++ []) e
    rw [List.append_nil]
    exact ⟨trivial, ht⟩
  | succ fuel ih =>
    unfold chunkEntries Engine.processChunks
    split
    · obtain ⟨halong, hlast⟩ := ih (k + 1) (ht.processMonoChunk api (clock k))
      rw [List.append_assoc] at hlast
      exact ⟨⟨ht, halong⟩, hlast⟩
    · rw [List.append_nil]
      exact ⟨trivial, ht⟩

/-- In a call. -/
theorem TracksChunks.process (api : Denoisers α R M) {h : List (Engine α R M × α)}
    (ht : TracksChunks h e) (c : ProcessCall α) :
    List.Along (fun h entry => TracksChunks h entry.1) h (e.entries api c) ∧
    TracksChunks (h ++ e.entries api c) (e.process api c).2.2 := by
  have hbuffered : TracksChunks h (e.buffered c) := ht
  obtain ⟨halong, hlast⟩ := hbuffered.processChunks api c.clock
    (e.buffered c).inputBuffer.length 0
  unfold Engine.process Engine.processFrame entries
  split
  · rw [List.append_nil]
    exact ⟨trivial, ht⟩
  · split
    · rw [List.append_nil]
      exact ⟨trivial, ht⟩
    · -- what follows the loop does not touch the overload fields
      refine ⟨halong, ?_⟩
      dsimp only
      unfold TracksChunks at hlast ⊢
      split
      · dsimp only
        rw [breaker_advance, breaker_prefill]
        exact hlast
      · dsimp only
        rw [breaker_prefill]
        exact hlast

/-- The other calls of a session leave the overload fields as they are. -/
theorem breaker_after (e : Engine α R M) {op : EngineOp α R M} (hop : op.InSession)
    (hnot : ∀ c, op ≠ .processFrame c) : (e.after api op).breaker = e.breaker := by
  have hsetting : op.IsSetting := by
    cases op with
    | init | shutdown => exact nomatch hop
    | processFrame c => exact absurd rfl (hnot c)
    | setMode | loadDeepfilterModel | loadDeepfilterModelFrom | setDryMix
      | setAttenuationLimit => trivial
  have hsame := sameSession_after api e hsetting
  unfold breaker
  rw [hsame.overloadCount, hsame.overloadCooldown, hsame.inOverload]

/-- In a sequence of calls. -/
theorem TracksChunks.run (api : Denoisers α R M) {h : List (Engine α R M × α)}
    (ht : TracksChunks h e) {ops : List (EngineOp α R M)} (hops : ∀ op ∈ ops, op.InSession) :
    List.Along (fun h entry => TracksChunks h entry.1) h (e.chunks api ops) ∧
    TracksChunks (h ++ e.chunks api ops) (ops.foldl (Engine.after api) e) := by
  induction ops generalizing e h with
  | nil =>
    show True ∧ TracksChunks (h ++ []) e
    rw [List.append_nil]
    exact ⟨trivial, ht⟩
  | cons op ops ih =>
    have hop : op.InSession := hops op List.mem_cons_self
    have hstep : List.Along (fun h entry => TracksChunks h entry.1) h (e.chunks api [op]) ∧
        TracksChunks (h ++ e.chunks api [op]) (e.after api op) := by
      -- only `process_frame` denoises chunks
      by_cases hcall : ∃ c, op = .processFrame c
      · obtain ⟨c, rfl⟩ := hcall
        show List.Along _ h (e.entries api c ++ []) ∧
          TracksChunks (h ++ (e.entries api c ++ [])) (e.process api c).2.2
        rw [List.append_nil]
        exact ht.process api c
      · have hnone : e.chunks api [op] = [] := by
          cases op with
          | processFrame c => exact absurd ⟨c, rfl⟩ hcall
          | _ => rfl
        rw [hnone, List.append_nil]
        refine ⟨trivial, ?_⟩
        unfold TracksChunks
        rw [breaker_after e hop fun c heq => hcall ⟨c, heq⟩]
        exact ht
    obtain ⟨halong, hlast⟩ := ih hstep.2 fun op' hop' => hops op' (List.mem_cons_of_mem _ hop')
    have hchunks : e.chunks api (op :: ops) =
        e.chunks api [op] ++ (e.after api op).chunks api ops := by
      unfold Engine.chunks
      simp only [Observe.outputs, List.append_nil]
    rw [hchunks]
    refine ⟨List.along_append.mpr ⟨hstep.1, halong⟩, ?_⟩
    rw [← List.append_assoc]
    exact hlast

/-! ## What that means -/

theorem overloadSpec_of_tracks {h : List (Engine α R M × α)} (ht : TracksChunks h e) :
    OverloadSpec (h.map chunkKind) e where
  passes := ht.passes_iff (by decide)
  isOverloaded := ht.isOpen_iff
  normal := by
    intro hnormal
    obtain ⟨hcool, hcount, hrow, _⟩ := ht.closed hnormal
    have hlimit : OVERLOAD_TRIGGER_COUNT = 5 := rfl
    have hfield : e.overloadCount = Breaker.row (h.map chunkKind) := hcount
    exact ⟨hcool, by omega⟩
  overload := ht.opened

theorem chunkSpec_of_tracks {h : List (Engine α R M × α)} (ht : TracksChunks h e) :
    ChunkSpec api (h.map chunkKind) e where
  toOverloadSpec := overloadSpec_of_tracks ht
  passed := by
    intro hpasses api elapsedMs chunk
    unfold denoiseChunk
    exact if_pos hpasses
  inferred := by
    intro hpasses
    constructor
    · unfold leaveOverload
      split
      · rfl
      · rename_i hnormal
        exact Bool.eq_false_iff.mpr hnormal
    · intro elapsedMs chunk
      unfold denoiseChunk
      have hnot : ¬(e.inOverload && decide (0 < e.overloadCooldown)) = true :=
        Bool.eq_false_iff.mp hpasses
      rw [if_neg hnot]
  restart := by
    intro j hj hlen
    -- this is the first chunk after the cooldown of trigger `j`
    have hopen : e.inOverload = true := ht.isOpen_iff.mpr ⟨j, hj, by omega⟩
    constructor
    · apply Bool.eq_false_iff.mpr
      intro hpasses
      obtain ⟨j', hj', hlen'⟩ := (ht.passes_iff (by decide)).mp hpasses
      have hle := ht.le_of_trigger (by decide) hj (by omega) hj'
      omega
    · unfold leaveOverload
      rw [if_pos hopen]

end Engine

/-- Since a successful `init`, the overload handling is what the history of the chunks says:
    before each chunk, for what becomes of it, and after the last call. -/
theorem overload_follows_history (api : Denoisers α R M) (e : Engine α R M) (format : AudioFormat)
    (created : Option R) (found : Option (LoadOutcome M))
    (hinit : (e.init format created found).1 = true) (ops : List (EngineOp α R M))
    (hops : ∀ op ∈ ops, op.InSession) :
    (∀ before entry later,
      (e.init format created found).2.chunks api ops = before ++ entry :: later →
      Engine.ChunkSpec api (before.map Engine.chunkKind) entry.1) ∧
    Engine.OverloadSpec (((e.init format created found).2.chunks api ops).map Engine.chunkKind)
      (ops.foldl (Engine.after api) (e.init format created found).2) := by
  cases created with
  | none => exact nomatch hinit
  | some state =>
    have hstart : Engine.TracksChunks [] (e.init format (some state) found).2 := by
      rw [Engine.init_some]
      exact Breaker.tracks_nil (by decide)
    obtain ⟨halong, hlast⟩ := hstart.run api hops
    constructor
    · intro before entry later hsplit
      rw [hsplit] at halong
      exact Engine.chunkSpec_of_tracks halong.split
    · exact Engine.overloadSpec_of_tracks hlast

/-- Five slow chunks in one call, a switch of mode, and a hundred more chunks. -/
def slowCalls : List (EngineOp ℚ Unit Unit) :=
  [.processFrame
      { clock := fun _ => 9, input := fun _ => 1, output := fun _ => 0, numFrames := 2400 },
    .setMode .cpuSaver,
    .processFrame
      { clock := fun _ => 1, input := fun _ => 1, output := fun _ => 0, numFrames := 48000 }]

theorem overload_follows_history_slow :
    (∀ before entry later,
      (Engine.new.init stereo48k (some ()) none).2.chunks identityDenoisers slowCalls =
        before ++ entry :: later →
      Engine.ChunkSpec identityDenoisers (before.map Engine.chunkKind) entry.1) ∧
    Engine.OverloadSpec
      (((Engine.new.init stereo48k (some ()) none).2.chunks identityDenoisers slowCalls).map
        Engine.chunkKind)
      (slowCalls.foldl (Engine.after identityDenoisers)
        (Engine.new.init stereo48k (some ()) none).2) :=
  overload_follows_history identityDenoisers Engine.new stereo48k (some ()) none rfl slowCalls
    (by simp [slowCalls, EngineOp.InSession])

end Noise
