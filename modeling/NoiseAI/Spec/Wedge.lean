import NoiseAI.ForStd.Machine
import NoiseAI.ForStd.Tank
import NoiseAI.Spec.EngineSession
import NoiseAI.Spec.HandlerCalls

/-!
# Can the ring wedge?

`Link` is the app with one handle, its segment, and the driver's handler: the producer
always writes blocks of `f` frames, the driver always requests `k` frames. Both sides refuse
partial transfers, so the ring is a `Tank`. `ring_wedges_iff` says for which block sizes
both sides can be refused in one reachable state.
-/

namespace Noise

variable {α R M : Type} [Sample α]

/-! ## The producer's call -/

namespace Engine

variable (api : Denoisers α R M) {e : Engine α R M} {channels : Nat}

/-- The engine runs, and its buffers hold what some stream has left in them. -/
def Tracked (channels : Nat) (e : Engine α R M) : Prop := ∃ t emitted, e.Stream channels t emitted

/-- A running engine answers every call, whatever its chunks take. -/
theorem Tracked.processFrame (h : e.Tracked channels) (clock : Nat → α) (input output : Nat → α)
    (numFrames : Nat) :
    (e.processFrame api clock input output numFrames).1 = true ∧
      (e.processFrame api clock input output numFrames).2.2.Tracked channels := by
  obtain ⟨t, emitted, hstream⟩ := h
  constructor
  · rw [hstream.live.processFrame]
    split
    · rfl
    · rfl
  · -- a clock of the session that agrees with the one of the call
    have hclock : clock = fun i =>
        (fun j => clock (j - t.input.length / DENOISE_FRAME_SIZE))
          (t.input.length / DENOISE_FRAME_SIZE + i) := by
      funext i
      simp only [Nat.add_sub_cancel_left]
    have hnext := hstream.processFrame api
      (fun j => clock (j - t.input.length / DENOISE_FRAME_SIZE)) input output numFrames
    simp only [← hclock] at hnext
    exact ⟨_, _, hnext⟩

end Engine

namespace NoiseEngineContext

/-- On a running engine `noise_engine_process_and_write` does what `write` does with a block
    of `numFrames` stereo frames. -/
theorem processAndWrite_eq (api : Denoisers α R M) {ctx : NoiseEngineContext α R M} {m : Shm α}
    {b : SharedRingBuffer} {i channels : Nat} (hengine : ctx.engine.Tracked channels)
    (hb : ctx.sharedBuffer = some b) (hseg : b.segment = some i) (clock output input : Nat → α)
    {numFrames : Nat} (hsmall : numFrames * 2 < 2 ^ 32) :
    ∃ ctx' output' data, data.length = 2 * numFrames ∧
      ctx.processAndWrite api clock m output input numFrames =
        (((m.segment i).write data).1, ctx',
          m.modify i (fun _ => ((m.segment i).write data).2), output') ∧
      ctx'.engine.Tracked channels ∧ ctx'.sharedBuffer = some b := by
  obtain ⟨hok, htracked⟩ := hengine.processFrame api clock input output numFrames
  have hvalid : b.isValid = true := by
    unfold SharedRingBuffer.isValid
    rw [hseg]
    rfl
  refine ⟨{ ctx with
      engine := (ctx.engine.processFrame api clock input output numFrames).2.2 },
    (ctx.engine.processFrame api clock input output numFrames).2.1,
    (List.range (u32 (numFrames * 2))).map
      (ctx.engine.processFrame api clock input output numFrames).2.1, ?_, ?_, htracked, hb⟩
  · rw [List.length_map, List.length_range, u32_of_lt hsmall, Nat.mul_comm]
  · unfold processAndWrite
    simp only [hb, hvalid, hok, SharedRingBuffer.write, hseg, Bool.not_true, Bool.false_eq_true,
      if_false]

end NoiseEngineContext

/-! ## The app and the driver -/

/-- The app's process and the driver's handler. -/
structure Link (α R M : Type) where
  bridge : Bridge α R M
  io : IOHandler

inductive LinkOp (α : Type) where
  | processAndWrite (clock input : Nat → α)
  | readClientInput
  | onStart
  | onStop

namespace Link

/-- After a call of the driver: its handler, and the shared memory it leaves. -/
def after (s : Link α R M) (io : IOHandler) (m : Shm α) : Link α R M :=
  { bridge := { s.bridge with shm := m }, io := io }

/-- A call: the producer writes `f` frames on handle `h`, the driver asks for `k` frames. -/
def step (api : Denoisers α R M) (h f k : Nat) (s : Link α R M) : LinkOp α → Option (Link α R M)
  | .processAndWrite clock input =>
    (s.bridge.noiseEngineProcessAndWrite api clock input f (some h)).map fun (_, b) =>
      { s with bridge := b }
  | .readClientInput =>
    let (_, io, m) := s.io.onReadClientInput shmConsumer s.bridge.shm (8 * k)
    some (s.after io m)
  | .onStart =>
    let (io, m) := s.io.onStartIO shmConsumer s.bridge.shm
    some (s.after io m)
  | .onStop => some { s with io := s.io.onStopIO }

/-- The next `noise_engine_process_and_write` of the producer's block returns `ok`. -/
def WriteReturns (api : Denoisers α R M) (h f : Nat) (s : Link α R M) (ok : Bool) : Prop :=
  ∀ clock input, ∃ b, s.bridge.noiseEngineProcessAndWrite api clock input f (some h) = some (ok, b)

/-- What the next `read` of the driver's request returns: `true` for its samples. -/
def ReadReturns (k : Nat) (s : Link α R M) (ok : Bool) : Prop :=
  ∃ b, s.io.sharedBuffer = some b ∧
    (b.read s.bridge.shm (IOHandler.totalSamples (8 * k))).1.isSome = ok

/-- Handle `h` has a running engine and segment `i`, with `frames` frames in the ring. -/
structure Ready (h i frames hb : Nat) (s : Link α R M) : Prop where
  context : ∃ ctx b, s.bridge.contexts h = some ctx ∧ ctx.engine.Tracked 2 ∧
    ctx.sharedBuffer = some b ∧ b.segment = some i
  serves : s.bridge.shm.Serves i appCapacity (2 * frames) hb

/-- The handler holds segment `i`, or none. -/
def Attachable (i : Nat) (s : Link α R M) : Prop :=
  s.io.Idle ∨ ∃ last stale, s.io.At i last stale

variable (api : Denoisers α R M) {h i f k frames hb : Nat} {s s' : Link α R M}

theorem totalSamples_eq (k : Nat) : IOHandler.totalSamples (8 * k) = 2 * k := by
  unfold IOHandler.totalSamples IOHandler.kChannels sizeofFloat
  omega

/-- The driver's call, with the buffer left out. -/
theorem step_readClientInput {buf : Option (List α)} {io : IOHandler} {m : Shm α}
    (heq : s.io.onReadClientInput shmConsumer s.bridge.shm (8 * k) = (buf, io, m)) :
    s.step api h f k .readClientInput = some (s.after io m) := by
  simp only [step, heq]

/-- The producer's call writes a block of `2 * f` samples. -/
theorem Ready.processAndWrite (hs : s.Ready h i frames hb) (hf : f ≤ 4096)
    (clock input : Nat → α) :
    ∃ b data, data.length = 2 * f ∧
      s.bridge.noiseEngineProcessAndWrite api clock input f (some h) =
        some (((s.bridge.shm.segment i).write data).1, b) ∧
      b.shm = s.bridge.shm.modify i (fun _ => ((s.bridge.shm.segment i).write data).2) ∧
      ∃ ctx' buf, b.contexts h = some ctx' ∧ ctx'.engine.Tracked 2 ∧
        ctx'.sharedBuffer = some buf ∧ buf.segment = some i := by
  obtain ⟨ctx, buf, hctx, hengine, hbuf, hseg⟩ := hs.context
  obtain ⟨ctx', output', data, hlen, heq, hengine', hbuf'⟩ :=
    NoiseEngineContext.processAndWrite_eq api (m := s.bridge.shm) hengine hbuf hseg clock
      s.bridge.outputBuf input (show f * 2 < 2 ^ 32 by omega)
  refine ⟨{
      shm := s.bridge.shm.modify i fun _ => ((s.bridge.shm.segment i).write data).2
      contexts := Function.update s.bridge.contexts h (some ctx')
      outputBuf := output' },
    data, hlen, ?_, rfl, ctx', buf, Function.update_self .., hengine', hbuf', hseg⟩
  simp only [Bridge.noiseEngineProcessAndWrite, hctx, Option.map_some, heq]

/-- A block that fits is written. -/
theorem Ready.write_accepted (hs : s.Ready h i frames hb) (hf : f ≤ 4096)
    (hroom : frames + f ≤ 4800) :
    s.WriteReturns api h f true ∧ ∀ clock input, ∃ s',
      s.step api h f k (.processAndWrite clock input) = some s' ∧ s'.io = s.io ∧
        s'.Ready h i (frames + f) (u64 (hb + 1)) := by
  have hfits : ∀ data : List α, data.length = 2 * f → 2 * frames + data.length ≤ appCapacity := by
    intro data hlen
    show _ ≤ 9600
    omega
  constructor
  · intro clock input
    obtain ⟨b, data, hlen, heq, _⟩ := hs.processAndWrite api hf clock input
    refine ⟨b, ?_⟩
    rw [heq, (hs.serves.level.write_accepted appCapacity_lt (hfits data hlen)).1]
  · intro clock input
    obtain ⟨b, data, hlen, heq, hshm, hctx⟩ := hs.processAndWrite api hf clock input
    refine ⟨{ s with bridge := b }, ?_, rfl, hctx, ?_⟩
    · simp only [step, heq, Option.map_some]
    · have hserves := hs.serves.write appCapacity_lt (hfits data hlen)
      rw [← hshm, hlen, ← Nat.mul_add] at hserves
      exact hserves

/-- A block that does not fit is refused. -/
theorem Ready.write_refused (hs : s.Ready h i frames hb) (hf : f ≤ 4096)
    (hfull : 4800 < frames + f) :
    s.WriteReturns api h f false ∧ ∀ clock input, ∃ s',
      s.step api h f k (.processAndWrite clock input) = some s' ∧ s'.io = s.io ∧
        s'.Ready h i frames hb := by
  have hover : ∀ data : List α, data.length = 2 * f → appCapacity < 2 * frames + data.length := by
    intro data hlen
    show 9600 < _
    omega
  constructor
  · intro clock input
    obtain ⟨b, data, hlen, heq, _⟩ := hs.processAndWrite api hf clock input
    refine ⟨b, ?_⟩
    rw [heq, hs.serves.level.write_refused appCapacity_lt (hover data hlen)]
  · intro clock input
    obtain ⟨b, data, hlen, heq, hshm, hctx⟩ := hs.processAndWrite api hf clock input
    refine ⟨{ s with bridge := b }, ?_, rfl, hctx, ?_⟩
    · simp only [step, heq, Option.map_some]
    · show b.shm.Serves i appCapacity (2 * frames) hb
      rw [hs.serves.level.write_refused appCapacity_lt (hover data hlen)] at hshm
      rw [hshm]
      exact hs.serves.modify rfl rfl hs.serves.level hs.serves.heartbeat

omit [Sample α] in
/-- The segment after a request for `k` frames. -/
theorem Ready.read (hs : s.Ready h i frames hb) (io : IOHandler) :
    (s.after io (s.bridge.shm.modify i fun _ => ((s.bridge.shm.segment i).read (2 * k)).2)).Ready
      h i (if k ≤ frames then frames - k else frames) hb := by
  have hread := hs.serves.read appCapacity_lt (2 * k)
  refine ⟨hs.context, ?_⟩
  by_cases hk : k ≤ frames
  · rw [if_pos hk]
    rw [if_pos (by omega), ← Nat.mul_sub] at hread
    exact hread
  · rw [if_neg hk]
    rw [if_neg (by omega)] at hread
    exact hread

omit [Sample α] in
theorem Ready.flush (hs : s.Ready h i frames hb) (io : IOHandler) :
    (s.after io (s.bridge.shm.modify i fun _ => (s.bridge.shm.segment i).flush)).Ready h i 0 hb :=
  ⟨hs.context, hs.serves.flush⟩

omit [Sample α] in
/-- What the `read` of a connected handler returns. -/
theorem Ready.readReturns {last stale : Nat} (hs : s.Ready h i frames hb)
    (hio : s.io.At i last stale) : s.ReadReturns k (decide (k ≤ frames)) := by
  obtain ⟨b, hb', hseg⟩ := hio.holds
  refine ⟨b, hb', ?_⟩
  unfold SharedRingBuffer.read
  rw [hseg, totalSamples_eq]
  by_cases hk : k ≤ frames
  · obtain ⟨hsome, _⟩ := hs.serves.level.read_served appCapacity_lt (n := 2 * k) (by omega)
    rw [decide_eq_true hk]
    simp only [hsome, Option.isSome_some]
  · have hnone := hs.serves.level.read_refused appCapacity_lt (n := 2 * k) (by omega)
    rw [decide_eq_false hk]
    simp only [hnone, Option.isSome_none]

/-! ## Every reachable state -/

/-- A callback leaves the level, takes `k` frames out, or empties the ring. -/
theorem Ready.callback (hs : s.Ready h i frames hb)
    (hio : s.Attachable i) :
    ∃ s' frames', s.step api h f k .readClientInput = some s' ∧ s'.Attachable i ∧
      s'.Ready h i frames' hb ∧ (frames' = frames ∨ frames' = 0 ∨ frames' = frames - k) := by
  -- an idle handler flushes, a stale one lets go, any other takes its samples
  rcases hio with hidle | ⟨last, stale, hat⟩
  · obtain ⟨io', heq, hat'⟩ := hidle.read hs.serves (8 * k)
    rw [totalSamples_eq] at heq
    have hread := (hs.flush io').read (k := k) io'
    simp only [after, Shm.modify, Function.update_self, Function.update_idem] at hread
    refine ⟨_, _, step_readClientInput api heq, .inr ⟨_, _, hat'⟩, hread, ?_⟩
    right; left
    split
    · exact Nat.zero_sub k
    · rfl
  · by_cases hstale : hb = last ∧ IOHandler.kStaleThreshold ≤ stale + 1
    · obtain ⟨io', heq, hidle⟩ := hat.read_stale hs.serves hstale.1 hstale.2 (8 * k)
      exact ⟨_, frames, step_readClientInput api heq, .inl hidle, ⟨hs.context, hs.serves⟩, .inl rfl⟩
    · obtain ⟨io', heq, hat'⟩ := hat.read_fresh hs.serves
        (fun hsame => Nat.lt_of_not_le fun hle => hstale ⟨hsame, hle⟩) (8 * k)
      rw [totalSamples_eq] at heq
      refine ⟨_, _, step_readClientInput api heq, .inr ⟨_, _, hat'⟩, hs.read io', ?_⟩
      split
      · exact .inr (.inr rfl)
      · exact .inl rfl

/-- What holds of every reachable state: the level is a multiple of the common divisor of the
    two block sizes. -/
def Inv (h i f k : Nat) (s : Link α R M) : Prop :=
  s.Attachable i ∧ ∃ frames hb, s.Ready h i frames hb ∧ Nat.gcd f k ∣ frames

theorem Inv.step {op : LinkOp α} (hf : f ≤ 4096) (hinv : s.Inv h i f k)
    (hstep : s.step api h f k op = some s') : s'.Inv h i f k := by
  obtain ⟨hio, frames, hb, hs, hdvd⟩ := hinv
  cases op with
  | processAndWrite clock input =>
    -- an accepted block adds `f`, a refused one nothing
    by_cases hroom : frames + f ≤ 4800
    · obtain ⟨t, heq, hio', hs'⟩ := (hs.write_accepted api (k := k) hf hroom).2 clock input
      rw [heq] at hstep
      cases hstep
      refine ⟨?_, _, _, hs', Nat.dvd_add hdvd (Nat.gcd_dvd_left f k)⟩
      unfold Attachable
      rw [hio']
      exact hio
    · obtain ⟨t, heq, hio', hs'⟩ :=
        (hs.write_refused api (k := k) hf (Nat.lt_of_not_le hroom)).2 clock input
      rw [heq] at hstep
      cases hstep
      refine ⟨?_, _, _, hs', hdvd⟩
      unfold Attachable
      rw [hio']
      exact hio
  | readClientInput =>
    obtain ⟨t, frames', heq, hio', hs', hframes⟩ := hs.callback api (f := f) (k := k) hio
    rw [heq] at hstep
    cases hstep
    refine ⟨hio', frames', hb, hs', ?_⟩
    -- every way the level can go stays on the grid of the common divisor
    rcases hframes with rfl | rfl | rfl
    · exact hdvd
    · exact Nat.dvd_zero _
    · exact Nat.dvd_sub hdvd (Nat.gcd_dvd_right f k)
  | onStart =>
    obtain ⟨io', heq, hat⟩ := s.io.onStartIO_serves hs.serves
    simp only [Link.step, heq] at hstep
    cases hstep
    exact ⟨.inr ⟨_, _, hat⟩, 0, hb, hs.flush io', Nat.dvd_zero _⟩
  | onStop =>
    cases hstep
    have hidle := IOHandler.Idle.onStopIO s.io
    exact ⟨.inl hidle, frames, hb, ⟨hs.context, hs.serves⟩, hdvd⟩

/-! ## A run into the wedge -/

/-- A state of the greedy run: `count` blocks were written since the last callback, and the
    callbacks since the heartbeat last moved have taken `stale * k` frames out. -/
def Walking (h i f k level : Nat) (s : Link α R M) : Prop :=
  ∃ last stale count, s.Ready h i level (u64 (last + count)) ∧ s.io.At i last stale ∧
    last < 2 ^ 64 ∧ count * f ≤ level ∧ (count = 0 → stale * k + level ≤ 4800)

/-- The handler does not count enough stale callbacks to give up: `k` is so large that a full
    ring serves only a few requests. -/
theorem Walking.take {level : Nat} (hf : 1 ≤ f) (hlarge : 704 < k)
    (hcap : level ≤ 4800) (hk : k ≤ level) (hs : s.Walking h i f k level) :
    ∃ s', s.step api h f k .readClientInput = some s' ∧ s'.Walking h i f k (level - k) := by
  obtain ⟨last, stale, count, hready, hat, hlast, hcount, hstale⟩ := hs
  have hcount' : count ≤ level := Nat.le_trans (Nat.le_mul_of_pos_right count hf) hcount
  -- the heartbeat is the one last seen only if nothing was written since
  have hsame : u64 (last + count) = last → count = 0 := by
    intro h
    unfold u64 at h
    omega
  have hfresh : u64 (last + count) = last → stale + 1 < IOHandler.kStaleThreshold := by
    intro h
    have hzero := hstale (hsame h)
    have hmul : stale * 705 ≤ stale * k := Nat.mul_le_mul_left stale hlarge
    show stale + 1 < 50
    omega
  obtain ⟨io', heq, hat'⟩ := hat.read_fresh hready.serves hfresh (8 * k)
  rw [totalSamples_eq] at heq
  have hread := hready.read (k := k) io'
  rw [if_pos hk] at hread
  refine ⟨_, step_readClientInput api heq, u64 (last + count), _, 0, ?_, hat', u64_lt _, ?_, ?_⟩
  · rw [Nat.add_zero, u64_of_lt (u64_lt _)]
    exact hread
  · omega
  · intro _
    by_cases hmoved : u64 (last + count) = last
    · have hzero := hstale (hsame hmoved)
      rw [if_pos hmoved, Nat.succ_mul]
      omega
    · rw [if_neg hmoved, Nat.zero_mul]
      omega

theorem Walking.put {level : Nat} (hf : f ≤ 4096) (hroom : level + f ≤ 4800)
    (clock input : Nat → α) (hs : s.Walking h i f k level) :
    ∃ s', s.step api h f k (.processAndWrite clock input) = some s' ∧
      s'.Walking h i f k (level + f) := by
  obtain ⟨last, stale, count, hready, hat, hlast, hcount, _⟩ := hs
  obtain ⟨s', heq, hio, hready'⟩ :=
    (hready.write_accepted api (k := k) hf hroom).2 clock input
  rw [u64_u64_add, Nat.add_assoc] at hready'
  refine ⟨s', heq, last, stale, count + 1, hready', hio ▸ hat, hlast, ?_, fun h => nomatch h⟩
  rw [Nat.succ_mul]
  omega

/-- Every greedy level is reached. -/
theorem exists_walking {level : Nat} (hf : 1 ≤ f) (hmax : f ≤ 4096) (hlarge : 704 < k)
    (hs : s.Walking h i f k 0) (hgreedy : Tank.Greedy 4800 f k level) :
    ∃ ops t, Machine.run (step api h f k) s ops = some t ∧ t.Walking h i f k level := by
  -- each move of the greedy run is a step of the link
  induction hgreedy with
  | empty => exact ⟨[], s, rfl, hs⟩
  | put _ hroom ih =>
    obtain ⟨ops, t, hrun, ht⟩ := ih
    obtain ⟨t', heq, ht'⟩ := ht.put api hmax hroom (fun _ => 0) (fun _ => 0)
    refine ⟨ops ++ [.processAndWrite (fun _ => 0) fun _ => 0], t', ?_, ht'⟩
    exact Machine.run_trans hrun (by rw [Machine.run_cons, heq]; rfl)
  | take hlevel _ hk ih =>
    obtain ⟨ops, t, hrun, ht⟩ := ih
    obtain ⟨t', heq, ht'⟩ := ht.take api hf hlarge hlevel.le_cap hk
    refine ⟨ops ++ [.readClientInput], t', ?_, ht'⟩
    exact Machine.run_trans hrun (by rw [Machine.run_cons, heq]; rfl)

/-- Both sides are refused at a stuck level. -/
theorem Walking.refused {level : Nat} (hf : f ≤ 4096) (hstuck : Tank.Stuck 4800 f k level)
    (hs : s.Walking h i f k level) :
    s.io.isConnected = true ∧ s.WriteReturns api h f false ∧ s.ReadReturns k false := by
  obtain ⟨last, stale, count, hready, hat, _⟩ := hs
  have hread := hready.readReturns (k := k) hat
  rw [decide_eq_false (Nat.not_le_of_lt hstuck.2)] at hread
  refine ⟨?_, (hready.write_refused api (k := k) hf hstuck.1).1, hread⟩
  obtain ⟨b, hb, _⟩ := hat.holds
  rw [hat.inv.isConnected_eq, hb]
  rfl

/-! ## The start -/

/-- The app after `noise_engine_create` and `noise_shm_create`, with an `init` that found its
    denoiser. -/
def Start (m : Shm α) (h : Nat) (state : R) (found : Option (LoadOutcome M))
    (b : Bridge α R M) : Prop :=
  ((Bridge.empty m).noiseEngineCreate h 48000 2 128 (some state) found).bind
    (·.noiseShmCreate 48000 2 .ok (some h)) = some (true, b)

theorem Start.ready {m : Shm α} {state : R} {found : Option (LoadOutcome M)} {b : Bridge α R M}
    (hstart : Start m h state found b) (io : IOHandler) :
    Ready h m.created 0 0 { bridge := b, io := io } := by
  have hlive := Engine.stream_init (Engine.new : Engine α R M)
    { sampleRate := 48000, channels := 2, framesPerBuffer := 128 } (some state) found
    (by simp only [Engine.init, Option.isNone_some]; rfl)
  obtain ⟨hseg, hserves⟩ :=
    SharedRingBuffer.create_serves m 2 48000 (show appCapacity < 2 ^ 32 by decide)
  simp only [Start, Bridge.noiseEngineCreate, Bridge.empty, Bridge.noiseShmCreate,
    Option.bind_some, Function.update_self, Option.map_some, Option.some.injEq, Prod.mk.injEq]
    at hstart
  obtain ⟨_, rfl⟩ := hstart
  exact ⟨⟨_, _, Function.update_self .., ⟨_, _, hlive⟩, rfl, hseg⟩, hserves⟩

omit [Sample α] in
/-- The invariant holds at the start. -/
theorem Ready.inv (hs : s.Ready h i 0 hb) (hio : s.io.Idle) : s.Inv h i f k :=
  ⟨.inl hio, 0, hb, hs, Nat.dvd_zero _⟩

theorem Ready.onStart (hs : s.Ready h i 0 0) :
    ∃ s', s.step api h f k .onStart = some s' ∧ s'.Walking h i f k 0 := by
  obtain ⟨io', heq, hat⟩ := s.io.onStartIO_serves hs.serves
  refine ⟨_, by simp only [step, heq], 0, 0, 0, hs.flush io', hat, ?_, ?_, ?_⟩
  · decide
  · omega
  · omega

end Link

/-- For the ring `noise_shm_create(48000, 2)` builds, a producer block of `f` frames and a
    request of `k`: below `4800 + gcd f k` no reachable state of a connected handler refuses
    both sides, and above it some reachable state refuses both. -/
theorem ring_wedges_iff (api : Denoisers α R M) (m : Shm α) (h : Nat) (state : R)
    (found : Option (LoadOutcome M)) {b : Bridge α R M} (hstart : Link.Start m h state found b)
    {f k : Nat} (hf : 1 ≤ f) (hmax : f ≤ 4096) (hk : 2 * k ≤ appCapacity) :
    (f + k ≤ 4800 + Nat.gcd f k → ∀ ops s,
      Machine.run (Link.step api h f k) { bridge := b, io := .new } ops = some s →
      s.io.isConnected = true → s.WriteReturns api h f true ∨ s.ReadReturns k true) ∧
    (4800 + Nat.gcd f k < f + k → ∃ ops s,
      Machine.run (Link.step api h f k) { bridge := b, io := .new } ops = some s ∧
      s.io.isConnected = true ∧ s.WriteReturns api h f false ∧ s.ReadReturns k false) := by
  have hready := hstart.ready IOHandler.new
  constructor
  · intro hbound ops s hrun hconn
    obtain ⟨hio, frames, hb, hs, hdvd⟩ := Machine.run_invariant (fun _ => True)
      (Link.Inv h m.created f k) (fun _ _ _ _ hinv hstep => hinv.step api hmax hstep)
      (hready.inv .new) (fun _ _ => trivial) hrun
    rcases hio with hidle | ⟨last, stale, hat⟩
    · rw [hidle.inv.isConnected_eq, hidle.none] at hconn
      exact nomatch hconn
    -- a multiple of the common divisor is not stuck under the bound
    · have hfree := Tank.not_stuck_of_dvd hbound hdvd
      by_cases hroom : frames + f ≤ 4800
      · exact .inl (hs.write_accepted api (k := k) hmax hroom).1
      · have havail : k ≤ frames := by
          unfold Tank.Stuck at hfree
          omega
        have hread := hs.readReturns (k := k) hat
        rw [decide_eq_true havail] at hread
        exact .inr hread
  · intro hbound
    have hk' : k ≤ 4800 := by
      have hcap : appCapacity = 9600 := rfl
      omega
    have hpos : 0 < k := by
      rcases Nat.eq_zero_or_pos k with rfl | hpos
      · rw [Nat.gcd_zero_right] at hbound
        omega
      · exact hpos
    -- above the bound the greedy run gets stuck, and the link can follow it
    obtain ⟨level, hgreedy, hstuck⟩ := Tank.exists_stuck hf hpos hbound
    obtain ⟨s₁, hfirst, hwalking⟩ := hready.onStart (f := f) (k := k) api
    obtain ⟨ops, s, hrun, hs⟩ :=
      Link.exists_walking api hf hmax (by omega) hwalking hgreedy
    refine ⟨.onStart :: ops, s, ?_, hs.refused api hmax hstuck⟩
    rw [Machine.run_cons, hfirst]
    exact hrun

/-- With blocks of 512 frames on both sides the ring never wedges. -/
theorem ring_wedges_iff_512 : ∃ b, Link.Start Shm.empty 0 () none b ∧
    ∀ ops s, Machine.run (Link.step identityDenoisers 0 512 512) { bridge := b, io := .new } ops =
        some s →
      s.io.isConnected = true →
      s.WriteReturns identityDenoisers 0 512 true ∨ s.ReadReturns 512 true :=
  ⟨_, rfl, (ring_wedges_iff identityDenoisers Shm.empty 0 () none rfl (f := 512) (k := 512)
    (by decide) (by decide) (by decide)).1 (by decide)⟩

/-- The largest block of the capture callback and the largest request: after one write the
    ring has no room for another block and not enough for a request. -/
theorem largest_blocks_wedge : ∃ b, Link.Start Shm.empty 0 () none b ∧
    ∃ s, Machine.run (Link.step identityDenoisers 0 4096 4800) { bridge := b, io := .new }
        [.onStart, .processAndWrite (fun _ => 0) fun _ => 0] = some s ∧
      s.io.isConnected = true ∧
      ¬ (s.WriteReturns identityDenoisers 0 4096 true ∨ s.ReadReturns 4800 true) := by
  refine ⟨_, rfl, ?_⟩
  have hstart : Link.Start (Shm.empty : Shm ℚ) 0 () (none : Option (LoadOutcome Unit)) _ := rfl
  have hready := hstart.ready .new
  obtain ⟨s₁, hfirst, hwalking⟩ := hready.onStart identityDenoisers (f := 4096) (k := 4800)
  obtain ⟨s, hwrite, hs⟩ := hwalking.put identityDenoisers (by decide) (by decide)
    (fun _ => 0) fun _ => 0
  obtain ⟨hconn, hwrite', hread⟩ := hs.refused identityDenoisers (by decide) (by decide)
  refine ⟨s, ?_, hconn, ?_⟩
  · rw [Machine.run_cons, hfirst, Option.bind_some, Machine.run_cons, hwrite]
    rfl
  · rintro (h | ⟨b, hb, h⟩)
    · obtain ⟨b, hb⟩ := h (fun _ => 0) fun _ => 0
      obtain ⟨b', hb'⟩ := hwrite' (fun _ => 0) fun _ => 0
      rw [hb'] at hb
      exact nomatch hb
    · obtain ⟨b', hb', h'⟩ := hread
      rw [hb'] at hb
      cases hb
      rw [h'] at h
      exact nomatch h

end Noise
