import NoiseAI.Spec.HandlerInvariant
import NoiseAI.Spec.RingCalls
import NoiseAI.Spec.ShmName

/-!
# The handler on the segment of a live producer

What the callbacks do when the name refers to one segment whose producer stays active.
`Shm.Serves` is what they need to know of the shared memory; the handler is either `Idle`,
without a segment and free to attach, or `At` the segment with what it has counted. Whatever
the name refers to, `Shm.Consumed` is what they leave as it is.
-/

namespace Noise

variable {α : Type} {m : Shm α} {i cap fill hb : Nat}

/-- The name refers to segment `i`, a ring of `cap` samples with `fill` in it, whose producer
    is active. -/
structure Shm.Serves (m : Shm α) (i cap fill hb : Nat) : Prop where
  name : m.names shmName = some i
  size : (m.segment i).size ≠ 0
  active : (m.segment i).isActive = true
  level : (m.segment i).Level cap fill
  heartbeat : (m.segment i).header.heartbeat = hb

/-- The capacity of the segment `noise_shm_create(48000, 2)` creates. -/
def appCapacity : Nat := NoiseEngineContext.shmCapacity 48000 2

theorem appCapacity_lt : appCapacity < 2 ^ 64 := by decide

namespace Shm

@[simp] theorem modify_segment_self (m : Shm α) (i : Nat) (f : Segment α → Segment α) :
    (m.modify i f).segment i = f (m.segment i) := Function.update_self ..

/-- A call on the segment keeps it served, with the level and the heartbeat it leaves. -/
theorem Serves.modify {g : Segment α} {fill' hb' : Nat} (h : m.Serves i cap fill hb)
    (hsize : g.size = (m.segment i).size) (hactive : g.header.active = (m.segment i).header.active)
    (hlevel : g.Level cap fill') (hbeat : g.header.heartbeat = hb') :
    (m.modify i fun _ => g).Serves i cap fill' hb' := by
  refine ⟨h.name, ?_, ?_, ?_, ?_⟩
  · rw [modify_segment_self, hsize]
    exact h.size
  · rw [modify_segment_self, Segment.isActive, hactive]
    exact h.active
  · rw [modify_segment_self]
    exact hlevel
  · rw [modify_segment_self]
    exact hbeat

theorem Serves.flush (h : m.Serves i cap fill hb) :
    (m.modify i fun _ => (m.segment i).flush).Serves i cap 0 hb :=
  h.modify rfl rfl h.level.flush h.heartbeat

/-- After a request the ring holds what was not taken out. -/
theorem Serves.read (h : m.Serves i cap fill hb) (hcap : cap < 2 ^ 64) (n : Nat) :
    (m.modify i fun _ => ((m.segment i).read n).2).Serves i cap
      (if n ≤ fill then fill - n else fill) hb := by
  by_cases hn : n ≤ fill
  · obtain ⟨_, hlevel, hbeat, hactive⟩ := h.level.read_served hcap hn
    rw [if_pos hn]
    refine h.modify ?_ hactive hlevel (hbeat.trans h.heartbeat)
    unfold Segment.read
    simp only
    split
    · rfl
    · rfl
  · rw [if_neg hn, h.level.read_refused hcap (Nat.lt_of_not_le hn)]
    exact h.modify rfl rfl h.level h.heartbeat

/-- After a block that fits the ring holds it, and the heartbeat has moved. -/
theorem Serves.write (h : m.Serves i cap fill hb) (hcap : cap < 2 ^ 64) {data : List α}
    (hroom : fill + data.length ≤ cap) :
    (m.modify i fun _ => ((m.segment i).write data).2).Serves i cap (fill + data.length)
      (u64 (hb + 1)) := by
  obtain ⟨_, hlevel, hbeat, hactive, _⟩ := h.level.write_accepted hcap hroom
  refine h.modify ?_ hactive hlevel (by rw [hbeat, h.heartbeat])
  unfold Segment.write
  simp only
  split
  · rfl
  · rfl

/-- The consumer's constructor maps the segment. -/
theorem Serves.openExisting (h : m.Serves i cap fill hb) :
    (SharedRingBuffer.openExisting m shmName .ok).segment = some i := by
  unfold SharedRingBuffer.openExisting
  rw [h.name]
  simp [SysCalls.ok, h.size]

/-- A segment that is not the served one may change. -/
theorem Serves.other {i j cap fill hb : Nat} (h : m.Serves i cap fill hb) (hj : i ≠ j)
    (g : Segment α) : (m.modify j fun _ => g).Serves i cap fill hb := by
  have hsame : (m.modify j fun _ => g).segment i = m.segment i := Function.update_of_ne hj _ _
  refine ⟨h.name, ?_, ?_, ?_, ?_⟩
  · rw [hsame]
    exact h.size
  · rw [hsame]
    exact h.active
  · rw [hsame]
    exact h.level
  · rw [hsame]
    exact h.heartbeat

end Shm

/-- A new segment is empty, and its producer active. -/
theorem SharedRingBuffer.create_serves [Zero α] (m : Shm α) {capacity : Nat}
    (channels sampleRate : Nat) (hsmall : capacity < 2 ^ 32) :
    let r := create m Noise.shmName capacity channels sampleRate .ok
    r.1.segment = some m.created ∧ r.2.Serves m.created capacity 0 0 := by
  have hcap : u32 capacity = capacity := u32_of_lt hsmall
  -- the size of the segment does not wrap
  have hsize : u64 (sizeofHeader + capacity * sizeofFloat) =
      sizeofHeader + capacity * sizeofFloat := by
    apply u64_of_lt
    unfold sizeofHeader sizeofFloat
    omega
  obtain ⟨_, _, hsegment, hname⟩ := create_spec m Noise.shmName capacity channels sampleRate .ok
  obtain ⟨_, _, hfresh⟩ := create_valid m Noise.shmName capacity channels sampleRate .ok
    (isValid_create ..)
  refine ⟨hsegment, hname.trans hsegment, ?_, ?_, ⟨?_, Nat.zero_le _, 0, ?_, ?_⟩, ?_⟩
  · rw [hfresh]
    show u64 _ ≠ 0
    rw [hsize]
    unfold sizeofHeader
    omega
  · rw [hfresh]
    rfl
  · rw [hfresh]
    exact hcap
  · rw [hfresh]
    rfl
  · rw [hfresh]
    rfl
  · rw [hfresh]
    rfl

namespace IOHandler

variable {io : IOHandler} {last stale : Nat}

/-- The handler holds segment `i`, last saw heartbeat `last`, and has seen it `stale` times
    again. -/
structure At (io : IOHandler) (i last stale : Nat) : Prop where
  inv : io.Inv
  holds : ∃ b, io.sharedBuffer = some b ∧ b.segment = some i
  last : io.lastHeartbeat = last
  stale : io.staleCount = stale

/-- The handler holds no segment, and tries to attach one at the next callback. -/
structure Idle (io : IOHandler) : Prop where
  inv : io.Inv
  none : io.sharedBuffer = none
  countdown : io.reconnectCountdown = 0

theorem Idle.new : Idle .new := ⟨Inv.new, rfl, rfl⟩

theorem Idle.onStopIO (io : IOHandler) : io.onStopIO.Idle where
  inv := Inv.onStopIO io
  none := rfl
  countdown := rfl

/-- A callback of an idle handler attaches the segment, flushes it, and goes on as the
    handler then does. -/
theorem Idle.ensureConnected (h : io.Idle) (hm : m.Serves i cap fill hb) :
    ∃ io', io.ensureConnected shmConsumer m =
        (true, io', m.modify i fun _ => (m.segment i).flush) ∧ io'.At i 0 0 := by
  have hopen := hm.openExisting
  have hforgotten := h.inv.forgotten h.none
  have hinv := h.inv.ensureConnected shmConsumer m
  -- the segment can be opened, so only a successful attempt is left
  rcases h.inv.ensureConnected_cases shmConsumer m with ⟨b, hb, _⟩ | ⟨_, hwait, _⟩ |
    ⟨_, _, hinvalid, _⟩ | ⟨_, _, _, heq⟩
  · rw [h.none] at hb
    cases hb
  · rw [h.countdown] at hwait
    exact absurd hwait (Nat.lt_irrefl 0)
  · simp only [shmConsumer, SharedRingBuffer.isValid, hopen] at hinvalid
    cases hinvalid
  · rw [heq] at hinv ⊢
    refine ⟨_, ?_, hinv, ⟨_, rfl, hopen⟩, hforgotten.1, hforgotten.2⟩
    simp only [shmConsumer, SharedRingBuffer.flush, hopen]
    rfl

/-- A handler that holds a segment keeps it over `ensureConnected`. -/
theorem At.ensureConnected (h : io.At i last stale) :
    io.ensureConnected shmConsumer m = (true, io, m) := by
  obtain ⟨b, hb, _⟩ := h.holds
  -- the cases without a segment are out
  rcases h.inv.ensureConnected_cases shmConsumer m with ⟨_, _, _, heq⟩ | ⟨hnone, _⟩ |
    ⟨hnone, _⟩ | ⟨hnone, _⟩
  · exact heq
  · rw [hnone] at hb
    exact nomatch hb
  · rw [hnone] at hb
    exact nomatch hb
  · rw [hnone] at hb
    exact nomatch hb

/-- The heartbeat has not moved for the fiftieth time: the segment is dropped. -/
theorem At.read_stale (h : io.At i last stale) (hm : m.Serves i cap fill hb) (hsame : hb = last)
    (hstale : kStaleThreshold ≤ stale + 1) (bytesCount : Nat) :
    ∃ io', io.onReadClientInput shmConsumer m bytesCount = (none, io', m) ∧ io'.Idle := by
  obtain ⟨b, hb', hseg⟩ := h.holds
  have hinv := h.inv.onReadClientInput shmConsumer m bytesCount
  have hactive : (shmConsumer.isActive b m).1 = true := by
    simp only [shmConsumer, hseg]
    exact hm.active
  have hbeat : (shmConsumer.getHeartbeat b m).1 = last := by
    simp only [shmConsumer, hseg, ← hsame]
    exact hm.heartbeat
  have heq : io.onReadClientInput shmConsumer m bytesCount =
      io.serve shmConsumer b m bytesCount := by
    unfold onReadClientInput
    rw [h.ensureConnected]
    simp only [hb']
  rw [heq] at hinv ⊢
  obtain ⟨underrun, hmark⟩ := io.markConnected_eq
  -- the segment is active and its heartbeat old: the callback lets it go
  rcases serve_cases shmConsumer io b m bytesCount with ⟨hno, _⟩ | ⟨_, _, hserve⟩ |
    ⟨_, hfresh, _⟩
  · rw [hactive] at hno
    exact nomatch hno
  · rw [hserve] at hinv ⊢
    refine ⟨_, rfl, hinv, rfl, ?_⟩
    show (io.markConnected.checkHeartbeat _).2.reconnectCountdown = 0
    obtain ⟨counted, hnext⟩ := io.markConnected.checkHeartbeat_eq
      (shmConsumer.getHeartbeat b (shmConsumer.isActive b m).2).1
    rw [hnext, hmark]
    exact h.inv.countdown (by rw [hb']; rfl)
  · simp only [checkHeartbeat, hmark] at hfresh
    have hlast : (shmConsumer.getHeartbeat b (shmConsumer.isActive b m).2).1 =
        io.lastHeartbeat := by
      rw [h.last]
      exact hbeat
    rw [if_pos hlast, h.stale] at hfresh
    exact absurd hstale (of_decide_eq_false hfresh)

/-- Otherwise the callback reads, and has seen the heartbeat. -/
theorem At.read_fresh (h : io.At i last stale) (hm : m.Serves i cap fill hb)
    (hfresh : hb = last → stale + 1 < kStaleThreshold) (bytesCount : Nat) :
    ∃ io', io.onReadClientInput shmConsumer m bytesCount =
        (((m.segment i).read (totalSamples bytesCount)).1, io',
          m.modify i fun _ => ((m.segment i).read (totalSamples bytesCount)).2) ∧
      io'.At i hb (if hb = last then stale + 1 else 0) := by
  obtain ⟨b, hb', hseg⟩ := h.holds
  have hinv := h.inv.onReadClientInput shmConsumer m bytesCount
  have hactive : (shmConsumer.isActive b m).1 = true := by
    simp only [shmConsumer, hseg]
    exact hm.active
  have hbeat : (shmConsumer.getHeartbeat b (shmConsumer.isActive b m).2).1 = hb := by
    simp only [shmConsumer, hseg]
    exact hm.heartbeat
  have heq : io.onReadClientInput shmConsumer m bytesCount =
      io.serve shmConsumer b m bytesCount := by
    unfold onReadClientInput
    rw [h.ensureConnected]
    simp only [hb']
  rw [heq] at hinv ⊢
  obtain ⟨underrun, hmark⟩ := io.markConnected_eq
  -- the segment is active and the threshold is not reached: the callback reads
  rcases serve_cases shmConsumer io b m bytesCount with ⟨hno, _⟩ | ⟨_, htrip, _⟩ |
    ⟨_, _, hserve⟩
  · rw [hactive] at hno
    exact nomatch hno
  · rw [hbeat, hmark] at htrip
    simp only [checkHeartbeat] at htrip
    by_cases hsame : hb = io.lastHeartbeat
    · rw [if_pos hsame, h.stale] at htrip
      have hlt := hfresh (hsame.trans h.last)
      have hle := of_decide_eq_true htrip
      omega
    · rw [if_neg hsame] at htrip
      exact nomatch htrip
  · rw [hserve] at hinv ⊢
    refine ⟨_, ?_, hinv, ?_, ?_, ?_⟩
    · simp only [shmConsumer, SharedRingBuffer.read, hseg]
    · refine ⟨b, ?_, hseg⟩
      rw [hbeat, hmark]
      unfold checkHeartbeat
      split
      · exact hb'
      · exact hb'
    · rw [hbeat, hmark]
      unfold checkHeartbeat
      split
      · rename_i hsame
        exact hsame.symm
      · rfl
    · rw [hbeat, hmark]
      simp only [checkHeartbeat]
      by_cases hsame : hb = last
      · rw [if_pos (hsame.trans h.last.symm), if_pos hsame]
        simp only [h.stale]
      · have hmoved : ¬ hb = io.lastHeartbeat := by
          rw [h.last]
          exact hsame
        rw [if_neg hmoved, if_neg hsame]

/-- A callback of an idle handler attaches the segment and reads from the flushed ring. -/
theorem Idle.read (h : io.Idle) (hm : m.Serves i cap fill hb) (bytesCount : Nat) :
    ∃ io', io.onReadClientInput shmConsumer m bytesCount =
        (((m.segment i).flush.read (totalSamples bytesCount)).1, io',
          m.modify i fun _ => ((m.segment i).flush.read (totalSamples bytesCount)).2) ∧
      io'.At i hb (if hb = 0 then 1 else 0) := by
  obtain ⟨io₁, heq, hat⟩ := h.ensureConnected hm
  obtain ⟨io₂, hread, hat'⟩ := hat.read_fresh hm.flush (fun _ => by decide) bytesCount
  refine ⟨io₂, ?_, hat'⟩
  obtain ⟨b, hb', _⟩ := hat.holds
  have hsame : io.onReadClientInput shmConsumer m bytesCount =
      io₁.onReadClientInput shmConsumer (m.modify i fun _ => (m.segment i).flush) bytesCount := by
    unfold onReadClientInput
    rw [heq, hat.ensureConnected]
  rw [hsame, hread]
  simp only [Shm.modify, Function.update_self, Function.update_idem]

/-- `OnStartIO` attaches the segment and flushes it. -/
theorem onStartIO_serves (io : IOHandler) (hm : m.Serves i cap fill hb) :
    ∃ io', io.onStartIO shmConsumer m = (io', m.modify i fun _ => (m.segment i).flush) ∧
      io'.At i 0 0 := by
  obtain ⟨io₁, heq, hat⟩ := Idle.new.ensureConnected hm
  refine ⟨io₁, ?_, hat⟩
  unfold onStartIO
  rw [heq]

end IOHandler

/-! ## What the calls of a consumer change -/

/-- The calls of a consumer leave names and segments as they are, but for samples taken out. -/
structure Shm.Consumed (m m' : Shm α) : Prop where
  names : m'.names = m.names
  created : m'.created = m.created
  active : ∀ k, (m'.segment k).isActive = (m.segment k).isActive
  writePos : ∀ k, (m'.segment k).header.writePos = (m.segment k).header.writePos
  serves : ∀ i fill hb, m.Serves i appCapacity fill hb →
    ∃ fill', m'.Serves i appCapacity fill' hb

namespace Shm

variable {m' m'' : Shm α}

/-! ## The consumer -/

theorem Consumed.refl (m : Shm α) : m.Consumed m :=
  ⟨rfl, rfl, fun _ => rfl, fun _ => rfl, fun _ fill _ h => ⟨fill, h⟩⟩

theorem Consumed.trans (h : m.Consumed m') (h' : m'.Consumed m'') : m.Consumed m'' where
  names := h'.names.trans h.names
  created := h'.created.trans h.created
  active := fun k => (h'.active k).trans (h.active k)
  writePos := fun k => (h'.writePos k).trans (h.writePos k)
  serves := by
    intro i fill hb hserves
    obtain ⟨fill', hserves'⟩ := h.serves i fill hb hserves
    exact h'.serves i fill' hb hserves'

/-- One call of a consumer on segment `j`. -/
theorem consumed_modify {j : Nat} {g : Segment α}
    (hactive : g.header.active = (m.segment j).header.active)
    (hwritePos : g.header.writePos = (m.segment j).header.writePos)
    (hserves : ∀ fill hb, m.Serves j appCapacity fill hb →
      ∃ fill', (m.modify j fun _ => g).Serves j appCapacity fill' hb) :
    m.Consumed (m.modify j fun _ => g) where
  names := rfl
  created := rfl
  active := by
    intro k
    by_cases hk : k = j
    · rw [hk, modify_segment_self, Segment.isActive, hactive]
      rfl
    · rw [show (m.modify j fun _ => g).segment k = m.segment k from Function.update_of_ne hk _ _]
  writePos := by
    intro k
    by_cases hk : k = j
    · rw [hk, modify_segment_self, hwritePos]
    · rw [show (m.modify j fun _ => g).segment k = m.segment k from Function.update_of_ne hk _ _]
  serves := by
    intro i fill hb h
    by_cases hi : i = j
    · subst hi
      exact hserves fill hb h
    · exact ⟨fill, h.other hi g⟩

theorem consumed_flush (m : Shm α) (j : Nat) : m.Consumed (m.modify j Segment.flush) :=
  consumed_modify (g := (m.segment j).flush) rfl rfl fun _ _ h => ⟨0, h.flush⟩

theorem consumed_read (m : Shm α) (j n : Nat) :
    m.Consumed (m.modify j fun _ => ((m.segment j).read n).2) := by
  apply consumed_modify
  · unfold Segment.read
    dsimp only
    split
    · rfl
    · rfl
  · unfold Segment.read
    dsimp only
    split
    · rfl
    · rfl
  · intro _ _ h
    exact ⟨_, h.read appCapacity_lt n⟩

end Shm

namespace SharedRingBuffer

variable {m : Shm α}

theorem consumed_flush (b : SharedRingBuffer) (m : Shm α) : m.Consumed (b.flush m) := by
  unfold flush
  split
  · exact .refl m
  · exact m.consumed_flush _

theorem consumed_read (b : SharedRingBuffer) (m : Shm α) (n : Nat) :
    m.Consumed (b.read m n).2 := by
  unfold read
  split
  · exact .refl m
  · exact m.consumed_read _ n

/-- A consumer maps the segment that has the name. -/
theorem names_of_openExisting {name : String} {sys : SysCalls} {j : Nat}
    (h : (openExisting m name sys).segment = some j) : m.names name = some j := by
  unfold openExisting at h
  split at h
  · exact nomatch h
  · rename_i i hname
    dsimp only at h
    split at h
    · exact nomatch h
    · split at h
      · exact nomatch h
      · rw [hname]
        exact h

end SharedRingBuffer

namespace IOHandler

variable {io : IOHandler}

/-- `ensureConnected` leaves the handler with the segment it held, the one that has the name, or
    none. -/
theorem Inv.ensureConnected_shm (h : io.Inv) (m : Shm α) :
    m.Consumed (io.ensureConnected shmConsumer m).2.2 ∧
      ∀ j, (io.ensureConnected shmConsumer m).2.1.segment = some j →
        io.segment = some j ∨ m.names shmName = some j := by
  rcases h.ensureConnected_cases shmConsumer m with ⟨_, _, _, heq⟩ | ⟨_, _, heq⟩ |
    ⟨_, _, _, heq⟩ | ⟨_, _, _, heq⟩
  · rw [heq]
    exact ⟨.refl m, fun _ hj => .inl hj⟩
  · rw [heq]
    exact ⟨.refl m, fun _ hj => .inl hj⟩
  · rw [heq]
    exact ⟨.refl m, fun _ hj => nomatch hj⟩
  · rw [heq]
    exact ⟨SharedRingBuffer.consumed_flush _ m,
      fun _ hj => .inr (SharedRingBuffer.names_of_openExisting hj)⟩

/-- Serving a callback, a handler keeps its segment or gives it up; what it delivers comes from an
    active one. -/
theorem serve_shm {b : SharedRingBuffer} (hb : io.sharedBuffer = some b) (m : Shm α)
    (bytesCount : Nat) :
    let r := io.serve shmConsumer b m bytesCount
    m.Consumed r.2.2 ∧ (∀ j, r.2.1.segment = some j → io.segment = some j) ∧
      (r.1.isSome = true → ∃ j, r.2.1.segment = some j ∧ (m.segment j).isActive = true) := by
  obtain ⟨underrun, hmark⟩ := io.markConnected_eq
  obtain ⟨stale, hcheck⟩ :=
    io.markConnected.checkHeartbeat_eq (shmConsumer.getHeartbeat b (shmConsumer.isActive b m).2).1
  dsimp only
  rcases serve_cases shmConsumer io b m bytesCount with ⟨_, heq⟩ | ⟨_, _, heq⟩ | ⟨hactive, _, heq⟩
  · rw [heq]
    exact ⟨.refl m, fun _ hj => (nomatch hj), fun hsome => nomatch hsome⟩
  · rw [heq]
    exact ⟨.refl m, fun _ hj => (nomatch hj), fun hsome => nomatch hsome⟩
  · rw [heq, hcheck, hmark]
    refine ⟨SharedRingBuffer.consumed_read b m _, fun _ hj => hj, fun _ => ?_⟩
    simp only [shmConsumer, Option.any_eq_true] at hactive
    obtain ⟨j, hseg, hj⟩ := hactive
    refine ⟨j, ?_, hj⟩
    rw [segment, hb]
    exact hseg

/-- What a callback does: it consumes, it leaves the handler with the segment it held, the one
    that has the name, or none, and what it delivers comes from an active segment. -/
theorem Inv.onReadClientInput_shm (h : io.Inv) (m : Shm α) (bytesCount : Nat) :
    let r := io.onReadClientInput shmConsumer m bytesCount
    m.Consumed r.2.2 ∧
      (∀ j, r.2.1.segment = some j → io.segment = some j ∨ m.names shmName = some j) ∧
      (r.1.isSome = true → ∃ j, r.2.1.segment = some j ∧ (m.segment j).isActive = true) := by
  obtain ⟨hconsumed, hsegment⟩ := h.ensureConnected_shm m
  unfold IOHandler.onReadClientInput
  cases hensure : io.ensureConnected shmConsumer m with
  | mk connected rest =>
    obtain ⟨io', m'⟩ := rest
    rw [hensure] at hconsumed hsegment
    cases connected with
    | false => exact ⟨hconsumed, hsegment, fun hsome => nomatch hsome⟩
    | true =>
      cases hb : io'.sharedBuffer with
      | none =>
        simp only [hb]
        exact ⟨hconsumed, hsegment, fun hsome => nomatch hsome⟩
      | some b =>
        obtain ⟨hserved, hkept, hdelivers⟩ := serve_shm hb m' bytesCount
        simp only [hb]
        refine ⟨hconsumed.trans hserved, fun j hj => hsegment j (hkept j hj), fun hsome => ?_⟩
        obtain ⟨j, hj, hactive⟩ := hdelivers hsome
        refine ⟨j, hj, ?_⟩
        rw [← hconsumed.active]
        exact hactive

end IOHandler

end Noise
