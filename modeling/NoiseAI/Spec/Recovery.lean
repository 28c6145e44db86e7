import NoiseAI.ForStd.Rank
import NoiseAI.Spec.Jitter
import Mathlib.Data.List.Flatten

/-!
# The driver finds the app again

Whatever the handler holds when the app is running, nothing, the segment that an earlier app has
ended, or the one that a crashed app has left behind: within 52 callbacks it attaches the segment
of the app (`driver_recovers`). From that callback on the ring absorbs the jitter between the two
as it does from the start.
-/

namespace Noise

variable {σ α C : Type}

namespace IOHandler

/-- A handler that was only used through its callbacks, whatever was in shared memory at each. -/
inductive Used (w : Consumer σ α) : IOHandler → Prop where
  | new : Used w .new
  | onStart {io io' : IOHandler} {s s' : σ} :
    Used w io → io.onStartIO w s = (io', s') → Used w io'
  | onStop {io : IOHandler} : Used w io → Used w io.onStopIO
  | onReadClientInput {io : IOHandler} (s : σ) (bytesCount : Nat) :
    Used w io → Used w (io.onReadClientInput w s bytesCount).2.1

variable {w : Consumer σ α} {io : IOHandler}

theorem countdown_beginAttempt (io : IOHandler) : io.beginAttempt.reconnectCountdown ≤ 47 := by
  unfold beginAttempt
  dsimp only
  split
  · exact Nat.le_refl 47
  · decide

theorem countdown_ensureConnected (hio : io.Inv) (h : io.reconnectCountdown ≤ 47) (s : σ) :
    (io.ensureConnected w s).2.1.reconnectCountdown ≤ 47 := by
  rcases hio.ensureConnected_cases w s with ⟨_, _, _, heq⟩ | ⟨_, _, heq⟩ | ⟨_, _, _, heq⟩ |
    ⟨_, _, _, heq⟩
  · rw [heq]
    exact h
  · rw [heq]
    dsimp only
    omega
  · rw [heq]
    exact countdown_beginAttempt io
  · rw [heq]
    exact Nat.zero_le 47

/-- Serving a callback leaves the countdown alone. -/
theorem countdown_serve (io : IOHandler) (b : SharedRingBuffer) (s : σ) (bytesCount : Nat) :
    (io.serve w b s bytesCount).2.1.reconnectCountdown = io.reconnectCountdown := by
  obtain ⟨underrun, hmark⟩ := io.markConnected_eq
  obtain ⟨stale, hcheck⟩ :=
    io.markConnected.checkHeartbeat_eq (w.getHeartbeat b (w.isActive b s).2).1
  rcases serve_cases w io b s bytesCount with ⟨_, heq⟩ | ⟨_, _, heq⟩ | ⟨_, _, heq⟩
  · rw [heq, hmark]
    rfl
  · rw [heq, hcheck, hmark]
    rfl
  · rw [heq, hcheck, hmark]

theorem countdown_onReadClientInput (hio : io.Inv) (h : io.reconnectCountdown ≤ 47) (s : σ)
    (bytesCount : Nat) : (io.onReadClientInput w s bytesCount).2.1.reconnectCountdown ≤ 47 := by
  have hnext := countdown_ensureConnected (w := w) hio h s
  unfold IOHandler.onReadClientInput
  cases hensure : io.ensureConnected w s with
  | mk connected rest =>
    obtain ⟨io', s'⟩ := rest
    rw [hensure] at hnext
    cases connected with
    | false => exact hnext
    | true =>
      cases hb : io'.sharedBuffer with
      | none =>
        simp only [hb]
        exact hnext
      | some b =>
        simp only [hb, countdown_serve]
        exact hnext

/-- What holds of a handler in use: its invariant, and it never waits long. -/
theorem Used.inv (h : Used w io) : io.Inv ∧ io.reconnectCountdown ≤ 47 := by
  induction h with
  | new => exact ⟨Inv.new, Nat.zero_le 47⟩
  | @onStart _ io' s _ _ hstart _ =>
    refine ⟨Inv.onStartIO hstart, ?_⟩
    obtain rfl : io' = (IOHandler.new.ensureConnected w s).2.1 := congrArg Prod.fst hstart.symm
    exact countdown_ensureConnected Inv.new (Nat.zero_le 47) s
  | onStop _ _ =>
    refine ⟨?_, Nat.zero_le 47⟩
    exact Inv.onStopIO _
  | onReadClientInput s bytesCount _ ih =>
    exact ⟨ih.1.onReadClientInput w s bytesCount,
      countdown_onReadClientInput ih.1 ih.2 s bytesCount⟩

/-- A callback of a handler that holds segment `j`: it gives the segment up, or has counted its
    heartbeat. Of shared memory it moves at most the `read_pos` there. -/
theorem Inv.read_held (hio : io.Inv) {b : SharedRingBuffer} {j : Nat}
    (hb : io.sharedBuffer = some b) (hseg : b.segment = some j) (m : Shm α) (bytesCount : Nat) :
    ∃ buf io' m', io.onReadClientInput shmConsumer m bytesCount = (buf, io', m') ∧
      (m' = m ∨ ∃ n, m' = m.modify j fun _ => ((m.segment j).read n).2) ∧
      (io'.sharedBuffer = none ∧ io'.reconnectCountdown = 0 ∨
        io'.sharedBuffer = some b ∧ io'.lastHeartbeat = (m.segment j).header.heartbeat ∧
          io'.staleCount =
            if (m.segment j).header.heartbeat = io.lastHeartbeat then io.staleCount + 1
            else 0) := by
  have hzero := hio.countdown (by rw [hb]; rfl)
  -- the handler is connected, so `ensureConnected` does nothing
  have hserve : io.onReadClientInput shmConsumer m bytesCount =
      io.serve shmConsumer b m bytesCount := by
    unfold IOHandler.onReadClientInput
    rcases hio.ensureConnected_cases shmConsumer m with ⟨_, _, _, heq⟩ | ⟨hnone, _⟩ |
      ⟨hnone, _⟩ | ⟨hnone, _⟩
    · rw [heq]
      simp only [hb]
    · exact nomatch hb.symm.trans hnone
    · exact nomatch hb.symm.trans hnone
    · exact nomatch hb.symm.trans hnone
  obtain ⟨underrun, hmark⟩ := io.markConnected_eq
  have hbeat : (shmConsumer.getHeartbeat b (shmConsumer.isActive b m).2).1 =
      (m.segment j).header.heartbeat := by
    simp only [shmConsumer, hseg]
    rfl
  obtain ⟨stale, hcheck⟩ := io.markConnected.checkHeartbeat_eq (m.segment j).header.heartbeat
  rw [hserve]
  rcases serve_cases shmConsumer io b m bytesCount with ⟨_, heq⟩ | ⟨_, _, heq⟩ | ⟨_, _, heq⟩
  · -- the segment is inactive
    rw [heq, hmark]
    exact ⟨_, _, _, rfl, .inl rfl, .inl ⟨rfl, hzero⟩⟩
  · -- its heartbeat is stale
    rw [heq, hbeat, hcheck, hmark]
    exact ⟨_, _, _, rfl, .inl rfl, .inl ⟨rfl, hzero⟩⟩
  · rw [heq, hbeat]
    refine ⟨_, _, _, rfl, .inr ⟨totalSamples bytesCount, ?_⟩, .inr ?_⟩
    · simp only [shmConsumer, SharedRingBuffer.read, hseg]
    · rw [hmark]
      unfold checkHeartbeat
      split
      · rename_i hsame
        exact ⟨hb, hsame.symm, rfl⟩
      · exact ⟨hb, rfl, rfl⟩

end IOHandler

/-- A `write` moves `write_pos` by the length of the block at most. -/
theorem SharedRingBuffer.writePos_write_le (b : SharedRingBuffer) (m : Shm α) (data : List α)
    (i : Nat) : ((b.write m data).2.segment i).header.writePos ≤
      (m.segment i).header.writePos + data.length := by
  unfold SharedRingBuffer.write
  cases b.segment with
  | none => exact Nat.le_add_right _ _
  | some j =>
    by_cases hi : i = j
    · subst hi
      simp only [Shm.modify_segment_self]
      unfold Segment.write
      dsimp only
      split
      · exact Nat.le_add_right _ _
      · exact Nat.mod_le _ _
    · simp only [Shm.modify, Function.update_of_ne hi]
      exact Nat.le_add_right _ _

namespace Device

variable {s : Device α} {i fill hb : Nat}

/-- The app runs on segment `i`, and the handler does not hold it. -/
structure Detached (i : Nat) (s : Device α) : Prop where
  running : ∃ fill hb, s.Running i fill hb ∧ hb < 2 ^ 64
  inv : s.io.Inv
  countdown : s.io.reconnectCountdown ≤ 47
  other : s.io.segment ≠ some i

/-- The callbacks until the handler attaches the segment of the app. -/
def wait (s : Device α) : Nat :=
  match s.io.segment with
  | none => s.io.reconnectCountdown + 1
  | some j =>
    if (s.shm.segment j).header.heartbeat = s.io.lastHeartbeat then
      IOHandler.kStaleThreshold - s.io.staleCount + 1
    else IOHandler.kStaleThreshold + 2

theorem wait_pos (s : Device α) : 0 < s.wait := by
  unfold wait
  split
  · exact Nat.succ_pos _
  · split
    · exact Nat.succ_pos _
    · exact Nat.succ_pos _

theorem Detached.wait_le (h : s.Detached i) : s.wait ≤ 52 := by
  have hcountdown := h.countdown
  unfold wait IOHandler.kStaleThreshold
  split
  · omega
  · split
    · omega
    · exact Nat.le_refl 52

/-- The callback that attaches the segment leaves an empty ring, whose samples all come later. -/
theorem Dropped.attaches (h : s.Dropped i fill hb) (hbeat : hb < 2 ^ 64) (bytesCount : Nat)
    {budget : Nat} (hroom : (s.shm.segment i).header.writePos + budget < 2 ^ 64) :
    Carries i budget (s.read bytesCount).2 (.empty α appCapacity) ([] : List (DeviceOp C α)) := by
  obtain ⟨io', heq, -⟩ := h.io.read h.running.serves bytesCount
  have hstands : ((s.shm.segment i).flush).Stands budget (BoundedQueue.empty α appCapacity) :=
    ⟨h.running.serves.level.capacity, .empty _ _, hroom⟩
  -- the callback that attaches also reads, and finds nothing
  have hread := (hstands.read (by decide) (IOHandler.totalSamples bytesCount)).2
  have hempty : ((BoundedQueue.empty α appCapacity).read (IOHandler.totalSamples bytesCount)).2 =
      BoundedQueue.empty α appCapacity := by
    unfold BoundedQueue.read BoundedQueue.empty
    split
    · simp only [List.drop_nil]
    · rfl
  refine ⟨⟨hb, hb, _, 0, [], (h.read bytesCount).2, ?_, Nat.le_refl 0⟩, ?_⟩
  · refine ⟨?_, hbeat, List.suffix_refl [], fun _ h => absurd h List.not_mem_nil, fun _ => ?_⟩
    · rw [Nat.add_zero, u64_of_lt hbeat]
    · split
      · exact Nat.le_refl 1
      · exact Nat.zero_le 1
  · rw [hempty] at hread
    simp only [Device.read, heq, Shm.modify_segment_self]
    exact hread

/-- Nothing but the `read_pos` of another segment changes, and the app still runs. -/
theorem Running.other (h : s.Running i fill hb) {j n : Nat} (hj : j ≠ i) (io : IOHandler)
    {m : Shm α} (hm : m = s.shm ∨ m = s.shm.modify j fun _ => ((s.shm.segment j).read n).2) :
    ({ s with io := io, shm := m } : Device α).Running i fill hb ∧
      (m.segment j).header.heartbeat = (s.shm.segment j).header.heartbeat := by
  rcases hm with rfl | rfl
  · exact ⟨⟨h.producer, h.serves⟩, rfl⟩
  · refine ⟨⟨h.producer, h.serves.other hj.symm _⟩, ?_⟩
    rw [Shm.modify_segment_self]
    unfold Segment.read
    dsimp only
    split
    · rfl
    · rfl

/-- What a callback of a detached handler can do: attach the segment, or come closer to it. -/
theorem Detached.read (h : s.Detached i) (bytesCount : Nat) :
    (∃ fill hb, s.Dropped i fill hb ∧ hb < 2 ^ 64) ∨
      (s.read bytesCount).2.Detached i ∧ (s.read bytesCount).2.wait < s.wait := by
  obtain ⟨fill, hb, hrunning, hbeat⟩ := h.running
  have hinv' := h.inv.onReadClientInput shmConsumer s.shm bytesCount
  have hcountdown' := IOHandler.countdown_onReadClientInput (w := shmConsumer) h.inv h.countdown
    s.shm bytesCount
  cases hbuf : s.io.sharedBuffer with
  | none =>
    have hseg : s.io.segment = none := by rw [IOHandler.segment, hbuf]; rfl
    by_cases hzero : s.io.reconnectCountdown = 0
    · exact .inl ⟨fill, hb, ⟨hrunning, h.inv, hbuf, hzero⟩, hbeat⟩
    · -- the handler waits for its next attempt
      right
      obtain ⟨io', heq, hio⟩ : ∃ io', s.io.onReadClientInput shmConsumer s.shm bytesCount =
          (none, io', s.shm) ∧ io' = { s.io with
            reconnectCountdown := s.io.reconnectCountdown - 1, wasConnected := false } := by
        refine ⟨_, ?_, rfl⟩
        unfold IOHandler.onReadClientInput
        rcases h.inv.ensureConnected_cases shmConsumer s.shm with ⟨b, hb, _⟩ | ⟨_, _, heq⟩ |
          ⟨_, hno, _⟩ | ⟨_, hno, _⟩
        · cases hbuf.symm.trans hb
        · rw [heq]
        · exact absurd hno hzero
        · exact absurd hno hzero
      rw [heq] at hinv' hcountdown'
      have hseg' : io'.segment = none := by rw [hio, IOHandler.segment, hbuf]; rfl
      simp only [Device.read, heq]
      refine ⟨⟨⟨fill, hb, ⟨hrunning.producer, hrunning.serves⟩, hbeat⟩, hinv', hcountdown', ?_⟩, ?_⟩
      · rw [hseg']
        intro h
        cases h
      · unfold wait
        rw [hseg, hseg', hio]
        dsimp only
        omega
  | some b =>
    right
    -- it holds another segment, and the callback changes nothing of the ring of the app
    obtain ⟨j, hseg⟩ := Option.isSome_iff_exists.mp (h.inv.valid b hbuf)
    have hsegment : s.io.segment = some j := by rw [IOHandler.segment, hbuf]; exact hseg
    have hj : j ≠ i := fun hji => h.other (hji ▸ hsegment)
    have hstale := h.inv.stale
    obtain ⟨buf, io', m', heq, hm, hnext⟩ := h.inv.read_held hbuf hseg s.shm bytesCount
    rw [heq] at hinv' hcountdown'
    obtain ⟨hrunning', hsame⟩ : ({ s with io := io', shm := m' } : Device α).Running i fill hb ∧
        (m'.segment j).header.heartbeat = (s.shm.segment j).header.heartbeat := by
      rcases hm with hm | ⟨n, hm⟩
      · exact hrunning.other (n := 0) hj io' (.inl hm)
      · exact hrunning.other hj io' (.inr hm)
    simp only [Device.read, heq]
    unfold IOHandler.kStaleThreshold at hstale
    rcases hnext with ⟨hnone, hzero⟩ | ⟨hkept, hlast, hcount⟩
    · -- the old segment is given up, and the next callback attaches the new one
      have hseg' : io'.segment = none := by rw [IOHandler.segment, hnone]; rfl
      refine ⟨⟨⟨fill, hb, hrunning', hbeat⟩, hinv', hcountdown', ?_⟩, ?_⟩
      · rw [hseg']
        intro h
        cases h
      · unfold wait IOHandler.kStaleThreshold
        rw [hsegment, hseg']
        dsimp only
        split
        · omega
        · omega
    · -- it is kept, but nobody beats its heart: the count of stale callbacks goes up
      have hseg' : io'.segment = some j := by rw [IOHandler.segment, hkept]; exact hseg
      refine ⟨⟨⟨fill, hb, hrunning', hbeat⟩, hinv', hcountdown', ?_⟩, ?_⟩
      · rw [hseg', ← hsegment]
        exact h.other
      · unfold wait IOHandler.kStaleThreshold
        rw [hsegment, hseg']
        dsimp only
        rw [hsame, hlast, if_pos rfl, hcount]
        split
        · omega
        · omega

/-- A block of the app leaves the handler where it is. -/
theorem Detached.write (h : s.Detached i) (data : List α) :
    (s.write data).Detached i ∧ (s.write data).wait = s.wait := by
  obtain ⟨fill, hb, hrunning, hbeat⟩ := h.running
  have hio : (s.write data).io = s.io := rfl
  refine ⟨⟨?_, h.inv, h.countdown, h.other⟩, ?_⟩
  · by_cases hfits : fill + data.length ≤ appCapacity
    · exact ⟨_, _, hrunning.write_fits hfits, Nat.mod_lt _ (by decide)⟩
    · rw [hrunning.write_over (Nat.lt_of_not_le hfits)]
      exact ⟨fill, hb, hrunning, hbeat⟩
  · unfold wait
    rw [hio]
    split
    · rfl
    · rename_i j hj
      have hne : j ≠ i := fun hji => h.other (hji ▸ hj)
      have hsame : (s.write data).shm.segment j = s.shm.segment j := by
        rw [hrunning.write_eq]
        exact Function.update_of_ne hne _ _
      rw [hsame]

/-- The number of callbacks. -/
def callbacks (ops : List (DeviceOp C α)) : Nat := ops.countP DeviceOp.isRead

theorem callbacks_inTurn (client : C) (blocks : List (List α)) :
    callbacks (inTurn client blocks) = blocks.length := by
  induction blocks with
  | nil => rfl
  | cons data blocks ih =>
    rw [inTurn_cons, callbacks, List.countP_cons, List.countP_cons, ← callbacks, ih]
    rfl

/-- Blocks of the sizes `sizes` and callbacks in turn, from one of the first `n` callbacks on:
    what follows is paced, and asks for all the blocks after the `n`-th at least. -/
theorem inTurn_after {client client' : C} {blocks : List (List α)} {sizes : List Nat}
    {bytesCount n : Nat} {p q : List (DeviceOp C α)} (limit : Nat)
    (hblocks : blocks.map List.length = sizes)
    (hsizes : ∀ size ∈ sizes, size ≠ 0 ∧
      IOHandler.totalSamples (sizeofFloat * size) = size ∧ size ≤ limit)
    (hsplit : inTurn client blocks = p ++ .read client' bytesCount :: q)
    (hfew : callbacks p < n) :
    Paced limit 0 limit q ∧ (sizes.drop n).sum ≤ requested q ∧
      (sent p).length + (sent q).length ≤ sizes.sum := by
  obtain ⟨first, data, rest, rfl, rfl, -, rfl⟩ := inTurn_split hsplit
  have hrest : ∀ data ∈ rest, data ≠ [] ∧
      IOHandler.totalSamples (sizeofFloat * data.length) = data.length ∧ data.length ≤ limit := by
    intro data' hdata
    obtain ⟨hne, hwhole⟩ := hsizes data'.length (hblocks ▸ List.mem_map_of_mem
      (List.mem_append_right _ (List.mem_cons_of_mem _ hdata)))
    exact ⟨fun hnil => hne (List.length_eq_zero_iff.mpr hnil), hwhole⟩
  rw [← hblocks, ← List.map_drop, ← List.length_flatten, ← List.length_flatten]
  rw [callbacks, List.countP_append, ← callbacks, callbacks_inTurn] at hfew
  have hfirst : (first ++ [data]).length ≤ n := by
    rw [List.length_append]
    exact Nat.succ_le_of_lt (Nat.lt_of_le_of_lt (Nat.le_add_right _ _) hfew)
  refine ⟨paced_inTurn hrest, ?_, ?_⟩
  · rw [requested_inTurn fun data hdata => (hrest data hdata).2.1]
    -- what is left of the sizes after `n` is left after the callback, too
    have hdrop : (first ++ data :: rest).drop n = rest.drop (n - (first ++ [data]).length) := by
      rw [List.append_cons, List.drop_append, List.drop_eq_nil_of_le hfirst, List.nil_append]
    rw [hdrop]
    exact ((List.drop_sublist _ _).flatten).length_le
  · rw [sent_concat, sent_inTurn, sent_inTurn, List.flatten_append, List.flatten_cons]
    simp only [DeviceOp.sent, List.length_append]
    omega

/-- A detached handler attaches the segment of the app within 52 callbacks. -/
theorem Detached.recovers (h : s.Detached i) {ops : List (DeviceOp C α)}
    (hlong : 52 ≤ callbacks ops) :
    ∃ p client bytesCount q, ops = p ++ .read client bytesCount :: q ∧ callbacks p < 52 ∧
      let before := p.foldl step s
      let after := (before.read bytesCount).2
      after.io.segment = some i ∧
      ∀ early late limit, early + (late + limit - 1) ≤ appCapacity →
        Paced early late limit q →
        (before.shm.segment i).header.writePos + (sent q).length < 2 ^ 64 →
        after.Absorbs late limit q := by
  -- the rank of a detached handler falls with every callback, and a block keeps it
  obtain ⟨p, op, q, hsplit, hcount, hread, -, hdone⟩ :=
    Rank.reached_within step DeviceOp.isRead (Detached i) wait
      (fun s _ => ∃ fill hb, s.Dropped i fill hb ∧ hb < 2 ^ 64)
      (fun s _ => s.wait_pos)
      (by
        intro s op h htick
        cases op with
        | write data => exact nomatch htick
        | read client bytesCount => exact h.read bytesCount)
      (by
        intro s op h htick
        cases op with
        | write data => exact ⟨(h.write data).1, Nat.le_of_eq (h.write data).2⟩
        | read client bytesCount => exact nomatch htick)
      h (Nat.le_trans h.wait_le hlong)
  cases op with
  | write data => exact nomatch hread
  | read client bytesCount =>
    obtain ⟨fill', hb', hdropped, hbeat'⟩ := hdone
    refine ⟨p, client, bytesCount, q, hsplit, Nat.lt_of_lt_of_le hcount h.wait_le, ?_, ?_⟩
    · obtain ⟨b, hb, hseg⟩ := (hdropped.read bytesCount).2.io.holds
      rw [IOHandler.segment, hb]
      exact hseg
    · intro early late limit hroom hpaced hwrap
      exact (hdropped.attaches hbeat' bytesCount hwrap).absorbs hpaced hroom
        (Nat.lt_of_le_of_lt (Nat.le_add_left _ _) hwrap)

/-- No more was written to a ring than was sent. -/
theorem writePos_le {s : Device α} (hio : s.io.Inv) (ops : List (DeviceOp C α)) (i : Nat) :
    ((ops.foldl step s).shm.segment i).header.writePos ≤
      (s.shm.segment i).header.writePos + (sent ops).length := by
  induction ops generalizing s with
  | nil => exact Nat.le_refl _
  | cons op ops ih =>
    rw [sent, List.flatMap_cons, List.length_append, ← sent, List.foldl_cons]
    cases op with
    | write data =>
      refine Nat.le_trans (ih (s := s.write data) hio) ?_
      have hwrite := s.producer.writePos_write_le s.shm data i
      simp only [write, DeviceOp.sent]
      omega
    | read client bytesCount =>
      refine Nat.le_trans (ih (hio.onReadClientInput shmConsumer s.shm bytesCount)) ?_
      obtain ⟨hconsumed, -⟩ := hio.onReadClientInput_shm s.shm bytesCount
      have hsame : ((s.read bytesCount).2.shm.segment i).header.writePos =
          (s.shm.segment i).header.writePos := hconsumed.writePos i
      simp only [step, DeviceOp.sent, List.length_nil, hsame]
      omega

end Device

/-- The driver finds the app again. Whatever a handler in use holds when the app runs, one of the
    next 52 callbacks attaches the segment of the app, unless the handler holds it already; it
    stays attached from there on and absorbs the jitter of what follows, as long as that is
    paced and fewer than `2 ^ 64` samples are written to the ring. -/
theorem driver_recovers {s : Device α} {i fill hb : Nat} (hrunning : s.Running i fill hb)
    (hbeat : hb < 2 ^ 64) (hused : IOHandler.Used (shmConsumer (α := α)) s.io)
    (hother : s.io.segment ≠ some i) {ops : List (DeviceOp C α)}
    (hlong : 52 ≤ Device.callbacks ops) :
    ∃ p client bytesCount q, ops = p ++ .read client bytesCount :: q ∧ Device.callbacks p < 52 ∧
      let before := p.foldl Device.step s
      let after := (before.read bytesCount).2
      after.io.segment = some i ∧
      ∀ early late limit, early + (late + limit - 1) ≤ appCapacity →
        Device.Paced early late limit q →
        (before.shm.segment i).header.writePos + (Device.sent q).length < 2 ^ 64 →
        after.Absorbs late limit q := by
  obtain ⟨hinv, hcountdown⟩ := hused.inv
  exact Device.Detached.recovers ⟨⟨fill, hb, hrunning, hbeat⟩, hinv, hcountdown, hother⟩ hlong

/-- The app crashes and comes back: the driver still holds the first segment. -/
def restarted : Device Nat :=
  let first := Device.start .empty
  let (producer, m) := SharedRingBuffer.create first.shm shmName appCapacity 2 48000 .ok
  { shm := m, producer := producer, io := first.io }

/-- Sixty blocks of one frame. -/
def sixtyFrames : List (List Nat) := List.replicate 60 [1, 2]

/-- The driver attaches the second segment, and of the eight frames or more that follow the
    client hears all but half a frame. -/
theorem driver_recovers_restarted :
    ∃ (p q : List (DeviceOp Unit Nat)) (bytesCount : Nat),
      Device.inTurn () sixtyFrames = p ++ .read () bytesCount :: q ∧ Device.callbacks p < 52 ∧
      let after := ((p.foldl Device.step restarted).read bytesCount).2
      after.io.segment = some 1 ∧ after.Absorbs 0 2 q ∧
        15 ≤ (Observe.outputs Device.step Device.gets after q).length := by
  obtain ⟨hseg, hserves⟩ := SharedRingBuffer.create_serves (Device.start .empty : Device Nat).shm
    2 48000 (show appCapacity < 2 ^ 32 by decide)
  have hused : IOHandler.Used (shmConsumer (α := Nat)) restarted.io :=
    .onStart (s := (SharedRingBuffer.create .empty shmName appCapacity 2 48000 .ok).2) .new rfl
  obtain ⟨p, client, bytesCount, q, hsplit, hfew, hattached, habsorbs⟩ :=
    driver_recovers (s := restarted) (i := 1) ⟨hseg, hserves⟩ (by decide) hused (by decide)
      (show 52 ≤ Device.callbacks (Device.inTurn () sixtyFrames) by decide)
  have hsizes : sixtyFrames.map List.length = List.replicate 60 2 := rfl
  obtain ⟨hpaced, hrequested, hsent⟩ :=
    Device.inTurn_after 2 hsizes (by decide) hsplit hfew
  have hwritten := Device.writePos_le (s := restarted) hused.inv.1 p 1
  -- the second ring is new, so all that is in it was sent
  have hwrap : ((p.foldl Device.step restarted).shm.segment 1).header.writePos +
      (Device.sent q).length < 2 ^ 64 := by
    refine Nat.lt_of_le_of_lt (Nat.add_le_add_right hwritten _) ?_
    have hframes : (List.replicate 60 2).sum = 120 := rfl
    show 0 + (Device.sent p).length + (Device.sent q).length < 2 ^ 64
    omega
  have hall := habsorbs 2 0 2 (by decide) hpaced hwrap
  refine ⟨p, q, bytesCount, hsplit, hfew, hattached, hall, ?_⟩
  -- sixteen samples are asked for at least, and one is missing at most
  have hmany : 16 ≤ Device.requested q := hrequested
  have hheard := hall.requested_le
  omega

end Noise
