import NoiseAI.ForStd.Observe
import NoiseAI.Spec.HandlerCalls

/-!
# Several clients on one device

One handler serves the device, whoever calls. `Device` is the segment, its producer and the
handler; `deliveries` is what one client gets out of a sequence of writes and callbacks.
A callback of another client moves the shared `read_pos`, flushes the ring or counts
towards giving the segment up: `undisturbed_iff` says that in no reachable state it goes
unnoticed.
-/

namespace Noise

variable {α : Type}

/-- The segment with its producer, and the driver's handler. -/
structure Device (α : Type) where
  shm : Shm α
  producer : SharedRingBuffer
  io : IOHandler

namespace Device

/-- `noise_shm_write` of the producer. -/
def write (s : Device α) (data : List α) : Device α :=
  { s with shm := (s.producer.write s.shm data).2 }

/-- `OnReadClientInput`, for whichever client. -/
def read (s : Device α) (bytesCount : Nat) : Option (List α) × Device α :=
  let (buf, io, m) := s.io.onReadClientInput shmConsumer s.shm bytesCount
  (buf, { s with io := io, shm := m })

/-- The device after the producer has created its segment and IO has started. -/
def start [Zero α] (m : Shm α) : Device α :=
  let (producer, m) := SharedRingBuffer.create m shmName appCapacity 2 48000 .ok
  let (io, m) := IOHandler.new.onStartIO shmConsumer m
  { shm := m, producer := producer, io := io }

/-! ## The states -/

variable {s t : Device α} {i fill hb last stale : Nat}

/-- The producer and the name both have segment `i`. -/
structure Running (i fill hb : Nat) (s : Device α) : Prop where
  producer : s.producer.segment = some i
  serves : s.shm.Serves i appCapacity fill hb

/-- The handler is connected. -/
structure Connected (i fill hb last stale : Nat) (s : Device α) : Prop where
  running : s.Running i fill hb
  io : s.io.At i last stale

/-- The handler attaches the segment at the next callback. -/
structure Dropped (i fill hb : Nat) (s : Device α) : Prop where
  running : s.Running i fill hb
  io : s.io.Idle

theorem Running.write_eq (h : s.Running i fill hb) (data : List α) :
    s.write data =
      { s with shm := s.shm.modify i fun _ => ((s.shm.segment i).write data).2 } := by
  simp only [write, SharedRingBuffer.write, h.producer]

/-- A block that fits is written, whatever the handler does. -/
theorem Running.write_fits (h : s.Running i fill hb) {data : List α}
    (hfits : fill + data.length ≤ appCapacity) :
    (s.write data).Running i (fill + data.length) (u64 (hb + 1)) := by
  rw [h.write_eq]
  exact ⟨h.producer, h.serves.write appCapacity_lt hfits⟩

/-- A block that does not fit changes nothing. -/
theorem Running.write_over (h : s.Running i fill hb) {data : List α}
    (hover : appCapacity < fill + data.length) : s.write data = s := by
  rw [h.write_eq, h.serves.level.write_refused appCapacity_lt hover]
  have hsame : (s.shm.modify i fun _ => s.shm.segment i) = s.shm := by
    simp only [Shm.modify, Function.update_eq_self]
  rw [hsame]

/-- A write leaves a dropped segment dropped. -/
theorem Dropped.write (h : s.Dropped i fill hb) (data : List α) :
    ∃ fill' hb', (s.write data).Dropped i fill' hb' := by
  by_cases hfits : fill + data.length ≤ appCapacity
  · exact ⟨_, _, h.running.write_fits hfits, h.io⟩
  · rw [h.running.write_over (Nat.lt_of_not_le hfits)]
    exact ⟨fill, hb, h⟩

theorem Connected.write (h : s.Connected i fill hb last stale) (data : List α) :
    ∃ fill' hb', (s.write data).Connected i fill' hb' last stale := by
  by_cases hfits : fill + data.length ≤ appCapacity
  · exact ⟨_, _, h.running.write_fits hfits, h.io⟩
  · rw [h.running.write_over (Nat.lt_of_not_le hfits)]
    exact ⟨fill, hb, h⟩

/-- The heartbeat has not moved for the fiftieth callback: the handler drops the segment. -/
theorem Connected.read_stale (h : s.Connected i fill hb last stale) (hsame : hb = last)
    (hstale : IOHandler.kStaleThreshold ≤ stale + 1) (bytesCount : Nat) :
    (s.read bytesCount).2.Dropped i fill hb := by
  obtain ⟨io', heq, hidle⟩ := h.io.read_stale h.running.serves hsame hstale bytesCount
  simp only [read, heq]
  exact ⟨⟨h.running.producer, h.running.serves⟩, hidle⟩

/-- Otherwise a callback takes its samples, if they are there, and sees the heartbeat. -/
theorem Connected.read_fresh (h : s.Connected i fill hb last stale)
    (hfresh : hb = last → stale + 1 < IOHandler.kStaleThreshold) (bytesCount : Nat) :
    (s.read bytesCount).1 =
        ((s.shm.segment i).read (IOHandler.totalSamples bytesCount)).1 ∧
      (s.read bytesCount).2.Connected i
        (if IOHandler.totalSamples bytesCount ≤ fill then fill - IOHandler.totalSamples bytesCount
          else fill) hb hb (if hb = last then stale + 1 else 0) := by
  obtain ⟨io', heq, hat⟩ := h.io.read_fresh h.running.serves hfresh bytesCount
  simp only [read, heq]
  exact ⟨trivial, ⟨h.running.producer, h.running.serves.read appCapacity_lt _⟩, hat⟩

/-- The callback that attaches the segment empties the ring, and gets nothing. -/
theorem Dropped.read (h : s.Dropped i fill hb) (bytesCount : Nat) :
    (0 < IOHandler.totalSamples bytesCount → (s.read bytesCount).1 = none) ∧
      (s.read bytesCount).2.Connected i 0 hb hb (if hb = 0 then 1 else 0) := by
  obtain ⟨io', heq, hat⟩ := h.io.read h.running.serves bytesCount
  have hflush := h.running.serves.flush
  have hread := hflush.read appCapacity_lt (IOHandler.totalSamples bytesCount)
  have hlevel := hflush.level
  simp only [Shm.modify, Function.update_self, Function.update_idem] at hread hlevel
  have hzero : (if IOHandler.totalSamples bytesCount ≤ 0
      then 0 - IOHandler.totalSamples bytesCount else 0) = 0 := by
    split
    · omega
    · rfl
  rw [hzero] at hread
  simp only [Device.read, heq]
  refine ⟨fun hpos => ?_, ⟨h.running.producer, hread⟩, hat⟩
  rw [hlevel.read_refused appCapacity_lt hpos]

/-- The handler is connected, or about to be. -/
def Reachable (i : Nat) (s : Device α) : Prop :=
  (∃ fill hb last stale, s.Connected i fill hb last stale) ∨ ∃ fill hb, s.Dropped i fill hb

theorem Reachable.write (h : s.Reachable i) (data : List α) : (s.write data).Reachable i := by
  rcases h with ⟨fill, hb, last, stale, h⟩ | ⟨fill, hb, h⟩
  · obtain ⟨fill', hb', h'⟩ := h.write data
    exact .inl ⟨fill', hb', last, stale, h'⟩
  · obtain ⟨fill', hb', h'⟩ := h.write data
    exact .inr ⟨fill', hb', h'⟩

theorem Reachable.read (h : s.Reachable i) (bytesCount : Nat) :
    (s.read bytesCount).2.Reachable i := by
  rcases h with ⟨fill, hb, last, stale, h⟩ | ⟨fill, hb, h⟩
  · by_cases hstale : hb = last ∧ IOHandler.kStaleThreshold ≤ stale + 1
    · exact .inr ⟨_, _, h.read_stale hstale.1 hstale.2 bytesCount⟩
    · have hfresh : hb = last → stale + 1 < IOHandler.kStaleThreshold :=
        fun hsame => Nat.lt_of_not_le fun hle => hstale ⟨hsame, hle⟩
      exact .inl ⟨_, _, _, _, (h.read_fresh hfresh bytesCount).2⟩
  · exact .inl ⟨_, _, _, _, (h.read bytesCount).2⟩

theorem reachable_start [Zero α] (m : Shm α) : (start m).Reachable m.created := by
  obtain ⟨hseg, hserves⟩ :=
    SharedRingBuffer.create_serves m 2 48000 (show appCapacity < 2 ^ 32 by decide)
  obtain ⟨io, heq, hat⟩ := IOHandler.new.onStartIO_serves hserves
  simp only [start, heq]
  exact .inl ⟨_, _, _, _, ⟨hseg, hserves.flush⟩, hat⟩

/-! ## Writes and callbacks of several clients -/

end Device

/-- A write of the producer, or a callback for `client`. -/
inductive DeviceOp (C α : Type) where
  | write (data : List α)
  | read (client : C) (bytesCount : Nat)
  deriving DecidableEq

namespace Device

variable {C : Type} [DecidableEq C] [Zero α]

omit [DecidableEq C] [Zero α] in
def step (s : Device α) : DeviceOp C α → Device α
  | .write data => s.write data
  | .read _ bytesCount => (s.read bytesCount).2

/-- The floats a callback stores: the samples of `read`, or `memset` zeros. -/
def filled (bytesCount : Nat) : Option (List α) → List α
  | none => List.replicate (bytesCount / sizeofFloat) 0
  | some samples => samples

/-- The buffer `client` gets, if the callback is its own. -/
def delivered (client : C) (s : Device α) : DeviceOp C α → List (List α)
  | .write _ => []
  | .read c bytesCount =>
    if c = client then [filled bytesCount (s.read bytesCount).1] else []

/-- The buffers `client` gets in a sequence of writes and callbacks. -/
def deliveries (client : C) : Device α → List (DeviceOp C α) → List (List α) :=
  Observe.outputs step (delivered client)

/-- A callback of another client. -/
def disturbs (client : C) : DeviceOp C α → Bool
  | .write _ => false
  | .read c _ => c != client

/-- The sequence without the callbacks of the other clients. -/
def alone (client : C) (ops : List (DeviceOp C α)) : List (DeviceOp C α) :=
  ops.filter fun op => !disturbs client op

/-! ## What a client can tell apart -/

variable {s t : Device α} {i fill hb last stale : Nat} {client : C}

/-- Some writes and callbacks of `client` give it different buffers. -/
def Tells (client : C) : Device α → Device α → Prop :=
  Observe.Distinct step (delivered client) fun op => disturbs client op = false

theorem length_delivered (client : C) (s t : Device α) (op : DeviceOp C α) :
    (delivered client s op).length = (delivered client t op).length := by
  cases op with
  | write data => rfl
  | read c bytesCount =>
    simp only [delivered]
    split
    · rfl
    · rfl

omit [Zero α] in
theorem disturbs_self (client : C) (bytesCount : Nat) :
    disturbs client (.read client bytesCount : DeviceOp C α) = false := by
  simp [disturbs]

/-- A write that leads to states the client tells apart. -/
theorem Tells.of_write (data : List α) (h : Tells client (s.write data) (t.write data)) :
    Tells client s t :=
  Observe.Distinct.of_step (length_delivered client) (l := .write data) rfl h

/-- A callback of the client that leads to states it tells apart. -/
theorem Tells.of_read (bytesCount : Nat)
    (h : Tells client (s.read bytesCount).2 (t.read bytesCount).2) : Tells client s t :=
  Observe.Distinct.of_step (length_delivered client) (l := .read client bytesCount)
    (disturbs_self client bytesCount) h

/-- A callback whose buffers differ tells the states apart. -/
theorem tells_of_read_ne (bytesCount : Nat)
    (hne : filled bytesCount (s.read bytesCount).1 ≠ filled bytesCount (t.read bytesCount).1) :
    Tells client s t := by
  refine ⟨[.read client bytesCount], ?_, ?_⟩
  · intro op hop
    rw [List.mem_singleton.mp hop]
    exact disturbs_self client bytesCount
  · simpa [Observe.outputs, delivered] using hne

omit [DecidableEq C] [Zero α] in
/-- A connected client whose ring has room gets back the value the producer fills the ring
    with, at a fixed place. -/
theorem Connected.filled_back (h : s.Connected i fill hb last stale) (hroom : fill < appCapacity)
    (hmoved : u64 (hb + 1) ≠ last) :
    ∃ j : Nat, ∀ z : α, ∃ buf : List α,
      ((s.write (List.replicate (appCapacity - fill) z)).read (sizeofFloat * appCapacity)).1 =
        some buf ∧
        buf[j]? = some z := by
  have hcap : 0 < appCapacity := Nat.lt_of_le_of_lt (Nat.zero_le fill) hroom
  -- the cell of the last sample of the block, and its place in the buffer
  let cell := Circular.blockCell appCapacity (s.shm.segment i).header.writePos (appCapacity - fill)
    (appCapacity - fill - 1)
  have hcell : cell < appCapacity := Circular.blockCell_lt hcap (by omega) (by omega)
  let index := (s.shm.segment i).header.readPos % appCapacity
  have hindex : index < appCapacity := Nat.mod_lt _ hcap
  refine ⟨(cell + (appCapacity - index)) % appCapacity, fun z => ?_⟩
  have hlen : (List.replicate (appCapacity - fill) z).length = appCapacity - fill :=
    List.length_replicate
  have hfits : fill + (List.replicate (appCapacity - fill) z).length ≤ appCapacity := by omega
  have hfull : appCapacity ≤ fill + (List.replicate (appCapacity - fill) z).length := by omega
  obtain ⟨_, hlevel, _, _, hread, hdata⟩ :=
    h.running.serves.level.write_accepted appCapacity_lt hfits
  have hwritten : (s.write (List.replicate (appCapacity - fill) z)).Connected i _ _ last stale :=
    ⟨h.running.write_fits hfits, h.io⟩
  have hbuf := (hwritten.read_fresh (fun hsame => absurd hsame hmoved)
    (sizeofFloat * appCapacity)).1
  have htotal : IOHandler.totalSamples (sizeofFloat * appCapacity) = appCapacity := by decide
  rw [htotal, h.running.write_eq, Shm.modify_segment_self,
    (hlevel.read_served appCapacity_lt hfull).1, ← h.running.write_eq] at hbuf
  refine ⟨_, hbuf, ?_⟩
  rw [Segment.getElem?_copiedOut _ _ _ _ (Nat.mod_lt _ hcap), hread, hdata,
    Circular.blockCell_eq hcap (Nat.mod_lt _ hcap) (Nat.le_refl _)]
  have hplace : ((s.shm.segment i).header.readPos + (cell + (appCapacity - index)) % appCapacity) %
      appCapacity = cell := by
    rw [Nat.add_mod_mod, ← Nat.mod_add_mod]
    show (index + (cell + (appCapacity - index))) % appCapacity = cell
    have hsum : index + (cell + (appCapacity - index)) = cell + appCapacity := by omega
    rw [hsum, Nat.add_mod_right, Nat.mod_eq_of_lt hcell]
  rw [hplace]
  -- the copy puts the last sample of the block there
  have hlast := Segment.copied_last (s.shm.segment i).data appCapacity
    (s.shm.segment i).header.writePos (List.replicate (appCapacity - fill) z) (by omega)
  rw [List.getElem_replicate] at hlast
  simp only [hlen] at hlast
  rw [hlen]
  exact congrArg some hlast

/-- What the producer fills the rest of a ring of `fill` samples with, a callback on this
    device does not get: it attaches the segment and flushes it, or its ring is fuller and the
    block was refused. -/
def Blind (i fill : Nat) (t : Device α) : Prop :=
  (∃ fill' hb, t.Dropped i fill' hb) ∨ ∃ fill' hb, t.Running i fill' hb ∧ fill < fill'

omit [DecidableEq C] [Zero α] in
/-- An empty block only moves the heartbeat. -/
theorem Running.tick (h : s.Running i fill hb) : (s.write []).Running i fill (u64 (hb + 1)) := by
  have hfits : fill + ([] : List α).length ≤ appCapacity := h.serves.level.le_cap
  exact h.write_fits hfits

omit [DecidableEq C] [Zero α] in
theorem Blind.tick (h : t.Blind i fill) : (t.write []).Blind i fill := by
  rcases h with ⟨fill', hb, h⟩ | ⟨fill', hb, h, hlt⟩
  · exact .inl ⟨fill', _, h.running.tick, h.io⟩
  · exact .inr ⟨fill', _, h.tick, hlt⟩

omit [DecidableEq C] in
/-- Whatever value the producer fills with, the callback stores the same. -/
theorem Blind.same (h : t.Blind i fill) :
    ∃ buf : List α, ∀ z : α, filled (sizeofFloat * appCapacity)
      ((t.write (List.replicate (appCapacity - fill) z)).read (sizeofFloat * appCapacity)).1 =
        buf := by
  rcases h with ⟨fill', hb, h⟩ | ⟨fill', hb, h, hlt⟩
  · refine ⟨filled (sizeofFloat * appCapacity) none, fun z => ?_⟩
    obtain ⟨_, _, hdropped⟩ := h.write (List.replicate (appCapacity - fill) z)
    rw [(hdropped.read (sizeofFloat * appCapacity)).1 (by decide)]
  · refine ⟨filled (sizeofFloat * appCapacity) (t.read (sizeofFloat * appCapacity)).1, fun z => ?_⟩
    have hle := h.serves.level.le_cap
    rw [h.write_over (by rw [List.length_replicate]; omega)]

/-- A connected client whose ring has room is told apart from a blind one. -/
theorem Connected.tells_blind {x : α} (hx : x ≠ 0) (h : s.Connected i fill hb last stale)
    (hroom : fill < appCapacity) (ht : t.Blind i fill) : Tells client s t := by
  -- a heartbeat that would look stale moves on with one empty block
  suffices hmain : ∀ (s t : Device α) (hb : Nat), s.Connected i fill hb last stale →
      t.Blind i fill → u64 (hb + 1) ≠ last → Tells client s t by
    by_cases hmoved : u64 (hb + 1) = last
    · apply Tells.of_write []
      apply hmain _ _ (u64 (hb + 1)) ⟨h.running.tick, h.io⟩ ht.tick
      have hlt := u64_lt (hb + 1)
      rw [hmoved] at hlt ⊢
      unfold u64
      omega
    · exact hmain s t hb h ht hmoved
  intro s t hb h ht hmoved
  obtain ⟨j, hback⟩ := h.filled_back hroom hmoved
  obtain ⟨buf, hsame⟩ := ht.same
  -- the blind one stores the same for every value: fill with one it does not store
  obtain ⟨z, hz⟩ : ∃ z : α, buf[j]? ≠ some z := by
    by_cases hzero : buf[j]? = some 0
    · refine ⟨x, fun hfound => hx ?_⟩
      rw [hzero] at hfound
      exact (Option.some.inj hfound).symm
    · exact ⟨0, hzero⟩
  obtain ⟨buf', hread, hfound⟩ := hback z
  apply Tells.of_write (List.replicate (appCapacity - fill) z)
  apply tells_of_read_ne (sizeofFloat * appCapacity)
  rw [hread, hsame z]
  intro heq
  rw [← heq] at hz
  exact hz hfound

omit [DecidableEq C] [Zero α] in
/-- A request for nothing leaves the ring as it is. -/
theorem Connected.read_nothing (h : s.Connected i fill hb last stale)
    (hfresh : hb = last → stale + 1 < IOHandler.kStaleThreshold) :
    (s.read 0).2.Connected i fill hb hb (if hb = last then stale + 1 else 0) :=
  (h.read_fresh hfresh 0).2

/-- A connected handler and one that has dropped the segment, with equally full rings. -/
theorem Connected.tells_dropped {x : α} (hx : x ≠ 0) {hb' : Nat}
    (h : s.Connected i fill hb last stale) (ht : t.Dropped i fill hb') : Tells client s t := by
  have hle := h.running.serves.level.le_cap
  by_cases hroom : fill < appCapacity
  · exact h.tells_blind hx hroom (.inl ⟨fill, hb', ht⟩)
  · -- the other one empties its ring when it attaches, this one keeps a full ring
    have hcap : 0 < appCapacity := by decide
    apply Tells.of_read 0
    apply Observe.Distinct.symm
    refine (ht.read 0).2.tells_blind hx hcap (.inr ?_)
    by_cases hstale : hb = last ∧ IOHandler.kStaleThreshold ≤ stale + 1
    · exact ⟨fill, hb, (h.read_stale hstale.1 hstale.2 0).running, by omega⟩
    · have hfresh : hb = last → stale + 1 < IOHandler.kStaleThreshold :=
        fun hsame => Nat.lt_of_not_le fun hle => hstale ⟨hsame, hle⟩
      exact ⟨fill, hb, (h.read_nothing hfresh).running, by omega⟩

/-- How many more callbacks without a new heartbeat the handler stays connected for, and the
    one that drops the segment. -/
def patience (hb last stale : Nat) : Nat :=
  if hb = last then IOHandler.kStaleThreshold - stale else IOHandler.kStaleThreshold + 1

/-- Two connected handlers with equally full rings, one of which gives up earlier. -/
theorem Connected.tells_earlier {x : α} (hx : x ≠ 0) {n hb' last' stale' : Nat}
    (h : s.Connected i fill hb last stale) (ht : t.Connected i fill hb' last' stale')
    (hn : patience hb' last' stale' = n) (hlt : n < patience hb last stale) :
    Tells client s t := by
  -- empty requests bring the impatient one to its last callback
  induction n generalizing s t last stale last' stale' with
  | zero =>
    have hstale := ht.io.inv.stale
    rw [ht.io.stale] at hstale
    unfold patience at hn
    split at hn
    · omega
    · exact nomatch hn
  | succ n ih =>
    apply Tells.of_read 0
    have hfresh : hb = last → stale + 1 < IOHandler.kStaleThreshold := by
      intro hsame
      unfold patience at hlt
      rw [if_pos hsame] at hlt
      omega
    have hnext := h.read_nothing hfresh
    -- the other one gives up now, or both have seen this heartbeat once more
    by_cases htrip : hb' = last' ∧ IOHandler.kStaleThreshold ≤ stale' + 1
    · exact hnext.tells_dropped hx (ht.read_stale htrip.1 htrip.2 0)
    · have hfresh' : hb' = last' → stale' + 1 < IOHandler.kStaleThreshold :=
        fun hsame => Nat.lt_of_not_le fun hle => htrip ⟨hsame, hle⟩
      apply ih hnext (ht.read_nothing hfresh')
      · unfold patience at hn ⊢
        rw [if_pos rfl]
        split at hn
        · rename_i hsame
          rw [if_pos hsame]
          omega
        · rename_i hmoved
          rw [if_neg hmoved]
          omega
      · unfold patience at hlt ⊢
        rw [if_pos rfl]
        split at hlt
        · rename_i hsame
          rw [if_pos hsame]
          omega
        · rename_i hmoved
          rw [if_neg hmoved]
          omega

/-! ## No callback of another client goes unnoticed -/

/-- In every state a callback makes a difference to every client. -/
theorem Reachable.tells_read (client : C) {x : α} (hx : x ≠ 0) (h : s.Reachable i)
    (bytesCount : Nat) : Tells client (s.read bytesCount).2 s := by
  rcases h with ⟨fill, hb, last, stale, h⟩ | ⟨fill, hb, h⟩
  · by_cases hstale : hb = last ∧ IOHandler.kStaleThreshold ≤ stale + 1
    · -- it drops the segment
      have hdropped := h.read_stale hstale.1 hstale.2 bytesCount
      exact (h.tells_dropped hx hdropped).symm
    · have hfresh : hb = last → stale + 1 < IOHandler.kStaleThreshold :=
        fun hsame => Nat.lt_of_not_le fun hle => hstale ⟨hsame, hle⟩
      have hnext := (h.read_fresh hfresh bytesCount).2
      have hle := h.running.serves.level.le_cap
      by_cases htakes : 0 < IOHandler.totalSamples bytesCount ∧
          IOHandler.totalSamples bytesCount ≤ fill
      · -- it takes samples out
        rw [if_pos htakes.2] at hnext
        exact hnext.tells_blind hx (by omega) (.inr ⟨fill, hb, h.running, by omega⟩)
      · -- it counts as one more callback without a new heartbeat
        have hsame : (if IOHandler.totalSamples bytesCount ≤ fill then
            fill - IOHandler.totalSamples bytesCount else fill) = fill := by
          split
          · omega
          · rfl
        rw [hsame] at hnext
        apply Observe.Distinct.symm
        apply h.tells_earlier hx hnext rfl
        unfold patience
        rw [if_pos rfl]
        split
        · rename_i hbeat
          have hlt := hfresh hbeat
          omega
        · omega
  · -- it attaches the segment and empties the ring
    exact (h.read bytesCount).2.tells_blind hx (by decide) (.inl ⟨fill, hb, h⟩)

omit [DecidableEq C] [Zero α] in
theorem Reachable.run (ops : List (DeviceOp C α)) (h : s.Reachable i) :
    (ops.foldl step s).Reachable i := by
  induction ops generalizing s with
  | nil => exact h
  | cons op ops ih =>
    cases op with
    | write data => exact ih (h.write data)
    | read c bytesCount => exact ih (h.read bytesCount)

omit [Zero α] in
theorem alone_of_undisturbed {ops : List (DeviceOp C α)}
    (h : ∀ op ∈ ops, disturbs client op = false) : alone client ops = ops := by
  apply List.filter_eq_self.mpr
  intro op hop
  rw [h op hop]
  rfl

end Device

open Device in
/-- In a run without callbacks of other clients a client gets what it gets alone; and in every
    state that any run reaches, removing the next operation can go unnoticed, whatever the
    client and the producer do afterwards, only if it is no callback of another client. -/
theorem undisturbed_iff {C : Type} [DecidableEq C] [Zero α] {x : α} (hx : x ≠ 0) (m : Shm α)
    (client : C) :
    (∀ ops : List (DeviceOp C α), (∀ op ∈ ops, disturbs client op = false) →
      deliveries client (start m) ops = deliveries client (start m) (alone client ops)) ∧
    ∀ (ops : List (DeviceOp C α)) (op : DeviceOp C α),
      (∀ rest, (∀ o ∈ rest, disturbs client o = false) →
        deliveries client (ops.foldl step (start m)) (op :: rest) =
          deliveries client (ops.foldl step (start m)) (alone client (op :: rest))) ↔
      disturbs client op = false := by
  constructor
  · intro ops hops
    rw [alone_of_undisturbed hops]
  · intro ops op
    constructor
    · intro hsame
      cases op with
      | write data => rfl
      | read c bytesCount =>
        by_contra hdisturbs
        rw [Bool.not_eq_false] at hdisturbs
        -- with the callback and without it the states are told apart by some `rest`
        obtain ⟨rest, hrest, hne⟩ :=
          ((reachable_start m).run ops).tells_read client hx bytesCount
        apply hne
        have hother : c ≠ client := by simpa [disturbs] using hdisturbs
        have heq := hsame rest hrest
        simp only [alone, List.filter_cons, hdisturbs, Bool.not_true, Bool.false_eq_true,
          if_false] at heq
        have hfilter := alone_of_undisturbed hrest
        simp only [alone] at hfilter
        rw [hfilter] at heq
        simpa [deliveries, delivered, hother, step] using heq
    · intro hop rest hrest
      rw [alone_of_undisturbed (List.forall_mem_cons.mpr ⟨hop, hrest⟩)]

/-- Client 0 of a device on which client 1 has not called yet. -/
theorem undisturbed_iff_zero :
    let ops : List (DeviceOp Nat Int) := [.write [1, 1], .read 0 8]
    Device.deliveries 0 (Device.start Shm.empty) ops =
      Device.deliveries 0 (Device.start Shm.empty) (Device.alone 0 ops) :=
  ((undisturbed_iff (x := (1 : Int)) (by decide) Shm.empty (0 : Nat)).2 [] (.write [1, 1])).mpr rfl
    [.read 0 8] (by decide)

/-- One frame is written, client 1 calls, then client 0: client 1 has taken the frame. -/
theorem second_client_takes_samples :
    let ops : List (DeviceOp Nat Int) := [.write [1, 1], .read 1 8, .read 0 8]
    Device.deliveries 0 (Device.start Shm.empty) ops = [[0, 0]] ∧
      Device.deliveries 0 (Device.start Shm.empty) (Device.alone 0 ops) = [[1, 1]] ∧
      Device.deliveries 0 (Device.start Shm.empty) ops ≠
        Device.deliveries 0 (Device.start Shm.empty) (Device.alone 0 ops) := by
  refine ⟨rfl, rfl, ?_⟩
  intro h
  have hbuffers : [[(0 : Int), 0]] = [[1, 1]] := h
  exact absurd hbuffers (by decide)

end Noise
