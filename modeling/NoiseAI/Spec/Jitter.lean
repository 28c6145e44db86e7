import NoiseAI.ForStd.ElasticQueue
import NoiseAI.Native.ShmSystem
import NoiseAI.Spec.Clients
import NoiseAI.Spec.RingQueue
import Mathlib.Data.List.Induction

/-!
# What the ring absorbs

The app's clock and the driver's are not the same: blocks and callbacks come when they come. If
the app is never more than `early` samples ahead of the callbacks and never more than `late`
behind them, with callbacks of at most `limit` samples, a ring of `early + late + limit` samples
loses nothing (`jitter_absorbed`): every block is written, the handler stays connected, the
callbacks get all samples in order, and the silence it ever takes is less than `late + limit`
samples. The ring of the app holds `appCapacity` samples.
-/

namespace Noise

variable {C α : Type}

namespace DeviceOp

/-- The samples of the block. -/
def sent : DeviceOp C α → List α
  | .write data => data
  | .read _ _ => []

/-- The samples of the callback's buffer. -/
def requested : DeviceOp C α → Nat
  | .write _ => 0
  | .read _ bytesCount => IOHandler.totalSamples bytesCount

def isRead : DeviceOp C α → Bool
  | .write _ => false
  | .read _ _ => true

/-- The operation with its samples left out. -/
def shape : DeviceOp C α → DeviceOp C Unit
  | .write data => .write (data.map fun _ => ())
  | .read client bytesCount => .read client bytesCount

end DeviceOp

namespace Device

/-- All that the app sends. -/
def sent (ops : List (DeviceOp C α)) : List α := ops.flatMap DeviceOp.sent

/-- All that the callbacks ask for. -/
def requested (ops : List (DeviceOp C α)) : Nat := (ops.map DeviceOp.requested).sum

/-- The samples that a callback gets. -/
def gets (s : Device α) : DeviceOp C α → List α
  | .write _ => []
  | .read _ bytesCount => (s.read bytesCount).1.getD []

/-- The silence in the buffer of a callback. -/
def silence (s : Device α) : DeviceOp C α → Nat
  | .write _ => 0
  | .read _ bytesCount =>
    if (s.read bytesCount).1.isSome then 0 else IOHandler.totalSamples bytesCount

/-- The app is at most `early` samples ahead of the callbacks and at most `late` behind them, its
    blocks are not empty, and no forty-nine callbacks in a row come without one. -/
structure Paced (early late limit : Nat) (ops : List (DeviceOp C α)) : Prop where
  early : ∀ p, p <+: ops → (sent p).length ≤ requested p + early
  late : ∀ p, p <+: ops → requested p ≤ (sent p).length + late
  limit : ∀ client bytesCount, .read client bytesCount ∈ ops →
    IOHandler.totalSamples bytesCount ≤ limit
  blocks : ∀ data, .write data ∈ ops → data ≠ []
  beats : ∀ p q, p ++ q <+: ops → (∀ op ∈ q, op.isRead = true) → q.length ≤ 48

theorem sent_append (p q : List (DeviceOp C α)) : sent (p ++ q) = sent p ++ sent q :=
  List.flatMap_append

theorem sent_concat (p : List (DeviceOp C α)) (op : DeviceOp C α) :
    sent (p ++ [op]) = sent p ++ op.sent := by
  rw [sent_append, sent, sent, List.flatMap_singleton]

theorem requested_concat (p : List (DeviceOp C α)) (op : DeviceOp C α) :
    requested (p ++ [op]) = requested p + op.requested := by
  rw [requested, List.map_append, List.sum_append, List.map_singleton, List.sum_singleton]
  rfl

variable {s t : Device α} {i hb last stale n : Nat} {f : ElasticQueue α appCapacity}

/-- The segment after a callback that reads. -/
theorem Connected.read_segment (h : s.Connected i n hb last stale)
    (hfresh : hb = last → stale + 1 < IOHandler.kStaleThreshold) (bytesCount : Nat) :
    (s.read bytesCount).2.shm.segment i =
      ((s.shm.segment i).read (IOHandler.totalSamples bytesCount)).2 := by
  obtain ⟨io', heq, -⟩ := h.io.read_fresh h.running.serves hfresh bytesCount
  simp only [Device.read, heq, Shm.modify_segment_self]

/-- The driver has seen the heartbeat `last`, and none of the `w` blocks since; `q` are the
    callbacks since the last block, without the one that attached the segment. -/
structure Beating (hb last stale w : Nat) (q p : List (DeviceOp C α)) : Prop where
  heartbeat : hb = u64 (last + w)
  last : last < 2 ^ 64
  since : q <:+ p
  reads : ∀ op ∈ q, op.isRead = true
  stale : w = 0 → stale ≤ q.length + 1

/-- The device carries the queue `f` after the operations `p`. -/
structure Carries (i budget : Nat) (s : Device α) (f : ElasticQueue α appCapacity)
    (p : List (DeviceOp C α)) : Prop where
  connected : ∃ hb last stale w q, s.Connected i f.queue.items.length hb last stale ∧
    Beating hb last stale w q p ∧ w ≤ f.sent.length
  stands : (s.shm.segment i).Stands budget f.queue

variable {p q : List (DeviceOp C α)} {w budget : Nat}

/-- Fewer than `2 ^ 64` blocks later the heartbeat is another one. -/
theorem Beating.unchanged (h : Beating hb last stale w q p) (hw : w < 2 ^ 64) (hsame : hb = last) :
    w = 0 := by
  have hbeat := h.heartbeat
  have hlast := h.last
  unfold u64 at hbeat
  omega

theorem Beating.write (h : Beating hb last stale w q p) (data : List α) :
    Beating (u64 (hb + 1)) last stale (w + 1) [] (p ++ [(.write data : DeviceOp C α)]) where
  heartbeat := by
    rw [h.heartbeat]
    unfold u64
    rw [Nat.mod_add_mod]
    rfl
  last := h.last
  since := List.nil_suffix
  reads := fun _ hop => absurd hop List.not_mem_nil
  stale := fun hzero => nomatch hzero

theorem Beating.read (h : Beating hb last stale w q p) (hw : w < 2 ^ 64) (client : C)
    (bytesCount : Nat) :
    Beating hb hb (if hb = last then stale + 1 else 0) 0 (q ++ [.read client bytesCount])
      (p ++ [.read client bytesCount]) where
  heartbeat := by
    rw [Nat.add_zero, h.heartbeat]
    unfold u64
    rw [Nat.mod_mod]
  last := by
    rw [h.heartbeat]
    exact Nat.mod_lt _ (by decide)
  since := by
    obtain ⟨p', hp⟩ := h.since
    exact ⟨p', by rw [← hp, List.append_assoc]⟩
  reads := by
    intro op hop
    rcases List.mem_append.mp hop with hop | hop
    · exact h.reads op hop
    · rw [List.mem_singleton.mp hop]
      rfl
  stale := by
    intro _
    rw [List.length_append, List.length_singleton]
    split
    · rename_i hsame
      exact Nat.succ_le_succ (h.stale (h.unchanged hw hsame))
    · exact Nat.zero_le _

/-- A block that fits is written. -/
theorem Carries.write {data : List α} (h : Carries i (data.length + budget) s f p)
    (hne : data ≠ []) (hfits : f.queue.items.length + data.length ≤ appCapacity) :
    (s.producer.write s.shm data).1 = true ∧
      Carries i budget (s.write data) (f.write data) (p ++ [(.write data : DeviceOp C α)]) := by
  obtain ⟨hb, last, stale, w, q, hconn, hbeat, hw⟩ := h.connected
  have htaken : f.queue.taken (.write data) = data.length := if_pos hfits
  have hstands := h.stands
  rw [← htaken] at hstands
  obtain ⟨hok, hnext⟩ := hstands.write (by decide) appCapacity_lt
  have hwritten := BoundedQueue.write_of_le hfits
  rw [hwritten] at hok
  refine ⟨?_, ⟨u64 (hb + 1), last, stale, w + 1, [], ⟨?_, hconn.io⟩, hbeat.write data, ?_⟩, ?_⟩
  · simp only [SharedRingBuffer.write, hconn.running.producer]
    exact hok
  · have hrunning := hconn.running.write_fits hfits
    rw [ElasticQueue.write, hwritten]
    simp only [List.length_append]
    exact hrunning
  · have hpos := List.length_pos_iff.mpr hne
    rw [ElasticQueue.write]
    simp only [List.length_append]
    omega
  · rw [hconn.running.write_eq]
    simp only [Shm.modify_segment_self]
    exact hnext

/-- A callback that comes soon enough after a block stays connected. -/
theorem Carries.read (h : Carries i budget s f p) (hw : f.sent.length < 2 ^ 64) (client : C)
    (bytesCount : Nat)
    (hbeats : ∀ q, q <:+ p ++ [.read client bytesCount] → (∀ op ∈ q, op.isRead = true) →
      q.length ≤ 48) :
    (s.read bytesCount).1 = (f.queue.read (IOHandler.totalSamples bytesCount)).1 ∧
      Carries i budget (s.read bytesCount).2 (f.read (IOHandler.totalSamples bytesCount))
        (p ++ [.read client bytesCount]) := by
  obtain ⟨hb, last, stale, w, q, hconn, hbeat, hw'⟩ := h.connected
  have hless : w < 2 ^ 64 := Nat.lt_of_le_of_lt hw' hw
  have hnext := hbeat.read hless client bytesCount
  have hfresh : hb = last → stale + 1 < IOHandler.kStaleThreshold := by
    intro hsame
    have hstale := hbeat.stale (hbeat.unchanged hless hsame)
    have hlen := hbeats _ hnext.since hnext.reads
    rw [List.length_append, List.length_singleton] at hlen
    unfold IOHandler.kStaleThreshold
    omega
  obtain ⟨hbuf, hconn'⟩ := hconn.read_fresh hfresh bytesCount
  obtain ⟨hsame, hstands⟩ := h.stands.read (by decide) (IOHandler.totalSamples bytesCount)
  refine ⟨hbuf.trans hsame, ⟨hb, hb, _, 0, _, ?_, hnext, Nat.zero_le _⟩, ?_⟩
  · rw [ElasticQueue.read]
    dsimp only
    rw [BoundedQueue.length_read]
    exact hconn'
  · rw [hconn.read_segment hfresh]
    exact hstands

/-! ## A whole run -/

/-- The elastic queue after one more operation. -/
def elasticQueueStep (f : ElasticQueue α appCapacity) : DeviceOp C α → ElasticQueue α appCapacity
  | .write data => f.write data
  | .read _ bytesCount => f.read (IOHandler.totalSamples bytesCount)

/-- The elastic queue that a sequence of operations fills and drains. -/
def elasticQueue (ops : List (DeviceOp C α)) : ElasticQueue α appCapacity :=
  ops.foldl elasticQueueStep (.empty α appCapacity)

theorem elasticQueue_concat (p : List (DeviceOp C α)) (op : DeviceOp C α) :
    elasticQueue (p ++ [op]) = elasticQueueStep (elasticQueue p) op := by
  rw [elasticQueue, List.foldl_append]
  rfl

theorem elasticQueue_counts (p : List (DeviceOp C α)) :
    (elasticQueue p).sent = sent p ∧ (elasticQueue p).requested = requested p := by
  induction p using List.reverseRecOn with
  | nil => exact ⟨rfl, rfl⟩
  | append_singleton p op ih =>
    rw [elasticQueue_concat, sent_concat, requested_concat, ← ih.1, ← ih.2]
    cases op with
    | write data => exact ⟨rfl, rfl⟩
    | read client bytesCount => exact ⟨(List.append_nil _).symm, rfl⟩

/-- After the operations `p` out of `ops`, started in `s`, the device carries their elastic queue,
    which is settled, and the callbacks have got what was received from it. -/
structure Follows (s : Device α) (i late limit : Nat) (ops p : List (DeviceOp C α)) : Prop where
  carries : Carries i ((sent ops).length - (sent p).length) (p.foldl step s) (elasticQueue p) p
  settled : (elasticQueue p).Settled late limit
  received : Observe.outputs step gets s p = (elasticQueue p).received
  refused : Observe.total step silence s p = (elasticQueue p).refused

variable {early late limit : Nat} {ops : List (DeviceOp C α)}

theorem sent_le {p : List (DeviceOp C α)} (hp : p <+: ops) :
    (sent p).length ≤ (sent ops).length := by
  obtain ⟨rest, rfl⟩ := hp
  rw [sent_append, List.length_append]
  omega

/-- One more operation. -/
theorem Follows.step {op : DeviceOp C α} (hpaced : Paced early late limit ops)
    (hroom : early + (late + limit - 1) ≤ appCapacity) (hwrap : (sent ops).length < 2 ^ 64)
    (h : Follows s i late limit ops p) (hp : p ++ [op] <+: ops) :
    Follows s i late limit ops (p ++ [op]) ∧
      ∀ data, op = .write data →
        ((p.foldl Device.step s).producer.write (p.foldl Device.step s).shm data).1 = true := by
  obtain ⟨hsent, hrequested⟩ := elasticQueue_counts p
  have hmem : op ∈ ops := hp.subset (List.mem_append_right _ List.mem_cons_self)
  have hless := sent_le hp
  rw [sent_concat, List.length_append] at hless
  cases op with
  | write data =>
    have hearly := hpaced.early _ hp
    rw [sent_concat, requested_concat, List.length_append, ← hsent, ← hrequested] at hearly
    -- the app is at most `early` ahead, so the block fits
    have hfits := h.settled.fits hroom hearly
    have hcarries := h.carries
    rw [show (sent ops).length - (sent p).length =
      data.length + ((sent ops).length - ((sent p).length + data.length)) by
        simp only [DeviceOp.sent] at hless; omega] at hcarries
    obtain ⟨hok, hnext⟩ := hcarries.write (hpaced.blocks data hmem) hfits
    refine ⟨⟨?_, ?_, ?_, ?_⟩, ?_⟩
    · rw [sent_concat, List.length_append, elasticQueue_concat, List.foldl_append]
      exact hnext
    · rw [elasticQueue_concat]
      exact h.settled.write hfits
    · rw [Observe.outputs_concat, h.received, elasticQueue_concat]
      exact List.append_nil _
    · rw [Observe.total_concat, h.refused, elasticQueue_concat]
      rfl
    · rintro _ heq
      cases heq
      exact hok
  | read client bytesCount =>
    have hlate := hpaced.late _ hp
    rw [sent_concat, requested_concat, List.length_append, ← hsent, ← hrequested] at hlate
    -- no forty-nine callbacks since the last block, so the heartbeat is not stale
    have hbeats : ∀ q, q <:+ p ++ [.read client bytesCount] →
        (∀ op ∈ q, op.isRead = true) → q.length ≤ 48 := by
      rintro q ⟨p', hq⟩ hreads
      exact hpaced.beats p' q (hq ▸ hp) hreads
    have hshort : (elasticQueue p).sent.length < 2 ^ 64 := by
      rw [hsent]
      omega
    obtain ⟨hbuf, hnext⟩ := h.carries.read hshort client bytesCount hbeats
    refine ⟨⟨?_, ?_, ?_, ?_⟩, fun _ heq => nomatch heq⟩
    · rw [sent_concat, List.length_append, elasticQueue_concat, List.foldl_append]
      exact hnext
    · rw [elasticQueue_concat]
      exact h.settled.read (hpaced.limit client bytesCount hmem) hlate
    · rw [Observe.outputs_concat, h.received, elasticQueue_concat]
      simp only [gets, hbuf]
      rfl
    · rw [Observe.total_concat, h.refused, elasticQueue_concat]
      simp only [silence, hbuf, elasticQueueStep, ElasticQueue.read]
      split
      · rfl
      · rfl

theorem Carries.follows
    (h : Carries i (sent ops).length s (.empty α appCapacity) ([] : List (DeviceOp C α)))
    (hpaced : Paced early late limit ops) (hroom : early + (late + limit - 1) ≤ appCapacity)
    (hwrap : (sent ops).length < 2 ^ 64) {p : List (DeviceOp C α)} (hp : p <+: ops) :
    Follows s i late limit ops p := by
  induction p using List.reverseRecOn with
  | nil => exact ⟨h, .empty late limit, rfl, rfl⟩
  | append_singleton p op ih =>
    exact ((ih ((List.prefix_append p [op]).trans hp)).step hpaced hroom hwrap hp).1

/-- Over the operations `ops` the handler stays attached, every block is written, the callbacks
    get the beginning of what was sent, and their silence is less than `late + limit` samples. -/
structure Absorbs (s : Device α) (late limit : Nat) (ops : List (DeviceOp C α)) : Prop where
  attached : ∀ p, p <+: ops → (p.foldl step s).io.segment = s.io.segment
  written : ∀ p data, p ++ [.write data] <+: ops →
    ((p.foldl step s).producer.write (p.foldl step s).shm data).1 = true
  received : Observe.outputs step gets s ops <+: sent ops
  count : (Observe.outputs step gets s ops).length + Observe.total step silence s ops =
    requested ops
  silence : Observe.total step silence s ops ≤ late + limit - 1

/-- The callbacks get all they ask for but the silence. -/
theorem Absorbs.requested_le (h : s.Absorbs late limit ops) :
    requested ops ≤ (Observe.outputs step gets s ops).length + (late + limit - 1) := by
  have hsilence := h.silence
  rw [← h.count]
  omega

theorem Carries.segment (h : Carries i budget s f p) : s.io.segment = some i := by
  obtain ⟨_, _, _, _, _, hconn, _⟩ := h.connected
  obtain ⟨b, hb, hseg⟩ := hconn.io.holds
  rw [IOHandler.segment, hb]
  exact hseg

theorem Carries.absorbs
    (h : Carries i (sent ops).length s (.empty α appCapacity) ([] : List (DeviceOp C α)))
    (hpaced : Paced early late limit ops) (hroom : early + (late + limit - 1) ≤ appCapacity)
    (hwrap : (sent ops).length < 2 ^ 64) : s.Absorbs late limit ops := by
  have hall := fun {p} hp => h.follows hpaced hroom hwrap (p := p) hp
  obtain ⟨-, hsettled, hreceived, hrefused⟩ := hall (List.prefix_refl ops)
  obtain ⟨hsent, hrequested⟩ := elasticQueue_counts ops
  refine ⟨?_, ?_, ?_, ?_, ?_⟩
  · intro p hp
    rw [(hall hp).carries.segment, h.segment]
  · intro p data hp
    exact ((hall ((List.prefix_append p _).trans hp)).step hpaced hroom hwrap hp).2 data rfl
  · rw [hreceived, ← hsent, ← hsettled.contents]
    exact List.prefix_append _ _
  · rw [hreceived, hrefused, ← hrequested]
    exact hsettled.count
  · rw [hrefused]
    exact hsettled.refused

/-- The device starts with an empty ring, connected and flushed. -/
theorem start_carries [Zero α] (m : Shm α) {budget : Nat} (hbudget : budget < 2 ^ 64) :
    Carries m.created budget (start m) (.empty α appCapacity) ([] : List (DeviceOp C α)) := by
  obtain ⟨hseg, hserves⟩ :=
    SharedRingBuffer.create_serves m 2 48000 (show appCapacity < 2 ^ 32 by decide)
  obtain ⟨-, -, hfresh⟩ := SharedRingBuffer.create_valid m shmName appCapacity 2 48000 .ok
    (SharedRingBuffer.isValid_create ..)
  obtain ⟨io, heq, hat⟩ := IOHandler.new.onStartIO_serves hserves
  have hstands : (((SharedRingBuffer.create m shmName appCapacity 2 48000 .ok).2.segment
      m.created)).Stands budget (BoundedQueue.empty α appCapacity) := by
    rw [hfresh]
    refine ⟨rfl, .empty _ 0, ?_⟩
    show 0 + budget < 2 ^ 64
    omega
  simp only [start, heq]
  refine ⟨⟨0, 0, 0, 0, [], ⟨⟨hseg, hserves.flush⟩, hat⟩, ?_, Nat.le_refl 0⟩, ?_⟩
  · exact ⟨rfl, by decide, List.suffix_refl [], fun _ h => absurd h List.not_mem_nil,
      fun _ => Nat.zero_le _⟩
  · simp only [Shm.modify_segment_self]
    exact hstands.flush

end Device

/-- The ring absorbs the jitter between the app and the driver. If the app stays within `early`
    samples ahead of the callbacks and `late` behind them, no block is empty, the callbacks ask
    for at most `limit` samples each and come less than forty-nine to a block, and the ring holds
    `early + late + limit - 1` samples, then the handler stays attached, every block is written,
    the callbacks get the beginning of what was sent, in order and with nothing left out, and all
    the silence they ever get is less than `late + limit` samples. Fewer than `2 ^ 64` samples
    are sent. -/
theorem jitter_absorbed [Zero α] (m : Shm α) {early late limit : Nat}
    (hroom : early + (late + limit - 1) ≤ appCapacity) {ops : List (DeviceOp C α)}
    (hpaced : Device.Paced early late limit ops) (hwrap : (Device.sent ops).length < 2 ^ 64) :
    (Device.start m).Absorbs late limit ops :=
  (Device.start_carries m hwrap).absorbs hpaced hroom hwrap

/-! ## Blocks and callbacks in turn -/

namespace Device

/-- Blocks, each followed by a callback that takes as many samples. -/
def inTurn (client : C) (blocks : List (List α)) : List (DeviceOp C α) :=
  blocks.flatMap fun data => [.write data, .read client (sizeofFloat * data.length)]

variable {client : C} {data : List α} {blocks : List (List α)} {p q : List (DeviceOp C α)}

theorem inTurn_cons : inTurn client (data :: blocks) =
    .write data :: .read client (sizeofFloat * data.length) :: inTurn client blocks := rfl

/-- The shape of the operations tells whether they are in turn. -/
theorem exists_inTurn {ops : List (DeviceOp C α)} {shapes : List (List Unit)}
    (h : ops.map DeviceOp.shape = inTurn client shapes) :
    ∃ blocks, ops = inTurn client blocks ∧ blocks.map List.length = shapes.map List.length := by
  induction shapes generalizing ops with
  | nil => exact ⟨[], List.map_eq_nil_iff.mp h, rfl⟩
  | cons shape shapes ih =>
    rw [inTurn_cons] at h
    obtain ⟨op, ops, rfl, hop, hops⟩ := List.map_eq_cons_iff.mp h
    obtain ⟨op', ops, rfl, hop', hops⟩ := List.map_eq_cons_iff.mp hops
    obtain ⟨blocks, rfl, hlengths⟩ := ih hops
    cases op with
    | read client bytesCount => cases hop
    | write data =>
      cases op' with
      | write data' => cases hop'
      | read client bytesCount =>
        cases hop
        cases hop'
        refine ⟨data :: blocks, by rw [List.length_map]; rfl, ?_⟩
        rw [List.map_cons, List.map_cons, hlengths, List.length_map]

/-- The operations up to some point: none, only the block, or both and some of the others. -/
theorem prefix_inTurn (hp : p <+: inTurn client (data :: blocks)) :
    p = [] ∨ p = [.write data] ∨ ∃ p', p' <+: inTurn client blocks ∧
      p = .write data :: .read client (sizeofFloat * data.length) :: p' := by
  rw [inTurn_cons] at hp
  match p with
  | [] => exact .inl rfl
  | [_] =>
    obtain ⟨rfl, -⟩ := List.cons_prefix_cons.mp hp
    exact .inr (.inl rfl)
  | _ :: _ :: p =>
    obtain ⟨rfl, hnext⟩ := List.cons_prefix_cons.mp hp
    obtain ⟨rfl, hrest⟩ := List.cons_prefix_cons.mp hnext
    exact .inr (.inr ⟨p, hrest, rfl⟩)

/-- A callback takes the block before it, and the rest of the blocks follow. -/
theorem inTurn_split {client' : C} {bytesCount : Nat}
    (h : inTurn client blocks = p ++ .read client' bytesCount :: q) :
    ∃ first data rest, blocks = first ++ data :: rest ∧
      p = inTurn client first ++ [.write data] ∧ bytesCount = sizeofFloat * data.length ∧
      q = inTurn client rest := by
  induction blocks generalizing p with
  | nil => exact absurd (congrArg List.length h) (by simp [inTurn])
  | cons data blocks ih =>
    obtain hp | hp | ⟨p', -, hp⟩ := prefix_inTurn (h ▸ List.prefix_append p _)
    · -- the first operation is a block
      rw [hp] at h
      cases h
    · rw [hp] at h
      cases h
      exact ⟨[], data, blocks, rfl, hp, rfl, rfl⟩
    · rw [hp] at h
      obtain ⟨first, data', rest, hblocks, hfirst, hsize, hrest⟩ :=
        ih (List.cons.inj (List.cons.inj h).2).2
      refine ⟨data :: first, data', rest, by rw [hblocks]; rfl, ?_, hsize, hrest⟩
      rw [hp, hfirst]
      rfl

/-- There is a block between two callbacks. -/
theorem beats_inTurn (hpq : p ++ q <+: inTurn client blocks)
    (hreads : ∀ op ∈ q, op.isRead = true) : q.length ≤ 1 := by
  match q with
  | [] => exact Nat.zero_le 1
  | [_] => exact Nat.le_refl 1
  | .write data :: _ => exact absurd (hreads _ List.mem_cons_self) Bool.false_ne_true
  | .read _ _ :: .write data :: _ =>
    exact absurd (hreads _ (List.mem_cons_of_mem _ List.mem_cons_self)) Bool.false_ne_true
  | .read client' bytesCount :: .read client'' bytesCount' :: q =>
    -- a block or nothing comes after the first of two callbacks
    obtain ⟨rest, hrest⟩ := hpq
    rw [List.append_assoc] at hrest
    obtain ⟨-, -, blocks', -, -, -, hnext⟩ := inTurn_split hrest.symm
    cases blocks' with
    | nil => cases hnext
    | cons data blocks' => cases hnext

theorem sent_inTurn : sent (inTurn client blocks) = blocks.flatten := by
  induction blocks with
  | nil => rfl
  | cons data blocks ih =>
    rw [inTurn_cons, sent, List.flatMap_cons, List.flatMap_cons, ← sent, ih]
    rfl

theorem requested_inTurn (hblocks : ∀ data ∈ blocks,
      IOHandler.totalSamples (sizeofFloat * data.length) = data.length) :
    requested (inTurn client blocks) = blocks.flatten.length := by
  induction blocks with
  | nil => rfl
  | cons data blocks ih =>
    obtain ⟨hwhole, hrest⟩ := List.forall_mem_cons.mp hblocks
    rw [inTurn_cons, requested, List.map_cons, List.map_cons, List.sum_cons, List.sum_cons,
      ← requested, ih hrest, List.flatten_cons, List.length_append]
    simp only [DeviceOp.requested, hwhole, Nat.zero_add]

/-- In turn, the app is never behind, and never more than one block ahead. -/
theorem counts_inTurn {limit : Nat} (hblocks : ∀ data ∈ blocks,
      IOHandler.totalSamples (sizeofFloat * data.length) = data.length ∧ data.length ≤ limit)
    (hp : p <+: inTurn client blocks) :
    requested p ≤ (sent p).length ∧ (sent p).length ≤ requested p + limit := by
  induction blocks generalizing p with
  | nil =>
    rw [List.prefix_nil.mp hp]
    exact ⟨Nat.le_refl 0, Nat.zero_le _⟩
  | cons data blocks ih =>
    obtain ⟨⟨hwhole, hle⟩, hrest⟩ := List.forall_mem_cons.mp hblocks
    obtain rfl | rfl | ⟨p', hp', rfl⟩ := prefix_inTurn hp
    · exact ⟨Nat.le_refl 0, Nat.zero_le _⟩
    · -- the block is there, and its callback is not
      simpa [sent, DeviceOp.sent, requested, DeviceOp.requested] using hle
    · obtain ⟨hlate, hearly⟩ := ih hrest hp'
      simp only [sent, requested, List.flatMap_cons, List.map_cons, List.sum_cons,
        List.length_append, DeviceOp.sent, DeviceOp.requested, hwhole,
        List.length_nil] at hlate hearly ⊢
      exact ⟨by omega, by omega⟩

/-- Blocks of whole frames and their callbacks in turn are paced. -/
theorem paced_inTurn {limit : Nat} (hblocks : ∀ data ∈ blocks, data ≠ [] ∧
      IOHandler.totalSamples (sizeofFloat * data.length) = data.length ∧ data.length ≤ limit) :
    Paced limit 0 limit (inTurn client blocks) where
  early := fun p hp => (counts_inTurn (fun data hdata => (hblocks data hdata).2) hp).2
  late := fun p hp => (counts_inTurn (fun data hdata => (hblocks data hdata).2) hp).1
  limit := by
    intro client' bytesCount hop
    obtain ⟨data, hdata, hop⟩ := List.mem_flatMap.mp hop
    obtain ⟨-, hwhole, hle⟩ := hblocks data hdata
    simp only [List.mem_cons, reduceCtorEq, DeviceOp.read.injEq, List.not_mem_nil, or_false,
      false_or] at hop
    rw [hop.2, hwhole]
    exact hle
  blocks := by
    intro data' hop
    obtain ⟨data, hdata, hop⟩ := List.mem_flatMap.mp hop
    simp only [List.mem_cons, reduceCtorEq, DeviceOp.write.injEq, List.not_mem_nil, or_false] at hop
    rw [hop]
    exact (hblocks data hdata).1
  beats := fun p q hpq hreads => Nat.le_trans (beats_inTurn hpq hreads) (by decide)

end Device

/-- A callback that comes before the first block, and one that comes after it. -/
def lateStart : List (DeviceOp Unit Nat) := [.read () 16, .write [1, 2, 3, 4], .read () 16]

theorem paced_lateStart : Device.Paced 0 4 4 lateStart where
  early := by
    have htakes : ∀ k < 4, (Device.sent (lateStart.take k)).length ≤
        Device.requested (lateStart.take k) + 0 := by decide
    intro p hp
    rw [List.prefix_iff_eq_take.mp hp]
    exact htakes _ (Nat.lt_succ_of_le hp.length_le)
  late := by
    have htakes : ∀ k < 4, Device.requested (lateStart.take k) ≤
        (Device.sent (lateStart.take k)).length + 4 := by decide
    intro p hp
    rw [List.prefix_iff_eq_take.mp hp]
    exact htakes _ (Nat.lt_succ_of_le hp.length_le)
  limit := by
    intro client bytesCount hop
    simp only [lateStart, List.mem_cons, DeviceOp.read.injEq, reduceCtorEq, List.not_mem_nil,
      or_false, false_or] at hop
    rcases hop with ⟨-, rfl⟩ | ⟨-, rfl⟩
    · decide
    · decide
  blocks := by
    intro data hop
    simp only [lateStart, List.mem_cons, DeviceOp.write.injEq, reduceCtorEq, List.not_mem_nil,
      or_false, false_or] at hop
    rw [hop]
    decide
  beats := by
    intro p q hpq _
    have hlen := hpq.length_le
    rw [List.length_append] at hlen
    exact Nat.le_trans (Nat.le_trans (Nat.le_add_left _ _) hlen) (by decide)

theorem jitter_absorbed_lateStart :
    Observe.outputs Device.step Device.gets (Device.start .empty) lateStart <+: [1, 2, 3, 4] ∧
      Observe.total Device.step Device.silence (Device.start .empty) lateStart ≤ 7 := by
  have habsorbs := jitter_absorbed .empty (by decide) paced_lateStart (by decide)
  exact ⟨habsorbs.received, habsorbs.silence⟩

end Noise
