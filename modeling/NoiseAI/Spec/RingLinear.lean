import NoiseAI.ForStd.BoundedQueue
import NoiseAI.ForStd.Linearize
import NoiseAI.Spec.RingFifo

/-!
# The shared ring is a linearizable queue

What the producer and the consumer see of a `SharedRingBuffer`, their calls and what they
return, is what they would see of a `BoundedQueue` that acts on each `write` and each `read` at
one moment between the call and its return. A `write` acts when it stores `write_pos`, or, if
it is refused, when it loads `read_pos`; a `read` the other way round. A `flush` acts twice: it
looks how many samples there are, and later discards as many, so that samples written in
between stay.
-/

namespace Noise

open BoundedQueue (Reply)
open Linearize (Point Status Moves Linearizable)

variable {α : Type} {cap : Nat}

inductive Side where
  | producer
  | consumer
  deriving DecidableEq

/-- What is called; `discard` is a `flush` that has seen `n` samples. -/
inductive RingCall (α : Type) where
  | write (data : List α)
  | read (n : Nat)
  | flush
  | discard (n : Nat)
  deriving DecidableEq

/-- What a queue does with a call. -/
def RingCall.act (q : BoundedQueue α cap) :
    RingCall α → BoundedQueue α cap × (RingCall α ⊕ Reply α)
  | .write data => ((q.write data).2, .inr (.written (q.write data).1))
  | .read n => ((q.read n).2, .inr (.samples (q.read n).1))
  | .flush => (q, .inl (.discard q.items.length))
  | .discard n => (q.drop n, .inr .discarded)

/-- What an operation returns, if it does. -/
def Progress.result {Op Res : Type} : Progress Op Res → Option Res
  | .running _ => none
  | .returned res => some res

/-- What a `read` or `flush` returns. -/
def ReadResult.reply : ReadResult α → Reply α
  | .refused => .samples none
  | .samples buf => .samples (some buf)
  | .flushed => .discarded

namespace Spsc

/-- The calls and returns of a step. -/
def shown (s : Spsc α) : SpscLabel α → List (Linearize.Event Side (RingCall α) (Reply α))
  | .write data => [.call .producer (.write data)]
  | .read n => [.call .consumer (.read n)]
  | .flush => [.call .consumer .flush]
  | .producer => (s.producer.bind fun op => (op.step s.segment).2.result).elim [] fun ok =>
    [.ret .producer (.written ok)]
  | .consumer => (s.consumer.bind fun op => (op.step s.segment).2.result).elim [] fun res =>
    [.ret .consumer res.reply]

end Spsc

/-! ## Where an operation in progress is -/

/-- Refused from the moment `read_pos` is loaded, accepted when `write_pos` is stored. -/
def WriteOp.status (cap : Nat) : Option (WriteOp α) → Status (RingCall α) (Reply α)
  | none => .idle
  | some (.loadWritePos data) => .called (.write data)
  | some (.loadReadPos data _) => .called (.write data)
  | some (.loadCapacity data w r) =>
    if u64Sub cap (u64Sub w r) < data.length then .done (.written false) else .called (.write data)
  | some (.copy data _ _ _) => .called (.write data)
  | some (.addHeartbeat _) => .done (.written true)

/-- Refused from the moment `write_pos` is loaded, served when `read_pos` is stored. -/
def ReadOp.status (g : Segment α) : Option (ReadOp α) → Status (RingCall α) (Reply α)
  | none => .idle
  | some (.loadReadPos n) => .called (.read n)
  | some (.loadWritePos n _) => .called (.read n)
  | some (.loadCapacity n r w) =>
    if u64Sub w r < n then .done (.samples none) else .called (.read n)
  | some (.copy n _ _ _) => .called (.read n)
  | some .flushLoad => .called .flush
  | some (.flushStore w) => .called (.discard (u64Sub w g.header.readPos))

/-- `read_pos` is all that the status of the consumer depends on. -/
theorem ReadOp.status_congr {g g' : Segment α} (h : g'.header.readPos = g.header.readPos)
    (op : Option (ReadOp α)) : ReadOp.status g op = ReadOp.status g' op := by
  cases op with
  | none => rfl
  | some op =>
    cases op with
    | flushStore w => simp only [ReadOp.status, h]
    | _ => rfl

namespace Spsc

variable {s s' : Spsc α} {q : BoundedQueue α cap}
  {st : Side → Status (RingCall α) (Reply α)}

/-- The ring holds the queue, and both sides are where their operations say. -/
structure Sim (cap : Nat) (s : Spsc α) (q : BoundedQueue α cap)
    (st : Side → Status (RingCall α) (Reply α)) : Prop where
  inv : s.Inv cap
  items : q.items = s.history.written.drop s.history.consumed
  producer : st .producer = WriteOp.status cap s.producer
  consumer : st .consumer = ReadOp.status s.segment s.consumer

/-- The queue holds what was written and not consumed. -/
theorem Sim.length_items (h : s.Sim cap q st) :
    q.items.length = s.history.written.length - s.history.consumed := by
  rw [h.items, List.length_drop]

/-- After an access of the producer. -/
theorem Sim.producer_next {op : WriteOp α} {q' : BoundedQueue α cap} (h : s.Sim cap q st)
    (hinv : Inv cap { s with
      segment := (op.step s.segment).1
      producer := (op.step s.segment).2.op
      history := op.record s.history
      accepted := s.accepted ++ accept op (op.step s.segment).2 })
    (hitems : q'.items = (op.record s.history).written.drop s.history.consumed) :
    Sim cap { s with
      segment := (op.step s.segment).1
      producer := (op.step s.segment).2.op
      history := op.record s.history
      accepted := s.accepted ++ accept op (op.step s.segment).2 } q'
      (Function.update st .producer (WriteOp.status cap (op.step s.segment).2.op)) := by
  obtain ⟨data, hrec⟩ := op.record_eq s.history
  obtain ⟨data', w, hb, hseg⟩ := op.step_eq s.segment
  refine ⟨hinv, ?_, Function.update_self .., ?_⟩
  · rw [hitems, hrec]
  · rw [Function.update_of_ne (by decide), h.consumer, hseg]
    exact ReadOp.status_congr rfl _

/-- After an access of the consumer. -/
theorem Sim.consumer_next {op : ReadOp α} {q' : BoundedQueue α cap} (h : s.Sim cap q st)
    (hinv : Inv cap { s with
      segment := (op.step s.segment).1
      consumer := (op.step s.segment).2.op
      history := op.record s.segment s.history
      consumption := s.consumption ++ consume s.segment op (op.step s.segment).2 })
    (hitems : q'.items = s.history.written.drop (op.record s.segment s.history).consumed) :
    Sim cap { s with
      segment := (op.step s.segment).1
      consumer := (op.step s.segment).2.op
      history := op.record s.segment s.history
      consumption := s.consumption ++ consume s.segment op (op.step s.segment).2 } q'
      (Function.update st .consumer
        (ReadOp.status (op.step s.segment).1 (op.step s.segment).2.op)) := by
  refine ⟨hinv, ?_, ?_, Function.update_self ..⟩
  · rw [hitems, op.record_written]
  · rw [Function.update_of_ne (by decide)]
    exact h.producer

/-- What the queue does at an access of the producer. -/
theorem Sim.producer_moves {op : WriteOp α} (hcap : cap < 2 ^ 64) (h : s.Sim cap q st)
    (hop : s.producer = some op) :
    ∃ xs q', Linearize.events xs = s.shown .producer ∧
      Moves RingCall.act q st xs q'
        (Function.update st .producer (WriteOp.status cap (op.step s.segment).2.op)) ∧
      q'.items = (op.record s.history).written.drop s.history.consumed := by
  have hp := h.inv.ring.positions
  have hlen := h.length_items
  have hst : st .producer = WriteOp.status cap (some op) := h.producer.trans (by rw [hop])
  have hsound : op.Sound cap s.segment s.history := h.inv.ring.writer op hop
  simp only [shown, hop, Option.bind_some]
  cases op with
  | loadWritePos data => exact ⟨[], q, rfl, .stay hst, h.items⟩
  | loadReadPos data w =>
    -- what the producer has loaded is the state of the queue now
    have hroom : u64Sub cap (u64Sub w s.segment.header.readPos) = cap - q.items.length := by
      rw [hsound, hp.readPos, hlen]
      exact Ring.free_eq hcap hp.consumed_le hp.written_le
    simp only [WriteOp.step, Progress.op, WriteOp.status, hroom]
    split
    · -- the room there is now decides that the block will be refused
      have hwrite : q.write data = (false, q) := BoundedQueue.write_of_lt (by omega)
      exact ⟨[.acts .producer], q, rfl, .answers hst (by rw [RingCall.act, hwrite]), h.items⟩
    · exact ⟨[], q, rfl, .stay hst, h.items⟩
  | loadCapacity data w r =>
    simp only [WriteOp.step, h.inv.capacity]
    split
    · rename_i hfull
      have hdone : st .producer = .done (.written false) := by
        rw [hst, WriteOp.status, if_pos hfull]
      exact ⟨[.event (.ret .producer (.written false))], q, rfl, .returns hdone, h.items⟩
    · rename_i hroom
      have hcalled : st .producer = .called (.write data) := by
        rw [hst, WriteOp.status, if_neg hroom]
      exact ⟨[], q, rfl, .stay hcalled, h.items⟩
  | copy data w c i =>
    obtain ⟨-, -, -, hfits, -⟩ := hsound
    simp only [WriteOp.step, WriteOp.record]
    split
    · exact ⟨[], q, rfl, .stay hst, h.items⟩
    · -- `write_pos` is stored, and the block had room at least since it was checked
      have hle := hp.consumed_le
      have hwrite : q.write data = _ := BoundedQueue.write_of_le (by omega)
      refine ⟨[.acts .producer], (q.write data).2, rfl, .answers hst ?_, ?_⟩
      · rw [RingCall.act, hwrite]
      · rw [hwrite]
        simp only [h.items, List.drop_append_of_le_length hle]
  | addHeartbeat data =>
    -- the block is in the queue already
    exact ⟨[.event (.ret .producer (.written true))], q, rfl, .returns hst, h.items⟩

/-- What the queue does at an access of the consumer. -/
theorem Sim.consumer_moves {op : ReadOp α} (hcap : cap < 2 ^ 64)
    (hfew : s.history.written.length < 2 ^ 64) (h : s.Sim cap q st)
    (hop : s.consumer = some op) :
    ∃ xs q', Linearize.events xs = s.shown .consumer ∧
      Moves RingCall.act q st xs q' (Function.update st .consumer
        (ReadOp.status (op.step s.segment).1 (op.step s.segment).2.op)) ∧
      q'.items = s.history.written.drop (op.record s.segment s.history).consumed := by
  have hp := h.inv.ring.positions
  have hlen := h.length_items
  have hst : st .consumer = ReadOp.status s.segment (some op) := h.consumer.trans (by rw [hop])
  have hsound : op.Sound cap s.history := h.inv.ring.reader op hop
  simp only [shown, hop, Option.bind_some]
  cases op with
  | loadReadPos n => exact ⟨[], q, rfl, .stay hst, h.items⟩
  | loadWritePos n r =>
    have hthere : u64Sub s.segment.header.writePos r = q.items.length := by
      rw [hsound, hp.writePos, hlen]
      exact Ring.fill_eq hcap hp.consumed_le hp.written_le
    simp only [ReadOp.step, Progress.op, ReadOp.status, hthere]
    split
    · -- the samples there are now decide that the request will be refused
      rename_i hshort
      have hread := BoundedQueue.read_of_lt hshort
      exact ⟨[.acts .consumer], q, rfl, .answers hst (by rw [RingCall.act, hread]), h.items⟩
    · exact ⟨[], q, rfl, .stay hst, h.items⟩
  | loadCapacity n r w =>
    simp only [ReadOp.step]
    split
    · rename_i hshort
      have hdone : st .consumer = .done (.samples none) := by
        rw [hst, ReadOp.status, if_pos hshort]
      exact ⟨[.event (.ret .consumer (.samples none))], q, rfl, .returns hdone, h.items⟩
    · rename_i hthere
      have hcalled : st .consumer = .called (.read n) := by
        rw [hst, ReadOp.status, if_neg hthere]
      exact ⟨[], q, rfl, .stay hcalled, h.items⟩
  | copy n r c buf =>
    obtain ⟨-, -, hle, hthere, hbuf⟩ := hsound
    simp only [ReadOp.step, ReadOp.record]
    split
    · exact ⟨[], q, rfl, .stay hst, h.items⟩
    · -- `read_pos` is stored, and `buf` is what the queue still holds first
      have hall : buf.length = n := by omega
      have hoffered : q.items.take n = buf := by
        rw [h.items, hbuf hfew, hall, List.slice]
      obtain ⟨hread, hrest⟩ := BoundedQueue.items_read_of_le (q := q) (n := n) (by omega)
      refine ⟨[.acts .consumer, .event (.ret .consumer (.samples (some buf)))], (q.read n).2,
        rfl, .answers_returns hst ?_, ?_⟩
      · rw [RingCall.act, hread, hoffered]
      · rw [hrest, h.items, List.drop_drop]
  | flushLoad =>
    have hthere : u64Sub s.segment.header.writePos s.segment.header.readPos = q.items.length := by
      rw [hp.writePos, hp.readPos, hlen]
      exact Ring.fill_eq hcap hp.consumed_le hp.written_le
    simp only [ReadOp.step, Progress.op, ReadOp.status, hthere]
    -- the first moment of `flush`: what is there is counted
    exact ⟨[.acts .consumer], q, rfl, .goes_on hst rfl, h.items⟩
  | flushStore w =>
    -- the second: as many samples are discarded, and later ones stay
    refine ⟨[.acts .consumer, .event (.ret .consumer .discarded)],
      q.drop (u64Sub w s.segment.header.readPos), rfl, .answers_returns hst rfl, ?_⟩
    show q.items.drop (u64Sub w s.segment.header.readPos) = _
    rw [h.items, List.drop_drop, ReadOp.record]

/-- The queue follows every step. -/
theorem Sim.step {l : SpscLabel α} (hpos : 0 < cap) (hcap : cap < 2 ^ 64)
    (hfew : s.history.written.length < 2 ^ 64) (h : s.Sim cap q st)
    (hstep : s.step l = some s') :
    ∃ xs q' st', Linearize.events xs = s.shown l ∧ Moves RingCall.act q st xs q' st' ∧
      s'.Sim cap q' st' := by
  have hinv' : s'.Inv cap := h.inv.step hpos hcap hstep
  cases l with
  | write data =>
    simp only [Spsc.step] at hstep
    split at hstep
    · rename_i hidle
      cases hstep
      have hst : st .producer = .idle := h.producer.trans (by rw [hidle]; rfl)
      -- the call is seen, and the queue does nothing yet
      refine ⟨[.event (.call .producer (.write data))], q, _, rfl, .call hst .nil, hinv', h.items,
        Function.update_self .., ?_⟩
      rw [Function.update_of_ne (by decide)]
      exact h.consumer
    · cases hstep
  | read n =>
    simp only [Spsc.step] at hstep
    split at hstep
    · rename_i hidle
      cases hstep
      have hst : st .consumer = .idle := h.consumer.trans (by rw [hidle]; rfl)
      refine ⟨[.event (.call .consumer (.read n))], q, _, rfl, .call hst .nil, hinv', h.items, ?_,
        Function.update_self ..⟩
      rw [Function.update_of_ne (by decide)]
      exact h.producer
    · cases hstep
  | flush =>
    simp only [Spsc.step] at hstep
    split at hstep
    · rename_i hidle
      cases hstep
      have hst : st .consumer = .idle := h.consumer.trans (by rw [hidle]; rfl)
      refine ⟨[.event (.call .consumer .flush)], q, _, rfl, .call hst .nil, hinv', h.items, ?_,
        Function.update_self ..⟩
      rw [Function.update_of_ne (by decide)]
      exact h.producer
    · cases hstep
  | producer =>
    simp only [Spsc.step] at hstep
    split at hstep
    · cases hstep
    · rename_i op hop
      cases hstep
      obtain ⟨xs, q', hxs, hmoves, hitems⟩ := h.producer_moves hcap hop
      exact ⟨xs, q', _, hxs, hmoves, h.producer_next hinv' hitems⟩
  | consumer =>
    simp only [Spsc.step] at hstep
    split at hstep
    · cases hstep
    · rename_i op hop
      cases hstep
      obtain ⟨xs, q', hxs, hmoves, hitems⟩ := h.consumer_moves hcap hfew hop
      exact ⟨xs, q', _, hxs, hmoves, h.consumer_next hinv' hitems⟩

/-- A step does not take back what was written. -/
theorem written_le {l : SpscLabel α} (hstep : s.step l = some s') :
    s.history.written.length ≤ s'.history.written.length := by
  cases l with
  | producer =>
    simp only [Spsc.step] at hstep
    split at hstep
    · cases hstep
    · rename_i op hop
      cases hstep
      obtain ⟨data, hrec⟩ := op.record_eq s.history
      simp only [hrec, List.length_append]
      omega
  | consumer =>
    simp only [Spsc.step] at hstep
    split at hstep
    · cases hstep
    · rename_i op hop
      cases hstep
      rw [op.record_written]
  | _ =>
    -- a call starts
    simp only [Spsc.step] at hstep
    split at hstep
    · cases hstep
      exact Nat.le_refl _
    · cases hstep

end Spsc

/-- The shared ring is linearizable, as a queue of its capacity, with fewer than `2 ^ 64`
    samples written: whatever the interleaving, the calls of the two sides and their results
    are those of a queue that acts on each call at moments between the call and its return. -/
theorem ring_linearizable {capacity channels sampleRate : Nat} {mem : Nat → α}
    {ls : List (SpscLabel α)} {s : Spsc α} (hcap : 0 < u32 capacity)
    (hrun : Machine.run Spsc.step (Spsc.init capacity channels sampleRate mem) ls = some s)
    (hfew : s.history.written.length < 2 ^ 64) :
    Linearizable RingCall.act (BoundedQueue.empty α (u32 capacity))
      (Machine.trace Spsc.step Spsc.shown (Spsc.init capacity channels sampleRate mem) ls) := by
  have hlt : u32 capacity < 2 ^ 64 :=
    Nat.lt_of_lt_of_le (Nat.mod_lt capacity (by decide)) (by decide)
  refine Linearize.linearizable_of_simulation (Spsc.Sim (u32 capacity))
    (fun s => s.history.written.length < 2 ^ 64) ?_ ?_ ?_ hfew hrun
  · intro s l s' hstep hok
    exact Nat.lt_of_le_of_lt (Spsc.written_le hstep) hok
  · intro s l s' q st hok hsim hstep
    exact hsim.step hcap hlt (Nat.lt_of_le_of_lt (Spsc.written_le hstep) hok) hstep
  · exact ⟨Spsc.Inv.init .., rfl, rfl, rfl⟩

theorem ring_linearizable_wrapRun :
    Linearizable RingCall.act (BoundedQueue.empty Nat 3)
      [.call Side.producer (.write [7, 8]), .ret .producer (.written true),
        .call .consumer (.read 2), .call .producer (.write [9, 10]),
        .ret .producer (.written false), .ret .consumer (.samples (some [7, 8])),
        .call .producer (.write [9, 10]), .ret .producer (.written true),
        .call .consumer (.read 2), .ret .consumer (.samples (some [9, 10]))] := by
  have hends : (Machine.run Spsc.step (Spsc.init 3 1 48000 fun _ => 0) wrapRun).map
      (fun s => s.history.written) = some [7, 8, 9, 10] := by decide
  obtain ⟨s, hrun, hwritten⟩ := Option.map_eq_some_iff.mp hends
  have hfew : s.history.written.length < 2 ^ 64 := by rw [hwritten]; decide
  exact ring_linearizable (by decide) hrun hfew

end Noise
