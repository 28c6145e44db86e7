import NoiseAI.Native.SharedRingBuffer

/-!
# The ring operations, one shared access at a time

`write`, `read` and `flush` of `engine/src/shared_ring_buffer.cpp` split into
their atomic loads, per-sample copies and atomic stores. A `WriteOp` or `ReadOp`
is the point an operation in progress has reached, with the values it has loaded
so far; `step` performs its next access to the shared segment. Two operations
that run on the same segment interleave at these steps.
-/

namespace Noise

variable {α : Type}

/-- What an operation does after one more access: go on, or return a result. -/
inductive Progress (Op Res : Type) where
  | running (op : Op)
  | returned (res : Res)
  deriving DecidableEq, Repr

/-- A `SharedRingBuffer::write` in progress, named after the access it does next. -/
inductive WriteOp (α : Type) where
  | loadWritePos (data : List α)
  | loadReadPos (data : List α) (w : Nat)
  -- then the block is refused, or copying starts
  | loadCapacity (data : List α) (w r : Nat)
  -- `i` samples are in place; after the last one `write_pos` is stored
  | copy (data : List α) (w cap i : Nat)
  -- `write_pos` is stored
  | addHeartbeat (data : List α)
  deriving DecidableEq, Repr

/-- A `SharedRingBuffer::read` or `flush` in progress, named after the access it does next. -/
inductive ReadOp (α : Type) where
  | loadReadPos (numSamples : Nat)
  | loadWritePos (numSamples r : Nat)
  -- then the request is refused, or copying starts
  | loadCapacity (numSamples r w : Nat)
  -- `buf` is copied out; after the last sample `read_pos` is stored
  | copy (numSamples r cap : Nat) (buf : List α)
  -- `flush` loads `write_pos` and stores it into `read_pos`
  | flushLoad
  | flushStore (w : Nat)
  deriving DecidableEq, Repr

/-- How a consumer operation returned: `read` with `false`, `read` with the samples, `flush`. -/
inductive ReadResult (α : Type) where
  | refused
  | samples (buf : List α)
  | flushed
  deriving DecidableEq, Repr

namespace Segment

def setCell (g : Segment α) (cell : Nat) (x : α) : Segment α :=
  { g with data := Function.update g.data cell x }

def setWritePos (g : Segment α) (w : Nat) : Segment α :=
  { g with header := { g.header with writePos := w } }

def setReadPos (g : Segment α) (r : Nat) : Segment α :=
  { g with header := { g.header with readPos := r } }

def setHeartbeat (g : Segment α) (hb : Nat) : Segment α :=
  { g with header := { g.header with heartbeat := hb } }

end Segment

/-- The next access of a `write`. -/
def WriteOp.step (g : Segment α) : WriteOp α → Segment α × Progress (WriteOp α) Bool
  | .loadWritePos data => (g, .running (.loadReadPos data g.header.writePos))
  | .loadReadPos data w => (g, .running (.loadCapacity data w g.header.readPos))
  | .loadCapacity data w r =>
    let cap := g.header.capacity
    let available := u64Sub cap (u64Sub w r)
    if available < data.length then (g, .returned false)
    else (g, .running (.copy data w cap 0))
  | .copy data w cap i =>
    if h : i < data.length then
      (g.setCell (Circular.blockCell cap w data.length i) data[i],
        .running (.copy data w cap (i + 1)))
    else (g.setWritePos (u64 (w + data.length)), .running (.addHeartbeat data))
  | .addHeartbeat _ => (g.setHeartbeat (u64 (g.header.heartbeat + 1)), .returned true)

/-- The next access of a `read` or `flush`. -/
def ReadOp.step (g : Segment α) : ReadOp α → Segment α × Progress (ReadOp α) (ReadResult α)
  | .loadReadPos n => (g, .running (.loadWritePos n g.header.readPos))
  | .loadWritePos n r => (g, .running (.loadCapacity n r g.header.writePos))
  | .loadCapacity n r w =>
    let available := u64Sub w r
    if available < n then (g, .returned .refused)
    else (g, .running (.copy n r g.header.capacity []))
  | .copy n r cap buf =>
    if buf.length < n then
      (g, .running (.copy n r cap (buf ++ [g.data (Circular.blockCell cap r n buf.length)])))
    else (g.setReadPos (u64 (r + n)), .returned (.samples buf))
  | .flushLoad => (g, .running (.flushStore g.header.writePos))
  | .flushStore w => (g.setReadPos w, .returned .flushed)

/-- What the history of a ring has seen: every sample published by a `write` so far, in
    order (the sample at absolute position `p` is `written[p]`), and the absolute
    position the consumer has reached. Not part of the program: `write_pos` and
    `read_pos` are these two counts reduced to 64 bits. -/
structure History (α : Type) where
  written : List α
  consumed : Nat
  deriving DecidableEq, Repr

/-- Nothing written, nothing consumed. -/
def History.empty : History α := ⟨[], 0⟩

/-- The history after the next access of a `write`: storing `write_pos` publishes the block. -/
def WriteOp.record (h : History α) : WriteOp α → History α
  | .copy data _ _ i => if i < data.length then h else { h with written := h.written ++ data }
  | _ => h

/-- The history after the next access of a `read` or `flush` on `g`: storing `read_pos`
    consumes what lies before the stored position. -/
def ReadOp.record (g : Segment α) (h : History α) : ReadOp α → History α
  | .copy n _ _ buf => if buf.length < n then h else { h with consumed := h.consumed + n }
  | .flushStore w => { h with consumed := h.consumed + u64Sub w g.header.readPos }
  | _ => h

end Noise
