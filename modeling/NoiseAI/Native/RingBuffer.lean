import NoiseAI.ForStd.BoundedQueue
import NoiseAI.Native.SharedRingBuffer

/-!
# The ring buffer of one process

Model of `engine/src/ring_buffer.cpp`, and the calls of both ring buffers as operations on
a queue. All counts are `size_t`, that is 64-bit. The vector is allocated, or there is no
object. With `capacity = 0` the source divides by zero, as in `SharedRingBuffer`.
-/

namespace Noise

open BoundedQueue (Op Reply)

/-- The fields of `SPSCRingBuffer`. -/
structure SPSCRingBuffer (α : Type) where
  buffer : Nat → α
  capacity : Nat
  writePos : Nat
  readPos : Nat

variable {α : Type}

namespace SPSCRingBuffer

/-- `SPSCRingBuffer::SPSCRingBuffer`. -/
def new [Zero α] (capacity : Nat) : SPSCRingBuffer α where
  buffer := fun _ => 0
  capacity := capacity
  writePos := 0
  readPos := 0

/-- `SPSCRingBuffer::write`. -/
def write (b : SPSCRingBuffer α) (data : List α) : Bool × SPSCRingBuffer α :=
  let numSamples := data.length
  let w := b.writePos
  let r := b.readPos
  let available := u64Sub b.capacity (u64Sub w r)
  if available < numSamples then (false, b)
  else
    let wIndex := w % b.capacity
    let firstChunk := min numSamples (b.capacity - wIndex)
    let secondChunk := numSamples - firstChunk
    let buffer := memcpy b.buffer wIndex (data.take firstChunk)
    let buffer := if 0 < secondChunk then memcpy buffer 0 (data.drop firstChunk) else buffer
    (true, { b with buffer := buffer, writePos := u64 (w + numSamples) })

/-- `SPSCRingBuffer::read`; `none` is `false`. -/
def read (b : SPSCRingBuffer α) (numSamples : Nat) : Option (List α) × SPSCRingBuffer α :=
  let r := b.readPos
  let w := b.writePos
  let available := u64Sub w r
  if available < numSamples then (none, b)
  else
    let rIndex := r % b.capacity
    let firstChunk := min numSamples (b.capacity - rIndex)
    let secondChunk := numSamples - firstChunk
    let first := memread b.buffer rIndex firstChunk
    let second := if 0 < secondChunk then memread b.buffer 0 secondChunk else []
    (some (first ++ second), { b with readPos := u64 (r + numSamples) })

/-- `SPSCRingBuffer::available_read`. -/
def availableRead (b : SPSCRingBuffer α) : Nat := u64Sub b.writePos b.readPos

/-- `SPSCRingBuffer::available_write`. -/
def availableWrite (b : SPSCRingBuffer α) : Nat :=
  u64Sub b.capacity (u64Sub b.writePos b.readPos)

/-- `SPSCRingBuffer::reset`. -/
def reset (b : SPSCRingBuffer α) : SPSCRingBuffer α := { b with writePos := 0, readPos := 0 }

/-- One operation of a queue. -/
def call (b : SPSCRingBuffer α) : Op α → Reply α × SPSCRingBuffer α
  | .write data => (.written (b.write data).1, (b.write data).2)
  | .read n => (.samples (b.read n).1, (b.read n).2)
  | .availableRead => (.count b.availableRead, b)
  | .availableWrite => (.count b.availableWrite, b)
  | .discard => (.discarded, b.reset)

end SPSCRingBuffer

namespace SharedRingBuffer

/-- One operation of a queue, on the shared memory `m`. -/
def call (b : SharedRingBuffer) (m : Shm α) : Op α → Reply α × Shm α
  | .write data => (.written (b.write m data).1, (b.write m data).2)
  | .read n => (.samples (b.read m n).1, (b.read m n).2)
  | .availableRead => (.count (b.availableRead m), m)
  | .availableWrite => (.count (b.availableWrite m), m)
  | .discard => (.discarded, b.flush m)

end SharedRingBuffer

end Noise
