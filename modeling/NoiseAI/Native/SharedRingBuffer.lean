import NoiseAI.ForStd.Word
import NoiseAI.ForStd.Circular
import Mathlib.Logic.Function.Basic

/-!
# The shared ring buffer

Model of `engine/src/shared_ring_buffer.cpp` at the level of whole calls. A
POSIX shared-memory segment is a header followed by the float area; `Shm` is the
shared-memory namespace with every segment ever created, in creation order (a
segment outlives its name, as a mapping does). `SharedRingBuffer` is the object
a process holds: the segment it has mapped (`none` for a null `header_`), the
size of its mapping, whether it created the segment, and the name.

The positions and the heartbeat are 64-bit, the other header fields 32-bit; the
arithmetic on them is reduced where the machine reduces it. With `capacity = 0`
the source divides by zero; the statements about `write` and `read` exclude it.
-/

namespace Noise

/-- Layout of the shared memory region, placed at the start of the mapped area. -/
structure SharedRingBufferHeader where
  writePos : Nat
  readPos : Nat
  capacity : Nat
  channels : Nat
  sampleRate : Nat
  active : Nat
  heartbeat : Nat
  deriving DecidableEq, Repr

/-- The header the constructor writes when it creates the segment. -/
def SharedRingBufferHeader.create (capacity channels sampleRate : Nat) :
    SharedRingBufferHeader where
  writePos := 0
  readPos := 0
  capacity := u32 capacity
  channels := channels
  sampleRate := sampleRate
  active := 1
  heartbeat := 0

/-- `sizeof(SharedRingBufferHeader)`: three 64-byte aligned blocks. -/
def sizeofHeader : Nat := 192

/-- `sizeof(float)`. -/
def sizeofFloat : Nat := 4

/-- A shared-memory segment: its size in bytes, the header, and the float area. -/
structure Segment (α : Type) where
  size : Nat
  header : SharedRingBufferHeader
  data : Nat → α

variable {α : Type}

/-- `std::memcpy` of the samples `src` to the cells from `dst` on. -/
def memcpy (mem : Nat → α) (dst : Nat) (src : List α) : Nat → α := fun a =>
  if h : dst ≤ a ∧ a - dst < src.length then src[a - dst] else mem a

/-- The `n` samples in the cells from `src` on. -/
def memread (mem : Nat → α) (src n : Nat) : List α := (List.range n).map fun i => mem (src + i)

namespace Segment

/-- A segment fresh from `shm_open(O_CREAT)`: no bytes. What `ftruncate` adds is zero. -/
def empty [Zero α] : Segment α where
  size := 0
  header := ⟨0, 0, 0, 0, 0, 0, 0⟩
  data := fun _ => 0

/-- `SharedRingBuffer::write` on a mapped segment. -/
def write (g : Segment α) (data : List α) : Bool × Segment α :=
  let numSamples := data.length
  let w := g.header.writePos
  let r := g.header.readPos
  let cap := g.header.capacity
  let available := u64Sub cap (u64Sub w r)
  if available < numSamples then (false, g)
  else
    let wIndex := w % cap
    let firstChunk := min numSamples (cap - wIndex)
    let secondChunk := numSamples - firstChunk
    let mem := memcpy g.data wIndex (data.take firstChunk)
    let mem := if 0 < secondChunk then memcpy mem 0 (data.drop firstChunk) else mem
    (true, { g with
      data := mem
      header := { g.header with
        writePos := u64 (w + numSamples)
        heartbeat := u64 (g.header.heartbeat + 1) } })

/-- `SharedRingBuffer::read` on a mapped segment; `none` is `false`. -/
def read (g : Segment α) (numSamples : Nat) : Option (List α) × Segment α :=
  let r := g.header.readPos
  let w := g.header.writePos
  let cap := g.header.capacity
  let available := u64Sub w r
  if available < numSamples then (none, g)
  else
    let rIndex := r % cap
    let firstChunk := min numSamples (cap - rIndex)
    let secondChunk := numSamples - firstChunk
    let first := memread g.data rIndex firstChunk
    let second := if 0 < secondChunk then memread g.data 0 secondChunk else []
    (some (first ++ second), { g with
      header := { g.header with readPos := u64 (r + numSamples) } })

/-- `SharedRingBuffer::flush`: snap `read_pos` to `write_pos`. -/
def flush (g : Segment α) : Segment α :=
  { g with header := { g.header with readPos := g.header.writePos } }

/-- `SharedRingBuffer::available_read`. -/
def availableRead (g : Segment α) : Nat := u64Sub g.header.writePos g.header.readPos

/-- `SharedRingBuffer::available_write`. -/
def availableWrite (g : Segment α) : Nat :=
  u64Sub g.header.capacity (u64Sub g.header.writePos g.header.readPos)

/-- `SharedRingBuffer::is_active`. -/
def isActive (g : Segment α) : Bool := g.header.active != 0

/-- `SharedRingBuffer::get_heartbeat`. -/
def getHeartbeat (g : Segment α) : Nat := g.header.heartbeat

end Segment

/-- The shared-memory namespace: what each name refers to, and the segments created so
    far (`segment i` for `i < created`). -/
structure Shm (α : Type) where
  names : String → Option Nat
  created : Nat
  segment : Nat → Segment α

/-- What the system calls of one constructor run return: `true` for success. -/
structure SysCalls where
  shmOpen : Bool
  ftruncate : Bool
  fstat : Bool
  mmap : Bool
  deriving DecidableEq, Repr

/-- Every system call succeeds. -/
def SysCalls.ok : SysCalls := ⟨true, true, true, true⟩

namespace Shm

/-- No names and no segments. -/
def empty [Zero α] : Shm α where
  names := fun _ => none
  created := 0
  segment := fun _ => Segment.empty

/-- `shm_unlink`. -/
def unlink (m : Shm α) (name : String) : Shm α :=
  { m with names := Function.update m.names name none }

/-- `shm_open(name, O_CREAT | O_RDWR)`: the segment of that name, created if there is none. -/
def openCreate [Zero α] (m : Shm α) (name : String) : Nat × Shm α :=
  match m.names name with
  | some i => (i, m)
  | none => (m.created, {
      names := Function.update m.names name (some m.created)
      created := m.created + 1
      segment := Function.update m.segment m.created Segment.empty })

/-- Apply `f` to segment `i`. -/
def modify (m : Shm α) (i : Nat) (f : Segment α → Segment α) : Shm α :=
  { m with segment := Function.update m.segment i (f (m.segment i)) }

/-- Apply `f` to the header of segment `i`. -/
def modifyHeader (m : Shm α) (i : Nat) (f : SharedRingBufferHeader → SharedRingBufferHeader) :
    Shm α :=
  m.modify i fun g => { g with header := f g.header }

end Shm

/-- The object a process holds. -/
structure SharedRingBuffer where
  segment : Option Nat
  shmSize : Nat
  isCreator : Bool
  shmName : String
  deriving DecidableEq, Repr

namespace SharedRingBuffer

/-- `is_valid`: the segment is mapped. -/
def isValid (b : SharedRingBuffer) : Bool := b.segment.isSome

/-- The constructor with `create = true` (producer). -/
def create [Zero α] (m : Shm α) (name : String) (capacity channels sampleRate : Nat)
    (sys : SysCalls) : SharedRingBuffer × Shm α :=
  let shmSize := u64 (sizeofHeader + capacity * sizeofFloat)
  let failed : SharedRingBuffer := ⟨none, shmSize, true, name⟩
  let m := m.unlink name
  if !sys.shmOpen then (failed, m)
  else
    let (i, m) := m.openCreate name
    if !sys.ftruncate then (failed, m.unlink name)
    else
      let m := m.modify i fun g => { g with size := shmSize }
      if !sys.mmap then (failed, m.unlink name)
      else
        let m := m.modifyHeader i fun _ => .create capacity channels sampleRate
        (⟨some i, shmSize, true, name⟩, m)

/-- The constructor with `create = false` (consumer): open the segment that exists, and
    map as many bytes as it has. Mapping zero bytes fails. -/
def openExisting (m : Shm α) (name : String) (sys : SysCalls) : SharedRingBuffer :=
  match m.names name with
  | none => ⟨none, sizeofHeader, false, name⟩
  | some i =>
    if !sys.shmOpen || !sys.fstat then ⟨none, sizeofHeader, false, name⟩
    else
      let shmSize := (m.segment i).size
      if !sys.mmap || shmSize == 0 then ⟨none, shmSize, false, name⟩
      else ⟨some i, shmSize, false, name⟩

/-- The destructor: a creator clears `active` and unlinks its name. -/
def destroy (b : SharedRingBuffer) (m : Shm α) : Shm α :=
  if b.isCreator then
    let m := match b.segment with
      | some i => m.modifyHeader i fun h => { h with active := 0 }
      | none => m
    m.unlink b.shmName
  else m

/-- `write`; an object without a mapping returns `false`. -/
def write (b : SharedRingBuffer) (m : Shm α) (data : List α) : Bool × Shm α :=
  match b.segment with
  | none => (false, m)
  | some i =>
    let (ok, g) := (m.segment i).write data
    (ok, m.modify i fun _ => g)

/-- `read`; an object without a mapping returns `false`. -/
def read (b : SharedRingBuffer) (m : Shm α) (numSamples : Nat) : Option (List α) × Shm α :=
  match b.segment with
  | none => (none, m)
  | some i =>
    let (buf, g) := (m.segment i).read numSamples
    (buf, m.modify i fun _ => g)

/-- `flush`; an object without a mapping does nothing. -/
def flush (b : SharedRingBuffer) (m : Shm α) : Shm α :=
  match b.segment with
  | none => m
  | some i => m.modify i Segment.flush

/-- `available_read`. -/
def availableRead (b : SharedRingBuffer) (m : Shm α) : Nat :=
  match b.segment with
  | none => 0
  | some i => (m.segment i).availableRead

/-- `available_write`. -/
def availableWrite (b : SharedRingBuffer) (m : Shm α) : Nat :=
  match b.segment with
  | none => 0
  | some i => (m.segment i).availableWrite

end SharedRingBuffer

end Noise
