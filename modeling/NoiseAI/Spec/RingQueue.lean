import NoiseAI.Native.RingBuffer
import NoiseAI.Spec.RingCalls
import NoiseAI.Spec.ShmName

/-!
# Both ring buffers are one queue

`SPSCRingBuffer` and `SharedRingBuffer` answer every sequence of operations as a
`BoundedQueue` of their capacity does. `Represents` relates the cells and the two positions to
the queue: only their distance and the cells between them count, so the two implementations
may stand at unrelated positions, as they do after the first discard. `SharedRingBuffer` takes
a 64-bit capacity and keeps 32 bits of it; the theorem at the end says for which capacities
this makes no difference.
-/

namespace Noise

open BoundedQueue (Op Reply replies)

variable {α : Type} {cap : Nat}

/-! ## Blocks in the cells -/

/-- After the first `i` samples of a block their cells hold them, and no other cell is
    touched. -/
theorem Segment.copied_spec (mem : Nat → α) (w : Nat) {data : List α} (hcap : 0 < cap)
    (hfit : data.length ≤ cap) {i : Nat} (hi : i ≤ data.length) :
    (∀ j (hj : j < data.length), j < i → copied mem cap w data i ((w + j) % cap) = data[j]) ∧
    ∀ a, (∀ j < i, a ≠ (w + j) % cap) → copied mem cap w data i a = mem a := by
  induction i with
  | zero =>
    rw [copied_zero]
    exact ⟨fun j _ hj => absurd hj (Nat.not_lt_zero j), fun a _ => rfl⟩
  | succ i ih =>
    obtain ⟨hcells, hframe⟩ := ih (by omega)
    rw [copied_succ mem cap w data hi, Circular.blockCell_eq hcap hi hfit]
    constructor
    · intro j hj hji
      by_cases hlast : j = i
      · subst hlast
        rw [Function.update_self]
      · -- an earlier sample has a cell of its own
        have hne : (w + j) % cap ≠ (w + i) % cap := Circular.mod_ne_of_lt (by omega) (by omega)
        rw [Function.update_of_ne hne]
        exact hcells j hj (by omega)
    · intro a ha
      rw [Function.update_of_ne (ha i (Nat.lt_succ_self i))]
      exact hframe a fun j hj => ha j (by omega)

/-- A block that fits goes behind the samples that are there. -/
theorem holds_copied {mem : Nat → α} {r : Nat} {items data : List α} (hcap : 0 < cap)
    (h : Circular.Holds cap mem r items) (hfit : items.length + data.length ≤ cap) :
    Circular.Holds cap (Segment.copied mem cap (r + items.length) data data.length) r
      (items ++ data) := by
  obtain ⟨hcells, hframe⟩ := Segment.copied_spec mem (r + items.length) hcap
    (by omega : data.length ≤ cap) (Nat.le_refl _)
  apply h.append
  · exact fun j hj => hcells j hj hj
  · intro j hj
    apply hframe
    intro k hk
    rw [Nat.add_assoc]
    exact Circular.mod_ne_of_lt (by omega) (by omega)

/-- What is copied out are the oldest samples. -/
theorem copiedOut_holds {mem : Nat → α} {r n : Nat} {items : List α} (hcap : 0 < cap)
    (h : Circular.Holds cap mem r items) (hn : n ≤ items.length) (hfit : n ≤ cap) :
    Segment.copiedOut mem cap r n n = items.take n := by
  have hlen : (Segment.copiedOut mem cap r n n).length = n := Segment.length_copiedOut ..
  apply List.ext_getElem?
  intro j
  by_cases hj : j < n
  · rw [Segment.getElem?_copiedOut mem cap r n hj, Circular.blockCell_eq hcap hj hfit,
      h j (by omega), List.getElem?_take_of_lt hj, List.getElem?_eq_getElem]
  · rw [List.getElem?_eq_none (by omega), List.getElem?_eq_none]
    rw [List.length_take]
    omega

/-! ## The queue behind the positions -/

/-- The cells of a ring with the positions `w` and `r` hold the queue `q`. -/
structure Represents (mem : Nat → α) (w r : Nat) (q : BoundedQueue α cap) : Prop where
  writePos : w = r + q.items.length
  cells : Circular.Holds cap mem r q.items

namespace Represents

variable {mem : Nat → α} {w r : Nat} {q : BoundedQueue α cap}

/-- Equal positions are an empty queue, wherever they stand. -/
theorem empty (mem : Nat → α) (p : Nat) : Represents mem p p (BoundedQueue.empty α cap) :=
  ⟨rfl, Circular.holds_nil⟩

/-- `w - r`. -/
theorem fill_eq (h : Represents mem w r q) (hw : w < 2 ^ 64) : u64Sub w r = q.items.length := by
  have hpos := h.writePos
  rw [u64Sub_of_le hw (by omega)]
  omega

/-- `capacity - (w - r)`. -/
theorem free_eq (h : Represents mem w r q) (hw : w < 2 ^ 64) (hsize : cap < 2 ^ 64) :
    u64Sub cap (u64Sub w r) = cap - q.items.length := by
  rw [h.fill_eq hw, u64Sub_of_le hsize q.length_le]

/-- The block goes behind the samples, and the position past the block. -/
theorem write (h : Represents mem w r q) (hcap : 0 < cap) {data : List α}
    (hfit : q.items.length + data.length ≤ cap) (hroom : w + data.length < 2 ^ 64) :
    Represents (Segment.copied mem cap w data data.length) (u64 (w + data.length)) r
      (q.write data).2 := by
  have hpos := h.writePos
  rw [u64_of_lt hroom, BoundedQueue.write_of_le hfit]
  subst hpos
  constructor
  · dsimp only
    rw [List.length_append]
    omega
  · exact holds_copied hcap h.cells hfit

theorem read (h : Represents mem w r q) (hw : w < 2 ^ 64) {n : Nat} (hn : n ≤ q.items.length) :
    Represents mem w (u64 (r + n)) (q.read n).2 := by
  have hpos := h.writePos
  have hitems := (BoundedQueue.items_read_of_le hn).2
  rw [u64_of_lt (by omega)]
  constructor
  · rw [hitems, List.length_drop]
    omega
  · rw [hitems]
    exact h.cells.drop n

end Represents

/-! ## One call -/

namespace Segment

/-- The ring of the segment holds the queue, and its positions leave room for `n` more
    samples. -/
structure Stands (n : Nat) (g : Segment α) (q : BoundedQueue α cap) : Prop where
  capacity : g.header.capacity = cap
  represents : Represents g.data g.header.writePos g.header.readPos q
  room : g.header.writePos + n < 2 ^ 64

variable {g : Segment α} {q : BoundedQueue α cap} {n : Nat}

theorem Stands.mono {n' : Nat} (h : Stands n g q) (hle : n' ≤ n) : Stands n' g q :=
  ⟨h.capacity, h.represents, Nat.lt_of_le_of_lt (Nat.add_le_add_left hle _) h.room⟩

theorem Stands.availableRead (h : Stands n g q) : g.availableRead = q.items.length :=
  h.represents.fill_eq (Nat.lt_of_le_of_lt (Nat.le_add_right _ n) h.room)

theorem Stands.availableWrite (h : Stands n g q) (hsize : cap < 2 ^ 64) :
    g.availableWrite = cap - q.items.length := by
  unfold Segment.availableWrite
  rw [h.capacity]
  exact h.represents.free_eq (Nat.lt_of_le_of_lt (Nat.le_add_right _ n) h.room) hsize

theorem Stands.write (hcap : 0 < cap) (hsize : cap < 2 ^ 64) {data : List α}
    (h : Stands (q.taken (.write data) + n) g q) :
    (g.write data).1 = (q.write data).1 ∧ Stands n (g.write data).2 (q.write data).2 := by
  have hfree := h.availableWrite hsize
  have hcopied := copied_length g.data cap g.header.writePos data
  have hroom := h.room
  have hle := q.length_le
  unfold Segment.availableWrite at hfree
  unfold Segment.write
  simp only [hfree]
  simp only [BoundedQueue.taken] at hroom
  split
  · rw [BoundedQueue.write_of_lt (by omega)]
    exact ⟨rfl, h.mono (Nat.le_add_left n _)⟩
  · have hfit : q.items.length + data.length ≤ cap := by omega
    rw [if_pos hfit] at hroom
    refine ⟨(congrArg Prod.fst (BoundedQueue.write_of_le hfit)).symm, h.capacity, ?_, ?_⟩
    · dsimp only
      rw [h.capacity, ← hcopied]
      exact h.represents.write hcap hfit (by omega)
    · dsimp only
      rw [u64_of_lt (by omega)]
      omega

theorem Stands.read (hcap : 0 < cap) (k : Nat) (h : Stands n g q) :
    (g.read k).1 = (q.read k).1 ∧ Stands n (g.read k).2 (q.read k).2 := by
  have hfill := h.availableRead
  have hcopied := copiedOut_self g.data cap g.header.readPos k
  have hroom := h.room
  have hle := q.length_le
  unfold Segment.availableRead at hfill
  unfold Segment.read
  simp only [hfill]
  split
  · rename_i hfew
    rw [BoundedQueue.read_of_lt hfew]
    exact ⟨rfl, h⟩
  · have hk : k ≤ q.items.length := by omega
    refine ⟨?_, h.capacity, h.represents.read (by omega) hk, hroom⟩
    dsimp only
    rw [h.capacity, ← hcopied, copiedOut_holds hcap h.represents.cells hk (by omega)]
    exact (BoundedQueue.items_read_of_le hk).1.symm

/-- The heartbeat is no part of the queue. -/
theorem Stands.setHeartbeat (h : Stands n g q) (hb : Nat) : Stands n (g.setHeartbeat hb) q :=
  ⟨h.capacity, h.represents, h.room⟩

/-- The consumer's position jumps to the producer's. -/
theorem Stands.flush (h : Stands n g q) : Stands n g.flush (BoundedQueue.empty α cap) :=
  ⟨h.capacity, Represents.empty _ g.header.writePos, h.room⟩

end Segment

/-! ## `SharedRingBuffer` -/

namespace SharedRingBuffer

variable {b : SharedRingBuffer} {i : Nat}

/-- One operation on an object that has mapped segment `i`. -/
theorem call_refines (hcap : 0 < cap) (hsize : cap < 2 ^ 64) (hb : b.segment = some i) (n : Nat)
    (m : Shm α) (q : BoundedQueue α cap) (op : Op α)
    (h : (m.segment i).Stands (q.taken op + n) q) :
    (b.call m op).1 = (q.call op).1 ∧ ((b.call m op).2.segment i).Stands n (q.call op).2 := by
  have hkeep : (m.segment i).Stands n q := h.mono (Nat.le_add_left n _)
  cases op with
  | write data =>
    obtain ⟨hok, hnext⟩ := h.write hcap hsize
    simp only [call, write, hb, Shm.modify, Function.update_self]
    exact ⟨congrArg Reply.written hok, hnext⟩
  | read k =>
    obtain ⟨hbuf, hnext⟩ := hkeep.read hcap k
    simp only [call, read, hb, Shm.modify, Function.update_self]
    exact ⟨congrArg Reply.samples hbuf, hnext⟩
  | availableRead =>
    simp only [call, availableRead, hb]
    exact ⟨congrArg Reply.count hkeep.availableRead, hkeep⟩
  | availableWrite =>
    simp only [call, availableWrite, hb]
    exact ⟨congrArg Reply.count (hkeep.availableWrite hsize), hkeep⟩
  | discard =>
    simp only [call, flush, hb, Shm.modify, Function.update_self]
    exact ⟨rfl, hkeep.flush⟩

end SharedRingBuffer

/-! ## `SPSCRingBuffer` -/

namespace SPSCRingBuffer

/-- The buffer as a segment: the two classes differ in where the fields are. -/
def asSegment (b : SPSCRingBuffer α) : Segment α where
  size := 0
  header := ⟨b.writePos, b.readPos, b.capacity, 0, 0, 0, 0⟩
  data := b.buffer

variable {b : SPSCRingBuffer α} {q : BoundedQueue α cap} {n : Nat}

/-- The copies of `write` differ in the heartbeat only. -/
theorem asSegment_write (b : SPSCRingBuffer α) (data : List α) :
    (b.asSegment.write data).1 = (b.write data).1 ∧
      (b.asSegment.write data).2.setHeartbeat 0 = (b.write data).2.asSegment := by
  unfold Segment.write write
  dsimp only [asSegment]
  split
  · exact ⟨rfl, rfl⟩
  · exact ⟨rfl, rfl⟩

/-- The copies of `read` are the same. -/
theorem asSegment_read (b : SPSCRingBuffer α) (k : Nat) :
    b.asSegment.read k = ((b.read k).1, (b.read k).2.asSegment) := by
  unfold Segment.read read
  dsimp only [asSegment]
  split
  · rfl
  · rfl

/-- One operation. -/
theorem call_refines (hcap : 0 < cap) (hsize : cap < 2 ^ 64) (n : Nat) (b : SPSCRingBuffer α)
    (q : BoundedQueue α cap) (op : Op α) (h : b.asSegment.Stands (q.taken op + n) q) :
    (b.call op).1 = (q.call op).1 ∧ (b.call op).2.asSegment.Stands n (q.call op).2 := by
  have hkeep : b.asSegment.Stands n q := h.mono (Nat.le_add_left n _)
  cases op with
  | write data =>
    obtain ⟨hok, hnext⟩ := h.write hcap hsize
    obtain ⟨hsame, hafter⟩ := b.asSegment_write data
    rw [hsame] at hok
    have hstands := hnext.setHeartbeat 0
    rw [hafter] at hstands
    exact ⟨congrArg Reply.written hok, hstands⟩
  | read k =>
    have hread := hkeep.read hcap k
    rw [asSegment_read] at hread
    exact ⟨congrArg Reply.samples hread.1, hread.2⟩
  | availableRead => exact ⟨congrArg Reply.count hkeep.availableRead, hkeep⟩
  | availableWrite => exact ⟨congrArg Reply.count (hkeep.availableWrite hsize), hkeep⟩
  | discard =>
    -- back to position 0, where `flush` stays at the position it has reached
    have hroom := hkeep.room
    refine ⟨rfl, hkeep.capacity, Represents.empty _ 0, ?_⟩
    show 0 + n < 2 ^ 64
    omega

end SPSCRingBuffer

/-! ## Sequences of operations -/

variable [Zero α]

/-- Both classes, made for `capacity` samples, answer every sequence of operations as the
    queue of `capacity` samples does, as long as this takes fewer than `2 ^ 64` samples. The
    shared buffer is `b`, on the shared memory `m`. -/
def RingsAgree (capacity : Nat) (b : SharedRingBuffer) (m : Shm α) : Prop :=
  ∀ ops : List (Op α), (BoundedQueue.empty α capacity).accepted ops < 2 ^ 64 →
    replies SPSCRingBuffer.call (.new capacity) ops =
      replies BoundedQueue.call (.empty α capacity) ops ∧
    replies b.call m ops = replies BoundedQueue.call (.empty α capacity) ops

/-- They agree when the header counts the whole capacity. -/
theorem rings_agree {capacity : Nat} {b : SharedRingBuffer} {m : Shm α} {i : Nat}
    (hcap : 0 < capacity) (hsize : capacity < 2 ^ 64) (hb : b.segment = some i)
    (hheader : (m.segment i).header.capacity = capacity)
    (hw : (m.segment i).header.writePos = 0) (hr : (m.segment i).header.readPos = 0) :
    RingsAgree capacity b m := by
  intro ops hops
  constructor
  · apply BoundedQueue.replies_of_refinement (S := fun n b q => b.asSegment.Stands n q)
      (SPSCRingBuffer.call_refines hcap hsize)
    refine ⟨rfl, Represents.empty _ 0, ?_⟩
    show 0 + _ < 2 ^ 64
    omega
  · apply BoundedQueue.replies_of_refinement (S := fun n m q => (m.segment i).Stands n q)
      (SharedRingBuffer.call_refines hcap hsize hb)
    refine ⟨hheader, ?_, ?_⟩
    · rw [hw, hr]
      exact Represents.empty _ 0
    · rw [hw]
      omega

/-- They disagree on a fresh ring when it does not: `available_write` tells them apart. -/
theorem capacity_of_agree {capacity : Nat} {b : SharedRingBuffer} {m : Shm α} {i : Nat}
    (hb : b.segment = some i) (hw : (m.segment i).header.writePos = 0)
    (hr : (m.segment i).header.readPos = 0) (h : RingsAgree capacity b m) :
    u64 (m.segment i).header.capacity = capacity := by
  have hnothing : (BoundedQueue.empty α capacity).accepted [.availableWrite] < 2 ^ 64 := by
    show 0 < 2 ^ 64
    decide
  obtain ⟨_, hshared⟩ := h [.availableWrite] hnothing
  have hcount : b.availableWrite m = capacity := by
    have hreply := congrArg List.head? hshared
    simp only [replies, Observe.outputs, SharedRingBuffer.call, BoundedQueue.call,
      BoundedQueue.empty, List.length_nil, Nat.sub_zero, List.append_nil, List.head?_cons,
      Option.some.injEq, Reply.count.injEq] at hreply
    exact hreply
  unfold SharedRingBuffer.availableWrite Segment.availableWrite at hcount
  rw [hb] at hcount
  dsimp only at hcount
  rw [hw, hr] at hcount
  unfold u64
  unfold u64Sub at hcount
  omega

/-- For which capacities `SPSCRingBuffer` and `SharedRingBuffer` are one queue: the header
    keeps the low 32 bits of the capacity, while the segment is sized for all of it. -/
theorem rings_agree_iff (m : Shm α) (name : String) {capacity : Nat} (channels sampleRate : Nat)
    (sys : SysCalls) (hcap : 1 ≤ capacity)
    (hvalid :
      (SharedRingBuffer.create m name capacity channels sampleRate sys).1.isValid = true) :
    RingsAgree capacity (SharedRingBuffer.create m name capacity channels sampleRate sys).1
        (SharedRingBuffer.create m name capacity channels sampleRate sys).2 ↔
      capacity < 2 ^ 32 := by
  obtain ⟨hb, _, hfresh⟩ :=
    SharedRingBuffer.create_valid m name capacity channels sampleRate sys hvalid
  constructor
  · intro hagree
    have hheader := capacity_of_agree hb (by rw [hfresh]; rfl) (by rw [hfresh]; rfl) hagree
    rw [hfresh] at hheader
    have hlow : u32 capacity < 2 ^ 32 := Nat.mod_lt _ (by decide)
    have hword : u64 (u32 capacity) = u32 capacity := u64_of_lt (by omega)
    have hkept : u32 capacity = capacity := hword.symm.trans hheader
    omega
  · intro hsmall
    apply rings_agree hcap (by omega) hb
    · rw [hfresh]
      exact u32_of_lt hsmall
    · rw [hfresh]
      rfl
    · rw [hfresh]
      rfl

theorem rings_agree_four :
    RingsAgree 4 (SharedRingBuffer.create (.empty : Shm ℚ) shmName 4 2 48000 .ok).1
        (SharedRingBuffer.create (.empty : Shm ℚ) shmName 4 2 48000 .ok).2 ↔
      4 < 2 ^ 32 :=
  rings_agree_iff .empty shmName 2 48000 .ok (by decide) (by decide)

/-- After the discard the block of the shared buffer wraps, and that of the other does not. -/
example :
    let r := SharedRingBuffer.create (.empty : Shm ℚ) shmName 4 2 48000 .ok
    let ops : List (Op ℚ) := [.write [1, 2, 3], .discard, .write [4, 5, 6], .read 3]
    let same := [.written true, .discarded, .written true, .samples (some [4, 5, 6])]
    replies SPSCRingBuffer.call (.new 4) ops = same ∧ replies r.1.call r.2 ops = same := by
  decide

/-- Made for `2 ^ 32 + 1` samples, the shared buffer refuses two of them. -/
theorem rings_differ :
    1 ≤ 2 ^ 32 + 1 ∧
    (SharedRingBuffer.create (.empty : Shm ℚ) shmName (2 ^ 32 + 1) 2 48000 .ok).1.isValid = true ∧
    (BoundedQueue.empty ℚ (2 ^ 32 + 1)).accepted [.write [1, 2]] < 2 ^ 64 ∧
    replies SPSCRingBuffer.call (.new (2 ^ 32 + 1)) [.write ([1, 2] : List ℚ)] =
      [.written true] ∧
    replies (SharedRingBuffer.create (.empty : Shm ℚ) shmName (2 ^ 32 + 1) 2 48000 .ok).1.call
        (SharedRingBuffer.create (.empty : Shm ℚ) shmName (2 ^ 32 + 1) 2 48000 .ok).2
        [.write [1, 2]] =
      [.written false] := by
  decide

end Noise
