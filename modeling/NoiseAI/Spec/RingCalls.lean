import NoiseAI.Spec.RingInvariant

/-!
# Whole calls on the ring

A `write`, `read` or `flush` that no other operation interleaves with. The steps of
`RingSteps` then add up to the function of `SharedRingBuffer` (`write_alone`,
`read_alone`, `flush_alone`). `Segment.Level` is what such calls need to know of the
positions: how many samples lie between them.
-/

namespace Noise

variable {α : Type}

/-! ## Copying sample by sample -/

/-- One more sample of a `memcpy`. -/
theorem memcpy_take_succ (mem : Nat → α) (dst : Nat) (src : List α) {i : Nat}
    (hi : i < src.length) :
    memcpy mem dst (src.take (i + 1)) =
      Function.update (memcpy mem dst (src.take i)) (dst + i) src[i] := by
  funext a
  by_cases ha : a = dst + i
  · subst ha
    rw [Function.update_self]
    unfold memcpy
    -- the new sample
    have hin : dst ≤ dst + i ∧ dst + i - dst < (src.take (i + 1)).length := by
      rw [List.length_take]
      omega
    rw [dif_pos hin, List.getElem_take]
    simp only [Nat.add_sub_cancel_left]
  · rw [Function.update_of_ne ha]
    unfold memcpy
    -- a sample that was copied before, or a cell outside
    by_cases hin : dst ≤ a ∧ a - dst < i
    · have hlen : a - dst < (src.take i).length := by
        rw [List.length_take]
        omega
      have hlen' : a - dst < (src.take (i + 1)).length := by
        rw [List.length_take]
        omega
      rw [dif_pos ⟨hin.1, hlen'⟩, dif_pos ⟨hin.1, hlen⟩, List.getElem_take, List.getElem_take]
    · have hout : ¬ (dst ≤ a ∧ a - dst < (src.take i).length) := by
        rw [List.length_take]
        omega
      have hout' : ¬ (dst ≤ a ∧ a - dst < (src.take (i + 1)).length) := by
        rw [List.length_take]
        omega
      rw [dif_neg hout, dif_neg hout']

theorem memcpy_nil (mem : Nat → α) (dst : Nat) : memcpy mem dst [] = mem := by
  funext a
  unfold memcpy
  exact dif_neg fun h => Nat.not_lt_zero _ h.2

/-- One more sample of a `memread`. -/
theorem memread_succ (mem : Nat → α) (src n : Nat) :
    memread mem src (n + 1) = memread mem src n ++ [mem (src + n)] := by
  unfold memread
  rw [List.range_succ, List.map_append, List.map_singleton]

theorem length_memread (mem : Nat → α) (src n : Nat) : (memread mem src n).length = n := by
  unfold memread
  rw [List.length_map, List.length_range]

/-! ## Operations that run alone -/

/-- The next access of a `write` on a ring and its history. -/
def WriteOp.access (ring : Segment α × History α) (op : WriteOp α) :
    (Segment α × History α) × Progress (WriteOp α) Bool :=
  (((op.step ring.1).1, op.record ring.2), (op.step ring.1).2)

/-- The next access of a `read` or `flush` on a ring and its history. -/
def ReadOp.access (ring : Segment α × History α) (op : ReadOp α) :
    (Segment α × History α) × Progress (ReadOp α) (ReadResult α) :=
  (((op.step ring.1).1, op.record ring.1 ring.2), (op.step ring.1).2)

/-- The operation `op`, run on `ring` with nothing in between, leaves `ring'` and returns
    `res`. -/
inductive Alone {σ Op Res : Type} (access : σ → Op → σ × Progress Op Res) :
    σ → Op → σ → Res → Prop where
  | last {ring ring' : σ} {op : Op} {res : Res} :
      access ring op = (ring', .returned res) → Alone access ring op ring' res
  | more {ring ring' ring'' : σ} {op op' : Op} {res : Res} :
      access ring op = (ring', .running op') → Alone access ring' op' ring'' res →
        Alone access ring op ring'' res

/-- The history after a whole `write`. -/
def History.write (h : History α) (ok : Bool) (data : List α) : History α :=
  if ok then { h with written := h.written ++ data } else h

/-- The history after a whole `read` of `n` samples. -/
def History.read (h : History α) (ok : Bool) (n : Nat) : History α :=
  if ok then { h with consumed := h.consumed + n } else h

/-- The history after a whole `flush` of `g`. -/
def History.flush (h : History α) (g : Segment α) : History α :=
  { h with consumed := h.consumed + u64Sub g.header.writePos g.header.readPos }

namespace Segment

/-- The float area after the first `i` samples of `write` are in place. -/
def copied (mem : Nat → α) (cap w : Nat) (data : List α) (i : Nat) : Nat → α :=
  let first := min data.length (cap - w % cap)
  memcpy (memcpy mem (w % cap) ((data.take first).take i)) 0 ((data.drop first).take (i - first))

theorem copied_zero (mem : Nat → α) (cap w : Nat) (data : List α) :
    copied mem cap w data 0 = mem := by
  simp only [copied, List.take_zero, Nat.zero_sub, memcpy_nil]

theorem copied_succ (mem : Nat → α) (cap w : Nat) (data : List α) {i : Nat}
    (hi : i < data.length) :
    copied mem cap w data (i + 1) =
      Function.update (copied mem cap w data i) (Circular.blockCell cap w data.length i)
        data[i] := by
  unfold copied Circular.blockCell
  simp only
  generalize hfirst : min data.length (cap - w % cap) = first
  by_cases hlt : i < first
  · -- still in the first chunk
    have hlen : i < (data.take first).length := by
      rw [List.length_take]
      omega
    have hzero : i + 1 - first = 0 := by omega
    have hzero' : i - first = 0 := by omega
    rw [if_pos hlt, hzero, hzero', List.take_zero, memcpy_nil, memcpy_nil,
      memcpy_take_succ _ _ _ hlen, List.getElem_take]
  · -- in the second chunk: the first one stays as it is
    have hlen : i - first < (data.drop first).length := by
      rw [List.length_drop]
      omega
    have hall : ∀ k, first ≤ k → (data.take first).take k = data.take first := by
      intro k hk
      exact List.take_of_length_le (by rw [List.length_take]; omega)
    have hsucc : i + 1 - first = i - first + 1 := by omega
    rw [if_neg hlt, hall (i + 1) (by omega), hall i (by omega), hsucc,
      memcpy_take_succ _ _ _ hlen, List.getElem_drop, Nat.zero_add]
    congr 1
    congr 1
    omega

/-- The last sample of a block is in its cell. -/
theorem copied_last (mem : Nat → α) (cap w : Nat) (data : List α) (hpos : 0 < data.length) :
    copied mem cap w data data.length
        (Circular.blockCell cap w data.length (data.length - 1)) =
      data[data.length - 1] := by
  have hlast := copied_succ mem cap w data (Nat.sub_lt hpos Nat.one_pos)
  rw [Nat.sub_add_cancel hpos] at hlast
  rw [hlast, Function.update_self]

/-- What `write` leaves in the float area. -/
theorem copied_length (mem : Nat → α) (cap w : Nat) (data : List α) :
    copied mem cap w data data.length =
      (let first := min data.length (cap - w % cap)
       let mem := memcpy mem (w % cap) (data.take first)
       if 0 < data.length - first then memcpy mem 0 (data.drop first) else mem) := by
  unfold copied
  simp only
  generalize hfirst : min data.length (cap - w % cap) = first
  have htake : (data.take first).take data.length = data.take first :=
    List.take_of_length_le (by rw [List.length_take]; omega)
  rw [htake]
  split
  · congr 1
    exact List.take_of_length_le (by rw [List.length_drop])
  · have hzero : data.length - first = 0 := by omega
    rw [hzero, List.take_zero, memcpy_nil]

variable (g : Segment α) (h : History α)

/-- From sample `i` on, a `write` that is past its check copies the rest and publishes. -/
theorem copy_alone (data : List α) (cap w : Nat) {i : Nat} (hi : i ≤ data.length) :
    Alone WriteOp.access ({ g with data := copied g.data cap w data i }, h)
      (.copy data w cap i)
      ({ g with
        data := copied g.data cap w data data.length
        header := { g.header with
          writePos := u64 (w + data.length)
          heartbeat := u64 (g.header.heartbeat + 1) } }, h.write true data) true := by
  induction hi using Nat.decreasingInduction with
  | self =>
    -- every sample is in place: publish, then count the write
    have hend : ¬ data.length < data.length := Nat.lt_irrefl _
    apply Alone.more
    · simp only [WriteOp.access, WriteOp.step, WriteOp.record, hend, ↓reduceDIte, ↓reduceIte]
      rfl
    · exact Alone.last rfl
  | of_succ i hlt ih =>
    apply Alone.more
    · simp only [WriteOp.access, WriteOp.step, WriteOp.record, hlt, ↓reduceDIte, ↓reduceIte,
        setCell, ← copied_succ g.data cap w data hlt]
      rfl
    · exact ih

/-- `write` is its steps, run alone. -/
theorem write_alone (data : List α) :
    Alone WriteOp.access (g, h) (.loadWritePos data)
      ((g.write data).2, h.write (g.write data).1 data) (g.write data).1 := by
  apply Alone.more rfl
  apply Alone.more rfl
  unfold write
  simp only
  split
  · rename_i hfull
    apply Alone.last
    simp only [WriteOp.access, WriteOp.step, WriteOp.record, hfull, ↓reduceIte]
    rfl
  · rename_i hroom
    apply Alone.more
    · simp only [WriteOp.access, WriteOp.step, WriteOp.record, hroom, ↓reduceIte]
      rfl
    · have hcopy := g.copy_alone h data g.header.capacity g.header.writePos (Nat.zero_le _)
      rw [copied_zero, copied_length] at hcopy
      exact hcopy

/-- The first `i` samples of `read`. -/
def copiedOut (mem : Nat → α) (cap r n i : Nat) : List α :=
  let first := min n (cap - r % cap)
  memread mem (r % cap) (min i first) ++ memread mem 0 (i - first)

theorem length_copiedOut (mem : Nat → α) (cap r n i : Nat) :
    (copiedOut mem cap r n i).length = i := by
  unfold copiedOut
  rw [List.length_append, length_memread, length_memread]
  omega

theorem copiedOut_succ (mem : Nat → α) (cap r n i : Nat) :
    copiedOut mem cap r n (i + 1) =
      copiedOut mem cap r n i ++ [mem (Circular.blockCell cap r n i)] := by
  unfold copiedOut Circular.blockCell
  simp only
  generalize min n (cap - r % cap) = first
  by_cases hlt : i < first
  · have hmin : min (i + 1) first = i + 1 := by omega
    have hmin' : min i first = i := by omega
    have hzero : i + 1 - first = 0 := by omega
    have hzero' : i - first = 0 := by omega
    rw [if_pos hlt, hmin, hmin', hzero, hzero', memread_succ]
    show _ ++ [] = _ ++ [] ++ _
    rw [List.append_nil, List.append_nil]
  · have hmin : min (i + 1) first = first := by omega
    have hmin' : min i first = first := by omega
    have hsucc : i + 1 - first = i - first + 1 := by omega
    rw [if_neg hlt, hmin, hmin', hsucc, memread_succ, Nat.zero_add, List.append_assoc]

/-- Sample `j` comes out of its cell. -/
theorem getElem?_copiedOut (mem : Nat → α) (cap r n : Nat) {i j : Nat} (hj : j < i) :
    (copiedOut mem cap r n i)[j]? = some (mem (Circular.blockCell cap r n j)) := by
  induction i with
  | zero => exact absurd hj (Nat.not_lt_zero j)
  | succ i ih =>
    rw [copiedOut_succ]
    have hlen := length_copiedOut mem cap r n i
    by_cases hlast : j = i
    · subst hlast
      rw [List.getElem?_append_right (Nat.le_of_eq hlen), hlen, Nat.sub_self]
      rfl
    · have hlt : j < i := by omega
      rw [List.getElem?_append_left (by omega)]
      exact ih hlt

/-- A `read` that is past its check and has `i` samples copies the rest out. -/
theorem copyOut_alone (cap r n : Nat) {i : Nat} (hi : i ≤ n) :
    Alone ReadOp.access (g, h) (.copy n r cap (copiedOut g.data cap r n i))
      ({ g with header := { g.header with readPos := u64 (r + n) } }, h.read true n)
      (.samples (copiedOut g.data cap r n n)) := by
  induction hi using Nat.decreasingInduction with
  | self =>
    apply Alone.last
    simp only [ReadOp.access, ReadOp.step, ReadOp.record, length_copiedOut, Nat.lt_irrefl,
      ↓reduceIte]
    rfl
  | of_succ i hlt ih =>
    apply Alone.more
    · simp only [ReadOp.access, ReadOp.step, ReadOp.record, length_copiedOut, hlt, ↓reduceIte,
        ← copiedOut_succ]
      rfl
    · exact ih

/-- What `read` copies out. -/
theorem copiedOut_self (mem : Nat → α) (cap r n : Nat) :
    copiedOut mem cap r n n =
      (let first := min n (cap - r % cap)
       memread mem (r % cap) first ++
        if 0 < n - first then memread mem 0 (n - first) else []) := by
  unfold copiedOut
  simp only
  generalize hfirst : min n (cap - r % cap) = first
  have hmin : min n first = first := by omega
  rw [hmin]
  split
  · rfl
  · have hzero : n - first = 0 := by omega
    rw [hzero]
    rfl

/-- The result of a whole `read`, as its steps return it. -/
def readResult : Option (List α) → ReadResult α
  | none => .refused
  | some buf => .samples buf

/-- `read` is its steps, run alone. -/
theorem read_alone (n : Nat) :
    Alone ReadOp.access (g, h) (.loadReadPos n) ((g.read n).2, h.read (g.read n).1.isSome n)
      (readResult (g.read n).1) := by
  apply Alone.more rfl
  apply Alone.more rfl
  unfold read
  simp only
  split
  · rename_i hfew
    apply Alone.last
    simp only [ReadOp.access, ReadOp.step, ReadOp.record, hfew, ↓reduceIte]
    rfl
  · rename_i henough
    apply Alone.more
    · simp only [ReadOp.access, ReadOp.step, ReadOp.record, henough, ↓reduceIte]
      rfl
    · have hcopy := g.copyOut_alone h g.header.capacity g.header.readPos n (Nat.zero_le _)
      rw [copiedOut_self] at hcopy
      have hnil : copiedOut g.data g.header.capacity g.header.readPos n 0 = [] :=
        List.eq_nil_of_length_eq_zero (length_copiedOut ..)
      rw [hnil] at hcopy
      exact hcopy

/-- `flush` is its steps, run alone. -/
theorem flush_alone :
    Alone ReadOp.access (g, h) .flushLoad (g.flush, h.flush g) .flushed :=
  Alone.more rfl (Alone.last rfl)

/-! ## The fill level -/

/-- A ring of `cap` samples with `fill` of them between its positions. -/
structure Level (cap : Nat) (g : Segment α) (fill : Nat) : Prop where
  capacity : g.header.capacity = cap
  le_cap : fill ≤ cap
  positions : ∃ consumed,
    g.header.readPos = u64 consumed ∧ g.header.writePos = u64 (consumed + fill)

variable {g} {cap fill : Nat}

/-- What the producer computes as the free space. -/
theorem Level.free_eq (h : g.Level cap fill) (hcap : cap < 2 ^ 64) :
    u64Sub g.header.capacity (u64Sub g.header.writePos g.header.readPos) = cap - fill := by
  obtain ⟨consumed, hr, hw⟩ := h.positions
  have hle := h.le_cap
  rw [h.capacity, hr, hw, Ring.free_eq hcap (Nat.le_add_right consumed fill) (by omega)]
  omega

/-- What the consumer computes as the available samples. -/
theorem Level.fill_eq (h : g.Level cap fill) (hcap : cap < 2 ^ 64) :
    u64Sub g.header.writePos g.header.readPos = fill := by
  obtain ⟨consumed, hr, hw⟩ := h.positions
  have hle := h.le_cap
  rw [hr, hw, Ring.fill_eq hcap (Nat.le_add_right consumed fill) (by omega)]
  omega

/-- A block that does not fit is refused. -/
theorem Level.write_refused (h : g.Level cap fill) (hcap : cap < 2 ^ 64) {data : List α}
    (hfull : cap < fill + data.length) : g.write data = (false, g) := by
  have hfree := h.free_eq hcap
  have hle := h.le_cap
  unfold write
  simp only [hfree]
  rw [if_pos (by omega)]

/-- A block that fits is written whole: the fill level and the heartbeat move. -/
theorem Level.write_accepted (h : g.Level cap fill) (hcap : cap < 2 ^ 64) {data : List α}
    (hroom : fill + data.length ≤ cap) :
    (g.write data).1 = true ∧ (g.write data).2.Level cap (fill + data.length) ∧
      (g.write data).2.header.heartbeat = u64 (g.header.heartbeat + 1) ∧
      (g.write data).2.header.active = g.header.active ∧
      (g.write data).2.header.readPos = g.header.readPos ∧
      (g.write data).2.data =
        copied g.data cap g.header.writePos data data.length := by
  have hfree := h.free_eq hcap
  obtain ⟨consumed, hr, hw⟩ := h.positions
  have hcopied := copied_length g.data cap g.header.writePos data
  unfold write
  simp only [hfree]
  rw [if_neg (by omega)]
  refine ⟨rfl, ⟨h.capacity, hroom, consumed, hr, ?_⟩, rfl, rfl, rfl, ?_⟩
  · show u64 (g.header.writePos + data.length) = _
    rw [hw, u64_u64_add, Nat.add_assoc]
  · rw [hcopied, h.capacity]

/-- A request for more samples than there are is refused. -/
theorem Level.read_refused (h : g.Level cap fill) (hcap : cap < 2 ^ 64) {n : Nat}
    (hfew : fill < n) : g.read n = (none, g) := by
  have hfill := h.fill_eq hcap
  unfold read
  simp only [hfill]
  rw [if_pos hfew]

/-- A request that can be served takes its samples out. -/
theorem Level.read_served (h : g.Level cap fill) (hcap : cap < 2 ^ 64) {n : Nat}
    (henough : n ≤ fill) :
    (g.read n).1 = some (copiedOut g.data cap g.header.readPos n n) ∧
      (g.read n).2.Level cap (fill - n) ∧
      (g.read n).2.header.heartbeat = g.header.heartbeat ∧
      (g.read n).2.header.active = g.header.active := by
  have hfill := h.fill_eq hcap
  have hle := h.le_cap
  obtain ⟨consumed, hr, hw⟩ := h.positions
  have hcopied := copiedOut_self g.data cap g.header.readPos n
  unfold read
  simp only [hfill]
  rw [if_neg (by omega)]
  refine ⟨?_, ⟨h.capacity, by omega, consumed + n, ?_, ?_⟩, rfl, rfl⟩
  · rw [hcopied, h.capacity]
  · show u64 (g.header.readPos + n) = _
    rw [hr, u64_u64_add]
  · show g.header.writePos = _
    rw [hw]
    congr 1
    omega

/-- After a `flush` the ring is empty. -/
theorem Level.flush (h : g.Level cap fill) : g.flush.Level cap 0 := by
  obtain ⟨consumed, _, hw⟩ := h.positions
  exact ⟨h.capacity, Nat.zero_le _, consumed + fill, hw, hw⟩

end Segment

end Noise
