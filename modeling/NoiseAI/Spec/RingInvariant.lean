import NoiseAI.Native.RingSteps
import NoiseAI.ForStd.List

/-!
# The ring invariant

What holds between any two shared accesses of one producer and one consumer on
one ring. `Ring.Inv cap g h wop rop` relates the segment `g` to its history `h`
while the producer is at `wop` and the consumer at `rop` (`none` between two
operations): the two positions are the two counts of the history reduced to 64
bits and at most `cap` apart, the cells between them hold the published samples,
and every value an operation in progress has loaded is still a safe
approximation of the shared one. A producer only moves `write_pos` forward and a
consumer only `read_pos`, so a stale snapshot errs on the side of refusing.

The statements about sample values carry the premise that fewer than `2 ^ 64`
samples were written: beyond it `write_pos % cap` jumps. The positions need no
such premise.
-/

namespace Noise

variable {α : Type} {cap : Nat} {g : Segment α} {h : History α}

/-- Where a `write` in progress stands. `h.written.length` is the absolute position
    behind `write_pos`, which only this operation moves. -/
def WriteOp.Sound (cap : Nat) (g : Segment α) (h : History α) : WriteOp α → Prop
  | .loadWritePos _ => True
  | .loadReadPos _ w => w = u64 h.written.length
  | .loadCapacity _ w r =>
    w = u64 h.written.length ∧
    ∃ consumed, consumed ≤ h.consumed ∧ h.written.length ≤ consumed + cap ∧ r = u64 consumed
  | .copy data w c i =>
    w = u64 h.written.length ∧ c = cap ∧ i ≤ data.length ∧
    h.written.length + data.length ≤ h.consumed + cap ∧
    (h.written.length < 2 ^ 64 →
      ∀ j (hj : j < data.length), j < i → g.data ((h.written.length + j) % cap) = data[j])
  | .addHeartbeat _ => True

/-- Where a `read` or `flush` in progress stands. `h.consumed` is the absolute position
    behind `read_pos`, which only this operation moves. -/
def ReadOp.Sound (cap : Nat) (h : History α) : ReadOp α → Prop
  | .loadReadPos _ => True
  | .loadWritePos _ r => r = u64 h.consumed
  | .loadCapacity _ r w =>
    r = u64 h.consumed ∧
    ∃ written, h.consumed ≤ written ∧ written ≤ h.written.length ∧ w = u64 written
  | .copy n r c buf =>
    r = u64 h.consumed ∧ c = cap ∧ buf.length ≤ n ∧ h.consumed + n ≤ h.written.length ∧
    (h.written.length < 2 ^ 64 → buf = h.written.slice h.consumed buf.length)
  | .flushLoad => True
  | .flushStore w =>
    ∃ written, h.consumed ≤ written ∧ written ≤ h.written.length ∧ w = u64 written

def ReadOp.isFlush : ReadOp α → Bool
  | .flushLoad | .flushStore _ => true
  | _ => false

/-- The block of a `write` in progress. -/
def WriteOp.block : WriteOp α → List α
  | .loadWritePos data | .loadReadPos data _ | .loadCapacity data _ _ | .copy data _ _ _
  | .addHeartbeat data => data

/-- The number of samples a `read` in progress was asked for. -/
def ReadOp.count : ReadOp α → Nat
  | .loadReadPos n | .loadWritePos n _ | .loadCapacity n _ _ | .copy n _ _ _ => n
  | .flushLoad | .flushStore _ => 0

def Progress.op {Op Res : Type} : Progress Op Res → Option Op
  | .running op => some op
  | .returned _ => none

namespace Ring

/-- The two counts behind the positions, at most `cap` apart. -/
structure Positions (cap : Nat) (g : Segment α) (h : History α) : Prop where
  writePos : g.header.writePos = u64 h.written.length
  readPos : g.header.readPos = u64 h.consumed
  consumed_le : h.consumed ≤ h.written.length
  written_le : h.written.length ≤ h.consumed + cap

/-- The cells from `read_pos` up to `write_pos` hold the samples published there. -/
def Contents (cap : Nat) (g : Segment α) (h : History α) : Prop :=
  h.written.length < 2 ^ 64 →
    ∀ p (hp : p < h.written.length), h.consumed ≤ p → g.data (p % cap) = h.written[p]

/-- The invariant of one ring with a producer at `wop` and a consumer at `rop`. -/
structure Inv (cap : Nat) (g : Segment α) (h : History α) (wop : Option (WriteOp α))
    (rop : Option (ReadOp α)) : Prop where
  positions : Positions cap g h
  contents : Contents cap g h
  writer : ∀ op, wop = some op → op.Sound cap g h
  reader : ∀ op, rop = some op → op.Sound cap h

/-! ## The fill level

The differences the code computes are the true ones, whatever the age of the
snapshots: `w - r` is the number of samples between the two positions. -/

/-- The 64-bit difference of a written and a consumed position. -/
theorem fill_eq {written consumed : Nat} (hcap : cap < 2 ^ 64) (hle : consumed ≤ written)
    (hfit : written ≤ consumed + cap) :
    u64Sub (u64 written) (u64 consumed) = written - consumed :=
  u64Sub_u64 hle (by omega)

/-- `cap - (w - r)` does not underflow. -/
theorem free_eq {written consumed : Nat} (hcap : cap < 2 ^ 64) (hle : consumed ≤ written)
    (hfit : written ≤ consumed + cap) :
    u64Sub cap (u64Sub (u64 written) (u64 consumed)) = cap - (written - consumed) := by
  rw [fill_eq hcap hle hfit]
  exact u64Sub_of_le hcap (by omega)

/-! ## Cells -/

/-- The cell of sample `i` of a block that starts at the 64-bit image of `start`. -/
theorem blockCell_u64 {start n i : Nat} (hcap : 0 < cap) (hi : i < n) (hn : n ≤ cap)
    (hstart : start < 2 ^ 64) :
    Circular.blockCell cap (u64 start) n i = (start + i) % cap := by
  rw [u64_of_lt hstart, Circular.blockCell_eq hcap hi hn]

/-- Filling a cell behind `write_pos` leaves the published cells alone. -/
theorem contents_setCell {start : Nat} {x : α} (hcont : Contents cap g h)
    (hlo : h.written.length ≤ start) (hhi : start < h.consumed + cap) :
    Contents cap (g.setCell (start % cap) x) h := by
  intro hwrap p hp hcons
  -- two positions less than `cap` apart do not share a cell
  have hne : p % cap ≠ start % cap := Circular.mod_ne_of_lt (by omega) (by omega)
  simp only [Segment.setCell, Function.update_of_ne hne]
  exact hcont hwrap p hp hcons

/-- Publishing a block whose samples are in place extends the published cells. -/
theorem contents_publish {data : List α} (hcont : Contents cap g h)
    (hdata : h.written.length < 2 ^ 64 →
      ∀ j (hj : j < data.length), g.data ((h.written.length + j) % cap) = data[j]) :
    Contents cap g { h with written := h.written ++ data } := by
  intro hwrap p hp hcons
  simp only [List.length_append] at hwrap hp hcons
  -- a position is an old one, or lies in the block just published
  by_cases hold : p < h.written.length
  · rw [List.getElem_append_left hold]
    exact hcont (by omega) p hold hcons
  · rw [List.getElem_append_right (by omega)]
    have hj := hdata (by omega) (p - h.written.length) (by omega)
    rwa [Nat.add_sub_cancel' (by omega)] at hj

/-- Consuming only shortens the range of cells that matter. -/
theorem contents_consume {n : Nat} (hcont : Contents cap g h) :
    Contents cap g { h with consumed := h.consumed + n } := by
  intro hwrap p hp hcons
  exact hcont hwrap p hp (by simp only at hcons; omega)

end Ring

/-! ## What an access leaves alone -/

/-- A `write` only appends to the history: its block, when it publishes it. -/
theorem WriteOp.record_cases (op : WriteOp α) (h : History α) :
    op.record h = h ∨ op.record h = { h with written := h.written ++ op.block } := by
  cases op with
  | copy data w c i =>
    simp only [WriteOp.record]
    split
    · exact .inl rfl
    · exact .inr rfl
  | _ => exact .inl rfl

theorem WriteOp.record_eq (op : WriteOp α) (h : History α) :
    ∃ data, op.record h = { h with written := h.written ++ data } := by
  rcases op.record_cases h with heq | heq
  · exact ⟨[], by rw [heq, List.append_nil]⟩
  · exact ⟨op.block, heq⟩

theorem ReadOp.record_written (op : ReadOp α) (g : Segment α) (h : History α) :
    (op.record g h).written = h.written := by
  cases op with
  | copy n r c buf => simp only [ReadOp.record]; split <;> rfl
  | _ => rfl

/-- A `read` or `flush` only consumes. -/
theorem ReadOp.consumed_le_record (op : ReadOp α) (g : Segment α) (h : History α) :
    h.consumed ≤ (op.record g h).consumed := by
  cases op with
  | copy n r c buf =>
    simp only [ReadOp.record]
    split
    · exact Nat.le_refl _
    · exact Nat.le_add_right _ _
  | flushStore w => exact Nat.le_add_right _ _
  | _ => exact Nat.le_refl _

/-- A `read` consumes its whole request at once, or nothing. -/
theorem ReadOp.record_cases {op : ReadOp α} (hop : op.isFlush = false) (g : Segment α)
    (h : History α) :
    op.record g h = h ∨ op.record g h = { h with consumed := h.consumed + op.count } := by
  cases op with
  | copy n r c buf =>
    simp only [ReadOp.record]
    split
    · exact .inl rfl
    · exact .inr rfl
  | flushLoad => exact nomatch hop
  | flushStore w => exact nomatch hop
  | _ => exact .inl rfl

/-- No `write` changes anything but the samples, `write_pos` and the heartbeat. -/
theorem WriteOp.step_eq (op : WriteOp α) (g : Segment α) :
    ∃ data w hb, (op.step g).1 =
      { g with data := data, header := { g.header with writePos := w, heartbeat := hb } } := by
  cases op with
  | loadCapacity data w r =>
    refine ⟨g.data, g.header.writePos, g.header.heartbeat, ?_⟩
    simp only [WriteOp.step]
    split <;> rfl
  | copy data w c i =>
    simp only [WriteOp.step]
    split
    · exact ⟨_, g.header.writePos, g.header.heartbeat, rfl⟩
    · exact ⟨g.data, _, g.header.heartbeat, rfl⟩
  | addHeartbeat data => exact ⟨g.data, g.header.writePos, _, rfl⟩
  | _ => exact ⟨g.data, g.header.writePos, g.header.heartbeat, rfl⟩

/-- No `write` changes the fields the constructor has set. -/
theorem WriteOp.step_capacity (op : WriteOp α) (g : Segment α) :
    (op.step g).1.header.capacity = g.header.capacity := by
  obtain ⟨data, w, hb, heq⟩ := op.step_eq g
  rw [heq]

/-- A `write` in progress keeps its block. -/
theorem WriteOp.step_block {op op' : WriteOp α} {g : Segment α}
    (h : (op.step g).2 = .running op') : op'.block = op.block := by
  cases op with
  | loadCapacity data w r =>
    simp only [WriteOp.step] at h
    split at h
    · exact nomatch h
    · cases h
      rfl
  | copy data w c i =>
    simp only [WriteOp.step] at h
    split at h
    · cases h
      rfl
    · cases h
      rfl
  | addHeartbeat data => exact nomatch h
  | _ =>
    cases h
    rfl

/-- No `read` or `flush` changes anything but `read_pos`. -/
theorem ReadOp.step_eq (op : ReadOp α) (g : Segment α) :
    ∃ r, (op.step g).1 = g.setReadPos r := by
  cases op with
  | loadCapacity n r w =>
    refine ⟨g.header.readPos, ?_⟩
    simp only [ReadOp.step]
    split <;> rfl
  | copy n r c buf =>
    simp only [ReadOp.step]
    split
    · exact ⟨g.header.readPos, rfl⟩
    · exact ⟨_, rfl⟩
  | flushStore w => exact ⟨w, rfl⟩
  | _ => exact ⟨g.header.readPos, rfl⟩

/-- An operation in progress stays a `read` of its count, or a `flush`. -/
theorem ReadOp.step_kind {op op' : ReadOp α} {g : Segment α}
    (h : (op.step g).2 = .running op') : op'.isFlush = op.isFlush ∧ op'.count = op.count := by
  cases op with
  | loadCapacity n r w =>
    simp only [ReadOp.step] at h
    split at h
    · exact nomatch h
    · cases h
      exact ⟨rfl, rfl⟩
  | copy n r c buf =>
    simp only [ReadOp.step] at h
    split at h
    · cases h
      exact ⟨rfl, rfl⟩
    · exact nomatch h
  | flushStore w => exact nomatch h
  | _ =>
    cases h
    exact ⟨rfl, rfl⟩

/-- An operation of the consumer is on record when it returns, not before. -/
theorem ReadOp.record_running {op op' : ReadOp α} {g : Segment α} (h : History α)
    (hstep : (op.step g).2 = .running op') : op.record g h = h := by
  cases op with
  -- only the last access of a `copy` or a `flush` is on record, and neither continues
  | copy n r c buf =>
    simp only [ReadOp.step] at hstep
    split at hstep
    · rename_i hmore
      simp only [ReadOp.record, hmore, ↓reduceIte]
    · exact nomatch hstep
  | flushStore w => exact nomatch hstep
  | _ => rfl

/-- Only a `read` that has copied all its samples returns them. -/
theorem ReadOp.step_samples {op : ReadOp α} {g : Segment α} {buf : List α}
    (h : (op.step g).2 = .returned (.samples buf)) :
    ∃ n r c, op = .copy n r c buf ∧ ¬ buf.length < n := by
  cases op with
  | loadCapacity n r w =>
    simp only [ReadOp.step] at h
    split at h
    · exact nomatch h
    · exact nomatch h
  | copy n r c buf' =>
    simp only [ReadOp.step] at h
    split at h
    · exact nomatch h
    · rename_i hdone
      cases h
      exact ⟨n, r, c, rfl, hdone⟩
  | _ => exact nomatch h

/-! ## What the other side may do meanwhile

A producer step only appends to the history, a consumer step only consumes. Both
keep the snapshots the other side has taken sound. -/

/-- Appending to the written samples keeps a consumer's snapshot sound. -/
theorem ReadOp.Sound.written_append {op : ReadOp α} (data : List α)
    (hop : op.Sound cap h) : op.Sound cap { h with written := h.written ++ data } := by
  cases op with
  | loadReadPos n => trivial
  | loadWritePos n r => exact hop
  -- a snapshot of `write_pos` may lag behind, so it stays one of the past positions
  | loadCapacity n r w =>
    obtain ⟨hr, written, hlo, hhi, hw⟩ := hop
    exact ⟨hr, written, hlo, by simp only [List.length_append]; omega, hw⟩
  | copy n r c buf =>
    obtain ⟨hr, hc, hlen, hn, hbuf⟩ := hop
    refine ⟨hr, hc, hlen, by simp only [List.length_append]; omega, fun hwrap => ?_⟩
    simp only [List.length_append] at hwrap
    show buf = (h.written ++ data).slice h.consumed buf.length
    rw [List.slice_append (by omega)]
    exact hbuf (by omega)
  | flushLoad => trivial
  | flushStore w =>
    obtain ⟨written, hlo, hhi, hw⟩ := hop
    exact ⟨written, hlo, by simp only [List.length_append]; omega, hw⟩

/-- Consuming samples and moving `read_pos` keeps a producer's snapshot sound. -/
theorem WriteOp.Sound.consume {op : WriteOp α} {g' : Segment α} (n : Nat)
    (hdata : g'.data = g.data) (hop : op.Sound cap g h) :
    op.Sound cap g' { h with consumed := h.consumed + n } := by
  cases op with
  | loadWritePos data => trivial
  | loadReadPos data w => exact hop
  -- a snapshot of `read_pos` may lag behind: the free space is underestimated
  | loadCapacity data w r =>
    obtain ⟨hw, consumed, hle, hfit, hr⟩ := hop
    exact ⟨hw, consumed, by simp only; omega, hfit, hr⟩
  | copy data w c i =>
    obtain ⟨hw, hc, hi, hfit, hcells⟩ := hop
    refine ⟨hw, hc, hi, by simp only; omega, fun hwrap j hj hji => ?_⟩
    rw [hdata]
    exact hcells hwrap j hj hji
  | addHeartbeat data => trivial

/-! ## Steps -/

namespace Ring

variable {wop : Option (WriteOp α)} {rop : Option (ReadOp α)}

/-- A fresh ring: both positions are zero and nothing was published. -/
theorem Inv.fresh (hw : g.header.writePos = 0) (hr : g.header.readPos = 0) :
    Inv cap g History.empty none none := by
  refine ⟨⟨hw, hr, Nat.le_refl 0, Nat.zero_le _⟩, ?_, nofun, nofun⟩
  intro _ p hp
  exact absurd hp (Nat.not_lt_zero p)

/-- The invariant looks only at the positions and the cells of the segment. -/
theorem Inv.congr {g' : Segment α} (hinv : Inv cap g h wop rop)
    (hw : g'.header.writePos = g.header.writePos) (hr : g'.header.readPos = g.header.readPos)
    (hdata : g'.data = g.data) : Inv cap g' h wop rop := by
  obtain ⟨⟨hwp, hrp, hle, hfit⟩, hcont, hwriter, hreader⟩ := hinv
  refine ⟨⟨hw.trans hwp, hr.trans hrp, hle, hfit⟩, ?_, ?_, hreader⟩
  · intro hwrap p hp hcons
    rw [hdata]
    exact hcont hwrap p hp hcons
  · intro op hop
    exact (hwriter op hop).consume 0 hdata

/-- The producer may give up an operation at any point, as it does when its process dies. -/
theorem Inv.abandon_write (hinv : Inv cap g h wop rop) : Inv cap g h none rop :=
  ⟨hinv.positions, hinv.contents, nofun, hinv.reader⟩

theorem Inv.abandon_read (hinv : Inv cap g h wop rop) : Inv cap g h wop none :=
  ⟨hinv.positions, hinv.contents, hinv.writer, nofun⟩

theorem Inv.start_write (data : List α) (hinv : Inv cap g h wop rop) :
    Inv cap g h (some (.loadWritePos data)) rop := by
  refine ⟨hinv.positions, hinv.contents, ?_, hinv.reader⟩
  rintro op ⟨⟩
  trivial

theorem Inv.start_read (n : Nat) (hinv : Inv cap g h wop rop) :
    Inv cap g h wop (some (.loadReadPos n)) := by
  refine ⟨hinv.positions, hinv.contents, hinv.writer, ?_⟩
  rintro op ⟨⟩
  trivial

theorem Inv.start_flush (hinv : Inv cap g h wop rop) : Inv cap g h wop (some .flushLoad) := by
  refine ⟨hinv.positions, hinv.contents, hinv.writer, ?_⟩
  rintro op ⟨⟩
  trivial

/-- Every access of a `write` keeps the ring invariant. -/
theorem Inv.write_step {op : WriteOp α} (hpos : 0 < cap) (hcap : cap < 2 ^ 64)
    (hheader : g.header.capacity = cap) (hinv : Inv cap g h (some op) rop) :
    Inv cap (op.step g).1 (op.record h) (op.step g).2.op rop := by
  obtain ⟨hp, hcont, hwriter, hreader⟩ := hinv
  have hop : op.Sound cap g h := hwriter op rfl
  cases op with
  | loadWritePos data =>
    refine ⟨hp, hcont, ?_, hreader⟩
    rintro _ ⟨⟩
    exact hp.writePos
  | loadReadPos data w =>
    refine ⟨hp, hcont, ?_, hreader⟩
    rintro _ ⟨⟩
    exact ⟨hop, h.consumed, Nat.le_refl _, hp.written_le, hp.readPos⟩
  -- the availability check, on snapshots that may be old
  | loadCapacity data w r =>
    obtain ⟨hw, consumed, hle, hfit, hr⟩ := hop
    have hfree : u64Sub g.header.capacity (u64Sub w r) = cap - (h.written.length - consumed) := by
      rw [hheader, hw, hr]
      exact free_eq hcap (Nat.le_trans hle hp.consumed_le) hfit
    simp only [WriteOp.step, WriteOp.record, hfree]
    split
    · exact ⟨hp, hcont, nofun, hreader⟩
    · rename_i hroom
      refine ⟨hp, hcont, ?_, hreader⟩
      rintro _ ⟨⟩
      have hcons := hp.consumed_le
      refine ⟨hw, hheader, Nat.zero_le _, by omega, fun _ j _ hj => ?_⟩
      exact absurd hj (Nat.not_lt_zero j)
  | copy data w c i =>
    obtain ⟨hw, hc, hi, hfit, hcells⟩ := hop
    subst hc
    have hcons := hp.consumed_le
    by_cases hlt : i < data.length
    · -- one more sample goes into a free cell
      simp only [WriteOp.step, WriteOp.record, hlt, ↓reduceDIte, ↓reduceIte, Progress.op]
      have hcell : h.written.length < 2 ^ 64 →
          Circular.blockCell c w data.length i = (h.written.length + i) % c := by
        intro hwrap
        rw [hw]
        exact blockCell_u64 hpos hlt (by omega) hwrap
      refine ⟨⟨hp.writePos, hp.readPos, hp.consumed_le, hp.written_le⟩, ?_, ?_, hreader⟩
      · intro hwrap
        rw [hcell hwrap]
        exact contents_setCell hcont (by omega) (by omega) hwrap
      · rintro _ ⟨⟩
        refine ⟨hw, rfl, hlt, hfit, fun hwrap j hj hji => ?_⟩
        simp only [Segment.setCell, hcell hwrap]
        rcases Nat.lt_succ_iff_lt_or_eq.mp hji with hold | rfl
        · have hne : (h.written.length + j) % c ≠ (h.written.length + i) % c :=
            Circular.mod_ne_of_lt (by omega) (by omega)
          rw [Function.update_of_ne hne]
          exact hcells hwrap j hj hold
        · rw [Function.update_self]
    · -- the block is in place: `write_pos` publishes it
      have hall : i = data.length := by omega
      simp only [WriteOp.step, WriteOp.record, hlt, ↓reduceDIte, ↓reduceIte, Progress.op]
      refine ⟨⟨?_, hp.readPos, ?_, ?_⟩, ?_, ?_, ?_⟩
      · simp only [Segment.setWritePos, hw, u64_u64_add, List.length_append]
      · simp only [List.length_append]; omega
      · simp only [List.length_append]; omega
      · exact contents_publish hcont fun hwrap j hj => hcells hwrap j hj (by omega)
      · rintro _ ⟨⟩
        trivial
      · exact fun op hop => (hreader op hop).written_append data
  -- the heartbeat is no concern of the ring
  | addHeartbeat data =>
    exact ⟨⟨hp.writePos, hp.readPos, hp.consumed_le, hp.written_le⟩, hcont, nofun, hreader⟩

/-- Every access of a `read` or `flush` keeps the ring invariant. -/
theorem Inv.read_step {op : ReadOp α} (hpos : 0 < cap) (hcap : cap < 2 ^ 64)
    (hheader : op.isFlush = false → g.header.capacity = cap)
    (hinv : Inv cap g h wop (some op)) :
    Inv cap (op.step g).1 (op.record g h) wop (op.step g).2.op := by
  obtain ⟨hp, hcont, hwriter, hreader⟩ := hinv
  have hop : op.Sound cap h := hreader op rfl
  cases op with
  | loadReadPos n =>
    refine ⟨hp, hcont, hwriter, ?_⟩
    rintro _ ⟨⟩
    exact hp.readPos
  | loadWritePos n r =>
    refine ⟨hp, hcont, hwriter, ?_⟩
    rintro _ ⟨⟩
    exact ⟨hop, h.written.length, hp.consumed_le, Nat.le_refl _, hp.writePos⟩
  -- what the snapshot shows as available was published before it was taken
  | loadCapacity n r w =>
    obtain ⟨hr, written, hlo, hhi, hw⟩ := hop
    have hfill : u64Sub w r = written - h.consumed := by
      have hfit := hp.written_le
      rw [hw, hr]
      exact fill_eq hcap hlo (by omega)
    simp only [ReadOp.step, ReadOp.record, hfill]
    split
    · exact ⟨hp, hcont, hwriter, nofun⟩
    · rename_i hroom
      refine ⟨hp, hcont, hwriter, ?_⟩
      rintro _ ⟨⟩
      exact ⟨hr, hheader rfl, Nat.zero_le _, by omega, fun _ => rfl⟩
  | copy n r c buf =>
    obtain ⟨hr, hc, hlen, hn, hbuf⟩ := hop
    subst hc
    have hfit := hp.written_le
    by_cases hlt : buf.length < n
    · -- one more sample comes out of a published cell
      simp only [ReadOp.step, ReadOp.record, hlt, ↓reduceIte, Progress.op]
      refine ⟨hp, hcont, hwriter, ?_⟩
      rintro _ ⟨⟩
      refine ⟨hr, rfl, by simp only [List.length_append, List.length_singleton]; omega, hn, ?_⟩
      intro hwrap
      have hcell : Circular.blockCell c r n buf.length = (h.consumed + buf.length) % c := by
        rw [hr]
        exact blockCell_u64 hpos hlt (by omega) (by omega)
      have hsample := hcont hwrap (h.consumed + buf.length) (by omega) (by omega)
      rw [hcell, hsample, List.length_append, List.length_singleton,
        List.slice_succ h.written (by omega), ← hbuf hwrap]
    · -- the block is out: `read_pos` moves past it
      simp only [ReadOp.step, ReadOp.record, hlt, ↓reduceIte, Progress.op]
      refine ⟨⟨hp.writePos, ?_, hn, ?_⟩, contents_consume hcont, ?_, nofun⟩
      · simp only [Segment.setReadPos, hr, u64_u64_add]
      · simp only; omega
      · exact fun op hop => (hwriter op hop).consume n rfl
  -- the mark of a `flush` is the `write_pos` of this moment
  | flushLoad =>
    refine ⟨hp, hcont, hwriter, ?_⟩
    rintro _ ⟨⟩
    exact ⟨h.written.length, hp.consumed_le, Nat.le_refl _, hp.writePos⟩
  -- `read_pos` jumps to the mark, whatever was written since
  | flushStore w =>
    obtain ⟨written, hlo, hhi, hw⟩ := hop
    have hfit := hp.written_le
    have hskip : u64Sub w g.header.readPos = written - h.consumed := by
      rw [hw, hp.readPos]
      exact fill_eq hcap hlo (by omega)
    simp only [ReadOp.step, ReadOp.record, hskip, Progress.op]
    refine ⟨⟨hp.writePos, ?_, ?_, ?_⟩, contents_consume hcont, ?_, nofun⟩
    · simp only [Segment.setReadPos, hw, Nat.add_sub_cancel' hlo]
    · simp only; omega
    · simp only; omega
    · exact fun op hop => (hwriter op hop).consume _ rfl

end Ring

end Noise
