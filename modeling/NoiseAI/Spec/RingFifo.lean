import NoiseAI.ForStd.Machine
import NoiseAI.Spec.RingInvariant

/-!
# The shared ring is a FIFO between one producer and one consumer

`Spsc` is one ring with a producer that calls `write` and a consumer that calls
`read` and `flush`, in any order and interleaved at every shared access. It keeps
what has happened so far: the blocks whose `write` returned `true`, and the
consumer's reads and flushes in order, each with the value of `read_pos` it
started from.

`Spsc.reachable` is the invariant of every run, and `spsc_fifo` what it means for
the samples.
-/

namespace Noise

variable {α : Type}

/-- What the consumer did with a range of positions. -/
inductive Consumption (α : Type) where
  | delivered (numSamples start : Nat) (buf : List α)
  | skipped (start stop : Nat)
  deriving DecidableEq, Repr

/-- The positions from `pos` to `pos'` are consumed one after the other, none twice and
    none left out. -/
def Consumption.Tiles : Nat → List (Consumption α) → Nat → Prop
  | pos, [], pos' => pos = pos'
  | pos, .delivered n start _ :: rest, pos' => start = pos ∧ Tiles (pos + n) rest pos'
  | pos, .skipped start stop :: rest, pos' => start = pos ∧ pos ≤ stop ∧ Tiles stop rest pos'

/-- One ring, its producer and its consumer. -/
structure Spsc (α : Type) where
  segment : Segment α
  producer : Option (WriteOp α)
  consumer : Option (ReadOp α)
  -- what has happened so far
  history : History α
  accepted : List (List α)
  consumption : List (Consumption α)

/-- Calls start between two operations of their side; `producer` and `consumer` are the
    next shared access of the operation in progress. -/
inductive SpscLabel (α : Type) where
  | write (data : List α)
  | read (numSamples : Nat)
  | flush
  | producer
  | consumer
  deriving DecidableEq, Repr

namespace Spsc

/-- A ring just created. -/
def init (capacity channels sampleRate : Nat) (mem : Nat → α) : Spsc α where
  segment := {
    size := u64 (sizeofHeader + capacity * sizeofFloat)
    header := .create capacity channels sampleRate
    data := mem }
  producer := none
  consumer := none
  history := .empty
  accepted := []
  consumption := []

/-- The block of a `write` that has returned `true`. -/
def accept : WriteOp α → Progress (WriteOp α) Bool → List (List α)
  | .addHeartbeat data, .returned true => [data]
  | _, _ => []

/-- What the consumer's access `op` on `g` consumed. -/
def consume (g : Segment α) : ReadOp α → Progress (ReadOp α) (ReadResult α) →
    List (Consumption α)
  | .copy n _ _ _, .returned (.samples buf) => [.delivered n g.header.readPos buf]
  | .flushStore w, _ => [.skipped g.header.readPos w]
  | _, _ => []

/-- One shared access, or the start of a call. -/
def step (s : Spsc α) : SpscLabel α → Option (Spsc α)
  | .write data =>
    match s.producer with
    | none => some { s with producer := some (.loadWritePos data) }
    | some _ => none
  | .read n =>
    match s.consumer with
    | none => some { s with consumer := some (.loadReadPos n) }
    | some _ => none
  | .flush =>
    match s.consumer with
    | none => some { s with consumer := some .flushLoad }
    | some _ => none
  | .producer =>
    match s.producer with
    | none => none
    | some op =>
      let (g, p) := op.step s.segment
      some { s with
        segment := g
        producer := p.op
        history := op.record s.history
        accepted := s.accepted ++ accept op p }
  | .consumer =>
    match s.consumer with
    | none => none
    | some op =>
      let (g, p) := op.step s.segment
      some { s with
        segment := g
        consumer := p.op
        history := op.record s.segment s.history
        consumption := s.consumption ++ consume s.segment op p }

/-! ## The invariant of a run -/

/-- The block that is published but whose `write` has not returned yet. -/
def pending : Option (WriteOp α) → List α
  | some (.addHeartbeat data) => data
  | _ => []

/-- What holds between any two shared accesses of a run. -/
structure Inv (cap : Nat) (s : Spsc α) : Prop where
  ring : Ring.Inv cap s.segment s.history s.producer s.consumer
  capacity : s.segment.header.capacity = cap
  accepted : s.history.written = s.accepted.flatten ++ pending s.producer
  heartbeat : s.segment.header.heartbeat = u64 s.accepted.length
  delivered : s.history.written.length < 2 ^ 64 →
    ∀ n start buf, .delivered n start buf ∈ s.consumption →
      start + n ≤ s.history.written.length ∧ buf = s.history.written.slice start n
  tiles : s.history.written.length < 2 ^ 64 →
    Consumption.Tiles 0 s.consumption s.history.consumed

end Spsc

/-- Tiling extends at the end. -/
theorem Consumption.Tiles.append {pos mid stop : Nat} {es es' : List (Consumption α)}
    (h : Tiles pos es mid) (h' : Tiles mid es' stop) : Tiles pos (es ++ es') stop := by
  induction es generalizing pos with
  | nil => cases h; exact h'
  | cons e es ih =>
    cases e with
    | delivered n start buf => exact ⟨h.1, ih h.2⟩
    | skipped start next => exact ⟨h.1, h.2.1, ih h.2.2⟩

namespace Spsc

variable {cap : Nat} {s : Spsc α}

/-- The invariant holds of a ring just created. -/
theorem Inv.init (capacity channels sampleRate : Nat) (mem : Nat → α) :
    Inv (u32 capacity) (init capacity channels sampleRate mem) where
  ring := Ring.Inv.fresh rfl rfl
  capacity := rfl
  accepted := rfl
  heartbeat := rfl
  delivered := nofun
  tiles := fun _ => rfl

/-- The accepted blocks, with the one that has not returned, stay what is published. -/
private theorem accepted_step {op : WriteOp α} {g : Segment α} {h : History α}
    {acc : List (List α)} (hacc : h.written = acc.flatten ++ pending (some op)) :
    (op.record h).written =
      (acc ++ accept op (op.step g).2).flatten ++ pending (op.step g).2.op := by
  cases op with
  | loadCapacity data w r =>
    simp only [WriteOp.step]
    split <;> simpa [WriteOp.record, accept, pending, Progress.op] using hacc
  | copy data w c i =>
    by_cases hlt : i < data.length
    · simpa [WriteOp.step, WriteOp.record, hlt, accept, pending, Progress.op] using hacc
    · -- `write_pos` is stored: the block is published, its `write` still to return
      simpa [WriteOp.step, WriteOp.record, hlt, accept, pending, Progress.op] using hacc
  | _ => simpa [WriteOp.step, WriteOp.record, accept, pending, Progress.op] using hacc

/-- The heartbeat moves exactly when a `write` returns `true`. -/
private theorem heartbeat_step {op : WriteOp α} {g : Segment α} {acc : List (List α)}
    (hbeat : g.header.heartbeat = u64 acc.length) :
    (op.step g).1.header.heartbeat = u64 (acc ++ accept op (op.step g).2).length := by
  cases op with
  | loadCapacity data w r =>
    simp only [WriteOp.step]
    split <;> simpa [accept] using hbeat
  | copy data w c i =>
    simp only [WriteOp.step]
    split <;> simpa [accept, Segment.setCell, Segment.setWritePos] using hbeat
  | addHeartbeat data =>
    simp [WriteOp.step, Segment.setHeartbeat, accept, hbeat]
  | _ => simpa [WriteOp.step, accept] using hbeat

/-- Every access of the producer keeps the invariant. -/
theorem Inv.producer_step {op : WriteOp α} (hpos : 0 < cap) (hcap : cap < 2 ^ 64)
    (hinv : Inv cap s) (hop : s.producer = some op) :
    Inv cap { s with
      segment := (op.step s.segment).1
      producer := (op.step s.segment).2.op
      history := op.record s.history
      accepted := s.accepted ++ accept op (op.step s.segment).2 } := by
  obtain ⟨hring, hheader, hacc, hbeat, hdel, htiles⟩ := hinv
  rw [hop] at hring hacc
  obtain ⟨data, hrec⟩ := op.record_eq s.history
  refine ⟨hring.write_step hpos hcap hheader, (op.step_capacity s.segment).trans hheader,
    accepted_step hacc, heartbeat_step hbeat, ?_, ?_⟩
  · intro hwrap n start buf hmem
    simp only [hrec, List.length_append] at hwrap ⊢
    obtain ⟨hstart, hbuf⟩ := hdel (by omega) n start buf hmem
    exact ⟨by omega, by rw [List.slice_append hstart]; exact hbuf⟩
  · intro hwrap
    simp only [hrec, List.length_append] at hwrap ⊢
    exact htiles (by omega)

/-- What a consumer access consumes is the next range of positions, with the samples
    published there. -/
private theorem consume_step {op : ReadOp α} {g : Segment α} {h : History α}
    (hp : Ring.Positions cap g h) (hop : op.Sound cap h) (hwrap : h.written.length < 2 ^ 64) :
    Consumption.Tiles h.consumed (consume g op (op.step g).2) (op.record g h).consumed ∧
    ∀ n start buf, .delivered n start buf ∈ consume g op (op.step g).2 →
      start + n ≤ h.written.length ∧ buf = h.written.slice start n := by
  have hle := hp.consumed_le
  have hread : g.header.readPos = h.consumed := hp.readPos.trans (u64_of_lt (by omega))
  cases op with
  | loadCapacity n r w =>
    simp only [ReadOp.step]
    refine ⟨by split <;> rfl, ?_⟩
    intro n' start buf' hmem
    split at hmem <;> cases hmem
  | copy n r c buf =>
    obtain ⟨hr, hc, hlen, hn, hbuf⟩ := hop
    by_cases hlt : buf.length < n
    · simp only [ReadOp.step, ReadOp.record, hlt, ↓reduceIte]
      refine ⟨rfl, ?_⟩
      intro n' start buf' hmem
      cases hmem
    · have hall : buf.length = n := by omega
      -- the last access stores `read_pos`, and the whole block is delivered
      simp only [ReadOp.step, ReadOp.record, hlt, ↓reduceIte, consume, hread]
      refine ⟨⟨rfl, rfl⟩, ?_⟩
      intro n' start buf' hmem
      cases List.mem_singleton.mp hmem
      exact ⟨hn, by rw [← hall]; exact hbuf hwrap⟩
  | flushStore w =>
    -- `flush` skips what was written when it loaded `write_pos`
    obtain ⟨written, hlo, hhi, hw⟩ := hop
    have hfit := hp.written_le
    have hw' : w = written := hw.trans (u64_of_lt (by omega))
    have hskip : u64Sub w h.consumed = w - h.consumed := u64Sub_of_le (by omega) (by omega)
    simp only [ReadOp.record, consume, hread, hskip]
    refine ⟨⟨rfl, by omega, ?_⟩, ?_⟩
    · show w = h.consumed + (w - h.consumed)
      omega
    · intro n start buf hmem
      cases List.mem_singleton.mp hmem
  | _ =>
    refine ⟨rfl, ?_⟩
    intro n start buf hmem
    cases hmem

/-- Every access of the consumer keeps the invariant. -/
theorem Inv.consumer_step {op : ReadOp α} (hpos : 0 < cap) (hcap : cap < 2 ^ 64)
    (hinv : Inv cap s) (hop : s.consumer = some op) :
    Inv cap { s with
      segment := (op.step s.segment).1
      consumer := (op.step s.segment).2.op
      history := op.record s.segment s.history
      consumption := s.consumption ++ consume s.segment op (op.step s.segment).2 } := by
  obtain ⟨hring, hheader, hacc, hbeat, hdel, htiles⟩ := hinv
  rw [hop] at hring
  have hwritten := op.record_written s.segment s.history
  obtain ⟨r, hseg⟩ := op.step_eq s.segment
  refine ⟨hring.read_step hpos hcap fun _ => hheader, ?_, ?_, ?_, ?_, ?_⟩
  · rw [hseg]; exact hheader
  · rw [hwritten]; exact hacc
  · rw [hseg]; exact hbeat
  · intro hwrap n start buf hmem
    rw [hwritten] at hwrap ⊢
    rcases List.mem_append.mp hmem with hold | hnew
    · exact hdel hwrap n start buf hold
    · exact (consume_step hring.positions (hring.reader op rfl) hwrap).2 n start buf hnew
  · intro hwrap
    rw [hwritten] at hwrap
    exact (htiles hwrap).append
      (consume_step hring.positions (hring.reader op rfl) hwrap).1

/-- Starting a call keeps the invariant; so does every shared access. -/
theorem Inv.step {s' : Spsc α} {l : SpscLabel α} (hpos : 0 < cap) (hcap : cap < 2 ^ 64)
    (hinv : Inv cap s) (hstep : s.step l = some s') : Inv cap s' := by
  cases l with
  | write data =>
    simp only [Spsc.step] at hstep
    split at hstep
    · rename_i hidle
      cases hstep
      have hacc := hinv.accepted
      rw [hidle] at hacc
      exact ⟨hinv.ring.start_write data, hinv.capacity, hacc, hinv.heartbeat, hinv.delivered,
        hinv.tiles⟩
    · exact nomatch hstep
  | read n =>
    simp only [Spsc.step] at hstep
    split at hstep
    · cases hstep
      exact ⟨hinv.ring.start_read n, hinv.capacity, hinv.accepted, hinv.heartbeat,
        hinv.delivered, hinv.tiles⟩
    · exact nomatch hstep
  | flush =>
    simp only [Spsc.step] at hstep
    split at hstep
    · cases hstep
      exact ⟨hinv.ring.start_flush, hinv.capacity, hinv.accepted, hinv.heartbeat,
        hinv.delivered, hinv.tiles⟩
    · exact nomatch hstep
  | producer =>
    simp only [Spsc.step] at hstep
    split at hstep
    · exact nomatch hstep
    · rename_i op hop
      cases hstep
      exact hinv.producer_step hpos hcap hop
  | consumer =>
    simp only [Spsc.step] at hstep
    split at hstep
    · exact nomatch hstep
    · rename_i op hop
      cases hstep
      exact hinv.consumer_step hpos hcap hop

/-- The invariant holds at the end of every run. -/
theorem reachable {capacity channels sampleRate : Nat} {mem : Nat → α} {ls : List (SpscLabel α)}
    (hcap : 0 < u32 capacity)
    (hrun : Machine.run step (init capacity channels sampleRate mem) ls = some s) :
    Inv (u32 capacity) s := by
  have hlt : u32 capacity < 2 ^ 64 :=
    Nat.lt_of_lt_of_le (Nat.mod_lt capacity (by decide)) (by decide)
  refine Machine.run_invariant (fun _ => True) (Inv (u32 capacity)) ?_
    (Inv.init capacity channels sampleRate mem) (fun _ _ => trivial) hrun
  intro s l s' _ hinv hstep
  exact hinv.step hcap hlt hstep

/-! ## What the invariant says about the samples -/

/-- A correct FIFO of capacity `cap`, as far as this state and what led to it show. -/
structure Fifo (cap : Nat) (s : Spsc α) : Prop where
  ordered : s.segment.header.readPos ≤ s.segment.header.writePos
  bounded : s.segment.header.writePos ≤ s.segment.header.readPos + cap
  -- `written` is what was written at the absolute positions below `write_pos`
  writePos : s.segment.header.writePos = s.history.written.length
  written : s.history.written = s.accepted.flatten ++ pending s.producer
  -- the cells being filled and the cells being copied out
  disjoint : ∀ data w c i n r c' buf,
    s.producer = some (.copy data w c i) → s.consumer = some (.copy n r c' buf) →
    ∀ a < data.length, ∀ b < n,
      Circular.blockCell c w data.length a ≠ Circular.blockCell c' r n b
  delivered : ∀ n start buf, .delivered n start buf ∈ s.consumption →
    start + n ≤ s.history.written.length ∧ buf.length = n ∧
    buf = s.history.written.slice start n
  consecutive : Consumption.Tiles 0 s.consumption s.segment.header.readPos
  heartbeat : s.segment.header.heartbeat = u64 s.accepted.length

/-- A block being filled and a block being copied out share no cell. -/
theorem Inv.disjoint {data buf : List α} {w c i n r c' : Nat} (hpos : 0 < cap)
    (hinv : Inv cap s) (hwrap : s.history.written.length < 2 ^ 64)
    (hproducer : s.producer = some (.copy data w c i))
    (hconsumer : s.consumer = some (.copy n r c' buf)) {a b : Nat} (ha : a < data.length)
    (hb : b < n) : Circular.blockCell c w data.length a ≠ Circular.blockCell c' r n b := by
  obtain ⟨hw, rfl, _, hroom, _⟩ := hinv.ring.writer _ hproducer
  obtain ⟨hr, rfl, _, havail, _⟩ := hinv.ring.reader _ hconsumer
  have hfit := hinv.ring.positions.written_le
  rw [hw, hr, Ring.blockCell_u64 hpos ha (by omega) hwrap,
    Ring.blockCell_u64 hpos hb (by omega) (by omega)]
  -- the block being read ends at or before `write_pos`, where the other one starts
  exact (Circular.mod_ne_of_lt (by omega) (by omega)).symm

/-- The invariant makes the ring a FIFO, as long as no position has wrapped. -/
theorem Inv.fifo (hpos : 0 < cap) (hinv : Inv cap s)
    (hwrap : s.history.written.length < 2 ^ 64) : Fifo cap s := by
  have hp := hinv.ring.positions
  have hle := hp.consumed_le
  have hfit := hp.written_le
  have hw : s.segment.header.writePos = s.history.written.length :=
    hp.writePos.trans (u64_of_lt hwrap)
  have hr : s.segment.header.readPos = s.history.consumed :=
    hp.readPos.trans (u64_of_lt (by omega))
  refine ⟨by omega, by omega, hw, hinv.accepted, ?_, ?_, ?_, hinv.heartbeat⟩
  · intro data w c i n r c' buf hproducer hconsumer a ha b hb
    exact hinv.disjoint hpos hwrap hproducer hconsumer ha hb
  · intro n start buf hmem
    obtain ⟨hstart, hbuf⟩ := hinv.delivered hwrap n start buf hmem
    exact ⟨hstart, by rw [hbuf, List.length_slice hstart], hbuf⟩
  · rw [hr]
    exact hinv.tiles hwrap

end Spsc

/-! ## Refused calls -/

/-- The shared accesses of one operation from `op` to its return with `res`, each with the
    segment before and after it. Between two of them the other side may do anything. -/
inductive Accesses {Op Res : Type} (step : Segment α → Op → Segment α × Progress Op Res) :
    Op → List (Segment α × Segment α) → Res → Prop where
  | last {op : Op} {g g' : Segment α} {res : Res} :
      step g op = (g', .returned res) → Accesses step op [(g, g')] res
  | more {op op' : Op} {g g' : Segment α} {rest : List (Segment α × Segment α)} {res : Res} :
      step g op = (g', .running op') → Accesses step op' rest res →
      Accesses step op ((g, g') :: rest) res

/-- The `write` has passed its capacity check. -/
def WriteOp.admitted : WriteOp α → Bool
  | .copy .. | .addHeartbeat _ => true
  | _ => false

/-- The `read` has passed its availability check (a `flush` has none). -/
def ReadOp.admitted : ReadOp α → Bool
  | .copy .. | .flushLoad | .flushStore _ => true
  | _ => false

/-- Before its check a `write` only loads. -/
theorem WriteOp.step_of_not_admitted {op : WriteOp α} (g : Segment α)
    (hop : op.admitted = false) : (op.step g).1 = g := by
  cases op with
  | loadCapacity data w r =>
    simp only [WriteOp.step]
    split <;> rfl
  | copy data w c i => cases hop
  | addHeartbeat data => cases hop
  | _ => rfl

/-- After its check a `write` never returns `false`, and stays past the check. -/
theorem WriteOp.step_of_admitted {op : WriteOp α} (g : Segment α) (hop : op.admitted = true) :
    (op.step g).2 ≠ .returned false ∧
      ∀ op', (op.step g).2 = .running op' → op'.admitted = true := by
  cases op with
  | copy data w c i =>
    simp only [WriteOp.step]
    constructor
    · intro h
      split at h <;> cases h
    · intro op' h
      split at h <;> cases h <;> rfl
  | addHeartbeat data =>
    constructor
    · intro h
      cases h
    · intro op' h
      cases h
  | _ => cases hop

/-- Before its check a `read` only loads. -/
theorem ReadOp.step_of_not_admitted {op : ReadOp α} (g : Segment α)
    (hop : op.admitted = false) : (op.step g).1 = g := by
  cases op with
  | loadCapacity n r w =>
    simp only [ReadOp.step]
    split <;> rfl
  | loadReadPos n => rfl
  | loadWritePos n r => rfl
  | _ => cases hop

/-- After its check a `read` never returns `false`, and stays past the check. -/
theorem ReadOp.step_of_admitted {op : ReadOp α} (g : Segment α) (hop : op.admitted = true) :
    (op.step g).2 ≠ .returned .refused ∧
      ∀ op', (op.step g).2 = .running op' → op'.admitted = true := by
  cases op with
  | copy n r c buf =>
    simp only [ReadOp.step]
    constructor
    · intro h
      split at h <;> cases h
    · intro op' h
      split at h
      · cases h
        rfl
      · cases h
  | flushLoad =>
    constructor
    · intro h
      cases h
    · intro op' h
      cases h
      rfl
  | flushStore w =>
    constructor
    · intro h
      cases h
    · intro op' h
      cases h
  | _ => cases hop

/-- An operation that only loads until a check, and cannot return `res` after it, has
    changed nothing when it returns `res`. -/
theorem Accesses.unchanged {Op Res : Type} {step : Segment α → Op → Segment α × Progress Op Res}
    {res : Res} (admitted : Op → Bool)
    (hbefore : ∀ op g, admitted op = false → (step g op).1 = g)
    (hafter : ∀ op g, admitted op = true →
      (step g op).2 ≠ .returned res ∧ ∀ op', (step g op).2 = .running op' → admitted op' = true)
    {op : Op} {accesses : List (Segment α × Segment α)} (h : Accesses step op accesses res) :
    admitted op = false ∧ ∀ a ∈ accesses, a.2 = a.1 := by
  induction h with
  | @last op g g' res hstep =>
    cases hop : admitted op with
    | true => exact absurd (by rw [hstep]) (hafter op g hop).1
    | false =>
      have hsame := hbefore op g hop
      rw [hstep] at hsame
      exact ⟨rfl, fun a ha => by rw [List.mem_singleton.mp ha]; exact hsame⟩
  | @more op op' g g' rest res hstep _ ih =>
    obtain ⟨hnext, hrest⟩ := ih hafter
    cases hop : admitted op with
    | true =>
      have hadm := (hafter op g hop).2 op' (by rw [hstep])
      rw [hnext] at hadm
      exact nomatch hadm
    | false =>
      have hsame := hbefore op g hop
      rw [hstep] at hsame
      refine ⟨rfl, fun a ha => ?_⟩
      rcases List.mem_cons.mp ha with rfl | ha
      · exact hsame
      · exact hrest a ha

/-- The shared ring is a correct single-producer single-consumer FIFO: in every run of one
    producer and one consumer, interleaved at every shared access, with fewer than
    `2 ^ 64` samples written, and a call that returns `false` has changed nothing. -/
theorem spsc_fifo {capacity channels sampleRate : Nat} {mem : Nat → α}
    {ls : List (SpscLabel α)} {s : Spsc α} (hcap : 0 < u32 capacity)
    (hrun : Machine.run Spsc.step (Spsc.init capacity channels sampleRate mem) ls = some s)
    (hfew : s.history.written.length < 2 ^ 64) :
    s.Fifo (u32 capacity) ∧
    (∀ data accesses, Accesses WriteOp.step (.loadWritePos data) accesses false →
      ∀ a ∈ accesses, a.2 = (a.1 : Segment α)) ∧
    (∀ n accesses, Accesses ReadOp.step (.loadReadPos n) accesses .refused →
      ∀ a ∈ accesses, a.2 = (a.1 : Segment α)) := by
  refine ⟨(Spsc.reachable hcap hrun).fifo hcap hfew, ?_, ?_⟩
  · intro data accesses h
    exact (h.unchanged WriteOp.admitted (fun _ g => WriteOp.step_of_not_admitted g)
      (fun _ g => WriteOp.step_of_admitted g)).2
  · intro n accesses h
    exact (h.unchanged ReadOp.admitted (fun _ g => ReadOp.step_of_not_admitted g)
      (fun _ g => ReadOp.step_of_admitted g)).2

/-- A ring of three samples: a block of two is taken out while the next block is refused
    once and then wraps. -/
def wrapRun : List (SpscLabel Nat) :=
  [.write [7, 8]] ++ List.replicate 7 .producer ++ [.read 2, .write [9, 10]] ++
    List.replicate 5 .consumer ++ List.replicate 3 .producer ++ [.consumer] ++
    [.write [9, 10]] ++ List.replicate 7 .producer ++ [.read 2] ++ List.replicate 6 .consumer

theorem spsc_fifo_wrapRun : ∃ s,
    Machine.run Spsc.step (Spsc.init 3 1 48000 fun _ => 0) wrapRun = some s ∧
    s.consumption = [.delivered 2 0 [7, 8], .delivered 2 2 [9, 10]] ∧
    s.Fifo 3 := by
  have hends : (Machine.run Spsc.step (Spsc.init 3 1 48000 fun _ => 0) wrapRun).map
      (fun s => (s.consumption, s.history.written)) =
      some ([.delivered 2 0 [7, 8], .delivered 2 2 [9, 10]], [7, 8, 9, 10]) := by decide
  obtain ⟨s, hrun, hs⟩ := Option.map_eq_some_iff.mp hends
  obtain ⟨hcons, hwritten⟩ := Prod.mk.inj hs
  have hfew : s.history.written.length < 2 ^ 64 := by rw [hwritten]; decide
  exact ⟨s, hrun, hcons, (spsc_fifo (by decide) hrun hfew).1⟩

end Noise
