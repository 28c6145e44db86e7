import NoiseAI.Spec.ShmInvariant

/-!
# The driver's steps keep the invariant

A step of the driver works on its handler and the log (`Inv.driver_local`), or is one access of
a `flush` or a `read` (`Inv.flush_access`, `Inv.read_access`).
-/

namespace Noise

variable {α : Type}

namespace IOHandler

theorem markConnected_sharedBuffer (io : IOHandler) :
    io.markConnected.sharedBuffer = io.sharedBuffer := by
  obtain ⟨underrun, heq⟩ := io.markConnected_eq
  rw [heq]

theorem checkHeartbeat_sharedBuffer (io : IOHandler) (hb : Nat) :
    (io.checkHeartbeat hb).2.sharedBuffer = io.sharedBuffer := by
  obtain ⟨stale, heq⟩ := io.checkHeartbeat_eq hb
  rw [heq]

theorem segment_congr {io io' : IOHandler} (h : io'.sharedBuffer = io.sharedBuffer) :
    io'.segment = io.segment := by
  unfold segment
  rw [h]

theorem segment_of_none {io : IOHandler} (h : io.sharedBuffer = none) : io.segment = none := by
  unfold segment
  rw [h]
  rfl

end IOHandler

namespace ShmSystem

variable {s : ShmSystem α} {i : Nat}

/-- The system after a step of the driver: segment `i` and its history, the flush mark, the
    driver and the log. -/
def driven (s : ShmSystem α) (m : Shm α) (hist : Nat → History α) (flushed : Nat)
    (d : Driver α) (log : List (Callback α)) : ShmSystem α :=
  { s with shm := m, history := hist, flushed := flushed, driver := d, log := log }

/-- The log gains at most a silent callback. -/
def Silent (log log' : List (Callback α)) : Prop :=
  log' = log ∨ ∃ e : Callback α, e.answer = none ∧ log' = log ++ [e]

theorem Silent.mem {log log' : List (Callback α)} (h : Silent log log') {e : Callback α}
    (he : e ∈ log') {k : Nat} {buf : List α} (hanswer : e.answer = some (k, buf)) : e ∈ log := by
  rcases h with rfl | ⟨f, hf, rfl⟩
  · exact he
  · rcases List.mem_append.mp he with he | he
    · exact he
    · rw [List.mem_singleton.mp he, hf] at hanswer
      exact nomatch hanswer

theorem Silent.ordered {log log' : List (Callback α)} (h : Silent log log')
    (hordered : log.Pairwise Before) : log'.Pairwise Before := by
  rcases h with rfl | ⟨f, hf, rfl⟩
  · exact hordered
  · refine List.pairwise_append.mpr ⟨hordered, List.pairwise_singleton _ _, ?_⟩
    intro e _ f' hf' i buf _ j buf' hanswer
    rw [List.mem_singleton.mp hf', hf] at hanswer
    exact nomatch hanswer

/-- The log over a step of the driver that answers at most silence. -/
theorem LogInv.silent {s' : ShmSystem α} (hinv : s.Inv) (h : DriverMoves s s')
    (hlog : Silent s.log s'.log) : s'.LogInv := by
  constructor
  · intro e he j buf hanswer
    have hdel := hinv.log.delivered e (hlog.mem he hanswer) j buf hanswer
    exact hdel.grow (Nat.le_of_eq h.created.symm) (h.consumed j)
      ⟨[], by rw [h.written, List.append_nil]⟩
      (hinv.segments j hdel.created).ring.positions.consumed_le
  · exact hlog.ordered hinv.log.ordered

/-! ## Steps that touch no ring -/

theorem driven_moves (s : ShmSystem α) (d : Driver α) (log : List (Callback α)) :
    DriverMoves s (s.driven s.shm s.history s.flushed d log) :=
  ⟨rfl, rfl, rfl, rfl, fun _ => rfl, fun _ => rfl, fun _ => rfl, fun _ => Nat.le_refl _⟩

theorem Mapped.driven {d : Driver α} {log : List (Callback α)} (h : s.Mapped i)
    (hbuf : d.io.sharedBuffer = s.driver.io.sharedBuffer) (hlog : Silent s.log log) :
    (s.driven s.shm s.history s.flushed d log).Mapped i := by
  refine ⟨h.created, h.size, ?_, ?_⟩
  · intro b hb
    exact h.mapping b (hbuf.symm.trans hb)
  · intro e he k buf hanswer
    exact h.latest e (hlog.mem he hanswer) k buf hanswer

/-- A step on the handler and the log. -/
theorem Inv.driver_local {d : Driver α} {log : List (Callback α)} (hinv : s.Inv)
    (hlog : Silent s.log log)
    (hreader : ∀ i, (s.driven s.shm s.history s.flushed d log).reader i = none)
    (hvalid : d.io.segment = none → d.io.sharedBuffer = none)
    (hmapped : ∀ i, d.io.segment = some i →
      (s.driven s.shm s.history s.flushed d log).Mapped i)
    (hflushed : ∀ i, d.io.segment = some i → s.flushed ≤ (s.history i).consumed)
    (htask : (s.driven s.shm s.history s.flushed d log).DriverTaskInv d.task) :
    (s.driven s.shm s.history s.flushed d log).Inv := by
  apply hinv.of_driver (driven_moves s d log)
  · intro i hi
    exact (hinv.segments i hi).transfer rfl rfl rfl (.inl rfl) (.inr (hreader i))
  · exact ⟨hvalid, hmapped, fun i hi _ => hflushed i hi, htask⟩
  · exact LogInv.silent hinv (driven_moves s d log) hlog

/-- The driver gives its segment up, or has none. -/
theorem Inv.driver_drop {d : Driver α} {log : List (Callback α)} (hinv : s.Inv)
    (hlog : Silent s.log log) (hnone : d.io.sharedBuffer = none)
    (hreader : ∀ i, (s.driven s.shm s.history s.flushed d log).reader i = none)
    (htask : (s.driven s.shm s.history s.flushed d log).DriverTaskInv d.task) :
    (s.driven s.shm s.history s.flushed d log).Inv := by
  have hseg := IOHandler.segment_of_none hnone
  apply hinv.driver_local hlog hreader
  · exact fun _ => hnone
  · intro i hi
    rw [hseg] at hi
    exact nomatch hi
  · intro i hi
    rw [hseg] at hi
    exact nomatch hi
  · exact htask

/-- The driver keeps its segment. -/
theorem Inv.driver_keep {d : Driver α} {log : List (Callback α)} (hinv : s.Inv)
    (hlog : Silent s.log log) (hsame : d.io.sharedBuffer = s.driver.io.sharedBuffer)
    (hidle : s.flushing = false)
    (hreader : ∀ i, (s.driven s.shm s.history s.flushed d log).reader i = none)
    (htask : (s.driven s.shm s.history s.flushed d log).DriverTaskInv d.task) :
    (s.driven s.shm s.history s.flushed d log).Inv := by
  have hseg := IOHandler.segment_congr hsame
  apply hinv.driver_local hlog hreader
  · intro hnone
    rw [hsame]
    exact hinv.driver.valid (hseg.symm.trans hnone)
  · intro i hi
    rw [hseg] at hi
    exact (hinv.driver.mapped i hi).driven hsame hlog
  · intro i hi
    rw [hseg] at hi
    exact hinv.driver.flushed i hi hidle
  · exact htask

theorem Inv.unavailable (hinv : s.Inv) (io : IOHandler) (hnone : io.sharedBuffer = none)
    (request : Option Nat) : (s.unavailable io request).Inv := by
  cases request with
  | none => exact hinv.driver_drop (d := ⟨io, .idle⟩) (.inl rfl) hnone (fun _ => rfl) trivial
  | some bytesCount =>
    exact hinv.driver_drop (d := ⟨{ io with wasConnected := false }, .idle⟩)
      (.inr ⟨_, rfl, rfl⟩) hnone (fun _ => rfl) trivial

theorem Inv.silence {io : IOHandler} (hinv : s.Inv)
    (hbuf : io.sharedBuffer = none ∨
      (io.sharedBuffer = s.driver.io.sharedBuffer ∧ s.flushing = false))
    (bytesCount : Nat) : (s.silence io bytesCount).Inv := by
  rcases hbuf with hnone | ⟨hsame, hidle⟩
  · exact hinv.driver_drop (d := ⟨io, .idle⟩) (.inr ⟨_, rfl, rfl⟩) hnone (fun _ => rfl) trivial
  · exact hinv.driver_keep (d := ⟨io, .idle⟩) (.inr ⟨_, rfl, rfl⟩) hsame hidle (fun _ => rfl)
      trivial

/-- The start of `ensureConnected`, by an idle driver. -/
theorem Inv.ensureConnected {io : IOHandler} (hinv : s.Inv) (hidle : s.driver.task = .idle)
    (hbuf : io.sharedBuffer = none ∨ io.sharedBuffer = s.driver.io.sharedBuffer)
    (request : Option Nat) :
    (s.ensureConnected io request).Inv := by
  have hflushing : s.flushing = false := by
    unfold flushing
    rw [hidle]
  unfold ShmSystem.ensureConnected
  cases hseg : io.segment with
  | some i =>
    -- a handler that holds a segment goes on to the callback, if there is one
    have hsame : io.sharedBuffer = s.driver.io.sharedBuffer := by
      rcases hbuf with h | h
      · rw [IOHandler.segment_of_none h] at hseg
        exact nomatch hseg
      · exact h
    cases request with
    | none =>
      exact hinv.driver_keep (d := ⟨io, .idle⟩) (.inl rfl) hsame hflushing (fun _ => rfl) trivial
    | some bytesCount =>
      have hmark := io.markConnected_sharedBuffer
      refine hinv.driver_keep (d := ⟨io.markConnected, .isActive i bytesCount⟩) (.inl rfl)
        (hmark.trans hsame) hflushing (fun _ => rfl) ?_
      exact (IOHandler.segment_congr hmark).trans hseg
  | none =>
    -- a buffer without a segment is none
    have hnone : io.sharedBuffer = none := by
      rcases hbuf with h | h
      · exact h
      · rw [h]
        exact hinv.driver.valid ((IOHandler.segment_congr h).symm.trans hseg)
    simp only
    split
    · exact hinv.unavailable { io with reconnectCountdown := io.reconnectCountdown - 1 }
        hnone request
    · exact hinv.driver_drop (d := ⟨io.beginAttempt, .shmOpen request⟩) (.inl rfl) hnone
        (fun _ => rfl) hnone

/-! ## Steps that access a ring -/

/-- The system after the next access of `op` to segment `i`. -/
def accessed (s : ShmSystem α) (i : Nat) (op : ReadOp α) (flushed : Nat) (d : Driver α)
    (log : List (Callback α)) : ShmSystem α :=
  s.driven (s.shm.modify i fun g => (op.step g).1)
    (Function.update s.history i (op.record (s.shm.segment i) (s.history i))) flushed d log

section Accessed

variable {op : ReadOp α} {flushed : Nat} {d : Driver α} {log : List (Callback α)}

theorem accessed_segment :
    (s.accessed i op flushed d log).shm.segment i = (op.step (s.shm.segment i)).1 :=
  Function.update_self ..

theorem accessed_history :
    (s.accessed i op flushed d log).history i = op.record (s.shm.segment i) (s.history i) :=
  Function.update_self ..

theorem accessed_segment_of_ne {j : Nat} (hj : j ≠ i) :
    (s.accessed i op flushed d log).shm.segment j = s.shm.segment j :=
  Function.update_of_ne hj ..

theorem accessed_history_of_ne {j : Nat} (hj : j ≠ i) :
    (s.accessed i op flushed d log).history j = s.history j :=
  Function.update_of_ne hj ..

theorem accessed_moves : DriverMoves s (s.accessed i op flushed d log) := by
  obtain ⟨r, hstep⟩ := op.step_eq (s.shm.segment i)
  refine ⟨rfl, rfl, rfl, rfl, ?_, ?_, ?_, ?_⟩
  · intro j
    by_cases hj : j = i
    · subst hj
      rw [accessed_segment, hstep]
      rfl
    · rw [accessed_segment_of_ne hj]
  · intro j
    by_cases hj : j = i
    · subst hj
      rw [accessed_segment, hstep]
      rfl
    · rw [accessed_segment_of_ne hj]
  · intro j
    by_cases hj : j = i
    · subst hj
      rw [accessed_history, ReadOp.record_written]
    · rw [accessed_history_of_ne hj]
  · intro j
    by_cases hj : j = i
    · subst hj
      rw [accessed_history]
      exact op.consumed_le_record _ _
    · rw [accessed_history_of_ne hj]

/-- An access keeps the mapping whole. -/
theorem Mapped.accessed {j : Nat} (h : s.Mapped j)
    (hbuf : d.io.sharedBuffer = s.driver.io.sharedBuffer)
    (hlatest : (s.accessed i op flushed d log).Latest j) :
    (s.accessed i op flushed d log).Mapped j := by
  refine ⟨h.created, ?_, fun b hb => h.mapping b (hbuf.symm.trans hb), hlatest⟩
  rw [accessed_moves.size]
  exact h.size

/-- One access of the operation in progress on segment `i`. -/
theorem Inv.accessed (hinv : s.Inv) (hcreated : i < s.shm.created)
    (hreader : s.reader i = some op)
    (hcap : op.isFlush = false → (s.shm.segment i).header.capacity = s.requested i)
    (heven : (op.record (s.shm.segment i) (s.history i)).consumed % 2 = 0)
    (hnext : (s.accessed i op flushed d log).reader i = (op.step (s.shm.segment i)).2.op)
    (hother : ∀ j, j ≠ i → (s.accessed i op flushed d log).reader j = none)
    (hdriver : (s.accessed i op flushed d log).DriverInv)
    (hlog : (s.accessed i op flushed d log).LogInv) :
    (s.accessed i op flushed d log).Inv := by
  apply hinv.of_driver accessed_moves
  · intro j hj
    by_cases hji : j = i
    · -- only segment `i` and its history change
      subst hji
      obtain ⟨hpos, hlt, hsize, hactive, hring, hwritten, _⟩ := hinv.segments j hcreated
      obtain ⟨r, hstep⟩ := op.step_eq (s.shm.segment j)
      rw [hreader] at hring
      refine ⟨hpos, hlt, ?_, ?_, ?_, ?_, ?_⟩
      · rw [accessed_segment, hstep]
        exact hsize
      · rw [accessed_segment, hstep]
        exact hactive
      · rw [accessed_segment, accessed_history, hnext]
        exact hring.read_step hpos (Nat.lt_trans hlt (by decide)) hcap
      · rw [accessed_history, ReadOp.record_written]
        exact hwritten
      · rw [accessed_history]
        exact heven
    · exact (hinv.segments j hj).transfer (accessed_segment_of_ne hji)
        (accessed_history_of_ne hji) rfl (.inl rfl) (.inr (hother j hji))
  · exact hdriver
  · exact hlog

end Accessed

/-- The first access of a `flush`: what it loads is the flush mark from now on. -/
theorem Inv.flushLoad {request : Option Nat} (hinv : s.Inv)
    (htask : s.driver.task = .flush i .flushLoad request) :
    (s.accessed i .flushLoad (s.history i).written.length
      ⟨s.driver.io, .flush i (.flushStore (s.shm.segment i).header.writePos) request⟩
      s.log).Inv := by
  have hdriver := hinv.driver.task
  rw [htask] at hdriver
  obtain ⟨hseg, _, _⟩ := hdriver
  have hmapped := hinv.driver.mapped i hseg
  have hsegment := hinv.segments i hmapped.created
  have hreader : s.reader i = some .flushLoad := by
    unfold reader
    rw [htask]
    exact if_pos rfl
  apply hinv.accessed hmapped.created hreader
  · exact fun h => nomatch h
  · exact hsegment.consumed
  · exact if_pos rfl
  · exact fun j hj => if_neg (Ne.symm hj)
  · refine ⟨hinv.driver.valid, ?_, fun _ _ h => (nomatch h), hseg, rfl, ?_⟩
    · intro j hj
      exact (hinv.driver.mapped j hj).accessed rfl (hinv.driver.mapped j hj).latest
    · rintro w ⟨⟩
      rw [accessed_history]
      exact ⟨hsegment.ring.positions.writePos, hsegment.written,
        hsegment.ring.positions.consumed_le, Nat.le_refl _⟩
  · exact LogInv.silent hinv accessed_moves (.inl rfl)

/-- The last access of a `flush`: everything up to the flush mark is consumed. -/
theorem Inv.flushStore {w : Nat} {request : Option Nat} {d : Driver α} (hinv : s.Inv)
    (htask : s.driver.task = .flush i (.flushStore w) request)
    (hsame : d.io.sharedBuffer = s.driver.io.sharedBuffer)
    (hd : d.task = .idle ∨ ∃ bytesCount, d.task = .isActive i bytesCount) :
    (s.accessed i (.flushStore w) s.flushed d s.log).Inv := by
  have hdriver := hinv.driver.task
  rw [htask] at hdriver
  obtain ⟨hseg, _, hstore⟩ := hdriver
  obtain ⟨hw, heven, hlo, hhi⟩ := hstore w rfl
  have hmapped := hinv.driver.mapped i hseg
  have hsegment := hinv.segments i hmapped.created
  have hreader : s.reader i = some (.flushStore w) := by
    unfold reader
    rw [htask]
    exact if_pos rfl
  have hnone : ∀ j, (s.accessed i (.flushStore w) s.flushed d s.log).reader j = none := by
    intro j
    have htask' : (s.accessed i (.flushStore w) s.flushed d s.log).driver.task = d.task := rfl
    unfold reader
    rw [htask']
    rcases hd with hd | ⟨bytesCount, hd⟩
    · rw [hd]
    · rw [hd]
  -- the store skips what lies between `read_pos` and the flush mark
  have hconsumed : (ReadOp.record (s.shm.segment i) (s.history i) (.flushStore w)).consumed =
      s.flushed := by
    have hfill := Ring.fill_eq (Nat.lt_trans hsegment.lt (by decide)) hlo
      (Nat.le_trans hhi hsegment.ring.positions.written_le)
    show (s.history i).consumed + u64Sub w (s.shm.segment i).header.readPos = s.flushed
    rw [hw, hsegment.ring.positions.readPos, hfill]
    omega
  have hsegd := IOHandler.segment_congr hsame
  apply hinv.accessed hmapped.created hreader
  · intro h
    cases h
  · rw [hconsumed]
    exact heven
  · exact hnone i
  · exact fun j _ => hnone j
  · refine ⟨?_, ?_, ?_, ?_⟩
    · intro hn
      show d.io.sharedBuffer = none
      rw [hsame]
      exact hinv.driver.valid (hsegd.symm.trans hn)
    · intro j hj
      have hmapped' := hinv.driver.mapped j (hsegd.symm.trans hj)
      exact hmapped'.accessed hsame hmapped'.latest
    · intro j hj _
      have hji : j = i := Option.some.inj ((hsegd.symm.trans hj).symm.trans hseg)
      subst hji
      rw [accessed_history, hconsumed]
      exact Nat.le_refl _
    · rcases hd with hd | ⟨bytesCount, hd⟩
      · show DriverTaskInv _ d.task
        rw [hd]
        trivial
      · show DriverTaskInv _ d.task
        rw [hd]
        exact hsegd.trans hseg
  · exact LogInv.silent hinv accessed_moves (.inl rfl)

/-- One access of a `read`. -/
theorem Inv.read_access {op : ReadOp α} {bytesCount : Nat} {d : Driver α}
    {log : List (Callback α)} (hinv : s.Inv) (htask : s.driver.task = .read i op bytesCount)
    (hsame : d.io.sharedBuffer = s.driver.io.sharedBuffer)
    (hd : d.task = (op.step (s.shm.segment i)).2.op.elim .idle fun op' => .read i op' bytesCount)
    (hlatest : (s.accessed i op s.flushed d log).Latest i)
    (hlog : (s.accessed i op s.flushed d log).LogInv) :
    (s.accessed i op s.flushed d log).Inv := by
  have hdriver := hinv.driver.task
  rw [htask] at hdriver
  obtain ⟨hseg, hready, hread, hcount⟩ := hdriver
  have hmapped := hinv.driver.mapped i hseg
  have hsegment := hinv.segments i hmapped.created
  have hreader : s.reader i = some op := by
    unfold reader
    rw [htask]
    exact if_pos rfl
  have hidle : s.flushing = false := by
    unfold flushing
    rw [htask]
  have hflushed := hinv.driver.flushed i hseg hidle
  have hsegd := IOHandler.segment_congr hsame
  apply hinv.accessed hmapped.created hreader
  · exact fun _ => hready.capacity
  · -- requests are whole frames
    have heven : op.count % 2 = 0 := by
      rw [hcount]
      unfold IOHandler.totalSamples IOHandler.kChannels
      omega
    have hconsumed := hsegment.consumed
    rcases ReadOp.record_cases hread (s.shm.segment i) (s.history i) with heq | heq
    · rw [heq]
      exact hconsumed
    · rw [heq]
      show ((s.history i).consumed + op.count) % 2 = 0
      omega
  · unfold reader ShmSystem.accessed driven
    simp only [hd]
    cases (op.step (s.shm.segment i)).2.op with
    | none => rfl
    | some op' => exact if_pos rfl
  · intro j hj
    unfold reader ShmSystem.accessed driven
    simp only [hd]
    cases (op.step (s.shm.segment i)).2.op with
    | none => rfl
    | some op' => exact if_neg (Ne.symm hj)
  · refine ⟨?_, ?_, ?_, ?_⟩
    · intro hn
      show d.io.sharedBuffer = none
      rw [hsame]
      exact hinv.driver.valid (hsegd.symm.trans hn)
    · intro j hj
      have hji : j = i := Option.some.inj ((hsegd.symm.trans hj).symm.trans hseg)
      subst hji
      exact hmapped.accessed hsame hlatest
    · intro j hj _
      have hji : j = i := Option.some.inj ((hsegd.symm.trans hj).symm.trans hseg)
      subst hji
      exact Nat.le_trans hflushed (accessed_moves.consumed j)
    · show DriverTaskInv _ d.task
      rw [hd]
      cases hp : (op.step (s.shm.segment i)).2 with
      | returned res => trivial
      | running op' =>
        -- the operation goes on, with the kind and the count it started with
        obtain ⟨hkind, hsamecount⟩ := ReadOp.step_kind hp
        refine ⟨hsegd.trans hseg, accessed_moves.ready hready, ?_, ?_⟩
        · rw [hkind]
          exact hread
        · rw [hsamecount]
          exact hcount
  · exact hlog

/-- An access of a `read` that delivers nothing. -/
theorem Inv.read_silent {op : ReadOp α} {bytesCount : Nat} {d : Driver α}
    {log : List (Callback α)} (hinv : s.Inv) (htask : s.driver.task = .read i op bytesCount)
    (hsame : d.io.sharedBuffer = s.driver.io.sharedBuffer)
    (hd : d.task = (op.step (s.shm.segment i)).2.op.elim .idle fun op' => .read i op' bytesCount)
    (hlog : Silent s.log log) : (s.accessed i op s.flushed d log).Inv := by
  have hdriver := hinv.driver.task
  rw [htask] at hdriver
  have hlatest := (hinv.driver.mapped i hdriver.1).latest
  apply hinv.read_access htask hsame hd
  · exact fun e he k buf hanswer => hlatest e (hlog.mem he hanswer) k buf hanswer
  · exact LogInv.silent hinv accessed_moves hlog

/-- The last access of a `read` that delivers. -/
theorem Inv.read_delivers {n r c bytesCount : Nat} {buf : List α} {d : Driver α} (hinv : s.Inv)
    (htask : s.driver.task = .read i (.copy n r c buf) bytesCount)
    (hsame : d.io.sharedBuffer = s.driver.io.sharedBuffer) (hd : d.task = .idle)
    (hdone : ¬ buf.length < n) :
    (s.accessed i (.copy n r c buf) s.flushed d
      (s.log ++ [⟨bytesCount, some (i, buf), (s.history i).consumed, s.flushed⟩])).Inv := by
  have hdriver := hinv.driver.task
  rw [htask] at hdriver
  obtain ⟨hseg, _, _, hcount⟩ := hdriver
  have hmapped := hinv.driver.mapped i hseg
  have hsegment := hinv.segments i hmapped.created
  have hidle : s.flushing = false := by
    unfold flushing
    rw [htask]
  have hflushed := hinv.driver.flushed i hseg hidle
  have hreader : s.reader i = some (.copy n r c buf) := by
    unfold reader
    rw [htask]
    exact if_pos rfl
  obtain ⟨_, _, hlen, hfit, hbuf⟩ := hsegment.ring.reader _ hreader
  have hfull : buf.length = n := by omega
  have hop : (ReadOp.copy n r c buf).step (s.shm.segment i) =
      ((s.shm.segment i).setReadPos (u64 (r + n)), .returned (.samples buf)) := by
    simp only [ReadOp.step, hdone, ↓reduceIte]
  have hrecord : (ReadOp.copy n r c buf).record (s.shm.segment i) (s.history i) =
      { s.history i with consumed := (s.history i).consumed + n } := by
    simp only [ReadOp.record, hdone, ↓reduceIte]
  have hmoves : DriverMoves s (s.accessed i (.copy n r c buf) s.flushed d
      (s.log ++ [⟨bytesCount, some (i, buf), (s.history i).consumed, s.flushed⟩])) :=
    accessed_moves
  apply hinv.read_access htask hsame
  · rw [hd, hop]
    rfl
  · intro e he k buf' hanswer
    rcases List.mem_append.mp he with he | he
    · exact hmapped.latest e he k buf' hanswer
    · rw [List.mem_singleton.mp he] at hanswer
      cases hanswer
      exact Nat.le_refl _
  · constructor
    · intro e he j buf' hanswer
      rcases List.mem_append.mp he with he | he
      · have hdel := hinv.log.delivered e he j buf' hanswer
        exact hdel.grow (Nat.le_of_eq hmoves.created.symm) (hmoves.consumed j)
          ⟨[], by rw [hmoves.written, List.append_nil]⟩
          (hinv.segments j hdel.created).ring.positions.consumed_le
      · rw [List.mem_singleton.mp he] at hanswer ⊢
        cases hanswer
        refine ⟨hmapped.created, hfull.trans hcount, hsegment.consumed, ?_, hflushed, ?_⟩
        · rw [accessed_history, hrecord, hfull]
        · rw [accessed_history, hrecord]
          exact hbuf
    · refine List.pairwise_append.mpr ⟨hinv.log.ordered, List.pairwise_singleton _ _, ?_⟩
      intro e he f hf k buf' hanswer j buf'' hanswer'
      rw [List.mem_singleton.mp hf] at hanswer' ⊢
      cases hanswer'
      -- what was delivered before lies in an older segment, or was consumed before
      rcases Nat.lt_or_eq_of_le (hmapped.latest e he k buf' hanswer) with hlt | heq
      · exact .inl hlt
      · subst heq
        exact .inr ⟨rfl, (hinv.log.delivered e he k buf' hanswer).consumed⟩

/-! ## The next step of the driver -/

/-- The opening constructor has mapped a segment, and `flush` starts. -/
theorem Inv.attach {io : IOHandler} {request : Option Nat} (hinv : s.Inv)
    (hcreated : i < s.shm.created) (hlatest : s.Latest i)
    (hsize : (s.shm.segment i).size = fullSize (s.requested i))
    (hio : io.sharedBuffer = some ⟨some i, fullSize (s.requested i), false, shmName⟩) :
    (s.setDriver io (.flush i .flushLoad request)).Inv := by
  have hseg : io.segment = some i := by
    unfold IOHandler.segment
    rw [hio]
    rfl
  have hmoves : DriverMoves s (s.setDriver io (.flush i .flushLoad request)) :=
    driven_moves s ⟨io, .flush i .flushLoad request⟩ s.log
  apply hinv.of_driver hmoves
  · intro j hj
    have hsegment := hinv.segments j hj
    by_cases hji : j = i
    · subst hji
      -- `flush` is the new reader of the segment
      have hreader : (s.setDriver io (.flush j .flushLoad request)).reader j = some .flushLoad :=
        if_pos rfl
      refine ⟨hsegment.pos, hsegment.lt, hsegment.size, hsegment.active, ?_, hsegment.written,
        hsegment.consumed⟩
      rw [hreader]
      exact hsegment.ring.start_flush
    · exact hsegment.transfer rfl rfl rfl (.inl rfl) (.inr (if_neg (Ne.symm hji)))
  · refine ⟨?_, ?_, fun _ _ h => (nomatch h), hseg, rfl, fun w h => nomatch h⟩
    · intro hnone
      have hsome := hseg.symm.trans hnone
      exact nomatch hsome
    · intro j hj
      have hji : j = i := Option.some.inj (hj.symm.trans hseg)
      subst hji
      refine ⟨hcreated, hsize, ?_, hlatest⟩
      intro b hb
      rw [Option.some.inj (hb.symm.trans hio)]
      rfl
  · exact LogInv.silent hinv hmoves (.inl rfl)

/-- The driver goes on to `read`. -/
theorem Inv.start_read {io : IOHandler} {bytesCount : Nat} (hinv : s.Inv)
    (hidle : s.flushing = false) (hseg : s.driver.io.segment = some i) (hready : s.Ready i)
    (hsame : io.sharedBuffer = s.driver.io.sharedBuffer) :
    (s.setDriver io
      (.read i (.loadReadPos (IOHandler.totalSamples bytesCount)) bytesCount)).Inv := by
  have hsegd := IOHandler.segment_congr hsame
  have hmoves : DriverMoves s (s.setDriver io
      (.read i (.loadReadPos (IOHandler.totalSamples bytesCount)) bytesCount)) :=
    driven_moves s ⟨io, .read i (.loadReadPos (IOHandler.totalSamples bytesCount)) bytesCount⟩ s.log
  apply hinv.of_driver hmoves
  · intro j hj
    have hsegment := hinv.segments j hj
    by_cases hji : j = i
    · subst hji
      refine ⟨hsegment.pos, hsegment.lt, hsegment.size, hsegment.active, ?_, hsegment.written,
        hsegment.consumed⟩
      unfold reader setDriver
      simp only [↓reduceIte]
      exact hsegment.ring.start_read _
    · exact hsegment.transfer rfl rfl rfl (.inl rfl) (.inr (if_neg (Ne.symm hji)))
  · refine ⟨?_, ?_, ?_, hsegd.trans hseg, hmoves.ready hready, rfl, rfl⟩
    · intro hnone
      exact hsame.trans (hinv.driver.valid (hsegd.symm.trans hnone))
    · intro j hj
      exact (hinv.driver.mapped j (hsegd.symm.trans hj)).driven hsame (.inl rfl)
    · intro j hj _
      exact hinv.driver.flushed j (hsegd.symm.trans hj) hidle
  · exact LogInv.silent hinv hmoves (.inl rfl)

/-- Every step of the driver's thread keeps the invariant. -/
theorem Inv.driverStep {ok : Bool} {s' : ShmSystem α} (hinv : s.Inv)
    (hstep : s.driverStep ok = some s') : s'.Inv := by
  have htask := hinv.driver.task
  unfold ShmSystem.driverStep at hstep
  cases hs : s.driver.task with
  | idle =>
    rw [hs] at hstep
    exact nomatch hstep
  | shmOpen request =>
    rw [hs] at hstep htask
    simp only at hstep
    split at hstep
    · rename_i i hname
      cases hstep
      have hnewest := hinv.newest i hname
      have hcreated : i < s.shm.created := by omega
      refine hinv.driver_drop (d := ⟨s.driver.io, .fstat i request⟩) (.inl rfl) htask
        (fun _ => rfl) ⟨htask, hcreated, ?_⟩
      -- the name leads to the newest segment there is
      intro e he k buf hanswer
      have hcreated := (hinv.log.delivered e he k buf hanswer).created
      omega
    · cases hstep
      exact hinv.unavailable _ rfl request
  | fstat i request =>
    rw [hs] at hstep htask
    obtain ⟨hnone, hcreated, hlatest⟩ := htask
    cases ok with
    | true =>
      cases hstep
      refine hinv.driver_drop (d := ⟨s.driver.io, .mmap i (s.shm.segment i).size request⟩)
        (.inl rfl) hnone (fun _ => rfl) ⟨hnone, hcreated, hlatest, fun hpos => ⟨?_, rfl⟩⟩
      rcases (hinv.segments i hcreated).size with hzero | hfull
      · exact absurd hzero hpos
      · exact hfull
    | false =>
      cases hstep
      exact hinv.unavailable _ rfl request
  | mmap i size request =>
    rw [hs] at hstep htask
    obtain ⟨hnone, hcreated, hlatest, hsize⟩ := htask
    simp only at hstep
    split at hstep
    · cases hstep
      exact hinv.unavailable _ rfl request
    · rename_i hpos
      cases hstep
      have hne : size ≠ 0 := by
        intro hzero
        simp [hzero] at hpos
      obtain ⟨hfull, hsame⟩ := hsize hne
      apply hinv.attach hcreated hlatest (hsame.trans hfull)
      rw [hfull]
  | flush i op request =>
    rw [hs] at hstep htask
    obtain ⟨_, hflush, _⟩ := htask
    cases op with
    | flushLoad =>
      cases hstep
      exact hinv.flushLoad hs
    | flushStore w =>
      cases hstep
      cases request with
      | none => exact hinv.flushStore hs rfl (.inl rfl)
      | some bytesCount =>
        exact hinv.flushStore hs (IOHandler.markConnected_sharedBuffer _) (.inr ⟨bytesCount, rfl⟩)
    | loadReadPos n => exact nomatch hflush
    | loadWritePos n r => exact nomatch hflush
    | loadCapacity n r w => exact nomatch hflush
    | copy n r c buf => exact nomatch hflush
  | isActive i bytesCount =>
    rw [hs] at hstep htask
    have hidle : s.flushing = false := by
      unfold flushing
      rw [hs]
    simp only at hstep
    split at hstep
    · rename_i hactive
      cases hstep
      have hcreated := (hinv.driver.mapped i htask).created
      obtain ⟨hcap, hsize⟩ := (hinv.segments i hcreated).active hactive
      exact hinv.driver_keep (d := ⟨s.driver.io, .getHeartbeat i bytesCount⟩) (.inl rfl) rfl hidle
        (fun _ => rfl) ⟨htask, hcreated, hcap, hsize⟩
    · cases hstep
      exact hinv.silence (.inl rfl) bytesCount
  | getHeartbeat i bytesCount =>
    rw [hs] at hstep htask
    obtain ⟨hseg, hready⟩ := htask
    have hidle : s.flushing = false := by
      unfold flushing
      rw [hs]
    simp only at hstep
    split at hstep
    · cases hstep
      exact hinv.silence (.inl rfl) bytesCount
    · cases hstep
      exact hinv.start_read hidle hseg hready (IOHandler.checkHeartbeat_sharedBuffer _ _)
  | read i op bytesCount =>
    rw [hs] at hstep htask
    simp only at hstep
    cases hp : (op.step (s.shm.segment i)).2 with
    | running op' =>
      rw [hp] at hstep
      cases hstep
      exact hinv.read_silent hs rfl (by rw [hp]; rfl) (.inl rfl)
    | returned res =>
      rw [hp] at hstep
      cases res with
      | samples buf =>
        cases hstep
        -- only the last access of a `read` returns samples
        obtain ⟨n, r, c, rfl, hdone⟩ := ReadOp.step_samples hp
        exact hinv.read_delivers hs rfl rfl hdone
      | refused =>
        cases hstep
        exact hinv.read_silent hs rfl (by rw [hp]; rfl) (.inr ⟨_, rfl, rfl⟩)
      | flushed =>
        cases hstep
        exact hinv.read_silent hs rfl (by rw [hp]; rfl) (.inr ⟨_, rfl, rfl⟩)

end ShmSystem

end Noise
