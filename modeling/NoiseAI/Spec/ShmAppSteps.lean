import NoiseAI.Spec.ShmInvariant

/-!
# The app's steps keep the invariant

A step of the app leaves the segments alone (`Inv.app_local`), creates one (`Inv.openCreate`),
stores to the header or the size of one (`Inv.app_header`), or is one access of a `write`
(`Inv.app_write`).
-/

namespace Noise

variable {α : Type}

namespace ShmSystem

variable {s : ShmSystem α} {i : Nat} {args : CreateArgs}

/-- The app after a step that does not write to a ring: its shared memory `m` and its process
    `a`. -/
def moved (s : ShmSystem α) (m : Shm α) (a : App α) : ShmSystem α := { s with shm := m, app := a }

theorem Building.congr {s' : ShmSystem α} (h : s.Building i args)
    (hcreated : s.shm.created ≤ s'.shm.created) (hreq : s'.requested i = s.requested i)
    (hhist : s'.history i = s.history i) : s'.Building i args := by
  refine ⟨h.ok, Nat.lt_of_lt_of_le h.created hcreated, ?_, ?_⟩
  · rw [hreq]
    exact h.requested
  · rw [hhist]
    exact h.written

/-- A task that writes to no ring. -/
def quiet (t : AppTask α) : Prop := ∀ j op, t ≠ .write j op

theorem writer_of_quiet {a : App α} {m : Shm α} (h : quiet a.task) (j : Nat) :
    (s.moved m a).writer j = none := by
  unfold writer moved
  simp only
  split
  · rename_i k op heq
    exact absurd heq (h k op)
  · rfl

/-- After a call has ended with an assignment or a `reset()` there is at most a destructor to
    run. -/
theorem destructor_cases (b : Option SharedRingBuffer) :
    (b.elim .idle App.destructor : AppTask α) = .idle ∨
    (∃ j name, (b.elim .idle App.destructor : AppTask α) = .clearActive j name) ∨
    ∃ name, (b.elim .idle App.destructor : AppTask α) = .unlinkName name := by
  cases b with
  | none => exact .inl rfl
  | some b =>
    simp only [Option.elim, App.destructor]
    split
    · split
      · exact .inr (.inl ⟨_, _, rfl⟩)
      · exact .inr (.inr ⟨_, rfl⟩)
    · exact .inl rfl

theorem quiet_destructor (b : Option SharedRingBuffer) :
    quiet (b.elim .idle App.destructor : AppTask α) := by
  intro j op
  rcases destructor_cases (α := α) b with h | ⟨k, name, h⟩ | ⟨name, h⟩
  · rw [h]
    exact nofun
  · rw [h]
    exact nofun
  · rw [h]
    exact nofun

theorem taskInv_destructor (s : ShmSystem α) (b : Option SharedRingBuffer) :
    s.TaskInv (b.elim .idle App.destructor) := by
  rcases destructor_cases (α := α) b with h | ⟨k, name, h⟩ | ⟨name, h⟩
  · rw [h]
    trivial
  · rw [h]
    trivial
  · rw [h]
    trivial

/-! ## Steps that leave the segments alone -/

/-- A step that at most unlinks the name. -/
theorem Inv.app_local (hinv : s.Inv) (m : Shm α) (a : App α)
    (hcreated : m.created = s.shm.created) (hsegment : m.segment = s.shm.segment)
    (hnames : ∀ i, m.names shmName = some i → s.shm.names shmName = some i)
    (hquiet : quiet a.task)
    (hbuffer : ∀ b i, a.buffer = some b → b.segment = some i → s.Ready i)
    (htask : (s.moved m a).TaskInv a.task) : (s.moved m a).Inv := by
  have hready : ∀ i, s.Ready i → (s.moved m a).Ready i := by
    intro i hready
    refine ⟨?_, ?_, ?_⟩
    · show i < m.created
      rw [hcreated]
      exact hready.created
    · show (m.segment i).header.capacity = _
      rw [hsegment]
      exact hready.capacity
    · show (m.segment i).size = _
      rw [hsegment]
      exact hready.size
  -- nothing moves but the task of the app, and perhaps the name
  have hmoves : AppMoves s (s.moved m a) := by
    refine ⟨rfl, rfl, rfl, Nat.le_of_eq hcreated.symm, fun _ _ => rfl, hready, ?_, ?_,
      fun _ _ => rfl⟩
    · intro i _ _
      show (m.segment i).size = _
      rw [hsegment]
    · intro i _
      exact ⟨[], (List.append_nil _).symm⟩
  apply hinv.of_app hmoves
  · intro i hi
    show i + 1 = m.created
    rw [hcreated]
    exact hinv.newest i (hnames i hi)
  · intro i hi
    have hi' : i < s.shm.created := by
      rw [← hcreated]
      exact hi
    apply (hinv.segments i hi').transfer
    · show m.segment i = _
      rw [hsegment]
    · rfl
    · rfl
    · exact .inr (writer_of_quiet hquiet i)
    · exact .inl rfl
  · exact ⟨fun b i hb hseg => hready i (hbuffer b i hb hseg), htask⟩

/-- A step within the app's own process. -/
theorem Inv.setApp (hinv : s.Inv) (a : App α) (hquiet : quiet a.task)
    (hbuffer : ∀ b i, a.buffer = some b → b.segment = some i → s.Ready i)
    (htask : (s.setApp a).TaskInv a.task) : (s.setApp a).Inv :=
  hinv.app_local s.shm a rfl rfl (fun _ h => h) hquiet hbuffer htask

theorem unlink_names (m : Shm α) (name : String) (i : Nat)
    (h : (m.unlink name).names shmName = some i) : m.names shmName = some i := by
  simp only [Shm.unlink] at h
  by_cases hname : shmName = name
  · rw [hname, Function.update_self] at h
    exact nomatch h
  · rw [Function.update_of_ne hname] at h
    exact h

/-- A `shm_unlink`. -/
theorem Inv.unlink (hinv : s.Inv) (name : String) (a : App α) (hquiet : quiet a.task)
    (hbuffer : ∀ b i, a.buffer = some b → b.segment = some i → s.Ready i)
    (htask : (s.moved (s.shm.unlink name) a).TaskInv a.task) :
    (s.moved (s.shm.unlink name) a).Inv :=
  hinv.app_local (s.shm.unlink name) a rfl rfl (unlink_names s.shm name) hquiet hbuffer htask

/-! ## Stores to the header -/

/-- A segment stays ready when its size and capacity are only set to what they should be. -/
theorem Ready.header {f : Segment α → Segment α} {j : Nat} (hready : s.Ready j) (a : App α)
    (hsize : (f (s.shm.segment i)).size = (s.shm.segment i).size ∨
      (f (s.shm.segment i)).size = fullSize (s.requested i))
    (hcap : (f (s.shm.segment i)).header.capacity = (s.shm.segment i).header.capacity ∨
      (f (s.shm.segment i)).header.capacity = s.requested i) :
    (s.moved (s.shm.modify i f) a).Ready j := by
  by_cases hj : j = i
  · subst hj
    have hself : (s.moved (s.shm.modify j f) a).shm.segment j = f (s.shm.segment j) :=
      Function.update_self ..
    refine ⟨hready.created, ?_, ?_⟩
    · rw [hself]
      rcases hcap with h | h
      · rw [h]
        exact hready.capacity
      · exact h
    · rw [hself]
      rcases hsize with h | h
      · rw [h]
        exact hready.size
      · exact h
  · have hother : (s.moved (s.shm.modify i f) a).shm.segment j = s.shm.segment j :=
      Function.update_of_ne hj ..
    refine ⟨hready.created, ?_, ?_⟩
    · rw [hother]
      exact hready.capacity
    · rw [hother]
      exact hready.size

/-- A step that changes the size of segment `i` or the header fields other than the positions,
    as a constructor or destructor does. -/
theorem Inv.app_header (hinv : s.Inv) (f : Segment α → Segment α) (a : App α)
    (hwritePos : (f (s.shm.segment i)).header.writePos = (s.shm.segment i).header.writePos)
    (hreadPos : (f (s.shm.segment i)).header.readPos = (s.shm.segment i).header.readPos)
    (hdata : (f (s.shm.segment i)).data = (s.shm.segment i).data)
    (hsize : (f (s.shm.segment i)).size = (s.shm.segment i).size ∨
      (f (s.shm.segment i)).size = fullSize (s.requested i))
    (hcap : (f (s.shm.segment i)).header.capacity = (s.shm.segment i).header.capacity ∨
      (f (s.shm.segment i)).header.capacity = s.requested i)
    (hactive : i < s.shm.created → (f (s.shm.segment i)).isActive = true →
      (f (s.shm.segment i)).header.capacity = s.requested i ∧
        (f (s.shm.segment i)).size = fullSize (s.requested i))
    (hquiet : quiet a.task)
    (hbuffer : ∀ b j, a.buffer = some b → b.segment = some j →
      (s.moved (s.shm.modify i f) a).Ready j)
    (htask : (s.moved (s.shm.modify i f) a).TaskInv a.task) :
    (s.moved (s.shm.modify i f) a).Inv := by
  have hself : (s.moved (s.shm.modify i f) a).shm.segment i = f (s.shm.segment i) :=
    Function.update_self ..
  have hother : ∀ j, j ≠ i → (s.moved (s.shm.modify i f) a).shm.segment j = s.shm.segment j :=
    fun j hj => Function.update_of_ne hj ..
  -- the driver sees no more than a size or capacity that was to be stored anyway
  have hmoves : AppMoves s (s.moved (s.shm.modify i f) a) := by
    refine ⟨rfl, rfl, rfl, Nat.le_refl _, fun _ _ => rfl, ?_, ?_, ?_, fun _ _ => rfl⟩
    · exact fun j hready => hready.header a hsize hcap
    · intro j hj hpos
      by_cases hji : j = i
      · subst hji
        rw [hself]
        rcases hsize with h | h
        · exact h
        · rcases (hinv.segments j hj).size with h' | h'
          · exact absurd h' hpos
          · rw [h, h']
      · rw [hother j hji]
    · intro j _
      exact ⟨[], (List.append_nil _).symm⟩
  apply hinv.of_app hmoves
  · exact hinv.newest
  · intro j hj
    by_cases hji : j = i
    · subst hji
      obtain ⟨hpos, hlt, hsizes, _, hring, hwritten, hconsumed⟩ := hinv.segments j hj
      refine ⟨hpos, hlt, ?_, ?_, ?_, hwritten, hconsumed⟩
      · rw [hself]
        rcases hsize with h | h
        · rw [h]
          exact hsizes
        · exact .inr h
      · rw [hself]
        exact hactive hj
      · rw [hself, writer_of_quiet hquiet]
        exact hring.abandon_write.congr hwritePos hreadPos hdata
    · exact (hinv.segments j hj).transfer (hother j hji) rfl rfl
        (.inr (writer_of_quiet hquiet j)) (.inl rfl)
  · exact ⟨hbuffer, htask⟩

/-! ## A new segment -/

/-- The driver is at work on no segment that does not exist. -/
theorem DriverInv.reader_none (h : s.DriverInv) (hi : s.shm.created ≤ i) :
    s.reader i = none := by
  have htask := h.task
  unfold reader
  split
  · rename_i j op request hs
    rw [hs] at htask
    have hcreated := (h.mapped j htask.1).created
    exact if_neg (by omega)
  · rename_i j op bytesCount hs
    rw [hs] at htask
    have hcreated := (h.mapped j htask.1).created
    exact if_neg (by omega)
  · rfl

/-- What `shm_open(O_CREAT)` does when there is no segment of that name. -/
structure Opened (s t : ShmSystem α) (args : CreateArgs) : Prop where
  app : t.app = { s.app with task := .ftruncate s.shm.created args }
  driver : t.driver = s.driver
  log : t.log = s.log
  flushed : t.flushed = s.flushed
  name : t.shm.names shmName = some s.shm.created
  created : t.shm.created = s.shm.created + 1
  size : (t.shm.segment s.shm.created).size = 0
  header : (t.shm.segment s.shm.created).header = ⟨0, 0, 0, 0, 0, 0, 0⟩
  requested : t.requested s.shm.created = args.capacity
  history : t.history s.shm.created = .empty
  other : ∀ j, j ≠ s.shm.created → t.shm.segment j = s.shm.segment j ∧
    t.requested j = s.requested j ∧ t.history j = s.history j

theorem opened [Zero α] (hnone : s.shm.names shmName = none) :
    Opened s (s.openCreate args) args := by
  unfold openCreate Shm.openCreate
  rw [hnone]
  refine ⟨rfl, rfl, rfl, rfl, ?_, rfl, ?_, ?_, ?_, ?_, fun j hj => ⟨?_, ?_, ?_⟩⟩
  · simp only [Function.update_self]
  · simp only [Function.update_self, Segment.empty]
  · simp only [Function.update_self, Segment.empty]
  · exact Function.update_self ..
  · exact Function.update_self ..
  · exact Function.update_of_ne hj ..
  · exact Function.update_of_ne hj ..
  · exact Function.update_of_ne hj ..

theorem Opened.moves {t : ShmSystem α} (h : Opened s t args) : AppMoves s t := by
  have hother : ∀ j < s.shm.created, t.shm.segment j = s.shm.segment j ∧
      t.requested j = s.requested j ∧ t.history j = s.history j :=
    fun j hj => h.other j (Nat.ne_of_lt hj)
  refine ⟨h.driver, h.log, h.flushed, ?_, ?_, ?_, ?_, ?_, ?_⟩
  · rw [h.created]
    exact Nat.le_succ _
  · exact fun j hj => (hother j hj).2.1
  · intro j hready
    obtain ⟨hseg, hreq, _⟩ := hother j hready.created
    refine ⟨?_, ?_, ?_⟩
    · rw [h.created]
      exact Nat.lt_succ_of_lt hready.created
    · rw [hseg, hreq]
      exact hready.capacity
    · rw [hseg, hreq]
      exact hready.size
  · intro j hj _
    rw [(hother j hj).1]
  · intro j hj
    exact ⟨[], by rw [(hother j hj).2.2, List.append_nil]⟩
  · intro j hj
    rw [(hother j hj).2.2]

/-- `shm_open(O_CREAT)` with no segment of that name. -/
theorem Inv.openCreate [Zero α] (hinv : s.Inv) (hnone : s.shm.names shmName = none)
    (hok : args.Ok) : (s.openCreate args).Inv := by
  have hopened : Opened s (s.openCreate args) args := opened hnone
  have hmoves := hopened.moves
  -- the app does not write while it constructs
  have hwriter : ∀ j, (s.openCreate args).writer j = none := by
    intro j
    unfold writer
    rw [hopened.app]
  have hreader : ∀ j, (s.openCreate args).reader j = s.reader j := by
    intro j
    unfold reader
    rw [hopened.driver]
  apply hinv.of_app hmoves
  · intro j hj
    rw [hopened.name] at hj
    cases hj
    rw [hopened.created]
  · intro j hj
    rw [hopened.created] at hj
    by_cases hjc : j = s.shm.created
    · -- the new segment is empty
      subst hjc
      refine ⟨?_, ?_, ?_, ?_, ?_, ?_, ?_⟩
      · rw [hopened.requested]
        exact hok.1
      · rw [hopened.requested]
        exact hok.2
      · exact .inl hopened.size
      · intro hactive
        unfold Segment.isActive at hactive
        rw [hopened.header] at hactive
        exact nomatch hactive
      · rw [hopened.history, hwriter, hreader, hinv.driver.reader_none (Nat.le_refl _)]
        apply Ring.Inv.fresh
        · rw [hopened.header]
        · rw [hopened.header]
      · rw [hopened.history]
        rfl
      · rw [hopened.history]
        rfl
    · obtain ⟨hseg, hreq, hhist⟩ := hopened.other j hjc
      exact (hinv.segments j (by omega)).transfer hseg hhist hreq (.inr (hwriter j))
        (.inl (hreader j))
  · constructor
    · intro b j hb hseg
      rw [hopened.app] at hb
      exact hmoves.ready j (hinv.app.buffer b j hb hseg)
    · rw [hopened.app]
      refine ⟨hok, ?_, hopened.requested, ?_⟩
      · rw [hopened.created]
        exact Nat.lt_succ_self _
      · rw [hopened.history]
        rfl

/-! ## An access of a `write` -/

theorem segment_setRing (s : ShmSystem α) (i : Nat) (g : Segment α) (h : History α)
    (t : AppTask α) : ((s.setRing i g h).setTask t).shm.segment i = g := Function.update_self ..

theorem segment_setRing_of_ne (s : ShmSystem α) {i j : Nat} (hj : j ≠ i) (g : Segment α)
    (h : History α) (t : AppTask α) :
    ((s.setRing i g h).setTask t).shm.segment j = s.shm.segment j := Function.update_of_ne hj ..

theorem history_setRing (s : ShmSystem α) (i : Nat) (g : Segment α) (h : History α)
    (t : AppTask α) : ((s.setRing i g h).setTask t).history i = h := Function.update_self ..

theorem history_setRing_of_ne (s : ShmSystem α) {i j : Nat} (hj : j ≠ i) (g : Segment α)
    (h : History α) (t : AppTask α) :
    ((s.setRing i g h).setTask t).history j = s.history j := Function.update_of_ne hj ..

/-- The app is in the `write` that goes on, or idle. -/
theorem writer_setTask (s : ShmSystem α) (i : Nat) (next : Option (WriteOp α)) :
    (s.setTask (next.elim .idle fun op => .write i op)).writer i = next := by
  cases next with
  | none => rfl
  | some op => exact if_pos rfl

theorem writer_setTask_of_ne (s : ShmSystem α) {i j : Nat} (hj : j ≠ i)
    (next : Option (WriteOp α)) :
    (s.setTask (next.elim .idle fun op => .write i op)).writer j = none := by
  cases next with
  | none => rfl
  | some op => exact if_neg (Ne.symm hj)

/-- An access that appends to what was written moves as the app may. -/
theorem moves_setRing {g : Segment α} {h : History α} (t : AppTask α)
    (hcap : g.header.capacity = (s.shm.segment i).header.capacity)
    (hsize : g.size = (s.shm.segment i).size)
    (hgrows : ∃ data, h.written = (s.history i).written ++ data)
    (hsame : h.consumed = (s.history i).consumed) :
    AppMoves s ((s.setRing i g h).setTask t) := by
  refine ⟨rfl, rfl, rfl, Nat.le_refl _, fun _ _ => rfl, ?_, ?_, ?_, ?_⟩
  · intro j hj
    by_cases hji : j = i
    · subst hji
      refine ⟨hj.created, ?_, ?_⟩
      · rw [segment_setRing, hcap]
        exact hj.capacity
      · rw [segment_setRing, hsize]
        exact hj.size
    · refine ⟨hj.created, ?_, ?_⟩
      · rw [s.segment_setRing_of_ne hji]
        exact hj.capacity
      · rw [s.segment_setRing_of_ne hji]
        exact hj.size
  · intro j _ _
    by_cases hji : j = i
    · subst hji
      rw [segment_setRing, hsize]
    · rw [s.segment_setRing_of_ne hji]
  · intro j _
    by_cases hji : j = i
    · subst hji
      rw [history_setRing]
      exact hgrows
    · exact ⟨[], by rw [s.history_setRing_of_ne hji, List.append_nil]⟩
  · intro j _
    by_cases hji : j = i
    · subst hji
      rw [history_setRing]
      exact hsame
    · rw [s.history_setRing_of_ne hji]

/-- One access of a `write` on a ready segment. -/
theorem Inv.app_write {op : WriteOp α} {t : AppTask α} (hinv : s.Inv) (hready : s.Ready i)
    (heven : op.block.length % 2 = 0) (hwriter : s.writer i = some op)
    (ht : t = (op.step (s.shm.segment i)).2.op.elim .idle fun op' => .write i op') :
    ((s.setRing i (op.step (s.shm.segment i)).1 (op.record (s.history i))).setTask t).Inv := by
  obtain ⟨hpos, hlt, hsize, hactive, hring, hwritten, hconsumed⟩ :=
    hinv.segments i hready.created
  rw [hwriter] at hring
  have hstep := hring.write_step hpos (Nat.lt_trans hlt (by decide)) hready.capacity
  obtain ⟨data, w, hb, hseg⟩ := op.step_eq (s.shm.segment i)
  have hblock : (op.record (s.history i)).written.length % 2 = 0 := by
    obtain heq | heq := op.record_cases (s.history i)
    · rw [heq]
      exact hwritten
    · rw [heq, List.length_append]
      omega
  generalize (op.step (s.shm.segment i)).1 = g at hstep hseg ⊢
  -- a `write` appends to what was written and leaves what was consumed
  obtain ⟨appended, hrec⟩ := op.record_eq (s.history i)
  generalize op.record (s.history i) = h at hstep hblock hrec ⊢
  have hsame : h.consumed = (s.history i).consumed := by rw [hrec]
  have hmoves : AppMoves s ((s.setRing i g h).setTask t) :=
    moves_setRing t (by rw [hseg]) (by rw [hseg]) ⟨appended, by rw [hrec]⟩ hsame
  apply hinv.of_app hmoves
  · exact hinv.newest
  · intro j hj
    by_cases hji : j = i
    · subst hji
      refine ⟨hpos, hlt, ?_, ?_, ?_, ?_, ?_⟩
      · rw [segment_setRing, hseg]
        exact hsize
      · rw [segment_setRing, hseg]
        exact hactive
      · rw [segment_setRing, history_setRing, ht, writer_setTask]
        exact hstep
      · rw [history_setRing]
        exact hblock
      · rw [history_setRing, hsame]
        exact hconsumed
    · apply (hinv.segments j hj).transfer (s.segment_setRing_of_ne hji g h t)
        (s.history_setRing_of_ne hji g h t) rfl _ (.inl rfl)
      right
      rw [ht]
      exact writer_setTask_of_ne _ hji _
  · constructor
    · intro b j hb hbseg
      exact hmoves.ready j (hinv.app.buffer b j hb hbseg)
    · suffices htask : ∀ s' : ShmSystem α, s'.Ready i → s'.TaskInv t from
        htask _ (hmoves.ready i hready)
      intro s' hready'
      rw [ht]
      cases hp : (op.step (s.shm.segment i)).2 with
      | returned res => trivial
      | running op' =>
        refine ⟨hready', ?_⟩
        rw [WriteOp.step_block hp]
        exact heven

/-! ## Steps of a constructor and a destructor -/

/-- A store of zero to a position that is zero changes no position. -/
theorem store_positions (field : InitStore) (args : CreateArgs) {h : SharedRingBufferHeader}
    (hw : h.writePos = 0) (hr : h.readPos = 0) :
    (field.store args h).writePos = h.writePos ∧ (field.store args h).readPos = h.readPos := by
  cases field with
  | writePos => exact ⟨hw.symm, rfl⟩
  | readPos => exact ⟨rfl, hr.symm⟩
  | _ => exact ⟨rfl, rfl⟩

/-- Only the store of the capacity changes it. -/
theorem store_capacity (field : InitStore) (args : CreateArgs) (h : SharedRingBufferHeader) :
    (field.store args h).capacity = h.capacity ∨
      (field.store args h).capacity = u32 args.capacity := by
  cases field with
  | capacity => exact .inr rfl
  | _ => exact .inl rfl

/-- The stores after the one of the capacity leave it as it is. -/
theorem store_next {field next : InitStore} {args : CreateArgs} {h : SharedRingBufferHeader}
    (hcap : field.capacityStored = true → h.capacity = u32 args.capacity)
    (hnext : field.next = some next) (hstored : next.capacityStored = true) :
    (field.store args h).capacity = u32 args.capacity := by
  cases field with
  | capacity => rfl
  | channels => exact hcap rfl
  | sampleRate => exact hcap rfl
  | active => exact hcap rfl
  | heartbeat => exact nomatch hnext
  | writePos =>
    cases hnext
    exact nomatch hstored
  | readPos =>
    cases hnext
    exact nomatch hstored

/-- A segment that is active after a store was so before it, or has its capacity. -/
theorem store_active {field : InitStore} {args : CreateArgs} {g : Segment α}
    (hcap : field.capacityStored = true → g.header.capacity = u32 args.capacity)
    (hactive : ({ g with header := field.store args g.header } : Segment α).isActive = true) :
    g.isActive = true ∨ (field.store args g.header).capacity = u32 args.capacity := by
  cases field with
  | capacity => exact .inr rfl
  | active => exact .inr (hcap rfl)
  | _ => exact .inl hactive

/-- The capacity is stored before the last store. -/
theorem capacityStored_of_last {field : InitStore} (hnext : field.next = none) :
    field.capacityStored = true := by
  cases field with
  | heartbeat => rfl
  | _ => exact nomatch hnext

/-- One header store of a constructor. -/
theorem Inv.init_store {field : InitStore} (hinv : s.Inv) (hbuild : s.Building i args)
    (hfull : (s.shm.segment i).size = fullSize (s.requested i))
    (hcap : field.capacityStored = true →
      (s.shm.segment i).header.capacity = s.requested i)
    {a : App α} (ha : field.next.elim (a = s.app.assign (App.object (some i) args))
      (fun next => a = { s.app with task := .init next i args })) :
    (s.moved (s.shm.modifyHeader i fun h => field.store args h) a).Inv := by
  have hcap32 : u32 args.capacity = s.requested i := by
    rw [hbuild.requested]
    exact u32_of_lt hbuild.ok.2
  rw [← hcap32] at hcap
  obtain ⟨hwritePos, hreadPos, hle, _⟩ := (hinv.segments i hbuild.created).ring.positions
  -- nothing was written yet, so both positions are zero already
  have hwzero : (s.shm.segment i).header.writePos = 0 := by
    rw [hwritePos, hbuild.written]
    rfl
  have hrzero : (s.shm.segment i).header.readPos = 0 := by
    rw [hbuild.written] at hle
    rw [hreadPos, Nat.le_zero.mp hle]
    rfl
  obtain ⟨hkeepsWrite, hkeepsRead⟩ := store_positions field args hwzero hrzero
  -- the store writes the capacity the segment was created for, or leaves it
  have hcapacity := store_capacity field args (s.shm.segment i).header
  rw [hcap32] at hcapacity
  have hready : ∀ j, s.Ready j →
      (s.moved (s.shm.modifyHeader i fun h => field.store args h) a).Ready j :=
    fun j hj => hj.header a (.inl rfl) hcapacity
  apply hinv.app_header _ _ hkeepsWrite hkeepsRead rfl (.inl rfl) hcapacity
  · intro hcreated hactive
    refine ⟨?_, hfull⟩
    rcases store_active hcap hactive with hbefore | hstored
    · have hsame := ((hinv.segments i hcreated).active hbefore).1
      rcases hcapacity with heq | heq
      · exact heq.trans hsame
      · exact heq
    · exact hstored.trans hcap32
  · cases hnext : field.next with
    | none =>
      rw [hnext] at ha
      rw [ha]
      exact quiet_destructor s.app.buffer
    | some next =>
      rw [hnext] at ha
      rw [ha]
      exact fun j op h => nomatch h
  · intro b j hb hseg
    apply hready
    cases hnext : field.next with
    | none =>
      -- the last store: the object is the handle's buffer from now on
      rw [hnext] at ha
      rw [ha] at hb
      cases hb
      cases hseg
      exact ⟨hbuild.created, (hcap (capacityStored_of_last hnext)).trans hcap32, hfull⟩
    | some next =>
      rw [hnext] at ha
      rw [ha] at hb
      exact hinv.app.buffer b j hb hseg
  · have hself : (s.moved (s.shm.modifyHeader i fun h => field.store args h) a).shm.segment i =
        { s.shm.segment i with header := field.store args (s.shm.segment i).header } :=
      Function.update_self ..
    cases hnext : field.next with
    | none =>
      rw [hnext] at ha
      rw [ha]
      exact taskInv_destructor _ s.app.buffer
    | some next =>
      rw [hnext] at ha
      suffices htask : (s.moved (s.shm.modifyHeader i fun h => field.store args h) a).TaskInv
          (.init next i args) by
        rw [ha] at htask ⊢
        exact htask
      refine ⟨hbuild.congr (Nat.le_refl _) rfl rfl, ?_, fun hstored => ?_⟩
      · rw [hself]
        exact hfull
      · rw [hself]
        exact (store_next hcap hnext hstored).trans hcap32

/-- `ftruncate` gives the new segment its full size. -/
theorem Inv.ftruncate (hinv : s.Inv) (hbuild : s.Building i args) :
    (s.moved (s.shm.modify i fun g => { g with size := args.shmSize })
      { s.app with task := .mmap i args }).Inv := by
  have hsize : args.shmSize = fullSize (s.requested i) := by
    rw [hbuild.requested]
    exact hbuild.ok.shmSize_eq
  apply hinv.app_header (fun g => { g with size := args.shmSize })
    { s.app with task := .mmap i args } rfl rfl rfl (.inr hsize) (.inl rfl)
  · intro hcreated hactive
    exact ⟨((hinv.segments i hcreated).active hactive).1, hsize⟩
  · exact fun _ _ h => nomatch h
  · intro b j hb hseg
    exact (hinv.app.buffer b j hb hseg).header _ (.inr hsize) (.inl rfl)
  · refine ⟨hbuild.congr (Nat.le_refl _) rfl rfl, ?_⟩
    have hself : ((s.shm.modify i fun g => { g with size := args.shmSize }).segment i).size =
        args.shmSize := by
      simp only [Shm.modify, Function.update_self]
    exact hself.trans hsize

/-- The destructor of a creator takes back the active flag. -/
theorem Inv.clearActive (hinv : s.Inv) (i : Nat) (name : String) :
    (s.moved (s.shm.modifyHeader i fun h => { h with active := 0 })
      { s.app with task := .unlinkName name }).Inv := by
  apply hinv.app_header (fun g => { g with header := { g.header with active := 0 } })
    { s.app with task := .unlinkName name } rfl rfl rfl (.inl rfl) (.inl rfl)
  · exact fun _ h => nomatch h
  · exact fun _ _ h => nomatch h
  · intro b j hb hseg
    exact (hinv.app.buffer b j hb hseg).header _ (.inl rfl) (.inl rfl)
  · trivial

/-! ## The next step of the app -/

theorem buffer_assign (segment : Option Nat)
    (hseg : ∀ i, segment = some i → s.Ready i) :
    ∀ b i, (s.app.assign (App.object segment args)).buffer = some b → b.segment = some i →
      s.Ready i := by
  intro b i hb hbseg
  cases hb
  exact hseg i hbseg

/-- Every step of the app's thread keeps the invariant. -/
theorem Inv.appStep [Zero α] {ok : Bool} {s' : ShmSystem α} (hinv : s.Inv)
    (hstep : s.appStep ok = some s') : s'.Inv := by
  have htask := hinv.app.task
  have hbuffer := hinv.app.buffer
  -- an object whose construction failed has no segment
  have hfailed : ∀ args : CreateArgs, ∀ b i,
      (s.app.assign (App.object none args)).buffer = some b → b.segment = some i → s.Ready i :=
    fun args => buffer_assign none fun i h => nomatch h
  unfold ShmSystem.appStep at hstep
  cases hs : s.app.task with
  | idle =>
    rw [hs] at hstep
    exact nomatch hstep
  | shmUnlink args =>
    rw [hs] at hstep htask
    cases hstep
    refine hinv.unlink shmName { s.app with task := .shmOpen args } (fun _ _ h => nomatch h)
      hbuffer ⟨htask, ?_⟩
    show Function.update s.shm.names shmName none shmName = none
    exact Function.update_self ..
  | shmOpen args =>
    rw [hs] at hstep htask
    cases ok with
    | true =>
      cases hstep
      exact hinv.openCreate htask.2 htask.1
    | false =>
      cases hstep
      exact hinv.setApp _ (quiet_destructor s.app.buffer) (hfailed args)
        (taskInv_destructor _ s.app.buffer)
  | ftruncate i args =>
    rw [hs] at hstep htask
    cases ok with
    | true =>
      cases hstep
      exact hinv.ftruncate htask
    | false =>
      cases hstep
      exact hinv.setApp _ (fun _ _ h => nomatch h) hbuffer trivial
  | mmap i args =>
    rw [hs] at hstep htask
    cases ok with
    | true =>
      cases hstep
      refine hinv.setApp _ (fun _ _ h => nomatch h) hbuffer ⟨?_, htask.2, fun h => nomatch h⟩
      exact htask.1.congr (Nat.le_refl _) rfl rfl
    | false =>
      cases hstep
      exact hinv.setApp _ (fun _ _ h => nomatch h) hbuffer trivial
  | init field i args =>
    rw [hs] at hstep htask
    obtain ⟨hbuild, hfull, hcap⟩ := htask
    cases hnext : field.next with
    | none =>
      simp only [hnext] at hstep
      cases hstep
      exact hinv.init_store hbuild hfull hcap (by rw [hnext]; rfl)
    | some next =>
      simp only [hnext] at hstep
      cases hstep
      exact hinv.init_store hbuild hfull hcap (by rw [hnext]; rfl)
  | undo args =>
    rw [hs] at hstep
    cases hstep
    exact hinv.unlink shmName _ (quiet_destructor s.app.buffer) (hfailed args)
      (taskInv_destructor _ s.app.buffer)
  | clearActive i name =>
    rw [hs] at hstep
    cases hstep
    exact hinv.clearActive i name
  | unlinkName name =>
    rw [hs] at hstep
    cases hstep
    exact hinv.unlink name _ (fun _ _ h => nomatch h) hbuffer trivial
  | write i op =>
    rw [hs] at hstep htask
    have hwriter : s.writer i = some op := by
      unfold writer
      rw [hs]
      exact if_pos rfl
    simp only at hstep
    -- the write goes on, or returns and leaves the app idle
    cases hp : (op.step (s.shm.segment i)).2 with
    | running op' =>
      rw [hp] at hstep
      cases hstep
      exact hinv.app_write htask.1 htask.2 hwriter (by rw [hp]; rfl)
    | returned res =>
      rw [hp] at hstep
      cases hstep
      exact hinv.app_write htask.1 htask.2 hwriter (by rw [hp]; rfl)

end ShmSystem

end Noise
