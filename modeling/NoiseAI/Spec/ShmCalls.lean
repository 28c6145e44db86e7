import NoiseAI.ForStd.Machine
import NoiseAI.Spec.RingCalls
import NoiseAI.Native.ShmSystem

/-!
# Whole calls of the app and the driver

A call of one side during which the other side does not move. The steps of `ShmSystem` then add
up to the function that models the whole call: `write` on the segment of the handle
(`processAndWrite_alone`) and `onReadClientInput` with the calls of `shmConsumer`
(`readClientInput_alone`).
-/

namespace Noise

variable {α : Type}

namespace ShmSystem

open Machine

variable {i : Nat}

/-- Segment `i` and its history. -/
def ring (s : ShmSystem α) (i : Nat) : Segment α × History α := (s.shm.segment i, s.history i)

/-- The app is at `t` and has left `ring` of segment `i`. -/
def appAt (s : ShmSystem α) (i : Nat) (ring : Segment α × History α) (t : AppTask α) :
    ShmSystem α :=
  (s.setRing i ring.1 ring.2).setTask t

/-- The driver is at `t` and has left `ring` of segment `i`. -/
def driverAt (s : ShmSystem α) (i : Nat) (ring : Segment α × History α) (io : IOHandler)
    (t : DriverTask α) : ShmSystem α :=
  (s.setRing i ring.1 ring.2).setDriver io t

theorem setRing_setRing (s : ShmSystem α) (i : Nat) (g g' : Segment α) (h h' : History α) :
    (s.setRing i g h).setRing i g' h' = s.setRing i g' h' := by
  simp only [setRing, Shm.modify, Function.update_idem]

theorem setRing_self (s : ShmSystem α) (i : Nat) :
    s.setRing i (s.shm.segment i) (s.history i) = s := by
  simp only [setRing, Shm.modify, Function.update_eq_self]

theorem ring_setRing (s : ShmSystem α) (i : Nat) (ring : Segment α × History α) :
    (s.setRing i ring.1 ring.2).ring i = ring := by
  simp only [ShmSystem.ring, setRing, Shm.modify, Function.update_self]

theorem appAt_appAt (s : ShmSystem α) (i : Nat) (ring ring' : Segment α × History α)
    (t t' : AppTask α) : (s.appAt i ring t).appAt i ring' t' = s.appAt i ring' t' := by
  show (((s.setRing i ring.1 ring.2).setTask t).setRing i ring'.1 ring'.2).setTask t' = _
  rw [appAt, ← s.setRing_setRing i ring.1 ring'.1 ring.2 ring'.2]
  rfl

theorem driverAt_driverAt (s : ShmSystem α) (i : Nat) (ring ring' : Segment α × History α)
    (io io' : IOHandler) (t t' : DriverTask α) :
    (s.driverAt i ring io t).driverAt i ring' io' t' = s.driverAt i ring' io' t' := by
  show (((s.setRing i ring.1 ring.2).setDriver io t).setRing i ring'.1 ring'.2).setDriver io' t' = _
  rw [driverAt, ← s.setRing_setRing i ring.1 ring'.1 ring.2 ring'.2]
  rfl

/-! ## Ring operations -/

variable [Zero α]

/-- The app's step of a `write` is an access of its ring. -/
theorem step_write {op : WriteOp α} (s : ShmSystem α) (htask : s.app.task = .write i op) :
    step s (.app true) = some (s.appAt i (op.access (s.ring i)).1
      (match (op.access (s.ring i)).2 with
        | .running op' => .write i op'
        | .returned _ => .idle)) := by
  show s.appStep true = _
  unfold appStep WriteOp.access ShmSystem.ring
  simp only [htask]
  cases (op.step (s.shm.segment i)).2 with
  | running op' => rfl
  | returned ok => rfl

/-- A `write` in progress runs to its end. -/
theorem write_reaches {op : WriteOp α} {ring ring' : Segment α × History α} {ok : Bool}
    (halone : Alone WriteOp.access ring op ring' ok) (s : ShmSystem α) (hring : s.ring i = ring)
    (htask : s.app.task = .write i op) : Reaches step s (s.appAt i ring' .idle) := by
  induction halone generalizing s with
  | last haccess =>
    have hstep := s.step_write htask
    rw [hring, haccess] at hstep
    exact Reaches.single (.app true) hstep
  | @more _ ring₁ ring₂ _ op' _ haccess _ ih =>
    have hstep := s.step_write htask
    rw [hring, haccess] at hstep
    -- one access, and the rest from the ring it leaves
    have hrest := ih (s.appAt i ring₁ (.write i op')) (s.ring_setRing i ring₁) rfl
    rw [appAt_appAt] at hrest
    exact Reaches.head (.app true) hstep hrest

/-- The ring and the history after a whole `write`. -/
def written (s : ShmSystem α) (i : Nat) (block : List α) : ShmSystem α :=
  s.setRing i ((s.shm.segment i).write block).2
    ((s.history i).write ((s.shm.segment i).write block).1 block)

/-- `noise_engine_process_and_write` with nothing in between writes its block at once. -/
theorem processAndWrite_alone (s : ShmSystem α) (outputBuf : Nat → α) (numFrames : Nat)
    (hidle : s.app.task = .idle) (hseg : s.app.buffer.bind (·.segment) = some i) :
    Reaches step s (s.written i ((List.range (u32 (numFrames * 2))).map outputBuf)) := by
  generalize hblock : (List.range (u32 (numFrames * 2))).map outputBuf = block
  have hstart : step s (.processAndWrite outputBuf numFrames) =
      some (s.setTask (.write i (.loadWritePos block))) := by
    unfold step
    simp only [hidle, hseg, hblock]
  have hrest := write_reaches ((s.shm.segment i).write_alone (s.history i) block)
    (s.setTask (.write i (.loadWritePos block))) rfl rfl
  have hend : (s.setTask (.write i (.loadWritePos block))).appAt i
      (((s.shm.segment i).write block).2,
        (s.history i).write ((s.shm.segment i).write block).1 block) .idle =
      s.written i block := by
    show { s.written i block with app := { s.app with task := .idle } } = s.written i block
    rw [← hidle]
    rfl
  rw [hend] at hrest
  exact Reaches.head _ hstart hrest

/-! ## The consumer's operations -/

/-- The system with one more callback answered. -/
def logged (e : Callback α) (s : ShmSystem α) : ShmSystem α := { s with log := s.log ++ [e] }

/-- The driver has left `ring` of segment `i`, and its `read` at `start` returned. -/
def readDone (s : ShmSystem α) (i : Nat) (ring : Segment α × History α) (bytesCount start : Nat) :
    ReadResult α → ShmSystem α
  | .samples buf =>
    (s.driverAt i ring { s.driver.io with wasUnderrun := false } .idle).logged
      ⟨bytesCount, some (i, buf), start, s.flushed⟩
  | _ =>
    (s.driverAt i ring { s.driver.io with wasUnderrun := true } .idle).logged
      ⟨bytesCount, none, 0, s.flushed⟩

/-- The driver's step of a `read` is an access of its ring. -/
theorem step_read {op : ReadOp α} {bytesCount : Nat} (s : ShmSystem α)
    (htask : s.driver.task = .read i op bytesCount) :
    step s (.driver true) = some
      (match (op.access (s.ring i)).2 with
        | .running op' =>
          s.driverAt i (op.access (s.ring i)).1 s.driver.io (.read i op' bytesCount)
        | .returned res =>
          s.readDone i (op.access (s.ring i)).1 bytesCount (s.history i).consumed res) := by
  show s.driverStep true = _
  unfold driverStep ReadOp.access ShmSystem.ring
  simp only [htask]
  cases (op.step (s.shm.segment i)).2 with
  | running op' => rfl
  | returned res =>
    cases res with
    | samples buf => rfl
    | refused => rfl
    | flushed => rfl

/-- A `read` in progress runs to its end. -/
theorem read_reaches {op : ReadOp α} {ring ring' : Segment α × History α} {res : ReadResult α}
    {bytesCount : Nat} (halone : Alone ReadOp.access ring op ring' res) (s : ShmSystem α)
    (hring : s.ring i = ring) (htask : s.driver.task = .read i op bytesCount) :
    Reaches step s (s.readDone i ring' bytesCount ring.2.consumed res) := by
  induction halone generalizing s with
  | @last _ ring' op res haccess =>
    have hstep := s.step_read htask
    have hstart : (s.history i).consumed = (s.ring i).2.consumed := rfl
    rw [hstart, hring, haccess] at hstep
    exact Reaches.single (.driver true) hstep
  | @more ring ring₁ ring₂ op op' res haccess _ ih =>
    have hstep := s.step_read htask
    rw [hring, haccess] at hstep
    -- the history stays as it is until the end
    have hhist : ring₁.2 = ring.2 := by
      simp only [ReadOp.access, Prod.mk.injEq] at haccess
      rw [← haccess.1]
      exact ReadOp.record_running ring.2 haccess.2
    have hrest := ih (s.driverAt i ring₁ s.driver.io (.read i op' bytesCount))
      (s.ring_setRing i ring₁) rfl
    have hend : (s.driverAt i ring₁ s.driver.io (.read i op' bytesCount)).readDone i ring₂
        bytesCount ring₁.2.consumed res = s.readDone i ring₂ bytesCount ring.2.consumed res := by
      rw [hhist]
      cases res with
      | samples buf =>
        exact congrArg (logged ⟨bytesCount, some (i, buf), ring.2.consumed, s.flushed⟩)
          (s.driverAt_driverAt i ring₁ ring₂ _ _ _ .idle)
      | refused =>
        exact congrArg (logged ⟨bytesCount, none, 0, s.flushed⟩)
          (s.driverAt_driverAt i ring₁ ring₂ _ _ _ .idle)
      | flushed =>
        exact congrArg (logged ⟨bytesCount, none, 0, s.flushed⟩)
          (s.driverAt_driverAt i ring₁ ring₂ _ _ _ .idle)
    rw [hend] at hrest
    exact Reaches.head (.driver true) hstep hrest

/-- The ring and the history after a whole `read`, and its answer. -/
def served (s : ShmSystem α) (i n bytesCount : Nat) : ShmSystem α :=
  s.readDone i
    (((s.shm.segment i).read n).2, (s.history i).read ((s.shm.segment i).read n).1.isSome n)
    bytesCount (s.history i).consumed (Segment.readResult ((s.shm.segment i).read n).1)

theorem read_alone {n bytesCount : Nat} (s : ShmSystem α)
    (htask : s.driver.task = .read i (.loadReadPos n) bytesCount) :
    Reaches step s (s.served i n bytesCount) :=
  read_reaches ((s.shm.segment i).read_alone (s.history i) n) s rfl htask

/-- A whole `flush`, up to the return of `ensureConnected`. -/
theorem flush_alone {request : Option Nat} (s : ShmSystem α)
    (htask : s.driver.task = .flush i .flushLoad request) :
    Reaches step s
      (available { s.setRing i (s.shm.segment i).flush ((s.history i).flush (s.shm.segment i)) with
        flushed := (s.history i).written.length }
        { s.driver.io with reconnectCountdown := 0, wasEverConnected := true } i request) := by
  have hload : step s (.driver true) = some { s.setDriver s.driver.io
      (.flush i (.flushStore (s.shm.segment i).header.writePos) request) with
      flushed := (s.history i).written.length } := by
    show s.driverStep true = _
    unfold driverStep
    simp only [htask, ReadOp.step, ReadOp.record, setRing_self]
    rfl
  exact Reaches.head (.driver true) hload (Reaches.single (.driver true) rfl)

/-! ## A callback -/

/-- `t` is `s` after a callback that answered `out.1` and left `out.2` of the handler and the
    shared memory. -/
structure Answered (s t : ShmSystem α) (bytesCount : Nat)
    (out : Option (List α) × IOHandler × Shm α) : Prop where
  app : t.app = s.app
  task : t.driver.task = .idle
  log : ∃ e, t.log = s.log ++ [e] ∧ e.bytesCount = bytesCount ∧ e.answer.map (·.2) = out.1
  io : t.driver.io = out.2.1
  shm : t.shm = out.2.2

/-- A callback on an active segment with a fresh heartbeat comes to its `read`. -/
theorem reaches_read {io io' : IOHandler} {bytesCount : Nat} (s : ShmSystem α)
    (hdriver : s.driver = ⟨io, .isActive i bytesCount⟩)
    (hactive : (s.shm.segment i).isActive = true)
    (hcheck : io.checkHeartbeat (s.shm.segment i).getHeartbeat = (false, io')) :
    Reaches step s (s.setDriver io'
      (.read i (.loadReadPos (IOHandler.totalSamples bytesCount)) bytesCount)) := by
  have hstep : step s (.driver true) = some (s.setDriver io (.getHeartbeat i bytesCount)) := by
    show s.driverStep true = _
    unfold driverStep
    simp only [hdriver, hactive, ↓reduceIte]
  have hnext : step (s.setDriver io (.getHeartbeat i bytesCount)) (.driver true) =
      some (s.setDriver io'
        (.read i (.loadReadPos (IOHandler.totalSamples bytesCount)) bytesCount)) := by
    show (s.setDriver io (.getHeartbeat i bytesCount)).driverStep true = _
    unfold driverStep
    simp only [setDriver, hcheck, Bool.false_eq_true, ↓reduceIte]
  exact Reaches.head (.driver true) hstep (Reaches.single (.driver true) hnext)

/-- A callback that is connected to segment `i`. -/
theorem serve_alone {b : SharedRingBuffer} {io : IOHandler} {bytesCount : Nat} (s : ShmSystem α)
    (hdriver : s.driver = ⟨io.markConnected, .isActive i bytesCount⟩)
    (hseg : b.segment = some i) :
    ∃ t, Reaches step s t ∧ Answered s t bytesCount (io.serve shmConsumer b s.shm bytesCount) := by
  have hisActive : shmConsumer.isActive b s.shm = ((s.shm.segment i).isActive, s.shm) := by
    simp only [shmConsumer, hseg, Option.any_some]
  have hheartbeat :
      shmConsumer.getHeartbeat b s.shm = ((s.shm.segment i).getHeartbeat, s.shm) := by
    simp only [shmConsumer, hseg, Option.elim]
  unfold IOHandler.serve
  simp only [hisActive, hheartbeat]
  cases hactive : (s.shm.segment i).isActive with
  | false =>
    -- the producer is inactive
    have hstep : step s (.driver true) =
        some (s.silence io.markConnected.disconnect bytesCount) := by
      show s.driverStep true = _
      unfold driverStep
      simp only [hdriver, hactive, ↓reduceIte, Bool.false_eq_true]
    refine ⟨_, Reaches.single (.driver true) hstep, ?_⟩
    exact ⟨rfl, rfl, ⟨_, rfl, rfl, rfl⟩, rfl, rfl⟩
  | true =>
    simp only [Bool.not_true, Bool.false_eq_true, ↓reduceIte]
    cases hcheck : io.markConnected.checkHeartbeat (s.shm.segment i).getHeartbeat with
    | mk stale io' =>
      cases stale with
      | true =>
        have hstep : step s (.driver true) =
            some (s.setDriver io.markConnected (.getHeartbeat i bytesCount)) := by
          show s.driverStep true = _
          unfold driverStep
          simp only [hdriver, hactive, ↓reduceIte]
        -- the heartbeat is stale
        have hnext :
            step (s.setDriver io.markConnected (.getHeartbeat i bytesCount)) (.driver true) =
              some (s.silence io'.disconnect bytesCount) := by
          show (s.setDriver io.markConnected (.getHeartbeat i bytesCount)).driverStep true = _
          unfold driverStep
          simp only [setDriver, hcheck, ↓reduceIte]
          rfl
        refine ⟨_, Reaches.head (.driver true) hstep (Reaches.single (.driver true) hnext), ?_⟩
        exact ⟨rfl, rfl, ⟨_, rfl, rfl, rfl⟩, rfl, rfl⟩
      | false =>
        -- both checks pass, and the ring is read
        have hread := read_alone (i := i) (s.setDriver io'
          (.read i (.loadReadPos (IOHandler.totalSamples bytesCount)) bytesCount)) rfl
        refine ⟨_, (reaches_read s hdriver hactive hcheck).trans hread, ?_⟩
        have hcall : shmConsumer.read b (IOHandler.totalSamples bytesCount) s.shm =
            (((s.shm.segment i).read (IOHandler.totalSamples bytesCount)).1,
              s.shm.modify i fun _ =>
                ((s.shm.segment i).read (IOHandler.totalSamples bytesCount)).2) := by
          simp only [shmConsumer, SharedRingBuffer.read, hseg]
        simp only [Bool.false_eq_true, ↓reduceIte, hcall]
        unfold served
        simp only [setDriver]
        cases ((s.shm.segment i).read (IOHandler.totalSamples bytesCount)).1 with
        | none => exact ⟨rfl, rfl, ⟨_, rfl, rfl, rfl⟩, rfl, rfl⟩
        | some buf => exact ⟨rfl, rfl, ⟨_, rfl, rfl, rfl⟩, rfl, rfl⟩

/-- The opening constructor and the `flush` after it. -/
theorem connect_alone {io : IOHandler} {request : Option Nat} (s : ShmSystem α)
    (hdriver : s.driver = ⟨io, .shmOpen request⟩) :
    ((SharedRingBuffer.openExisting s.shm shmName .ok).segment = none ∧
      Reaches step s (s.unavailable { io with sharedBuffer := none } request)) ∨
    ∃ i, (SharedRingBuffer.openExisting s.shm shmName .ok).segment = some i ∧
      Reaches step s
        (available
          { s.setRing i (s.shm.segment i).flush ((s.history i).flush (s.shm.segment i)) with
            flushed := (s.history i).written.length }
          (io.attach (SharedRingBuffer.openExisting s.shm shmName .ok)) i request) := by
  unfold SharedRingBuffer.openExisting
  cases hname : s.shm.names shmName with
  | none =>
    have hopen : step s (.driver true) =
        some (s.unavailable { io with sharedBuffer := none } request) := by
      show s.driverStep true = _
      unfold driverStep
      simp only [hdriver, hname]
    exact .inl ⟨rfl, Reaches.single (.driver true) hopen⟩
  | some i =>
    have hopen : step s (.driver true) = some (s.setDriver io (.fstat i request)) := by
      show s.driverStep true = _
      unfold driverStep
      simp only [hdriver, hname]
    -- `fstat` gives the size, and `mmap` fails only if it is zero
    have hfstat : step (s.setDriver io (.fstat i request)) (.driver true) =
        some (s.setDriver io (.mmap i (s.shm.segment i).size request)) := rfl
    have hmmap : step (s.setDriver io (.mmap i (s.shm.segment i).size request)) (.driver true) =
        if (s.shm.segment i).size == 0 then
          some (s.unavailable { io with sharedBuffer := none } request)
        else some (s.setDriver
          { io with sharedBuffer := some ⟨some i, (s.shm.segment i).size, false, shmName⟩ }
          (.flush i .flushLoad request)) := by
      cases request with
      | none => rfl
      | some bytesCount => rfl
    have hmapped := Reaches.head (ShmLabel.driver true) hopen
      (Reaches.single (ShmLabel.driver true) hfstat)
    by_cases hzero : (s.shm.segment i).size == 0
    · left
      simp only [hzero, ↓reduceIte] at hmmap
      simp only [SysCalls.ok, Bool.not_true, Bool.or_self, Bool.false_eq_true, ↓reduceIte, hzero,
        Bool.or_true, true_and]
      exact hmapped.trans (Reaches.single (.driver true) hmmap)
    · right
      simp only [hzero, Bool.false_eq_true, ↓reduceIte] at hmmap
      simp only [SysCalls.ok, Bool.not_true, Bool.or_self, Bool.false_eq_true, ↓reduceIte, hzero]
      -- the segment is mapped and flushed
      have hflush := flush_alone (i := i) (s.setDriver
        { io with sharedBuffer := some ⟨some i, (s.shm.segment i).size, false, shmName⟩ }
        (.flush i .flushLoad request)) rfl
      refine ⟨i, rfl, hmapped.trans (Reaches.head (.driver true) hmmap ?_)⟩
      cases request with
      | none => exact hflush
      | some bytesCount => exact hflush

theorem isConnected_iff (io : IOHandler) : io.isConnected = io.segment.isSome := by
  unfold IOHandler.isConnected IOHandler.segment SharedRingBuffer.isValid
  cases io.sharedBuffer with
  | none => rfl
  | some b => rfl

/-- `OnReadClientInput` with nothing in between is `onReadClientInput` on the shared memory. -/
theorem readClientInput_alone (s : ShmSystem α) (bytesCount : Nat)
    (hidle : s.driver.task = .idle) :
    ∃ t, Reaches step s t ∧ Answered s t bytesCount
      (s.driver.io.onReadClientInput shmConsumer s.shm bytesCount) := by
  generalize hio : s.driver.io = io
  have hstart : step s (.readClientInput bytesCount) =
      some (s.ensureConnected io (some bytesCount)) := by
    unfold step
    simp only [hidle, hio]
  unfold IOHandler.onReadClientInput IOHandler.ensureConnected
  rw [isConnected_iff]
  unfold ShmSystem.ensureConnected at hstart
  cases hseg : io.segment with
  | some i =>
    simp only [hseg] at hstart
    obtain ⟨b, hb, hbseg⟩ : ∃ b, io.sharedBuffer = some b ∧ b.segment = some i :=
      Option.bind_eq_some_iff.mp hseg
    obtain ⟨t, hreach, hanswered⟩ := serve_alone
      (s.available io i (some bytesCount)) rfl hbseg
    refine ⟨t, Reaches.head _ hstart hreach, ?_⟩
    simp only [Option.isSome_some, ↓reduceIte, hb]
    exact ⟨hanswered.app, hanswered.task, hanswered.log, hanswered.io, hanswered.shm⟩
  | none =>
    simp only [hseg] at hstart
    simp only [Option.isSome_none, Bool.false_eq_true, ↓reduceIte]
    by_cases hwait : 0 < io.reconnectCountdown
    · -- throttled
      simp only [hwait, ↓reduceIte] at hstart ⊢
      refine ⟨_, Reaches.single _ hstart, ?_⟩
      exact ⟨rfl, rfl, ⟨_, rfl, rfl, rfl⟩, rfl, rfl⟩
    · simp only [hwait, ↓reduceIte] at hstart ⊢
      have hopen : shmConsumer.openExisting s.shm =
          (SharedRingBuffer.openExisting s.shm shmName .ok, s.shm) := rfl
      simp only [hopen]
      rcases connect_alone (s.setDriver io.beginAttempt (.shmOpen (some bytesCount))) rfl with
        ⟨hnone, hreach⟩ | ⟨i, hsome, hreach⟩
      · have hnone' : (SharedRingBuffer.openExisting s.shm shmName .ok).segment = none := hnone
        have hinvalid : (SharedRingBuffer.openExisting s.shm shmName .ok).isValid = false := by
          unfold SharedRingBuffer.isValid
          rw [hnone']
          rfl
        rw [hinvalid]
        refine ⟨_, Reaches.head _ hstart hreach, ?_⟩
        exact ⟨rfl, rfl, ⟨_, rfl, rfl, rfl⟩, rfl, rfl⟩
      · have hsome' : (SharedRingBuffer.openExisting s.shm shmName .ok).segment = some i := hsome
        have hvalid : (SharedRingBuffer.openExisting s.shm shmName .ok).isValid = true := by
          unfold SharedRingBuffer.isValid
          rw [hsome']
          rfl
        rw [hvalid]
        have hflush : shmConsumer.flush (SharedRingBuffer.openExisting s.shm shmName .ok) s.shm =
            s.shm.modify i Segment.flush := by
          simp only [shmConsumer, SharedRingBuffer.flush, hsome']
        simp only [Bool.not_true, Bool.false_eq_true, ↓reduceIte, hflush]
        -- connected: the rest is `serve` on the flushed segment
        obtain ⟨t, hserve, hanswered⟩ := serve_alone
          (available
            { s.setRing i (s.shm.segment i).flush ((s.history i).flush (s.shm.segment i)) with
              flushed := (s.history i).written.length }
            (io.beginAttempt.attach (SharedRingBuffer.openExisting s.shm shmName .ok)) i
            (some bytesCount)) rfl hsome'
        refine ⟨t, Reaches.head _ hstart (hreach.trans hserve), ?_⟩
        exact ⟨hanswered.app, hanswered.task, hanswered.log, hanswered.io, hanswered.shm⟩

/-! ## A steady connection -/

/-- Both sides are between two calls and use segment `i`, which is `g` with history `h`. -/
structure Steady (s : ShmSystem α) (i : Nat) (g : Segment α) (h : History α) : Prop where
  app : s.app.task = .idle
  buffer : s.app.buffer.bind (·.segment) = some i
  driver : s.driver.task = .idle
  connected : s.driver.io.segment = some i
  segment : s.shm.segment i = g
  history : s.history i = h

variable {s : ShmSystem α} {g g' : Segment α} {h : History α}

/-- A call of the app that writes its block. -/
theorem Steady.write (hs : s.Steady i g h) (block : List α) (outputBuf : Nat → α)
    (numFrames : Nat) (hblock : (List.range (u32 (numFrames * 2))).map outputBuf = block)
    (hwrite : g.write block = (true, g')) :
    ∃ t, Reaches step s t ∧ t.Steady i g' (h.write true block) ∧ t.driver = s.driver := by
  have hreach := processAndWrite_alone s outputBuf numFrames hs.app hs.buffer
  rw [hblock] at hreach
  refine ⟨_, hreach, ⟨hs.app, hs.buffer, hs.driver, hs.connected, ?_, ?_⟩, rfl⟩
  · simp only [written, setRing, Shm.modify, Function.update_self, hs.segment, hwrite]
  · simp only [written, setRing, Function.update_self, hs.segment, hs.history, hwrite]

/-- A callback with a fresh heartbeat comes to its `read`. -/
theorem Steady.callback {io : IOHandler} (hs : s.Steady i g h) (bytesCount : Nat)
    (hactive : g.isActive = true)
    (hcheck : s.driver.io.markConnected.checkHeartbeat g.getHeartbeat = (false, io)) :
    Reaches step s (s.setDriver io
      (.read i (.loadReadPos (IOHandler.totalSamples bytesCount)) bytesCount)) := by
  have hstart : step s (.readClientInput bytesCount) =
      some (s.setDriver s.driver.io.markConnected (.isActive i bytesCount)) := by
    unfold step ShmSystem.ensureConnected
    simp only [hs.driver, hs.connected]
    rfl
  rw [← hs.segment] at hactive hcheck
  exact Reaches.head _ hstart (reaches_read _ rfl hactive hcheck)

/-- A `read` that delivers ends the callback. -/
theorem Steady.deliver {n bytesCount : Nat} {buf : List α} {io : IOHandler} (hs : s.Steady i g h)
    (hio : io.segment = some i) (hread : g.read n = (some buf, g')) :
    ∃ t, Reaches step (s.setDriver io (.read i (.loadReadPos n) bytesCount)) t ∧
      t.Steady i g' (h.read true n) ∧ t.driver.io = { io with wasUnderrun := false } ∧
      ∃ e ∈ t.log, e.answer = some (i, buf) := by
  have hreach := read_alone (s.setDriver io (.read i (.loadReadPos n) bytesCount)) rfl
  have hserved : (s.setDriver io (.read i (.loadReadPos n) bytesCount)).served i n bytesCount =
      (s.driverAt i (g', h.read true n) { io with wasUnderrun := false } .idle).logged
        ⟨bytesCount, some (i, buf), h.consumed, s.flushed⟩ := by
    unfold served
    simp only [setDriver, hs.segment, hs.history, hread]
    rfl
  rw [hserved] at hreach
  refine ⟨_, hreach, ⟨hs.app, hs.buffer, rfl, hio, ?_, ?_⟩, rfl, _,
    List.mem_append_right _ List.mem_cons_self, rfl⟩
  · simp only [logged, driverAt, setDriver, setRing, Shm.modify, Function.update_self]
  · simp only [logged, driverAt, setDriver, setRing, Function.update_self]

end ShmSystem

end Noise
