import NoiseAI.Native.ShmSystem
import NoiseAI.Spec.HandlerInvariant
import NoiseAI.Spec.RingInvariant

/-!
# The invariant of the app and the driver

What holds between any two steps of the app and the driver. Every segment is a ring with at
most one writer and one reader (`SegmentInv`); the app only writes to a segment it has
initialised (`AppInv`); the driver holds a whole mapping of a segment no older than what it
has delivered from (`DriverInv`); and what it has delivered comes in order (`LogInv`).

Each side changes what the other side relies on only in one direction: `AppMoves` and
`DriverMoves` say in which, and the `of_app` and `of_driver` lemmas carry a side's part of the
invariant over the steps of the other.
-/

namespace Noise

variable {α : Type}

/-- Size of a segment for `capacity` samples. -/
def fullSize (capacity : Nat) : Nat := sizeofHeader + capacity * sizeofFloat

/-- A capacity that the constructor and the 32-bit field of the header can hold. -/
def CreateArgs.Ok (args : CreateArgs) : Prop := 1 ≤ args.capacity ∧ args.capacity < 2 ^ 32

theorem CreateArgs.Ok.shmSize_eq {args : CreateArgs} (h : args.Ok) :
    args.shmSize = fullSize args.capacity := by
  have hlt := h.2
  apply u64_of_lt
  unfold sizeofHeader sizeofFloat
  omega

/-- `header_->capacity` is stored before this store of the constructor. -/
def InitStore.capacityStored : InitStore → Bool
  | .writePos | .readPos | .capacity => false
  | .channels | .sampleRate | .active | .heartbeat => true

namespace ShmSystem

variable {s s' : ShmSystem α} {i : Nat}

/-- The `write` in progress on segment `i`. -/
def writer (s : ShmSystem α) (i : Nat) : Option (WriteOp α) :=
  match s.app.task with
  | .write j op => if j = i then some op else none
  | _ => none

/-- The `read` or `flush` in progress on segment `i`. -/
def reader (s : ShmSystem α) (i : Nat) : Option (ReadOp α) :=
  match s.driver.task with
  | .flush j op _ | .read j op _ => if j = i then some op else none
  | _ => none

/-- Segment `i` is as large as its capacity says, and its header says so. -/
structure Ready (s : ShmSystem α) (i : Nat) : Prop where
  created : i < s.shm.created
  capacity : (s.shm.segment i).header.capacity = s.requested i
  size : (s.shm.segment i).size = fullSize (s.requested i)

/-- Segment `i` is a ring, and marked active only when it is ready. -/
structure SegmentInv (s : ShmSystem α) (i : Nat) : Prop where
  pos : 1 ≤ s.requested i
  lt : s.requested i < 2 ^ 32
  size : (s.shm.segment i).size = 0 ∨ (s.shm.segment i).size = fullSize (s.requested i)
  active : (s.shm.segment i).isActive = true →
    (s.shm.segment i).header.capacity = s.requested i ∧
      (s.shm.segment i).size = fullSize (s.requested i)
  ring : Ring.Inv (s.requested i) (s.shm.segment i) (s.history i) (s.writer i) (s.reader i)
  written : (s.history i).written.length % 2 = 0
  consumed : (s.history i).consumed % 2 = 0

/-- A constructor is at work on segment `i`, to which nothing was written yet. -/
structure Building (s : ShmSystem α) (i : Nat) (args : CreateArgs) : Prop where
  ok : args.Ok
  created : i < s.shm.created
  requested : s.requested i = args.capacity
  written : (s.history i).written = []

/-- What the app's thread can rely on at its next step. -/
def TaskInv (s : ShmSystem α) : AppTask α → Prop
  | .shmUnlink args => args.Ok
  | .shmOpen args => args.Ok ∧ s.shm.names shmName = none
  | .ftruncate i args => s.Building i args
  | .mmap i args => s.Building i args ∧ (s.shm.segment i).size = fullSize (s.requested i)
  | .init field i args =>
    s.Building i args ∧ (s.shm.segment i).size = fullSize (s.requested i) ∧
      (field.capacityStored = true → (s.shm.segment i).header.capacity = s.requested i)
  | .write i op => s.Ready i ∧ op.block.length % 2 = 0
  | _ => True

structure AppInv (s : ShmSystem α) : Prop where
  buffer : ∀ b i, s.app.buffer = some b → b.segment = some i → s.Ready i
  task : s.TaskInv s.app.task

/-- Nothing was delivered from a segment younger than `i`. -/
def Latest (s : ShmSystem α) (i : Nat) : Prop :=
  ∀ e ∈ s.log, ∀ k buf, e.answer = some (k, buf) → k ≤ i

/-- The driver's mapping of segment `i` is whole. -/
structure Mapped (s : ShmSystem α) (i : Nat) : Prop where
  created : i < s.shm.created
  size : (s.shm.segment i).size = fullSize (s.requested i)
  mapping : ∀ b, s.driver.io.sharedBuffer = some b → b.shmSize = fullSize (s.requested i)
  latest : s.Latest i

/-- What the driver's thread can rely on at its next step. -/
def DriverTaskInv (s : ShmSystem α) : DriverTask α → Prop
  | .idle => True
  | .shmOpen _ => s.driver.io.sharedBuffer = none
  | .fstat i _ => s.driver.io.sharedBuffer = none ∧ i < s.shm.created ∧ s.Latest i
  | .mmap i size _ =>
    s.driver.io.sharedBuffer = none ∧ i < s.shm.created ∧ s.Latest i ∧
      (size ≠ 0 → size = fullSize (s.requested i) ∧ (s.shm.segment i).size = size)
  | .flush i op _ =>
    s.driver.io.segment = some i ∧ op.isFlush = true ∧ ∀ w, op = .flushStore w →
      w = u64 s.flushed ∧ s.flushed % 2 = 0 ∧ (s.history i).consumed ≤ s.flushed ∧
        s.flushed ≤ (s.history i).written.length
  | .isActive i _ => s.driver.io.segment = some i
  | .getHeartbeat i _ => s.driver.io.segment = some i ∧ s.Ready i
  | .read i op bytesCount =>
    s.driver.io.segment = some i ∧ s.Ready i ∧ op.isFlush = false ∧
      op.count = IOHandler.totalSamples bytesCount

/-- The driver is between `mmap` and the end of `flush`. -/
def flushing (s : ShmSystem α) : Bool :=
  match s.driver.task with
  | .flush .. => true
  | _ => false

structure DriverInv (s : ShmSystem α) : Prop where
  valid : s.driver.io.segment = none → s.driver.io.sharedBuffer = none
  mapped : ∀ i, s.driver.io.segment = some i → s.Mapped i
  flushed : ∀ i, s.driver.io.segment = some i → s.flushing = false →
    s.flushed ≤ (s.history i).consumed
  task : s.DriverTaskInv s.driver.task

/-- What is true of a delivered buffer: whole frames of what was written, all of it consumed,
    none of it from before the flush of its connection. -/
structure Delivered (s : ShmSystem α) (e : Callback α) (i : Nat) (buf : List α) : Prop where
  created : i < s.shm.created
  length : buf.length = IOHandler.totalSamples e.bytesCount
  aligned : e.start % 2 = 0
  consumed : e.start + buf.length ≤ (s.history i).consumed
  fresh : e.mark ≤ e.start
  samples : (s.history i).written.length < 2 ^ 64 →
    buf = (s.history i).written.slice e.start buf.length

/-- The buffer of `e` lies before the one of `f`. -/
def Before (e f : Callback α) : Prop :=
  ∀ i buf, e.answer = some (i, buf) → ∀ j buf', f.answer = some (j, buf') →
    i < j ∨ (i = j ∧ e.start + buf.length ≤ f.start)

structure LogInv (s : ShmSystem α) : Prop where
  delivered : ∀ e ∈ s.log, ∀ i buf, e.answer = some (i, buf) → s.Delivered e i buf
  ordered : s.log.Pairwise Before

/-- The invariant of the system. -/
structure Inv (s : ShmSystem α) : Prop where
  newest : ∀ i, s.shm.names shmName = some i → i + 1 = s.shm.created
  segments : ∀ i < s.shm.created, s.SegmentInv i
  app : s.AppInv
  driver : s.DriverInv
  log : s.LogInv

/-! ## What the sides may do to each other -/

/-- What a step of the app may do to what the driver relies on. -/
structure AppMoves (s s' : ShmSystem α) : Prop where
  driver : s'.driver = s.driver
  log : s'.log = s.log
  flushed : s'.flushed = s.flushed
  created : s.shm.created ≤ s'.shm.created
  requested : ∀ i < s.shm.created, s'.requested i = s.requested i
  ready : ∀ i, s.Ready i → s'.Ready i
  size : ∀ i < s.shm.created, (s.shm.segment i).size ≠ 0 →
    (s'.shm.segment i).size = (s.shm.segment i).size
  written : ∀ i < s.shm.created, ∃ data,
    (s'.history i).written = (s.history i).written ++ data
  consumed : ∀ i < s.shm.created, (s'.history i).consumed = (s.history i).consumed

/-- What a step of the driver may do to what the app relies on. -/
structure DriverMoves (s s' : ShmSystem α) : Prop where
  app : s'.app = s.app
  names : s'.shm.names = s.shm.names
  created : s'.shm.created = s.shm.created
  requested : s'.requested = s.requested
  capacity : ∀ i, (s'.shm.segment i).header.capacity = (s.shm.segment i).header.capacity
  size : ∀ i, (s'.shm.segment i).size = (s.shm.segment i).size
  written : ∀ i, (s'.history i).written = (s.history i).written
  consumed : ∀ i, (s.history i).consumed ≤ (s'.history i).consumed

theorem DriverMoves.ready (h : DriverMoves s s') (hready : s.Ready i) : s'.Ready i := by
  obtain ⟨hcreated, hcap, hsize⟩ := hready
  refine ⟨?_, ?_, ?_⟩
  · rw [h.created]
    exact hcreated
  · rw [h.capacity, h.requested]
    exact hcap
  · rw [h.size, h.requested]
    exact hsize

theorem DriverMoves.building {args : CreateArgs} (h : DriverMoves s s')
    (hbuild : s.Building i args) : s'.Building i args := by
  obtain ⟨hok, hcreated, hreq, hwritten⟩ := hbuild
  refine ⟨hok, ?_, ?_, ?_⟩
  · rw [h.created]
    exact hcreated
  · rw [h.requested]
    exact hreq
  · rw [h.written]
    exact hwritten

/-- The app's part of the invariant over a step of the driver. -/
theorem AppInv.of_driver (h : DriverMoves s s') (hinv : s.AppInv) : s'.AppInv := by
  constructor
  · intro b j hb hseg
    rw [h.app] at hb
    exact h.ready (hinv.buffer b j hb hseg)
  -- what a step of the app relies on was settled before the driver moved
  · have htask := hinv.task
    rw [h.app]
    cases hs : s.app.task with
    | shmUnlink args =>
      rw [hs] at htask
      exact htask
    | shmOpen args =>
      rw [hs] at htask
      simp only [TaskInv, h.names]
      exact htask
    | ftruncate i args =>
      rw [hs] at htask
      exact h.building htask
    | mmap i args =>
      rw [hs] at htask
      simp only [TaskInv, h.size, h.requested]
      exact ⟨h.building htask.1, htask.2⟩
    | init field i args =>
      rw [hs] at htask
      simp only [TaskInv, h.size, h.requested, h.capacity]
      exact ⟨h.building htask.1, htask.2⟩
    | write i op =>
      rw [hs] at htask
      exact ⟨h.ready htask.1, htask.2⟩
    | idle => trivial
    | undo args => trivial
    | clearActive i name => trivial
    | unlinkName name => trivial

theorem AppMoves.latest (h : AppMoves s s') (hlatest : s.Latest i) : s'.Latest i := by
  unfold Latest
  rw [h.log]
  exact hlatest

theorem fullSize_ne_zero (capacity : Nat) : fullSize capacity ≠ 0 := by
  unfold fullSize sizeofHeader
  omega

theorem AppMoves.mapped (h : AppMoves s s') (hmapped : s.Mapped i) : s'.Mapped i := by
  obtain ⟨hcreated, hsize, hmapping, hlatest⟩ := hmapped
  -- a segment that has its size keeps it, so the mapping stays inside it
  have hreq := h.requested i hcreated
  refine ⟨Nat.lt_of_lt_of_le hcreated h.created, ?_, ?_, h.latest hlatest⟩
  · rw [hreq, h.size i hcreated (by rw [hsize]; exact fullSize_ne_zero _)]
    exact hsize
  · rw [h.driver, hreq]
    exact hmapping

/-- The driver's part of the invariant over a step of the app. -/
theorem DriverInv.of_app (h : AppMoves s s') (hinv : s.DriverInv) : s'.DriverInv := by
  obtain ⟨hvalid, hmapped, hflushed, htask⟩ := hinv
  refine ⟨?_, ?_, ?_, ?_⟩
  · rw [h.driver]
    exact hvalid
  · intro j hj
    rw [h.driver] at hj
    exact h.mapped (hmapped j hj)
  · intro j hj hflushing
    have hj' : s.driver.io.segment = some j := by
      rw [h.driver] at hj
      exact hj
    have hflushing' : s.flushing = false := by
      unfold flushing at hflushing ⊢
      rw [h.driver] at hflushing
      exact hflushing
    rw [h.flushed, h.consumed j (hmapped j hj').created]
    exact hflushed j hj' hflushing'
  · rw [h.driver]
    -- each access of the driver relies on one segment, which the app may only fill
    cases hs : s.driver.task with
    | idle => trivial
    | shmOpen request =>
      rw [hs] at htask
      simp only [DriverTaskInv, h.driver]
      exact htask
    | fstat j request =>
      rw [hs] at htask
      simp only [DriverTaskInv, h.driver]
      exact ⟨htask.1, Nat.lt_of_lt_of_le htask.2.1 h.created, h.latest htask.2.2⟩
    | mmap j size request =>
      rw [hs] at htask
      obtain ⟨hnone, hcreated, hlatest, hsize⟩ := htask
      simp only [DriverTaskInv, h.driver]
      refine ⟨hnone, Nat.lt_of_lt_of_le hcreated h.created, h.latest hlatest, fun hpos => ?_⟩
      obtain ⟨hfull, hsame⟩ := hsize hpos
      rw [h.requested j hcreated, h.size j hcreated (by rw [hsame]; exact hpos)]
      exact ⟨hfull, hsame⟩
    | flush j op request =>
      rw [hs] at htask
      obtain ⟨hseg, hflush, hstore⟩ := htask
      have hcreated := (hmapped j hseg).created
      -- more samples behind the mark do not move it
      obtain ⟨data, hwritten⟩ := h.written j hcreated
      simp only [DriverTaskInv, h.driver]
      refine ⟨hseg, hflush, fun w hw => ?_⟩
      obtain ⟨hmark, heven, hlo, hhi⟩ := hstore w hw
      rw [h.flushed, h.consumed j hcreated, hwritten, List.length_append]
      exact ⟨hmark, heven, hlo, by omega⟩
    | isActive j bytesCount =>
      rw [hs] at htask
      simp only [DriverTaskInv, h.driver]
      exact htask
    | getHeartbeat j bytesCount =>
      rw [hs] at htask
      simp only [DriverTaskInv, h.driver]
      exact ⟨htask.1, h.ready j htask.2⟩
    | read j op bytesCount =>
      rw [hs] at htask
      simp only [DriverTaskInv, h.driver]
      exact ⟨htask.1, h.ready j htask.2.1, htask.2.2⟩

/-- What was delivered stays delivered when histories only grow. -/
theorem Delivered.grow {e : Callback α} {buf : List α}
    (hcreated : s.shm.created ≤ s'.shm.created)
    (hconsumed : (s.history i).consumed ≤ (s'.history i).consumed)
    (hwritten : ∃ data, (s'.history i).written = (s.history i).written ++ data)
    (hle : (s.history i).consumed ≤ (s.history i).written.length)
    (h : s.Delivered e i buf) : s'.Delivered e i buf := by
  obtain ⟨hi, hlen, haligned, hcons, hfresh, hsamples⟩ := h
  obtain ⟨data, hdata⟩ := hwritten
  refine ⟨Nat.lt_of_lt_of_le hi hcreated, hlen, haligned, by omega, hfresh, fun hwrap => ?_⟩
  rw [hdata, List.length_append] at hwrap
  rw [hdata, List.slice_append (by omega)]
  exact hsamples (by omega)

/-- The log over a step of the app. -/
theorem LogInv.of_app (h : AppMoves s s') (hsegments : ∀ i < s.shm.created, s.SegmentInv i)
    (hinv : s.LogInv) : s'.LogInv := by
  constructor
  · intro e he j buf hanswer
    rw [h.log] at he
    have hdel := hinv.delivered e he j buf hanswer
    have hcreated := hdel.created
    exact hdel.grow h.created (Nat.le_of_eq (h.consumed j hcreated).symm) (h.written j hcreated)
      (hsegments j hcreated).ring.positions.consumed_le
  · rw [h.log]
    exact hinv.ordered

/-- The invariant after a step of the app. -/
theorem Inv.of_app (hinv : s.Inv) (h : AppMoves s s')
    (hnewest : ∀ i, s'.shm.names shmName = some i → i + 1 = s'.shm.created)
    (hsegments : ∀ i < s'.shm.created, s'.SegmentInv i) (happ : s'.AppInv) : s'.Inv where
  newest := hnewest
  segments := hsegments
  app := happ
  driver := hinv.driver.of_app h
  log := hinv.log.of_app h hinv.segments

/-- The invariant after a step of the driver. -/
theorem Inv.of_driver (hinv : s.Inv) (h : DriverMoves s s')
    (hsegments : ∀ i < s.shm.created, s'.SegmentInv i) (hdriver : s'.DriverInv)
    (hlog : s'.LogInv) : s'.Inv where
  newest := by
    rw [h.names, h.created]
    exact hinv.newest
  segments := by
    rw [h.created]
    exact hsegments
  app := hinv.app.of_driver h
  driver := hdriver
  log := hlog

/-! ## Segments -/

/-- A segment no side has touched; an operation on it may have ended. -/
theorem SegmentInv.transfer (h : s.SegmentInv i)
    (hseg : s'.shm.segment i = s.shm.segment i) (hhist : s'.history i = s.history i)
    (hreq : s'.requested i = s.requested i)
    (hw : s'.writer i = s.writer i ∨ s'.writer i = none)
    (hr : s'.reader i = s.reader i ∨ s'.reader i = none) : s'.SegmentInv i := by
  obtain ⟨hpos, hlt, hsize, hactive, hring, hwritten, hconsumed⟩ := h
  refine ⟨?_, ?_, ?_, ?_, ?_, ?_, ?_⟩
  · rw [hreq]
    exact hpos
  · rw [hreq]
    exact hlt
  · rw [hseg, hreq]
    exact hsize
  · rw [hseg, hreq]
    exact hactive
  · rw [hseg, hreq, hhist]
    -- each side goes on with its operation, or has given it up
    rcases hw with hw | hw
    · rcases hr with hr | hr
      · rw [hw, hr]
        exact hring
      · rw [hw, hr]
        exact hring.abandon_read
    · rcases hr with hr | hr
      · rw [hw, hr]
        exact hring.abandon_write
      · rw [hw, hr]
        exact hring.abandon_write.abandon_read
  · rw [hhist]
    exact hwritten
  · rw [hhist]
    exact hconsumed

end ShmSystem

end Noise
