import NoiseAI.Native.RingSteps
import NoiseAI.Native.IOHandler

/-!
# The app and the driver, one shared access at a time

`ShmSystem` is the app's process with one handle, the driver with one handler, and the shared
memory between them. A label starts a call or performs the next system call, header store or
ring access of the one in progress, so every interleaving of the two sides is a run. System
calls may fail. A crash ends the app wherever it is and leaves everything it has
shared behind; the next process starts without a segment.

The app's calls are `noise_shm_create`, `noise_engine_process_and_write` (the block is what
`process_frame` left in the output buffer) and `noise_shm_destroy`. The driver's are
`OnStartIO`, `OnStopIO` and `OnReadClientInput`.
-/

namespace Noise

variable {α : Type}

/-! ## The app -/

/-- What a creating constructor is called with. -/
structure CreateArgs where
  capacity : Nat
  channels : Nat
  sampleRate : Nat
  deriving DecidableEq, Repr

/-- `shm_size_` of a creating constructor. -/
def CreateArgs.shmSize (args : CreateArgs) : Nat :=
  u64 (sizeofHeader + args.capacity * sizeofFloat)

/-- The header stores of a creating constructor, in program order. -/
inductive InitStore where
  | writePos
  | readPos
  | capacity
  | channels
  | sampleRate
  | active
  | heartbeat
  deriving DecidableEq, Repr

/-- The header after a store. -/
def InitStore.store (args : CreateArgs) (h : SharedRingBufferHeader) :
    InitStore → SharedRingBufferHeader
  | .writePos => { h with writePos := 0 }
  | .readPos => { h with readPos := 0 }
  | .capacity => { h with capacity := u32 args.capacity }
  | .channels => { h with channels := args.channels }
  | .sampleRate => { h with sampleRate := args.sampleRate }
  | .active => { h with active := 1 }
  | .heartbeat => { h with heartbeat := 0 }

/-- The store after this one. -/
def InitStore.next : InitStore → Option InitStore
  | .writePos => some .readPos
  | .readPos => some .capacity
  | .capacity => some .channels
  | .channels => some .sampleRate
  | .sampleRate => some .active
  | .active => some .heartbeat
  | .heartbeat => none

/-- What the app's thread does next. -/
inductive AppTask (α : Type) where
  | idle
  -- the creating constructor; `undo` is the `shm_unlink` after a failed call
  | shmUnlink (args : CreateArgs)
  | shmOpen (args : CreateArgs)
  | ftruncate (i : Nat) (args : CreateArgs)
  | mmap (i : Nat) (args : CreateArgs)
  | init (field : InitStore) (i : Nat) (args : CreateArgs)
  | undo (args : CreateArgs)
  -- the destructor of a creator
  | clearActive (i : Nat) (name : String)
  | unlinkName (name : String)
  -- `write` on the segment of the handle
  | write (i : Nat) (op : WriteOp α)
  deriving DecidableEq, Repr

/-- The app's process: `shared_buffer` of its handle, and its thread. -/
structure App (α : Type) where
  buffer : Option SharedRingBuffer
  task : AppTask α
  deriving DecidableEq, Repr

namespace App

/-- A process without a segment. -/
def new : App α := ⟨none, .idle⟩

/-- The first shared access of a destructor. -/
def destructor (b : SharedRingBuffer) : AppTask α :=
  if b.isCreator then
    match b.segment with
    | some i => .clearActive i b.shmName
    | none => .unlinkName b.shmName
  else .idle

/-- `shared_buffer.reset()`. -/
def reset (a : App α) : App α := ⟨none, a.buffer.elim .idle destructor⟩

/-- `shared_buffer = std::make_unique(...)`: the new object is in place when the old one is
    destroyed. -/
def assign (a : App α) (b : SharedRingBuffer) : App α :=
  ⟨some b, a.buffer.elim .idle destructor⟩

/-- The object a creating constructor leaves. -/
def object (segment : Option Nat) (args : CreateArgs) : SharedRingBuffer :=
  ⟨segment, args.shmSize, true, shmName⟩

end App

/-! ## The driver -/

/-- What the driver's thread does next. `request` is the size of the buffer of the callback
    that is connecting, `none` in `OnStartIO`. -/
inductive DriverTask (α : Type) where
  | idle
  -- the opening constructor
  | shmOpen (request : Option Nat)
  | fstat (i : Nat) (request : Option Nat)
  | mmap (i size : Nat) (request : Option Nat)
  | flush (i : Nat) (op : ReadOp α) (request : Option Nat)
  -- a callback on segment `i`
  | isActive (i bytesCount : Nat)
  | getHeartbeat (i bytesCount : Nat)
  | read (i : Nat) (op : ReadOp α) (bytesCount : Nat)
  deriving DecidableEq, Repr

structure Driver (α : Type) where
  io : IOHandler
  task : DriverTask α
  deriving DecidableEq, Repr

/-- An answered callback: silence, or the samples read from a segment. `start` is the position
    they were read at, and `mark` how many samples of the segment were written when its
    connection flushed it. -/
structure Callback (α : Type) where
  bytesCount : Nat
  answer : Option (Nat × List α)
  start : Nat
  mark : Nat
  deriving DecidableEq, Repr

/-! ## The system -/

structure ShmSystem (α : Type) where
  shm : Shm α
  app : App α
  driver : Driver α
  -- what has happened so far: the capacity each segment was created for, what was written to
  -- it and consumed, what was written when the current connection flushed its segment, and
  -- the callbacks answered
  requested : Nat → Nat
  history : Nat → History α
  flushed : Nat
  log : List (Callback α)

inductive ShmLabel (α : Type) where
  | shmCreate (sampleRate channels : Nat)
  | processAndWrite (outputBuf : Nat → α) (numFrames : Nat)
  | shmDestroy
  | crash
  -- the next step of a side; `false` if it is a system call that fails
  | app (ok : Bool)
  | onStart
  | onStop
  | readClientInput (bytesCount : Nat)
  | driver (ok : Bool)

namespace ShmSystem

/-- No segments, no app, and a driver that has not started. -/
def init [Zero α] : ShmSystem α where
  shm := Shm.empty
  app := .new
  driver := ⟨.new, .idle⟩
  requested := fun _ => 0
  history := fun _ => .empty
  flushed := 0
  log := []

def setApp (s : ShmSystem α) (a : App α) : ShmSystem α := { s with app := a }

def setTask (s : ShmSystem α) (t : AppTask α) : ShmSystem α := s.setApp { s.app with task := t }

def setDriver (s : ShmSystem α) (io : IOHandler) (t : DriverTask α) : ShmSystem α :=
  { s with driver := ⟨io, t⟩ }

def setShm (s : ShmSystem α) (m : Shm α) : ShmSystem α := { s with shm := m }

/-- Segment `i` and its history after a ring access. -/
def setRing (s : ShmSystem α) (i : Nat) (g : Segment α) (h : History α) : ShmSystem α :=
  { s with
    shm := s.shm.modify i fun _ => g
    history := Function.update s.history i h }

/-! ### The app's steps -/

/-- `shm_open(O_CREAT)` finds no segment of that name: a new one. -/
def openCreate [Zero α] (s : ShmSystem α) (args : CreateArgs) : ShmSystem α :=
  let (i, m) := s.shm.openCreate shmName
  { s with
    shm := m
    app := { s.app with task := .ftruncate i args }
    requested := Function.update s.requested i args.capacity
    history := Function.update s.history i .empty }

/-- The next step of the app's thread. -/
def appStep [Zero α] (s : ShmSystem α) (ok : Bool) : Option (ShmSystem α) :=
  match s.app.task with
  | .idle => none
  | .shmUnlink args => some ((s.setShm (s.shm.unlink shmName)).setTask (.shmOpen args))
  | .shmOpen args =>
    if ok then some (s.openCreate args)
    else some (s.setApp (s.app.assign (App.object none args)))
  | .ftruncate i args =>
    if ok then
      some ((s.setShm (s.shm.modify i fun g => { g with size := args.shmSize })).setTask
        (.mmap i args))
    else some (s.setTask (.undo args))
  | .mmap i args =>
    if ok then some (s.setTask (.init .writePos i args)) else some (s.setTask (.undo args))
  | .init field i args =>
    let s := s.setShm (s.shm.modifyHeader i fun h => field.store args h)
    match field.next with
    | some field => some (s.setTask (.init field i args))
    | none => some (s.setApp (s.app.assign (App.object (some i) args)))
  | .undo args =>
    some ((s.setShm (s.shm.unlink shmName)).setApp (s.app.assign (App.object none args)))
  | .clearActive i name =>
    some ((s.setShm (s.shm.modifyHeader i fun h => { h with active := 0 })).setTask
      (.unlinkName name))
  | .unlinkName name => some ((s.setShm (s.shm.unlink name)).setTask .idle)
  | .write i op =>
    let (g, p) := op.step (s.shm.segment i)
    let s := s.setRing i g (op.record (s.history i))
    match p with
    | .running op => some (s.setTask (.write i op))
    | .returned _ => some (s.setTask .idle)

/-! ### The driver's steps -/

/-- A callback returns. -/
def answer (s : ShmSystem α) (io : IOHandler) (bytesCount : Nat) (answer : Option (Nat × List α))
    (start : Nat) : ShmSystem α :=
  { s.setDriver io .idle with log := s.log ++ [⟨bytesCount, answer, start, s.flushed⟩] }

/-- `memset` of the whole buffer. -/
def silence (s : ShmSystem α) (io : IOHandler) (bytesCount : Nat) : ShmSystem α :=
  s.answer io bytesCount none 0

/-- `ensureConnected` has returned `false`. -/
def unavailable (s : ShmSystem α) (io : IOHandler) : Option Nat → ShmSystem α
  | none => s.setDriver io .idle
  | some bytesCount => s.silence { io with wasConnected := false } bytesCount

/-- `ensureConnected` has returned `true`. -/
def available (s : ShmSystem α) (io : IOHandler) (i : Nat) : Option Nat → ShmSystem α
  | none => s.setDriver io .idle
  | some bytesCount => s.setDriver io.markConnected (.isActive i bytesCount)

/-- `ensureConnected`, up to its first system call. -/
def ensureConnected (s : ShmSystem α) (io : IOHandler) (request : Option Nat) : ShmSystem α :=
  match io.segment with
  | some i => s.available io i request
  | none =>
    if 0 < io.reconnectCountdown then
      s.unavailable { io with reconnectCountdown := io.reconnectCountdown - 1 } request
    else s.setDriver io.beginAttempt (.shmOpen request)

/-- The next step of the driver's thread. -/
def driverStep (s : ShmSystem α) (ok : Bool) : Option (ShmSystem α) :=
  let io := s.driver.io
  match s.driver.task with
  | .idle => none
  | .shmOpen request =>
    match ok, s.shm.names shmName with
    | true, some i => some (s.setDriver io (.fstat i request))
    | _, _ => some (s.unavailable { io with sharedBuffer := none } request)
  | .fstat i request =>
    if ok then some (s.setDriver io (.mmap i (s.shm.segment i).size request))
    else some (s.unavailable { io with sharedBuffer := none } request)
  | .mmap i size request =>
    -- mapping zero bytes fails
    if !ok || size == 0 then some (s.unavailable { io with sharedBuffer := none } request)
    else some (s.setDriver { io with sharedBuffer := some ⟨some i, size, false, shmName⟩ }
      (.flush i .flushLoad request))
  | .flush i op request =>
    let g := s.shm.segment i
    let (g', p) := op.step g
    let s := { s.setRing i g' (op.record g (s.history i)) with
      flushed := match op with
        | .flushLoad => (s.history i).written.length
        | _ => s.flushed }
    match p with
    | .running op => some (s.setDriver io (.flush i op request))
    | .returned _ =>
      some (s.available { io with reconnectCountdown := 0, wasEverConnected := true } i request)
  | .isActive i bytesCount =>
    if (s.shm.segment i).isActive then some (s.setDriver io (.getHeartbeat i bytesCount))
    else some (s.silence io.disconnect bytesCount)
  | .getHeartbeat i bytesCount =>
    let (stale, io) := io.checkHeartbeat (s.shm.segment i).getHeartbeat
    if stale then some (s.silence io.disconnect bytesCount)
    else some (s.setDriver io
      (.read i (.loadReadPos (IOHandler.totalSamples bytesCount)) bytesCount))
  | .read i op bytesCount =>
    let g := s.shm.segment i
    let start := (s.history i).consumed
    let (g', p) := op.step g
    let s := s.setRing i g' (op.record g (s.history i))
    match p with
    | .running op => some (s.setDriver io (.read i op bytesCount))
    | .returned (.samples buf) =>
      some (s.answer { io with wasUnderrun := false } bytesCount (some (i, buf)) start)
    | .returned _ => some (s.silence { io with wasUnderrun := true } bytesCount)

/-- One step of the system. Calls start only when their side is idle, and segments are created
    for at least one sample. -/
def step [Zero α] (s : ShmSystem α) : ShmLabel α → Option (ShmSystem α)
  | .shmCreate sampleRate channels =>
    let capacity := NoiseEngineContext.shmCapacity sampleRate channels
    match s.app.task with
    | .idle =>
      if 1 ≤ capacity then some (s.setTask (.shmUnlink ⟨capacity, channels, sampleRate⟩)) else none
    | _ => none
  | .processAndWrite outputBuf numFrames =>
    match s.app.task, s.app.buffer.bind (·.segment) with
    | .idle, some i =>
      let data := (List.range (u32 (numFrames * 2))).map outputBuf
      some (s.setTask (.write i (.loadWritePos data)))
    | .idle, none => some s
    | _, _ => none
  | .shmDestroy =>
    match s.app.task with
    | .idle => some (s.setApp s.app.reset)
    | _ => none
  | .crash => some (s.setApp .new)
  | .app ok => s.appStep ok
  | .onStart =>
    match s.driver.task with
    | .idle => some (s.ensureConnected .new none)
    | _ => none
  | .onStop =>
    match s.driver.task with
    | .idle => some (s.setDriver s.driver.io.onStopIO .idle)
    | _ => none
  | .readClientInput bytesCount =>
    match s.driver.task with
    | .idle => some (s.ensureConnected s.driver.io (some bytesCount))
    | _ => none
  | .driver ok => s.driverStep ok

end ShmSystem

end Noise
