import NoiseAI.Native.Bridge

/-!
# The driver's IO handler

Model of `driver/src/io_handler.cpp`. The handler talks to shared memory through a
`Consumer`: the calls it makes on a `SharedRingBuffer`, as operations on a state `σ` that
belongs to someone else. `shmConsumer` is the shared memory of `SharedRingBuffer`.

What a callback puts into the buffer of the client is `none` for `memset` (silence) and
`some` samples for what `read` delivers. The client, the stream and the timestamps are
arguments the source does not use. Logging is left out.
-/

namespace Noise

variable {σ α : Type}

/-- The fields of `IOHandler`. `sharedBuffer` is `none` for a null pointer. -/
structure IOHandler where
  sharedBuffer : Option SharedRingBuffer
  reconnectCountdown : Nat
  wasConnected : Bool
  wasUnderrun : Bool
  wasEverConnected : Bool
  lastHeartbeat : Nat
  staleCount : Nat
  deriving DecidableEq, Repr

/-- The calls the handler makes on shared memory. -/
structure Consumer (σ α : Type) where
  openExisting : σ → SharedRingBuffer × σ
  flush : SharedRingBuffer → σ → σ
  isActive : SharedRingBuffer → σ → Bool × σ
  getHeartbeat : SharedRingBuffer → σ → Nat × σ
  read : SharedRingBuffer → Nat → σ → Option (List α) × σ

/-- The handler's calls on the shared memory of this process, with all system calls that can
    succeed doing so. -/
def shmConsumer : Consumer (Shm α) α where
  openExisting := fun m => (SharedRingBuffer.openExisting m shmName .ok, m)
  flush := fun b m => b.flush m
  isActive := fun b m => (b.segment.any fun i => (m.segment i).isActive, m)
  getHeartbeat := fun b m => (b.segment.elim 0 fun i => (m.segment i).getHeartbeat, m)
  read := fun b n m => b.read m n

namespace IOHandler

def kChannels : Nat := 2

/-- About 500 ms of callbacks. -/
def kStaleThreshold : Nat := 50

/-- `IOHandler::IOHandler`. -/
def new : IOHandler where
  sharedBuffer := none
  reconnectCountdown := 0
  wasConnected := false
  wasUnderrun := false
  wasEverConnected := false
  lastHeartbeat := 0
  staleCount := 0

/-- The segment that the handler has mapped. -/
def segment (io : IOHandler) : Option Nat := io.sharedBuffer.bind (·.segment)

/-- `shared_buffer_ && shared_buffer_->is_valid()`. -/
def isConnected (io : IOHandler) : Bool := io.sharedBuffer.any (·.isValid)

/-- Set the throttle for the attempts after this one: short until the first connection. -/
def beginAttempt (io : IOHandler) : IOHandler :=
  { io with reconnectCountdown := if io.wasEverConnected then 47 else 5 }

/-- The attempt succeeded. -/
def attach (io : IOHandler) (b : SharedRingBuffer) : IOHandler :=
  { io with sharedBuffer := some b, reconnectCountdown := 0, wasEverConnected := true }

/-- Drop the segment, so that `ensureConnected` picks up a new one. -/
def disconnect (io : IOHandler) : IOHandler :=
  { io with sharedBuffer := none, wasConnected := false, lastHeartbeat := 0, staleCount := 0 }

/-- Remember that a callback found a segment. -/
def markConnected (io : IOHandler) : IOHandler :=
  if !io.wasConnected then { io with wasConnected := true, wasUnderrun := false } else io

/-- Compare the heartbeat with the last one seen; `true` when it has been the same for
    `kStaleThreshold` callbacks. -/
def checkHeartbeat (io : IOHandler) (hb : Nat) : Bool × IOHandler :=
  if hb = io.lastHeartbeat then
    let io := { io with staleCount := io.staleCount + 1 }
    (kStaleThreshold ≤ io.staleCount, io)
  else (false, { io with lastHeartbeat := hb, staleCount := 0 })

/-- `ensureConnected`. -/
def ensureConnected (w : Consumer σ α) (io : IOHandler) (s : σ) : Bool × IOHandler × σ :=
  if io.isConnected then (true, io, s)
  else if 0 < io.reconnectCountdown then
    (false, { io with reconnectCountdown := io.reconnectCountdown - 1 }, s)
  else
    let io := io.beginAttempt
    let (b, s) := w.openExisting s
    if !b.isValid then (false, { io with sharedBuffer := none }, s)
    else (true, io.attach b, w.flush b s)

/-- `OnStartIO`. -/
def onStartIO (w : Consumer σ α) (_io : IOHandler) (s : σ) : IOHandler × σ :=
  let (_, io, s) := new.ensureConnected w s
  (io, s)

/-- `OnStopIO`: only `was_ever_connected_` stays. -/
def onStopIO (io : IOHandler) : IOHandler := { new with wasEverConnected := io.wasEverConnected }

/-- Samples of a request: whole frames only. -/
def totalSamples (bytesCount : Nat) : Nat := bytesCount / (kChannels * sizeofFloat) * kChannels

/-- What `OnReadClientInput` does with the segment it is connected to. -/
def serve (w : Consumer σ α) (io : IOHandler) (b : SharedRingBuffer) (s : σ) (bytesCount : Nat) :
    Option (List α) × IOHandler × σ :=
  let io := io.markConnected
  let (active, s) := w.isActive b s
  if !active then (none, io.disconnect, s)
  else
    let (hb, s) := w.getHeartbeat b s
    let (stale, io) := io.checkHeartbeat hb
    if stale then (none, io.disconnect, s)
    else
      match w.read b (totalSamples bytesCount) s with
      | (none, s) => (none, { io with wasUnderrun := true }, s)
      | (some samples, s) => (some samples, { io with wasUnderrun := false }, s)

/-- `OnReadClientInput`. -/
def onReadClientInput (w : Consumer σ α) (io : IOHandler) (s : σ) (bytesCount : Nat) :
    Option (List α) × IOHandler × σ :=
  match io.ensureConnected w s with
  | (false, io, s) => (none, { io with wasConnected := false }, s)
  | (true, io, s) =>
    match io.sharedBuffer with
    | none => (none, io, s)
    | some b => io.serve w b s bytesCount

end IOHandler

end Noise
