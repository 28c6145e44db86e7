import NoiseAI.Spec.HandlerInvariant

/-!
# Connecting, disconnecting and retrying

The handler against an arbitrary producer: `Script` says what shared memory answers during
one callback, and the heartbeat of each segment counts the writes completed on it.
`Connection` records the history, newest event first; connections are numbered.
`connection_history` is what holds after every history: which callbacks drop a segment,
which cannot keep it, and how long the handler waits between two attempts to open one.
-/

namespace Noise

variable {α : Type}

/-- What the calls of one callback return, and whether `openExisting` was among them so far. -/
structure Script (α : Type) where
  opened : Option Nat
  active : Bool
  heartbeat : Nat → Nat
  read : Option (List α)
  attempted : Bool := false

/-- Shared memory that follows a script. -/
def scripted : Consumer (Script α) α where
  openExisting := fun s =>
    ({ segment := s.opened, shmSize := 0, isCreator := false, shmName },
      { s with attempted := true })
  flush := fun _ s => s
  isActive := fun _ s => (s.active, s)
  getHeartbeat := fun b s => (b.segment.elim 0 s.heartbeat, s)
  read := fun _ _ s => (s.read, s)

/-- What happens to the handler and the segments. -/
inductive Happening (α : Type) where
  | write (segment : Nat)
  | onStart (opened : Option Nat)
  | onStop
  | readInput (opened : Option Nat) (active : Bool) (read : Option (List α)) (bytesCount : Nat)

/-- What history records: a completed write; a start, and whether it opened a segment; a stop;
    a callback without a segment, and whether it made an attempt to open one; a callback on a
    connection, with the heartbeat it saw (`none` if the producer was inactive) and whether it
    kept the segment. -/
inductive Event where
  | wrote (segment : Nat)
  | started (connected : Bool)
  | stopped
  | silent (attempted : Bool)
  | served (connection segment : Nat) (seen : Option Nat) (kept : Bool)
  deriving DecidableEq

structure Connection where
  io : IOHandler
  heartbeat : Nat → Nat
  connections : Nat
  log : List Event

namespace Connection

def init : Connection where
  io := .new
  heartbeat := fun _ => 0
  connections := 0
  log := []

/-- The number of connections after a step in which the handler may have attached a segment. -/
def count (c : Connection) (before after : IOHandler) : Nat :=
  if !before.isConnected && after.isConnected then c.connections + 1 else c.connections

def step (c : Connection) : Happening α → Connection
  | .write i =>
    { c with
      heartbeat := Function.update c.heartbeat i (c.heartbeat i + 1)
      log := .wrote i :: c.log }
  | .onStart opened =>
    let s : Script α := { opened, active := true, heartbeat := c.heartbeat, read := none }
    let (io, _) := c.io.onStartIO scripted s
    { c with io := io, connections := c.count .new io, log := .started io.isConnected :: c.log }
  | .onStop => { c with io := c.io.onStopIO, log := .stopped :: c.log }
  | .readInput opened active read bytesCount =>
    let s := { opened, active, heartbeat := c.heartbeat, read }
    let (connected, io, _) := c.io.ensureConnected scripted s
    let (_, io', s') := c.io.onReadClientInput scripted s bytesCount
    let connections := c.count c.io io
    let event := match connected, io.segment with
      | true, some i =>
        .served connections i (if active then some (c.heartbeat i) else none) io'.isConnected
      | _, _ => .silent s'.attempted
    { c with io := io', connections := connections, log := event :: c.log }

/-! ## Histories -/

/-- The callback that ran last, if nothing but writes happened since: its connection, its
    segment and the heartbeat it saw. -/
def lastServed : List Event → Option (Nat × Nat × Option Nat)
  | .wrote _ :: log => lastServed log
  | .served k i seen _ :: _ => some (k, i, seen)
  | _ => none

/-- How many callbacks in a row, up to the newest, saw heartbeat `h` on connection `k`. -/
def stretch (k i h : Nat) : List Event → Nat
  | .wrote _ :: log => stretch k i h log
  | .served k' i' seen _ :: log =>
    if k' = k ∧ i' = i ∧ seen = some h then stretch k i h log + 1 else 0
  | _ => 0

/-- How many callbacks in a row, up to the newest, had no segment and made no attempt. -/
def waiting : List Event → Nat
  | .wrote _ :: log => waiting log
  | .stopped :: log => waiting log
  | .silent false :: log => waiting log + 1
  | _ => 0

/-- A segment was attached since the last start. -/
def everConnected : List Event → Bool
  | [] => false
  | .started connected :: _ => connected
  | .served .. :: _ => true
  | _ :: log => everConnected log

/-- What holds of an event `e` with the history `older` before it: it saw the number of the
    writes before it; it drops an active segment only at the end of a stretch of 50
    callbacks, and keeps one only up to a stretch of 50; and the handler does not wait for
    longer than its throttle. -/
structure Accounted (e : Event) (older : List Event) : Prop where
  seen : ∀ k i h kept, e = .served k i (some h) kept → h = older.count (.wrote i)
  dropped : ∀ k i h, e = .served k i (some h) false → 50 ≤ stretch k i h (e :: older)
  kept : ∀ k i h, e = .served k i (some h) true → stretch k i h (e :: older) ≤ 50
  waits : waiting (e :: older) ≤ if everConnected (e :: older) then 47 else 5

/-- Every event of a history is accounted for. -/
def History : List Event → Prop
  | [] => True
  | e :: older => Accounted e older ∧ History older

/-- The stale count against the history of connection `k` to segment `i`: the newest
    callback saw the last heartbeat and the count is the length of the stretch or one less;
    or no callback has run on the connection. -/
def Beats (k i : Nat) (io : IOHandler) (log : List Event) : Prop :=
  (lastServed log = some (k, i, some io.lastHeartbeat) ∧
    io.staleCount ≤ stretch k i io.lastHeartbeat log ∧
    stretch k i io.lastHeartbeat log ≤ io.staleCount + 1) ∨
  ((∀ i' seen, lastServed log ≠ some (k, i', seen)) ∧ io.lastHeartbeat = 0 ∧ io.staleCount = 0)

structure Inv (c : Connection) : Prop where
  io : c.io.Inv
  numbered : ∀ k i seen kept, .served k i seen kept ∈ c.log → k ≤ c.connections
  heartbeat : ∀ i, c.heartbeat i = c.log.count (.wrote i)
  ever : c.io.wasEverConnected = everConnected c.log
  waits : waiting c.log + c.io.reconnectCountdown ≤ if everConnected c.log then 47 else 5
  beats : ∀ i, c.io.segment = some i → Beats c.connections i c.io c.log
  history : History c.log

variable {c : Connection} {io : IOHandler} {log : List Event} {k i : Nat}

theorem Inv.start : init.Inv where
  io := .new
  numbered := fun _ _ _ _ h => nomatch h
  heartbeat := fun _ => rfl
  ever := rfl
  waits := Nat.zero_le _
  beats := fun _ h => nomatch h
  history := trivial

/-! ## Stretches -/

/-- A stretch on a connection ends with the callback that ran last. -/
theorem stretch_eq_zero {h : Nat}
    (hlast : ∀ seen, lastServed log = some (k, i, seen) → seen ≠ some h) :
    stretch k i h log = 0 := by
  induction log with
  | nil => rfl
  | cons e log ih =>
    cases e with
    | wrote j => exact ih hlast
    | served k' i' seen kept =>
      unfold stretch
      split
      · rename_i hsame
        obtain ⟨rfl, rfl, rfl⟩ := hsame
        exact absurd rfl (hlast (some h) rfl)
      · rfl
    | started _ => rfl
    | stopped => rfl
    | silent _ => rfl

/-- Only events of a connection `k` can be the last callback on it. -/
theorem mem_of_lastServed {seen : Option Nat} (hlast : lastServed log = some (k, i, seen)) :
    ∃ kept, .served k i seen kept ∈ log := by
  induction log with
  | nil => exact nomatch hlast
  | cons e log ih =>
    cases e with
    | wrote j =>
      obtain ⟨kept, hmem⟩ := ih hlast
      exact ⟨kept, List.mem_cons_of_mem _ hmem⟩
    | served k' i' seen' kept =>
      cases hlast
      exact ⟨kept, List.mem_cons_self⟩
    | started _ => exact nomatch hlast
    | stopped => exact nomatch hlast
    | silent _ => exact nomatch hlast

/-- The number of callbacks on a connection among the events. -/
def servedCount (log : List Event) : Nat :=
  log.countP fun | .served .. => true | _ => false

/-- A stretch of more than `n` callbacks begins with a callback that is followed by `n`
    others on the same connection, with nothing but writes among them. -/
theorem exists_of_lt_stretch {h n : Nat} (hlong : n < stretch k i h log) :
    ∃ recent kept older, log = recent ++ .served k i (some h) kept :: older ∧
      servedCount recent = n ∧
      ∀ e ∈ recent, (∃ j, e = .wrote j) ∨ ∃ kept, e = .served k i (some h) kept := by
  -- down the log: a write passes, a callback on the connection counts one
  induction log generalizing n with
  | nil => exact absurd hlong (Nat.not_lt_zero n)
  | cons e log ih =>
    cases e with
    | wrote j =>
      obtain ⟨recent, kept, older, rfl, hcount, hall⟩ := ih hlong
      refine ⟨.wrote j :: recent, kept, older, rfl, hcount, ?_⟩
      intro e he
      rcases List.mem_cons.mp he with rfl | he
      · exact .inl ⟨j, rfl⟩
      · exact hall e he
    | served k' i' seen kept =>
      unfold stretch at hlong
      split at hlong
      · rename_i hsame
        obtain ⟨rfl, rfl, rfl⟩ := hsame
        cases n with
        | zero => exact ⟨[], kept, log, rfl, rfl, fun _ he => nomatch he⟩
        | succ n =>
          obtain ⟨recent, kept', older, rfl, hcount, hall⟩ := ih (Nat.lt_of_succ_lt_succ hlong)
          refine ⟨.served k' i' (some h) kept :: recent, kept', older, rfl, ?_, ?_⟩
          · unfold servedCount at hcount ⊢
            rw [List.countP_cons_of_pos rfl, hcount]
          · intro e he
            rcases List.mem_cons.mp he with rfl | he
            · exact .inr ⟨kept, rfl⟩
            · exact hall e he
      · exact absurd hlong (Nat.not_lt_zero n)
    | started _ => exact absurd hlong (Nat.not_lt_zero n)
    | stopped => exact absurd hlong (Nat.not_lt_zero n)
    | silent _ => exact absurd hlong (Nat.not_lt_zero n)

/-! ## A callback on a connection -/

theorem stretch_served (h : Nat) (kept : Bool) :
    stretch k i h (.served k i (some h) kept :: log) = stretch k i h log + 1 := by
  simp [stretch]

/-- The stretch a callback extends, against the stale count before it. -/
theorem Beats.stretch_eq (hbeats : Beats k i io log) (h : Nat) :
    (h = io.lastHeartbeat → io.staleCount ≤ stretch k i h log ∧
      stretch k i h log ≤ io.staleCount + 1) ∧
    (h ≠ io.lastHeartbeat → stretch k i h log = 0) := by
  -- the last callback was on this connection, or the connection is new
  rcases hbeats with ⟨hlast, hlow, hhigh⟩ | ⟨hfresh, hzero, hstale⟩
  · constructor
    · intro heq
      rw [heq]
      exact ⟨hlow, hhigh⟩
    · intro hne
      apply stretch_eq_zero
      intro seen hseen
      rw [hlast] at hseen
      cases hseen
      intro heq
      exact hne (Option.some.inj heq).symm
  · have hnone : stretch k i h log = 0 := by
      apply stretch_eq_zero
      intro seen hseen
      exact absurd hseen (hfresh i seen)
    rw [hnone, hstale]
    exact ⟨fun _ => ⟨Nat.le_refl 0, Nat.zero_le 1⟩, fun _ => rfl⟩

theorem Beats.congr {io' : IOHandler} (hbeats : Beats k i io log)
    (hlast : io'.lastHeartbeat = io.lastHeartbeat) (hstale : io'.staleCount = io.staleCount) :
    Beats k i io' log := by
  unfold Beats
  rw [hlast, hstale]
  exact hbeats

/-- The heartbeat check gives up at the end of a stretch of at least 50. -/
theorem Beats.gives_up {h : Nat} (hbeats : Beats k i io log) (kept : Bool)
    (hcheck : (io.checkHeartbeat h).1 = true) :
    50 ≤ stretch k i h (.served k i (some h) kept :: log) := by
  rcases io.checkHeartbeat_cases h with ⟨hsame, _, hdecide⟩ | ⟨_, _, hfalse⟩
  · rw [hdecide, decide_eq_true_eq] at hcheck
    simp only [IOHandler.kStaleThreshold] at hcheck
    have hlow := ((hbeats.stretch_eq h).1 hsame).1
    rw [stretch_served]
    omega
  · rw [hfalse] at hcheck
    exact nomatch hcheck

/-- Else the handler has counted this callback, in a stretch of at most 50. -/
theorem Beats.goes_on {h : Nat} (hbeats : Beats k i io log) (kept : Bool)
    (hcheck : (io.checkHeartbeat h).1 = false) :
    Beats k i (io.checkHeartbeat h).2 (.served k i (some h) kept :: log) ∧
      stretch k i h (.served k i (some h) kept :: log) ≤ 50 := by
  rcases io.checkHeartbeat_cases h with ⟨hsame, hnext, hdecide⟩ | ⟨hne, hnext, _⟩
  -- the same heartbeat once more
  · rw [hdecide, decide_eq_false_iff_not] at hcheck
    simp only [IOHandler.kStaleThreshold] at hcheck
    obtain ⟨hlow, hhigh⟩ := (hbeats.stretch_eq h).1 hsame
    rw [hnext]
    refine ⟨.inl ?_, ?_⟩
    · simp only [← hsame, stretch_served]
      exact ⟨rfl, by omega, by omega⟩
    · rw [stretch_served]
      omega
  -- another heartbeat begins a stretch
  · have hzero := (hbeats.stretch_eq h).2 hne
    rw [hnext]
    refine ⟨.inl ?_, ?_⟩
    · simp only [stretch_served, hzero]
      exact ⟨rfl, Nat.zero_le _, Nat.le_refl _⟩
    · rw [stretch_served, hzero]
      decide

/-- What serving a callback does to the handler and the stretch: it drops an active segment
    when the stretch has reached 50, and else keeps it with a stretch of at most 50. -/
theorem Beats.serve {b : SharedRingBuffer} (hio : io.Inv) (hb : io.sharedBuffer = some b)
    (hi : b.segment = some i) (hbeats : Beats k i io log) (s : Script α) (bytesCount : Nat) :
    let io' := (io.serve scripted b s bytesCount).2.1
    let seen := if s.active then some (s.heartbeat i) else none
    let log' := .served k i seen io'.isConnected :: log
    io'.reconnectCountdown = io.reconnectCountdown ∧
    io'.wasEverConnected = io.wasEverConnected ∧
    ((io'.sharedBuffer = some b ∧ io'.isConnected = true ∧ s.active = true ∧
        Beats k i io' log' ∧ stretch k i (s.heartbeat i) log' ≤ 50) ∨
      (io'.sharedBuffer = none ∧ io'.isConnected = false ∧
        (s.active = true → 50 ≤ stretch k i (s.heartbeat i) log'))) := by
  intro io' seen log'
  have hvalid := hio.valid b hb
  have hbeat : (scripted.getHeartbeat b s).1 = s.heartbeat i := by
    simp only [scripted, hi, Option.elim_some]
  obtain ⟨underrun, hmark⟩ := io.markConnected_eq
  have hmarked : Beats k i io.markConnected log :=
    hbeats.congr (by rw [hmark]) (by rw [hmark])
  obtain ⟨stale, hnext⟩ := io.markConnected.checkHeartbeat_eq (s.heartbeat i)
  rcases IOHandler.serve_cases scripted io b s bytesCount with ⟨hactive, heq⟩ |
    ⟨hactive, hstale, heq⟩ | ⟨hactive, hfresh, heq⟩
  -- an inactive segment is dropped at once
  · have hio' : io' = io.markConnected.disconnect := congrArg (·.2.1) heq
    rw [hmark] at hio'
    refine ⟨by rw [hio']; rfl, by rw [hio']; rfl, .inr ⟨by rw [hio']; rfl, by rw [hio']; rfl, ?_⟩⟩
    intro hon
    exact absurd (hon.symm.trans hactive) Bool.noConfusion
  -- the stretch has reached the threshold
  · have hio' : io' = (io.markConnected.checkHeartbeat (s.heartbeat i)).2.disconnect := by
      rw [← hbeat]
      exact congrArg (·.2.1) heq
    have hcheck : (io.markConnected.checkHeartbeat (s.heartbeat i)).1 = true := by
      rw [← hbeat]
      exact hstale
    have hseen : seen = some (s.heartbeat i) := if_pos hactive
    have hlong : 50 ≤ stretch k i (s.heartbeat i) log' := by
      simp only [log', hseen]
      exact hmarked.gives_up _ hcheck
    rw [hnext, hmark] at hio'
    exact ⟨by rw [hio']; rfl, by rw [hio']; rfl,
      .inr ⟨by rw [hio']; rfl, by rw [hio']; rfl, fun _ => hlong⟩⟩
  -- the segment is kept
  · have hio' : ∃ underrun', io' = { (io.markConnected.checkHeartbeat (s.heartbeat i)).2 with
        wasUnderrun := underrun' } := by
      rw [← hbeat]
      exact ⟨_, congrArg (·.2.1) heq⟩
    obtain ⟨underrun', hio'⟩ := hio'
    have hcheck : (io.markConnected.checkHeartbeat (s.heartbeat i)).1 = false := by
      rw [← hbeat]
      exact hfresh
    have hseen : seen = some (s.heartbeat i) := if_pos hactive
    obtain ⟨hcounted, hshort⟩ := hmarked.goes_on io'.isConnected hcheck
    have hbeats' : Beats k i io' log' := by
      simp only [log', hseen]
      exact hcounted.congr (by rw [hio']) (by rw [hio'])
    have hshort' : stretch k i (s.heartbeat i) log' ≤ 50 := by
      simp only [log', hseen]
      exact hshort
    rw [hnext, hmark] at hio'
    have hkept : io'.sharedBuffer = some b := by rw [hio']; exact hb
    have hconnected : io'.isConnected = true := by
      unfold IOHandler.isConnected
      rw [hkept]
      exact hvalid
    exact ⟨by rw [hio'], by rw [hio'], .inl ⟨hkept, hconnected, hactive, hbeats', hshort'⟩⟩

/-! ## Steps -/

/-- The events that are no callback on a connection are accounted for as soon as the wait is
    short enough. -/
theorem Accounted.of_not_served {e : Event} {older : List Event}
    (hnot : ∀ k i seen kept, e ≠ .served k i seen kept)
    (hwaits : waiting (e :: older) ≤ if everConnected (e :: older) then 47 else 5) :
    Accounted e older where
  seen := fun k i h kept he => absurd he (hnot k i (some h) kept)
  dropped := fun k i h he => absurd he (hnot k i (some h) false)
  kept := fun k i h he => absurd he (hnot k i (some h) true)
  waits := hwaits

/-- An event that is no completed write does not change the number of writes. -/
theorem Inv.heartbeat_cons (h : c.Inv) {e : Event} (he : ∀ j, e ≠ .wrote j) (i : Nat) :
    c.heartbeat i = (e :: c.log).count (.wrote i) := by
  rw [List.count_cons_of_ne (he i)]
  exact h.heartbeat i

theorem Inv.write (h : c.Inv) (j : Nat) : (c.step (.write j : Happening α)).Inv where
  io := h.io
  numbered := by
    intro k i seen kept hmem
    rcases List.mem_cons.mp hmem with heq | hmem
    · exact nomatch heq
    · exact h.numbered k i seen kept hmem
  heartbeat := by
    intro i
    show Function.update c.heartbeat j (c.heartbeat j + 1) i = (.wrote j :: c.log).count (.wrote i)
    by_cases heq : i = j
    · rw [heq, Function.update_self, List.count_cons_self, h.heartbeat]
    · have hne : Event.wrote j ≠ .wrote i := by
        intro hw
        cases hw
        exact heq rfl
      rw [Function.update_of_ne heq, List.count_cons_of_ne hne, h.heartbeat]
  ever := h.ever
  waits := h.waits
  beats := h.beats
  history := by
    refine ⟨.of_not_served (fun _ _ _ _ => Event.noConfusion) ?_, h.history⟩
    have hwaits := h.waits
    show waiting c.log ≤ if everConnected c.log then 47 else 5
    omega

theorem Inv.onStop (h : c.Inv) : (c.step (.onStop : Happening α)).Inv where
  io := IOHandler.Inv.onStopIO c.io
  numbered := by
    intro k i seen kept hmem
    rcases List.mem_cons.mp hmem with heq | hmem
    · exact nomatch heq
    · exact h.numbered k i seen kept hmem
  heartbeat := h.heartbeat_cons fun _ => Event.noConfusion
  ever := h.ever
  waits := by
    have hwaits := h.waits
    show waiting c.log + 0 ≤ if everConnected c.log then 47 else 5
    omega
  beats := fun _ hseg => nomatch hseg
  history := by
    refine ⟨.of_not_served (fun _ _ _ _ => Event.noConfusion) ?_, h.history⟩
    have hwaits := h.waits
    show waiting c.log ≤ if everConnected c.log then 47 else 5
    omega

/-- The count of connections after a handler without a segment attached one. -/
theorem count_of_attached {before after : IOHandler} (hbefore : before.isConnected = false)
    (hafter : after.isConnected = true) : c.count before after = c.connections + 1 := by
  unfold count
  rw [hbefore, hafter]
  rfl

/-- A new connection has no callbacks yet. -/
theorem Inv.beats_attached (h : c.Inv) (hlast : io.lastHeartbeat = 0) (hstale : io.staleCount = 0)
    (i : Nat) : Beats (c.connections + 1) i io c.log := by
  right
  refine ⟨?_, hlast, hstale⟩
  intro i' seen heq
  obtain ⟨kept, hmem⟩ := mem_of_lastServed heq
  have hle := h.numbered _ _ _ _ hmem
  omega

theorem Inv.onStart (h : c.Inv) (opened : Option Nat) :
    (c.step (.onStart opened : Happening α)).Inv := by
  let s : Script α := { opened, active := true, heartbeat := c.heartbeat, read := none }
  have hio : (c.step (.onStart opened : Happening α)).io.Inv :=
    IOHandler.Inv.onStartIO (show c.io.onStartIO scripted s = (_, _) from rfl)
  have hnumbered : ∀ k i seen kept,
      .served k i seen kept ∈ (c.step (.onStart opened : Happening α)).log →
      k ≤ c.connections := by
    intro k i seen kept hmem
    rcases List.mem_cons.mp hmem with heq | hmem
    · exact nomatch heq
    · exact h.numbered k i seen kept hmem
  cases opened with
  | none =>
    exact ⟨hio, hnumbered,
      h.heartbeat_cons (fun _ => Event.noConfusion), rfl,
      Nat.le_refl 5, (fun _ hseg => nomatch hseg),
      .of_not_served (fun _ _ _ _ => Event.noConfusion) (Nat.zero_le 5), h.history⟩
  -- a fresh connection: no callback was served on it
  | some i =>
    exact ⟨hio, fun k i seen kept hmem => Nat.le_succ_of_le (hnumbered k i seen kept hmem),
      h.heartbeat_cons (fun _ => Event.noConfusion), rfl,
      Nat.zero_le 47, (fun i _ => .inr ⟨fun _ _ => nofun, rfl, rfl⟩),
      .of_not_served (fun _ _ _ _ => Event.noConfusion) (Nat.zero_le 47), h.history⟩

/-- A callback without a segment. -/
theorem Inv.silent (h : c.Inv) (hio : io.Inv) (hnone : io.sharedBuffer = none)
    (hever : io.wasEverConnected = c.io.wasEverConnected) {attempted : Bool}
    (hwaits : waiting (.silent attempted :: c.log) + io.reconnectCountdown ≤
      if everConnected c.log then 47 else 5) :
    ({ c with io := io, log := .silent attempted :: c.log } : Connection).Inv where
  io := hio
  numbered := by
    intro k i seen kept hmem
    rcases List.mem_cons.mp hmem with heq | hmem
    · exact nomatch heq
    · exact h.numbered k i seen kept hmem
  heartbeat := h.heartbeat_cons fun _ => Event.noConfusion
  ever := hever.trans h.ever
  waits := hwaits
  beats := by
    intro i hseg
    unfold IOHandler.segment at hseg
    simp only [hnone, Option.bind_none] at hseg
    exact nomatch hseg
  history := by
    refine ⟨.of_not_served (fun _ _ _ _ => Event.noConfusion) ?_, h.history⟩
    show waiting (.silent attempted :: c.log) ≤ if everConnected c.log then 47 else 5
    omega

/-- A callback on the connection numbered `k`. -/
theorem Inv.serve (h : c.Inv) (hio : io.Inv) {b : SharedRingBuffer} (hb : io.sharedBuffer = some b)
    (hi : b.segment = some i) (hever : io.wasEverConnected = true) (hk : c.connections ≤ k)
    (hbeats : Beats k i io c.log) (opened : Option Nat) (active : Bool) (read : Option (List α))
    (attempted : Bool) (bytesCount : Nat) :
    let s : Script α := { opened, active, heartbeat := c.heartbeat, read, attempted }
    let io' := (io.serve scripted b s bytesCount).2.1
    ({ c with
      io := io'
      connections := k
      log := .served k i (if active then some (c.heartbeat i) else none) io'.isConnected ::
        c.log } : Connection).Inv := by
  intro s io'
  have hio' : io'.Inv := hio.serve hb scripted s bytesCount
  have hzero := hio.countdown (by rw [hb]; rfl)
  obtain ⟨hcountdown, hever', hcases⟩ := hbeats.serve hio hb hi s bytesCount
  constructor
  · exact hio'
  · intro k' i' seen kept hmem
    rcases List.mem_cons.mp hmem with heq | hmem
    · cases heq
      exact Nat.le_refl k
    · exact Nat.le_trans (h.numbered k' i' seen kept hmem) hk
  · exact h.heartbeat_cons fun _ => Event.noConfusion
  · exact hever'.trans hever
  · show 0 + io'.reconnectCountdown ≤ 47
    rw [hcountdown, hzero]
    exact Nat.zero_le 47
  · intro j hseg
    -- the segment was kept, or there is none any more
    rcases hcases with ⟨hsame, _, _, hnext, _⟩ | ⟨hdropped, _⟩
    · have hj : j = i := by
        have hseg' : io'.sharedBuffer.bind (·.segment) = some j := hseg
        rw [hsame] at hseg'
        exact Option.some.inj (hseg'.symm.trans hi)
      rw [hj]
      exact hnext
    · have hseg' : io'.sharedBuffer.bind (·.segment) = some j := hseg
      rw [hdropped] at hseg'
      exact nomatch hseg'
  · refine ⟨⟨?_, ?_, ?_, Nat.zero_le 47⟩, h.history⟩
    · intro k' i' h' kept heq
      simp only [Event.served.injEq] at heq
      obtain ⟨_, rfl, hseen, _⟩ := heq
      split at hseen
      · rw [← Option.some.inj hseen]
        exact h.heartbeat i
      · exact nomatch hseen
    · intro k' i' h' heq
      simp only [Event.served.injEq] at heq
      obtain ⟨rfl, rfl, hseen, hkept⟩ := heq
      split at hseen
      · rename_i hactive
        cases hseen
        rcases hcases with ⟨_, hconn, _⟩ | ⟨_, _, hlong⟩
        · rw [hconn] at hkept
          exact nomatch hkept
        · exact hlong hactive
      · exact nomatch hseen
    · intro k' i' h' heq
      simp only [Event.served.injEq] at heq
      obtain ⟨rfl, rfl, hseen, hkept⟩ := heq
      split at hseen
      · cases hseen
        rcases hcases with ⟨_, _, _, _, hshort⟩ | ⟨_, hconn, _⟩
        · exact hshort
        · rw [hconn] at hkept
          exact nomatch hkept
      · exact nomatch hseen

/-- A callback that finds no segment. -/
theorem step_silent {opened : Option Nat} {active : Bool} {read : Option (List α)}
    {bytesCount : Nat} {s' : Script α}
    (heq : c.io.ensureConnected scripted
      { opened, active, heartbeat := c.heartbeat, read } = (false, io, s')) :
    c.step (.readInput opened active read bytesCount) =
      { c with
        io := { io with wasConnected := false }
        connections := c.count c.io io
        log := .silent s'.attempted :: c.log } := by
  simp only [step, IOHandler.onReadClientInput, heq]

/-- A callback that finds segment `i`. -/
theorem step_served {opened : Option Nat} {active : Bool} {read : Option (List α)}
    {bytesCount : Nat} {s' : Script α} {b : SharedRingBuffer}
    (heq : c.io.ensureConnected scripted
      { opened, active, heartbeat := c.heartbeat, read } = (true, io, s'))
    (hb : io.sharedBuffer = some b) (hi : b.segment = some i) :
    c.step (.readInput opened active read bytesCount) =
      let io' := (io.serve scripted b s' bytesCount).2.1
      { c with
        io := io'
        connections := c.count c.io io
        log := .served (c.count c.io io) i (if active then some (c.heartbeat i) else none)
          io'.isConnected :: c.log } := by
  have hseg : io.segment = some i := by
    unfold IOHandler.segment
    rw [hb]
    exact hi
  simp only [step, IOHandler.onReadClientInput, heq, hseg, hb]

theorem Inv.readInput (h : c.Inv) (opened : Option Nat) (active : Bool) (read : Option (List α))
    (bytesCount : Nat) : (c.step (.readInput opened active read bytesCount)).Inv := by
  let s : Script α := { opened, active, heartbeat := c.heartbeat, read }
  have hwaits := h.waits
  have hensured := h.io.ensureConnected scripted s
  have hconn := h.io.isConnected_eq
  rcases h.io.ensureConnected_cases scripted s with ⟨b, hb, hvalid, heq⟩ | ⟨hnone, hwait, heq⟩ |
    ⟨hnone, hzero, hfail, heq⟩ | ⟨hnone, hzero, hopen, heq⟩
  · -- the segment the handler holds
    obtain ⟨i, hi⟩ : ∃ i, b.segment = some i := Option.isSome_iff_exists.mp hvalid
    have hseg : c.io.segment = some i := by
      unfold IOHandler.segment
      rw [hb]
      exact hi
    have hcount : c.count c.io c.io = c.connections := by
      unfold count
      rw [Bool.not_and_self]
      rfl
    have hbeats := h.beats i hseg
    have hever := h.io.ever (by rw [hb]; rfl)
    rw [step_served heq hb hi, hcount]
    exact h.serve h.io hb hi hever (Nat.le_refl _) hbeats opened active read false bytesCount
  · -- the handler waits
    have hcount : c.count c.io { c.io with reconnectCountdown := c.io.reconnectCountdown - 1 } =
        c.connections := by
      unfold count
      have hsame : ({ c.io with reconnectCountdown := c.io.reconnectCountdown - 1 } :
        IOHandler).isConnected = c.io.isConnected := rfl
      rw [hsame, Bool.not_and_self]
      rfl
    rw [heq] at hensured
    rw [step_silent heq, hcount]
    refine h.silent hensured.silenced hnone rfl ?_
    show waiting c.log + 1 + (c.io.reconnectCountdown - 1) ≤ _
    omega
  · -- the attempt fails
    have hcount : c.count c.io { c.io.beginAttempt with sharedBuffer := none } =
        c.connections := by
      unfold count
      rw [hconn, hnone]
      rfl
    rw [heq] at hensured
    rw [step_silent heq, hcount]
    refine h.silent hensured.silenced rfl rfl ?_
    show 0 + (if c.io.wasEverConnected then 47 else 5) ≤ _
    rw [h.ever]
    omega
  · -- the attempt succeeds
    obtain ⟨i, hi⟩ : ∃ i, opened = some i := Option.isSome_iff_exists.mp hopen
    have hcount : c.count c.io (c.io.beginAttempt.attach (scripted.openExisting s).1) =
        c.connections + 1 :=
      count_of_attached (by rw [hconn, hnone]; rfl) hopen
    obtain ⟨hlast, hstale⟩ := h.io.forgotten hnone
    rw [heq] at hensured
    rw [step_served heq rfl hi, hcount]
    exact h.serve hensured rfl hi rfl (Nat.le_succ _) (h.beats_attached hlast hstale i) opened
      active read true bytesCount

/-- Every step keeps the invariant. -/
theorem Inv.step (h : c.Inv) (happening : Happening α) : (c.step happening).Inv := by
  cases happening with
  | write j => exact h.write j
  | onStart opened => exact h.onStart opened
  | onStop => exact h.onStop
  | readInput opened active read bytesCount => exact h.readInput opened active read bytesCount

/-- The invariant holds after every history. -/
theorem Inv.run (happenings : List (Happening α)) (h : c.Inv) :
    (happenings.foldl Connection.step c).Inv := by
  induction happenings generalizing c with
  | nil => exact h
  | cons happening happenings ih => exact ih (h.step happening)

/-! ## Reading a history -/

theorem History.accounted {newer older : List Event} {e : Event}
    (h : History (newer ++ e :: older)) : Accounted e older := by
  induction newer with
  | nil => exact h.1
  | cons _ newer ih => exact ih h.2

/-- What can stand between two attempts: writes, stops, and callbacks without a segment that
    make no attempt. -/
def Quiet (e : Event) : Prop := (∃ i, e = .wrote i) ∨ e = .stopped ∨ e = .silent false

theorem waiting_append {recent older : List Event} (hquiet : ∀ e ∈ recent, Quiet e) :
    recent.count (.silent false) ≤ waiting (recent ++ older) := by
  -- none of these events resets the wait
  induction recent with
  | nil => exact Nat.zero_le _
  | cons e recent ih =>
    have hrest := ih fun e he => hquiet e (List.mem_cons_of_mem _ he)
    rcases hquiet e List.mem_cons_self with ⟨i, rfl⟩ | rfl | rfl
    · rw [List.count_cons_of_ne Event.noConfusion]
      exact hrest
    · rw [List.count_cons_of_ne Event.noConfusion]
      exact hrest
    · rw [List.count_cons_self]
      exact Nat.succ_le_succ hrest

/-- The callbacks of a stretch are counted by it. -/
theorem count_le_stretch {recent older : List Event} {h : Nat}
    (hrecent : ∀ e ∈ recent, (∃ j, e = .wrote j) ∨ e = .served k i (some h) true) :
    recent.count (.served k i (some h) true) ≤ stretch k i h (recent ++ older) := by
  induction recent with
  | nil => exact Nat.zero_le _
  | cons e recent ih =>
    have hrest := ih fun e he => hrecent e (List.mem_cons_of_mem _ he)
    rcases hrecent e List.mem_cons_self with ⟨j, rfl⟩ | rfl
    · rw [List.count_cons_of_ne Event.noConfusion]
      exact hrest
    · rw [List.count_cons_self, List.cons_append, stretch_served]
      exact Nat.succ_le_succ hrest

/-- A stretch that is kept has at most 50 callbacks. -/
theorem History.count_kept {newer recent older : List Event} {h : Nat}
    (hhistory : History (newer ++ (recent ++ older)))
    (hrecent : ∀ e ∈ recent, (∃ j, e = .wrote j) ∨ e = .served k i (some h) true) :
    recent.count (.served k i (some h) true) ≤ 50 := by
  -- writes at the front are set aside until the last callback is found
  induction recent generalizing newer with
  | nil => exact Nat.zero_le _
  | cons e recent ih =>
    rcases hrecent e List.mem_cons_self with ⟨j, rfl⟩ | rfl
    · rw [List.count_cons_of_ne Event.noConfusion]
      have hshift : newer ++ (.wrote j :: recent ++ older) =
          (newer ++ [.wrote j]) ++ (recent ++ older) := by simp
      rw [hshift] at hhistory
      exact ih hhistory fun e he => hrecent e (List.mem_cons_of_mem _ he)
    · have hshort := (History.accounted hhistory).kept k i h rfl
      exact Nat.le_trans (count_le_stretch hrecent) hshort

/-- A dropped active segment: the last 50 callbacks ran on its connection, and no write to it
    was completed between the first and the last of them. -/
theorem History.dropped {newer older : List Event} {h : Nat}
    (hhistory : History (newer ++ .served k i (some h) false :: older)) :
    ∃ recent kept oldest, older = recent ++ .served k i (some h) kept :: oldest ∧
      servedCount recent = 48 ∧ .wrote i ∉ recent ∧
      ∀ e ∈ recent, (∃ j, e = .wrote j) ∨ ∃ kept, e = .served k i (some h) kept := by
  have hdrop := History.accounted hhistory
  have hlong := hdrop.dropped k i h rfl
  rw [stretch_served] at hlong
  obtain ⟨recent, kept, oldest, rfl, hcount, hall⟩ :=
    exists_of_lt_stretch (n := 48) (show 48 < stretch k i h older by omega)
  refine ⟨recent, kept, oldest, rfl, hcount, ?_, hall⟩
  -- both callbacks saw the number of writes before them
  have hlast := hdrop.seen k i h false rfl
  have hsplit : newer ++ .served k i (some h) false ::
      (recent ++ .served k i (some h) kept :: oldest) =
      (newer ++ .served k i (some h) false :: recent) ++ .served k i (some h) kept :: oldest := by
    simp
  rw [hsplit] at hhistory
  have hfirst := (History.accounted hhistory).seen k i h kept rfl
  rw [List.count_append, List.count_cons_of_ne Event.noConfusion, ← hfirst] at hlast
  exact List.count_eq_zero.mp (by omega)

end Connection

/-- The connection state machine, after every history. (a) A held segment is valid, not
    waited for, and counted stale fewer than 50 times; a handler that was connected holds a
    segment, so that a callback without one never finds `was_connected_` set. (b) A callback
    that drops a segment it saw active ends 50 callbacks on one connection with no write to
    the segment among them; and no segment is kept for 50 callbacks that each saw the
    heartbeat of the callback before. (c) Without an attempt to open a segment at most 47
    callbacks run disconnected, and at most 5 if none was attached since the start. -/
theorem connection_history (happenings : List (Happening α)) :
    let c := happenings.foldl Connection.step Connection.init
    (∀ b, c.io.sharedBuffer = some b →
      b.isValid = true ∧ c.io.reconnectCountdown = 0 ∧ c.io.staleCount < 50) ∧
    (c.io.wasConnected = true → c.io.sharedBuffer.isSome = true) ∧
    (∀ s : Script α, (c.io.ensureConnected scripted s).1 = false →
      (c.io.ensureConnected scripted s).2.1.wasConnected = false) ∧
    (∀ newer older k i h, c.log = newer ++ .served k i (some h) false :: older →
      ∃ recent kept oldest, older = recent ++ .served k i (some h) kept :: oldest ∧
        Connection.servedCount recent = 48 ∧ .wrote i ∉ recent ∧
        ∀ e ∈ recent, (∃ j, e = .wrote j) ∨ ∃ kept, e = .served k i (some h) kept) ∧
    (∀ newer recent older k i h, c.log = newer ++ (recent ++ older) →
      (∀ e ∈ recent, (∃ j, e = .wrote j) ∨ e = .served k i (some h) true) →
      recent.count (.served k i (some h) true) ≤ 50) ∧
    ∀ newer recent older, c.log = newer ++ (recent ++ older) →
      (∀ e ∈ recent, Connection.Quiet e) →
      recent.count (.silent false) ≤
        if Connection.everConnected (recent ++ older) then 47 else 5 := by
  intro c
  have h : c.Inv := Connection.Inv.run happenings Connection.Inv.start
  have hhistory := h.history
  refine ⟨?_, h.io.wasConnected, ?_, ?_, ?_, ?_⟩
  · intro b hb
    exact ⟨h.io.valid b hb, h.io.countdown (by rw [hb]; rfl), h.io.stale⟩
  · intro s hfail
    exact h.io.wasConnected_of_not_connected hfail
  · intro newer older k i beat hlog
    rw [hlog] at hhistory
    exact hhistory.dropped
  · intro newer recent older k i beat hlog hrecent
    rw [hlog] at hhistory
    exact hhistory.count_kept hrecent
  · intro newer recent older hlog hquiet
    cases recent with
    | nil => exact Nat.zero_le _
    | cons e recent =>
      rw [hlog] at hhistory
      exact Nat.le_trans (Connection.waiting_append hquiet)
        (Connection.History.accounted hhistory).waits

end Noise
