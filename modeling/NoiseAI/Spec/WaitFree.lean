import NoiseAI.ForStd.Rank
import NoiseAI.Spec.ShmSilence

/-!
# Neither side waits for the other

Every call of the app or of the driver ends after a number of steps of its own side that is known
when it starts (`ShmLabel.cost`), whatever the other side does meanwhile, even if it stops for
good in the middle of a call (`calls_wait_free`). `left` counts the steps that a call in progress
still makes at most: no path takes a lock, spins, or tries again.
-/

namespace Noise

variable {α : Type}

/-! ## How many steps are left -/

def WriteOp.left : WriteOp α → Nat
  | .loadWritePos data => data.length + 5
  | .loadReadPos data _ => data.length + 4
  | .loadCapacity data _ _ => data.length + 3
  | .copy data _ _ i => data.length - i + 2
  | .addHeartbeat _ => 1

def ReadOp.left : ReadOp α → Nat
  | .loadReadPos n => n + 4
  | .loadWritePos n _ => n + 3
  | .loadCapacity n _ _ => n + 2
  | .copy n _ _ buf => n - buf.length + 1
  | .flushLoad => 2
  | .flushStore _ => 1

def InitStore.left : InitStore → Nat
  | .writePos => 7
  | .readPos => 6
  | .capacity => 5
  | .channels => 4
  | .sampleRate => 3
  | .active => 2
  | .heartbeat => 1

/-- A constructor may still have to destroy the object it replaces, in two steps. -/
def AppTask.left : AppTask α → Nat
  | .idle => 0
  | .shmUnlink _ => 13
  | .shmOpen _ => 12
  | .ftruncate _ _ => 11
  | .mmap _ _ => 10
  | .init field _ _ => field.left + 2
  | .undo _ => 3
  | .clearActive _ _ => 2
  | .unlinkName _ => 1
  | .write _ op => op.left

namespace DriverTask

/-- What a callback does once the handler is connected. -/
def serving (request : Option Nat) : Nat :=
  request.elim 0 fun bytesCount => IOHandler.totalSamples bytesCount + 6

def left : DriverTask α → Nat
  | .idle => 0
  | .shmOpen request => serving request + 5
  | .fstat _ request => serving request + 4
  | .mmap _ _ request => serving request + 3
  | .flush _ op request => serving request + op.left
  | .isActive _ bytesCount => IOHandler.totalSamples bytesCount + 6
  | .getHeartbeat _ bytesCount => IOHandler.totalSamples bytesCount + 5
  | .read _ op _ => op.left

/-- The size of the buffer of the callback in progress. -/
def request : DriverTask α → Option Nat
  | .idle => none
  | .shmOpen request | .fstat _ request | .mmap _ _ request | .flush _ _ request => request
  | .isActive _ bytesCount | .getHeartbeat _ bytesCount | .read _ _ bytesCount => some bytesCount

end DriverTask

theorem WriteOp.left_pos (op : WriteOp α) : 0 < op.left := by
  cases op <;> exact Nat.succ_pos _

theorem ReadOp.left_pos (op : ReadOp α) : 0 < op.left := by
  cases op <;> exact Nat.succ_pos _

theorem AppTask.left_pos {t : AppTask α} (h : t ≠ .idle) : 0 < t.left := by
  cases t with
  | idle => exact absurd rfl h
  | write i op => exact op.left_pos
  | _ => exact Nat.succ_pos _

theorem DriverTask.left_pos {t : DriverTask α} (h : t ≠ .idle) : 0 < t.left := by
  cases t with
  | idle => exact absurd rfl h
  | flush i op request => exact Nat.add_pos_right _ op.left_pos
  | read i op bytesCount => exact op.left_pos
  | _ => exact Nat.succ_pos _

/-- A `write` that goes on has one step less to make. -/
theorem WriteOp.left_step {g g' : Segment α} {op op' : WriteOp α}
    (h : op.step g = (g', .running op')) : op'.left < op.left := by
  cases op with
  | loadWritePos | loadReadPos =>
    cases h
    exact Nat.lt_succ_self _
  | loadCapacity data w r =>
    simp only [WriteOp.step] at h
    split at h
    · cases h
    · cases h
      exact Nat.lt_succ_self _
  | copy data w cap i =>
    simp only [WriteOp.step] at h
    split at h
    · cases h
      simp only [WriteOp.left]
      omega
    · cases h
      simp only [WriteOp.left]
      omega
  | addHeartbeat => cases h

/-- A `read` or `flush` that goes on has one step less to make. -/
theorem ReadOp.left_step {g g' : Segment α} {op op' : ReadOp α}
    (h : op.step g = (g', .running op')) : op'.left < op.left := by
  cases op with
  | loadReadPos | loadWritePos | flushLoad =>
    cases h
    exact Nat.lt_succ_self _
  | loadCapacity n r w =>
    simp only [ReadOp.step] at h
    split at h
    · cases h
    · cases h
      exact Nat.lt_succ_self _
  | copy n r cap buf =>
    simp only [ReadOp.step] at h
    split at h
    · cases h
      simp only [ReadOp.left, List.length_append, List.length_singleton]
      omega
    · cases h
  | flushStore => cases h

theorem InitStore.left_next {field field' : InitStore} (h : field.next = some field') :
    field'.left < field.left := by
  cases field <;> cases h <;> decide

namespace App

theorem left_destructor (b : SharedRingBuffer) : (destructor b : AppTask α).left ≤ 2 := by
  unfold destructor
  split
  · split
    · exact Nat.le_refl 2
    · exact Nat.le_succ 1
  · exact Nat.zero_le 2

theorem left_reset (a : App α) : a.reset.task.left ≤ 2 := by
  cases hb : a.buffer with
  | none =>
    simp only [reset, hb, Option.elim_none]
    exact Nat.zero_le 2
  | some b =>
    simp only [reset, hb, Option.elim_some]
    exact left_destructor b

theorem left_assign (a : App α) (b : SharedRingBuffer) : (a.assign b).task.left ≤ 2 :=
  a.left_reset

end App

/-! ## Calls -/

namespace ShmLabel

/-- A step of the thread of the app. -/
def isApp : ShmLabel α → Bool
  | .app _ => true
  | _ => false

/-- A step of the thread of the driver. -/
def isDriver : ShmLabel α → Bool
  | .driver _ => true
  | _ => false

/-- A call of the app starts. -/
def callsApp : ShmLabel α → Bool
  | .shmCreate _ _ | .processAndWrite _ _ | .shmDestroy => true
  | _ => false

/-- A call of the driver starts. -/
def callsDriver : ShmLabel α → Bool
  | .onStart | .onStop | .readClientInput _ => true
  | _ => false

/-- The size of the buffer that a callback fills. -/
def request : ShmLabel α → Option Nat
  | .readClientInput bytesCount => some bytesCount
  | _ => none

/-- The most steps of its own side that a call makes. -/
def cost : ShmLabel α → Nat
  | .shmCreate _ _ => 13
  | .processAndWrite _ numFrames => u32 (numFrames * 2) + 5
  | .shmDestroy => 2
  | .onStart => 5
  | .readClientInput bytesCount => IOHandler.totalSamples bytesCount + 11
  | _ => 0

end ShmLabel

namespace ShmSystem

open Machine

variable {s s' : ShmSystem α}

/-! ## One step of a side -/

/-- The thread of the app has one step less to make. -/
theorem appStep_left [Zero α] {ok : Bool} (hstep : s.appStep ok = some s') :
    s'.app.task.left < s.app.task.left := by
  unfold appStep at hstep
  cases hs : s.app.task with
  | idle =>
    rw [hs] at hstep
    cases hstep
  | shmUnlink | clearActive | unlinkName =>
    rw [hs] at hstep
    cases hstep
    exact Nat.lt_succ_self _
  | shmOpen args =>
    rw [hs] at hstep
    cases ok with
    | true =>
      cases hstep
      exact Nat.lt_succ_self _
    | false =>
      cases hstep
      -- nothing was opened: only the old object is left to destroy
      exact Nat.lt_of_le_of_lt (App.left_assign s.app _) (by decide : 2 < 12)
  | ftruncate i args =>
    rw [hs] at hstep
    cases ok with
    | true =>
      cases hstep
      exact Nat.lt_succ_self _
    | false =>
      cases hstep
      exact (by decide : 3 < 11)
  | mmap i args =>
    rw [hs] at hstep
    cases ok with
    | true =>
      cases hstep
      exact Nat.lt_succ_self _
    | false =>
      cases hstep
      exact (by decide : 3 < 10)
  | init field i args =>
    rw [hs] at hstep
    cases hnext : field.next with
    | none =>
      simp only [hnext] at hstep
      cases hstep
      refine Nat.lt_of_le_of_lt (App.left_assign s.app _) ?_
      exact Nat.lt_add_of_pos_left (by cases field <;> decide)
    | some next =>
      simp only [hnext] at hstep
      cases hstep
      exact Nat.add_lt_add_right (InitStore.left_next hnext) 2
  | undo args =>
    rw [hs] at hstep
    cases hstep
    exact Nat.lt_succ_of_le (App.left_assign s.app _)
  | write i op =>
    rw [hs] at hstep
    simp only at hstep
    split at hstep
    · -- one access of `write`
      rename_i op' hop
      cases hstep
      exact op.left_step (Prod.ext rfl hop)
    · cases hstep
      exact op.left_pos

/-- A step of a call of the driver for `request`: the call returns, or has at most `n` more
    steps to make. -/
inductive DriverGoes (s s' : ShmSystem α) (request : Option Nat) (n : Nat) : Prop where
  | returns (task : s'.driver.task = .idle)
      (log : s'.log.map (·.bytesCount) = s.log.map (·.bytesCount) ++ request.toList)
  | goes_on (busy : s'.driver.task ≠ .idle) (same : s'.driver.task.request = request)
      (left : s'.driver.task.left ≤ n) (log : s'.log = s.log)

theorem DriverGoes.silence {t : ShmSystem α} (hlog : t.log = s.log) (io : IOHandler)
    (bytesCount n : Nat) : DriverGoes s (t.silence io bytesCount) (some bytesCount) n := by
  refine .returns rfl ?_
  show (t.log ++ [_]).map _ = _
  rw [List.map_append, hlog]
  rfl

theorem DriverGoes.unavailable {t : ShmSystem α} (hlog : t.log = s.log) (io : IOHandler)
    (request : Option Nat) (n : Nat) : DriverGoes s (t.unavailable io request) request n := by
  cases request with
  | none =>
    refine .returns rfl ?_
    show t.log.map _ = _
    rw [hlog, Option.toList_none, List.append_nil]
  | some bytesCount => exact .silence hlog _ bytesCount n

theorem DriverGoes.available {t : ShmSystem α} (hlog : t.log = s.log) (io : IOHandler) (i : Nat)
    {request : Option Nat} {n : Nat} (hn : DriverTask.serving request ≤ n) :
    DriverGoes s (t.available io i request) request n := by
  cases request with
  | none =>
    refine .returns rfl ?_
    show t.log.map _ = _
    rw [hlog, Option.toList_none, List.append_nil]
  | some bytesCount => exact .goes_on (fun h => nomatch h) rfl hn hlog

/-- The first step of a call. -/
theorem DriverGoes.ensureConnected (s : ShmSystem α) (io : IOHandler) (request : Option Nat) :
    DriverGoes s (s.ensureConnected io request) request (DriverTask.serving request + 5) := by
  unfold ShmSystem.ensureConnected
  split
  · exact .available rfl io _ (Nat.le_add_right _ 5)
  · split
    · exact .unavailable rfl _ request _
    · exact .goes_on (fun h => nomatch h) rfl (Nat.le_refl _) rfl

/-- The thread of the driver has one step less to make. -/
theorem driverStep_goes {ok : Bool} (hstep : s.driverStep ok = some s') :
    DriverGoes s s' s.driver.task.request (s.driver.task.left - 1) := by
  unfold driverStep at hstep
  cases hs : s.driver.task with
  | idle =>
    rw [hs] at hstep
    cases hstep
  | shmOpen request =>
    rw [hs] at hstep
    simp only at hstep
    split at hstep
    · cases hstep
      exact .goes_on (fun h => nomatch h) rfl (Nat.le_refl _) rfl
    · cases hstep
      exact .unavailable rfl _ request _
  | fstat i request =>
    rw [hs] at hstep
    cases ok with
    | true =>
      cases hstep
      exact .goes_on (fun h => nomatch h) rfl (Nat.le_refl _) rfl
    | false =>
      cases hstep
      exact .unavailable rfl _ request _
  | mmap i size request =>
    rw [hs] at hstep
    simp only at hstep
    split at hstep
    · cases hstep
      exact .unavailable rfl _ request _
    · cases hstep
      exact .goes_on (fun h => nomatch h) rfl (Nat.le_refl _) rfl
  | flush i op request =>
    rw [hs] at hstep
    simp only at hstep
    split at hstep
    · rename_i op' hop
      cases hstep
      have hless : op'.left < op.left := op.left_step (Prod.ext rfl hop)
      refine .goes_on (fun h => nomatch h) rfl ?_ rfl
      show DriverTask.serving request + op'.left ≤ DriverTask.serving request + op.left - 1
      omega
    · cases hstep
      -- `flush` returns, and the callback goes on with the ring
      have hpos := op.left_pos
      refine .available ?_ _ i ?_
      · rfl
      · show DriverTask.serving request ≤ DriverTask.serving request + op.left - 1
        omega
  | isActive i bytesCount =>
    rw [hs] at hstep
    simp only at hstep
    split at hstep
    · cases hstep
      exact .goes_on (fun h => nomatch h) rfl (Nat.le_refl _) rfl
    · cases hstep
      exact .silence rfl _ bytesCount _
  | getHeartbeat i bytesCount =>
    rw [hs] at hstep
    simp only at hstep
    split at hstep
    · cases hstep
      exact .silence rfl _ bytesCount _
    · cases hstep
      exact .goes_on (fun h => nomatch h) rfl (Nat.le_refl _) rfl
  | read i op bytesCount =>
    rw [hs] at hstep
    simp only at hstep
    split at hstep
    · rename_i op' hop
      cases hstep
      have hless : op'.left < op.left := op.left_step (Prod.ext rfl hop)
      refine .goes_on (fun h => nomatch h) rfl ?_ rfl
      exact Nat.le_sub_one_of_lt hless
    · cases hstep
      -- `read` delivers, and the answer is put on the log
      refine .returns rfl ?_
      show (s.log ++ [_]).map _ = _
      rw [List.map_append]
      rfl
    · cases hstep
      -- `read` refuses
      refine .silence ?_ _ bytesCount _
      rfl

/-! ## What the other side does meanwhile -/

/-- A call of the driver in progress is left alone by everything but its own steps. -/
theorem step_of_driver_busy [Zero α] {l : ShmLabel α} (hbusy : s.driver.task ≠ .idle)
    (hl : l.isDriver = false) (hstep : s.step l = some s') :
    s'.driver = s.driver ∧ s'.log = s.log := by
  cases l with
  | shmCreate sampleRate channels =>
    simp only [ShmSystem.step] at hstep
    split at hstep
    · split at hstep
      · cases hstep
        exact ⟨rfl, rfl⟩
      · cases hstep
    · cases hstep
  | processAndWrite outputBuf numFrames =>
    simp only [ShmSystem.step] at hstep
    split at hstep
    · cases hstep
      exact ⟨rfl, rfl⟩
    · cases hstep
      exact ⟨rfl, rfl⟩
    · cases hstep
  | shmDestroy =>
    simp only [ShmSystem.step] at hstep
    split at hstep
    · cases hstep
      exact ⟨rfl, rfl⟩
    · cases hstep
  | crash =>
    cases hstep
    exact ⟨rfl, rfl⟩
  | app ok => exact appStep_driver hstep
  | onStart | onStop | readClientInput =>
    -- another call does not start
    simp only [ShmSystem.step] at hstep
    cases hstep
  | driver ok => cases hl

/-- A call of the app in progress is left alone by everything but its own steps and a crash. -/
theorem step_of_app_busy [Zero α] {l : ShmLabel α} (hbusy : s.app.task ≠ .idle)
    (hl : l.isApp = false) (hstep : s.step l = some s') :
    s'.app.task = .idle ∨ s'.app = s.app := by
  cases l with
  | shmCreate | shmDestroy =>
    -- another call does not start
    simp only [ShmSystem.step] at hstep
    cases hstep
  | processAndWrite outputBuf numFrames =>
    simp only [ShmSystem.step] at hstep
    split at hstep
    · rename_i hidle _
      exact absurd hidle hbusy
    · rename_i hidle _
      exact absurd hidle hbusy
    · cases hstep
  | crash =>
    cases hstep
    exact .inl rfl
  | app ok => cases hl
  | onStart => exact .inr (step_driver hstep (.inr (.inl rfl))).app
  | onStop => exact .inr (step_driver hstep (.inr (.inr (.inl rfl)))).app
  | readClientInput bytesCount =>
    exact .inr (step_driver hstep (.inr (.inr (.inr ⟨bytesCount, rfl⟩)))).app
  | driver ok => exact .inr (step_driver hstep (.inl ⟨ok, rfl⟩)).app

/-! ## Whole calls -/

/-- The first step of a call of the driver. -/
theorem step_callsDriver [Zero α] {l : ShmLabel α} (hl : l.callsDriver = true)
    (hstep : s.step l = some s') : DriverGoes s s' l.request l.cost := by
  cases l with
  | onStart =>
    simp only [ShmSystem.step] at hstep
    split at hstep
    · cases hstep
      exact .ensureConnected s _ none
    · cases hstep
  | onStop =>
    simp only [ShmSystem.step] at hstep
    split at hstep
    · cases hstep
      exact .returns rfl (List.append_nil _).symm
    · cases hstep
  | readClientInput bytesCount =>
    simp only [ShmSystem.step] at hstep
    split at hstep
    · cases hstep
      exact .ensureConnected s _ (some bytesCount)
    · cases hstep
  | _ => cases hl

/-- The first step of a call of the app. -/
theorem step_callsApp [Zero α] {l : ShmLabel α} (hl : l.callsApp = true)
    (hstep : s.step l = some s') : s'.app.task.left ≤ l.cost := by
  cases l with
  | shmCreate sampleRate channels =>
    simp only [ShmSystem.step] at hstep
    split at hstep
    · split at hstep
      · cases hstep
        exact Nat.le_refl 13
      · cases hstep
    · cases hstep
  | processAndWrite outputBuf numFrames =>
    simp only [ShmSystem.step] at hstep
    split at hstep
    · cases hstep
      show ((List.range (u32 (numFrames * 2))).map outputBuf).length + 5 ≤ _
      rw [List.length_map, List.length_range]
      exact Nat.le_refl _
    · rename_i hidle _
      cases hstep
      rw [hidle]
      exact Nat.zero_le _
    · cases hstep
  | shmDestroy =>
    simp only [ShmSystem.step] at hstep
    split at hstep
    · cases hstep
      exact s.app.left_reset
    · cases hstep
  | _ => cases hl

/-- The call of the driver for `request` that started in `s` is in progress. -/
structure InCall (s : ShmSystem α) (request : Option Nat) (x : ShmSystem α) : Prop where
  busy : x.driver.task ≠ .idle
  same : x.driver.task.request = request
  log : x.log = s.log

/-- It has returned, and a callback was answered. -/
structure Returned (s : ShmSystem α) (request : Option Nat) (x : ShmSystem α) : Prop where
  task : x.driver.task = .idle
  log : x.log.map (·.bytesCount) = s.log.map (·.bytesCount) ++ request.toList

theorem InCall.driver [Zero α] {x x' : ShmSystem α} {request : Option Nat} {l : ShmLabel α}
    (h : InCall s request x) (hl : l.isDriver = true) (hstep : x.step l = some x') :
    Returned s request x' ∨
      InCall s request x' ∧ x'.driver.task.left < x.driver.task.left := by
  cases l with
  | driver ok =>
    have hpos := DriverTask.left_pos h.busy
    cases driverStep_goes hstep with
    | returns htask hlog => exact .inl ⟨htask, by rw [hlog, h.same, h.log]⟩
    | goes_on hbusy hsame hleft hlog =>
      exact .inr ⟨⟨hbusy, hsame.trans h.same, hlog.trans h.log⟩, by omega⟩
  | _ => cases hl

theorem InCall.other [Zero α] {x x' : ShmSystem α} {request : Option Nat} {l : ShmLabel α}
    (h : InCall s request x) (hl : l.isDriver = false) (hstep : x.step l = some x') :
    InCall s request x' ∧ x'.driver.task.left ≤ x.driver.task.left := by
  obtain ⟨hdriver, hlog⟩ := step_of_driver_busy h.busy hl hstep
  refine ⟨⟨?_, ?_, hlog.trans h.log⟩, ?_⟩
  · rw [hdriver]
    exact h.busy
  · rw [hdriver]
    exact h.same
  · rw [hdriver]

/-- In every run from the start of a call of the driver, it returns. -/
theorem driver_returns [Zero α] {t u : ShmSystem α} {l : ShmLabel α} {ls : List (ShmLabel α)}
    (hl : l.callsDriver = true) (hcall : s.step l = some t) (hrun : run step t ls = some u)
    (hlong : l.cost ≤ ls.countP ShmLabel.isDriver) :
    ∃ p q v, ls = p ++ q ∧ p.countP ShmLabel.isDriver ≤ l.cost ∧ run step t p = some v ∧
      Returned s l.request v := by
  cases step_callsDriver hl hcall with
  | returns htask hlog => exact ⟨[], ls, t, rfl, Nat.zero_le _, rfl, htask, hlog⟩
  | goes_on hbusy hsame hleft hlog =>
    have hstart : InCall s l.request t := ⟨hbusy, hsame, hlog⟩
    obtain ⟨p, q, v, hsplit, hcount, hv, hreturned⟩ := Rank.reached_within_run
      (InCall s l.request) (Returned s l.request) (fun x => x.driver.task.left)
      (fun _ h => DriverTask.left_pos h.busy) (fun _ _ _ h hl hstep => h.driver hl hstep)
      (fun _ _ _ h hl hstep => .inr (h.other hl hstep)) hstart hrun (Nat.le_trans hleft hlong)
    exact ⟨p, q, v, hsplit, Nat.le_trans hcount hleft, hv, hreturned⟩

/-- In every run from the start of a call of the app, it returns, or the app crashes. -/
theorem app_returns [Zero α] {t u : ShmSystem α} {l : ShmLabel α} {ls : List (ShmLabel α)}
    (hl : l.callsApp = true) (hcall : s.step l = some t) (hrun : run step t ls = some u)
    (hlong : l.cost ≤ ls.countP ShmLabel.isApp) :
    ∃ p q v, ls = p ++ q ∧ p.countP ShmLabel.isApp ≤ l.cost ∧ run step t p = some v ∧
      v.app.task = .idle := by
  have hleft := step_callsApp hl hcall
  by_cases hidle : t.app.task = .idle
  · exact ⟨[], ls, t, rfl, Nat.zero_le _, rfl, hidle⟩
  have hown : ∀ (x : ShmSystem α) l x', x.app.task ≠ .idle → l.isApp = true →
      x.step l = some x' → x'.app.task = .idle ∨
        x'.app.task ≠ .idle ∧ x'.app.task.left < x.app.task.left := by
    intro x l x' _ hl hstep
    cases l with
    | app ok =>
      have hless := appStep_left hstep
      by_cases hidle : x'.app.task = .idle
      · exact .inl hidle
      · exact .inr ⟨hidle, hless⟩
    | _ => cases hl
  have hother : ∀ (x : ShmSystem α) l x', x.app.task ≠ .idle → l.isApp = false →
      x.step l = some x' → x'.app.task = .idle ∨
        x'.app.task ≠ .idle ∧ x'.app.task.left ≤ x.app.task.left := by
    intro x l x' hbusy hl hstep
    rcases step_of_app_busy hbusy hl hstep with hidle | happ
    · exact .inl hidle
    · rw [happ]
      exact .inr ⟨hbusy, Nat.le_refl _⟩
  obtain ⟨p, q, v, hsplit, hcount, hv, hreturned⟩ := Rank.reached_within_run
    (fun x : ShmSystem α => x.app.task ≠ .idle) (fun x => x.app.task = .idle)
    (fun x => x.app.task.left) (fun _ h => AppTask.left_pos h) hown hother hidle hrun
    (Nat.le_trans hleft hlong)
  exact ⟨p, q, v, hsplit, Nat.le_trans hcount hleft, hv, hreturned⟩

/-! ## No side is ever held up -/

/-- A call of the driver in progress can always go on. -/
theorem driver_ready [Zero α] (hbusy : s.driver.task ≠ .idle) (ok : Bool) :
    (s.step (.driver ok)).isSome = true := by
  show (s.driverStep ok).isSome = true
  unfold driverStep
  cases hs : s.driver.task with
  | idle => exact absurd hs hbusy
  | shmOpen | fstat | mmap | isActive | getHeartbeat =>
    simp only
    split
    · rfl
    · rfl
  | flush i op request =>
    simp only
    split
    · rfl
    · rfl
  | read i op bytesCount =>
    simp only
    split
    · rfl
    · rfl
    · rfl

/-- A call of the app in progress can always go on. -/
theorem app_ready [Zero α] (hbusy : s.app.task ≠ .idle) (ok : Bool) :
    (s.step (.app ok)).isSome = true := by
  show (s.appStep ok).isSome = true
  unfold appStep
  cases hs : s.app.task with
  | idle => exact absurd hs hbusy
  | shmUnlink | undo | clearActive | unlinkName => rfl
  | shmOpen | ftruncate | mmap =>
    cases ok with
    | true => rfl
    | false => rfl
  | init field i args =>
    simp only
    split
    · rfl
    · rfl
  | write i op =>
    simp only
    split
    · rfl
    · rfl

/-- The calls of the app and of the driver are wait-free. From the start of a call, in every run,
    it has returned after at most as many steps of its own side as its cost says, whatever the
    steps of the other side in between, and a callback has been answered then. As long as it has
    not returned, its side can make its next step. -/
theorem calls_wait_free [Zero α] {s t u : ShmSystem α} {l : ShmLabel α} {ls : List (ShmLabel α)}
    (hcall : s.step l = some t) (hrun : run step t ls = some u) :
    (l.callsDriver = true → l.cost ≤ ls.countP ShmLabel.isDriver →
      ∃ p q v, ls = p ++ q ∧ p.countP ShmLabel.isDriver ≤ l.cost ∧ run step t p = some v ∧
        Returned s l.request v) ∧
    (l.callsApp = true → l.cost ≤ ls.countP ShmLabel.isApp →
      ∃ p q v, ls = p ++ q ∧ p.countP ShmLabel.isApp ≤ l.cost ∧ run step t p = some v ∧
        v.app.task = .idle) ∧
    (u.driver.task ≠ .idle → ∀ ok, (u.step (.driver ok)).isSome = true) ∧
    (u.app.task ≠ .idle → ∀ ok, (u.step (.app ok)).isSome = true) :=
  ⟨fun hl hlong => driver_returns hl hcall hrun hlong,
    fun hl hlong => app_returns hl hcall hrun hlong,
    fun hbusy ok => driver_ready hbusy ok, fun hbusy ok => app_ready hbusy ok⟩

/-- The app crashes while a callback attaches to its ring; the callback returns all the same, and
    so does the next one. -/
def crashInCallback : List (ShmLabel Nat) :=
  [.driver true, .crash] ++ List.replicate 9 (.driver true) ++
    [.readClientInput 8, .driver true, .driver true, .driver true]

theorem calls_wait_free_crash :
    ∃ s t u v : ShmSystem Nat, ∃ p q, run step init
        ([.shmCreate 25 2] ++ List.replicate 11 (.app true)) = some s ∧
      s.step (.readClientInput 8) = some t ∧ run step t crashInCallback = some u ∧
      crashInCallback = p ++ q ∧ p.countP ShmLabel.isDriver ≤ 13 ∧ run step t p = some v ∧
      v.driver.task = .idle ∧ v.log.map (·.bytesCount) = [8] := by
  obtain ⟨s, t, u, hs, hcall, hrun, hlog⟩ :
      ∃ s t u : ShmSystem Nat, run step init
          ([.shmCreate 25 2] ++ List.replicate 11 (.app true)) = some s ∧
        s.step (.readClientInput 8) = some t ∧ run step t crashInCallback = some u ∧
        s.log = [] :=
    ⟨_, _, _, rfl, rfl, rfl, rfl⟩
  obtain ⟨hdriver, -⟩ := calls_wait_free hcall hrun
  obtain ⟨p, q, v, hsplit, hcount, hv, hreturned⟩ := hdriver rfl (by decide)
  have hlast := hreturned.log
  rw [hlog] at hlast
  exact ⟨s, t, u, v, p, q, hs, hcall, hrun, hsplit, hcount, hv, hreturned.task, hlast⟩

end ShmSystem

end Noise
