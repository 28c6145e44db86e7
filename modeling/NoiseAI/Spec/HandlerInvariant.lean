import NoiseAI.Native.IOHandler

/-!
# The invariant of the IO handler

`IOHandler.Inv` holds of every handler that is only used through its callbacks, whatever
shared memory answers. The `_cases` lemmas say once what a callback can do.
-/

namespace Noise

namespace IOHandler

variable {σ α : Type} {w : Consumer σ α} {io : IOHandler} {s : σ}

/-- A handler holds a segment only if it is mapped, counts stale callbacks only while it
    holds one, and waits for the next attempt only while it holds none. -/
structure Inv (io : IOHandler) : Prop where
  valid : ∀ b, io.sharedBuffer = some b → b.isValid = true
  countdown : io.sharedBuffer.isSome = true → io.reconnectCountdown = 0
  stale : io.staleCount < kStaleThreshold
  wasConnected : io.wasConnected = true → io.sharedBuffer.isSome = true
  forgotten : io.sharedBuffer = none → io.lastHeartbeat = 0 ∧ io.staleCount = 0
  ever : io.sharedBuffer.isSome = true → io.wasEverConnected = true

theorem Inv.new : new.Inv where
  valid := fun _ h => nomatch h
  countdown := fun _ => rfl
  stale := Nat.succ_pos 49
  wasConnected := fun h => nomatch h
  forgotten := fun _ => ⟨rfl, rfl⟩
  ever := fun h => nomatch h

theorem Inv.onStopIO (io : IOHandler) : io.onStopIO.Inv where
  valid := fun _ h => nomatch h
  countdown := fun _ => rfl
  stale := Nat.succ_pos 49
  wasConnected := fun h => nomatch h
  forgotten := fun _ => ⟨rfl, rfl⟩
  ever := fun h => nomatch h

theorem Inv.disconnect (io : IOHandler) (h : io.reconnectCountdown = 0) : io.disconnect.Inv where
  valid := fun _ h => nomatch h
  countdown := fun _ => h
  stale := Nat.succ_pos 49
  wasConnected := fun h => nomatch h
  forgotten := fun _ => ⟨rfl, rfl⟩
  ever := fun h => nomatch h

theorem Inv.silenced (h : io.Inv) : ({ io with wasConnected := false } : IOHandler).Inv where
  valid := h.valid
  countdown := h.countdown
  stale := h.stale
  wasConnected := fun h => nomatch h
  forgotten := h.forgotten
  ever := h.ever

/-- A handler is connected exactly when it holds a segment. -/
theorem Inv.isConnected_eq (h : io.Inv) : io.isConnected = io.sharedBuffer.isSome := by
  unfold isConnected
  cases hb : io.sharedBuffer with
  | none => rfl
  | some b => exact h.valid b hb

/-- What `ensureConnected` can do: find the segment it holds, wait, fail to open one, or
    attach the one it opens. -/
theorem Inv.ensureConnected_cases (h : io.Inv) (w : Consumer σ α) (s : σ) :
    (∃ b, io.sharedBuffer = some b ∧ b.isValid = true ∧
      io.ensureConnected w s = (true, io, s)) ∨
    (io.sharedBuffer = none ∧ 0 < io.reconnectCountdown ∧
      io.ensureConnected w s =
        (false, { io with reconnectCountdown := io.reconnectCountdown - 1 }, s)) ∨
    (io.sharedBuffer = none ∧ io.reconnectCountdown = 0 ∧
      (w.openExisting s).1.isValid = false ∧
      io.ensureConnected w s =
        (false, { io.beginAttempt with sharedBuffer := none }, (w.openExisting s).2)) ∨
    (io.sharedBuffer = none ∧ io.reconnectCountdown = 0 ∧
      (w.openExisting s).1.isValid = true ∧
      io.ensureConnected w s =
        (true, io.beginAttempt.attach (w.openExisting s).1,
          w.flush (w.openExisting s).1 (w.openExisting s).2)) := by
  have hconn := h.isConnected_eq
  cases hb : io.sharedBuffer with
  | some b =>
    -- a buffer that is held is valid
    left
    rw [hb] at hconn
    refine ⟨b, rfl, h.valid b hb, ?_⟩
    unfold ensureConnected
    rw [hconn]
    rfl
  | none =>
    right
    rw [hb] at hconn
    unfold ensureConnected
    rw [hconn]
    by_cases hwait : 0 < io.reconnectCountdown
    · left
      refine ⟨rfl, hwait, ?_⟩
      simp [hwait, hb]
    · right
      have hzero : io.reconnectCountdown = 0 := by omega
      cases hvalid : (w.openExisting s).1.isValid with
      | false =>
        left
        refine ⟨rfl, hzero, rfl, ?_⟩
        simp [hwait, hvalid]
      | true =>
        right
        refine ⟨rfl, hzero, rfl, ?_⟩
        simp [hwait, hvalid]

/-- A callback that finds no segment finds `was_connected_` cleared. -/
theorem Inv.wasConnected_of_not_connected (h : io.Inv)
    (hfail : (io.ensureConnected w s).1 = false) :
    (io.ensureConnected w s).2.1.wasConnected = false := by
  have hnot : io.sharedBuffer = none → io.wasConnected = false := by
    intro hnone
    cases hwas : io.wasConnected with
    | false => rfl
    | true =>
      have hsome := h.wasConnected hwas
      rw [hnone] at hsome
      exact nomatch hsome
  rcases h.ensureConnected_cases w s with ⟨_, _, _, heq⟩ | ⟨hnone, _, heq⟩ | ⟨hnone, _, _, heq⟩ |
    ⟨_, _, _, heq⟩
  · rw [heq] at hfail
    exact nomatch hfail
  · rw [heq]
    exact hnot hnone
  · rw [heq]
    exact hnot hnone
  · rw [heq] at hfail
    exact nomatch hfail

/-- The handler after `ensureConnected`. -/
theorem Inv.ensureConnected (h : io.Inv) (w : Consumer σ α) (s : σ) :
    (io.ensureConnected w s).2.1.Inv := by
  rcases h.ensureConnected_cases w s with ⟨_, _, _, heq⟩ | ⟨hnone, _, heq⟩ | ⟨hnone, _, _, heq⟩ |
    ⟨hnone, _, hvalid, heq⟩
  · rw [heq]
    exact h
  · rw [heq]
    exact ⟨h.valid, fun hsome => by simp [hnone] at hsome, h.stale, h.wasConnected,
      h.forgotten, h.ever⟩
  · rw [heq]
    refine ⟨(fun _ hb => nomatch hb), (fun hsome => nomatch hsome), h.stale, ?_,
      fun _ => h.forgotten hnone, (fun hsome => nomatch hsome)⟩
    intro hwas
    have hsome := h.wasConnected hwas
    rw [hnone] at hsome
    exact nomatch hsome
  · rw [heq]
    refine ⟨?_, fun _ => rfl, h.stale, fun _ => rfl, (fun hb => nomatch hb), fun _ => rfl⟩
    intro b hb
    cases hb
    exact hvalid

/-- The handler that `OnStartIO` leaves behind, whatever it was before. -/
theorem Inv.onStartIO {w : Consumer σ α} {s s' : σ} {io' : IOHandler}
    (hstart : io.onStartIO w s = (io', s')) : io'.Inv := by
  obtain rfl : io' = (IOHandler.new.ensureConnected w s).2.1 := congrArg Prod.fst hstart.symm
  exact Inv.new.ensureConnected w s

/-! ## Serving a callback -/

/-- What `serve` can do: find the producer inactive, find the heartbeat stale, or read. -/
theorem serve_cases (w : Consumer σ α) (io : IOHandler) (b : SharedRingBuffer) (s : σ)
    (bytesCount : Nat) :
    let active := w.isActive b s
    let beat := w.getHeartbeat b active.2
    let check := io.markConnected.checkHeartbeat beat.1
    (active.1 = false ∧
      io.serve w b s bytesCount = (none, io.markConnected.disconnect, active.2)) ∨
    (active.1 = true ∧ check.1 = true ∧
      io.serve w b s bytesCount = (none, check.2.disconnect, beat.2)) ∨
    (active.1 = true ∧ check.1 = false ∧
      io.serve w b s bytesCount =
        ((w.read b (totalSamples bytesCount) beat.2).1,
          { check.2 with wasUnderrun := (w.read b (totalSamples bytesCount) beat.2).1.isNone },
          (w.read b (totalSamples bytesCount) beat.2).2)) := by
  intro active beat check
  unfold serve
  cases hactive : active.1 with
  | false =>
    left
    exact ⟨rfl, by simp [active] at hactive; simp [hactive, active]⟩
  | true =>
    right
    cases hcheck : check.1 with
    | true =>
      left
      refine ⟨rfl, rfl, ?_⟩
      simp only [active, beat, check] at hactive hcheck ⊢
      simp [hactive, hcheck]
    | false =>
      right
      refine ⟨rfl, rfl, ?_⟩
      simp only [active, beat, check] at hactive hcheck ⊢
      simp only [hactive, hcheck, Bool.not_true, Bool.false_eq_true, if_false]
      -- a read that fails is noted as an underrun
      cases hread : w.read b (totalSamples bytesCount) (w.getHeartbeat b (w.isActive b s).2).2 with
      | mk samples s' =>
        cases samples with
        | none => rfl
        | some samples => rfl

theorem markConnected_eq (io : IOHandler) :
    ∃ underrun, io.markConnected = { io with wasConnected := true, wasUnderrun := underrun } := by
  unfold markConnected
  split
  · exact ⟨false, rfl⟩
  · rename_i hwas
    refine ⟨io.wasUnderrun, ?_⟩
    simp only [Bool.not_eq_eq_eq_not, Bool.not_true, Bool.not_eq_false] at hwas
    rw [← hwas]

/-- What the heartbeat check does. -/
theorem checkHeartbeat_cases (io : IOHandler) (hb : Nat) :
    (hb = io.lastHeartbeat ∧ (io.checkHeartbeat hb).2 =
        { io with staleCount := io.staleCount + 1 } ∧
      (io.checkHeartbeat hb).1 = decide (kStaleThreshold ≤ io.staleCount + 1)) ∨
    (hb ≠ io.lastHeartbeat ∧ (io.checkHeartbeat hb).2 =
        { io with lastHeartbeat := hb, staleCount := 0 } ∧ (io.checkHeartbeat hb).1 = false) := by
  unfold checkHeartbeat
  by_cases heq : hb = io.lastHeartbeat
  · left
    rw [if_pos heq]
    exact ⟨heq, rfl, rfl⟩
  · right
    rw [if_neg heq]
    exact ⟨heq, rfl, rfl⟩

/-- The heartbeat check changes no more than what it has counted. -/
theorem checkHeartbeat_eq (io : IOHandler) (hb : Nat) : ∃ stale,
    (io.checkHeartbeat hb).2 = { io with lastHeartbeat := hb, staleCount := stale } := by
  rcases io.checkHeartbeat_cases hb with ⟨heq, hnext, _⟩ | ⟨_, hnext, _⟩
  · subst heq
    exact ⟨_, hnext⟩
  · exact ⟨_, hnext⟩

/-- A handler that served a callback keeps its invariant. -/
theorem Inv.serve {b : SharedRingBuffer} (h : io.Inv) (hb : io.sharedBuffer = some b)
    (w : Consumer σ α) (s : σ) (bytesCount : Nat) : (io.serve w b s bytesCount).2.1.Inv := by
  have hzero := h.countdown (by rw [hb]; rfl)
  obtain ⟨underrun, hmark⟩ := io.markConnected_eq
  rcases serve_cases w io b s bytesCount with ⟨_, heq⟩ | ⟨_, _, heq⟩ | ⟨_, hfresh, heq⟩
  · rw [heq]
    exact Inv.disconnect _ (by rw [hmark]; exact hzero)
  · rw [heq]
    obtain ⟨stale, hnext⟩ :=
      io.markConnected.checkHeartbeat_eq (w.getHeartbeat b (w.isActive b s).2).1
    exact Inv.disconnect _ (by rw [hnext, hmark]; exact hzero)
  · rw [heq]
    rcases io.markConnected.checkHeartbeat_cases
      (w.getHeartbeat b (w.isActive b s).2).1 with ⟨_, hcheck, hstale⟩ | ⟨_, hcheck, _⟩
    · rw [hstale] at hfresh
      rw [hcheck]
      rw [hmark] at hfresh ⊢
      have hlt := of_decide_eq_false hfresh
      exact ⟨h.valid, h.countdown, Nat.lt_of_not_le hlt, fun _ => by rw [hb]; rfl,
        (fun hnone => by rw [hb] at hnone; exact nomatch hnone), h.ever⟩
    · rw [hcheck, hmark]
      exact ⟨h.valid, h.countdown, Nat.succ_pos 49, fun _ => by rw [hb]; rfl,
        (fun hnone => by rw [hb] at hnone; exact nomatch hnone), h.ever⟩

/-- Every callback keeps the invariant. -/
theorem Inv.onReadClientInput (h : io.Inv) (w : Consumer σ α) (s : σ) (bytesCount : Nat) :
    (io.onReadClientInput w s bytesCount).2.1.Inv := by
  have hnext := h.ensureConnected w s
  have hlost := h.wasConnected_of_not_connected (w := w) (s := s)
  unfold IOHandler.onReadClientInput
  cases hensure : io.ensureConnected w s with
  | mk connected rest =>
    obtain ⟨io', s'⟩ := rest
    rw [hensure] at hnext hlost
    cases connected with
    | false => exact hnext.silenced
    | true =>
      cases hb : io'.sharedBuffer with
      | none =>
        simp only [hb]
        exact hnext
      | some b =>
        simp only [hb]
        exact hnext.serve hb w s' bytesCount

end IOHandler

end Noise
