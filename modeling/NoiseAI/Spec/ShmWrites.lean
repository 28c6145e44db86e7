import NoiseAI.Spec.Attach

/-!
# What a step writes, and where

The app writes to one segment at a time, and never returns to an older one: a step of the
system publishes the block of the `write` in progress on its segment (`Publishes`), or no
samples at all (`Keeps`). A driver step changes nothing of a segment but `read_pos`
(`DriverReads`).
-/

namespace Noise

variable {α : Type}

/-- What a `write` in progress is going to publish. -/
def WriteOp.unpublished : WriteOp α → List α
  | .addHeartbeat _ => []
  | op => op.block

/-- The segment that the app's thread creates or writes to. -/
def AppTask.fills : AppTask α → Option Nat
  | .ftruncate i _ | .mmap i _ | .init _ i _ | .write i _ => some i
  | _ => none

/-- The app creates segment `i`, writes to it, or may write to it later. -/
def App.Fills (a : App α) (i : Nat) : Prop :=
  a.task.fills = some i ∨ a.buffer.bind (·.segment) = some i

namespace ShmSystem

variable {s s' : ShmSystem α} {i : Nat}

/-- A step that publishes no samples. -/
structure Keeps (s s' : ShmSystem α) : Prop where
  created : s.shm.created ≤ s'.shm.created
  written : ∀ i < s.shm.created, (s'.history i).written = (s.history i).written
  fresh : ∀ i, s.shm.created ≤ i → i < s'.shm.created → (s'.history i).written = []
  writing : ∀ i op', s'.app.task = .write i op' → s'.app.buffer = s.app.buffer ∧
    ∃ op, s.app.task = .write i op ∧ op'.unpublished = op.unpublished
  fills : ∀ i, s'.app.Fills i → s.app.Fills i ∨ i = s.shm.created

/-- A step that publishes `data` on segment `i`. -/
structure Publishes (s s' : ShmSystem α) (i : Nat) (data : List α) : Prop where
  task : ∃ w c j, s.app.task = .write i (.copy data w c j)
  next : s'.app.task = .write i (.addHeartbeat data)
  buffer : s'.app.buffer = s.app.buffer
  created : s'.shm.created = s.shm.created
  here : (s'.history i).written = (s.history i).written ++ data
  other : ∀ j, j ≠ i → (s'.history j).written = (s.history j).written

/-- What a step of the driver does to the app and to shared memory. -/
structure DriverReads (s s' : ShmSystem α) : Prop where
  app : s'.app = s.app
  names : s'.shm.names = s.shm.names
  created : s'.shm.created = s.shm.created
  segment : ∀ i, ∃ r, s'.shm.segment i = (s.shm.segment i).setReadPos r
  written : ∀ i, (s'.history i).written = (s.history i).written

/-! ## The driver -/

theorem DriverReads.refl (s : ShmSystem α) (d : Driver α) (flushed : Nat)
    (log : List (Callback α)) :
    DriverReads s { s with driver := d, flushed := flushed, log := log } :=
  ⟨rfl, rfl, rfl, fun i => ⟨(s.shm.segment i).header.readPos, rfl⟩, fun _ => rfl⟩

theorem DriverReads.unavailable (s : ShmSystem α) (io : IOHandler) (request : Option Nat) :
    DriverReads s (s.unavailable io request) := by
  cases request with
  | none => exact .refl s _ _ _
  | some bytesCount => exact .refl s _ _ _

theorem DriverReads.available {t : ShmSystem α} (h : DriverReads s t) (io : IOHandler) (i : Nat)
    (request : Option Nat) : DriverReads s (t.available io i request) := by
  cases request with
  | none => exact ⟨h.app, h.names, h.created, h.segment, h.written⟩
  | some bytesCount => exact ⟨h.app, h.names, h.created, h.segment, h.written⟩

theorem DriverReads.ensureConnected (s : ShmSystem α) (io : IOHandler) (request : Option Nat) :
    DriverReads s (s.ensureConnected io request) := by
  unfold ShmSystem.ensureConnected
  split
  · exact (DriverReads.refl s s.driver s.flushed s.log).available io _ request
  · split
    · exact .unavailable s _ request
    · exact .refl s _ _ _

/-- An access of a `read` or `flush`. -/
theorem DriverReads.accessed (s : ShmSystem α) (i : Nat) (op : ReadOp α) (flushed : Nat)
    (d : Driver α) (log : List (Callback α)) :
    DriverReads s (s.accessed i op flushed d log) := by
  refine ⟨rfl, rfl, rfl, ?_, accessed_moves.written⟩
  intro j
  -- only the `read_pos` of segment `i` changes
  by_cases hj : j = i
  · subst hj
    rw [accessed_segment]
    exact op.step_eq _
  · rw [accessed_segment_of_ne hj]
    exact ⟨(s.shm.segment j).header.readPos, rfl⟩

theorem driverStep_reads {ok : Bool} (hstep : s.driverStep ok = some s') : DriverReads s s' := by
  unfold ShmSystem.driverStep at hstep
  cases hs : s.driver.task with
  | idle =>
    rw [hs] at hstep
    exact nomatch hstep
  | shmOpen request =>
    rw [hs] at hstep
    simp only at hstep
    split at hstep
    · cases hstep
      exact .refl s _ _ _
    · cases hstep
      exact .unavailable s _ request
  | fstat i request =>
    rw [hs] at hstep
    cases ok with
    | true =>
      cases hstep
      exact .refl s _ _ _
    | false =>
      cases hstep
      exact .unavailable s _ request
  | mmap i size request =>
    rw [hs] at hstep
    simp only at hstep
    split at hstep
    · cases hstep
      exact .unavailable s _ request
    · cases hstep
      exact .refl s _ _ _
  | flush i op request =>
    rw [hs] at hstep
    simp only at hstep
    split at hstep
    · cases hstep
      exact .accessed s i op _ _ _
    · cases hstep
      exact (DriverReads.accessed s i op _ _ _).available _ i request
  | isActive i bytesCount =>
    rw [hs] at hstep
    simp only at hstep
    split at hstep
    · cases hstep
      exact .refl s _ _ _
    · cases hstep
      exact .refl s _ _ _
  | getHeartbeat i bytesCount =>
    rw [hs] at hstep
    simp only at hstep
    split at hstep
    · cases hstep
      exact .refl s _ _ _
    · cases hstep
      exact .refl s _ _ _
  | read i op bytesCount =>
    rw [hs] at hstep
    simp only at hstep
    split at hstep
    · cases hstep
      exact .accessed s i op _ _ _
    · cases hstep
      exact .accessed s i op _ _ _
    · cases hstep
      exact .accessed s i op _ _ _

theorem DriverReads.keeps (h : DriverReads s s') : Keeps s s' := by
  refine ⟨Nat.le_of_eq h.created.symm, fun i _ => h.written i, ?_, ?_, ?_⟩
  · intro i hold hnew
    rw [h.created] at hnew
    omega
  · intro i op htask
    rw [h.app] at htask
    exact ⟨by rw [h.app], op, htask, rfl⟩
  · intro i hfills
    rw [h.app] at hfills
    exact .inl hfills

/-! ## The app -/

/-- A step of the app that only changes what it does next and what it holds. -/
theorem Keeps.of_local (hcreated : s'.shm.created = s.shm.created)
    (hhistory : s'.history = s.history) (hquiet : quiet s'.app.task)
    (hfills : ∀ i, s'.app.Fills i → s.app.Fills i) : Keeps s s' := by
  refine ⟨Nat.le_of_eq hcreated.symm, ?_, ?_, ?_, fun i h => .inl (hfills i h)⟩
  · intro i _
    rw [hhistory]
  · intro i hold hnew
    rw [hcreated] at hnew
    omega
  · intro i op htask
    exact absurd htask (hquiet i op)

theorem fills_destructor (b : Option SharedRingBuffer) :
    (b.elim .idle App.destructor : AppTask α).fills = none := by
  rcases destructor_cases (α := α) b with h | ⟨j, name, h⟩ | ⟨name, h⟩
  · rw [h]
    rfl
  · rw [h]
    rfl
  · rw [h]
    rfl

/-- After a constructor the app holds what it has created, and nothing else. -/
theorem fills_assign {a : App α} {segment : Option Nat} {args : CreateArgs}
    (h : (a.assign (App.object segment args)).Fills i) : segment = some i := by
  rcases h with h | h
  · have hnone := fills_destructor (α := α) a.buffer
    rw [App.assign] at h
    exact nomatch hnone.symm.trans h
  · exact h

theorem fills_reset (a : App α) : ¬ a.reset.Fills i := by
  rintro (h | h)
  · have hnone := fills_destructor (α := α) a.buffer
    exact nomatch hnone.symm.trans h
  · exact nomatch h

/-- An access of a `write`. -/
theorem write_step (s : ShmSystem α) {op : WriteOp α} {t : AppTask α}
    (htask : s.app.task = .write i op)
    (ht : t = (op.step (s.shm.segment i)).2.op.elim .idle fun op' => .write i op') :
    let s' := (s.setRing i (op.step (s.shm.segment i)).1 (op.record (s.history i))).setTask t
    Keeps s s' ∨ ∃ data, Publishes s s' i data := by
  intro s'
  have hbuffer : s'.app.buffer = s.app.buffer := rfl
  have hother : ∀ j, j ≠ i → s'.history j = s.history j :=
    fun j hj => history_setRing_of_ne s hj _ _ t
  have hhere : s'.history i = op.record (s.history i) := history_setRing s i _ _ t
  -- an access that leaves the record as it is, and what there is to publish
  have hkeeps : op.record (s.history i) = s.history i →
      (∀ op', (op.step (s.shm.segment i)).2 = .running op' →
        op'.unpublished = op.unpublished) → Keeps s s' := by
    intro hrecord hnext
    have hsame : s'.history = s.history := by
      funext j
      by_cases hj : j = i
      · rw [hj, hhere, hrecord]
      · exact hother j hj
    refine ⟨Nat.le_refl _, fun j _ => by rw [hsame], fun j hold hnew => ?_, ?_, ?_⟩
    · exact absurd hnew (Nat.not_lt_of_le hold)
    · intro j op' hj
      have htask' : t = .write j op' := hj
      rw [ht] at htask'
      cases hp : (op.step (s.shm.segment i)).2 with
      | running op'' =>
        rw [hp] at htask'
        cases htask'
        exact ⟨hbuffer, op, htask, hnext op' hp⟩
      | returned res =>
        rw [hp] at htask'
        cases htask'
    · intro j hj
      left
      rcases hj with hj | hj
      · have hfills : t.fills = some j := hj
        rw [ht] at hfills
        left
        cases hp : (op.step (s.shm.segment i)).2.op with
        | none =>
          rw [hp] at hfills
          cases hfills
        | some op' =>
          rw [hp] at hfills
          rw [htask]
          exact hfills
      · exact .inr hj
  cases op with
  | loadWritePos data => exact .inl (hkeeps rfl fun op' h => by cases h; rfl)
  | loadReadPos data w => exact .inl (hkeeps rfl fun op' h => by cases h; rfl)
  | loadCapacity data w r =>
    refine .inl (hkeeps rfl fun op' h => ?_)
    simp only [WriteOp.step] at h
    split at h
    · cases h
    · cases h
      rfl
  | copy data w c j =>
    by_cases hmore : j < data.length
    · refine .inl (hkeeps (by simp only [WriteOp.record, hmore, ↓reduceIte]) fun op' h => ?_)
      simp only [WriteOp.step, hmore, ↓reduceDIte] at h
      cases h
      rfl
    · right
      have hrecord : (WriteOp.copy data w c j).record (s.history i) =
          { s.history i with written := (s.history i).written ++ data } := by
        simp only [WriteOp.record, hmore, ↓reduceIte]
      refine ⟨data, ⟨w, c, j, htask⟩, ?_, hbuffer, rfl, ?_, fun k hk => by rw [hother k hk]⟩
      · show t = _
        rw [ht]
        simp only [WriteOp.step, hmore, ↓reduceDIte]
        rfl
      · rw [hhere, hrecord]
  | addHeartbeat data => exact .inl (hkeeps rfl fun op' h => by cases h)

theorem appStep_writes [Zero α] {ok : Bool} (hinv : s.Inv) (hstep : s.appStep ok = some s') :
    Keeps s s' ∨ ∃ i data, Publishes s s' i data := by
  have htask := hinv.app.task
  have hfailed : ∀ (args : CreateArgs) (i : Nat),
      (s.app.assign (App.object none args)).Fills i → s.app.Fills i :=
    fun args i h => nomatch fills_assign h
  unfold ShmSystem.appStep at hstep
  cases hs : s.app.task with
  | idle =>
    rw [hs] at hstep
    exact nomatch hstep
  | shmUnlink args =>
    rw [hs] at hstep
    cases hstep
    exact .inl (.of_local rfl rfl (fun _ _ h => nomatch h) fun i h =>
      -- the new segment has no history yet, and is the one that the app fills
      .inr (h.resolve_left fun h => nomatch h))
  | shmOpen args =>
    rw [hs] at hstep htask
    cases ok with
    | true =>
      cases hstep
      left
      have hopened : Opened s (s.openCreate args) args := opened htask.2
      refine ⟨by rw [hopened.created]; exact Nat.le_succ _, ?_, ?_, ?_, ?_⟩
      · intro i hi
        rw [(hopened.other i (Nat.ne_of_lt hi)).2.2]
      · intro i hold hnew
        rw [hopened.created] at hnew
        obtain rfl : i = s.shm.created := by omega
        rw [hopened.history]
        rfl
      · intro i op' htask'
        rw [hopened.app] at htask'
        exact nomatch htask'
      · intro i hfills
        rw [hopened.app] at hfills
        rcases hfills with hfills | hfills
        · exact .inr (Option.some.inj hfills).symm
        · exact .inl (.inr hfills)
    | false =>
      cases hstep
      exact .inl (.of_local rfl rfl (quiet_destructor s.app.buffer) (hfailed args))
  | ftruncate i args =>
    rw [hs] at hstep
    have hfills : ∀ j, some i = some j → s.app.Fills j := by
      intro j hj
      left
      rw [hs]
      exact hj
    cases ok with
    | true =>
      cases hstep
      exact .inl (.of_local rfl rfl (fun _ _ h => nomatch h) fun j h =>
        h.elim (hfills j) .inr)
    | false =>
      cases hstep
      exact .inl (.of_local rfl rfl (fun _ _ h => nomatch h) fun j h =>
        .inr (h.resolve_left fun h => nomatch h))
  | mmap i args =>
    rw [hs] at hstep
    have hfills : ∀ j, some i = some j → s.app.Fills j := by
      intro j hj
      left
      rw [hs]
      exact hj
    cases ok with
    | true =>
      cases hstep
      exact .inl (.of_local rfl rfl (fun _ _ h => nomatch h) fun j h =>
        h.elim (hfills j) .inr)
    | false =>
      cases hstep
      exact .inl (.of_local rfl rfl (fun _ _ h => nomatch h) fun j h =>
        .inr (h.resolve_left fun h => nomatch h))
  | init field i args =>
    rw [hs] at hstep
    have hfills : ∀ j, some i = some j → s.app.Fills j := by
      intro j hj
      left
      rw [hs]
      exact hj
    -- after the last field the object is assigned, and the old one destroyed
    cases hnext : field.next with
    | none =>
      simp only [hnext] at hstep
      cases hstep
      exact .inl (.of_local rfl rfl (quiet_destructor s.app.buffer) fun j h =>
        hfills j (fills_assign h))
    | some next =>
      simp only [hnext] at hstep
      cases hstep
      exact .inl (.of_local rfl rfl (fun _ _ h => nomatch h) fun j h =>
        h.elim (hfills j) .inr)
  | undo args =>
    rw [hs] at hstep
    cases hstep
    exact .inl (.of_local rfl rfl (quiet_destructor s.app.buffer) (hfailed args))
  | clearActive i name =>
    rw [hs] at hstep
    cases hstep
    exact .inl (.of_local rfl rfl (fun _ _ h => nomatch h) fun j h =>
      .inr (h.resolve_left fun h => nomatch h))
  | unlinkName name =>
    rw [hs] at hstep
    cases hstep
    exact .inl (.of_local rfl rfl (fun _ _ h => nomatch h) fun j h =>
      .inr (h.resolve_left fun h => nomatch h))
  | write i op =>
    rw [hs] at hstep
    simp only at hstep
    -- only the store of `write_pos` publishes
    have hwrites := write_step s hs rfl
    cases hp : (op.step (s.shm.segment i)).2 with
    | running op' =>
      rw [hp] at hstep
      cases hstep
      rw [hp] at hwrites
      exact hwrites.imp id fun h => ⟨i, h⟩
    | returned res =>
      rw [hp] at hstep
      cases hstep
      rw [hp] at hwrites
      exact hwrites.imp id fun h => ⟨i, h⟩

/-- A step that starts no `write` publishes the block of the one in progress, or nothing. -/
theorem step_writes [Zero α] {l : ShmLabel α} (hinv : s.Inv)
    (hl : ∀ outputBuf numFrames, l ≠ .processAndWrite outputBuf numFrames)
    (hstep : s.step l = some s') : Keeps s s' ∨ ∃ i data, Publishes s s' i data := by
  cases l with
  | processAndWrite outputBuf numFrames => exact absurd rfl (hl outputBuf numFrames)
  | shmCreate sampleRate channels =>
    simp only [ShmSystem.step] at hstep
    split at hstep
    · split at hstep
      · cases hstep
        exact .inl (.of_local rfl rfl (fun _ _ h => by cases h) fun i h =>
          .inr (h.resolve_left fun h => by cases h))
      · cases hstep
    · cases hstep
  | shmDestroy =>
    simp only [ShmSystem.step] at hstep
    split at hstep
    · cases hstep
      exact .inl (.of_local rfl rfl (quiet_destructor s.app.buffer) fun i h =>
        absurd h (fills_reset s.app))
    · cases hstep
  | crash =>
    cases hstep
    exact .inl (.of_local rfl rfl (fun _ _ h => by cases h) fun i h =>
      h.elim (fun h => by cases h) fun h => by cases h)
  | app ok => exact appStep_writes hinv hstep
  | onStart =>
    simp only [ShmSystem.step] at hstep
    split at hstep
    · cases hstep
      exact .inl (DriverReads.ensureConnected s _ _).keeps
    · cases hstep
  | onStop =>
    simp only [ShmSystem.step] at hstep
    split at hstep
    · cases hstep
      exact .inl (DriverReads.refl s _ _ _).keeps
    · cases hstep
  | readClientInput bytesCount =>
    simp only [ShmSystem.step] at hstep
    split at hstep
    · cases hstep
      exact .inl (DriverReads.ensureConnected s _ _).keeps
    · cases hstep
  | driver ok => exact .inl (driverStep_reads hstep).keeps

end ShmSystem

end Noise
