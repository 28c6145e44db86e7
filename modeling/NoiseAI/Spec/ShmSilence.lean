import NoiseAI.Spec.ShmWrites

/-!
# Silence after the end of a segment

Once the destructor of the app has cleared `active`, nothing of that segment is delivered any
more, whatever the app and the driver do afterwards: a callback looks at `active` before it
reads, so only the one in progress can still deliver (`silent_after_destroy`). The rest is what
makes sure that nobody sets `active` again: the app has given up the segment before it clears
the flag (`Handover`), and it never takes a segment up again (`Retired`).
-/

namespace Noise

variable {α : Type}

/-- The segment that a constructor of the app is at work on. -/
def AppTask.builds : AppTask α → Option Nat
  | .ftruncate i _ | .mmap i _ | .init _ i _ => some i
  | _ => none

theorem AppTask.fills_of_builds {t : AppTask α} {i : Nat} (h : t.builds = some i) :
    t.fills = some i := by
  cases t with
  | ftruncate | mmap | init => exact h
  | _ => exact nomatch h

namespace ShmSystem

open Machine

variable {s s' : ShmSystem α} {i : Nat}

/-! ## The app gives a segment up before it ends it -/

/-- The buffer of the app's handle is neither being built nor being ended. -/
structure Handover (s : ShmSystem α) : Prop where
  building : ∀ i, s.app.task.builds = some i → s.app.buffer.bind (·.segment) ≠ some i
  clearing : ∀ i name, s.app.task = .clearActive i name →
    i < s.shm.created ∧ s.app.buffer.bind (·.segment) ≠ some i

theorem Handover.congr (h : s.Handover) (happ : s'.app = s.app)
    (hcreated : s'.shm.created = s.shm.created) : s'.Handover := by
  refine ⟨?_, ?_⟩
  · rw [happ]
    exact h.building
  · rw [happ, hcreated]
    exact h.clearing

/-- The app does something that builds and ends nothing. -/
theorem Handover.of_task (hbuilds : s.app.task.builds = none)
    (hclears : ∀ i name, s.app.task ≠ .clearActive i name) : s.Handover := by
  refine ⟨fun i h => ?_, fun i name h => absurd h (hclears i name)⟩
  rw [hbuilds] at h
  exact nomatch h

/-- A buffer is replaced by one with another segment, or by none, and then ended. -/
theorem Handover.ends {a : App α} (hinv : s.Inv) (hcreated : s'.shm.created = s.shm.created)
    (happ : s'.app = a) (htask : a.task = s.app.buffer.elim .idle App.destructor)
    (hother : ∀ i, s.app.buffer.bind (·.segment) = some i → a.buffer.bind (·.segment) ≠ some i) :
    s'.Handover := by
  refine ⟨fun i h => ?_, fun i name h => ?_⟩
  · have hnone := fills_destructor (α := α) s.app.buffer
    rw [happ, htask] at h
    cases hnone.symm.trans (AppTask.fills_of_builds h)
  · rw [happ, htask] at h
    -- the destructor clears the flag of the segment that the old buffer has mapped
    cases hb : s.app.buffer with
    | none =>
      rw [hb] at h
      cases h
    | some b =>
      rw [hb, Option.elim_some, App.destructor] at h
      split at h
      · split at h
        · rename_i j hseg
          cases h
          have hbind : s.app.buffer.bind (·.segment) = some i := by
            rw [hb]
            exact hseg
          rw [happ, hcreated]
          exact ⟨(hinv.app.buffer b i hb hseg).created, hother i hbind⟩
        · cases h
      · cases h

theorem Handover.appStep [Zero α] {ok : Bool} (hinv : s.Inv) (h : s.Handover)
    (hstep : s.appStep ok = some s') : s'.Handover := by
  have htask := hinv.app.task
  have hbuild := h.building
  unfold ShmSystem.appStep at hstep
  cases hs : s.app.task with
  | idle =>
    rw [hs] at hstep
    exact nomatch hstep
  | shmUnlink args =>
    rw [hs] at hstep
    cases hstep
    exact .of_task rfl (fun _ _ h => nomatch h)
  | shmOpen args =>
    rw [hs] at hstep htask
    cases ok with
    | true =>
      cases hstep
      have hopened : Opened s (s.openCreate args) args := opened htask.2
      refine ⟨?_, ?_⟩
      · rw [hopened.app]
        intro i hi hseg
        cases hi
        obtain ⟨b, hb, hbseg⟩ := Option.bind_eq_some_iff.mp hseg
        exact Nat.lt_irrefl _ (hinv.app.buffer b _ hb hbseg).created
      · rw [hopened.app]
        exact fun _ _ h => nomatch h
    | false =>
      cases hstep
      exact .ends hinv rfl rfl rfl fun i _ h => nomatch h
  | ftruncate i args =>
    rw [hs] at hstep hbuild
    cases ok with
    | true =>
      cases hstep
      exact ⟨hbuild, fun _ _ h => nomatch h⟩
    | false =>
      cases hstep
      exact .of_task rfl (fun _ _ h => nomatch h)
  | mmap i args =>
    rw [hs] at hstep hbuild
    cases ok with
    | true =>
      cases hstep
      exact ⟨hbuild, fun _ _ h => nomatch h⟩
    | false =>
      cases hstep
      exact .of_task rfl (fun _ _ h => nomatch h)
  | init field i args =>
    rw [hs] at hstep hbuild
    cases hnext : field.next with
    | none =>
      simp only [hnext] at hstep
      cases hstep
      -- the new object has mapped the segment just built, which the old one has not
      refine .ends hinv rfl rfl rfl fun j hj hsame => hbuild i rfl ?_
      cases hsame
      exact hj
    | some next =>
      simp only [hnext] at hstep
      cases hstep
      exact ⟨hbuild, fun _ _ h => nomatch h⟩
  | undo args =>
    rw [hs] at hstep
    cases hstep
    exact .ends hinv rfl rfl rfl fun i _ h => nomatch h
  | clearActive i name =>
    rw [hs] at hstep
    cases hstep
    exact .of_task rfl (fun _ _ h => nomatch h)
  | unlinkName name =>
    rw [hs] at hstep
    cases hstep
    exact .of_task rfl (fun _ _ h => nomatch h)
  | write i op =>
    rw [hs] at hstep
    simp only at hstep
    split at hstep
    · cases hstep
      exact .of_task rfl (fun _ _ h => nomatch h)
    · cases hstep
      exact .of_task rfl (fun _ _ h => nomatch h)

/-- A step of the driver, or the start of one of its calls. -/
theorem step_driver [Zero α] {l : ShmLabel α} (hstep : s.step l = some s')
    (hl : (∃ ok, l = .driver ok) ∨ l = .onStart ∨ l = .onStop ∨ ∃ n, l = .readClientInput n) :
    DriverReads s s' := by
  rcases hl with ⟨ok, rfl⟩ | rfl | rfl | ⟨n, rfl⟩
  · exact driverStep_reads hstep
  · simp only [ShmSystem.step] at hstep
    split at hstep
    · cases hstep
      exact .ensureConnected s _ _
    · cases hstep
  · simp only [ShmSystem.step] at hstep
    split at hstep
    · cases hstep
      exact .refl s _ _ _
    · cases hstep
  · simp only [ShmSystem.step] at hstep
    split at hstep
    · cases hstep
      exact .ensureConnected s _ _
    · cases hstep

theorem Handover.step [Zero α] {l : ShmLabel α} (hinv : s.Inv) (h : s.Handover)
    (hstep : s.step l = some s') : s'.Handover := by
  cases l with
  | shmCreate sampleRate channels =>
    simp only [ShmSystem.step] at hstep
    split at hstep
    · split at hstep
      · cases hstep
        exact .of_task rfl (fun _ _ h => by cases h)
      · cases hstep
    · cases hstep
  | processAndWrite outputBuf numFrames =>
    simp only [ShmSystem.step] at hstep
    split at hstep
    · cases hstep
      exact .of_task rfl (fun _ _ h => by cases h)
    · cases hstep
      exact h
    · cases hstep
  | shmDestroy =>
    simp only [ShmSystem.step] at hstep
    split at hstep
    · cases hstep
      -- the destructor takes the segment over from the buffer
      exact .ends hinv rfl rfl rfl fun i _ h => by cases h
    · cases hstep
  | crash =>
    cases hstep
    exact .of_task rfl (fun _ _ h => by cases h)
  | app ok => exact h.appStep hinv hstep
  | onStart =>
    have hreads := step_driver hstep (.inr (.inl rfl))
    exact h.congr hreads.app hreads.created
  | onStop =>
    have hreads := step_driver hstep (.inr (.inr (.inl rfl)))
    exact h.congr hreads.app hreads.created
  | readClientInput bytesCount =>
    have hreads := step_driver hstep (.inr (.inr (.inr ⟨bytesCount, rfl⟩)))
    exact h.congr hreads.app hreads.created
  | driver ok =>
    have hreads := step_driver hstep (.inl ⟨ok, rfl⟩)
    exact h.congr hreads.app hreads.created

/-! ## A segment that was ended stays so -/

/-- The segment is marked inactive, and the app has given it up. -/
structure Retired (s : ShmSystem α) (i : Nat) : Prop where
  created : i < s.shm.created
  given : ¬ s.app.Fills i
  inactive : (s.shm.segment i).isActive = false

/-- No step of the app marks a segment active that the app has given up. -/
theorem appStep_active [Zero α] {ok : Bool} (hinv : s.Inv) (hstep : s.appStep ok = some s')
    (hcreated : i < s.shm.created) (hgiven : ¬ s.app.Fills i)
    (hinactive : (s.shm.segment i).isActive = false) :
    (s'.shm.segment i).isActive = false := by
  have htask := hinv.app.task
  -- a change of another segment
  have hother : ∀ {j : Nat} (f : Segment α → Segment α), s.app.task.fills = some j →
      ((s.shm.modify j f).segment i).isActive = false := by
    intro j f hj
    have hne : i ≠ j := fun hij => hgiven (.inl (hij ▸ hj))
    simp only [Shm.modify, Function.update_of_ne hne]
    exact hinactive
  unfold ShmSystem.appStep at hstep
  cases hs : s.app.task with
  | idle =>
    rw [hs] at hstep
    cases hstep
  | shmUnlink args =>
    rw [hs] at hstep
    cases hstep
    exact hinactive
  | shmOpen args =>
    rw [hs] at hstep htask
    cases ok with
    | true =>
      cases hstep
      have hopened : Opened s (s.openCreate args) args := opened htask.2
      rw [(hopened.other i (Nat.ne_of_lt hcreated)).1]
      exact hinactive
    | false =>
      cases hstep
      exact hinactive
  | ftruncate j args =>
    rw [hs] at hstep
    cases ok with
    | true =>
      cases hstep
      exact hother (fun g => { g with size := args.shmSize }) (j := j) (by rw [hs]; rfl)
    | false =>
      cases hstep
      exact hinactive
  | mmap j args =>
    rw [hs] at hstep
    cases ok with
    | true =>
      cases hstep
      exact hinactive
    | false =>
      cases hstep
      exact hinactive
  | init field j args =>
    rw [hs] at hstep
    have hstored := hother (fun g => { g with header := field.store args g.header })
      (j := j) (by rw [hs]; rfl)
    cases hnext : field.next with
    | none =>
      simp only [hnext] at hstep
      cases hstep
      exact hstored
    | some next =>
      simp only [hnext] at hstep
      cases hstep
      exact hstored
  | undo args =>
    rw [hs] at hstep
    cases hstep
    exact hinactive
  | clearActive j name =>
    rw [hs] at hstep
    cases hstep
    show ((s.shm.modifyHeader j fun h => { h with active := 0 }).segment i).isActive = false
    by_cases hij : i = j
    · rw [hij]
      simp only [Shm.modifyHeader, Shm.modify, Function.update_self]
      rfl
    · simp only [Shm.modifyHeader, Shm.modify, Function.update_of_ne hij]
      exact hinactive
  | unlinkName name =>
    rw [hs] at hstep
    cases hstep
    exact hinactive
  | write j op =>
    rw [hs] at hstep
    have hwritten := hother (fun _ => (op.step (s.shm.segment j)).1) (j := j) (by rw [hs]; rfl)
    simp only at hstep
    split at hstep
    · cases hstep
      exact hwritten
    · cases hstep
      exact hwritten

theorem DriverReads.isActive (h : DriverReads s s') (i : Nat) :
    (s'.shm.segment i).isActive = (s.shm.segment i).isActive := by
  obtain ⟨r, hr⟩ := h.segment i
  rw [hr]
  rfl

theorem step_active [Zero α] {l : ShmLabel α} (hinv : s.Inv) (hstep : s.step l = some s')
    (h : s.Retired i) : (s'.shm.segment i).isActive = false := by
  cases l with
  | shmCreate sampleRate channels =>
    simp only [ShmSystem.step] at hstep
    split at hstep
    · split at hstep
      · cases hstep
        exact h.inactive
      · cases hstep
    · cases hstep
  | processAndWrite outputBuf numFrames =>
    simp only [ShmSystem.step] at hstep
    split at hstep
    · cases hstep
      exact h.inactive
    · cases hstep
      exact h.inactive
    · cases hstep
  | shmDestroy =>
    simp only [ShmSystem.step] at hstep
    split at hstep
    · cases hstep
      exact h.inactive
    · cases hstep
  | crash =>
    cases hstep
    exact h.inactive
  | app ok => exact appStep_active hinv hstep h.created h.given h.inactive
  | onStart => exact ((step_driver hstep (.inr (.inl rfl))).isActive i).trans h.inactive
  | onStop => exact ((step_driver hstep (.inr (.inr (.inl rfl)))).isActive i).trans h.inactive
  | readClientInput bytesCount =>
    exact ((step_driver hstep (.inr (.inr (.inr ⟨bytesCount, rfl⟩)))).isActive i).trans h.inactive
  | driver ok => exact ((step_driver hstep (.inl ⟨ok, rfl⟩)).isActive i).trans h.inactive

theorem Retired.step [Zero α] {l : ShmLabel α} (hinv : s.Inv) (h : s.Retired i)
    (hstep : s.step l = some s') : s'.Retired i := by
  have hactive := step_active hinv hstep h
  by_cases hwrite : ∃ outputBuf numFrames, l = .processAndWrite outputBuf numFrames
  · -- a `write` starts on the segment of the buffer
    obtain ⟨outputBuf, numFrames, rfl⟩ := hwrite
    simp only [ShmSystem.step] at hstep
    split at hstep
    · rename_i j _ hseg
      cases hstep
      refine ⟨h.created, ?_, hactive⟩
      rintro (hfills | hfills)
      · cases hfills
        exact h.given (.inr hseg)
      · exact h.given (.inr hfills)
    · cases hstep
      exact ⟨h.created, h.given, hactive⟩
    · cases hstep
  · have hl : ∀ outputBuf numFrames, l ≠ .processAndWrite outputBuf numFrames :=
      fun outputBuf numFrames heq => hwrite ⟨outputBuf, numFrames, heq⟩
    rcases step_writes hinv hl hstep with hkeeps | ⟨j, data, hpub⟩
    · refine ⟨Nat.lt_of_lt_of_le h.created hkeeps.created, fun hfills => ?_, hactive⟩
      rcases hkeeps.fills i hfills with hold | hnew
      · exact h.given hold
      · exact Nat.ne_of_lt h.created hnew
    · refine ⟨hpub.created ▸ h.created, ?_, hactive⟩
      -- a block is published to the segment of the `write` in progress, not to this one
      obtain ⟨w, c, k, htask⟩ := hpub.task
      rintro (hfills | hfills)
      · rw [hpub.next] at hfills
        exact h.given (.inl (by rw [htask]; exact hfills))
      · rw [hpub.buffer] at hfills
        exact h.given (.inr hfills)

/-! ## What the driver delivers -/

/-- The callback in progress has found segment `i` active. -/
def Passed (s : ShmSystem α) (i : Nat) : Prop :=
  (∃ bytesCount, s.driver.task = .getHeartbeat i bytesCount) ∨
    ∃ op bytesCount, s.driver.task = .read i op bytesCount

/-- What a step does to the log: nothing, or it answers the callback in progress. -/
structure LogStep (s s' : ShmSystem α) : Prop where
  log : s'.log = s.log ∨ ∃ e, s'.log = s.log ++ [e] ∧ (∀ i, ¬ s'.Passed i) ∧
    ∀ i buf, e.answer = some (i, buf) → s.Passed i
  passed : ∀ i, s'.Passed i → s.Passed i ∨ (s.shm.segment i).isActive = true

theorem LogStep.of_same (hdriver : s'.driver = s.driver) (hlog : s'.log = s.log) :
    LogStep s s' := by
  refine ⟨.inl hlog, fun i hpassed => .inl ?_⟩
  unfold ShmSystem.Passed at hpassed ⊢
  rwa [hdriver] at hpassed

/-- The driver goes on with something else than a `read`. -/
theorem LogStep.goes_on (hlog : s'.log = s.log) (hpassed : ∀ i, ¬ s'.Passed i) : LogStep s s' :=
  ⟨.inl hlog, fun i h => absurd h (hpassed i)⟩

theorem not_passed_idle (h : s.driver.task = .idle) (i : Nat) : ¬ s.Passed i := by
  rintro (⟨bytesCount, htask⟩ | ⟨op, bytesCount, htask⟩)
  · exact nomatch h.symm.trans htask
  · exact nomatch h.symm.trans htask

/-- A callback is answered with silence. -/
theorem LogStep.silence {t : ShmSystem α} (hlog : t.log = s.log) (io : IOHandler)
    (bytesCount : Nat) : LogStep s (t.silence io bytesCount) := by
  refine ⟨.inr ⟨⟨bytesCount, none, 0, t.flushed⟩, ?_, not_passed_idle rfl, ?_⟩, ?_⟩
  · show t.log ++ _ = _
    rw [hlog]
  · exact fun _ _ h => nomatch h
  · exact fun i h => absurd h (not_passed_idle rfl i)

theorem LogStep.unavailable (s : ShmSystem α) (io : IOHandler) (request : Option Nat) :
    LogStep s (s.unavailable io request) := by
  cases request with
  | none => exact .goes_on rfl (not_passed_idle rfl)
  | some bytesCount => exact .silence rfl _ bytesCount

theorem LogStep.available {t : ShmSystem α} (hlog : t.log = s.log) (io : IOHandler) (i : Nat)
    (request : Option Nat) : LogStep s (t.available io i request) := by
  cases request with
  | none => exact .goes_on hlog (not_passed_idle rfl)
  | some bytesCount =>
    refine .goes_on hlog fun j => ?_
    rintro (⟨_, htask⟩ | ⟨_, _, htask⟩)
    · exact nomatch htask
    · exact nomatch htask

theorem LogStep.ensureConnected (s : ShmSystem α) (io : IOHandler) (request : Option Nat) :
    LogStep s (s.ensureConnected io request) := by
  unfold ShmSystem.ensureConnected
  split
  · exact .available rfl io _ request
  · split
    · exact .unavailable s _ request
    · refine .goes_on rfl fun j => ?_
      rintro (⟨_, htask⟩ | ⟨_, _, htask⟩)
      · exact nomatch htask
      · exact nomatch htask

theorem driverStep_log {ok : Bool} (hstep : s.driverStep ok = some s') : LogStep s s' := by
  -- the steps of a connection are no part of a callback's `read`
  have hconnecting : ∀ {io : IOHandler} {t : DriverTask α} {s₁ : ShmSystem α},
      (∀ i bytesCount, t ≠ .getHeartbeat i bytesCount) →
      (∀ i op bytesCount, t ≠ .read i op bytesCount) → s₁.log = s.log →
      LogStep s (s₁.setDriver io t) := by
    intro io t s₁ hbeat hread hlog
    refine .goes_on hlog fun j => ?_
    rintro (⟨_, htask⟩ | ⟨_, _, htask⟩)
    · exact hbeat _ _ htask
    · exact hread _ _ _ htask
  unfold ShmSystem.driverStep at hstep
  cases hs : s.driver.task with
  | idle =>
    rw [hs] at hstep
    exact nomatch hstep
  | shmOpen request =>
    rw [hs] at hstep
    simp only at hstep
    split at hstep
    · cases hstep
      exact hconnecting (fun _ _ h => nomatch h) (fun _ _ _ h => nomatch h) rfl
    · cases hstep
      exact .unavailable s _ request
  | fstat i request =>
    rw [hs] at hstep
    cases ok with
    | true =>
      cases hstep
      exact hconnecting (fun _ _ h => nomatch h) (fun _ _ _ h => nomatch h) rfl
    | false =>
      cases hstep
      exact .unavailable s _ request
  | mmap i size request =>
    rw [hs] at hstep
    simp only at hstep
    split at hstep
    · cases hstep
      exact .unavailable s _ request
    · cases hstep
      exact hconnecting (fun _ _ h => nomatch h) (fun _ _ _ h => nomatch h) rfl
  | flush i op request =>
    rw [hs] at hstep
    simp only at hstep
    split at hstep
    · cases hstep
      exact hconnecting (fun _ _ h => nomatch h) (fun _ _ _ h => nomatch h) rfl
    · cases hstep
      refine .available ?_ _ i request
      rfl
  | isActive i bytesCount =>
    rw [hs] at hstep
    simp only at hstep
    split at hstep
    · rename_i hactive
      cases hstep
      -- here the callback passes
      refine ⟨.inl rfl, ?_⟩
      rintro j (⟨_, htask⟩ | ⟨_, _, htask⟩)
      · cases htask
        exact .inr hactive
      · exact nomatch htask
    · cases hstep
      exact .silence rfl _ bytesCount
  | getHeartbeat i bytesCount =>
    rw [hs] at hstep
    simp only at hstep
    split at hstep
    · cases hstep
      exact .silence rfl _ bytesCount
    · cases hstep
      refine ⟨.inl rfl, ?_⟩
      rintro j (⟨_, htask⟩ | ⟨_, _, htask⟩)
      · exact nomatch htask
      · cases htask
        exact .inl (.inl ⟨bytesCount, hs⟩)
  | read i op bytesCount =>
    rw [hs] at hstep
    simp only at hstep
    split at hstep
    · cases hstep
      refine ⟨.inl rfl, ?_⟩
      rintro j (⟨_, htask⟩ | ⟨_, _, htask⟩)
      · exact nomatch htask
      · cases htask
        exact .inl (.inr ⟨op, bytesCount, hs⟩)
    · cases hstep
      refine ⟨.inr ⟨_, rfl, not_passed_idle rfl, ?_⟩, ?_⟩
      · intro j buf hanswer
        cases hanswer
        exact .inr ⟨op, bytesCount, hs⟩
      · exact fun j h => absurd h (not_passed_idle rfl j)
    · cases hstep
      refine .silence ?_ _ bytesCount
      rfl

/-- The app's thread leaves the driver and its callbacks alone. -/
theorem appStep_driver [Zero α] {ok : Bool} (hstep : s.appStep ok = some s') :
    s'.driver = s.driver ∧ s'.log = s.log := by
  unfold ShmSystem.appStep at hstep
  cases hs : s.app.task with
  | idle =>
    rw [hs] at hstep
    exact nomatch hstep
  | shmUnlink | undo | clearActive | unlinkName =>
    rw [hs] at hstep
    cases hstep
    exact ⟨rfl, rfl⟩
  | shmOpen | ftruncate | mmap =>
    rw [hs] at hstep
    cases ok with
    | true =>
      cases hstep
      exact ⟨rfl, rfl⟩
    | false =>
      cases hstep
      exact ⟨rfl, rfl⟩
  | init field i args =>
    rw [hs] at hstep
    cases hnext : field.next with
    | none =>
      simp only [hnext] at hstep
      cases hstep
      exact ⟨rfl, rfl⟩
    | some next =>
      simp only [hnext] at hstep
      cases hstep
      exact ⟨rfl, rfl⟩
  | write i op =>
    rw [hs] at hstep
    simp only at hstep
    split at hstep
    · cases hstep
      exact ⟨rfl, rfl⟩
    · cases hstep
      exact ⟨rfl, rfl⟩

theorem step_log [Zero α] {l : ShmLabel α} (hstep : s.step l = some s') : LogStep s s' := by
  cases l with
  | shmCreate sampleRate channels =>
    simp only [ShmSystem.step] at hstep
    split at hstep
    · split at hstep
      · cases hstep
        exact .of_same rfl rfl
      · cases hstep
    · cases hstep
  | processAndWrite outputBuf numFrames =>
    simp only [ShmSystem.step] at hstep
    split at hstep
    · cases hstep
      exact .of_same rfl rfl
    · cases hstep
      exact .of_same rfl rfl
    · cases hstep
  | shmDestroy =>
    simp only [ShmSystem.step] at hstep
    split at hstep
    · cases hstep
      exact .of_same rfl rfl
    · cases hstep
  | crash =>
    cases hstep
    exact .of_same rfl rfl
  | app ok =>
    obtain ⟨hdriver, hlog⟩ := appStep_driver hstep
    exact .of_same hdriver hlog
  | onStart =>
    simp only [ShmSystem.step] at hstep
    split at hstep
    · cases hstep
      exact .ensureConnected s _ _
    · cases hstep
  | onStop =>
    simp only [ShmSystem.step] at hstep
    split at hstep
    · cases hstep
      exact .goes_on rfl (not_passed_idle rfl)
    · cases hstep
  | readClientInput bytesCount =>
    simp only [ShmSystem.step] at hstep
    split at hstep
    · cases hstep
      exact .ensureConnected s _ _
    · cases hstep
  | driver ok => exact driverStep_log hstep

/-! ## After the end -/

/-- Since `t` at most the callback then in progress has delivered samples of segment `i`. -/
structure SilentSince (t s : ShmSystem α) (i : Nat) (later : List (Callback α)) : Prop where
  log : s.log = t.log ++ later
  progress : s.Passed i → t.Passed i ∧ later = []
  answers : ∀ k e buf, later[k]? = some e → e.answer = some (i, buf) → k = 0 ∧ t.Passed i

theorem SilentSince.refl (t : ShmSystem α) (i : Nat) : SilentSince t t i [] :=
  ⟨(List.append_nil t.log).symm, fun h => ⟨h, rfl⟩, fun _ _ _ h => nomatch h⟩

theorem SilentSince.step {t : ShmSystem α} {later : List (Callback α)}
    (h : SilentSince t s i later) (hinactive : (s.shm.segment i).isActive = false)
    (hlog : LogStep s s') : ∃ later', SilentSince t s' i later' := by
  -- no callback passes any more
  have hpassed : s'.Passed i → s.Passed i := by
    intro hp
    rcases hlog.passed i hp with hp | hactive
    · exact hp
    · exact nomatch hinactive.symm.trans hactive
  rcases hlog.log with hsame | ⟨e, hanswered, hnone, hsamples⟩
  · exact ⟨later, hsame.trans h.log, fun hp => h.progress (hpassed hp), h.answers⟩
  · refine ⟨later ++ [e], ?_, fun hp => absurd hp (hnone i), ?_⟩
    · rw [hanswered, h.log, List.append_assoc]
    · intro k f buf hget hbuf
      by_cases hk : k < later.length
      · rw [List.getElem?_append_left hk] at hget
        exact h.answers k f buf hget hbuf
      · -- the callback just answered, the only one if it had passed
        have hlen : k = later.length := by
          have hlt : k < (later ++ [e]).length := (List.getElem?_eq_some_iff.mp hget).1
          rw [List.length_append, List.length_singleton] at hlt
          omega
        rw [hlen, List.getElem?_concat_length] at hget
        cases hget
        obtain ⟨hthen, hempty⟩ := h.progress (hsamples i buf hbuf)
        rw [hempty] at hlen
        exact ⟨hlen, hthen⟩

theorem handover_reached [Zero α] (h : Reaches step init s) : s.Inv ∧ s.Handover := by
  obtain ⟨ls, hrun⟩ := h
  refine run_invariant (fun _ => True) (fun s => s.Inv ∧ s.Handover) ?_ ?_ (fun _ _ => trivial)
    hrun
  · rintro s l s' - ⟨hinv, hover⟩ hstep
    exact ⟨hinv.step hstep, hover.step hinv hstep⟩
  · exact ⟨inv_init, .of_task rfl fun _ _ h => nomatch h⟩

/-- The app clears the flag. -/
theorem retired_of_cleared [Zero α] {ok : Bool} {name : String} (hover : s.Handover)
    (htask : s.app.task = .clearActive i name) (hclear : s.step (.app ok) = some s') :
    s'.Retired i := by
  obtain ⟨hcreated, hother⟩ := hover.clearing i name htask
  simp only [ShmSystem.step, ShmSystem.appStep, htask] at hclear
  cases hclear
  refine ⟨hcreated, ?_, ?_⟩
  · rintro (hfills | hfills)
    · cases hfills
    · exact hother hfills
  · show ((s.shm.modifyHeader i fun h => { h with active := 0 }).segment i).isActive = false
    simp only [Shm.modifyHeader, Shm.modify, Function.update_self]
    rfl

/-- Nothing of a segment is delivered once the app has cleared its flag, except by the callback in
    progress at that moment, and only if this had already found the segment active. -/
theorem silent_after_destroy [Zero α] {t u : ShmSystem α} {ls : List (ShmLabel α)} {ok : Bool}
    {name : String} (h : Reaches step init s) (htask : s.app.task = .clearActive i name)
    (hclear : s.step (.app ok) = some t) (hrun : run step t ls = some u) :
    ∃ later, u.log = t.log ++ later ∧
      ∀ k e buf, later[k]? = some e → e.answer = some (i, buf) → k = 0 ∧ t.Passed i := by
  obtain ⟨hinv, hover⟩ := handover_reached h
  have hretired := retired_of_cleared hover htask hclear
  have hend : u.Inv ∧ u.Retired i ∧ ∃ later, SilentSince t u i later := by
    refine run_invariant (fun _ => True)
      (fun u => u.Inv ∧ u.Retired i ∧ ∃ later, SilentSince t u i later) ?_ ?_
      (fun _ _ => trivial) hrun
    · rintro v l v' - ⟨hinv, hretired, later, hsilent⟩ hstep
      exact ⟨hinv.step hstep, hretired.step hinv hstep,
        hsilent.step hretired.inactive (step_log hstep)⟩
    · exact ⟨hinv.step hclear, hretired, [], .refl t i⟩
  obtain ⟨-, -, later, hsilent⟩ := hend
  exact ⟨later, hsilent.log, hsilent.answers⟩

/-- A frame is written, a callback finds the segment active, and the app destroys it. -/
def destroyInCallback : List (ShmLabel Nat) :=
  [.shmCreate 25 2] ++ List.replicate 11 (.app true) ++ [.onStart] ++
    List.replicate 5 (.driver true) ++ [.processAndWrite (fun j => j + 3) 1] ++
    List.replicate 7 (.app true) ++ [.readClientInput 8, .driver true, .shmDestroy]

/-- The callback in progress delivers the frame, and the next one silence. -/
theorem silent_after_destroy_callback :
    ∃ (s t u : ShmSystem Nat) (later : List (Callback Nat)),
      run step init destroyInCallback = some s ∧ s.step (.app true) = some t ∧
      u.log = t.log ++ later ∧ later.map (·.answer) = [some (0, [3, 4]), none] ∧
      ∀ k e buf, later[k]? = some e → e.answer = some (0, buf) → k = 0 ∧ t.Passed 0 := by
  obtain ⟨s, t, u, hs, htask, hclear, hrun, hnone, hanswers⟩ :
      ∃ s t u : ShmSystem Nat, run step init destroyInCallback = some s ∧
        s.app.task = .clearActive 0 shmName ∧ s.step (.app true) = some t ∧
        run step t (List.replicate 7 (.driver true) ++ [.readClientInput 8, .driver true]) =
          some u ∧
        t.log = [] ∧ u.log.map (·.answer) = [some (0, [3, 4]), none] :=
    ⟨_, _, _, rfl, rfl, rfl, rfl, rfl, rfl⟩
  obtain ⟨later, hlog, hlast⟩ := silent_after_destroy ⟨_, hs⟩ htask hclear hrun
  refine ⟨s, t, u, later, hs, hclear, hlog, ?_, hlast⟩
  rw [hlog, hnone] at hanswers
  exact hanswers

end ShmSystem

end Noise
