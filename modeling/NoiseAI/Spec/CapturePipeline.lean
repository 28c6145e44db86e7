import NoiseAI.ForStd.Machine
import NoiseAI.Native.AudioManager
import NoiseAI.Spec.ShmName

/-!
# What the audio manager reports

`start` builds the capture pipeline in steps, each of which can fail. The status it ends
with should say whether the pipeline runs (`Truthful`). Only the failure of the first step
is reported: `setupAudioUnit` sets the status to `.error`, which `start` overwrites, and
the result of `noise_engine_start` is not looked at. `capture_truthful_iff` says that the
status is right as long as no `start` fails after its first step.
-/

namespace Noise

variable {α R M : Type} [Sample α]

/-! ## The calls of an operation -/

namespace StartOutcome

/-- An audio unit is made. -/
def makesUnit (o : StartOutcome R M) : Bool :=
  o.audioComponentFindNext && o.audioComponentInstanceNew

/-- Every step of `start` after `noise_shm_create` succeeds. -/
def captures (o : StartOutcome R M) : Bool :=
  o.created.isSome && o.makesUnit && o.audioUnitInitialize && o.audioOutputUnitStart

/-- The calls of `setupAudioUnit`. -/
def setupCalls (o : StartOutcome R M) (unit context : Nat) : List AudioCall :=
  if !o.audioComponentFindNext then [.audioComponentFindNext false]
  else if !o.audioComponentInstanceNew then
    [.audioComponentFindNext true, .audioComponentInstanceNew none]
  else
    [.audioComponentFindNext true, .audioComponentInstanceNew (some unit), .passRetained context,
      .audioUnitInitialize unit o.audioUnitInitialize] ++
    if o.audioUnitInitialize then [.audioOutputUnitStart unit o.audioOutputUnitStart] else []

/-- The calls of `start`. -/
def startCalls (o : StartOutcome R M) (unit context : Nat) : List AudioCall :=
  if o.sys.creates then
    [.startEntered, .noiseShmCreate true, .noiseEngineStart o.created.isSome] ++
      o.setupCalls unit context ++ [.setProcessing true, .startLeft]
  else [.startEntered, .noiseShmCreate false, .setProcessing false, .startLeft]

/-- Some call of `setupAudioUnit` fails unless the unit is made and started. -/
theorem failed_setupCalls (o : StartOutcome R M) (unit context : Nat) :
    (∃ c ∈ o.setupCalls unit context, c.failed = true) ↔
      (o.makesUnit && o.audioUnitInitialize && o.audioOutputUnitStart) = false := by
  unfold setupCalls makesUnit
  -- each call is made only if the one before succeeds
  cases o.audioComponentFindNext with
  | false => simp [AudioCall.failed]
  | true =>
    cases o.audioComponentInstanceNew with
    | false => simp [AudioCall.failed]
    | true =>
      cases o.audioUnitInitialize with
      | false => simp [AudioCall.failed]
      | true => simp [AudioCall.failed]

/-- After the first step of `start`, some call fails unless capture starts. -/
theorem failed_startCalls (o : StartOutcome R M) (unit context : Nat) (h : o.sys.creates = true) :
    (∃ c ∈ o.startCalls unit context, c.failed = true) ↔ o.captures = false := by
  have hsetup := o.failed_setupCalls unit context
  have hcaptures : o.captures = (o.created.isSome &&
      (o.makesUnit && o.audioUnitInitialize && o.audioOutputUnitStart)) := by
    unfold captures
    rw [Bool.and_assoc, Bool.and_assoc, Bool.and_assoc]
  have hcalls : (∃ c ∈ o.startCalls unit context, c.failed = true) ↔
      o.created.isSome = false ∨ ∃ c ∈ o.setupCalls unit context, c.failed = true := by
    unfold startCalls
    rw [if_pos h]
    simp [AudioCall.failed, or_and_right, exists_or]
  rw [hcalls, hsetup, hcaptures]
  exact Bool.and_eq_false_iff.symm

end StartOutcome

namespace AudioManager

variable {m m' : AudioManager α R M} {ctx : NoiseEngineContext α R M}

/-- The calls of `stop` in a state with a handle. -/
def stopCalls (m : AudioManager α R M) : List AudioCall :=
  (match m.captureContext.bind (·.audioUnit) with
    | none => []
    | some au => [.audioOutputUnitStop au, .audioComponentInstanceDispose au]) ++
  (match m.retainedContext with
    | none => []
    | some context => [.release context]) ++
  [.noiseEngineStop, .noiseShmDestroy, .setProcessing false]

omit [Sample α] in
theorem failed_stopCalls (m : AudioManager α R M) : ∀ c ∈ m.stopCalls, c.failed = false := by
  unfold stopCalls
  cases m.captureContext.bind (·.audioUnit) with
  | none => cases m.retainedContext <;> simp [AudioCall.failed]
  | some au => cases m.retainedContext <;> simp [AudioCall.failed]

/-! ## What the methods do -/

/-- `noise_shm_create` installs a new buffer, which is valid if it succeeds. -/
theorem shmCreate_spec (ctx : NoiseEngineContext α R M) (shm : Shm α) (sys : SysCalls) :
    (ctx.shmCreate shm 48000 2 sys).1 = sys.creates ∧
      ∃ b, (ctx.shmCreate shm 48000 2 sys).2.1 = { ctx with sharedBuffer := some b } ∧
        b.isValid = sys.creates := by
  have hvalid : (SharedRingBuffer.create shm shmName
      (NoiseEngineContext.shmCapacity 48000 2) 2 48000 sys).1.isValid = sys.creates :=
    SharedRingBuffer.isValid_create ..
  exact ⟨hvalid, _, rfl, hvalid⟩

/-- What `setupAudioUnit` leaves alone, the calls it makes, and the context it leaves. -/
structure SetUp (m m' : AudioManager α R M) (o : StartOutcome R M) : Prop where
  isProcessing : m'.isProcessing = m.isProcessing
  currentDeviceID : m'.currentDeviceID = m.currentDeviceID
  engineHandle : m'.engineHandle = m.engineHandle
  log : m'.log = m.log ++ o.setupCalls m.nextUnit m.nextContext
  captureContext : m'.captureContext =
    if o.makesUnit then some { id := m.nextContext, audioUnit := some m.nextUnit }
    else m.captureContext
  retainedContext : m'.retainedContext =
    if o.makesUnit then some m.nextContext else m.retainedContext
  nextContext : m'.nextContext = if o.makesUnit then m.nextContext + 1 else m.nextContext
  units : o.makesUnit = true → m'.units m.nextUnit =
    some { initialized := o.audioUnitInitialize
           started := o.audioUnitInitialize && o.audioOutputUnitStart }

omit [Sample α] in
theorem setUp_setupAudioUnit (m : AudioManager α R M) (o : StartOutcome R M) :
    SetUp m (m.setupAudioUnit o) o := by
  obtain ⟨sys, created, found, findNext, instanceNew, initialized, started⟩ := o
  cases findNext with
  | false =>
    constructor <;>
      simp [setupAudioUnit, call, StartOutcome.setupCalls, StartOutcome.makesUnit]
  | true =>
    cases instanceNew with
    | false =>
      constructor <;>
        simp [setupAudioUnit, call, audioComponentInstanceNew, StartOutcome.setupCalls,
          StartOutcome.makesUnit]
    | true =>
      cases initialized with
      | false =>
        constructor <;>
          simp [setupAudioUnit, call, audioComponentInstanceNew, audioUnitInitialize,
            StartOutcome.setupCalls, StartOutcome.makesUnit]
      | true =>
        cases started <;> constructor <;>
          simp [setupAudioUnit, call, audioComponentInstanceNew, audioUnitInitialize,
            audioOutputUnitStart, StartOutcome.setupCalls, StartOutcome.makesUnit]

/-- The pipeline runs: the shared buffer is valid, the engine is running, and an audio unit
    was made, initialised and started. -/
structure Capturing (m : AudioManager α R M) : Prop where
  engine : ∃ ctx b, m.engineHandle = some ctx ∧ ctx.sharedBuffer = some b ∧ b.isValid = true ∧
    ctx.engine.status = .running
  unit : ∃ context au u, m.captureContext = some context ∧ context.audioUnit = some au ∧
    m.units au = some u ∧ u.initialized = true ∧ u.started = true

/-- What `start` does in a state with a handle. -/
structure Started (m m' : AudioManager α R M) (deviceID : Option AudioObjectID)
    (o : StartOutcome R M) : Prop where
  engineHandle : m'.engineHandle.isSome = true
  log : m'.log = m.log ++ o.startCalls m.nextUnit m.nextContext
  isProcessing : m'.isProcessing = o.sys.creates
  engineStatus : m'.engineStatus = if o.sys.creates then .running else .error
  currentDeviceID : m'.currentDeviceID = if o.sys.creates then deviceID else m.currentDeviceID
  captureContext : m'.captureContext =
    if o.sys.creates && o.makesUnit then
      some { id := m.nextContext, audioUnit := some m.nextUnit }
    else m.captureContext
  retainedContext : m'.retainedContext =
    if o.sys.creates && o.makesUnit then some m.nextContext else m.retainedContext
  nextContext : m'.nextContext =
    if o.sys.creates && o.makesUnit then m.nextContext + 1 else m.nextContext
  capturing : o.sys.creates = true → o.captures = true → m'.Capturing

/-- `init` with a denoiser state leaves the engine running. -/
theorem status_start (ctx : NoiseEngineContext α R M) {created : Option R}
    (found : Option (LoadOutcome M)) (h : created.isSome = true) :
    (ctx.start created found).2.engine.status = .running := by
  obtain ⟨state, rfl⟩ := Option.isSome_iff_exists.mp h
  rfl

theorem started_start (h : m.engineHandle = some ctx) (deviceID : Option AudioObjectID)
    (o : StartOutcome R M) : Started m (m.start deviceID o) deviceID o := by
  obtain ⟨hok, b, hctx, hvalid⟩ := shmCreate_spec ctx m.shm o.sys
  generalize hr : ctx.shmCreate m.shm 48000 2 o.sys = r at hok hctx
  obtain ⟨ok, ctx', shm⟩ := r
  simp only at hok hctx
  subst hok hctx
  cases hcreates : o.sys.creates with
  | false =>
    constructor <;>
      simp [start, startBody, call, h, noiseShmCreate, hr, hcreates, setProcessing,
        StartOutcome.startCalls]
  | true =>
    -- the state before `setupAudioUnit`
    let m₁ : AudioManager α R M :=
      { m with
        log := m.log ++ [.startEntered, .noiseShmCreate true, .noiseEngineStart o.created.isSome]
        engineHandle := some
          (NoiseEngineContext.start { ctx with sharedBuffer := some b } o.created o.found).2
        shm := shm
        currentDeviceID := deviceID }
    have hresult : (NoiseEngineContext.start { ctx with sharedBuffer := some b } o.created
        o.found).1 = o.created.isSome := by
      cases o.created <;> rfl
    have heq : m.start deviceID o =
        ({ (m₁.setupAudioUnit o).setProcessing true with engineStatus := .running } :
          AudioManager α R M).call .startLeft := by
      simp [start, startBody, call, h, noiseShmCreate, hr, hcreates, noiseEngineStart, hresult, m₁]
    have hsetup := setUp_setupAudioUnit m₁ o
    rw [heq]
    refine ⟨?_, ?_, ?_, ?_, ?_, ?_, ?_, ?_, ?_⟩
    · simp [call, setProcessing, hsetup.engineHandle, m₁]
    · simp [call, setProcessing, hsetup.log, m₁, StartOutcome.startCalls, hcreates]
    · simp [call, setProcessing, hcreates]
    · simp [call, hcreates]
    · simp [call, setProcessing, hsetup.currentDeviceID, m₁, hcreates]
    · simp [call, setProcessing, hsetup.captureContext, m₁, hcreates]
    · simp [call, setProcessing, hsetup.retainedContext, m₁, hcreates]
    · simp [call, setProcessing, hsetup.nextContext, m₁, hcreates]
    · intro _ hcaptures
      simp only [StartOutcome.captures, Bool.and_eq_true] at hcaptures
      obtain ⟨⟨⟨hcreated, hmakes⟩, hinitialized⟩, hstarted⟩ := hcaptures
      constructor
      · refine ⟨_, b, hsetup.engineHandle, rfl, ?_, ?_⟩
        · rw [hvalid, hcreates]
        · exact status_start _ o.found hcreated
      · refine ⟨{ id := m.nextContext, audioUnit := some m.nextUnit }, m.nextUnit, _, ?_, rfl,
          hsetup.units hmakes, hinitialized, ?_⟩
        · show (m₁.setupAudioUnit o).captureContext = _
          rw [hsetup.captureContext, if_pos hmakes]
        · show (o.audioUnitInitialize && o.audioOutputUnitStart) = true
          rw [hinitialized, hstarted]
          rfl

/-- What `stop` does in a state with a handle. -/
structure Stopped (m m' : AudioManager α R M) : Prop where
  engineHandle : m'.engineHandle.isSome = true
  log : m'.log = m.log ++ m.stopCalls
  isProcessing : m'.isProcessing = false
  currentDeviceID : m'.currentDeviceID = m.currentDeviceID
  captureContext : m'.captureContext = none
  retainedContext : m'.retainedContext = none
  nextContext : m'.nextContext = m.nextContext
  nextUnit : m'.nextUnit = m.nextUnit

theorem stopped_stop (h : m.engineHandle = some ctx) : Stopped m m.stop := by
  cases hunit : m.captureContext.bind (·.audioUnit) with
  | none =>
    cases hretained : m.retainedContext <;> constructor <;>
      simp [stop, disposeUnit, releaseContext, hunit, hretained, h, call, noiseEngineStop,
        noiseShmDestroy, setProcessing, stopCalls]
  | some au =>
    cases hretained : m.retainedContext <;> constructor <;>
      simp [stop, disposeUnit, stopAndDispose, releaseContext, hunit, hretained, h, call,
        noiseEngineStop, noiseShmDestroy, setProcessing, stopCalls]

theorem switchDevice_of_processing (h : m.isProcessing = true) (deviceID : Option AudioObjectID)
    (o : StartOutcome R M) : m.switchDevice deviceID o =
      ({ m with currentDeviceID := deviceID } : AudioManager α R M).stop.start deviceID o :=
    if_pos h

theorem switchDevice_of_idle (h : m.isProcessing = false) (deviceID : Option AudioObjectID)
    (o : StartOutcome R M) :
    m.switchDevice deviceID o = { m with currentDeviceID := deviceID } :=
  if_neg (by rw [h]; exact Bool.false_ne_true)

/-! ## Operations -/

/-- What the app asks of the manager, with what the calls of a `start` in it return. -/
inductive Op (R M : Type) where
  | start (deviceID : Option AudioObjectID) (o : StartOutcome R M)
  | stop
  | switchDevice (deviceID : Option AudioObjectID) (o : StartOutcome R M)

/-- One operation, with the calls it makes in `log`. -/
def step (m : AudioManager α R M) (op : Op R M) : Option (AudioManager α R M) :=
  let m := { m with log := [] }
  match op with
  | .start deviceID o => some (m.start deviceID o)
  | .stop => some m.stop
  | .switchDevice deviceID o => some (m.switchDevice deviceID o)

/-- The status says whether the pipeline runs, and a failure in the last operation ended
    with an error. -/
structure Truthful (m : AudioManager α R M) : Prop where
  running : m.isProcessing = true → m.engineStatus = .running → m.Capturing
  failed : (∃ c ∈ m.log, c.failed = true) → m.engineStatus = .error ∧ m.isProcessing = false

/-- The operation runs `start` with the outcome `o`. -/
def Starts (m : AudioManager α R M) (op : Op R M) (o : StartOutcome R M) : Prop :=
  ∃ deviceID, op = .start deviceID o ∨ op = .switchDevice deviceID o ∧ m.isProcessing = true

/-- If the operation starts capture and gets a shared buffer, every later step succeeds. -/
def NothingHidden (m : AudioManager α R M) (op : Op R M) : Prop :=
  ∀ o, m.Starts op o → o.sys.creates = true → o.captures = true

omit [Sample α] in
/-- A manager that has just started is truthful exactly if no failure is hidden. -/
theorem Started.truthful_iff {deviceID : Option AudioObjectID} {o : StartOutcome R M}
    (h : Started m m' deviceID o) (hlog : ∀ c ∈ m.log, c.failed = false) :
    m'.Truthful ↔ (o.sys.creates = true → o.captures = true) := by
  have hfailed : (∃ c ∈ m'.log, c.failed = true) ↔
      ∃ c ∈ o.startCalls m.nextUnit m.nextContext, c.failed = true := by
    rw [h.log]
    constructor
    · intro ⟨c, hc, hf⟩
      rcases List.mem_append.mp hc with hc | hc
      · rw [hlog c hc] at hf
        exact nomatch hf
      · exact ⟨c, hc, hf⟩
    · intro ⟨c, hc, hf⟩
      exact ⟨c, List.mem_append_right _ hc, hf⟩
  cases hcreates : o.sys.creates with
  -- no shared buffer: the status is an error, whatever came after
  | false =>
    constructor
    · intro _ hfalse
      exact nomatch hfalse
    · intro _
      have hstatus : m'.engineStatus = .error := by simpa [hcreates] using h.engineStatus
      have hprocessing : m'.isProcessing = false := by simpa [hcreates] using h.isProcessing
      constructor
      · intro hrunning
        rw [hprocessing] at hrunning
        exact nomatch hrunning
      · intro _
        exact ⟨hstatus, hprocessing⟩
  | true =>
    have hstatus : m'.engineStatus = .running := by simpa [hcreates] using h.engineStatus
    have hiff := o.failed_startCalls m.nextUnit m.nextContext hcreates
    constructor
    · intro htruthful _
      by_contra hcaptures
      rw [Bool.not_eq_true] at hcaptures
      -- the failure was recorded, but the status is `.running`
      obtain ⟨herror, _⟩ := htruthful.failed (hfailed.mpr (hiff.mpr hcaptures))
      rw [hstatus] at herror
      exact nomatch herror
    · intro hcaptures
      constructor
      · intro _ _
        exact h.capturing hcreates (hcaptures rfl)
      · intro hfail
        rw [hfailed, hiff, hcaptures rfl] at hfail
        exact nomatch hfail

omit [Sample α] in
/-- A manager that has just stopped is truthful. -/
theorem Stopped.truthful (h : Stopped m m') (hlog : ∀ c ∈ m.log, c.failed = false) :
    m'.Truthful := by
  constructor
  · intro hrunning
    rw [h.isProcessing] at hrunning
    exact nomatch hrunning
  · intro ⟨c, hc, hf⟩
    rw [h.log] at hc
    rcases List.mem_append.mp hc with hc | hc
    · rw [hlog c hc] at hf
      exact nomatch hf
    · rw [m.failed_stopCalls c hc] at hf
      exact nomatch hf

omit [Sample α] in
/-- Without a start in the operation nothing is hidden. -/
theorem nothingHidden_stop : NothingHidden m .stop := by
  intro o ⟨deviceID, hop⟩
  rcases hop with hop | ⟨hop, _⟩ <;> exact nomatch hop

/-- After an operation the status is right exactly if it hid no failure. -/
theorem step_truthful_iff {op : Op R M} (hhandle : m.engineHandle.isSome = true)
    (hstep : m.step op = some m') :
    m'.engineHandle.isSome = true ∧ (m'.Truthful ↔ m.NothingHidden op) := by
  obtain ⟨ctx, hctx⟩ := Option.isSome_iff_exists.mp hhandle
  cases op with
  | start deviceID o =>
    cases hstep
    have hstarted := started_start (m := { m with log := [] }) hctx deviceID o
    refine ⟨hstarted.engineHandle, ?_⟩
    rw [hstarted.truthful_iff (by simp)]
    constructor
    · intro hcaptures o' ⟨_, hop⟩
      rcases hop with hop | ⟨hop, _⟩
      · cases hop
        exact hcaptures
      · exact nomatch hop
    · intro hhidden
      exact hhidden o ⟨deviceID, .inl rfl⟩
  | stop =>
    cases hstep
    have hstopped := stopped_stop (m := { m with log := [] }) hctx
    exact ⟨hstopped.engineHandle,
      fun _ => nothingHidden_stop, fun _ => hstopped.truthful (by simp)⟩
  | switchDevice deviceID o =>
    cases hstep
    -- a switch restarts a running pipeline, and only notes the device of an idle one
    rcases Bool.eq_false_or_eq_true m.isProcessing with hprocessing | hprocessing
    · rw [switchDevice_of_processing (m := { m with log := [] }) hprocessing]
      have hstopped := stopped_stop
        (m := { m with log := [], currentDeviceID := deviceID }) hctx
      obtain ⟨ctx', hctx'⟩ := Option.isSome_iff_exists.mp hstopped.engineHandle
      have hstarted := started_start hctx' deviceID o
      refine ⟨hstarted.engineHandle, ?_⟩
      -- no call of the `stop` before the `start` fails
      have hlog : ∀ c ∈ ({ m with log := [], currentDeviceID := deviceID } :
          AudioManager α R M).stop.log, c.failed = false := by
        rw [hstopped.log]
        exact failed_stopCalls _
      rw [hstarted.truthful_iff hlog]
      constructor
      · intro hcaptures o' ⟨_, hop⟩
        rcases hop with hop | ⟨hop, _⟩
        · exact nomatch hop
        · cases hop
          exact hcaptures
      · intro hhidden
        exact hhidden o ⟨deviceID, .inr ⟨rfl, hprocessing⟩⟩
    · rw [switchDevice_of_idle (m := { m with log := [] }) hprocessing]
      refine ⟨hhandle, ?_⟩
      constructor
      · intro _ o' ⟨_, hop⟩
        rcases hop with hop | ⟨_, hfalse⟩
        · exact nomatch hop
        · rw [hprocessing] at hfalse
          exact nomatch hfalse
      · intro _
        constructor
        · intro hrunning
          exact absurd (hprocessing.symm.trans hrunning) Bool.false_ne_true
        · simp

theorem truthful_new (shm : Shm α) (created : Option R) (found : Option (LoadOutcome M))
    (bundled : Option (Option (LoadOutcome M))) :
    (new shm created found bundled).Truthful where
  running := fun h => nomatch h
  failed := by simp [new]

end AudioManager

open AudioManager

/-- Over every run of starts, stops and device switches, the status is truthful after every
    operation if and only if no start fails after it got its shared buffer. -/
theorem capture_truthful_iff (shm : Shm α) (created : Option R) (found : Option (LoadOutcome M))
    (bundled : Option (Option (LoadOutcome M))) (ops : List (Op R M)) (m : AudioManager α R M)
    (hrun : Machine.run AudioManager.step (.new shm created found bundled) ops = some m) :
    (∀ before after u, ops = before ++ after →
      Machine.run AudioManager.step (.new shm created found bundled) before = some u →
      u.Truthful) ↔
    ∀ before op after u, ops = before ++ op :: after →
      Machine.run AudioManager.step (.new shm created found bundled) before = some u →
      u.NothingHidden op :=
  Machine.run_forall_iff (fun m => m.engineHandle.isSome = true) Truthful NothingHidden
    (fun _ _ _ hhandle _ hstep => step_truthful_iff hhandle hstep) rfl
    (truthful_new shm created found bundled) hrun

/-! ## A start without a microphone -/

/-- Every call succeeds. -/
def StartOutcome.ok : StartOutcome Unit Unit where
  sys := .ok
  created := some ()
  found := none
  audioComponentFindNext := true
  audioComponentInstanceNew := true
  audioUnitInitialize := true
  audioOutputUnitStart := true

/-- No audio unit can be made. -/
def StartOutcome.noInstance : StartOutcome Unit Unit :=
  { StartOutcome.ok with audioComponentInstanceNew := false }

/-- A manager without a model. -/
def plainManager : AudioManager ℚ Unit Unit := .new .empty (some ()) none none

/-- The status is `.running` although there is no audio unit. -/
theorem running_without_unit :
    ∃ m, plainManager.step (.start none .noInstance) = some m ∧
      m.isProcessing = true ∧ m.engineStatus = .running ∧
      .audioComponentInstanceNew none ∈ m.log ∧ (∀ unit, m.units unit = none) ∧
      ¬ m.Truthful := by
  refine ⟨_, rfl, rfl, rfl, by decide, fun _ => rfl, ?_⟩
  intro h
  obtain ⟨_, hprocessing⟩ := h.failed ⟨.audioComponentInstanceNew none, by decide, rfl⟩
  exact nomatch hprocessing

/-- A start in which every call succeeds. -/
theorem capture_truthful_iff_ok :
    ∃ m, plainManager.step (.start none .ok) = some m ∧ m.Truthful := by
  refine ⟨_, rfl, ?_⟩
  have hrun : Machine.run AudioManager.step plainManager [.start none .ok] =
      plainManager.step (.start none .ok) := rfl
  refine (capture_truthful_iff .empty (some ()) none none [.start none .ok] _ hrun).mpr ?_
    [.start none .ok] [] _ rfl hrun
  intro before op after u hsplit hu o hstarts _
  cases before with
  | nil =>
    cases hsplit
    obtain ⟨_, hop | ⟨hop, _⟩⟩ := hstarts
    · cases hop
      rfl
    · exact nomatch hop
  | cons first rest => cases rest <;> cases hsplit

end Noise
