import NoiseAI.Spec.AttenuationLimit
import NoiseAI.Spec.CapturePipeline
import NoiseAI.Spec.ChannelLayout
import NoiseAI.Spec.HostMemory

/-!
# The invariant of the app and the driver

`Host.Inv` holds in every state that the app and the driver reach, over any number of launches
(`Host.Inv.step`, `Host.inv_launch`): the app shows that it is processing exactly when it has a
live segment, a toggle that is off has no buffer to start over, and the engine is in the mode
that the picker shows.
-/

namespace Noise

variable {α R M C : Type} [Sample α]

/-! ## The engine as the app uses it -/

/-- The mode that a call sets. -/
def EngineOp.modeSet : EngineOp α R M → Option NoiseMode
  | .setMode mode => some mode
  | _ => none

/-- The calls that the app makes: it sets neither the mix nor the limit, and it has two
    channels. -/
def EngineOp.FromApp : EngineOp α R M → Prop
  | .setDryMix _ | .setAttenuationLimit _ => False
  | .init format _ _ => format.channels = 2
  | _ => True

namespace Engine

variable {e : Engine α R M} {mode : NoiseMode}

/-- The engine of the app, in mode `mode`. -/
structure ForApp (mode : NoiseMode) (e : Engine α R M) : Prop where
  inv : e.Inv
  mode : e.mode = mode
  dryMixOverride : e.dryMixOverride = -1
  attenLimOverride : e.attenLimOverride = -1
  channels : e.channels = 2

/-- Only `set_mode` changes the mode. -/
theorem Inv.mode_after (h : e.Inv) (api : Denoisers α R M) (op : EngineOp α R M) :
    (e.after api op).mode = op.modeSet.getD e.mode := by
  cases op with
  | init format created found =>
    show (e.init format created found).2.mode = e.mode
    cases created with
    | none => rfl
    | some state =>
      rw [init_some]
      rfl
  | shutdown => rfl
  | setMode m =>
    show (e.setMode m).mode = m
    by_cases hsame : e.mode = m
    · rw [setMode_self hsame]
      exact hsame
    · rw [setMode_eq hsame]
  | loadDeepfilterModel found =>
    show (e.loadDeepfilterModel found).mode = e.mode
    rw [loadDeepfilterModel_eq]
    rfl
  | loadDeepfilterModelFrom file =>
    show (e.loadDeepfilterModelFrom file).2.mode = e.mode
    rw [loadDeepfilterModelFrom_eq]
    rfl
  | setDryMix mix => rfl
  | setAttenuationLimit db =>
    show (e.setAttenuationLimit db).mode = e.mode
    unfold setAttenuationLimit
    rw [applyAttenuationForMode_eq]
    rfl
  | processFrame c => exact (h.keeps_process api c).mode

/-- Only `set_dry_mix` changes the override of the mix. -/
theorem Inv.dryMixOverride_after (h : e.Inv) (api : Denoisers α R M) {op : EngineOp α R M}
    (hop : op.FromApp) : (e.after api op).dryMixOverride = e.dryMixOverride := by
  cases op with
  | init format created found =>
    show (e.init format created found).2.dryMixOverride = e.dryMixOverride
    cases created with
    | none => rfl
    | some state =>
      rw [init_some]
      rfl
  | shutdown => rfl
  | setMode m =>
    show (e.setMode m).dryMixOverride = e.dryMixOverride
    by_cases hsame : e.mode = m
    · rw [setMode_self hsame]
    · rw [setMode_eq hsame]
  | loadDeepfilterModel found =>
    show (e.loadDeepfilterModel found).dryMixOverride = e.dryMixOverride
    rw [loadDeepfilterModel_eq]
    rfl
  | loadDeepfilterModelFrom file =>
    show (e.loadDeepfilterModelFrom file).2.dryMixOverride = e.dryMixOverride
    rw [loadDeepfilterModelFrom_eq]
    rfl
  | setDryMix mix => exact nomatch hop
  | setAttenuationLimit db => exact nomatch hop
  | processFrame c => exact (h.keeps_process api c).dryMixOverride

/-- A call of the app leaves the engine in the mode it sets. -/
theorem ForApp.after (h : e.ForApp mode) (api : Denoisers α R M) {op : EngineOp α R M}
    (hop : op.FromApp) : (e.after api op).ForApp (op.modeSet.getD mode) where
  inv := h.inv.after api op
  mode := by rw [h.inv.mode_after, h.mode]
  dryMixOverride := by rw [h.inv.dryMixOverride_after api hop, h.dryMixOverride]
  attenLimOverride := by
    rw [h.inv.attenLimOverride_after, h.attenLimOverride]
    cases op with
    | setAttenuationLimit db => exact nomatch hop
    | _ => rfl
  channels := by
    rw [h.inv.channels_after]
    cases op with
    | init format created found => exact hop
    | _ => exact h.channels

/-- The engine that the app creates. -/
theorem forApp_create (api : Denoisers α R M) (created : Option R)
    (found : Option (LoadOutcome M)) :
    (NoiseEngineContext.create 48000 2 128 created found : NoiseEngineContext α R M).engine.ForApp
      .balanced := by
  have hnew : (new : Engine α R M).ForApp .balanced := ⟨inv_new, rfl, rfl, rfl, rfl⟩
  have hinit : EngineOp.FromApp (.init ⟨48000, 2, 128⟩ created found : EngineOp α R M) := rfl
  exact hnew.after api hinit

end Engine

/-! ## The audio manager -/

namespace NoiseEngineContext

variable {ctx : NoiseEngineContext α R M}

omit [Sample α] in
theorem resetSharedBuffer_eq (ctx : NoiseEngineContext α R M) (m : Shm α) :
    ctx.resetSharedBuffer m =
      ({ ctx with sharedBuffer := none }, ctx.sharedBuffer.elim m fun b => b.destroy m) := by
  obtain ⟨engine, sharedBuffer⟩ := ctx
  cases sharedBuffer with
  | none => rfl
  | some b => rfl

/-- Without a buffer to destroy, `noise_shm_create` is its constructor. -/
theorem shmCreate_of_none (h : ctx.sharedBuffer = none) (m : Shm α) (sys : SysCalls) :
    ctx.shmCreate m 48000 2 sys =
      (let r := SharedRingBuffer.create m shmName appCapacity 2 48000 sys
       (r.1.isValid, { ctx with sharedBuffer := some r.1 }, r.2)) := by
  unfold shmCreate
  simp only [resetSharedBuffer_eq, h, Option.elim_none]
  rfl

/-- Processing a block leaves the buffer, and the block goes to its segment. -/
theorem processBlock_spec (api : Denoisers α R M) (clock : Nat → α)
    (ctx : NoiseEngineContext α R M) (output input : Nat → α) (numFrames : Nat) :
    let r := ctx.processBlock api clock output input numFrames
    r.2.1.sharedBuffer = ctx.sharedBuffer ∧ (∀ b, r.1 = some b → ctx.ring = some b.1) ∧
      (r.2.1.engine = ctx.engine ∨
        r.2.1.engine = ctx.engine.after api (.processFrame ⟨clock, input, output, numFrames⟩)) := by
  unfold processBlock
  cases hring : ctx.ring with
  | none => exact ⟨rfl, fun _ h => (nomatch h), .inl rfl⟩
  | some i =>
    dsimp only
    split
    · refine ⟨rfl, fun b hb => ?_, .inr rfl⟩
      cases hb
      rfl
    · exact ⟨rfl, fun _ h => (nomatch h), .inr rfl⟩

end NoiseEngineContext

namespace AudioManager

variable {m : AudioManager α R M} {ctx : NoiseEngineContext α R M}

omit [Sample α] in
/-- `setupAudioUnit` leaves the shared memory alone. -/
theorem shm_setupAudioUnit (m : AudioManager α R M) (o : StartOutcome R M) :
    (m.setupAudioUnit o).shm = m.shm := by
  obtain ⟨sys, created, found, findNext, instanceNew, initialized, started⟩ := o
  cases findNext with
  | false => rfl
  | true =>
    cases instanceNew with
    | false => rfl
    | true =>
      cases initialized with
      | false => simp [setupAudioUnit, call, audioComponentInstanceNew, audioUnitInitialize]
      | true =>
        cases started <;>
          simp [setupAudioUnit, call, audioComponentInstanceNew, audioUnitInitialize,
            audioOutputUnitStart]

/-- What `start` does to the engine and to the shared memory. -/
theorem start_shm (h : m.engineHandle = some ctx) (deviceID : Option AudioObjectID)
    (o : StartOutcome R M) :
    let r := ctx.shmCreate m.shm 48000 2 o.sys
    (m.start deviceID o).shm = r.2.2 ∧
      (m.start deviceID o).engineHandle =
        some (if r.1 then (r.2.1.start o.created o.found).2 else r.2.1) := by
  dsimp only
  generalize hr : ctx.shmCreate m.shm 48000 2 o.sys = r
  obtain ⟨ok, ctx', shm⟩ := r
  cases ok with
  | false => simp [start, startBody, call, h, noiseShmCreate, hr, setProcessing]
  | true =>
    simp only [start, startBody, call, h, noiseShmCreate, hr, noiseEngineStart, setProcessing,
      Bool.not_true, Bool.false_eq_true, if_false, if_true]
    rw [shm_setupAudioUnit, (setUp_setupAudioUnit _ o).engineHandle]
    exact ⟨rfl, rfl⟩

omit [Sample α] in
/-- What `stop` does to the engine and to the shared memory. -/
theorem stop_shm [Sample α] (h : m.engineHandle = some ctx) :
    m.stop.shm = ctx.sharedBuffer.elim m.shm (fun b => b.destroy m.shm) ∧
      m.stop.engineHandle = some { engine := ctx.engine.shutdown, sharedBuffer := none } := by
  have hdispose : m.disposeUnit.releaseContext.engineHandle = some ctx ∧
      m.disposeUnit.releaseContext.shm = m.shm := by
    unfold disposeUnit releaseContext
    cases m.captureContext.bind (·.audioUnit) with
    | none =>
      cases hretained : m.retainedContext with
      | none => exact ⟨h, rfl⟩
      | some context => exact ⟨h, rfl⟩
    | some au =>
      cases hretained : m.retainedContext with
      | none => simp [stopAndDispose, call, hretained, h]
      | some context => simp [stopAndDispose, call, hretained, h]
  obtain ⟨hhandle, hshm⟩ := hdispose
  unfold stop
  simp only [hhandle, noiseEngineStop, noiseShmDestroy, NoiseEngineContext.shmDestroy,
    NoiseEngineContext.resetSharedBuffer_eq, setProcessing, call, hshm, NoiseEngineContext.stop]
  exact ⟨trivial, trivial⟩

/-- After `deinit` the shared memory is as after `stop`. -/
theorem deinit_shm (h : m.engineHandle = some ctx) : m.deinit.shm = m.stop.shm := by
  obtain ⟨-, hhandle⟩ := stop_shm h
  unfold deinit
  simp only [hhandle, NoiseEngineContext.resetSharedBuffer_eq, Option.elim_none]

/-- The buffer of the engine's context. -/
def buffer (m : AudioManager α R M) : Option SharedRingBuffer :=
  m.engineHandle.bind (·.sharedBuffer)

/-- The segment that the app writes to. -/
def live (m : AudioManager α R M) : Option Nat := m.buffer.bind (·.segment)

/-- The manager of an app launched when there were `launchedAt` segments, in mode `mode`, with a
    driver that holds the segment `held`. -/
structure Owns (mode : NoiseMode) (launchedAt : Nat) (held : Option Nat)
    (m : AudioManager α R M) : Prop where
  engine : ∃ ctx, m.engineHandle = some ctx ∧ ctx.engine.ForApp mode
  creator : ∀ b, m.buffer = some b → b.isCreator = true ∧ b.shmName = shmName
  processing : m.isProcessing = m.live.isSome
  memory : m.shm.Lives m.live launchedAt
  held : ∀ j, held = some j → j < m.shm.created

variable {mode : NoiseMode} {launchedAt : Nat} {held : Option Nat}

/-- `start` makes a new buffer and leaves the engine in its mode. -/
theorem Owns.start (h : m.Owns mode launchedAt held) (hnone : m.buffer = none)
    (api : Denoisers α R M) (deviceID : Option AudioObjectID) (o : StartOutcome R M) :
    (m.start deviceID o).Owns mode launchedAt held := by
  obtain ⟨ctx, hctx, hengine⟩ := h.engine
  have hbuffer : ctx.sharedBuffer = none := by
    rw [← hnone, buffer, hctx]
    rfl
  have hlive : m.live = none := by rw [live, hnone]; rfl
  have hmemory := h.memory
  rw [hlive] at hmemory
  -- the manager has no buffer, so the constructor makes the only live segment
  have hstarted := started_start hctx deviceID o
  have hvalid := SharedRingBuffer.isValid_create m.shm shmName appCapacity 2 48000 o.sys
  obtain ⟨hgrows, -⟩ := SharedRingBuffer.create_new m.shm o.sys shmName appCapacity 2 48000
    (Nat.le_refl _)
  obtain ⟨hcreator, hname, -, -⟩ :=
    SharedRingBuffer.create_spec m.shm shmName appCapacity 2 48000 o.sys
  have hcreates := hmemory.create o.sys
  obtain ⟨hshm, hhandle⟩ := start_shm hctx deviceID o
  rw [NoiseEngineContext.shmCreate_of_none hbuffer] at hshm hhandle
  dsimp only at hshm hhandle hgrows hcreator hname hcreates
  generalize SharedRingBuffer.create m.shm shmName appCapacity 2 48000 o.sys = r at *
  obtain ⟨b, shm⟩ := r
  have hnew : (m.start deviceID o).buffer = some b := by
    rw [buffer, hhandle, Option.bind_some]
    split
    · rfl
    · rfl
  have hsegment : (m.start deviceID o).live = b.segment := by rw [live, hnew]; rfl
  -- `start` goes on to the engine only if the segment is valid
  refine ⟨⟨_, hhandle, ?_⟩, ?_, ?_, ?_, ?_⟩
  · split
    · have hinit : EngineOp.FromApp (.init ⟨48000, 2, 128⟩ o.created o.found : EngineOp α R M) :=
        rfl
      exact hengine.after api hinit
    · exact hengine
  · intro b' hb'
    rw [hnew] at hb'
    cases hb'
    exact ⟨hcreator, hname⟩
  · rw [hstarted.isProcessing, hsegment]
    exact hvalid.symm
  · rw [hsegment, hshm]
    exact hcreates
  · intro j hj
    rw [hshm]
    exact Nat.lt_of_lt_of_le (h.held j hj) hgrows

/-- `stop` destroys the buffer. -/
theorem Owns.stop (h : m.Owns mode launchedAt held) (api : Denoisers α R M) :
    m.stop.Owns mode launchedAt held ∧ m.stop.buffer = none := by
  obtain ⟨ctx, hctx, hengine⟩ := h.engine
  obtain ⟨hshm, hhandle⟩ := stop_shm hctx
  have hbuffer : m.buffer = ctx.sharedBuffer := by rw [buffer, hctx]; rfl
  have hnone : m.stop.buffer = none := by rw [buffer, hhandle]; rfl
  have hlive : m.stop.live = none := by rw [live, hnone]; rfl
  have hmemory := h.memory
  rw [live, hbuffer] at hmemory
  -- a buffer that is there was made by this process, and is destroyed with its name
  obtain ⟨hlives, hcreated⟩ : m.stop.shm.Lives none launchedAt ∧
      m.stop.shm.created = m.shm.created := by
    rw [hshm]
    cases hb : ctx.sharedBuffer with
    | none =>
      rw [hb] at hmemory
      exact ⟨hmemory, rfl⟩
    | some b =>
      obtain ⟨hcreator, hname⟩ := h.creator b (hbuffer.trans hb)
      rw [hb] at hmemory
      exact ⟨hmemory.destroy hcreator hname, (SharedRingBuffer.destroy_keeps b m.shm 0).1⟩
  refine ⟨⟨⟨_, hhandle, hengine.after api (show EngineOp.FromApp .shutdown from trivial)⟩, ?_, ?_,
    ?_, ?_⟩, hnone⟩
  · intro b hb
    rw [hnone] at hb
    exact nomatch hb
  · rw [(stopped_stop hctx).isProcessing, hlive]
    rfl
  · rw [hlive]
    exact hlives
  · intro j hj
    rw [hcreated]
    exact h.held j hj

/-- A switch restarts a running manager, and notes the device of another. -/
theorem Owns.switchDevice (h : m.Owns mode launchedAt held) (api : Denoisers α R M)
    (deviceID : Option AudioObjectID) (o : StartOutcome R M) :
    (m.switchDevice deviceID o).Owns mode launchedAt held ∧
      (m.buffer = none → (m.switchDevice deviceID o).buffer = none) := by
  have hset : ({ m with currentDeviceID := deviceID } : AudioManager α R M).Owns mode launchedAt
      held := ⟨h.engine, h.creator, h.processing, h.memory, h.held⟩
  rcases Bool.eq_false_or_eq_true m.isProcessing with hprocessing | hprocessing
  · rw [switchDevice_of_processing hprocessing]
    obtain ⟨hstop, hnone⟩ := hset.stop api
    refine ⟨hstop.start hnone api deviceID o, fun hidle => ?_⟩
    -- without a buffer nothing was running
    have hlive := h.processing
    rw [hprocessing, live, hidle] at hlive
    exact nomatch hlive
  · rw [switchDevice_of_idle hprocessing]
    exact ⟨hset, fun hidle => hidle⟩

/-- The mode is set in the engine. -/
theorem Owns.setMode (h : m.Owns mode launchedAt held) (api : Denoisers α R M)
    (mode' : NoiseMode) : (m.setMode mode').Owns mode' launchedAt held := by
  obtain ⟨ctx, hctx, hengine⟩ := h.engine
  have hhandle : (m.setMode mode').engineHandle = some (ctx.setMode mode') := by
    simp only [AudioManager.setMode, hctx, Option.map_some]
  have hbuffer : (m.setMode mode').buffer = m.buffer := by
    rw [buffer, buffer, hhandle, hctx]
    rfl
  have hlive : (m.setMode mode').live = m.live := by rw [live, live, hbuffer]
  refine ⟨⟨_, hhandle, hengine.after api (show EngineOp.FromApp (.setMode mode') from trivial)⟩,
    ?_, ?_, ?_, h.held⟩
  · rw [hbuffer]
    exact h.creator
  · rw [hlive]
    exact h.processing
  · rw [hlive]
    exact h.memory

/-- The driver consumes, and then holds another segment. -/
theorem Owns.consumed (h : m.Owns mode launchedAt held) {shm : Shm α} (hshm : m.shm.Consumed shm)
    {held' : Option Nat} (hheld : ∀ j, held' = some j → held = some j ∨
      m.shm.names shmName = some j) :
    ({ m with shm := shm } : AudioManager α R M).Owns mode launchedAt held' where
  engine := h.engine
  creator := h.creator
  processing := h.processing
  memory := h.memory.consumed hshm
  held := by
    intro j hj
    rw [hshm.created]
    rcases hheld j hj with hj | hj
    · exact h.held j hj
    · exact h.memory.name_lt j hj

/-- What `auhalInputCallback` does: a block for the live segment, if there is one. -/
theorem auhalInputCallback_eq (h : m.engineHandle = some ctx) (api : Denoisers α R M)
    (inNumberFrames : Nat) (clock outputBuf : Nat → α) (rendered : Option (Nat → α)) :
    (m.auhalInputCallback api inNumberFrames clock outputBuf rendered = m) ∨
      ∃ input, m.auhalInputCallback api inNumberFrames clock outputBuf rendered =
        (let (block, ctx, _) := ctx.processBlock api clock outputBuf input
          (CaptureContext.framesToRender inNumberFrames)
         { m with
           engineHandle := some ctx
           shm := block.elim m.shm fun b =>
             m.shm.modify b.1 fun _ => ((m.shm.segment b.1).write b.2).2 }) := by
  unfold auhalInputCallback
  cases m.captureContext.bind (·.audioUnit) with
  | none => exact .inl rfl
  | some au =>
    cases rendered with
    | none => exact .inl rfl
    | some input =>
      right
      refine ⟨input, ?_⟩
      simp only [h, NoiseEngineContext.processAndWrite_block]
      cases (ctx.processBlock api clock outputBuf input
        (CaptureContext.framesToRender inNumberFrames)).1 with
      | none => rfl
      | some b => rfl

/-- A callback of the audio unit writes to the live segment. -/
theorem Owns.auhalInputCallback (h : m.Owns mode launchedAt held) (api : Denoisers α R M)
    (inNumberFrames : Nat) (clock outputBuf : Nat → α) (rendered : Option (Nat → α)) :
    let m' := m.auhalInputCallback api inNumberFrames clock outputBuf rendered
    m'.Owns mode launchedAt held ∧ m'.buffer = m.buffer := by
  obtain ⟨ctx, hctx, hengine⟩ := h.engine
  dsimp only
  rcases auhalInputCallback_eq hctx api inNumberFrames clock outputBuf rendered with
    heq | ⟨input, heq⟩
  · rw [heq]
    exact ⟨h, rfl⟩
  · obtain ⟨hbuffer, hring, hafter⟩ := ctx.processBlock_spec api clock outputBuf input
      (CaptureContext.framesToRender inNumberFrames)
    rw [heq]
    generalize ctx.processBlock api clock outputBuf input
      (CaptureContext.framesToRender inNumberFrames) = r at *
    obtain ⟨block, ctx', output⟩ := r
    dsimp only at hbuffer hring hafter ⊢
    -- the buffer is the one of before, only its segment changes
    have hsame : ctx'.sharedBuffer = m.buffer := by
      rw [hbuffer, buffer, hctx]
      rfl
    have hlive : ctx.ring = m.live := by
      rw [NoiseEngineContext.ring, ← hbuffer, hsame]
      rfl
    refine ⟨⟨⟨ctx', rfl, ?_⟩, ?_, ?_, ?_, ?_⟩, hsame⟩
    · -- `process_frame` was called, or the buffer was not valid
      rcases hafter with hafter | hafter
      · rw [hafter]
        exact hengine
      · rw [hafter]
        exact hengine.after api (show EngineOp.FromApp (.processFrame _) from trivial)
    · exact fun b hb => h.creator b (hsame ▸ hb)
    · show m.isProcessing = (ctx'.sharedBuffer.bind (·.segment)).isSome
      rw [hsame]
      exact h.processing
    · show Shm.Lives _ (ctx'.sharedBuffer.bind (·.segment)) launchedAt
      rw [hsame]
      show Shm.Lives _ m.live launchedAt
      cases block with
      | none => exact h.memory
      | some b =>
        have hmemory := h.memory
        rw [← hlive, hring b rfl] at hmemory ⊢
        exact hmemory.write b.2
    · intro j hj
      have hlt := h.held j hj
      cases block with
      | none => exact hlt
      | some b => exact hlt

/-- A new manager. -/
theorem owns_new {shm : Shm α} (hnames : ∀ k, shm.names shmName = some k → k < shm.created)
    (hheld : ∀ j, held = some j → j < shm.created) (api : Denoisers α R M) (created : Option R)
    (found : Option (LoadOutcome M)) (bundled : Option (Option (LoadOutcome M))) :
    (new shm created found bundled).Owns .balanced shm.created held ∧
      (new shm created found bundled).buffer = none := by
  have hcreate := Engine.forApp_create api created found
  have hnone : (new shm created found bundled).buffer = none := by
    cases bundled with
    | none => rfl
    | some file => rfl
  have hlive : (new shm created found bundled).live = none := by rw [live, hnone]; rfl
  refine ⟨⟨?_, ?_, ?_, ?_, hheld⟩, hnone⟩
  · cases bundled with
    | none => exact ⟨_, rfl, hcreate⟩
    | some file =>
      exact ⟨_, rfl, hcreate.after api
        (show EngineOp.FromApp (.loadDeepfilterModelFrom file) from trivial)⟩
  · intro b hb
    rw [hnone] at hb
    exact nomatch hb
  · rw [hlive]
    rfl
  · rw [hlive]
    exact ⟨Nat.le_refl _, hnames, fun k hk hle => absurd (hnames k hk) (Nat.not_lt_of_le hle),
      fun _ hi => (nomatch hi), fun k hle hlt _ => absurd hlt (Nat.not_lt_of_le hle)⟩

end AudioManager

/-! ## The events of the app -/

/-- What the calls of a `start` in the event return. -/
def AppEvent.outcome : AppEvent R M → StartOutcome R M
  | .refreshDevices _ o | .selectDevice _ o | .toggle o => o

namespace AppDelegate

variable {a a' : AppDelegate α R M} {ev : AppEvent R M}

/-- `onDeviceSelectionChanged` switches the device, if it is called. -/
theorem onDeviceSelectionChanged_cases (a : AppDelegate α R M)
    (called : Option (Option AudioObjectID)) (o : StartOutcome R M) :
    a.onDeviceSelectionChanged called o = a ∨ ∃ deviceID,
      a.onDeviceSelectionChanged called o =
        { a with audioManager := a.audioManager.switchDevice deviceID o } := by
  cases called with
  | none => exact .inl rfl
  | some deviceID => exact .inr ⟨deviceID, rfl⟩

/-- What an event does to the audio manager: nothing, another device, a start or a stop. -/
theorem step_cases (hstep : a.step ev = some a') :
    (∃ d, a' = { a with deviceManager := d }) ∨
    (∃ d deviceID, a' = { a with
      deviceManager := d
      audioManager := a.audioManager.switchDevice deviceID ev.outcome }) ∨
    (a.wantsProcessing = false ∧ a' = { a with
      wantsProcessing := true
      audioManager := a.audioManager.start a.deviceManager.selectedDeviceID ev.outcome }) ∨
    (a.wantsProcessing = true ∧ a' = { a with
      wantsProcessing := false
      audioManager := a.audioManager.stop }) := by
  cases ev with
  | refreshDevices hal o =>
    simp only [step] at hstep
    split at hstep
    · cases hstep
      rcases onDeviceSelectionChanged_cases
        { a with deviceManager := (a.deviceManager.refreshDevices hal).1 } _ o with
        heq | ⟨deviceID, heq⟩
      · exact .inl ⟨_, heq⟩
      · exact .inr (.inl ⟨_, deviceID, heq⟩)
    · cases hstep
  | selectDevice uid o =>
    simp only [step] at hstep
    split at hstep
    · cases hstep
      rcases onDeviceSelectionChanged_cases
        { a with deviceManager := (a.deviceManager.selectDevice uid).1 } _ o with
        heq | ⟨deviceID, heq⟩
      · exact .inl ⟨_, heq⟩
      · exact .inr (.inl ⟨_, deviceID, heq⟩)
    · cases hstep
  | toggle o =>
    cases hstep
    cases hwants : a.wantsProcessing with
    | false => exact .inr (.inr (.inl ⟨rfl, rfl⟩))
    | true => exact .inr (.inr (.inr ⟨rfl, rfl⟩))

end AppDelegate

/-! ## The host -/

namespace Host

variable {s s' : Host α R M}

/-- The segment that the app writes to. -/
def live (s : Host α R M) : Option Nat := s.app.audioManager.live

structure Inv (s : Host α R M) : Prop where
  manager : s.app.audioManager.Owns s.currentMode s.launchedAt s.io.segment
  toggle : s.app.wantsProcessing = false → s.app.audioManager.buffer = none
  driver : IOHandler.Used (shmConsumer (α := α)) s.io

/-- The app keeps the invariant of its manager. -/
theorem Inv.app (h : s.Inv) (api : Denoisers α R M) {ev : AppEvent R M} {app : AppDelegate α R M}
    (hstep : s.app.step ev = some app) : ({ s with app := app } : Host α R M).Inv := by
  rcases AppDelegate.step_cases hstep with ⟨d, rfl⟩ | ⟨d, deviceID, rfl⟩ | ⟨hwants, rfl⟩ |
    ⟨hwants, rfl⟩
  · exact ⟨h.manager, h.toggle, h.driver⟩
  · obtain ⟨howns, hidle⟩ := h.manager.switchDevice api deviceID ev.outcome
    exact ⟨howns, fun hoff => hidle (h.toggle hoff), h.driver⟩
  · exact ⟨h.manager.start (h.toggle hwants) api _ _, fun hoff => (nomatch hoff), h.driver⟩
  · obtain ⟨hstop, hnone⟩ := h.manager.stop api
    exact ⟨hstop, fun _ => hnone, h.driver⟩

/-- The mode of the picker becomes the mode of the engine. -/
theorem Inv.setMode (h : s.Inv) (api : Denoisers α R M) (mode : NoiseMode) :
    (s.setMode mode).Inv := by
  have howns := h.manager.setMode api mode
  refine ⟨howns, fun hoff => ?_, h.driver⟩
  have hnone := h.toggle hoff
  obtain ⟨ctx, hctx, -⟩ := h.manager.engine
  rw [AudioManager.buffer, hctx] at hnone
  show (s.app.audioManager.setMode mode).buffer = none
  simp only [AudioManager.buffer, AudioManager.setMode, hctx, Option.map_some, Option.bind_some]
  exact hnone

/-- A call of the driver that consumes, and leaves the handler with the segment it held, the one
    that has the name, or none. -/
theorem Inv.withDriver (h : s.Inv) {io : IOHandler} {shm : Shm α} (hshm : s.shm.Consumed shm)
    (hused : IOHandler.Used (shmConsumer (α := α)) io)
    (hheld : ∀ j, io.segment = some j → s.io.segment = some j ∨ s.shm.names shmName = some j) :
    (s.withDriver io shm).Inv :=
  ⟨h.manager.consumed hshm hheld, h.toggle, hused⟩

/-- A launch, whatever an earlier process left behind. -/
theorem inv_launch {shm : Shm α} {io : IOHandler}
    (hnames : ∀ k, shm.names shmName = some k → k < shm.created)
    (hheld : ∀ j, io.segment = some j → j < shm.created)
    (hused : IOHandler.Used (shmConsumer (α := α)) io) (api : Denoisers α R M)
    (savedUID defaultMode : Option String) (l : Launch R M) :
    (launch shm savedUID defaultMode io l).Inv := by
  obtain ⟨hnew, hnone⟩ := AudioManager.owns_new hnames hheld api l.created l.found l.bundled
  -- the app before the mode is restored
  have hlaunched : ({
      app := .applicationDidFinishLaunching (.new shm l.created l.found l.bundled)
        (.new savedUID l.hal) l.o
      currentMode := .balanced
      defaultMode := defaultMode
      io := io
      launchedAt := shm.created } : Host α R M).Inv := by
    unfold AppDelegate.applicationDidFinishLaunching
    cases (DeviceManager.new savedUID l.hal).selectedDeviceID with
    | none => exact ⟨hnew, fun _ => hnone, hused⟩
    | some deviceID =>
      obtain ⟨howns, hidle⟩ := hnew.switchDevice api (some deviceID) l.o
      exact ⟨howns, fun _ => hidle hnone, hused⟩
  unfold launch
  dsimp only
  split
  · exact hlaunched.setMode api _
  · exact hlaunched

/-- Every event keeps the invariant. -/
theorem Inv.step (h : s.Inv) (api : Denoisers α R M) {ev : HostEvent α R M C}
    (hstep : s.step api ev = some s') : s'.Inv := by
  cases ev with
  | app ev =>
    obtain ⟨app, happ, rfl⟩ := Option.map_eq_some_iff.mp hstep
    exact h.app api happ
  | pickMode mode =>
    simp only [Host.step] at hstep
    split at hstep
    · cases hstep
      exact h
    · cases hstep
      have hset := h.setMode api mode
      exact ⟨hset.manager, hset.toggle, hset.driver⟩
  | defaultMode mode =>
    cases hstep
    exact ⟨h.manager, h.toggle, h.driver⟩
  | auhalInput inNumberFrames clock outputBuf rendered =>
    simp only [Host.step] at hstep
    split at hstep
    · cases hstep
      obtain ⟨howns, hbuffer⟩ :=
        h.manager.auhalInputCallback api inNumberFrames clock outputBuf rendered
      exact ⟨howns, fun hoff => hbuffer.trans (h.toggle hoff), h.driver⟩
    · exact nomatch hstep
  | relaunch deinitialized l =>
    cases hstep
    -- the names and the number of segments are those of a process with or without `deinit`
    cases deinitialized with
    | false =>
      exact inv_launch h.manager.memory.name_lt h.manager.held h.driver api _ _ l
    | true =>
      obtain ⟨hstop, -⟩ := h.manager.stop api
      obtain ⟨ctx, hctx, -⟩ := h.manager.engine
      simp only [if_true, AudioManager.deinit_shm hctx]
      exact inv_launch hstop.memory.name_lt hstop.held h.driver api _ _ l
  | onStart =>
    cases hstep
    obtain ⟨hshm, hheld⟩ := IOHandler.Inv.new.ensureConnected_shm s.shm
    refine h.withDriver hshm (.onStart h.driver rfl) fun j hj => ?_
    rcases hheld j hj with hj | hj
    · exact nomatch hj
    · exact .inr hj
  | onStop =>
    cases hstep
    exact ⟨h.manager.consumed (.refl _) (fun _ hj => nomatch hj), h.toggle, .onStop h.driver⟩
  | onReadClientInput client bytesCount =>
    cases hstep
    obtain ⟨hshm, hheld, -⟩ := h.driver.inv.1.onReadClientInput_shm s.shm bytesCount
    exact h.withDriver hshm (.onReadClientInput s.shm bytesCount h.driver) hheld
  | driverRestart =>
    cases hstep
    exact ⟨h.manager.consumed (.refl _) (fun _ hj => nomatch hj), h.toggle, .new⟩

/-- The invariant holds in every state that the app and the driver reach. -/
theorem Inv.run (h : s.Inv) (api : Denoisers α R M) {events : List (HostEvent α R M C)}
    (hrun : Machine.run (Host.step api) s events = some s') : s'.Inv :=
  Machine.run_invariant (fun _ => True) Inv (fun _ _ _ _ h hstep => h.step api hstep) h
    (fun _ _ => trivial) hrun

end Host

end Noise
