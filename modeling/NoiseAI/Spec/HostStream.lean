import NoiseAI.Spec.EngineDelay
import NoiseAI.Spec.HostDelivery

/-!
# What is captured is heard

From the event that starts the capture on, as long as app and driver go on as they are, the app
is one stage with a delay: all that it sends to its ring is a number of silent frames and then
the denoised stream, with nothing left out (`Host.Captures.run`). The handler attaches the ring
within 52 callbacks, and what the clients hear from there on is one piece of what was sent
(`capture_reaches_client`).
-/

namespace Noise

variable {α R M C : Type} [Sample α]

namespace HostEvent

/-- The app and the driver go on as they are, in the mode that is set. -/
def Streams : HostEvent α R M C → Prop
  | .defaultMode _ | .auhalInput .. | .onReadClientInput _ _ => True
  | _ => False

/-- The frames that `AudioUnitRender` brings. -/
def captured : HostEvent α R M C → List (List α)
  | .auhalInput inNumberFrames _ _ (some input) =>
    frames 2 (CaptureContext.framesToRender inNumberFrames) input
  | _ => []

/-- The size of the call of the engine. -/
def request : HostEvent α R M C → List Nat
  | .auhalInput inNumberFrames _ _ (some _) => [CaptureContext.framesToRender inNumberFrames]
  | _ => []

/-- The denoised stream goes on with the means of the frames, at the times the call takes. -/
def feed (api : Denoisers α R M) (t : Blocks.Feed (Engine α R M) α α) :
    HostEvent α R M C → Blocks.Feed (Engine α R M) α α
  | .auhalInput inNumberFrames clock _ (some input) =>
    Engine.fed api (fun k => clock (k - t.input.length / DENOISE_FRAME_SIZE)) t
      ((frames 2 (CaptureContext.framesToRender inNumberFrames) input).map (mean 2))
  | _ => t

omit [Sample α] in
theorem Streams.goesOn {ev : HostEvent α R M C} (h : ev.Streams) : ev.GoesOn := by
  cases ev with
  | defaultMode | auhalInput | onReadClientInput => trivial
  | app | pickMode | relaunch | onStart | onStop | driverRestart => cases h

theorem input_feed (api : Denoisers α R M) (t : Blocks.Feed (Engine α R M) α α)
    (events : List (HostEvent α R M C)) :
    (events.foldl (feed api) t).input = t.input ++ (events.flatMap captured).map (mean 2) := by
  induction events generalizing t with
  | nil => exact (List.append_nil _).symm
  | cons ev events ih =>
    rw [List.foldl_cons, ih, List.flatMap_cons, List.map_append, ← List.append_assoc]
    congr 1
    unfold feed captured
    split
    · rfl
    · exact (List.append_nil _).symm

omit [Sample α] in
theorem length_captured (events : List (HostEvent α R M C)) :
    (events.flatMap captured).length = (events.flatMap request).sum := by
  induction events with
  | nil => rfl
  | cons ev events ih =>
    rw [List.flatMap_cons, List.flatMap_cons, List.length_append, List.sum_append, ih]
    congr 1
    unfold captured request
    split
    · rw [Session.length_frames, List.sum_singleton]
    · rfl

omit [Sample α] in
theorem request_le (events : List (HostEvent α R M C)) :
    ∀ n ∈ events.flatMap request, n ≤ CaptureContext.maxFrames := by
  intro n h
  obtain ⟨ev, -, hn⟩ := List.mem_flatMap.mp h
  unfold request at hn
  split at hn
  · rw [List.mem_singleton.mp hn]
    exact Nat.min_le_right _ _
  · exact absurd hn List.not_mem_nil

end HostEvent

/-- The callback of an audio unit whose engine is live: the call writes a whole block, and that
    is what is offered to the ring. -/
theorem AudioManager.auhalInputCallback_live {m : AudioManager α R M}
    {ctx : NoiseEngineContext α R M} {au i : Nat} (hctx : m.engineHandle = some ctx)
    (hunit : m.captureContext.bind (·.audioUnit) = some au) (hring : ctx.ring = some i)
    (hlive : ctx.engine.Live 2) (api : Denoisers α R M) (inNumberFrames : Nat)
    (clock outputBuf input : Nat → α) :
    let n := CaptureContext.framesToRender inNumberFrames
    let r := ctx.engine.processFrame api clock input outputBuf n
    (m.auhalInputCallback api inNumberFrames clock outputBuf (some input)).engineHandle =
        some { ctx with engine := r.2.2 } ∧
      m.captured api inNumberFrames clock outputBuf (some input) =
        some (frames 2 n r.2.1).flatten := by
  dsimp only
  have hn : CaptureContext.framesToRender inNumberFrames ≤ CaptureContext.maxFrames :=
    Nat.min_le_right _ _
  unfold CaptureContext.maxFrames at hn
  generalize hframes : CaptureContext.framesToRender inNumberFrames = n at hn
  -- a live engine accepts every call
  have hok : (ctx.engine.processFrame api clock input outputBuf n).1 = true := by
    rw [hlive.processFrame]
    split
    · rfl
    · rfl
  have hblock : ctx.processBlock api clock outputBuf input n =
      (let r := ctx.engine.processFrame api clock input outputBuf n
       (some (i, (frames 2 n r.2.1).flatten), { ctx with engine := r.2.2 }, r.2.1)) := by
    unfold NoiseEngineContext.processBlock
    simp only [hring, hok, if_true, u32_of_lt (show n * 2 < 2 ^ 32 by omega), flatten_frames]
  unfold auhalInputCallback captured
  simp only [hctx, hunit, hframes, NoiseEngineContext.processAndWrite_block, hblock]
  exact ⟨rfl, rfl⟩

namespace Host

open Prefill

variable {api : Denoisers α R M} {s s' : Host α R M} {x : Session α R M} {i : Nat}

/-- The engine of the app is in the session `x`, and its blocks go to the segment `i`. -/
structure Captures (i : Nat) (s : Host α R M) (x : Session α R M) : Prop where
  handle : ∃ ctx, s.app.audioManager.engineHandle = some ctx ∧ ctx.ring = some i ∧
    ctx.engine = x.engine
  faithful : x.Faithful 2

/-- The session goes on to `y`: the stream is `stream`, and what is played to the requests `ns` is
    what was sent. -/
structure GoesOnTo (x y : Session α R M) (stream : Blocks.Feed (Engine α R M) α α) (ns : List Nat)
    (sent : List α) : Prop where
  stream : y.stream = stream
  level : y.level = ns.foldl (Level.step DENOISE_FRAME_SIZE OUTPUT_PREFILL_SAMPLES) x.level
  plays : ∃ played delivered,
    Plays DENOISE_FRAME_SIZE OUTPUT_PREFILL_SAMPLES [0, 0] x.level ns played delivered ∧
    sent = played.flatten ∧ y.delivered = x.delivered ++ delivered

theorem GoesOnTo.refl (x : Session α R M) : GoesOnTo x x x.stream [] [] :=
  ⟨rfl, rfl, [], [], .nil, rfl, (List.append_nil _).symm⟩

theorem GoesOnTo.trans {y z : Session α R M} {t t' : Blocks.Feed (Engine α R M) α α}
    {ns ns' : List Nat} {sent sent' : List α} (h : GoesOnTo x y t ns sent)
    (h' : GoesOnTo y z t' ns' sent') : GoesOnTo x z t' (ns ++ ns') (sent ++ sent') := by
  obtain ⟨played, delivered, hplays, rfl, hdelivered⟩ := h.plays
  obtain ⟨played', delivered', hplays', rfl, hdelivered'⟩ := h'.plays
  rw [h.level] at hplays'
  refine ⟨h'.stream, ?_, played ++ played', delivered ++ delivered', hplays.append hplays', ?_, ?_⟩
  · rw [h'.level, h.level, List.foldl_append]
  · rw [List.flatten_append]
  · rw [hdelivered', hdelivered, List.append_assoc]

/-- A callback of the audio unit is a call of the session, and its answer goes to the ring. -/
theorem Captures.auhalInput (h : s.Captures i x) {inNumberFrames : Nat} {clock outputBuf : Nat → α}
    {rendered : Option (Nat → α)}
    (hstep : s.step api (.auhalInput inNumberFrames clock outputBuf rendered :
      HostEvent α R M C) = some s') :
    let ev : HostEvent α R M C := .auhalInput inNumberFrames clock outputBuf rendered
    ∃ y, s'.Captures i y ∧
      GoesOnTo x y (ev.feed api x.stream) ev.request (Device.sent (s.deviceOp api ev)) := by
  obtain ⟨ctx, hctx, hring, hengine⟩ := h.handle
  simp only [Host.step] at hstep
  split at hstep
  · rename_i hruns
    obtain ⟨au, hau, -⟩ := (Option.any_eq_true _ _).mp hruns
    cases hstep
    cases rendered with
    | none =>
      -- the render fails, and the callback does nothing
      refine ⟨x, ⟨⟨ctx, ?_, hring, hengine⟩, h.faithful⟩, ?_⟩
      · simp only [withManager, AudioManager.auhalInputCallback, hau, hctx]
      · simp only [deviceOp, AudioManager.captured, hau]
        exact .refl x
    | some input =>
      -- the times of the call come after those of the chunks before it
      let c : Call α := ⟨input, outputBuf, CaptureContext.framesToRender inNumberFrames⟩
      let clock' := fun k => clock (k - x.stream.input.length / DENOISE_FRAME_SIZE)
      have hclock : x.clockFrom clock' = clock := by
        funext k
        exact congrArg clock (Nat.add_sub_cancel_left _ k)
      -- at most 4096 frames, so no product wraps
      have hfits : c.Fits 2 := by
        have hle : c.numFrames ≤ CaptureContext.maxFrames := Nat.min_le_right _ _
        unfold CaptureContext.maxFrames at hle
        unfold Call.Fits
        omega
      obtain ⟨y, hcall⟩ : ∃ y, x.step api clock' (.processFrame c) = some y := ⟨_, rfl⟩
      obtain ⟨hfaithful, hstream⟩ := h.faithful.call hfits hcall
      obtain ⟨delivered, hanswered, hdelivered, hlevel⟩ := h.faithful.answered hfits hcall
      obtain ⟨hnext, -, -⟩ := Session.step_call hcall
      rw [Session.output, hclock] at hanswered
      rw [hclock] at hnext
      have hlive : ctx.engine.Live 2 := by
        rw [hengine]
        exact h.faithful.stream.live
      obtain ⟨hhandle, hcaptured⟩ := AudioManager.auhalInputCallback_live hctx hau hring hlive api
        inNumberFrames clock outputBuf input
      rw [hengine] at hhandle hcaptured
      refine ⟨y, ⟨⟨{ ctx with engine := y.engine }, ?_, hring, rfl⟩, hfaithful⟩, ?_, hlevel, _,
        delivered, hanswered.plays, ?_, hdelivered⟩
      · rw [hnext]
        exact hhandle
      · rw [hstream, Session.fedBy, map_frameMean]
        rfl
      · simp only [deviceOp, hcaptured]
        exact List.append_nil _
  · cases hstep

/-- Every event with which app and driver go on. -/
theorem Captures.step (h : s.Captures i x) {ev : HostEvent α R M C} (hev : ev.Streams)
    (hstep : s.step api ev = some s') :
    ∃ y, s'.Captures i y ∧
      GoesOnTo x y (ev.feed api x.stream) ev.request (Device.sent (s.deviceOp api ev)) := by
  cases ev with
  | auhalInput inNumberFrames clock outputBuf rendered => exact h.auhalInput hstep
  | defaultMode mode =>
    cases hstep
    exact ⟨x, ⟨h.handle, h.faithful⟩, .refl x⟩
  | onReadClientInput client bytesCount =>
    cases hstep
    exact ⟨x, ⟨h.handle, h.faithful⟩, .refl x⟩
  | app | pickMode | relaunch | onStart | onStop | driverRestart => cases hev

/-- All that the app sends over a run is what the session plays to the sizes of the calls. -/
theorem Captures.run {events : List (HostEvent α R M C)} (h : s.Captures i x)
    (hstreams : ∀ ev ∈ events, ev.Streams)
    (hrun : Machine.run (Host.step api) s events = some s') :
    ∃ y, s'.Captures i y ∧
      GoesOnTo x y (events.foldl (HostEvent.feed api) x.stream)
        (events.flatMap HostEvent.request) (Device.sent (s.deviceOps api events)) := by
  induction events generalizing s x with
  | nil =>
    cases hrun
    exact ⟨x, h, .refl x⟩
  | cons ev events ih =>
    obtain ⟨s₁, hstep, hrest⟩ := Machine.run_cons_some hrun
    obtain ⟨y, hy, hfirst⟩ := h.step (hstreams ev List.mem_cons_self) hstep
    obtain ⟨z, hz, hothers⟩ :=
      ih hy (fun ev' hev' => hstreams ev' (List.mem_cons_of_mem _ hev')) hrest
    rw [hfirst.stream] at hothers
    have hops : s.deviceOps api (ev :: events) = s.deviceOp api ev ++ s₁.deviceOps api events :=
      Machine.trace_cons hstep
    rw [List.foldl_cons, List.flatMap_cons, hops, Device.sent, List.flatMap_append]
    exact ⟨z, hz, hfirst.trans hothers⟩

end Host

/-! ## The start of a capture -/

/-- A `start` that leaves a live segment has made it, empty, and has started a session. -/
theorem AudioManager.Owns.starts {m : AudioManager α R M} {mode : NoiseMode} {launchedAt i : Nat}
    {held : Option Nat} {deviceID : Option AudioObjectID} {o : StartOutcome R M}
    (h : m.Owns mode launchedAt held) (hnone : m.buffer = none)
    (hlive : (m.start deviceID o).live = some i) :
    held ≠ some i ∧ ((m.start deviceID o).shm.segment i).header.writePos = 0 ∧
      ∃ ctx, ∃ e : Engine α R M, (m.start deviceID o).engineHandle = some ctx ∧
        ctx.ring = some i ∧ ctx.engine = (e.init ⟨48000, 2, 128⟩ o.created o.found).2 := by
  obtain ⟨ctx, hctx, -⟩ := h.engine
  have hbuffer : ctx.sharedBuffer = none := by
    rw [← hnone, buffer, hctx]
    rfl
  obtain ⟨hshm, hhandle⟩ := start_shm hctx deviceID o
  rw [NoiseEngineContext.shmCreate_of_none hbuffer] at hshm hhandle
  dsimp only at hshm hhandle
  -- the segment is the one that the constructor made
  have hring := hlive
  rw [live, buffer, hhandle, Option.bind_some] at hring
  have hsegment :
      (SharedRingBuffer.create m.shm shmName appCapacity 2 48000 o.sys).1.segment = some i := by
    split at hring
    · exact hring
    · exact hring
  have hvalid :
      (SharedRingBuffer.create m.shm shmName appCapacity 2 48000 o.sys).1.isValid = true := by
    rw [SharedRingBuffer.isValid, hsegment]
    rfl
  obtain ⟨hnew, -, hfresh⟩ :=
    SharedRingBuffer.create_valid m.shm shmName appCapacity 2 48000 o.sys hvalid
  obtain rfl : i = m.shm.created := Option.some.inj (hsegment.symm.trans hnew)
  rw [if_pos hvalid] at hhandle
  refine ⟨fun hheld => Nat.lt_irrefl _ (h.held _ hheld), ?_, _, ctx.engine, hhandle, hsegment, rfl⟩
  rw [hshm, hfresh]
  rfl

namespace Host

variable {api : Denoisers α R M} {s s' : Host α R M} {x : Session α R M} {i : Nat}

/-- An event that gives the app another live segment ends in a `start`. -/
theorem Inv.starts (h : s.Inv) (api : Denoisers α R M) {ev : AppEvent R M}
    {app : AppDelegate α R M} (hstep : s.app.step ev = some app)
    (hlive : app.audioManager.live = some i) (hnew : s.live ≠ some i) :
    ∃ m : AudioManager α R M, ∃ deviceID, m.Owns s.currentMode s.launchedAt s.io.segment ∧
      m.buffer = none ∧ app.audioManager = m.start deviceID ev.outcome := by
  rcases AppDelegate.step_cases hstep with ⟨d, rfl⟩ | ⟨d, deviceID, rfl⟩ | ⟨hwants, rfl⟩ |
    ⟨hwants, rfl⟩
  · exact absurd hlive hnew
  · -- a device is changed, while the app captures or while it does not
    rcases Bool.eq_false_or_eq_true s.app.audioManager.isProcessing with hon | hoff
    · have hset : ({ s.app.audioManager with currentDeviceID := deviceID } :
          AudioManager α R M).Owns s.currentMode s.launchedAt s.io.segment :=
        ⟨h.manager.engine, h.manager.creator, h.manager.processing, h.manager.memory,
          h.manager.held⟩
      obtain ⟨hstop, hnone⟩ := hset.stop api
      exact ⟨_, deviceID, hstop, hnone,
        AudioManager.switchDevice_of_processing hon deviceID ev.outcome⟩
    · simp only [AudioManager.switchDevice_of_idle hoff] at hlive
      exact absurd hlive hnew
  · exact ⟨_, _, h.manager, h.toggle hwants, rfl⟩
  · -- a toggle that is switched off has no live segment
    obtain ⟨-, hnone⟩ := h.manager.stop api
    simp only [AudioManager.live, hnone] at hlive
    cases hlive

end Host

/-! ## What the clients hear -/

namespace Host

variable {api : Denoisers α R M} {s t : Host α R M} {i : Nat}

/-- A capture from the start of its session on, with calls of one size or of at most 480 frames
    each. -/
theorem Captures.sent {e : Engine α R M} {format : AudioFormat} {created : Option R}
    {found : Option (LoadOutcome M)} (hinit : (e.init format created found).1 = true)
    (h : s.Captures i (Session.start (e.init format created found).2))
    {events : List (HostEvent α R M C)} (hstreams : ∀ ev ∈ events, ev.Streams)
    (hsizes : (∃ n, ∀ m ∈ events.flatMap HostEvent.request, m = n) ∨
      ∀ m ∈ events.flatMap HostEvent.request, m ≤ 480)
    (hrun : Machine.run (Host.step api) s events = some t) :
    let stream := events.foldl (HostEvent.feed api)
      (Session.start (e.init format created found).2).stream
    let silent := Prefill.lead 480 960 0 (events.flatMap HostEvent.request)
    Device.sent (s.deviceOps api events) = (List.replicate silent [0, 0] ++
      (stream.output.take (stream.input.length - silent)).map (toFrame 2)).flatten ∧
    silent ≤ stream.input.length ∧ stream.input.length - silent ≤ stream.output.length := by
  intro stream silent
  obtain ⟨y, hy, hgoes⟩ := h.run hstreams hrun
  obtain ⟨played, delivered, hplays, hsent, hdelivered⟩ := hgoes.plays
  rw [Session.level_start hinit] at hplays
  have hsize : 0 < 480 := by decide
  have hcushion : 2 * 480 ≤ 960 := by decide
  obtain ⟨hall, hcount⟩ : played = List.replicate silent [0, 0] ++ delivered ∧
      (events.flatMap HostEvent.request).sum = silent + delivered.length := by
    rcases hsizes with ⟨n, hsized⟩ | hsized
    · exact hplays.eq_of_before (Prefill.Regime.equal hsize hcushion n)
        ⟨Nat.zero_le _, fun _ => rfl⟩ (Prefill.Regime.equal hsize hcushion n).start (.start _ _)
        hsized
    · exact hplays.eq_of_before (Prefill.Regime.small hsize hcushion)
        ⟨Nat.zero_le _, fun _ => rfl⟩ (Prefill.Regime.small hsize hcushion).start (.start _ _)
        hsized
  -- the frames that went in are the silent ones and the delivered ones
  have hinput : stream.input.length = silent + delivered.length := by
    rw [← hcount, ← HostEvent.length_captured, HostEvent.input_feed, List.length_append,
      List.length_map]
    exact Nat.zero_add _
  have hlength : stream.input.length - silent = delivered.length := by omega
  have hall' : y.delivered = delivered := hdelivered
  have hstream : y.stream = stream := hgoes.stream
  refine ⟨?_, by omega, ?_⟩
  · rw [hsent, hall, hlength, ← hall', ← hstream, ← hy.faithful.delivered]
  · rw [hlength, ← hall', ← hstream]
    exact hy.faithful.stream.emitted_le

end Host

namespace Host

variable {api : Denoisers α R M} {s s' : Host α R M} {i : Nat}

/-- An event that gives the app another live segment starts a capture on it: the segment is empty,
    and the handler does not hold it. -/
theorem Inv.captures (h : s.Inv) {ev : AppEvent R M}
    (hstep : s.step api (.app ev : HostEvent α R M C) = some s')
    (hlive : s'.live = some i) (hstarts : s'.live ≠ s.live)
    (hcreated : ev.outcome.created.isSome = true) :
    s'.io.segment ≠ some i ∧ (s'.shm.segment i).header.writePos = 0 ∧ ∃ e : Engine α R M,
      (e.init ⟨48000, 2, 128⟩ ev.outcome.created ev.outcome.found).1 = true ∧
      s'.Captures i
        (Session.start (e.init ⟨48000, 2, 128⟩ ev.outcome.created ev.outcome.found).2) := by
  obtain ⟨app, happ, rfl⟩ := Option.map_eq_some_iff.mp hstep
  obtain ⟨m, deviceID, howns, hnone, hstart⟩ :=
    h.starts api happ hlive (fun hsame => hstarts (hlive.trans hsame.symm))
  rw [live, hstart] at hlive
  obtain ⟨hother, hzero, ctx, e, hhandle, hring, hengine⟩ := howns.starts hnone hlive
  rw [← hstart] at hzero hhandle
  have hinit : (e.init ⟨48000, 2, 128⟩ ev.outcome.created ev.outcome.found).1 = true := by
    obtain ⟨state, hstate⟩ := Option.isSome_iff_exists.mp hcreated
    rw [hstate, Engine.init_some]
  exact ⟨hother, hzero, e, hinit, ⟨ctx, hhandle, hring, hengine⟩, Session.Faithful.start hinit⟩

/-- What the clients hear of a ring that was empty is one piece of what is sent. -/
theorem Attaches.hears {events before after : List (HostEvent α R M C)} {client : C}
    {bytesCount : Nat} {u v : Host α R M}
    (h : Attaches api s i events before client bytesCount after u v) (hio : s.io.Inv)
    (hzero : (s.shm.segment i).header.writePos = 0) (hgoes : ∀ ev ∈ events, ev.GoesOn)
    {early late limit : Nat} (hroom : early + (late + limit - 1) ≤ appCapacity)
    (hpaced : Device.Paced early late limit (v.deviceOps api after))
    (hwrap : (Device.sent (s.deviceOps api events)).length < 2 ^ 64) :
    let heard := Observe.outputs Device.step Device.gets v.device (v.deviceOps api after)
    let silence := Observe.total Device.step Device.silence v.device (v.deviceOps api after)
    (∃ waiting, Device.sent (s.deviceOps api before) ++ heard ++ waiting =
      Device.sent (s.deviceOps api events)) ∧
    heard.length + silence = Device.requested (v.deviceOps api after) ∧
    silence ≤ late + limit - 1 := by
  have hwhole : Device.sent (s.deviceOps api before) ++ Device.sent (v.deviceOps api after) =
      Device.sent (s.deviceOps api events) := by
    rw [h.ops, Device.sent_append]
    rfl
  have hbefore : ∀ ev ∈ before, ev.GoesOn := by
    intro ev hev
    refine hgoes ev ?_
    rw [h.split]
    exact List.mem_append_left _ hev
  -- no more was written to the ring than was sent
  have hwritten := writePos_le hio hbefore h.reached i
  rw [hzero, Nat.zero_add] at hwritten
  rw [← hwhole, List.length_append] at hwrap
  have habsorbs := h.absorbs early late limit hroom hpaced
    (Nat.lt_of_le_of_lt (Nat.add_le_add_right hwritten _) hwrap)
  obtain ⟨waiting, hwaiting⟩ := habsorbs.received
  refine ⟨⟨waiting, ?_⟩, habsorbs.count, habsorbs.silence⟩
  rw [← hwhole, ← hwaiting, List.append_assoc]

end Host

/-- What is captured is heard. After any run, let an event start a capture: the toggle is switched
    on, or the device is changed while it is on. As long as app and driver go on as they are, in
    one mode, with callbacks of the audio unit that are all of one size or of at most 480 frames
    each, the app sends a number of silent frames and then the denoised stream of all that was
    captured, with nothing left out. One of the next 52 callbacks attaches the ring, and what the
    clients hear from there on is one piece of what is sent, next to less than `late + limit`
    samples of silence, if audio unit and clients are paced and fewer than `2 ^ 64` samples are
    sent. -/
theorem capture_reaches_client (api : Denoisers α R M) (savedUID defaultMode : Option String)
    (l : Launch R M) (before events : List (HostEvent α R M C)) (s s' t : Host α R M)
    (ev : AppEvent R M)
    (hrun : Machine.run (Host.step api) (.launch .empty savedUID defaultMode .new l) before =
      some s)
    (hstep : s.step api (.app ev : HostEvent α R M C) = some s')
    (hon : s'.app.audioManager.isProcessing = true) (hstarts : s'.live ≠ s.live)
    (hcreated : ev.outcome.created.isSome = true)
    (hnext : Machine.run (Host.step api) s' events = some t)
    (hstreams : ∀ ev ∈ events, ev.Streams)
    (hsizes : (∃ n, ∀ m ∈ events.flatMap HostEvent.request, m = n) ∨
      ∀ m ∈ events.flatMap HostEvent.request, m ≤ 480)
    (hlong : 52 ≤ events.countP HostEvent.isRead) :
    ∃ i ctx, s'.live = some i ∧ s'.app.audioManager.engineHandle = some ctx ∧
      let stream := events.foldl (HostEvent.feed api) (Session.start ctx.engine).stream
      let silent := Prefill.lead 480 960 0 (events.flatMap HostEvent.request)
      let sound := (List.replicate silent [0, 0] ++
        (stream.output.take (stream.input.length - silent)).map (toFrame 2)).flatten
      stream.input = (events.flatMap HostEvent.captured).map (mean 2) ∧
      silent ≤ 4574 ∧ silent ≤ stream.input.length ∧
      stream.input.length - silent ≤ stream.output.length ∧
      Device.sent (s'.deviceOps api events) = sound ∧
      ∃ first client bytesCount after u v,
        Host.Attaches api s' i events first client bytesCount after u v ∧
        ∀ early late limit, early + (late + limit - 1) ≤ appCapacity →
          Device.Paced early late limit (v.deviceOps api after) → sound.length < 2 ^ 64 →
          let heard := Observe.outputs Device.step Device.gets v.device (v.deviceOps api after)
          let silence := Observe.total Device.step Device.silence v.device (v.deviceOps api after)
          (∃ waiting, Device.sent (s'.deviceOps api first) ++ heard ++ waiting = sound) ∧
          heard.length + silence = Device.requested (v.deviceOps api after) ∧
          silence ≤ late + limit - 1 := by
  have hinv := (Host.inv_first api savedUID defaultMode l).run api hrun
  have hinv' := hinv.step api hstep
  obtain ⟨i, -, -, hlive, -, -⟩ := hinv'.running hon
  obtain ⟨hother, hzero, e, hinit, hcaptures⟩ := hinv.captures hstep hlive hstarts hcreated
  obtain ⟨ctx, hctx, -, hengine⟩ := hcaptures.handle
  obtain ⟨hsent, hsilent, hthere⟩ := hcaptures.sent hinit hstreams hsizes hnext
  have hengine' : ctx.engine =
      (e.init ⟨48000, 2, 128⟩ ev.outcome.created ev.outcome.found).2 := hengine
  rw [← hengine'] at hsent hsilent hthere
  have hgoes : ∀ ev ∈ events, ev.GoesOn := fun ev hev => (hstreams ev hev).goesOn
  obtain ⟨first, client, bytesCount, after, u, v, hattaches⟩ :=
    hinv'.attaches hlive hother hnext hgoes hlong
  refine ⟨i, ctx, hlive, hctx, HostEvent.input_feed api _ events, ?_, hsilent, hthere, hsent,
    first, client, bytesCount, after, u, v, hattaches, ?_⟩
  · have hle := Prefill.lead_le (show 0 < 480 by decide) (show 480 ∣ 960 by decide)
      (HostEvent.request_le events) 0
    unfold CaptureContext.maxFrames at hle
    omega
  · intro early late limit hroom hpaced hwrap
    rw [← hsent] at hwrap ⊢
    exact hattaches.hears hinv'.driver.inv.1 hzero hgoes hroom hpaced hwrap

/-- 52 turns of one frame, and three of 480 frames. -/
def spoken : List (HostEvent ℚ Unit Unit Unit) :=
  (List.replicate 52 (oneTurn 1) ++ List.replicate 3 (oneTurn 480)).flatten

/-- The sizes of the blocks that are sent. -/
def spokenSizes : List Nat := List.replicate 52 2 ++ List.replicate 3 960

/-- What was captured is sent after 532 silent frames. The three large turns come after the
    callback that attaches the ring, so the client hears at least 1921 samples in a row. -/
theorem capture_reaches_client_spoken :
    ∃ s' t ctx, plainHost.step identityDenoisers (.app (.toggle .ok) :
        HostEvent ℚ Unit Unit Unit) = some s' ∧
      Machine.run (Host.step identityDenoisers) s' spoken = some t ∧
      s'.app.audioManager.engineHandle = some ctx ∧
      (let stream :=
         spoken.foldl (HostEvent.feed identityDenoisers) (Session.start ctx.engine).stream
       Device.sent (s'.deviceOps identityDenoisers spoken) = (List.replicate 532 [0, 0] ++
         (stream.output.take (stream.input.length - 532)).map (toFrame 2)).flatten) ∧
      ∃ first client bytesCount after u v,
        Host.Attaches identityDenoisers s' 0 spoken first client bytesCount after u v ∧
        let heard := Observe.outputs Device.step Device.gets v.device
          (v.deviceOps identityDenoisers after)
        (∃ waiting, Device.sent (s'.deviceOps identityDenoisers first) ++ heard ++ waiting =
          Device.sent (s'.deviceOps identityDenoisers spoken)) ∧ 1921 ≤ heard.length := by
  obtain ⟨s', hstep, hon, hstarts, hlive, hshape, hsome⟩ :
      ∃ s', plainHost.step identityDenoisers (.app (.toggle .ok) :
          HostEvent ℚ Unit Unit Unit) = some s' ∧
        s'.app.audioManager.isProcessing = true ∧ s'.live ≠ plainHost.live ∧ s'.live = some 0 ∧
        (s'.deviceOps identityDenoisers spoken).map DeviceOp.shape =
          Device.inTurn () (spokenSizes.map fun size => List.replicate size ()) ∧
        (Machine.run (Host.step identityDenoisers) s' spoken).isSome = true :=
    ⟨_, rfl, by decide +kernel, by decide +kernel, by decide +kernel, by decide +kernel,
      by decide +kernel⟩
  obtain ⟨t, hnext⟩ := Option.isSome_iff_exists.mp hsome
  have hstreams : ∀ ev ∈ spoken, ev.Streams := by
    intro ev hev
    obtain ⟨turn, hturn, hev⟩ := List.mem_flatten.mp hev
    obtain ⟨numFrames, rfl⟩ : ∃ numFrames, turn = oneTurn numFrames := by
      obtain hturn | hturn := List.mem_append.mp hturn
      · exact ⟨1, List.eq_of_mem_replicate hturn⟩
      · exact ⟨480, List.eq_of_mem_replicate hturn⟩
    obtain rfl | hev := List.mem_cons.mp hev
    · trivial
    · rw [List.mem_singleton.mp hev]
      trivial
  obtain ⟨i, ctx, hi, hctx, -, -, -, -, hsent, first, client, bytesCount, after, u, v, hattaches,
      hhears⟩ :=
    capture_reaches_client identityDenoisers none none plainLaunch [] spoken plainHost s' t
      (.toggle .ok) rfl hstep hon hstarts rfl hnext hstreams (.inr (by decide)) (by decide)
  cases hlive.symm.trans hi
  -- app and client take turns, so what follows is paced
  obtain ⟨blocks, hops, hlengths⟩ := Device.exists_inTurn hshape
  have hsizes : blocks.map List.length = spokenSizes := by
    rw [hlengths, List.map_map]
    exact List.map_id'' (fun _ => List.length_replicate) _
  have hsplit := hattaches.ops
  rw [hops] at hsplit
  have hfew := hattaches.soon
  rw [← Host.callbacks_deviceOps hattaches.reached] at hfew
  obtain ⟨hpaced, hrequested, -⟩ :=
    Device.inTurn_after 960 hsizes (by decide) hsplit hfew
  have hsum : spokenSizes.sum = 2984 := by decide
  have hwrap : (Device.sent (s'.deviceOps identityDenoisers spoken)).length < 2 ^ 64 := by
    rw [hops, Device.sent_inTurn, List.length_flatten, hsizes, hsum]
    decide
  have hlead : Prefill.lead 480 960 0 (spoken.flatMap HostEvent.request) = 532 := by decide
  rw [hlead] at hsent hhears
  rw [← hsent] at hhears
  obtain ⟨hheard, hcount, hsilence⟩ := hhears 960 0 960 (by decide) hpaced hwrap
  have hlarge : (spokenSizes.drop 52).sum = 2880 := by decide
  exact ⟨s', t, ctx, hstep, hnext, hctx, hsent, first, client, bytesCount, after, u, v,
    hattaches, hheard, by omega⟩

end Noise
