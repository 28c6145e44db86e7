import NoiseAI.Spec.HostSafety

/-!
# The toggle reaches the driver

An app that shows it is active, and a driver that still holds whatever it did: `Host.device` is
what the two of them are to each other, the ring of the app and the handler. The events between
them are the blocks that the audio unit brings and the callbacks of the clients (`Host.deviceOps`);
the events of the host go through to them (`Host.device_step`), and so does what is known of the
device: within 52 callbacks the handler is attached to the ring of the app.
-/

namespace Noise

variable {α R M C : Type}

namespace HostEvent

/-- A callback of a client. -/
def isRead : HostEvent α R M C → Bool
  | .onReadClientInput _ _ => true
  | _ => false

/-- The app and the driver go on as they are: nothing is started, stopped or switched. -/
def GoesOn : HostEvent α R M C → Prop
  | .pickMode _ | .defaultMode _ | .auhalInput .. | .onReadClientInput _ _ => True
  | _ => False

end HostEvent

variable [Sample α]

/-- The block that `auhalInputCallback` offers to the ring. -/
def AudioManager.captured (api : Denoisers α R M) (m : AudioManager α R M) (inNumberFrames : Nat)
    (clock outputBuf : Nat → α) (rendered : Option (Nat → α)) : Option (List α) :=
  match m.captureContext.bind (·.audioUnit), rendered, m.engineHandle with
  | some _, some input, some ctx =>
    (ctx.processBlock api clock outputBuf input
      (CaptureContext.framesToRender inNumberFrames)).1.map Prod.snd
  | _, _, _ => none

namespace Host

variable {s s' : Host α R M} {api : Denoisers α R M}

/-- The ring of the app, and the handler. -/
def device (s : Host α R M) : Device α where
  shm := s.shm
  producer := s.app.audioManager.buffer.getD ⟨none, 0, true, shmName⟩
  io := s.io

/-- What an event is to the device. -/
def deviceOp (api : Denoisers α R M) (s : Host α R M) :
    HostEvent α R M C → List (DeviceOp C α)
  | .auhalInput inNumberFrames clock outputBuf rendered =>
    ((s.app.audioManager.captured api inNumberFrames clock outputBuf rendered).map
      DeviceOp.write).toList
  | .onReadClientInput client bytesCount => [.read client bytesCount]
  | _ => []

/-- What a run is to the device. -/
def deviceOps (api : Denoisers α R M) : Host α R M → List (HostEvent α R M C) →
    List (DeviceOp C α) :=
  Machine.trace (Host.step api) (deviceOp api)

theorem length_deviceOp (s : Host α R M) (ev : HostEvent α R M C) :
    (s.deviceOp api ev).length ≤ 1 := by
  cases ev with
  | auhalInput inNumberFrames clock outputBuf rendered => exact Option.length_toList_le
  | onReadClientInput client bytesCount => exact Nat.le_refl 1
  | _ => exact Nat.zero_le 1

theorem countP_deviceOp (s : Host α R M) (ev : HostEvent α R M C) :
    (s.deviceOp api ev).countP DeviceOp.isRead = if ev.isRead then 1 else 0 := by
  cases ev with
  | auhalInput inNumberFrames clock outputBuf rendered =>
    simp only [deviceOp]
    cases s.app.audioManager.captured api inNumberFrames clock outputBuf rendered with
    | none => rfl
    | some data => rfl
  | _ => rfl

/-- Only a callback of a client is one to the device. -/
theorem eq_of_deviceOp_read {ev : HostEvent α R M C} {client : C} {bytesCount : Nat}
    (h : s.deviceOp api ev = [.read client bytesCount]) :
    ev = .onReadClientInput client bytesCount := by
  cases ev with
  | auhalInput inNumberFrames clock outputBuf rendered =>
    simp only [deviceOp] at h
    cases hcaptured : s.app.audioManager.captured api inNumberFrames clock outputBuf rendered with
    | none =>
      rw [hcaptured] at h
      exact nomatch h
    | some data =>
      rw [hcaptured] at h
      exact nomatch h
  | onReadClientInput client' bytesCount' =>
    cases h
    rfl
  | app | pickMode | defaultMode | relaunch | onStart | onStop | driverRestart =>
    exact nomatch h

/-- A block of the audio unit goes to the ring of the app. -/
theorem device_auhalInput (inNumberFrames : Nat) (clock outputBuf : Nat → α)
    (rendered : Option (Nat → α)) :
    (s.withManager (s.app.audioManager.auhalInputCallback api inNumberFrames clock outputBuf
        rendered)).device =
      (s.deviceOp api (.auhalInput inNumberFrames clock outputBuf rendered :
        HostEvent α R M C)).foldl Device.step s.device := by
  unfold deviceOp AudioManager.captured AudioManager.auhalInputCallback
  cases s.app.audioManager.captureContext.bind (·.audioUnit) with
  | none => rfl
  | some au =>
    cases rendered with
    | none => rfl
    | some input =>
      cases hctx : s.app.audioManager.engineHandle with
      | none => simp only [Option.map_none, Option.toList_none, List.foldl_nil]; rfl
      | some ctx =>
        obtain ⟨hbuffer, hring, -⟩ := ctx.processBlock_spec api clock outputBuf input
          (CaptureContext.framesToRender inNumberFrames)
        simp only [NoiseEngineContext.processAndWrite_block]
        generalize ctx.processBlock api clock outputBuf input
          (CaptureContext.framesToRender inNumberFrames) = r at *
        obtain ⟨block, ctx', output⟩ := r
        dsimp only at hbuffer hring ⊢
        have hsame : s.app.audioManager.buffer = ctx.sharedBuffer := by
          rw [AudioManager.buffer, hctx]
          rfl
        cases block with
        | none =>
          simp only [Option.elim_none, Option.map_none, Option.toList_none, List.foldl_nil, device,
            withManager, shm, AudioManager.buffer, Option.bind_some, hbuffer, hctx]
        | some b =>
          -- the ring is that of the buffer, so the buffer is there
          obtain ⟨buffer, hb, hseg⟩ := Option.bind_eq_some_iff.mp (hring b rfl)
          simp only [Option.elim_some, Option.map_some, Option.toList_some, List.foldl_cons,
            List.foldl_nil, device, withManager, shm, AudioManager.buffer, Option.bind_some,
            hbuffer, hctx, hb, Option.getD_some, Device.step, Device.write,
            SharedRingBuffer.write, hseg]

/-- What goes on at the host goes on at the device. -/
theorem device_step {ev : HostEvent α R M C} (hgoes : ev.GoesOn)
    (hstep : s.step api ev = some s') :
    s'.device = (s.deviceOp api ev).foldl Device.step s.device := by
  have hmode : ∀ mode, (s.setMode mode).device = s.device := by
    intro mode
    simp only [device, setMode, withManager, shm, AudioManager.setMode, AudioManager.buffer]
    cases s.app.audioManager.engineHandle with
    | none => rfl
    | some ctx => rfl
  -- only callbacks of the audio unit and of clients are operations of the device
  cases ev with
  | pickMode mode =>
    simp only [Host.step] at hstep
    split at hstep
    · cases hstep
      rfl
    · cases hstep
      exact hmode mode
  | defaultMode mode =>
    cases hstep
    rfl
  | auhalInput inNumberFrames clock outputBuf rendered =>
    simp only [Host.step] at hstep
    split at hstep
    · cases hstep
      exact device_auhalInput inNumberFrames clock outputBuf rendered
    · cases hstep
  | onReadClientInput client bytesCount =>
    cases hstep
    rfl
  | app | relaunch | onStart | onStop | driverRestart => cases hgoes

/-- The device of an app that shows it is active is running. -/
theorem Inv.running (h : s.Inv) (hon : s.app.audioManager.isProcessing = true) :
    ∃ i fill hb, s.live = some i ∧ s.device.Running i fill hb ∧ hb < 2 ^ 64 := by
  have hlive : s.live.isSome = true := h.manager.processing.symm.trans hon
  obtain ⟨i, hi⟩ := Option.isSome_iff_exists.mp hlive
  obtain ⟨-, -, fill, hb, hserves, hbeat⟩ := h.manager.memory.serves i hi
  obtain ⟨b, hbuffer, hseg⟩ := Option.bind_eq_some_iff.mp hi
  refine ⟨i, fill, hb, hi, ⟨?_, hserves⟩, hbeat⟩
  simp only [device, hbuffer, Option.getD_some]
  exact hseg

/-- A run is seen by the device as the operations that it is to it. -/
theorem device_run {events : List (HostEvent α R M C)} (hgoes : ∀ ev ∈ events, ev.GoesOn)
    (hrun : Machine.run (Host.step api) s events = some s') :
    s'.device = (s.deviceOps api events).foldl Device.step s.device :=
  Machine.run_simulates (fun _ _ _ hok hstep => Host.device_step hok hstep) hgoes hrun

/-- No more is written to a ring than the app sends. -/
theorem writePos_le {events : List (HostEvent α R M C)} (hio : s.io.Inv)
    (hgoes : ∀ ev ∈ events, ev.GoesOn) (hrun : Machine.run (Host.step api) s events = some s')
    (i : Nat) : (s'.shm.segment i).header.writePos ≤
      (s.shm.segment i).header.writePos + (Device.sent (s.deviceOps api events)).length := by
  have hwritten := Device.writePos_le (s := s.device) hio (s.deviceOps api events) i
  rw [← device_run hgoes hrun] at hwritten
  exact hwritten

/-- A callback of the host in a run is one of the device in what the run is to it. -/
theorem deviceOps_split {u v : Host α R M} {before after : List (HostEvent α R M C)} {client : C}
    {bytesCount : Nat} (hu : Machine.run (Host.step api) s before = some u)
    (hv : u.step api (.onReadClientInput client bytesCount : HostEvent α R M C) = some v) :
    s.deviceOps api (before ++ .onReadClientInput client bytesCount :: after) =
      s.deviceOps api before ++ .read client bytesCount :: v.deviceOps api after := by
  rw [deviceOps, Machine.trace_append hu, Machine.trace_cons hv]
  rfl

theorem callbacks_deviceOps {events : List (HostEvent α R M C)}
    (hrun : Machine.run (Host.step api) s events = some s') :
    Device.callbacks (s.deviceOps api events) = events.countP HostEvent.isRead :=
  Machine.countP_trace (fun s ev => s.countP_deviceOp ev) hrun

/-- A callback that attaches the ring `i`, among `events` that go on from `s`: it is one of the
    next 52, and from there on the ring absorbs the jitter of what is paced. -/
structure Attaches (api : Denoisers α R M) (s : Host α R M) (i : Nat)
    (events before : List (HostEvent α R M C)) (client : C) (bytesCount : Nat)
    (after : List (HostEvent α R M C)) (u v : Host α R M) : Prop where
  split : events = before ++ .onReadClientInput client bytesCount :: after
  soon : before.countP HostEvent.isRead < 52
  reached : Machine.run (Host.step api) s before = some u
  callback : u.step api (.onReadClientInput client bytesCount : HostEvent α R M C) = some v
  ops : s.deviceOps api events =
    s.deviceOps api before ++ .read client bytesCount :: v.deviceOps api after
  attached : v.io.segment = some i
  absorbs : ∀ early late limit, early + (late + limit - 1) ≤ appCapacity →
    Device.Paced early late limit (v.deviceOps api after) →
    (u.shm.segment i).header.writePos + (Device.sent (v.deviceOps api after)).length < 2 ^ 64 →
    v.device.Absorbs late limit (v.deviceOps api after)

/-- An app that shows it is active, and a driver that does not hold its ring. -/
theorem Inv.attaches {i : Nat} {t : Host α R M} {events : List (HostEvent α R M C)} (h : s.Inv)
    (hlive : s.live = some i) (hother : s.io.segment ≠ some i)
    (hnext : Machine.run (Host.step api) s events = some t) (hgoes : ∀ ev ∈ events, ev.GoesOn)
    (hlong : 52 ≤ events.countP HostEvent.isRead) :
    ∃ before client bytesCount after u v,
      Attaches api s i events before client bytesCount after u v := by
  obtain ⟨i', fill, hb, hlive', hrunning, hbeat⟩ :=
    h.running (h.manager.processing.trans (congrArg Option.isSome hlive))
  cases hlive.symm.trans hlive'
  obtain ⟨hinv, hcountdown⟩ := h.driver.inv
  have hdetached : s.device.Detached i :=
    ⟨⟨fill, hb, hrunning, hbeat⟩, hinv, hcountdown, hother⟩
  -- the device recovers; its callback is one of the host
  rw [← callbacks_deviceOps hnext] at hlong
  obtain ⟨p', client, bytesCount, q', hsplit, hfew, hattached, habsorbs⟩ :=
    hdetached.recovers hlong
  obtain ⟨p, ev, q, u, v, rfl, hu, hv, -, hp, hop, hq⟩ :=
    Machine.trace_split (fun s ev => s.length_deviceOp ev) hnext hsplit
  change s.deviceOps api p = p' at hp
  change v.deviceOps api q = q' at hq
  subst hp hq
  have hview : u.device = (s.deviceOps api p).foldl Device.step s.device :=
    device_run (fun ev hev => hgoes ev (List.mem_append_left _ hev)) hu
  obtain rfl := eq_of_deviceOp_read hop
  have hafter : v.device = (u.device.read bytesCount).2 := by
    rw [device_step (hgoes _ (List.mem_append_right _ List.mem_cons_self)) hv]
    rfl
  rw [← hview, ← hafter] at hattached
  refine ⟨p, client, bytesCount, q, u, v, rfl, ?_, hu, hv, hsplit, hattached, ?_⟩
  · rw [← callbacks_deviceOps hu]
    exact hfew
  · intro early late limit hroom hpaced hwrap
    rw [← hview, ← hafter] at habsorbs
    exact habsorbs early late limit hroom hpaced hwrap

end Host

/-- The toggle reaches the driver. After any run that ends with an app that shows it is active,
    whatever the driver holds: as long as the two go on as they are, one of the next 52 callbacks
    attaches the ring of the app, unless the handler holds it already, and from there on the ring
    absorbs the jitter of the audio unit and the clients, if these are paced and fewer than
    `2 ^ 64` samples are written to the ring. -/
theorem toggle_reaches_driver (api : Denoisers α R M) (savedUID defaultMode : Option String)
    (l : Launch R M) (before events : List (HostEvent α R M C)) (s t : Host α R M)
    (hrun : Machine.run (Host.step api) (.launch .empty savedUID defaultMode .new l) before =
      some s)
    (hon : s.app.audioManager.isProcessing = true)
    (hnext : Machine.run (Host.step api) s events = some t) (hgoes : ∀ ev ∈ events, ev.GoesOn)
    (hlong : 52 ≤ events.countP HostEvent.isRead) :
    ∃ i, s.live = some i ∧ (s.io.segment = some i ∨
      ∃ p client bytesCount q u v, events = p ++ .onReadClientInput client bytesCount :: q ∧
        p.countP HostEvent.isRead < 52 ∧ Machine.run (Host.step api) s p = some u ∧
        u.step api (.onReadClientInput client bytesCount : HostEvent α R M C) = some v ∧
        v.io.segment = some i ∧
        ∀ early late limit, early + (late + limit - 1) ≤ appCapacity →
          Device.Paced early late limit (v.deviceOps api q) →
          (u.shm.segment i).header.writePos + (Device.sent (v.deviceOps api q)).length < 2 ^ 64 →
          v.device.Absorbs late limit (v.deviceOps api q)) := by
  have hinv := (Host.inv_first api savedUID defaultMode l).run api hrun
  obtain ⟨i, -, -, hlive, -, -⟩ := hinv.running hon
  refine ⟨i, hlive, ?_⟩
  by_cases hheld : s.io.segment = some i
  · exact .inl hheld
  · obtain ⟨p, client, bytesCount, q, u, v, h⟩ :=
      hinv.attaches hlive hheld hnext hgoes hlong
    exact .inr ⟨p, client, bytesCount, q, u, v, h.split, h.soon, h.reached, h.callback, h.attached,
      h.absorbs⟩

/-- The app is toggled on, off and on again, with a client that started before. -/
def toggledTwice : List (HostEvent ℚ Unit Unit Unit) :=
  [.onStart, .app (.toggle .ok), .onReadClientInput () 8, .app (.toggle .ok),
    .app (.toggle .ok)]

/-- A callback of the audio unit, and one of a client that takes as many frames. -/
def oneTurn (numFrames : Nat) : List (HostEvent ℚ Unit Unit Unit) :=
  [.auhalInput numFrames (fun _ => 0) (fun _ => 0) (some fun _ => 1),
    .onReadClientInput () (8 * numFrames)]

def frameByFrame : List (HostEvent ℚ Unit Unit Unit) := (List.replicate 60 (oneTurn 1)).flatten

/-- The handler attaches the second ring of the app, and of the eight frames or more that follow
    the client gets all but half a frame. -/
theorem toggle_reaches_driver_toggledTwice :
    ∃ s p q v bytesCount,
      Machine.run (Host.step identityDenoisers) plainHost toggledTwice = some s ∧
      frameByFrame = p ++ .onReadClientInput () bytesCount :: q ∧
      p.countP HostEvent.isRead < 52 ∧
      Machine.run (Host.step identityDenoisers) s
        (p ++ [(.onReadClientInput () bytesCount : HostEvent ℚ Unit Unit Unit)]) = some v ∧
      v.io.segment = some 1 ∧ v.device.Absorbs 0 2 (v.deviceOps identityDenoisers q) ∧
      15 ≤ (Observe.outputs Device.step Device.gets v.device
        (v.deviceOps identityDenoisers q)).length := by
  obtain ⟨s, hrun, hon, hlive, hother, hzero, hops, hsome⟩ :
      ∃ s, Machine.run (Host.step identityDenoisers) plainHost toggledTwice = some s ∧
        s.app.audioManager.isProcessing = true ∧ s.live = some 1 ∧ s.io.segment ≠ some 1 ∧
        (s.shm.segment 1).header.writePos = 0 ∧
        s.deviceOps identityDenoisers frameByFrame =
          Device.inTurn () (List.replicate 60 [0, 0]) ∧
        (Machine.run (Host.step identityDenoisers) s frameByFrame).isSome = true :=
    ⟨_, rfl, by decide +kernel, by decide +kernel, by decide +kernel, by decide +kernel,
      by decide +kernel, by decide +kernel⟩
  obtain ⟨t, hnext⟩ := Option.isSome_iff_exists.mp hsome
  have hinv := (Host.inv_first identityDenoisers none none plainLaunch).run identityDenoisers hrun
  have hgoes : ∀ ev ∈ frameByFrame, ev.GoesOn := by
    intro ev hev
    obtain ⟨turn, hturn, hev⟩ := List.mem_flatten.mp hev
    rw [List.eq_of_mem_replicate hturn] at hev
    obtain rfl | hev := List.mem_cons.mp hev
    · trivial
    · rw [List.mem_singleton.mp hev]
      trivial
  obtain ⟨i, hi, hreaches⟩ := toggle_reaches_driver identityDenoisers none none plainLaunch
    toggledTwice _ s t hrun hon hnext hgoes (by decide)
  cases hlive.symm.trans hi
  rcases hreaches with hheld | ⟨p, client, bytesCount, q, u, v, hsplit, hfew, hu, hv, hattached,
    habsorbs⟩
  · exact absurd hheld hother
  · -- what follows the callback is paced, and the ring has room for it
    have hsplit' := hops.symm
    rw [hsplit, Host.deviceOps_split hu hv] at hsplit'
    have hfew' := hfew
    rw [← Host.callbacks_deviceOps hu] at hfew'
    obtain ⟨hpaced, hrequested, hsent⟩ :=
      Device.inTurn_after 2 (List.map_replicate ..) (by decide) hsplit' hfew'
    have hwrap : (u.shm.segment 1).header.writePos +
        (Device.sent (v.deviceOps identityDenoisers q)).length < 2 ^ 64 := by
      have hwritten := Host.writePos_le hinv.driver.inv.1
        (fun ev hev => hgoes ev (hsplit ▸ List.mem_append_left _ hev)) hu 1
      have hframes : (List.replicate 60 [(0 : ℚ), 0].length).sum = 120 := rfl
      omega
    have hall := habsorbs 2 0 2 (by decide) hpaced hwrap
    refine ⟨s, p, q, v, bytesCount, hrun, hsplit, hfew, ?_, hattached, hall, ?_⟩
    · refine Machine.run_trans hu ?_
      rw [Machine.run_cons, hv]
      rfl
    · -- sixteen samples are asked for at least, and one is missing at most
      have hmany : 16 ≤ Device.requested (v.deviceOps identityDenoisers q) := hrequested
      have hheard := hall.requested_le
      omega

end Noise
