import NoiseAI.Spec.DeviceFollows
import NoiseAI.Spec.HostSafety

/-!
# What the user has chosen

The selected microphone and the mode are kept twice, in the running app and in `UserDefaults`, and
a process can end at any time. The two copies of the selection are the same after every event
(`Host.Remembers`), and a launch starts in the mode that is saved (`Host.Saves`). So a choice
stays over any number of launches until something else is chosen, or until a list of devices
comes without the microphone (`choices_survive`).
-/

namespace Noise

variable {α R M C : Type} [Sample α]

/-! ## The modes in `UserDefaults` -/

theorem NoiseMode.ofRawValue_rawValue (mode : NoiseMode) :
    ofRawValue mode.rawValue = some mode := by
  cases mode <;> decide

namespace HostEvent

/-- A list of devices that the event brings contains `uid`, and no other device is chosen. -/
def KeepsDevice (uid : String) : HostEvent α R M C → Prop
  | .app (.refreshDevices hal _) => ∃ device ∈ hal.inputDevices, device.uid = uid
  | .app (.selectDevice uid' _) => uid' = uid
  | .relaunch _ l => ∃ device ∈ l.hal.inputDevices, device.uid = uid
  | _ => True

/-- A mode is chosen, in one of the two pickers. -/
def ChoosesMode : HostEvent α R M C → Prop
  | .pickMode _ | .defaultMode _ => True
  | _ => False

def IsRelaunch : HostEvent α R M C → Prop
  | .relaunch _ _ => True
  | _ => False

end HostEvent

/-! ## The microphone -/

namespace DeviceManager

variable {d : DeviceManager} {uid : String}

/-- The device is listed, selected and saved. -/
structure Remembers (uid : String) (d : DeviceManager) : Prop where
  listed : ∃ device ∈ d.inputDevices, device.uid = uid
  selected : d.selectedDeviceUID = some uid
  saved : d.savedUID = some uid

theorem Remembers.refreshDevices (h : d.Remembers uid) {hal : Hardware}
    (hlisted : ∃ device ∈ hal.inputDevices, device.uid = uid) :
    d.refreshDevices hal = ({ d with inputDevices := hal.inputDevices }, none) ∧
      ({ d with inputDevices := hal.inputDevices } : DeviceManager).Remembers uid := by
  refine ⟨?_, ⟨hlisted, h.selected, h.saved⟩⟩
  obtain ⟨-, heq⟩ | ⟨uid', hselected, hgone, -⟩ := d.refreshDevices_cases hal
  · exact heq
  · cases h.selected.symm.trans hselected
    exact absurd hlisted hgone

theorem remembers_selectDevice (hlisted : d.inputDevices.any (·.uid == uid) = true) :
    (d.selectDevice uid).1.Remembers uid :=
  ⟨any_uid_iff.mp hlisted, rfl, rfl⟩

/-- A launch selects the saved device if it is listed. -/
theorem remembers_new {hal : Hardware} (hlisted : ∃ device ∈ hal.inputDevices, device.uid = uid) :
    (new (some uid) hal).Remembers uid := by
  have hany := any_uid_iff.mpr hlisted
  unfold new
  simp only [DeviceManager.refreshDevices, restoreSelectedDevice, hany, if_true]
  exact ⟨hlisted, rfl, rfl⟩

/-- The device that is found by the selected uid. -/
theorem Remembers.selectedDeviceID (h : d.Remembers uid) :
    ∃ device ∈ d.inputDevices, device.uid = uid ∧ d.selectedDeviceID = some device.id := by
  obtain ⟨listed, hmem, huid⟩ := h.listed
  cases hfind : d.device uid with
  | none =>
    have hne := List.find?_eq_none.mp hfind listed hmem
    simp [huid] at hne
  | some device =>
    refine ⟨device, List.mem_of_find?_eq_some hfind, by simpa using List.find?_some hfind, ?_⟩
    unfold DeviceManager.selectedDeviceID
    rw [h.selected, Option.bind_some, hfind]
    rfl

end DeviceManager

namespace Host

variable {s s' : Host α R M} {api : Denoisers α R M} {uid : String} {mode : NoiseMode}

/-- The device is listed, selected and saved. -/
def Remembers (uid : String) (s : Host α R M) : Prop := s.app.deviceManager.Remembers uid

/-- A launch makes a new device manager, and gives its device to the audio manager. -/
theorem deviceManager_launch (shm : Shm α) (savedUID defaultMode : Option String) (io : IOHandler)
    (l : Launch R M) :
    (launch shm savedUID defaultMode io l).app.deviceManager = .new savedUID l.hal ∧
      (launch shm savedUID defaultMode io l).app.Follows := by
  have hfollows := AppDelegate.follows_launch shm l.created l.found l.bundled
    (.new savedUID l.hal) l.o
  unfold launch
  dsimp only
  split
  · exact ⟨rfl, hfollows⟩
  · exact ⟨rfl, hfollows⟩

/-- A device that the user chooses is remembered. -/
theorem remembers_selectDevice {o : StartOutcome R M}
    (hstep : s.step api (.app (.selectDevice uid o) : HostEvent α R M C) = some s') :
    s'.Remembers uid := by
  obtain ⟨app, happ, rfl⟩ := Option.map_eq_some_iff.mp hstep
  simp only [AppDelegate.step] at happ
  split at happ
  · rename_i hlisted
    cases happ
    have hselect := DeviceManager.remembers_selectDevice hlisted
    unfold Remembers AppDelegate.onDeviceSelectionChanged
    split
    · exact hselect
    · exact hselect
  · cases happ

/-- An event that lists the device, and chooses no other, keeps it selected and saved. -/
theorem Remembers.step (h : s.Remembers uid) {ev : HostEvent α R M C} (hkeeps : ev.KeepsDevice uid)
    (hstep : s.step api ev = some s') : s'.Remembers uid := by
  cases ev with
  | app ev =>
    have hevent := hstep
    obtain ⟨app, happ, rfl⟩ := Option.map_eq_some_iff.mp hstep
    cases ev with
    | refreshDevices hal o =>
      obtain ⟨heq, hnext⟩ := DeviceManager.Remembers.refreshDevices h hkeeps
      simp only [AppDelegate.step, heq] at happ
      split at happ
      · cases happ
        exact hnext
      · cases happ
    | selectDevice uid' o =>
      obtain rfl : uid' = uid := hkeeps
      exact remembers_selectDevice hevent
    | toggle o =>
      cases happ
      exact h
  | relaunch deinitialized l =>
    -- the new process restores the uid that was saved
    cases hstep
    unfold Remembers
    rw [(deviceManager_launch _ _ _ _ l).1, DeviceManager.Remembers.saved h]
    exact DeviceManager.remembers_new hkeeps
  | pickMode m =>
    simp only [Host.step] at hstep
    split at hstep
    · cases hstep
      exact h
    · cases hstep
      exact h
  | auhalInput inNumberFrames clock outputBuf rendered =>
    simp only [Host.step] at hstep
    split at hstep
    · cases hstep
      exact h
    · cases hstep
  | defaultMode | onStart | onStop | onReadClientInput | driverRestart =>
    cases hstep
    exact h

theorem Remembers.run (h : s.Remembers uid) {events : List (HostEvent α R M C)}
    (hkeeps : ∀ ev ∈ events, ev.KeepsDevice uid)
    (hrun : Machine.run (Host.step api) s events = some s') : s'.Remembers uid :=
  Machine.run_invariant (HostEvent.KeepsDevice uid) (Remembers uid)
    (fun _ _ _ hkeeps h hstep => h.step hkeeps hstep) h hkeeps hrun

/-! ## The mode -/

/-- The next launch starts in the mode. -/
def Saves (mode : NoiseMode) (s : Host α R M) : Prop := s.defaultMode = some mode.rawValue

/-- A launch starts in the mode that is saved. -/
theorem saves_launch (shm : Shm α) (savedUID : Option String) (io : IOHandler) (l : Launch R M)
    (mode : NoiseMode) :
    (launch shm savedUID (some mode.rawValue) io l).Saves mode ∧
      (launch shm savedUID (some mode.rawValue) io l).currentMode = mode := by
  unfold launch
  dsimp only
  rw [Option.getD_some, NoiseMode.ofRawValue_rawValue]
  exact ⟨rfl, rfl⟩

/-- While no mode is chosen, the saved one stays, and is the current one from a launch on. -/
theorem Saves.step (h : s.Saves mode) {ev : HostEvent α R M C} (hev : ¬ ev.ChoosesMode)
    (hstep : s.step api ev = some s') :
    s'.Saves mode ∧ (s.currentMode = mode ∨ ev.IsRelaunch → s'.currentMode = mode) := by
  cases ev with
  | app ev =>
    obtain ⟨app, happ, rfl⟩ := Option.map_eq_some_iff.mp hstep
    exact ⟨h, fun hmode => hmode.resolve_right id⟩
  | pickMode | defaultMode => exact absurd trivial hev
  | auhalInput inNumberFrames clock outputBuf rendered =>
    simp only [Host.step] at hstep
    split at hstep
    · cases hstep
      exact ⟨h, fun hmode => hmode.resolve_right id⟩
    · cases hstep
  | relaunch deinitialized l =>
    have hsaved : s.defaultMode = some mode.rawValue := h
    have hlaunch := saves_launch (if deinitialized then s.app.audioManager.deinit.shm else s.shm)
      s.app.deviceManager.savedUID s.io l mode
    cases hstep
    rw [hsaved]
    exact ⟨hlaunch.1, fun _ => hlaunch.2⟩
  | onStart | onStop | onReadClientInput | driverRestart =>
    cases hstep
    exact ⟨h, fun hmode => hmode.resolve_right id⟩

theorem Saves.run (h : s.Saves mode) {events : List (HostEvent α R M C)}
    (hevents : ∀ ev ∈ events, ¬ ev.ChoosesMode)
    (hrun : Machine.run (Host.step api) s events = some s')
    (hmode : s.currentMode = mode ∨ ∃ ev ∈ events, ev.IsRelaunch) : s'.currentMode = mode := by
  induction events generalizing s with
  | nil =>
    cases hrun
    exact hmode.resolve_right fun ⟨_, hev, _⟩ => List.not_mem_nil hev
  | cons ev events ih =>
    obtain ⟨s₁, hstep, hrest⟩ := Machine.run_cons_some hrun
    obtain ⟨hev, hevents⟩ := List.forall_mem_cons.mp hevents
    obtain ⟨hsaves, hnext⟩ := h.step hev hstep
    refine ih hsaves hevents hrest ?_
    rcases hmode with hmode | ⟨ev', hev', hrelaunch⟩
    · exact .inl (hnext (.inl hmode))
    · rcases List.mem_cons.mp hev' with rfl | hev'
      · exact .inl (hnext (.inr hrelaunch))
      · exact .inr ⟨ev', hev', hrelaunch⟩

end Host

/-- Over any number of launches: a microphone that the user chose stays selected as long as every
    list of devices has it and no other is chosen, and is the one that the app captures when it
    starts again. A mode that the user changed to stays until another is chosen, and one chosen as
    the default is the mode from the next launch on; the engine is in it. -/
theorem choices_survive (api : Denoisers α R M) (savedUID defaultMode : Option String)
    (l : Launch R M) (before after : List (HostEvent α R M C)) (ev : HostEvent α R M C)
    (s₀ s₁ s : Host α R M)
    (hbefore : Machine.run (Host.step api) (.launch .empty savedUID defaultMode .new l) before =
      some s₀)
    (hstep : s₀.step api ev = some s₁)
    (hafter : Machine.run (Host.step api) s₁ after = some s) :
    (∀ uid o, ev = .app (.selectDevice uid o) → (∀ ev ∈ after, ev.KeepsDevice uid) →
      ∃ device ∈ s.app.deviceManager.inputDevices, device.uid = uid ∧
        s.app.deviceManager.selectedDeviceUID = some uid ∧
        s.app.deviceManager.selectedDeviceID = some device.id ∧
        ∀ events ev', after = events ++ [ev'] → ev'.IsRelaunch →
          s.app.audioManager.currentDeviceID = some device.id) ∧
    ∀ mode, (∀ ev ∈ after, ¬ ev.ChoosesMode) →
      (ev = .pickMode mode ∧ s₀.currentMode ≠ mode ∨
        ev = .defaultMode mode ∧ ∃ ev ∈ after, ev.IsRelaunch) →
      s.currentMode = mode ∧
        ∃ ctx, s.app.audioManager.engineHandle = some ctx ∧ ctx.engine.mode = mode := by
  constructor
  · rintro uid o rfl hkeeps
    have hremembers := (Host.remembers_selectDevice hstep).run hkeeps hafter
    obtain ⟨device, hmem, huid, hid⟩ := DeviceManager.Remembers.selectedDeviceID hremembers
    refine ⟨device, hmem, huid, hremembers.selected, hid, ?_⟩
    rintro events ev' rfl hrelaunch
    -- a launch gives the selected device to the audio manager
    rw [Machine.run_append, Option.bind_eq_some_iff] at hafter
    obtain ⟨s₂, -, hlast⟩ := hafter
    obtain ⟨s₃, hlaunch, hnil⟩ := Machine.run_cons_some hlast
    cases hnil
    cases ev' with
    | relaunch deinitialized l' =>
      cases hlaunch
      have hfollows := (Host.deviceManager_launch
        (if deinitialized then s₂.app.audioManager.deinit.shm else s₂.shm)
        s₂.app.deviceManager.savedUID s₂.defaultMode s₂.io l').2
      exact hfollows.trans hid
    | app | pickMode | defaultMode | auhalInput | onStart | onStop | onReadClientInput
      | driverRestart => cases hrelaunch
  · intro mode hevents hchosen
    have hinv := (((Host.inv_first api savedUID defaultMode l).run api hbefore).step api hstep).run
      api hafter
    obtain ⟨ctx, hctx, hengine⟩ := hinv.manager.engine
    have hmode : s.currentMode = mode := by
      rcases hchosen with ⟨rfl, hother⟩ | ⟨rfl, hrelaunch⟩
      · simp only [Host.step, if_neg hother] at hstep
        cases hstep
        have hsaves : ({ s₀.setMode mode with defaultMode := some mode.rawValue } :
            Host α R M).Saves mode := rfl
        exact hsaves.run hevents hafter (.inl rfl)
      · cases hstep
        have hsaves : ({ s₀ with defaultMode := some mode.rawValue } : Host α R M).Saves mode := rfl
        exact hsaves.run hevents hafter (.inr hrelaunch)
    exact ⟨hmode, ctx, hctx, hengine.mode.trans hmode⟩

/-- A microphone beside the built-in one, which is the default. -/
def withUsbMic : Launch Unit Unit :=
  { plainLaunch with hal := { onlyBuiltIn with objects := [builtInMic, ⟨60, true, "USB", "usb"⟩] } }

/-- It is chosen, the app crashes, and the next one captures it. -/
theorem choices_survive_crash :
    ∃ s : Host ℚ Unit Unit, Machine.run (Host.step identityDenoisers)
        (.launch .empty none none .new withUsbMic)
        ([.app (.selectDevice "usb" .ok), .relaunch false withUsbMic] :
          List (HostEvent ℚ Unit Unit Unit)) = some s ∧
      s.app.deviceManager.selectedDeviceUID = some "usb" ∧
      ∃ device ∈ s.app.deviceManager.inputDevices, device.uid = "usb" ∧
        s.app.audioManager.currentDeviceID = some device.id := by
  let before : List (HostEvent ℚ Unit Unit Unit) := []
  let ev : HostEvent ℚ Unit Unit Unit := .app (.selectDevice "usb" .ok)
  let after : List (HostEvent ℚ Unit Unit Unit) := [.relaunch false withUsbMic]
  obtain ⟨s₁, hstep⟩ : ∃ s₁, Host.step identityDenoisers
    (.launch .empty none none .new withUsbMic) ev = some s₁ := ⟨_, rfl⟩
  obtain ⟨s, hrun⟩ : ∃ s, Machine.run (Host.step identityDenoisers) s₁ after = some s := ⟨_, rfl⟩
  have hkeeps : ∀ ev ∈ after, ev.KeepsDevice "usb" := by
    intro ev hev
    obtain rfl := List.mem_singleton.mp hev
    exact ⟨⟨60, "usb", "USB", false⟩, by decide, rfl⟩
  obtain ⟨hdevice, -⟩ := choices_survive identityDenoisers none none withUsbMic before after ev
    (.launch .empty none none .new withUsbMic) s₁ s rfl hstep hrun
  obtain ⟨device, hmem, huid, hselected, -, hcaptured⟩ := hdevice "usb" .ok rfl hkeeps
  refine ⟨s, ?_, hselected, device, hmem, huid, hcaptured [] _ rfl trivial⟩
  rw [Machine.run_cons, hstep]
  exact hrun

end Noise
