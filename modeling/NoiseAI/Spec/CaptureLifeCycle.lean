import NoiseAI.Native.AppDelegate
import NoiseAI.Spec.CapturePipeline
import Mathlib.Data.List.Induction

/-!
# The life cycle of audio units and contexts

What the app does to audio units, contexts, the engine and the shared buffer is the list of
calls of `AudioManager`. `Safe` says of such a list what must hold at every point of it.
`Watch` is an automaton that reads the calls one by one and gets stuck at a wrong one; what
it accepts is safe (`Watch.safe`). `capture_life_cycle` says that every run of the user
interface, up to the final `deinit`, is accepted.
-/

namespace Noise

/-! ## Lists of calls -/

/-- The call replaces, restarts or destroys what the capture callback uses. -/
def AudioCall.onEngine : AudioCall → Bool
  | .noiseShmCreate _ | .noiseShmDestroy | .noiseEngineStart _ | .noiseEngineStop
  | .noiseEngineDestroy => true
  | _ => false

/-- The audio units that exist after one more call. -/
def noteUnit (units : List Nat) : AudioCall → List Nat
  | .audioComponentInstanceNew (some unit) => units ++ [unit]
  | .audioComponentInstanceDispose unit => units.erase unit
  | _ => units

/-- `isProcessing` after one more call. -/
def noteProcessing (isProcessing : Bool) : AudioCall → Bool
  | .setProcessing p => p
  | _ => isProcessing

/-- Whether one more call ends inside `start`. -/
def noteStart (inside : Bool) : AudioCall → Bool
  | .startEntered => true
  | .startLeft => false
  | _ => inside

/-- The audio units that exist after the calls. -/
def undisposed (calls : List AudioCall) : List Nat := calls.foldl noteUnit []

/-- `isProcessing` after the calls. -/
def processingAfter (calls : List AudioCall) : Bool := calls.foldl noteProcessing false

/-- The calls end inside `start`. -/
def insideStart (calls : List AudioCall) : Bool := calls.foldl noteStart false

@[simp] theorem undisposed_snoc (calls : List AudioCall) (c : AudioCall) :
    undisposed (calls ++ [c]) = noteUnit (undisposed calls) c := by
  simp [undisposed]

@[simp] theorem processingAfter_snoc (calls : List AudioCall) (c : AudioCall) :
    processingAfter (calls ++ [c]) = noteProcessing (processingAfter calls) c := by
  simp [processingAfter]

@[simp] theorem insideStart_snoc (calls : List AudioCall) (c : AudioCall) :
    insideStart (calls ++ [c]) = noteStart (insideStart calls) c := by
  simp [insideStart]

/-- At every point of the calls there is at most one audio unit, it exists only while
    processing or inside `start`, nothing the callback uses is touched while it exists, and
    every context is retained once at most and never released more often. -/
structure Safe (calls : List AudioCall) : Prop where
  one_unit : ∀ before after, calls = before ++ after → (undisposed before).length ≤ 1
  unit_while : ∀ before after, calls = before ++ after → undisposed before ≠ [] →
    processingAfter before = true ∨ insideStart before = true
  no_unit : ∀ before c after, calls = before ++ c :: after → c.onEngine = true →
    undisposed before = []
  released : ∀ context before after, calls = before ++ after →
    before.count (.passRetained context) ≤ 1 ∧
      before.count (.release context) ≤ before.count (.passRetained context)

/-! ## An automaton that reads the calls -/

/-- What the automaton remembers of the calls it has read. -/
structure Watch where
  unit : Option Nat
  processing : Bool
  inside : Bool
  retained : Option Nat
  nextContext : Nat

namespace Watch

/-- Before any call. -/
def start : Watch where
  unit := none
  processing := false
  inside := false
  retained := none
  nextContext := 0

/-- Read one call. -/
def step (w : Watch) : AudioCall → Option Watch
  | .startEntered => some { w with inside := true }
  | .startLeft =>
    if w.unit.isSome && !w.processing then none else some { w with inside := false }
  | .setProcessing p =>
    if w.unit.isSome && !p && !w.inside then none else some { w with processing := p }
  | .audioComponentInstanceNew (some unit) =>
    if w.unit.isNone && w.inside then some { w with unit := some unit } else none
  | .audioComponentInstanceDispose unit =>
    if w.unit = some unit then some { w with unit := none } else none
  | .passRetained context =>
    if w.retained.isNone && context == w.nextContext then
      some { w with retained := some context, nextContext := context + 1 }
    else none
  | .release context =>
    if w.retained = some context then some { w with retained := none } else none
  | .noiseShmCreate _ | .noiseShmDestroy | .noiseEngineStart _ | .noiseEngineStop
  | .noiseEngineDestroy => if w.unit.isSome then none else some w
  | .audioComponentFindNext _ | .audioComponentInstanceNew none | .audioUnitInitialize _ _
  | .audioOutputUnitStart _ _ | .audioOutputUnitStop _ => some w

/-- The automaton has read `calls` and remembers them right. -/
structure Tracks (w : Watch) (calls : List AudioCall) : Prop where
  unit : undisposed calls = w.unit.toList
  processing : processingAfter calls = w.processing
  inside : insideStart calls = w.inside
  unit_while : w.unit.isSome = true → w.processing = true ∨ w.inside = true
  passRetained : ∀ context,
    calls.count (.passRetained context) = if context < w.nextContext then 1 else 0
  release : ∀ context, calls.count (.release context) =
    if context < w.nextContext ∧ w.retained ≠ some context then 1 else 0
  retained_lt : ∀ context, w.retained = some context → context < w.nextContext

theorem tracks_start : start.Tracks [] := by
  constructor <;> simp [start, undisposed, processingAfter, Noise.insideStart]

variable {w w' : Watch} {calls : List AudioCall} {c : AudioCall}

/-- A call that is about no context. -/
theorem Tracks.other (h : w.Tracks calls) (hpass : ∀ context, c ≠ .passRetained context)
    (hrelease : ∀ context, c ≠ .release context)
    (hsame : w'.retained = w.retained ∧ w'.nextContext = w.nextContext)
    (hunit : noteUnit w.unit.toList c = w'.unit.toList)
    (hprocessing : noteProcessing w.processing c = w'.processing)
    (hinside : noteStart w.inside c = w'.inside)
    (hwhile : w'.unit.isSome = true → w'.processing = true ∨ w'.inside = true) :
    w'.Tracks (calls ++ [c]) where
  unit := by rw [undisposed_snoc, h.unit, hunit]
  processing := by rw [processingAfter_snoc, h.processing, hprocessing]
  inside := by rw [insideStart_snoc, h.inside, hinside]
  unit_while := hwhile
  passRetained := by
    intro context
    have hzero : [c].count (.passRetained context) = 0 := by simp [hpass context]
    rw [List.count_append, hzero, h.passRetained, hsame.2, Nat.add_zero]
  release := by
    intro context
    have hzero : [c].count (.release context) = 0 := by simp [hrelease context]
    rw [List.count_append, hzero, h.release, hsame.1, hsame.2, Nat.add_zero]
  retained_lt := by
    rw [hsame.1, hsame.2]
    exact h.retained_lt

/-- A context is retained: the next one. -/
theorem Tracks.pass (h : w.Tracks calls) (hnone : w.retained = none) :
    Tracks { w with retained := some w.nextContext, nextContext := w.nextContext + 1 }
      (calls ++ [.passRetained w.nextContext]) where
  unit := by rw [undisposed_snoc, h.unit]; rfl
  processing := by rw [processingAfter_snoc, h.processing]; rfl
  inside := by rw [insideStart_snoc, h.inside]; rfl
  unit_while := h.unit_while
  passRetained := by
    intro context
    rw [List.count_append, h.passRetained]
    by_cases hnew : context = w.nextContext
    · subst hnew
      simp
    · have hzero : [AudioCall.passRetained w.nextContext].count (.passRetained context) = 0 := by
        simp [Ne.symm hnew]
      rw [hzero]
      dsimp only
      split <;> split <;> omega
  release := by
    intro context
    rw [List.count_append, h.release]
    simp only [hnone, List.count_singleton]
    split <;> split <;> simp_all <;> omega
  retained_lt := by
    intro context hcontext
    cases hcontext
    exact Nat.lt_succ_self _

/-- The retained context is released. -/
theorem Tracks.released (h : w.Tracks calls) {context : Nat} (hsome : w.retained = some context) :
    Tracks { w with retained := none } (calls ++ [.release context]) where
  unit := by rw [undisposed_snoc, h.unit]; rfl
  processing := by rw [processingAfter_snoc, h.processing]; rfl
  inside := by rw [insideStart_snoc, h.inside]; rfl
  unit_while := h.unit_while
  passRetained := by
    intro k
    rw [List.count_append, h.passRetained]
    simp
  release := by
    intro k
    have hlt := h.retained_lt context hsome
    rw [List.count_append, h.release, hsome]
    by_cases hk : k = context
    · subst hk
      simp [hlt]
    · simp [Ne.symm hk]
  retained_lt := fun _ hcontext => nomatch hcontext

/-- The automaton reads one more call. -/
theorem Tracks.step (h : w.Tracks calls) (hstep : w.step c = some w') :
    w'.Tracks (calls ++ [c]) := by
  cases c with
  | startEntered =>
    cases hstep
    exact h.other nofun nofun ⟨rfl, rfl⟩ rfl rfl rfl fun _ => .inr rfl
  | startLeft =>
    simp only [Watch.step] at hstep
    split at hstep
    · exact nomatch hstep
    · rename_i hrunning
      cases hstep
      refine h.other nofun nofun ⟨rfl, rfl⟩ rfl rfl rfl ?_
      -- `start` must not leave a unit behind unless it runs
      intro hunit
      left
      simpa [hunit] using hrunning
  | setProcessing p =>
    simp only [Watch.step] at hstep
    split at hstep
    · exact nomatch hstep
    · rename_i hallowed
      cases hstep
      refine h.other nofun nofun ⟨rfl, rfl⟩ rfl rfl rfl ?_
      intro hunit
      cases p with
      | true => exact .inl rfl
      | false => exact .inr (by simpa [hunit] using hallowed)
  | audioComponentInstanceNew unit =>
    cases unit with
    | none =>
      cases hstep
      exact h.other nofun nofun ⟨rfl, rfl⟩ rfl rfl rfl h.unit_while
    | some unit =>
      simp only [Watch.step] at hstep
      split at hstep
      · rename_i hallowed
        rw [Bool.and_eq_true, Option.isNone_iff_eq_none] at hallowed
        cases hstep
        refine h.other nofun nofun ⟨rfl, rfl⟩ ?_ rfl rfl fun _ => .inr hallowed.2
        rw [hallowed.1]
        rfl
      · exact nomatch hstep
  | audioComponentInstanceDispose unit =>
    simp only [Watch.step] at hstep
    split at hstep
    · rename_i hunit
      cases hstep
      refine h.other nofun nofun ⟨rfl, rfl⟩ ?_ rfl rfl fun hnone => nomatch hnone
      simp [hunit, noteUnit]
    · exact nomatch hstep
  | passRetained context =>
    simp only [Watch.step] at hstep
    split at hstep
    · rename_i hallowed
      rw [Bool.and_eq_true, Option.isNone_iff_eq_none, beq_iff_eq] at hallowed
      obtain ⟨hnone, rfl⟩ := hallowed
      cases hstep
      exact h.pass hnone
    · exact nomatch hstep
  | release context =>
    simp only [Watch.step] at hstep
    split at hstep
    · rename_i hsome
      cases hstep
      exact h.released hsome
    · exact nomatch hstep
  | noiseShmCreate _ | noiseShmDestroy | noiseEngineStart _ | noiseEngineStop
  | noiseEngineDestroy =>
    simp only [Watch.step] at hstep
    split at hstep
    · exact nomatch hstep
    · cases hstep
      exact h.other nofun nofun ⟨rfl, rfl⟩ rfl rfl rfl h.unit_while
  | audioComponentFindNext _ | audioUnitInitialize _ _ | audioOutputUnitStart _ _
  | audioOutputUnitStop _ =>
    cases hstep
    exact h.other nofun nofun ⟨rfl, rfl⟩ rfl rfl rfl h.unit_while

/-- The automaton remembers what it has read. -/
theorem tracks_run (h : Machine.run Watch.step start calls = some w) : w.Tracks calls := by
  induction calls using List.reverseRecOn generalizing w with
  | nil =>
    cases h
    exact tracks_start
  | append_singleton calls c ih =>
    rw [Machine.run_append] at h
    obtain ⟨w₁, hw₁, hlast⟩ := Option.bind_eq_some_iff.mp h
    obtain ⟨w₂, hstep, hend⟩ := Machine.run_cons_some hlast
    cases hend
    exact (ih hw₁).step hstep

/-- What the automaton accepts is safe. -/
theorem safe_run (h : Machine.run Watch.step start calls = some w) : Safe calls := by
  have hpart : ∀ before after, calls = before ++ after →
      ∃ w₁, Machine.run Watch.step start before = some w₁ ∧
        Machine.run Watch.step w₁ after = some w := by
    intro before after hsplit
    rw [hsplit, Machine.run_append] at h
    exact Option.bind_eq_some_iff.mp h
  constructor
  · intro before after hsplit
    obtain ⟨w₁, hw₁, _⟩ := hpart before after hsplit
    rw [(tracks_run hw₁).unit]
    cases w₁.unit <;> simp
  · intro before after hsplit hunit
    obtain ⟨w₁, hw₁, _⟩ := hpart before after hsplit
    have htracks := tracks_run hw₁
    rw [htracks.processing, htracks.inside]
    apply htracks.unit_while
    rw [htracks.unit] at hunit
    cases hnone : w₁.unit with
    | none => exact absurd (by rw [hnone]; rfl) hunit
    | some unit => rfl
  · intro before c after hsplit hengine
    obtain ⟨w₁, hw₁, hrest⟩ := hpart before (c :: after) hsplit
    obtain ⟨w₂, hstep, _⟩ := Machine.run_cons_some hrest
    rw [(tracks_run hw₁).unit]
    cases hunit : w₁.unit with
    | none => rfl
    | some unit =>
      -- the automaton does not read a call on the engine while there is a unit
      cases c <;> simp [AudioCall.onEngine] at hengine <;>
        simp [Watch.step, hunit] at hstep
  · intro context before after hsplit
    obtain ⟨w₁, hw₁, _⟩ := hpart before after hsplit
    have htracks := tracks_run hw₁
    rw [htracks.passRetained, htracks.release]
    split <;> split <;> simp_all

end Watch

/-! ## The calls of the manager -/

variable {α R M : Type} [Sample α]

namespace AudioManager

variable {m m' : AudioManager α R M}

/-- What the automaton should remember of the calls of a manager outside `start`. -/
def watch (m : AudioManager α R M) : Watch where
  unit := m.captureContext.bind (·.audioUnit)
  processing := m.isProcessing
  inside := false
  retained := m.retainedContext
  nextContext := m.nextContext

/-- The automaton accepts the calls so far, and without processing there is no context. -/
structure Watched (m : AudioManager α R M) : Prop where
  handle : m.engineHandle.isSome = true
  accepts : Machine.run Watch.step Watch.start m.log = some m.watch
  idle : m.isProcessing = false → m.captureContext = none ∧ m.retainedContext = none

omit [Sample α] in
/-- The automaton reads on. -/
theorem Watched.read {w : Watch} {calls : List AudioCall} (h : m.Watched)
    (hcalls : Machine.run Watch.step m.watch calls = some w) :
    Machine.run Watch.step Watch.start (m.log ++ calls) = some w := by
  rw [Machine.run_append, h.accepts]
  exact hcalls

omit [Sample α] in
/-- The automaton accepts what `setupAudioUnit` does inside `start`. -/
theorem run_setupCalls (o : StartOutcome R M) (unit : Nat) (w : Watch)
    (hunit : w.unit = none) (hinside : w.inside = true) (hretained : w.retained = none) :
    Machine.run Watch.step w (o.setupCalls unit w.nextContext) =
      some (if o.makesUnit then
        { w with
          unit := some unit
          retained := some w.nextContext
          nextContext := w.nextContext + 1 }
      else w) := by
  obtain ⟨sys, created, found, findNext, instanceNew, initialized, started⟩ := o
  simp only [StartOutcome.setupCalls, StartOutcome.makesUnit]
  cases findNext with
  | false => rfl
  | true =>
    cases instanceNew with
    | false => rfl
    | true =>
      cases initialized <;>
        simp [Machine.run, Watch.step, hunit, hinside, hretained]

theorem Watched.start (h : m.Watched) (hidle : m.isProcessing = false)
    (deviceID : Option AudioObjectID) (o : StartOutcome R M) : (m.start deviceID o).Watched := by
  obtain ⟨ctx, hctx⟩ := Option.isSome_iff_exists.mp h.handle
  obtain ⟨hcontext, hretained⟩ := h.idle hidle
  have hstarted := started_start hctx deviceID o
  have hunit : m.watch.unit = none := by simp [watch, hcontext]
  refine ⟨hstarted.engineHandle, ?_, ?_⟩
  · rw [hstarted.log]
    apply h.read
    unfold StartOutcome.startCalls
    cases hcreates : o.sys.creates with
    | false =>
      simp [Machine.run, Watch.step, watch, hstarted.captureContext, hstarted.isProcessing,
        hstarted.retainedContext, hstarted.nextContext, hcreates, hcontext, hretained]
    | true =>
      -- the calls before `setupAudioUnit`, those it makes, and the end of `start`
      have hbefore : Machine.run Watch.step m.watch
          [.startEntered, .noiseShmCreate true, .noiseEngineStart o.created.isSome] =
            some { m.watch with inside := true } := by
        simp [Machine.run, Watch.step, hunit]
      have hsetup := run_setupCalls o m.nextUnit { m.watch with inside := true } hunit rfl hretained
      rw [if_pos rfl]
      refine Machine.run_trans (Machine.run_trans hbefore hsetup) ?_
      cases hmakes : o.makesUnit <;>
        simp [Machine.run, Watch.step, watch, hstarted.captureContext, hstarted.isProcessing,
          hstarted.retainedContext, hstarted.nextContext, hcreates, hmakes, hcontext, hretained]
  · -- `start` leaves processing off only where it made no unit
    intro hnot
    have hcreates : o.sys.creates = false := hstarted.isProcessing.symm.trans hnot
    simp [hstarted.captureContext, hstarted.retainedContext, hcreates, hcontext, hretained]

omit [Sample α] in
/-- The automaton accepts what `stop` does. -/
theorem run_stopCalls (m : AudioManager α R M) :
    Machine.run Watch.step m.watch m.stopCalls =
      some { unit := none, processing := false, inside := false, retained := none
             nextContext := m.nextContext } := by
  unfold stopCalls
  cases hunit : m.captureContext.bind (·.audioUnit) with
  | none =>
    cases hretained : m.retainedContext <;>
      simp [Machine.run, Watch.step, watch, hunit, hretained]
  | some au =>
    cases hretained : m.retainedContext <;>
      simp [Machine.run, Watch.step, watch, hunit, hretained]

theorem Watched.stop (h : m.Watched) : m.stop.Watched := by
  obtain ⟨ctx, hctx⟩ := Option.isSome_iff_exists.mp h.handle
  have hstopped := stopped_stop hctx
  refine ⟨hstopped.engineHandle, ?_, fun _ => ⟨hstopped.captureContext, hstopped.retainedContext⟩⟩
  rw [hstopped.log, h.read m.run_stopCalls]
  simp [watch, hstopped.captureContext, hstopped.isProcessing, hstopped.retainedContext,
    hstopped.nextContext]

theorem Watched.switchDevice (h : m.Watched) (deviceID : Option AudioObjectID)
    (o : StartOutcome R M) : (m.switchDevice deviceID o).Watched := by
  have hset : ({ m with currentDeviceID := deviceID } : AudioManager α R M).Watched :=
    ⟨h.handle, h.accepts, h.idle⟩
  rcases Bool.eq_false_or_eq_true m.isProcessing with hprocessing | hprocessing
  · rw [switchDevice_of_processing hprocessing]
    exact hset.stop.start rfl deviceID o
  · rw [switchDevice_of_idle hprocessing]
    exact hset

theorem watched_new (shm : Shm α) (created : Option R) (found : Option (LoadOutcome M))
    (bundled : Option (Option (LoadOutcome M))) : (new shm created found bundled).Watched where
  handle := rfl
  accepts := rfl
  idle := fun _ => ⟨rfl, rfl⟩

/-- `deinit` stops, and then destroys the engine. -/
theorem log_deinit (h : m.Watched) : m.deinit.log = m.stop.log ++ [.noiseEngineDestroy] := by
  obtain ⟨ctx, hctx⟩ := Option.isSome_iff_exists.mp h.stop.handle
  simp [AudioManager.deinit, hctx, call]

/-- After `deinit` there is neither a unit nor a retained context. -/
theorem Watched.deinit (h : m.Watched) :
    ∃ w, Machine.run Watch.step Watch.start m.deinit.log = some w ∧ w.unit = none ∧
      w.retained = none := by
  have hstop := h.stop
  obtain ⟨hcontext, hretained⟩ := hstop.idle rfl
  refine ⟨m.stop.watch, ?_, by simp [watch, hcontext], hretained⟩
  rw [log_deinit h]
  apply hstop.read
  simp [Machine.run, Watch.step, watch, hcontext]

end AudioManager

/-! ## Runs of the user interface -/

/-- What the user interface does to the manager: the toggle changes, or the device is
    switched, by the user or because devices come and go. -/
inductive CaptureEvent (R M : Type) where
  | toggle (deviceID : Option AudioObjectID) (o : StartOutcome R M)
  | switchDevice (deviceID : Option AudioObjectID) (o : StartOutcome R M)

/-- The manager and the toggle. -/
structure CaptureUi (α R M : Type) where
  manager : AudioManager α R M
  wantsProcessing : Bool

namespace CaptureUi

variable {s s' : CaptureUi α R M}

def step (s : CaptureUi α R M) : CaptureEvent R M → Option (CaptureUi α R M)
  | .toggle deviceID o =>
    some
      { manager := s.manager.onChange (!s.wantsProcessing) deviceID o
        wantsProcessing := !s.wantsProcessing }
  | .switchDevice deviceID o => some { s with manager := s.manager.switchDevice deviceID o }

/-- Capture runs only while the toggle is on. -/
structure Inv (s : CaptureUi α R M) : Prop where
  watched : s.manager.Watched
  idle : s.wantsProcessing = false → s.manager.isProcessing = false

theorem Inv.step {ev : CaptureEvent R M} (h : s.Inv) (hstep : s.step ev = some s') : s'.Inv := by
  cases ev with
  | toggle deviceID o =>
    cases hstep
    cases hwants : s.wantsProcessing with
    | false =>
      -- `start` has no guard of its own: the toggle was off, so nothing runs yet
      exact ⟨h.watched.start (h.idle hwants) deviceID o, fun hoff => nomatch hoff⟩
    | true => exact ⟨h.watched.stop, fun _ => rfl⟩
  | switchDevice deviceID o =>
    cases hstep
    refine ⟨h.watched.switchDevice deviceID o, ?_⟩
    intro hoff
    have hidle := h.idle hoff
    show (s.manager.switchDevice deviceID o).isProcessing = false
    rw [AudioManager.switchDevice_of_idle hidle]
    exact hidle

theorem Inv.run {events : List (CaptureEvent R M)} (h : s.Inv)
    (hrun : Machine.run CaptureUi.step s events = some s') : s'.Inv :=
  Machine.run_invariant (fun _ => True) Inv (fun _ _ _ _ h hstep => h.step hstep) h
    (fun _ _ => trivial) hrun

end CaptureUi

/-- Whatever the user interface does and whatever its calls return, everything the app does
    up to the final `deinit` is safe: there is never a second audio unit, a unit exists only
    while processing or inside `start`, and while it exists nothing the capture callback uses
    is touched. In the end every context that was retained has been released once. -/
theorem capture_life_cycle (shm : Shm α) (created : Option R) (found : Option (LoadOutcome M))
    (bundled : Option (Option (LoadOutcome M))) (events : List (CaptureEvent R M))
    (s : CaptureUi α R M)
    (hrun : Machine.run CaptureUi.step
      { manager := .new shm created found bundled, wantsProcessing := false } events = some s) :
    Safe s.manager.deinit.log ∧
      (∀ context, .passRetained context ∈ s.manager.deinit.log →
        s.manager.deinit.log.count (.release context) = 1) ∧
      undisposed s.manager.deinit.log = [] ∧
      s.manager.log <+: s.manager.deinit.log := by
  have hstart : ({ manager := .new shm created found bundled, wantsProcessing := false } :
      CaptureUi α R M).Inv := ⟨AudioManager.watched_new shm created found bundled, fun _ => rfl⟩
  have hinv := hstart.run hrun
  obtain ⟨w, hw, hunit, hretained⟩ := hinv.watched.deinit
  obtain ⟨ctx, hctx⟩ := Option.isSome_iff_exists.mp hinv.watched.handle
  have htracks := Watch.tracks_run hw
  refine ⟨Watch.safe_run hw, ?_, ?_, ?_⟩
  · -- contexts are numbered, and the one that is held is released by `deinit`
    intro context hmem
    have hpositive := List.count_pos_iff.mpr hmem
    rw [htracks.passRetained] at hpositive
    rw [htracks.release, hretained]
    by_cases hlt : context < w.nextContext
    · rw [if_pos ⟨hlt, nofun⟩]
    · rw [if_neg hlt] at hpositive
      exact absurd hpositive (Nat.lt_irrefl 0)
  · rw [htracks.unit, hunit]
    rfl
  · rw [AudioManager.log_deinit hinv.watched, (AudioManager.stopped_stop hctx).log,
      List.append_assoc]
    exact List.prefix_append _ _

/-- The toggle goes on while no audio unit can be initialised, the device is switched, and
    the app ends. -/
theorem capture_life_cycle_switch :
    ∃ s : CaptureUi ℚ Unit Unit,
      Machine.run CaptureUi.step { manager := plainManager, wantsProcessing := false }
        [.toggle none { StartOutcome.ok with audioUnitInitialize := false },
          .switchDevice (some 7) .ok] = some s ∧
      Safe s.manager.deinit.log ∧ undisposed s.manager.deinit.log = [] := by
  obtain ⟨s, hrun⟩ : ∃ s : CaptureUi ℚ Unit Unit,
      Machine.run CaptureUi.step { manager := plainManager, wantsProcessing := false }
        [.toggle none { StartOutcome.ok with audioUnitInitialize := false },
          .switchDevice (some 7) .ok] = some s := ⟨_, rfl⟩
  have h := capture_life_cycle .empty (some ()) none none _ s hrun
  exact ⟨s, hrun, h.1, h.2.2.1⟩

end Noise
