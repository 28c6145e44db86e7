import NoiseAI.ForStd.Machine
import NoiseAI.Native.Bridge

/-!
# What the shared-memory name refers to

`noise_shm_create` constructs the new buffer before it destroys the old one, and the
destructor of every creator unlinks the one global name, whatever it refers to by then.
`Publication` is the app's process with the handle and the segment of the last successful
create (`owner`), as long as the buffer of that handle lives. `published_iff` says for
which sequences of calls the name refers to the owner's segment throughout;
`create_twice_unpublishes` is the shortest one for which it does not.
-/

namespace Noise

variable {α R M : Type} [Sample α]

/-! ## The constructor and the destructor -/

/-- The system calls that creating a segment makes all succeed. -/
def SysCalls.creates (sys : SysCalls) : Bool := sys.shmOpen && sys.ftruncate && sys.mmap

namespace SharedRingBuffer

variable (m : Shm α) (name : String) (capacity channels sampleRate : Nat) (sys : SysCalls)

omit [Sample α] in
variable [Zero α] in
/-- A creator knows its name, and after its constructor the name refers to what it has
    mapped: a new segment, or none if the constructor failed. -/
theorem create_spec :
    let r := create m name capacity channels sampleRate sys
    r.1.isCreator = true ∧ r.1.shmName = name ∧
      r.1.segment = (if sys.creates then some m.created else none) ∧
      r.2.names name = r.1.segment := by
  obtain ⟨shmOpen, ftruncate, fstat, mmap⟩ := sys
  cases shmOpen with
  | false => simp [create, SysCalls.creates, Shm.unlink]
  | true =>
    cases ftruncate with
    | false => simp [create, SysCalls.creates, Shm.unlink, Shm.openCreate]
    | true =>
      cases mmap with
      | false => simp [create, SysCalls.creates, Shm.unlink, Shm.openCreate, Shm.modify]
      | true =>
        simp [create, SysCalls.creates, Shm.unlink, Shm.openCreate, Shm.modify, Shm.modifyHeader]

omit [Sample α] in
variable [Zero α] in
/-- A constructor succeeds when its system calls do. -/
theorem isValid_create :
    (create m name capacity channels sampleRate sys).1.isValid = sys.creates := by
  obtain ⟨_, _, hsegment, _⟩ := create_spec m name capacity channels sampleRate sys
  unfold isValid
  rw [hsegment]
  cases sys.creates <;> rfl

omit [Sample α] in
variable [Zero α] in
/-- A constructor that succeeds has made a new segment, sized for the capacity it was given,
    with a fresh header and zeros. -/
theorem create_valid (h : (create m name capacity channels sampleRate sys).1.isValid = true) :
    let r := create m name capacity channels sampleRate sys
    r.1.segment = some m.created ∧ r.2.created = m.created + 1 ∧ r.2.segment m.created =
      { size := u64 (sizeofHeader + capacity * sizeofFloat)
        header := .create capacity channels sampleRate
        data := fun _ => 0 } := by
  rw [isValid_create] at h
  obtain ⟨shmOpen, ftruncate, fstat, mmap⟩ := sys
  simp only [SysCalls.creates, Bool.and_eq_true] at h
  obtain ⟨⟨rfl, rfl⟩, rfl⟩ := h
  simp only [create, Shm.unlink, Shm.openCreate, Shm.modify, Shm.modifyHeader,
    Function.update_self, Bool.not_true, Bool.false_eq_true, if_false, true_and]
  rfl

omit [Sample α] in
variable {m} in
/-- The destructor of a creator unlinks its name. -/
theorem destroy_names {b : SharedRingBuffer} (h : b.isCreator = true) :
    (b.destroy m).names b.shmName = none := by
  simp only [destroy, h, if_true]
  exact Function.update_self ..

end SharedRingBuffer

/-! ## Sequences of calls -/

inductive ShmOp where
  | shmCreate (handle : Option Nat) (sampleRate channels : Nat) (sys : SysCalls)
  | shmDestroy (handle : Option Nat)
  | engineDestroy (handle : Option Nat)

/-- The process, and the handle and segment of the last create that returned 1. -/
structure Publication (α R M : Type) where
  bridge : Bridge α R M
  owner : Option (Nat × Nat)

namespace Publication

variable {s s' : Publication α R M}

/-- The owner, unless the buffer of `handle` was its own. -/
def ownerBut (s : Publication α R M) (handle : Option Nat) : Option (Nat × Nat) :=
  s.owner.filter fun o => handle != some o.1

/-- The segment `handle` has mapped, if any. -/
def mapped (b : Bridge α R M) (handle : Option Nat) : Option (Nat × Nat) := do
  let h ← handle
  let buffer ← b.sharedBuffer h
  let i ← buffer.segment
  return (h, i)

def step (s : Publication α R M) : ShmOp → Option (Publication α R M)
  | .shmCreate handle sampleRate channels sys =>
    (s.bridge.noiseShmCreate sampleRate channels sys handle).map fun (ok, b) =>
      { bridge := b, owner := if ok then mapped b handle else s.ownerBut handle }
  | .shmDestroy handle =>
    (s.bridge.noiseShmDestroy handle).map fun b =>
      { bridge := b, owner := s.ownerBut handle }
  | .engineDestroy handle =>
    (s.bridge.noiseEngineDestroy handle).map fun b =>
      { bridge := b, owner := s.ownerBut handle }

/-- The name refers to the segment the owner has mapped. -/
def Published (s : Publication α R M) : Prop :=
  ∀ h i, s.owner = some (h, i) →
    s.bridge.shm.names shmName = some i ∧
      ∃ b, s.bridge.sharedBuffer h = some b ∧ b.segment = some i

/-- Ending the buffer of `h` does not unlink the name of another handle's segment: there is
    no buffer, or `h` is the owner, or there is no owner. -/
def Releases (s : Publication α R M) (h : Nat) : Prop :=
  s.bridge.sharedBuffer h = none ∨ ∀ o, s.owner = some o → o.1 = h

/-- The calls that keep the name: a create that succeeds is on a handle without a buffer; a
    create that fails is on the owner, or there is none; so is the end of a buffer. -/
def Keeps (s : Publication α R M) : ShmOp → Prop
  | .shmCreate none _ _ _ => True
  | .shmCreate (some h) _ _ sys =>
    if sys.creates then s.bridge.sharedBuffer h = none else ∀ o, s.owner = some o → o.1 = h
  | .shmDestroy none => True
  | .shmDestroy (some h) => s.Releases h
  | .engineDestroy none => True
  | .engineDestroy (some h) => s.Releases h

/-- Every buffer of the process was constructed by `noise_shm_create`. -/
def Created (b : Bridge α R M) : Prop :=
  ∀ h buffer, b.sharedBuffer h = some buffer →
    buffer.isCreator = true ∧ buffer.shmName = shmName

end Publication

/-! ## What the bridge calls do to the name -/

namespace Bridge

variable {b b' : Bridge α R M} {h : Nat}

omit [Sample α] in
theorem sharedBuffer_update (b : Bridge α R M) (m : Shm α) (h k : Nat)
    (ctx : Option (NoiseEngineContext α R M)) :
    ({ b with shm := m, contexts := Function.update b.contexts h ctx } : Bridge α R M).sharedBuffer
      k = if k = h then ctx.bind (·.sharedBuffer) else b.sharedBuffer k := by
  unfold sharedBuffer
  by_cases hk : k = h
  · rw [if_pos hk, hk]
    simp only [Function.update_self]
  · rw [if_neg hk]
    simp only [Function.update_of_ne hk]

omit [Sample α] in
theorem resetSharedBuffer_names (hcreated : Publication.Created b)
    {ctx : NoiseEngineContext α R M} (hctx : b.contexts h = some ctx) (m : Shm α) :
    (ctx.resetSharedBuffer m).2.names shmName =
      if b.sharedBuffer h = none then m.names shmName else none := by
  have hbuffer : b.sharedBuffer h = ctx.sharedBuffer := by
    unfold sharedBuffer
    rw [hctx]
    rfl
  cases hb : ctx.sharedBuffer with
  | none =>
    rw [hbuffer, hb, if_pos rfl]
    simp only [NoiseEngineContext.resetSharedBuffer, hb]
  -- the destructor of a creator unlinks the name, whichever segment has it now
  | some buffer =>
    obtain ⟨hcreator, hname⟩ := hcreated h buffer (by rw [hbuffer, hb])
    rw [hbuffer, hb, if_neg (by simp)]
    simp only [NoiseEngineContext.resetSharedBuffer, hb]
    rw [← hname]
    exact SharedRingBuffer.destroy_names hcreator

/-- What `noise_shm_create` does. -/
theorem noiseShmCreate_spec (hcreated : Publication.Created b) {sampleRate channels : Nat}
    {sys : SysCalls} {ok : Bool}
    (hcall : b.noiseShmCreate sampleRate channels sys (some h) = some (ok, b')) :
    ok = sys.creates ∧
      ∃ buffer, buffer.isCreator = true ∧ buffer.shmName = shmName ∧
        buffer.segment = (if sys.creates then some b.shm.created else none) ∧
        (∀ k, b'.sharedBuffer k = if k = h then some buffer else b.sharedBuffer k) ∧
        b'.shm.names shmName = if b.sharedBuffer h = none then buffer.segment else none := by
  cases hctx : b.contexts h with
  | none =>
    simp only [noiseShmCreate, hctx] at hcall
    exact nomatch hcall
  -- the new segment takes the name first; the old buffer ends after that
  | some ctx =>
    simp only [noiseShmCreate, hctx, Option.map_some, Option.some.injEq, Prod.mk.injEq] at hcall
    obtain ⟨hok, hb⟩ := hcall
    obtain ⟨hcreator, hname, hsegment, hnames⟩ := SharedRingBuffer.create_spec b.shm shmName
      (NoiseEngineContext.shmCapacity sampleRate channels) channels sampleRate sys
    refine ⟨?_, _, hcreator, hname, hsegment, ?_, ?_⟩
    · rw [← hok]
      simp only [NoiseEngineContext.shmCreate, SharedRingBuffer.isValid, hsegment]
      cases sys.creates with
      | true => rfl
      | false => rfl
    · intro k
      rw [← hb]
      exact sharedBuffer_update ..
    · rw [← hb, ← hnames]
      exact resetSharedBuffer_names hcreated hctx _

omit [Sample α] in
/-- What ending a buffer does: `noise_shm_destroy` and `noise_engine_destroy`. -/
theorem release_spec (hcreated : Publication.Created b)
    (hcall : b.noiseShmDestroy (some h) = some b' ∨ b.noiseEngineDestroy (some h) = some b') :
    (∀ k, b'.sharedBuffer k = if k = h then none else b.sharedBuffer k) ∧
      b'.shm.names shmName = if b.sharedBuffer h = none then b.shm.names shmName else none := by
  cases hctx : b.contexts h with
  | none =>
    simp only [noiseShmDestroy, noiseEngineDestroy, hctx] at hcall
    rcases hcall with hcall | hcall
    · exact nomatch hcall
    · exact nomatch hcall
  | some ctx =>
    -- with or without a buffer, none is left
    have hcleared : (ctx.resetSharedBuffer b.shm).1.sharedBuffer = none := by
      unfold NoiseEngineContext.resetSharedBuffer
      split
      · assumption
      · rfl
    simp only [noiseShmDestroy, noiseEngineDestroy, hctx, Option.map_some, Option.some.injEq]
      at hcall
    rcases hcall with rfl | rfl
    · constructor
      · intro k
        rw [sharedBuffer_update]
        simp only [NoiseEngineContext.shmDestroy, Option.bind_some, hcleared]
      · exact resetSharedBuffer_names hcreated hctx b.shm
    · constructor
      · intro k
        rw [sharedBuffer_update]
        rfl
      · exact resetSharedBuffer_names hcreated hctx b.shm

end Bridge

/-! ## Steps and runs -/

namespace Publication

variable {s s' : Publication α R M} {op : ShmOp} {h : Nat}

omit [Sample α] in
theorem ownerBut_eq_some {o : Nat × Nat} :
    s.ownerBut (some h) = some o ↔ s.owner = some o ∧ o.1 ≠ h := by
  unfold ownerBut
  rw [Option.filter_eq_some_iff]
  apply and_congr_right
  intro _
  rw [bne_iff_ne, ne_comm]
  exact not_congr Option.some_inj

omit [Sample α] in
theorem ownerBut_none : s.ownerBut none = s.owner := by
  unfold ownerBut
  cases s.owner with
  | none => rfl
  | some o => rfl

omit [Sample α] in
/-- Once nothing has the name, it is kept only if there is no owner left. -/
theorem published_iff_of_unlinked (hnames : s'.bridge.shm.names shmName = none)
    (howner : s'.owner = s.ownerBut (some h)) :
    s'.Published ↔ ∀ o, s.owner = some o → o.1 = h := by
  constructor
  · intro hp o ho
    by_cases heq : o.1 = h
    · exact heq
    · -- an owner of another handle stays, and its name is gone
      have hstays : s'.owner = some o := by
        rw [howner, ownerBut_eq_some]
        exact ⟨ho, heq⟩
      have hlinked := (hp o.1 o.2 hstays).1
      rw [hnames] at hlinked
      exact nomatch hlinked
  · intro hall k i hk
    rw [howner, ownerBut_eq_some] at hk
    exact absurd (hall _ hk.1) hk.2

omit [Sample α] in
/-- Ending a buffer keeps the name published exactly when it `Releases`. -/
theorem published_release (hp : s.Published) (hcreated : Created s.bridge)
    (hcall : s.bridge.noiseShmDestroy (some h) = some s'.bridge ∨
      s.bridge.noiseEngineDestroy (some h) = some s'.bridge)
    (howner : s'.owner = s.ownerBut (some h)) :
    Created s'.bridge ∧ (s'.Published ↔ s.Releases h) := by
  obtain ⟨hbuffers, hnames⟩ := Bridge.release_spec hcreated hcall
  constructor
  · intro k buffer hk
    rw [hbuffers] at hk
    split at hk
    · exact nomatch hk
    · exact hcreated k buffer hk
  · by_cases hnone : s.bridge.sharedBuffer h = none
    · -- nothing to destroy, and `h` is not the owner
      rw [if_pos hnone] at hnames
      constructor
      · intro _
        exact .inl hnone
      · intro _ k i hk
        rw [howner, ownerBut_eq_some] at hk
        obtain ⟨hlinked, hmapped⟩ := hp k i hk.1
        rw [hnames, hbuffers, if_neg hk.2]
        exact ⟨hlinked, hmapped⟩
    · rw [if_neg hnone] at hnames
      rw [published_iff_of_unlinked hnames howner]
      constructor
      · exact .inr
      · intro hreleases
        rcases hreleases with h | h
        · exact absurd h hnone
        · exact h

/-- A create keeps the name published exactly when it `Keeps` it. -/
theorem published_create (hcreated : Created s.bridge)
    {sampleRate channels : Nat} {sys : SysCalls} {ok : Bool}
    (hcall : s.bridge.noiseShmCreate sampleRate channels sys (some h) = some (ok, s'.bridge))
    (howner : s'.owner = if ok then mapped s'.bridge (some h) else s.ownerBut (some h)) :
    Created s'.bridge ∧ (s'.Published ↔ s.Keeps (.shmCreate (some h) sampleRate channels sys)) := by
  obtain ⟨rfl, buffer, hcreator, hname, hsegment, hbuffers, hnames⟩ :=
    Bridge.noiseShmCreate_spec hcreated hcall
  have hself : s'.bridge.sharedBuffer h = some buffer := by rw [hbuffers, if_pos rfl]
  constructor
  · intro k buffer' hk
    rw [hbuffers] at hk
    split at hk
    · cases hk
      exact ⟨hcreator, hname⟩
    · exact hcreated k buffer' hk
  · cases hok : sys.creates with
    -- a failed create has unlinked the name and has not linked it again
    | false =>
      simp only [hok, Bool.false_eq_true, if_false] at hsegment howner
      have hunlinked : s'.bridge.shm.names shmName = none := by
        rw [hnames, hsegment, ite_self]
      simp only [Keeps, hok, Bool.false_eq_true, if_false]
      exact published_iff_of_unlinked hunlinked howner
    | true =>
      simp only [hok, if_true] at hsegment howner
      have hmapped : mapped s'.bridge (some h) = some (h, s.bridge.shm.created) := by
        simp [mapped, hself, hsegment]
      rw [hmapped] at howner
      simp only [Keeps, hok, if_true]
      -- whether the handle had a buffer decides what its end does to the new name
      by_cases hnone : s.bridge.sharedBuffer h = none
      · rw [if_pos hnone, hsegment] at hnames
        constructor
        · intro _
          exact hnone
        · intro _ k i hk
          rw [howner] at hk
          cases hk
          exact ⟨hnames, buffer, hself, hsegment⟩
      · -- the old buffer is destroyed last, and takes the new name with it
        rw [if_neg hnone] at hnames
        constructor
        · intro hp
          have hlinked := (hp _ _ howner).1
          rw [hnames] at hlinked
          exact nomatch hlinked
        · intro h
          exact absurd h hnone

/-- A call keeps the name published exactly when it `Keeps` it. -/
theorem published_step (hp : s.Published) (hcreated : Created s.bridge)
    (hstep : s.step op = some s') :
    Created s'.bridge ∧ (s'.Published ↔ s.Keeps op) := by
  cases op with
  | shmCreate handle sampleRate channels sys =>
    simp only [step, Option.map_eq_some_iff] at hstep
    obtain ⟨⟨ok, b⟩, hcall, rfl⟩ := hstep
    cases handle with
    -- a null handle: the call returns before it touches anything
    | none =>
      cases hcall
      exact ⟨hcreated, fun _ => trivial, fun _ => by simpa [Published, ownerBut_none] using hp⟩
    | some h => exact published_create hcreated hcall rfl
  | shmDestroy handle =>
    simp only [step, Option.map_eq_some_iff] at hstep
    obtain ⟨b, hcall, rfl⟩ := hstep
    cases handle with
    | none =>
      cases hcall
      exact ⟨hcreated, fun _ => trivial, fun _ => by simpa [Published, ownerBut_none] using hp⟩
    | some h => exact published_release hp hcreated (.inl hcall) rfl
  | engineDestroy handle =>
    simp only [step, Option.map_eq_some_iff] at hstep
    obtain ⟨b, hcall, rfl⟩ := hstep
    cases handle with
    | none =>
      cases hcall
      exact ⟨hcreated, fun _ => trivial, fun _ => by simpa [Published, ownerBut_none] using hp⟩
    | some h => exact published_release hp hcreated (.inr hcall) rfl

omit [Sample α] in
/-- A process without buffers. -/
theorem created_of_none {b : Bridge α R M} (hb : ∀ h, b.sharedBuffer h = none) : Created b := by
  intro h buffer hbuffer
  rw [hb h] at hbuffer
  exact nomatch hbuffer

end Publication

/-- From a process without buffers: in a sequence of calls the name refers to the segment of
    the owner after every call if and only if every call keeps it. -/
theorem published_iff (b : Bridge α R M) (hb : ∀ h, b.sharedBuffer h = none)
    (ops : List ShmOp) (t : Publication α R M)
    (hrun : Machine.run Publication.step { bridge := b, owner := none } ops = some t) :
    (∀ ops₁ ops₂ s, ops = ops₁ ++ ops₂ →
      Machine.run Publication.step { bridge := b, owner := none } ops₁ = some s → s.Published) ↔
    ∀ ops₁ op ops₂ s, ops = ops₁ ++ op :: ops₂ →
      Machine.run Publication.step { bridge := b, owner := none } ops₁ = some s → s.Keeps op :=
  Machine.run_forall_iff (fun s : Publication α R M => Publication.Created s.bridge)
    Publication.Published Publication.Keeps
    (fun _ _ _ hcreated hp hstep => Publication.published_step hp hcreated hstep)
    (Publication.created_of_none hb) (fun _ _ h => nomatch h) hrun

/-- The app's process with one handle. -/
def oneHandle : Bridge ℚ Unit Unit where
  shm := Shm.empty
  contexts := fun h => if h = 0 then some { engine := Engine.new, sharedBuffer := none } else none
  outputBuf := fun _ => 0

/-- After one create on it the name is published. -/
theorem published_iff_oneHandle :
    ∃ s, Machine.run Publication.step { bridge := oneHandle, owner := none }
        [.shmCreate (some 0) 48000 2 .ok] = some s ∧
      s.owner = some (0, 0) ∧ s.Published := by
  have hb : ∀ h, oneHandle.sharedBuffer h = none := by
    intro h
    simp only [Bridge.sharedBuffer, oneHandle]
    split
    · rfl
    · rfl
  refine ⟨_, rfl, rfl, ?_⟩
  refine (published_iff oneHandle hb [.shmCreate (some 0) 48000 2 .ok] _ rfl).mpr ?_
    [.shmCreate (some 0) 48000 2 .ok] [] _ rfl rfl
  intro ops₁ op ops₂ s hsplit hs
  cases ops₁ with
  | nil =>
    cases hsplit
    cases hs
    exact hb 0
  | cons _ ops₁ => simp at hsplit

/-- Two successful creates on one handle: the second one replaces the segment, and then the
    destructor of the first buffer unlinks the name of the second. -/
theorem create_twice_unpublishes :
    ∃ s, Machine.run Publication.step { bridge := oneHandle, owner := none }
        [.shmCreate (some 0) 48000 2 .ok, .shmCreate (some 0) 48000 2 .ok] = some s ∧
      s.owner = some (0, 1) ∧ s.bridge.shm.names shmName = none ∧ ¬ s.Published := by
  refine ⟨_, rfl, rfl, rfl, ?_⟩
  intro h
  exact nomatch (h 0 1 rfl).1

end Noise
