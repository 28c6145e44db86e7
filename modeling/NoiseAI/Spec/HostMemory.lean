import NoiseAI.Native.Host
import NoiseAI.Spec.Clients
import NoiseAI.Spec.Recovery
import NoiseAI.Spec.RingUsable

/-!
# The segments of the app

`Shm.Lives` is what holds of the shared memory between two calls of the app or of the driver:
the app has one live segment, or none, and every other segment that it has made since it was
launched is inactive and without a name. Each call is shown here to keep it; when the app has
a live segment, the name refers to it.
-/

namespace Noise

variable {α R M : Type}

/-- The segment `live` is the only one in use of all that were made after the first
    `launchedAt`. -/
structure Shm.Lives (m : Shm α) (live : Option Nat) (launchedAt : Nat) : Prop where
  since : launchedAt ≤ m.created
  name_lt : ∀ k, m.names shmName = some k → k < m.created
  name : ∀ k, m.names shmName = some k → launchedAt ≤ k → live = some k
  serves : ∀ i, live = some i → launchedAt ≤ i ∧ i < m.created ∧
    ∃ fill hb, m.Serves i appCapacity fill hb ∧ hb < 2 ^ 64
  quiet : ∀ k, launchedAt ≤ k → k < m.created → live ≠ some k → (m.segment k).isActive = false

namespace Shm

variable {m m' : Shm α} {live : Option Nat} {launchedAt : Nat}

/-! ## The consumer -/

theorem Lives.consumed (h : m.Lives live launchedAt) (hm : m.Consumed m') :
    m'.Lives live launchedAt where
  since := by
    rw [hm.created]
    exact h.since
  name_lt := by
    rw [hm.names, hm.created]
    exact h.name_lt
  name := by
    rw [hm.names]
    exact h.name
  serves := by
    intro i hi
    obtain ⟨hle, hlt, fill, hb, hserves, hbeat⟩ := h.serves i hi
    obtain ⟨fill', hserves'⟩ := hm.serves i fill hb hserves
    rw [hm.created]
    exact ⟨hle, hlt, fill', hb, hserves', hbeat⟩
  quiet := by
    intro k hle hlt hk
    rw [hm.created] at hlt
    rw [hm.active]
    exact h.quiet k hle hlt hk

/-! ## The app -/

/-- A block for the live segment is written there or not at all. -/
theorem Lives.write {i : Nat} (h : m.Lives (some i) launchedAt) (data : List α) :
    (m.modify i fun _ => ((m.segment i).write data).2).Lives (some i) launchedAt := by
  obtain ⟨hle, hlt, fill, hb, hserves, hbeat⟩ := h.serves i rfl
  refine ⟨h.since, h.name_lt, h.name, ?_, ?_⟩
  · intro i' hi'
    cases hi'
    refine ⟨hle, hlt, ?_⟩
    by_cases hfits : fill + data.length ≤ appCapacity
    · exact ⟨_, _, hserves.write appCapacity_lt hfits, Nat.mod_lt _ (by decide)⟩
    · rw [hserves.level.write_refused appCapacity_lt (Nat.lt_of_not_le hfits)]
      exact ⟨fill, hb, hserves.modify rfl rfl hserves.level hserves.heartbeat, hbeat⟩
  · intro k hk hkc hne
    have hki : k ≠ i := fun hki => hne (hki ▸ rfl)
    rw [show (m.modify i fun _ => _).segment k = m.segment k from Function.update_of_ne hki _ _]
    exact h.quiet k hk hkc hne

/-- A name without a segment. -/
theorem names_unlink (m : Shm α) (name : String) (k : Nat) :
    (m.unlink name).names name ≠ some k := by
  simp only [unlink, Function.update_self]
  intro h
  cases h

/-- Without a name and without a live segment. -/
theorem Lives.unlink (h : m.Lives none launchedAt) : (m.unlink shmName).Lives none launchedAt where
  since := h.since
  name_lt := fun k hk => absurd hk (m.names_unlink shmName k)
  name := fun k hk => absurd hk (m.names_unlink shmName k)
  serves := fun _ hi => nomatch hi
  quiet := h.quiet

/-- The destructor of the app's buffer leaves no live segment. -/
theorem Lives.destroy {b : SharedRingBuffer} (h : m.Lives b.segment launchedAt)
    (hcreator : b.isCreator = true) (hname : b.shmName = shmName) :
    (b.destroy m).Lives none launchedAt := by
  unfold SharedRingBuffer.destroy
  rw [if_pos hcreator, hname]
  cases hseg : b.segment with
  | none =>
    rw [hseg] at h
    exact h.unlink
  | some i =>
    rw [hseg] at h
    -- `active` is cleared first, and then the segment has no name either
    refine ⟨h.since, fun k hk => absurd hk (names_unlink _ shmName k),
      fun k hk => absurd hk (names_unlink _ shmName k), fun _ hi => (nomatch hi), ?_⟩
    intro k hle hlt _
    by_cases hk : k = i
    · simp only [Shm.unlink, Shm.modifyHeader, hk, modify_segment_self]
      rfl
    · have hne : some i ≠ some k := fun heq => hk (Option.some.inj heq).symm
      simp only [Shm.unlink, Shm.modifyHeader, Shm.modify, Function.update_of_ne hk]
      exact h.quiet k hle hlt hne

end Shm

namespace SharedRingBuffer

variable [Zero α] (m : Shm α) (sys : SysCalls)

/-- The constructor makes at most one segment, which is active if the constructor succeeds. -/
theorem create_new {k : Nat} (name : String) (capacity channels sampleRate : Nat)
    (hle : m.created ≤ k) :
    let r := create m name capacity channels sampleRate sys
    m.created ≤ r.2.created ∧
      (k < r.2.created → k = m.created ∧ (r.2.segment k).isActive = sys.creates) := by
  obtain ⟨shmOpen, ftruncate, fstat, mmap⟩ := sys
  have hnew : ∀ {c : Nat}, c = m.created + 1 → k < c → k = m.created := by omega
  cases shmOpen with
  | false => exact ⟨Nat.le_refl _, fun hlt => absurd hlt (Nat.not_lt_of_le hle)⟩
  | true =>
    -- `shm_open` makes the segment; it is active once the header is stored
    cases ftruncate with
    | false =>
      simp only [create, Shm.openCreate, Shm.unlink, Function.update_self, Bool.not_true,
        Bool.not_false, Bool.false_eq_true, if_false, if_true]
      refine ⟨Nat.le_succ _, fun hlt => ?_⟩
      obtain rfl := hnew rfl hlt
      rw [Function.update_self]
      exact ⟨rfl, rfl⟩
    | true =>
      cases mmap with
      | false =>
        simp only [create, Shm.openCreate, Shm.unlink, Shm.modify, Function.update_self,
          Bool.not_true, Bool.not_false, Bool.false_eq_true, if_false, if_true]
        refine ⟨Nat.le_succ _, fun hlt => ?_⟩
        obtain rfl := hnew rfl hlt
        rw [Function.update_self]
        exact ⟨rfl, rfl⟩
      | true =>
        simp only [create, Shm.openCreate, Shm.unlink, Shm.modify, Shm.modifyHeader,
          Function.update_self, Bool.not_true, Bool.false_eq_true, if_false]
        refine ⟨Nat.le_succ _, fun hlt => ?_⟩
        obtain rfl := hnew rfl hlt
        rw [Function.update_self]
        exact ⟨rfl, rfl⟩

/-- `fstat` is not called by a creator. -/
theorem create_of_creates (name : String) (capacity channels sampleRate : Nat)
    (h : sys.creates = true) :
    create m name capacity channels sampleRate sys =
      create m name capacity channels sampleRate .ok := by
  obtain ⟨shmOpen, ftruncate, fstat, mmap⟩ := sys
  simp only [SysCalls.creates, Bool.and_eq_true] at h
  obtain ⟨⟨rfl, rfl⟩, rfl⟩ := h
  rfl

end SharedRingBuffer

namespace Shm

variable {m : Shm α} {launchedAt : Nat}

/-- The constructor makes a new segment and gives it the name, or it leaves nothing behind that
    is in use. -/
theorem Lives.create [Zero α] (h : m.Lives none launchedAt) (sys : SysCalls) :
    let r := SharedRingBuffer.create m shmName appCapacity 2 48000 sys
    r.2.Lives r.1.segment launchedAt := by
  obtain ⟨-, -, hsegment, hname⟩ :=
    SharedRingBuffer.create_spec m shmName appCapacity 2 48000 sys
  have hnew := fun k hk =>
    SharedRingBuffer.create_new (k := k) m sys shmName appCapacity 2 48000 hk
  have hgrows := (hnew m.created (Nat.le_refl _)).1
  dsimp only at hsegment hname hnew hgrows ⊢
  cases hcreates : sys.creates with
  | false =>
    -- a system call fails: the name is gone, and a segment that was made is inactive
    rw [hcreates, if_neg Bool.false_ne_true] at hsegment
    rw [hsegment] at hname ⊢
    refine ⟨h.since.trans hgrows, ?_, ?_, fun _ hi => (nomatch hi), ?_⟩
    · intro k hk
      exact nomatch hname.symm.trans hk
    · intro k hk
      exact nomatch hname.symm.trans hk
    · intro k hle hlt hne
      by_cases hk : k < m.created
      · rw [(SharedRingBuffer.create_keeps m shmName appCapacity 2 48000 sys hk).2]
        exact h.quiet k hle hk hne
      · rw [((hnew k (Nat.le_of_not_lt hk)).2 hlt).2, hcreates]
  | true =>
    -- the new segment serves, and it is the only one that is not quiet
    obtain ⟨-, hserves⟩ := SharedRingBuffer.create_serves m 2 48000
      (show appCapacity < 2 ^ 32 by decide)
    obtain ⟨-, hcreated, -⟩ := SharedRingBuffer.create_valid m shmName appCapacity 2 48000 sys
      ((SharedRingBuffer.isValid_create ..).trans hcreates)
    have hok := SharedRingBuffer.create_of_creates m sys shmName appCapacity 2 48000 hcreates
    rw [hcreates, if_pos rfl] at hsegment
    rw [hsegment] at hname ⊢
    refine ⟨h.since.trans hgrows, ?_, ?_, ?_, ?_⟩
    · intro k hk
      cases hname.symm.trans hk
      rw [hcreated]
      exact Nat.lt_succ_self _
    · intro k hk _
      exact hname.symm.trans hk
    · intro i hi
      cases hi
      rw [hcreated, hok]
      exact ⟨h.since, Nat.lt_succ_self _, 0, 0, hserves, by decide⟩
    · intro k hle hlt hne
      by_cases hk : k < m.created
      · rw [(SharedRingBuffer.create_keeps m shmName appCapacity 2 48000 sys hk).2]
        exact h.quiet k hle hk fun hnone => nomatch hnone
      · have hkc := ((hnew k (Nat.le_of_not_lt hk)).2 hlt).1
        exact absurd (congrArg some hkc).symm hne

end Shm

end Noise
