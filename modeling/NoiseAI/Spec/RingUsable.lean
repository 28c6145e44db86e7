import NoiseAI.ForStd.Machine
import NoiseAI.Native.RingUse
import NoiseAI.Spec.EngineSession
import NoiseAI.Spec.RingCalls
import NoiseAI.Spec.ShmName

/-!
# The rings that `noise_shm_create` makes

The capacity of a ring goes through a 32-bit product, a division, a byte size and a 32-bit
header field, and nothing checks it on the way. `BlockInside` is what the index arithmetic of
`write` and `read` needs: a modulus that is not zero, and both chunks inside the segment.
`accesses_inside_iff` says for which formats every use of the ring meets it, and
`ring_usable_iff` for which the ring holds the audio it is made for as well.
-/

namespace Noise

open Machine

variable {α R M : Type}

/-! ## What the bridge does to a segment -/

/-- The two segments hold the same ring; `active` and the heartbeat are no part of it. -/
structure SameRing (g g' : Segment α) : Prop where
  size : g'.size = g.size
  capacity : g'.header.capacity = g.header.capacity
  writePos : g'.header.writePos = g.header.writePos
  readPos : g'.header.readPos = g.header.readPos
  data : g'.data = g.data

theorem SameRing.refl (g : Segment α) : SameRing g g := ⟨rfl, rfl, rfl, rfl, rfl⟩

namespace SharedRingBuffer

/-- A destructor leaves the rings as they are; a creator clears `active` of its own. -/
theorem destroy_keeps (b : SharedRingBuffer) (m : Shm α) (i : Nat) :
    (b.destroy m).created = m.created ∧ SameRing (m.segment i) ((b.destroy m).segment i) := by
  unfold destroy
  split
  · cases b.segment with
    | none => exact ⟨rfl, .refl _⟩
    | some j =>
      refine ⟨rfl, ?_⟩
      by_cases hij : i = j
      · subst hij
        simp only [Shm.unlink, Shm.modifyHeader, Shm.modify, Function.update_self]
        exact ⟨rfl, rfl, rfl, rfl, rfl⟩
      · simp only [Shm.unlink, Shm.modifyHeader, Shm.modify, Function.update_of_ne hij]
        exact .refl _
  · exact ⟨rfl, .refl _⟩

/-- A creating constructor works on a new segment. -/
theorem create_keeps [Zero α] (m : Shm α) (name : String) (capacity channels sampleRate : Nat)
    (sys : SysCalls) {i : Nat} (hi : i < m.created) :
    m.created ≤ (create m name capacity channels sampleRate sys).2.created ∧
      (create m name capacity channels sampleRate sys).2.segment i = m.segment i := by
  have hne : i ≠ m.created := Nat.ne_of_lt hi
  unfold create
  dsimp only
  split
  · exact ⟨Nat.le_refl _, rfl⟩
  · split
    · simp [Shm.unlink, Shm.openCreate, Function.update_of_ne hne]
    · split
      · simp [Shm.unlink, Shm.openCreate, Shm.modify, Function.update_of_ne hne]
      · simp [Shm.unlink, Shm.openCreate, Shm.modify, Shm.modifyHeader,
          Function.update_of_ne hne]

end SharedRingBuffer

namespace NoiseEngineContext

theorem resetSharedBuffer_keeps (ctx : NoiseEngineContext α R M) (m : Shm α) (i : Nat) :
    (ctx.resetSharedBuffer m).2.created = m.created ∧
      SameRing (m.segment i) ((ctx.resetSharedBuffer m).2.segment i) := by
  unfold resetSharedBuffer
  split
  · exact ⟨rfl, .refl _⟩
  · exact SharedRingBuffer.destroy_keeps _ m i

/-- `noise_shm_create` makes its ring before it destroys the one before. -/
theorem shmCreate_keeps [Sample α] (ctx : NoiseEngineContext α R M) (m : Shm α)
    (sampleRate channels : Nat) (sys : SysCalls) {i : Nat} (hi : i < m.created) :
    m.created ≤ (ctx.shmCreate m sampleRate channels sys).2.2.created ∧
      SameRing (m.segment i) ((ctx.shmCreate m sampleRate channels sys).2.2.segment i) := by
  obtain ⟨hcreated, hsegment⟩ := SharedRingBuffer.create_keeps m shmName
    (shmCapacity sampleRate channels) channels sampleRate sys hi
  obtain ⟨hreset, hsame⟩ := ctx.resetSharedBuffer_keeps
    (SharedRingBuffer.create m shmName (shmCapacity sampleRate channels) channels sampleRate
      sys).2 i
  rw [hsegment] at hsame
  exact ⟨hcreated.trans (Nat.le_of_eq hreset.symm), hsame⟩

/-- `noise_engine_process_and_write` writes the block it has processed. -/
theorem processAndWrite_block [Sample α] (api : Denoisers α R M) (clock : Nat → α)
    (ctx : NoiseEngineContext α R M) (m : Shm α) (output input : Nat → α) (numFrames : Nat) :
    ctx.processAndWrite api clock m output input numFrames =
      (let (block, ctx, output) := ctx.processBlock api clock output input numFrames
       block.elim (false, ctx, m, output) fun b =>
        (((m.segment b.1).write b.2).1, ctx, m.modify b.1 fun _ => ((m.segment b.1).write b.2).2,
          output)) := by
  unfold processAndWrite processBlock ring
  cases hb : ctx.sharedBuffer with
  | none => rfl
  | some b =>
    cases hsegment : b.segment with
    | none => simp [hsegment, SharedRingBuffer.isValid]
    | some i =>
      simp only [Option.bind_some, hsegment, SharedRingBuffer.isValid, SharedRingBuffer.write]
      cases (ctx.engine.processFrame api clock input output numFrames).1 with
      | false => rfl
      | true => rfl

end NoiseEngineContext

/-! ## Index arithmetic -/

/-- The block of `n` samples at position `pos` of a ring of `cap` samples: the modulus is not
    zero, and both chunks end inside a segment of `size` bytes. -/
structure BlockInside (size cap pos n : Nat) : Prop where
  modulus : cap ≠ 0
  first : sizeofHeader + (pos % cap + min n (cap - pos % cap)) * sizeofFloat ≤ size
  second : sizeofHeader + (n - min n (cap - pos % cap)) * sizeofFloat ≤ size

/-- A block that is no longer than the ring stays in a segment made for the ring. -/
theorem blockInside_of_le {cap pos n : Nat} (hcap : 0 < cap) (hn : n ≤ cap) :
    BlockInside (sizeofHeader + cap * sizeofFloat) cap pos n := by
  have hindex : pos % cap < cap := Nat.mod_lt pos hcap
  constructor
  · omega
  · unfold sizeofFloat
    omega
  · unfold sizeofFloat
    omega

/-- A `write` that is past its check evaluates `w % cap` and copies its block. -/
def WriteOp.Inside (size : Nat) : WriteOp α → Prop
  | .copy data w cap _ => BlockInside size cap w data.length
  | _ => True

/-- So does a `read`. -/
def ReadOp.Inside (size : Nat) : ReadOp α → Prop
  | .copy n r cap _ => BlockInside size cap r n
  | _ => True

namespace Ring

variable {cap : Nat} {g : Segment α} {h : History α} {wop : Option (WriteOp α)}
  {rop : Option (ReadOp α)}

/-- The invariant bounds the block of the producer by the free space. -/
theorem Inv.write_inside (hinv : Inv cap g h wop rop) (hcap : 0 < cap) {op : WriteOp α}
    (hop : wop = some op) : op.Inside (sizeofHeader + cap * sizeofFloat) := by
  have hsound := hinv.writer op hop
  have hconsumed := hinv.positions.consumed_le
  cases op with
  | copy data w c i =>
    obtain ⟨_, hc, _, hfit, _⟩ := hsound
    subst hc
    exact blockInside_of_le hcap (by omega)
  | _ => trivial

/-- And that of the consumer by what was written. -/
theorem Inv.read_inside (hinv : Inv cap g h wop rop) (hcap : 0 < cap) {op : ReadOp α}
    (hop : rop = some op) : op.Inside (sizeofHeader + cap * sizeofFloat) := by
  have hsound := hinv.reader op hop
  have hwritten := hinv.positions.written_le
  cases op with
  | copy n r c buf =>
    obtain ⟨_, hc, _, hn, _⟩ := hsound
    subst hc
    exact blockInside_of_le hcap (by omega)
  | _ => trivial

end Ring

/-! ## Every use of one ring -/

namespace RingUse

variable {s s' : RingUse α R M} {i cap : Nat}

def segment (s : RingUse α R M) (i : Nat) : Segment α := s.handle.shm.segment i

/-- The `write` on segment `i`, if the call in progress writes there. -/
def writer (s : RingUse α R M) (i : Nat) : Option (WriteOp α) :=
  s.producer.bind fun p => if p.1 = i then some p.2 else none

/-- The accesses that come next stay inside the segment. -/
def Inside (s : RingUse α R M) (i : Nat) : Prop :=
  (∀ op, s.writer i = some op → op.Inside (s.segment i).size) ∧
    ∀ op, s.consumer = some op → op.Inside (s.segment i).size

theorem segment_setSegment (s : RingUse α R M) (i : Nat) (g : Segment α) :
    (s.setSegment i g).segment i = g := Function.update_self ..

theorem segment_setSegment_of_ne (s : RingUse α R M) {i j : Nat} (g : Segment α) (h : j ≠ i) :
    (s.setSegment j g).segment i = s.segment i := Function.update_of_ne (Ne.symm h) ..

/-- A `write` on segment `j` goes on as `p` says. -/
theorem writer_accessed (s : RingUse α R M) (j : Nat) (p : Progress (WriteOp α) Bool) :
    ({ s with producer := p.op.map fun op => (j, op) } : RingUse α R M).writer j = p.op := by
  cases p with
  | running op => exact if_pos rfl
  | returned res => rfl

theorem writer_accessed_of_ne (s : RingUse α R M) {i j : Nat} (p : Progress (WriteOp α) Bool)
    (h : j ≠ i) :
    ({ s with producer := p.op.map fun op => (j, op) } : RingUse α R M).writer i = none := by
  cases p with
  | running op => exact if_neg h
  | returned res => rfl

/-- Segment `i` is a ring of `cap` samples, whoever works on it. -/
structure Inv (cap i : Nat) (s : RingUse α R M) : Prop where
  created : i < s.handle.shm.created
  size : (s.segment i).size = sizeofHeader + cap * sizeofFloat
  capacity : (s.segment i).header.capacity = cap
  ring : ∃ h, Ring.Inv cap (s.segment i) h (s.writer i) s.consumer

theorem Inv.inside (h : s.Inv cap i) (hcap : 0 < cap) : s.Inside i := by
  obtain ⟨history, hring⟩ := h.ring
  unfold Inside
  rw [h.size]
  exact ⟨fun op hop => hring.write_inside hcap hop, fun op hop => hring.read_inside hcap hop⟩

/-- Nobody has used the ring. -/
theorem inv_start {handle : NoiseEngineHandle α R M} (hcreated : i < handle.shm.created)
    (hsize : (handle.shm.segment i).size = sizeofHeader + cap * sizeofFloat)
    (hcapacity : (handle.shm.segment i).header.capacity = cap)
    (hw : (handle.shm.segment i).header.writePos = 0)
    (hr : (handle.shm.segment i).header.readPos = 0) : (start handle).Inv cap i :=
  ⟨hcreated, hsize, hcapacity, .empty, .fresh hw hr⟩

/-- A step that works elsewhere, or only starts or drops an operation. -/
theorem Inv.transfer (h : s.Inv cap i)
    (hcreated : s.handle.shm.created ≤ s'.handle.shm.created)
    (hsame : SameRing (s.segment i) (s'.segment i))
    (hops : ∀ history, Ring.Inv cap (s.segment i) history (s.writer i) s.consumer →
      Ring.Inv cap (s.segment i) history (s'.writer i) s'.consumer) : s'.Inv cap i := by
  obtain ⟨history, hring⟩ := h.ring
  refine ⟨Nat.lt_of_lt_of_le h.created hcreated, hsame.size.trans h.size,
    hsame.capacity.trans h.capacity, history, ?_⟩
  exact (hops history hring).congr hsame.writePos hsame.readPos hsame.data

/-- The start of a `write`, here or on another segment. -/
theorem Inv.write (h : s.Inv cap i) (block : Option (Nat × List α)) :
    (s.write block).Inv cap i := by
  refine h.transfer (Nat.le_refl _) (.refl _) ?_
  intro history hring
  cases block with
  | none => exact hring.abandon_write
  | some b =>
    obtain ⟨j, data⟩ := b
    by_cases hj : j = i
    · have hwriter : (s.write (some (j, data))).writer i = some (.loadWritePos data) := if_pos hj
      rw [hwriter]
      exact hring.start_write data
    · have hwriter : (s.write (some (j, data))).writer i = none := if_neg hj
      rw [hwriter]
      exact hring.abandon_write

variable [Sample α] {api : Denoisers α R M}

/-- A call on the handle, up to its `write`, works on the engine or on the rings it makes. -/
theorem Inv.call (h : s.Inv cap i) (api : Denoisers α R M) (op : BridgeOp α R M) :
    (s.call api op).Inv cap i := by
  cases op with
  | shmCreate sampleRate channels sys =>
    obtain ⟨hcreated, hsame⟩ :=
      s.handle.ctx.shmCreate_keeps s.handle.shm sampleRate channels sys h.created
    exact h.transfer hcreated hsame fun _ hring => hring
  | shmDestroy =>
    obtain ⟨hcreated, hsame⟩ := s.handle.ctx.resetSharedBuffer_keeps s.handle.shm i
    exact h.transfer (Nat.le_of_eq hcreated.symm) hsame fun _ hring => hring
  | processAndWrite clock input numFrames =>
    have hengine : ∀ (ctx : NoiseEngineContext α R M) (outputBuf : Nat → α),
        ({ s with handle := { s.handle with ctx := ctx, outputBuf := outputBuf } } :
          RingUse α R M).Inv cap i :=
      fun ctx outputBuf => h.transfer (Nat.le_refl _) (.refl _) fun _ hring => hring
    exact (hengine _ _).write _
  | elsewhere shm outputBuf => exact h
  | start | stop | setMode | setDryMix | setAttenuationLimit | loadDeepfilterModel | process =>
    exact h.transfer (Nat.le_refl _) (.refl _) fun _ hring => hring

omit [Sample α] in
/-- The next access of the call that writes. -/
theorem Inv.producer (h : s.Inv cap i) (hcap : 0 < cap) (hsize : cap < 2 ^ 64) {j : Nat}
    {op : WriteOp α} (hproducer : s.producer = some (j, op)) :
    ({ s.setSegment j (op.step (s.segment j)).1 with
      producer := (op.step (s.segment j)).2.op.map fun op => (j, op) } : RingUse α R M).Inv cap
        i := by
  obtain ⟨data, w, hb, heq⟩ := op.step_eq (s.segment j)
  by_cases hj : j = i
  · subst hj
    -- the ring that is followed
    obtain ⟨history, hring⟩ := h.ring
    have hwriter : s.writer j = some op := by
      unfold writer
      rw [hproducer]
      exact if_pos rfl
    rw [hwriter] at hring
    have hnext := hring.write_step hcap hsize h.capacity
    have hsegment := s.segment_setSegment j (op.step (s.segment j)).1
    refine ⟨h.created, ?_, ?_, op.record history, ?_⟩
    · show ((s.setSegment j _).segment j).size = _
      rw [hsegment, heq]
      exact h.size
    · show ((s.setSegment j _).segment j).header.capacity = _
      rw [hsegment, heq]
      exact h.capacity
    · show Ring.Inv cap ((s.setSegment j _).segment j) _ _ _
      rw [hsegment, writer_accessed]
      exact hnext
  · -- another ring
    have hsegment := s.segment_setSegment_of_ne (op.step (s.segment j)).1 hj
    refine h.transfer (Nat.le_refl _) ?_ ?_
    · show SameRing _ ((s.setSegment j _).segment i)
      rw [hsegment]
      exact .refl _
    · intro history hring
      rw [writer_accessed_of_ne _ _ hj]
      exact hring.abandon_write

omit [Sample α] in
/-- The next access of the consumer. -/
theorem Inv.consumer (h : s.Inv cap i) (hcap : 0 < cap) (hsize : cap < 2 ^ 64)
    {op : ReadOp α} (hconsumer : s.consumer = some op) :
    ({ s.setSegment i (op.step (s.segment i)).1 with
      consumer := (op.step (s.segment i)).2.op } : RingUse α R M).Inv cap i := by
  obtain ⟨r, heq⟩ := op.step_eq (s.segment i)
  obtain ⟨history, hring⟩ := h.ring
  rw [hconsumer] at hring
  have hnext := hring.read_step hcap hsize fun _ => h.capacity
  have hsegment := s.segment_setSegment i (op.step (s.segment i)).1
  refine ⟨h.created, ?_, ?_, op.record (s.segment i) history, ?_⟩
  · show ((s.setSegment i _).segment i).size = _
    rw [hsegment, heq]
    exact h.size
  · show ((s.setSegment i _).segment i).header.capacity = _
    rw [hsegment, heq]
    exact h.capacity
  · show Ring.Inv cap ((s.setSegment i _).segment i) _ _ _
    rw [hsegment]
    exact hnext

theorem step_producer (api : Denoisers α R M) (i : Nat) {j : Nat} {op : WriteOp α}
    (h : s.producer = some (j, op)) :
    step api i s .producer = some { s.setSegment j (op.step (s.segment j)).1 with
      producer := (op.step (s.segment j)).2.op.map fun op => (j, op) } := by
  simp only [step, h, segment]
  cases hp : (op.step (s.handle.shm.segment j)).2 with
  | running op' => rfl
  | returned res => rfl

omit [Sample α] in
theorem step_of_access {ring ring' : Segment α × History α} {op : WriteOp α}
    {p : Progress (WriteOp α) Bool} (h : op.access ring = (ring', p)) :
    op.step ring.1 = (ring'.1, p) := by
  unfold WriteOp.access at h
  cases h
  rfl

/-- The accesses of a `write` with nothing in between are one call of `Segment.write`. -/
theorem reaches_of_alone {j : Nat} {ring ring' : Segment α × History α} {op : WriteOp α}
    {ok : Bool} (halone : Alone WriteOp.access ring op ring' ok) (s : RingUse α R M)
    (hsegment : s.segment j = ring.1) (hproducer : s.producer = some (j, op)) :
    Reaches (RingUse.step api i) s { s.setSegment j ring'.1 with producer := none } := by
  induction halone generalizing s with
  | last haccess =>
    have hstep := step_producer api i hproducer
    rw [hsegment, step_of_access haccess] at hstep
    exact .single .producer hstep
  | @more _ ring₁ ring₂ _ op' _ haccess _ ih =>
    have hstep := step_producer api i hproducer
    rw [hsegment, step_of_access haccess] at hstep
    -- one access, and the rest from the segment it leaves
    have hrest := ih { s.setSegment j ring₁.1 with producer := some (j, op') }
      (s.segment_setSegment j ring₁.1) rfl
    have hsame : ({ s.setSegment j ring₁.1 with producer := some (j, op') } :
        RingUse α R M).setSegment j ring₂.1 =
        { s.setSegment j ring₂.1 with producer := some (j, op') } := by
      unfold setSegment Shm.modify
      dsimp only
      rw [Function.update_idem]
    rw [hsame] at hrest
    exact .head .producer hstep hrest

/-- A block that is written with nothing in between. -/
theorem write_alone (s : RingUse α R M) (j : Nat) (data : List α) :
    Reaches (RingUse.step api i) (s.write (some (j, data)))
      { s.setSegment j ((s.segment j).write data).2 with producer := none } :=
  reaches_of_alone ((s.segment j).write_alone .empty data) (s.write (some (j, data))) rfl rfl

/-- `noise_shm_write` with nothing in between. -/
theorem shmWrite_alone (api : Denoisers α R M) (s : RingUse α R M) (hidle : s.producer = none)
    (data : List α) :
    Reaches (RingUse.step api i) s { s with
      handle := { s.handle with shm := (s.handle.ctx.shmWrite s.handle.shm data).2 } } := by
  have hstart : RingUse.step api i s (.shmWrite data) =
      some (s.write (s.handle.ctx.ring.map fun j => (j, data))) := by
    simp only [RingUse.step, hidle, Option.isNone_none, ↓reduceIte]
  obtain ⟨⟨ctx, shm, outputBuf⟩, producer, consumer⟩ := s
  cases hidle
  cases hb : ctx.sharedBuffer with
  | none =>
    simp only [NoiseEngineContext.ring, hb, Option.bind_none, Option.map_none] at hstart
    simp only [NoiseEngineContext.shmWrite, hb]
    exact .single _ hstart
  | some b =>
    cases hsegment : b.segment with
    | none =>
      simp only [NoiseEngineContext.ring, hb, Option.bind_some, hsegment,
        Option.map_none] at hstart
      simp only [NoiseEngineContext.shmWrite, hb, SharedRingBuffer.isValid, hsegment]
      exact .single _ hstart
    | some j =>
      simp only [NoiseEngineContext.ring, hb, Option.bind_some, hsegment,
        Option.map_some] at hstart
      simp only [NoiseEngineContext.shmWrite, hb, SharedRingBuffer.isValid, hsegment,
        SharedRingBuffer.write]
      exact .head _ hstart (write_alone _ j data)

/-- Any other call on the handle, with nothing in between. -/
theorem call_alone (api : Denoisers α R M) (s : RingUse α R M) (hidle : s.producer = none)
    {op : BridgeOp α R M} (helse : ∀ shm outputBuf, op ≠ .elsewhere shm outputBuf) :
    Reaches (RingUse.step api i) s { s with handle := s.handle.after api op } := by
  have hstart : RingUse.step api i s (.call op) = some (s.call api op) := by
    simp only [RingUse.step, hidle, Option.isNone_none, ↓reduceIte]
  cases op with
  | processAndWrite clock input numFrames =>
    have heq := s.handle.ctx.processAndWrite_block api clock s.handle.shm s.handle.outputBuf input
      numFrames
    simp only [call] at hstart
    simp only [NoiseEngineHandle.after, heq]
    obtain ⟨⟨ctx, shm, outputBuf⟩, producer, consumer⟩ := s
    cases hidle
    dsimp only at hstart ⊢
    generalize ctx.processBlock api clock outputBuf input numFrames = r at hstart
    obtain ⟨block, ctx', output⟩ := r
    cases block with
    | none => exact .single _ hstart
    | some access =>
      obtain ⟨j, data⟩ := access
      exact .head _ hstart (write_alone ⟨⟨ctx', shm, output⟩, none, consumer⟩ j data)
  | elsewhere shm outputBuf => exact absurd rfl (helse shm outputBuf)
  | start | stop | setMode | setDryMix | setAttenuationLimit | loadDeepfilterModel | process
  | shmCreate | shmDestroy => exact .single _ hstart

theorem step_consumer (api : Denoisers α R M) (i : Nat) {op : ReadOp α}
    (h : s.consumer = some op) :
    step api i s .consumer = some { s.setSegment i (op.step (s.segment i)).1 with
      consumer := (op.step (s.segment i)).2.op } := by
  simp only [step, h, segment]
  cases hp : (op.step (s.handle.shm.segment i)).2 with
  | running op' => rfl
  | returned res => rfl

/-- Every step keeps the ring. -/
theorem Inv.step (h : s.Inv cap i) (hcap : 0 < cap) (hsize : cap < 2 ^ 64)
    {l : RingUseLabel α R M} (hstep : RingUse.step api i s l = some s') : s'.Inv cap i := by
  cases l with
  | call op =>
    simp only [RingUse.step] at hstep
    split at hstep
    · cases hstep
      exact h.call api op
    · exact nomatch hstep
  | shmWrite data =>
    simp only [RingUse.step] at hstep
    split at hstep
    · cases hstep
      exact h.write _
    · exact nomatch hstep
  | producer =>
    cases hproducer : s.producer with
    | none =>
      simp only [RingUse.step, hproducer] at hstep
      exact nomatch hstep
    | some access =>
      obtain ⟨j, op⟩ := access
      rw [step_producer api i hproducer] at hstep
      cases hstep
      exact h.producer hcap hsize hproducer
  | read n =>
    simp only [RingUse.step] at hstep
    split at hstep
    · cases hstep
      exact h.transfer (Nat.le_refl _) (.refl _) fun _ hring => hring.start_read n
    · exact nomatch hstep
  | flush =>
    simp only [RingUse.step] at hstep
    split at hstep
    · cases hstep
      exact h.transfer (Nat.le_refl _) (.refl _) fun _ hring => hring.start_flush
    · exact nomatch hstep
  | consumer =>
    cases hconsumer : s.consumer with
    | none =>
      simp only [RingUse.step, hconsumer] at hstep
      exact nomatch hstep
    | some op =>
      rw [step_consumer api i hconsumer] at hstep
      cases hstep
      exact h.consumer hcap hsize hconsumer
  | detach =>
    cases hstep
    exact h.transfer (Nat.le_refl _) (.refl _) fun _ hring => hring.abandon_read
  | elsewhere shm outputBuf =>
    cases hstep
    refine h.transfer (Nat.le_max_left ..) ?_ fun _ hring => hring
    -- whatever else happens to shared memory, nobody else has this segment
    have hkept : Function.update shm.segment i (s.handle.shm.segment i) i =
        s.handle.shm.segment i := Function.update_self ..
    unfold segment
    dsimp only
    rw [hkept]
    exact .refl _

/-- Every access of every run stays inside the ring. -/
theorem Inv.reached (h : s.Inv cap i) (hcap : 0 < cap) (hsize : cap < 2 ^ 64)
    (hreach : Reaches (RingUse.step api i) s s') : s'.Inside i := by
  obtain ⟨ls, hrun⟩ := hreach
  have hinv := run_invariant (fun _ => True) (Inv cap i)
    (fun _ _ _ _ hinv hstep => hinv.step hcap hsize hstep) h (fun _ _ => trivial) hrun
  exact hinv.inside hcap

/-- An access of a `write` that goes on. -/
theorem producer_running (api : Denoisers α R M) {op op' : WriteOp α} {g g' : Segment α}
    (hsegment : s.segment i = g) (hproducer : s.producer = some (i, op))
    (hstep : op.step g = (g', .running op')) :
    ∃ s', RingUse.step api i s .producer = some s' ∧ s'.segment i = g' ∧
      s'.producer = some (i, op') := by
  have hnext := step_producer api i hproducer
  rw [hsegment, hstep] at hnext
  exact ⟨_, hnext, s.segment_setSegment i g', rfl⟩

/-- A `write` of no samples to an empty ring of capacity 0 passes the check of the free space,
    and divides by zero. -/
theorem write_nothing (api : Denoisers α R M) {handle : NoiseEngineHandle α R M}
    (hring : handle.ctx.ring = some i) (hcapacity : (handle.shm.segment i).header.capacity = 0)
    (hw : (handle.shm.segment i).header.writePos = 0)
    (hr : (handle.shm.segment i).header.readPos = 0) :
    ∃ s, Reaches (RingUse.step api i) (start handle) s ∧ ¬ s.Inside i := by
  have hstart : RingUse.step api i (start handle) (.shmWrite []) =
      some ((start handle).write (some (i, []))) := by
    simp only [RingUse.step, start, Option.isNone_none, ↓reduceIte, hring, Option.map_some]
  have hsegment : ((start handle).write (some (i, []))).segment i = handle.shm.segment i := rfl
  generalize handle.shm.segment i = g at hcapacity hw hr hsegment
  -- the loads of `write_pos` and `read_pos`, and the check
  have hfirst : WriteOp.step g (.loadWritePos []) = (g, .running (.loadReadPos [] 0)) := by
    rw [← hw]
    rfl
  have hsecond : WriteOp.step g (.loadReadPos [] 0) = (g, .running (.loadCapacity [] 0 0)) := by
    rw [← hr]
    rfl
  have hthird : WriteOp.step g (.loadCapacity [] 0 0) = (g, .running (.copy [] 0 0 0)) := by
    simp only [WriteOp.step, hcapacity]
    rfl
  obtain ⟨s₁, hs₁, hsegment₁, hop₁⟩ := producer_running api hsegment rfl hfirst
  obtain ⟨s₂, hs₂, hsegment₂, hop₂⟩ := producer_running api hsegment₁ hop₁ hsecond
  obtain ⟨s₃, hs₃, _, hop₃⟩ := producer_running api hsegment₂ hop₂ hthird
  refine ⟨s₃, .head _ hstart (.head _ hs₁ (.head _ hs₂ (.single _ hs₃))), ?_⟩
  intro hinside
  have hwriter : s₃.writer i = some (.copy [] 0 0 0) := by
    unfold writer
    rw [hop₃]
    exact if_pos rfl
  exact (hinside.1 _ hwriter).modulus rfl

end RingUse

/-! ## A ring that was reported as created -/

variable [Sample α]

/-- What `noise_shm_create` leaves when it returns 1: a new ring, empty, of a capacity that was
    computed with 32 bits. -/
theorem NoiseEngineHandle.shmCreate_spec (api : Denoisers α R M) (h : NoiseEngineHandle α R M)
    (sampleRate channels : Nat) (sys : SysCalls)
    (hcreated : (h.ctx.shmCreate h.shm sampleRate channels sys).1 = true) :
    let h' := h.after api (.shmCreate sampleRate channels sys)
    let g := h'.shm.segment h.shm.created
    h'.ctx.ring = some h.shm.created ∧ h.shm.created < h'.shm.created ∧
      g.size = sizeofHeader + u32 (sampleRate * channels) / 10 * sizeofFloat ∧
      g.header.capacity = u32 (sampleRate * channels) / 10 ∧
      g.header.writePos = 0 ∧ g.header.readPos = 0 := by
  generalize hcapacity : u32 (sampleRate * channels) / 10 = capacity
  have hsmall : capacity < 2 ^ 32 := by
    have hlow : u32 (sampleRate * channels) < 2 ^ 32 := Nat.mod_lt _ (by decide)
    omega
  have hsize : sizeofHeader + capacity * sizeofFloat < 2 ^ 64 := by
    unfold sizeofHeader sizeofFloat
    omega
  have hctx : NoiseEngineContext.shmCapacity sampleRate channels = capacity := hcapacity
  unfold NoiseEngineContext.shmCreate at hcreated
  rw [hctx] at hcreated
  obtain ⟨hsegment, hnext, hfresh⟩ := SharedRingBuffer.create_valid _ _ _ _ _ _ hcreated
  -- the old buffer is destroyed when the new one is in place
  obtain ⟨hreset, hsame⟩ := h.ctx.resetSharedBuffer_keeps
    (SharedRingBuffer.create h.shm shmName capacity channels sampleRate sys).2 h.shm.created
  simp only [after, NoiseEngineContext.shmCreate, NoiseEngineContext.ring, hctx]
  rw [hfresh] at hsame
  refine ⟨hsegment, ?_, hsame.size.trans (u64_of_lt hsize),
    hsame.capacity.trans (u32_of_lt hsmall), hsame.writePos, hsame.readPos⟩
  rw [hreset, hnext]
  exact Nat.lt_succ_self _

/-- All accesses stay inside the ring when its capacity came out as one sample at least,
    be it the right capacity or not. -/
theorem accesses_inside_iff (api : Denoisers α R M) (h : NoiseEngineHandle α R M)
    (sampleRate channels : Nat) (sys : SysCalls)
    (hcreated : (h.ctx.shmCreate h.shm sampleRate channels sys).1 = true) :
    (∀ s, Reaches (RingUse.step api h.shm.created)
        (.start (h.after api (.shmCreate sampleRate channels sys))) s →
      s.Inside h.shm.created) ↔ 10 ≤ u32 (sampleRate * channels) := by
  obtain ⟨hring, hless, hsize, hcapacity, hw, hr⟩ :=
    h.shmCreate_spec api sampleRate channels sys hcreated
  constructor
  · intro hinside
    by_contra hfew
    have hzero : u32 (sampleRate * channels) / 10 = 0 := by omega
    obtain ⟨s, hreach, houtside⟩ :=
      RingUse.write_nothing api hring (hcapacity.trans hzero) hw hr
    exact houtside (hinside s hreach)
  · intro hlarge s hreach
    have hlow : u32 (sampleRate * channels) < 2 ^ 32 := Nat.mod_lt _ (by decide)
    have hinv := RingUse.inv_start hless hsize hcapacity hw hr
    exact hinv.reached (by omega) (by omega) hreach

/-- The ring `i` of `handle`, just created for the format, holds 100 ms of it, and no use of it
    divides by zero or leaves the segment. -/
structure RingUsable (api : Denoisers α R M) (handle : NoiseEngineHandle α R M)
    (i sampleRate channels : Nat) : Prop where
  capacity : (handle.shm.segment i).header.capacity = sampleRate * channels / 10
  pos : 1 ≤ (handle.shm.segment i).header.capacity
  inside : ∀ s, Reaches (RingUse.step api i) (.start handle) s → s.Inside i

/-- For which formats the ring that `noise_shm_create` reports as created is usable. -/
theorem ring_usable_iff (api : Denoisers α R M) (h : NoiseEngineHandle α R M)
    (sampleRate channels : Nat) (sys : SysCalls)
    (hcreated : (h.ctx.shmCreate h.shm sampleRate channels sys).1 = true) :
    ∃ i, (h.after api (.shmCreate sampleRate channels sys)).ctx.ring = some i ∧
      (RingUsable api (h.after api (.shmCreate sampleRate channels sys)) i sampleRate channels ↔
        10 ≤ sampleRate * channels ∧ sampleRate * channels < 2 ^ 32) := by
  obtain ⟨hring, _, _, hcapacity, _, _⟩ := h.shmCreate_spec api sampleRate channels sys hcreated
  have hinside := accesses_inside_iff api h sampleRate channels sys hcreated
  refine ⟨h.shm.created, hring, ?_⟩
  constructor
  · rintro ⟨hright, hpos, _⟩
    rw [hcapacity] at hright hpos
    unfold u32 at hright hpos
    omega
  · rintro ⟨hlarge, hword⟩
    have hproduct : u32 (sampleRate * channels) = sampleRate * channels := u32_of_lt hword
    rw [hproduct] at hcapacity hinside
    refine ⟨hcapacity, ?_, hinside.mpr hlarge⟩
    rw [hcapacity]
    omega

/-- A handle of a process that has not shared anything yet. -/
def freshHandle : NoiseEngineHandle ℚ Unit Unit :=
  .create .empty (fun _ => 0) 48000 2 480 (some ()) none

theorem ring_usable_stereo48k :
    ∃ i, (freshHandle.after identityDenoisers (.shmCreate 48000 2 .ok)).ctx.ring = some i ∧
      (RingUsable identityDenoisers
          (freshHandle.after identityDenoisers (.shmCreate 48000 2 .ok)) i 48000 2 ↔
        10 ≤ 48000 * 2 ∧ 48000 * 2 < 2 ^ 32) :=
  ring_usable_iff identityDenoisers freshHandle 48000 2 .ok (by decide)

/-- A product of `2 ^ 32` comes out as 0. The ring is reported as created, and a `write` of no
    samples to it divides by zero. -/
theorem ring_of_capacity_zero :
    (freshHandle.ctx.shmCreate freshHandle.shm 65536 65536 .ok).1 = true ∧
    (freshHandle.after identityDenoisers (.shmCreate 65536 65536 .ok)).ctx.ring = some 0 ∧
    ((freshHandle.after identityDenoisers (.shmCreate 65536 65536 .ok)).shm.segment
      0).header.capacity = 0 ∧
    (∃ s, Reaches (RingUse.step identityDenoisers 0)
        (.start (freshHandle.after identityDenoisers (.shmCreate 65536 65536 .ok))) s ∧
      ¬ s.Inside 0) ∧
    ¬ RingUsable identityDenoisers
      (freshHandle.after identityDenoisers (.shmCreate 65536 65536 .ok)) 0 65536 65536 := by
  have hdivides : ∃ s, Reaches (RingUse.step identityDenoisers 0)
      (.start (freshHandle.after identityDenoisers (.shmCreate 65536 65536 .ok))) s ∧
      ¬ s.Inside 0 := by
    apply RingUse.write_nothing
    · decide
    · decide
    · decide
    · decide
  refine ⟨by decide, by decide, by decide, hdivides, ?_⟩
  intro husable
  obtain ⟨s, hreach, houtside⟩ := hdivides
  exact houtside (husable.inside s hreach)

/-- So does every product below 10. -/
example : ((freshHandle.after identityDenoisers (.shmCreate 9 1 .ok)).shm.segment
    0).header.capacity = 0 := by
  decide

end Noise
