import NoiseAI.Spec.ShmAppSteps
import NoiseAI.Spec.ShmDriverSteps
import NoiseAI.Spec.ShmCalls

/-!
# Attaching to a segment

The invariant of the app and the driver holds in every state they reach (`Inv.reached`). So
whatever the driver meets when it attaches, at whatever point of a constructor, destructor or
crash, its `read` runs on a complete header and inside its mapping (`read_attached`).
-/

namespace Noise

variable {α : Type}

namespace ShmSystem

open Machine

variable {s s' : ShmSystem α} {i : Nat}

/-! ## The invariant holds in every reachable state -/

theorem shmCapacity_lt (sampleRate channels : Nat) :
    NoiseEngineContext.shmCapacity sampleRate channels < 2 ^ 32 := by
  unfold NoiseEngineContext.shmCapacity u32
  omega

/-- The app starts a `write` of whole frames. -/
theorem Inv.start_write {block : List α} (hinv : s.Inv) (hready : s.Ready i)
    (heven : block.length % 2 = 0) : (s.setTask (.write i (.loadWritePos block))).Inv := by
  have hkeep : ∀ j, s.Ready j → (s.setTask (.write i (.loadWritePos block))).Ready j :=
    fun j h => ⟨h.created, h.capacity, h.size⟩
  have hmoves : AppMoves s (s.setTask (.write i (.loadWritePos block))) := by
    refine ⟨rfl, rfl, rfl, Nat.le_refl _, fun _ _ => rfl, hkeep, fun _ _ _ => rfl, ?_,
      fun _ _ => rfl⟩
    exact fun j _ => ⟨[], (List.append_nil _).symm⟩
  apply hinv.of_app hmoves
  · exact hinv.newest
  · intro j hj
    have hsegment := hinv.segments j hj
    by_cases hji : j = i
    · subst hji
      have hwriter : (s.setTask (.write j (.loadWritePos block))).writer j =
          some (.loadWritePos block) := if_pos rfl
      refine ⟨hsegment.pos, hsegment.lt, hsegment.size, hsegment.active, ?_, hsegment.written,
        hsegment.consumed⟩
      rw [hwriter]
      exact hsegment.ring.start_write block
    · exact hsegment.transfer rfl rfl rfl (.inr (if_neg (Ne.symm hji))) (.inl rfl)
  · exact ⟨fun b j hb hseg => hkeep j (hinv.app.buffer b j hb hseg), hkeep i hready, heven⟩

/-- Every step keeps the invariant. -/
theorem Inv.step [Zero α] {l : ShmLabel α} (hinv : s.Inv) (hstep : s.step l = some s') :
    s'.Inv := by
  cases l with
  | shmCreate sampleRate channels =>
    simp only [ShmSystem.step] at hstep
    split at hstep
    · split at hstep
      · rename_i hpos
        cases hstep
        exact hinv.setApp _ (fun _ _ h => nomatch h) hinv.app.buffer
          ⟨hpos, shmCapacity_lt sampleRate channels⟩
      · exact nomatch hstep
    · exact nomatch hstep
  | processAndWrite outputBuf numFrames =>
    simp only [ShmSystem.step] at hstep
    split at hstep
    · rename_i i _ hseg
      cases hstep
      obtain ⟨b, hb, hbseg⟩ := Option.bind_eq_some_iff.mp hseg
      -- a block of stereo frames is even, also where the product wraps
      apply hinv.start_write (hinv.app.buffer b i hb hbseg)
      rw [List.length_map, List.length_range]
      unfold u32
      omega
    · cases hstep
      exact hinv
    · exact nomatch hstep
  | shmDestroy =>
    simp only [ShmSystem.step] at hstep
    split at hstep
    · cases hstep
      exact hinv.setApp _ (quiet_destructor s.app.buffer) (fun _ _ h => nomatch h)
        (taskInv_destructor _ s.app.buffer)
    · exact nomatch hstep
  | crash =>
    cases hstep
    exact hinv.setApp _ (fun _ _ h => nomatch h) (fun _ _ h => nomatch h) trivial
  | app ok => exact hinv.appStep hstep
  | onStart =>
    simp only [ShmSystem.step] at hstep
    split at hstep
    · rename_i hidle
      cases hstep
      exact hinv.ensureConnected hidle (.inl rfl) none
    · exact nomatch hstep
  | onStop =>
    simp only [ShmSystem.step] at hstep
    split at hstep
    · cases hstep
      exact hinv.driver_drop (d := { io := s.driver.io.onStopIO, task := .idle }) (.inl rfl) rfl
        (fun _ => rfl) trivial
    · exact nomatch hstep
  | readClientInput bytesCount =>
    simp only [ShmSystem.step] at hstep
    split at hstep
    · rename_i hidle
      cases hstep
      exact hinv.ensureConnected hidle (.inr rfl) (some bytesCount)
    · exact nomatch hstep
  | driver ok => exact hinv.driverStep hstep

theorem inv_init [Zero α] : (init : ShmSystem α).Inv where
  newest := fun _ h => nomatch h
  segments := fun _ h => absurd h (Nat.not_lt_zero _)
  app := ⟨fun _ _ h => (nomatch h), trivial⟩
  driver := ⟨fun _ => rfl, fun _ h => (nomatch h), fun _ h => (nomatch h), trivial⟩
  log := ⟨fun _ h => (nomatch h), List.Pairwise.nil⟩

/-- The invariant holds in every reachable state. -/
theorem Inv.reached [Zero α] (h : Reaches ShmSystem.step ShmSystem.init s) : s.Inv := by
  obtain ⟨ls, hrun⟩ := h
  exact run_invariant (fun _ => True) Inv (fun _ _ _ _ hinv hstep => hinv.step hstep) inv_init
    (fun _ _ => trivial) hrun

/-! ## `read` on an attached segment -/

/-- What `read` on segment `i`, created for `cap` samples and mapped by `b`, relies on at the
    access `op`. -/
structure ReadSafe (s : ShmSystem α) (b : SharedRingBuffer) (i cap : Nat) (op : ReadOp α) :
    Prop where
  pos : 1 ≤ cap
  capacity : (s.shm.segment i).header.capacity = cap
  -- the mapping covers the float area, and the segment the mapping
  mapping : sizeofHeader + cap * sizeofFloat ≤ b.shmSize
  backed : b.shmSize ≤ (s.shm.segment i).size
  -- the positions are two counts of samples, reduced to 64 bits
  readPos : (s.shm.segment i).header.readPos = u64 (s.history i).consumed
  writePos : (s.shm.segment i).header.writePos = u64 (s.history i).written.length
  consumed_le : (s.history i).consumed ≤ (s.history i).written.length
  written_le : (s.history i).written.length ≤ (s.history i).consumed + cap
  -- both chunks of the copy end inside the mapping
  chunks : ∀ n r c buf, op = .copy n r c buf → c = cap ∧
    sizeofHeader + (r % c + min n (c - r % c)) * sizeofFloat ≤ b.shmSize ∧
    sizeofHeader + (n - min n (c - r % c)) * sizeofFloat ≤ b.shmSize

/-- Whenever the driver is in `read`, whatever the app was or is doing, the header and the
    mapping are complete. -/
theorem read_attached [Zero α] {op : ReadOp α} {bytesCount : Nat} (h : Reaches step init s)
    (hread : s.driver.task = .read i op bytesCount) :
    ∃ b, s.driver.io.sharedBuffer = some b ∧ b.segment = some i ∧
      ReadSafe s b i (s.requested i) op := by
  have hinv := Inv.reached h
  have htask := hinv.driver.task
  rw [hread] at htask
  obtain ⟨hseg, hready, _, _⟩ := htask
  obtain ⟨b, hb, hbseg⟩ := Option.bind_eq_some_iff.mp hseg
  have hmapped := hinv.driver.mapped i hseg
  have hsegment := hinv.segments i hmapped.created
  obtain ⟨hwritePos, hreadPos, hle, hfit⟩ := hsegment.ring.positions
  have hsize : b.shmSize = sizeofHeader + s.requested i * sizeofFloat := hmapped.mapping b hb
  refine ⟨b, hb, hbseg, hsegment.pos, hready.capacity, Nat.le_of_eq hsize.symm, ?_, hreadPos,
    hwritePos, hle, hfit, ?_⟩
  · -- the object is as large as the segment
    rw [hsize, hmapped.size]
    exact Nat.le_refl _
  · intro n r c buf hcopy
    -- while the chunks are copied, the reader has the capacity of a complete header
    have hreader : s.reader i = some op := by
      unfold reader
      rw [hread]
      exact if_pos rfl
    have hop := hsegment.ring.reader op hreader
    rw [hcopy] at hop
    obtain ⟨_, hc, _, hn, _⟩ := hop
    have hpos := hsegment.pos
    have hcell : r % c < c := Nat.mod_lt r (by omega)
    rw [hsize]
    unfold sizeofFloat
    exact ⟨hc, by omega, by omega⟩

/-- The driver attaches when the constructor has stored one field of the header, and reads when
    it has stored them all. -/
def attachEarly : List (ShmLabel Nat) :=
  [.shmCreate 25 2] ++ List.replicate 5 (.app true) ++ [.onStart] ++
    List.replicate 5 (.driver true) ++ List.replicate 6 (.app true) ++ [.readClientInput 8] ++
    List.replicate 2 (.driver true)

theorem read_attached_attachEarly :
    ∃ s b, run step init attachEarly = some s ∧ s.driver.io.sharedBuffer = some b ∧
      b.segment = some 0 ∧ ReadSafe s b 0 5 (.loadReadPos 2) := by
  obtain ⟨s, hrun, htask, hcap⟩ : ∃ s, run step init attachEarly = some s ∧
      s.driver.task = .read 0 (.loadReadPos 2) 8 ∧ s.requested 0 = 5 := ⟨_, rfl, rfl, rfl⟩
  obtain ⟨b, hb, hseg, hsafe⟩ := read_attached ⟨_, hrun⟩ htask
  rw [hcap] at hsafe
  exact ⟨s, b, hrun, hb, hseg, hsafe⟩

/-! ## When the positions wrap

A run that takes both positions around: silent frames pass through a ring of five samples
until two samples are missing to `2 ^ 64`. -/

/-- The ring with `written` silent samples gone in and `consumed` gone out. -/
def silentRing (written consumed heartbeat : Nat) : Segment Nat :=
  ⟨fullSize 5, ⟨u64 written, u64 consumed, 5, 2, 25, 1, heartbeat⟩, fun _ => 0⟩

/-- Both sides use this ring, and the driver has seen its heartbeat. -/
structure Quiet (s : ShmSystem Nat) (n heartbeat : Nat) : Prop where
  steady : s.Steady 0 (silentRing n n heartbeat) ⟨List.replicate n 0, n⟩
  heartbeat : s.driver.io.lastHeartbeat = heartbeat

theorem quiet_start : ∃ s, Reaches step init s ∧ Quiet s 0 0 := by
  refine ⟨_, ⟨[.shmCreate 25 2] ++ List.replicate 11 (.app true) ++ [.onStart] ++
    List.replicate 5 (.driver true), rfl⟩, ?_⟩
  exact ⟨⟨rfl, rfl, rfl, rfl, rfl, rfl⟩, rfl⟩

theorem memcpy_silence (dst n : Nat) :
    memcpy (fun _ => 0) dst (List.replicate n 0) = fun _ => 0 := by
  funext a
  unfold memcpy
  split
  · exact List.getElem_replicate ..
  · rfl

/-- Another silent frame goes in. -/
theorem silentRing_write (n hb : Nat) :
    (silentRing n n hb).write (List.replicate 2 0) =
      (true, silentRing (n + 2) n (u64 (hb + 1))) := by
  have hfill : u64Sub (u64 n) (u64 n) = 0 := by
    rw [u64Sub_u64 (Nat.le_refl n) (by omega), Nat.sub_self]
  have hroom : ¬ u64Sub 5 0 < 2 := by decide
  unfold Segment.write silentRing
  simp only [hfill, List.length_replicate, hroom, ↓reduceIte, u64_u64_add, List.take_replicate,
    List.drop_replicate, memcpy_silence, ite_self]

/-- And a frame goes out. -/
theorem silentRing_read (n hb : Nat) :
    ∃ buf, (silentRing (n + 2) n hb).read 2 = (some buf, silentRing (n + 2) (n + 2) hb) := by
  have hfill : u64Sub (u64 (n + 2)) (u64 n) = 2 := by
    rw [u64Sub_u64 (Nat.le_add_right n 2) (by omega), Nat.add_sub_cancel_left]
  unfold Segment.read silentRing
  simp only [hfill, Nat.lt_irrefl, ↓reduceIte, u64_u64_add]
  exact ⟨_, rfl⟩

/-- The heartbeat of a `write` is a new one. -/
theorem checkHeartbeat_next (io : IOHandler) :
    ∃ io', io.markConnected.checkHeartbeat (u64 (io.lastHeartbeat + 1)) = (false, io') ∧
      io'.sharedBuffer = io.sharedBuffer ∧ io'.lastHeartbeat = u64 (io.lastHeartbeat + 1) ∧
      io'.staleCount = 0 := by
  obtain ⟨underrun, heq⟩ := io.markConnected_eq
  have hne : ¬ u64 (io.lastHeartbeat + 1) = io.lastHeartbeat := by
    unfold u64
    omega
  rw [heq]
  unfold IOHandler.checkHeartbeat
  rw [if_neg hne]
  exact ⟨_, rfl, rfl, rfl, rfl⟩

/-- A frame is written and read. -/
theorem quiet_round {s : ShmSystem Nat} {n hb : Nat} (hquiet : Quiet s n hb) :
    ∃ t, Reaches step s t ∧ Quiet t (n + 2) (u64 (hb + 1)) := by
  obtain ⟨hsteady, hlast⟩ := hquiet
  obtain ⟨t, hwrite, hsteady', hdriver⟩ :=
    hsteady.write (List.replicate 2 0) (fun _ => 0) 1 rfl (silentRing_write n hb)
  obtain ⟨io, hcheck, hbuf, hnext, _⟩ := checkHeartbeat_next t.driver.io
  rw [hdriver, hlast] at hcheck hnext
  have hcall := hsteady'.callback 8 rfl (by rw [hdriver]; exact hcheck)
  obtain ⟨buf, hread⟩ := silentRing_read n (u64 (hb + 1))
  obtain ⟨u, hdeliver, hsteady'', hio, _⟩ :=
    hsteady'.deliver ((IOHandler.segment_congr hbuf).trans hsteady'.connected) hread
  refine ⟨u, (hwrite.trans hcall).trans hdeliver, ?_, ?_⟩
  · have hhist : (History.write ⟨List.replicate n 0, n⟩ true (List.replicate 2 0)).read true 2 =
        ⟨List.replicate (n + 2) 0, n + 2⟩ := by
      simp only [History.write, History.read, ↓reduceIte, List.replicate_append_replicate]
    rw [hhist] at hsteady''
    exact hsteady''
  · rw [hio]
    exact hnext

/-- Any number of silent frames passes. -/
theorem quiet_reached (k : Nat) : ∃ s hb, Reaches step init s ∧ Quiet s (2 * k) hb := by
  induction k with
  | zero =>
    obtain ⟨s, hreach, hquiet⟩ := quiet_start
    exact ⟨s, 0, hreach, hquiet⟩
  | succ k ih =>
    obtain ⟨s, hb, hreach, hquiet⟩ := ih
    obtain ⟨t, hround, hquiet'⟩ := quiet_round hquiet
    exact ⟨t, _, hreach.trans hround, hquiet'⟩

/-- Two samples are missing to `2 ^ 64`. -/
def nearWrap : Nat := 2 * (2 ^ 63 - 1)

/-- The ring after a block of two frames across the wrap. -/
def wrappedRing (readPos heartbeat : Nat) : Segment Nat :=
  ⟨fullSize 5, ⟨2, readPos, 5, 2, 25, 1, heartbeat⟩,
    memcpy (memcpy (fun _ => 0) 4 [0]) 0 [1, 2, 3]⟩

theorem silentRing_wrap (hb : Nat) :
    (silentRing nearWrap nearWrap hb).write [0, 1, 2, 3] =
      (true, wrappedRing nearWrap (u64 (hb + 1))) := by
  have hpos : u64 nearWrap = nearWrap := by decide
  have hfill : u64Sub (u64 nearWrap) (u64 nearWrap) = 0 := by decide
  have hcell : u64 nearWrap % 5 = 4 := by decide
  have hend : u64 (u64 nearWrap + [0, 1, 2, 3].length) = 2 := by decide
  have hroom : ¬ u64Sub 5 0 < [0, 1, 2, 3].length := by decide
  unfold Segment.write silentRing wrappedRing
  simp only [hfill, hcell, hend, hroom, ↓reduceIte]
  rw [hpos]
  rfl

/-- The driver is about to read a frame, with a block across the wrap written. -/
theorem wrap_reached :
    ∃ (s : ShmSystem Nat) (io : IOHandler) (hb : Nat),
      Reaches step init (s.setDriver io (.read 0 (.loadReadPos 2) 8)) ∧
      s.Steady 0 (wrappedRing nearWrap hb)
        ⟨List.replicate nearWrap 0 ++ [0, 1, 2, 3], nearWrap⟩ ∧
      io.segment = some 0 ∧ io.lastHeartbeat = hb ∧ io.staleCount = 0 := by
  obtain ⟨s, hb, hreach, hsteady, hlast⟩ := quiet_reached (2 ^ 63 - 1)
  obtain ⟨t, hwrite, hsteady', hdriver⟩ :=
    hsteady.write [0, 1, 2, 3] (fun j => j) 2 rfl (silentRing_wrap hb)
  obtain ⟨io, hcheck, hbuf, hnext, hstale⟩ := checkHeartbeat_next t.driver.io
  rw [hdriver, hlast] at hcheck hnext
  have hcall := hsteady'.callback 8 rfl (by rw [hdriver]; exact hcheck)
  exact ⟨t, io, _, (hreach.trans hwrite).trans hcall, hsteady',
    (IOHandler.segment_congr hbuf).trans hsteady'.connected, hnext, hstale⟩

/-- Once `write_pos` has wrapped it is less than `read_pos`. -/
theorem positions_wrap : ¬ ∀ (s : ShmSystem Nat) (i : Nat) (op : ReadOp Nat) (bytesCount : Nat),
    Reaches step init s → s.driver.task = .read i op bytesCount →
      ∃ b, s.driver.io.sharedBuffer = some b ∧ 1 ≤ s.requested i ∧
        (s.shm.segment i).header.capacity = s.requested i ∧
        sizeofHeader + s.requested i * sizeofFloat ≤ b.shmSize ∧
        (s.shm.segment i).header.readPos ≤ (s.shm.segment i).header.writePos ∧
        (s.shm.segment i).header.writePos ≤
          (s.shm.segment i).header.readPos + s.requested i := by
  intro hclaim
  obtain ⟨s, io, hb, hreach, hsteady, _⟩ := wrap_reached
  obtain ⟨b, _, _, _, _, hle, _⟩ := hclaim _ 0 (.loadReadPos 2) 8 hreach rfl
  have hseg : (s.setDriver io (.read 0 (.loadReadPos 2) 8)).shm.segment 0 =
      wrappedRing nearWrap hb := hsteady.segment
  rw [hseg] at hle
  have hwrapped : ¬ nearWrap ≤ 2 := by decide
  exact hwrapped hle

end ShmSystem

end Noise
