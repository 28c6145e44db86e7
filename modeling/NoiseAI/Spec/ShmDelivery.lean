import NoiseAI.Spec.Attach

/-!
# What the app's samples become

The callbacks of the driver, over any run of the app and the driver with restarts and crashes
on either side: every buffer is silence or whole frames out of one segment, and all samples
delivered are in order of segment and position (`callbacks_placed`). The log is compared with a
list of start positions, one for each callback.
-/

namespace Noise

variable {α : Type}

namespace ShmSystem

open Machine

/-- The samples a callback delivers from start position `p.2` on, as segment and position. -/
def places (p : Callback α × Nat) : List (Nat × Nat) :=
  match p.1.answer with
  | none => []
  | some (i, buf) => (List.range buf.length).map fun k => (i, p.2 + k)

/-- The buffer of `e` is whole frames of segment `i` from position `start` on, all written and
    none of them before the flush of the connection. -/
structure PlacedAt (s : ShmSystem α) (e : Callback α) (start i : Nat) (buf : List α) : Prop where
  length : e.bytesCount % 8 = 0 → buf.length = e.bytesCount / 4
  aligned : start % 2 = 0
  written : start + buf.length ≤ (s.history i).written.length
  fresh : e.mark ≤ start

/-- The log of `s`, with a start position for each callback. -/
structure Placed (s : ShmSystem α) (placed : List (Callback α × Nat)) : Prop where
  log : placed.map Prod.fst = s.log
  buffers : ∀ e start, (e, start) ∈ placed → ∀ i buf, e.answer = some (i, buf) →
    s.PlacedAt e start i buf
  increasing : (placed.flatMap places).Pairwise (Prod.Lex (· < ·) (· < ·))

/-- The samples of the buffer are the ones written there. -/
def Genuine (s : ShmSystem α) (start i : Nat) (buf : List α) : Prop :=
  buf = (s.history i).written.slice start buf.length

theorem pairwise_places (p : Callback α × Nat) :
    (places p).Pairwise (Prod.Lex (· < ·) (· < ·)) := by
  unfold places
  split
  · exact List.Pairwise.nil
  · rw [List.pairwise_map]
    apply List.pairwise_lt_range.imp
    intro k k' hk
    apply Prod.Lex.right
    omega

/-- The samples of an earlier callback come before those of a later one. -/
theorem Before.places {e f : Callback α} (h : Before e f) {x y : Nat × Nat}
    (hx : x ∈ places (e, e.start)) (hy : y ∈ places (f, f.start)) :
    Prod.Lex (· < ·) (· < ·) x y := by
  unfold ShmSystem.places at hx hy
  simp only at hx hy
  split at hx
  · exact absurd hx List.not_mem_nil
  · rename_i i buf he
    split at hy
    · exact absurd hy List.not_mem_nil
    · rename_i j buf' hf
      obtain ⟨k, hk, rfl⟩ := List.mem_map.mp hx
      obtain ⟨k', _, rfl⟩ := List.mem_map.mp hy
      rw [List.mem_range] at hk
      rcases h i buf he j buf' hf with hlt | ⟨rfl, hle⟩
      · exact Prod.Lex.left _ _ hlt
      · apply Prod.Lex.right
        omega

theorem Delivered.placedAt {s : ShmSystem α} {e : Callback α} {i : Nat} {buf : List α}
    (hinv : s.Inv) (h : s.Delivered e i buf) : s.PlacedAt e e.start i buf := by
  have hle := (hinv.segments i h.created).ring.positions.consumed_le
  refine ⟨fun hframes => ?_, h.aligned, Nat.le_trans h.consumed hle, h.fresh⟩
  rw [h.length]
  unfold IOHandler.totalSamples IOHandler.kChannels sizeofFloat
  omega

/-- Every callback is answered with silence or with whole frames in order. -/
theorem callbacks_placed [Zero α] {s : ShmSystem α} (h : Reaches step init s) :
    ∃ placed, s.Placed placed ∧ ∀ e start, (e, start) ∈ placed → ∀ i buf,
      e.answer = some (i, buf) → (s.history i).written.length < 2 ^ 64 → s.Genuine start i buf := by
  have hinv := Inv.reached h
  have hstart : ∀ (e : Callback α) start, (e, start) ∈ s.log.map (fun e => (e, e.start)) →
      e ∈ s.log ∧ start = e.start := by
    intro e start hmem
    obtain ⟨f, hf, heq⟩ := List.mem_map.mp hmem
    cases heq
    exact ⟨hf, rfl⟩
  refine ⟨s.log.map fun e => (e, e.start), ⟨?_, ?_, ?_⟩, ?_⟩
  · rw [List.map_map]
    exact List.map_id s.log
  · intro e start hmem i buf hanswer
    obtain ⟨hlog, rfl⟩ := hstart e start hmem
    exact (hinv.log.delivered e hlog i buf hanswer).placedAt hinv
  · rw [List.pairwise_flatMap]
    refine ⟨fun p _ => pairwise_places p, ?_⟩
    rw [List.pairwise_map]
    apply hinv.log.ordered.imp
    intro e f hbefore x hx y hy
    exact hbefore.places hx hy
  · intro e start hmem i buf hanswer hwrap
    obtain ⟨hlog, rfl⟩ := hstart e start hmem
    exact (hinv.log.delivered e hlog i buf hanswer).samples hwrap

/-- A frame that is written and read. -/
theorem frame_delivered :
    ∃ (s : ShmSystem Nat) (e : Callback Nat), Reaches step init s ∧ e ∈ s.log ∧
      e.answer = some (0, [3, 4]) ∧ (s.history 0).written = [3, 4] := by
  obtain ⟨g, g', haccepted, hserved, hactive, hbeat⟩ :
      ∃ g g', (silentRing 0 0 0).write [3, 4] = (true, g) ∧ g.read 2 = (some [3, 4], g') ∧
        g.isActive = true ∧ g.getHeartbeat = u64 (0 + 1) := ⟨_, _, rfl, rfl, rfl, rfl⟩
  obtain ⟨s, hreach, hsteady, hlast⟩ := quiet_start
  obtain ⟨t, hwrite, hsteady', hdriver⟩ :=
    hsteady.write [3, 4] (fun j => j + 3) 1 rfl haccepted
  obtain ⟨io, hcheck, hbuf, _⟩ := checkHeartbeat_next t.driver.io
  rw [hdriver, hlast] at hcheck
  have hcall := hsteady'.callback 8 hactive (by rw [hdriver, hbeat]; exact hcheck)
  obtain ⟨u, hdeliver, hsteady'', _, e, hlog, hanswer⟩ :=
    hsteady'.deliver ((IOHandler.segment_congr hbuf).trans hsteady'.connected) hserved
  refine ⟨u, e, ((hreach.trans hwrite).trans hcall).trans hdeliver, hlog, hanswer, ?_⟩
  rw [hsteady''.history]
  rfl

theorem callbacks_placed_frame :
    ∃ (s : ShmSystem Nat) (placed : List (Callback Nat × Nat)) (e : Callback Nat) (start : Nat),
      s.Placed placed ∧ (e, start) ∈ placed ∧ e.answer = some (0, [3, 4]) ∧
        s.Genuine start 0 [3, 4] := by
  obtain ⟨s, e, hreach, hlog, hanswer, hwritten⟩ := frame_delivered
  obtain ⟨placed, hplaced, hgenuine⟩ := callbacks_placed hreach
  rw [← hplaced.log] at hlog
  obtain ⟨⟨f, start⟩, hmem, rfl⟩ := List.mem_map.mp hlog
  have hshort : (s.history 0).written.length < 2 ^ 64 := by
    rw [hwritten]
    decide
  exact ⟨s, placed, f, start, hplaced, hmem, hanswer,
    hgenuine f start hmem 0 [3, 4] hanswer hshort⟩

/-! ## Across the wrap -/

theorem wrappedRing_read (hb : Nat) :
    (wrappedRing nearWrap hb).read 2 = (some [0, 1], wrappedRing 0 hb) := by
  have hfill : u64Sub 2 nearWrap = 4 := by decide
  have hcell : nearWrap % 5 = 4 := by decide
  have hend : u64 (nearWrap + 2) = 0 := by decide
  have henough : ¬ 4 < 2 := by decide
  unfold Segment.read wrappedRing
  simp only [hfill, hcell, hend, henough, ↓reduceIte]
  rfl

/-- The frame after the wrap is looked for in the wrong cells. -/
theorem wrappedRing_read_zero (hb : Nat) :
    (wrappedRing 0 hb).read 2 = (some [1, 2], wrappedRing 2 hb) := by
  have hfill : u64Sub 2 0 = 2 := by decide
  have hend : u64 (0 + 2) = 2 := by decide
  unfold Segment.read wrappedRing
  simp only [hfill, hend, Nat.lt_irrefl, ↓reduceIte]
  rfl

/-- A callback with the heartbeat of the last one. -/
theorem checkHeartbeat_same (io : IOHandler) (hstale : io.staleCount = 0) :
    ∃ io', io.markConnected.checkHeartbeat io.lastHeartbeat = (false, io') ∧
      io'.sharedBuffer = io.sharedBuffer := by
  obtain ⟨underrun, heq⟩ := io.markConnected_eq
  rw [heq]
  unfold IOHandler.checkHeartbeat IOHandler.kStaleThreshold
  simp only [↓reduceIte, hstale]
  exact ⟨_, rfl, rfl⟩

/-- Two frames are written across the wrap, and two are read. -/
theorem wrap_delivered :
    ∃ (s : ShmSystem Nat) (e : Callback Nat), Reaches step init s ∧ e ∈ s.log ∧
      e.answer = some (0, [1, 2]) ∧
      (s.history 0).written = List.replicate nearWrap 0 ++ [0, 1, 2, 3] := by
  obtain ⟨s, io, hb, hreach, hsteady, hconn, hlast, hstale⟩ := wrap_reached
  -- the first read: up to the wrap
  obtain ⟨t, hdeliver, hsteady', hio, _⟩ := hsteady.deliver hconn (wrappedRing_read hb)
  -- the second one: past it
  obtain ⟨io', hcheck, hbuf⟩ := checkHeartbeat_same { io with wasUnderrun := false } hstale
  rw [← hio] at hcheck hbuf
  have hlast' : t.driver.io.lastHeartbeat = hb := by
    rw [hio]
    exact hlast
  rw [hlast'] at hcheck
  have hcall := hsteady'.callback 8 rfl hcheck
  obtain ⟨u, hdeliver', hsteady'', _, e, hlog, hanswer⟩ :=
    hsteady'.deliver ((IOHandler.segment_congr hbuf).trans hsteady'.connected)
      (wrappedRing_read_zero hb)
  refine ⟨u, e, ((hreach.trans hdeliver).trans hcall).trans hdeliver', hlog, hanswer, ?_⟩
  rw [hsteady''.history]
  simp only [History.read, ↓reduceIte]

/-- Beyond `2 ^ 64` samples a buffer need not be what was written at any frame. -/
theorem wrap_misplaces : ¬ ∀ s : ShmSystem Nat, Reaches step init s →
    ∃ placed, s.Placed placed ∧ ∀ e start, (e, start) ∈ placed → ∀ i buf,
      e.answer = some (i, buf) → s.Genuine start i buf := by
  intro hclaim
  obtain ⟨s, e, hreach, hlog, hanswer, hwritten⟩ := wrap_delivered
  obtain ⟨placed, hplaced, hgenuine⟩ := hclaim s hreach
  rw [← hplaced.log] at hlog
  obtain ⟨⟨f, start⟩, hmem, rfl⟩ := List.mem_map.mp hlog
  have haligned := (hplaced.buffers f start hmem 0 [1, 2] hanswer).aligned
  have hsamples : [1, 2] = (s.history 0).written.slice start 2 :=
    hgenuine f start hmem 0 [1, 2] hanswer
  -- the only sample 1 is the second of the last block
  have hfirst : (s.history 0).written[start]? = some 1 := by
    have hget := congrArg (·[0]?) hsamples
    simpa [List.slice, List.getElem?_take] using hget.symm
  have heven : nearWrap % 2 = 0 := by decide
  rw [hwritten] at hfirst
  generalize nearWrap = n at hfirst heven
  by_cases hlt : start < n
  · rw [List.getElem?_append_left (by rw [List.length_replicate]; exact hlt),
      List.getElem?_replicate, if_pos hlt] at hfirst
    cases hfirst
  · rw [List.getElem?_append_right (by rw [List.length_replicate]; omega),
      List.length_replicate] at hfirst
    -- so the buffer starts at an odd position
    have hodd : start - n = 1 := by
      have hlast : start - n < 4 := (List.getElem?_eq_some_iff.mp hfirst).1
      generalize start - n = k at hfirst hlast
      obtain rfl | rfl | rfl | rfl : k = 0 ∨ k = 1 ∨ k = 2 ∨ k = 3 := by omega
      · cases hfirst
      · rfl
      · cases hfirst
      · cases hfirst
    omega

end ShmSystem

end Noise
