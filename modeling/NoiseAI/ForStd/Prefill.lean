import Mathlib.Order.Lattice.Nat
import Mathlib.Tactic.Common

/-!
# Block buffering with a prefill gate

A stage takes input in requests of any size, works on blocks of `size` samples, and
answers a request of `n` samples with `n` processed samples or, when it has too few,
with silence. It does not answer with samples before `cushion` of them are ready for
the first time. Only the counts matter here: `Level` keeps how much was accepted, how
much was emitted and whether the gate is open. The backlog is the delay the stage adds.

Every silent answer adds its length to the backlog for good. The backlog is bounded
(`backlog_step_le`), and when `Primed` holds the stage never falls silent again. Requests of one
size keep the backlog below the first multiple of it that fills the cushion (`Paced`).
-/

namespace Prefill

structure Level where
  accepted : Nat
  emitted : Nat
  started : Bool

variable (size cushion : Nat)

/-- Samples that are processed and not emitted. -/
def Level.available (l : Level) : Nat := size * (l.accepted / size) - l.emitted

/-- Take `n` samples, and open the gate if enough are ready. -/
def Level.accept (l : Level) (n : Nat) : Level where
  accepted := l.accepted + n
  emitted := l.emitted
  started := l.started || cushion ≤ size * ((l.accepted + n) / size) - l.emitted

/-- A request of `n` samples can be answered with samples. -/
def Level.ready (l : Level) (n : Nat) : Bool := l.started && n ≤ l.available size

/-- Answer a request of `n` samples. -/
def Level.step (l : Level) (n : Nat) : Level :=
  let l := l.accept size cushion n
  if l.ready size n then { l with emitted := l.emitted + n } else l

/-- Samples accepted and not emitted. -/
def Level.backlog (l : Level) : Nat := l.accepted - l.emitted

/-- Nothing is emitted before it is processed, and nothing before the gate opens. -/
structure Level.Inv (l : Level) : Prop where
  emitted_le : l.emitted ≤ size * (l.accepted / size)
  closed : l.started = false → l.emitted = 0

variable {size cushion} {l : Level} {n : Nat}

/-- Whole blocks of `m` samples, and the rest. -/
theorem whole_add_mod (size m : Nat) : size * (m / size) + m % size = m := Nat.div_add_mod m size

theorem Level.Inv.emitted_le_accepted (h : l.Inv size) : l.emitted ≤ l.accepted := by
  have hle := h.emitted_le
  have hdiv := whole_add_mod size l.accepted
  omega

/-- Accepting keeps the invariant. -/
theorem Level.Inv.accept (h : l.Inv size) (cushion n : Nat) :
    (l.accept size cushion n).Inv size where
  emitted_le := by
    have hmono : l.accepted / size ≤ (l.accepted + n) / size := Nat.div_le_div_right (by omega)
    exact Nat.le_trans h.emitted_le (Nat.mul_le_mul_left _ hmono)
  closed := by
    intro hclosed
    simp only [Level.accept, Bool.or_eq_false_iff] at hclosed
    exact h.closed hclosed.1

/-- What a request needs to be answered with samples. -/
theorem Level.ready_iff :
    l.ready size n = true ↔ l.started = true ∧ n ≤ l.available size := by
  simp only [Level.ready, Bool.and_eq_true, decide_eq_true_eq]

/-- The state after an answer with samples. -/
theorem Level.step_of_ready (h : (l.accept size cushion n).ready size n = true) :
    l.step size cushion n = { accepted := l.accepted + n, emitted := l.emitted + n,
                              started := true } := by
  have hstarted := (Level.ready_iff.mp h).1
  simp only [Level.step, h, if_true]
  rw [hstarted]
  rfl

/-- The state after a silent answer. -/
theorem Level.step_of_silent (h : (l.accept size cushion n).ready size n = false) :
    l.step size cushion n = l.accept size cushion n := by
  simp only [Level.step, h, Bool.false_eq_true, if_false]

/-- Every answer keeps the invariant. -/
theorem Level.Inv.step (h : l.Inv size) : (l.step size cushion n).Inv size := by
  have hacc := h.accept cushion n
  cases hready : (l.accept size cushion n).ready size n with
  | false => rw [Level.step_of_silent hready]; exact hacc
  | true =>
    rw [Level.step_of_ready hready]
    have havail := (Level.ready_iff.mp hready).2
    have hle := hacc.emitted_le
    simp only [Level.available, Level.accept] at havail hle
    constructor
    · show l.emitted + n ≤ size * ((l.accepted + n) / size)
      omega
    · intro hclosed
      exact nomatch hclosed

/-! ## The backlog -/

/-- An answer with samples leaves the backlog as it is. -/
theorem Level.backlog_step_of_ready
    (hready : (l.accept size cushion n).ready size n = true) :
    (l.step size cushion n).backlog = l.backlog := by
  rw [Level.step_of_ready hready]
  simp only [Level.backlog]
  omega

/-- A silent answer adds its length to the backlog. -/
theorem Level.Inv.backlog_step_of_silent (h : l.Inv size)
    (hsilent : (l.accept size cushion n).ready size n = false) :
    (l.step size cushion n).backlog = l.backlog + n := by
  have hle := h.emitted_le_accepted
  rw [Level.step_of_silent hsilent]
  simp only [Level.backlog, Level.accept]
  omega

/-- After a silent answer the backlog is below the cushion, if the gate is still closed, or
    the request was larger than what was ready. -/
theorem Level.Inv.backlog_silent_le (h : l.Inv size) (hsize : 0 < size) (hdvd : size ∣ cushion)
    (hsilent : (l.accept size cushion n).ready size n = false) :
    (l.step size cushion n).backlog ≤ max (cushion - 1) (n + size - 2) := by
  have hmod : (l.accepted + n) % size < size := Nat.mod_lt _ hsize
  have hdiv := whole_add_mod size (l.accepted + n)
  rw [Level.step_of_silent hsilent]
  show l.accepted + n - l.emitted ≤ _
  cases hstarted : (l.accept size cushion n).started with
  | true =>
    have hshort : ¬ n ≤ (l.accept size cushion n).available size := by
      intro hle
      rw [Level.ready_iff.mpr ⟨hstarted, hle⟩] at hsilent
      exact nomatch hsilent
    simp only [Level.available, Level.accept] at hshort
    omega
  | false =>
    -- the gate is closed: what is ready is a whole number of blocks below the cushion
    have hzero := (h.accept cushion n).closed hstarted
    simp only [Level.accept, Bool.or_eq_false_iff, decide_eq_false_iff_not] at hstarted hzero
    obtain ⟨blocks, rfl⟩ := hdvd
    have hlt : size * ((l.accepted + n) / size) < size * blocks := by omega
    have hblocks : (l.accepted + n) / size + 1 ≤ blocks := Nat.lt_of_mul_lt_mul_left hlt
    have hmul : size * ((l.accepted + n) / size + 1) ≤ size * blocks :=
      Nat.mul_le_mul_left _ hblocks
    rw [Nat.mul_add, Nat.mul_one] at hmul
    omega

/-- The bound on the backlog is kept by requests of at most `limit` samples. -/
theorem Level.Inv.backlog_step_le (h : l.Inv size) (cushion limit : Nat) (hsize : 0 < size)
    (hdvd : size ∣ cushion) (hn : n ≤ limit)
    (hl : l.backlog ≤ max (cushion - 1) (limit + size - 2)) :
    (l.step size cushion n).backlog ≤ max (cushion - 1) (limit + size - 2) := by
  cases hready : (l.accept size cushion n).ready size n with
  | true => rw [Level.backlog_step_of_ready hready]; exact hl
  | false =>
    have hle := h.backlog_silent_le hsize hdvd hready
    omega

/-- A sequence of numbers that never falls and stays bounded is constant from some index on. -/
theorem exists_const_of_bounded {f : Nat → Nat} {bound : Nat} (hmono : ∀ k, f k ≤ f (k + 1))
    (hbound : ∀ k, f k ≤ bound) : ∃ K, ∀ k, K ≤ k → f k = f K := by
  have hbdd : BddAbove (Set.range f) := by
    refine ⟨bound, ?_⟩
    rintro _ ⟨k, rfl⟩
    exact hbound k
  obtain ⟨K, hK⟩ := Nat.sSup_mem (Set.range_nonempty f) hbdd
  refine ⟨K, fun k hk => Nat.le_antisymm ?_ (monotone_nat_of_le_succ hmono hk)⟩
  rw [hK]
  exact le_csSup hbdd ⟨k, rfl⟩

/-! ## No silence after the start -/

/-- With at least as much backlog as the next input leaves over, a request is answered with
    samples. -/
theorem Level.Inv.ready_of_mod_le (h : l.Inv size) (hstarted : l.started = true)
    (hb : (l.accepted + n) % size ≤ l.backlog) :
    (l.accept size cushion n).ready size n = true := by
  have hle := h.emitted_le_accepted
  have hdiv := whole_add_mod size (l.accepted + n)
  rw [Level.ready_iff]
  constructor
  · simp only [Level.accept, hstarted, Bool.true_or]
  · simp only [Level.backlog] at hb
    simp only [Level.available, Level.accept]
    omega

/-- The gate is open, and the backlog covers any rest of a block. -/
structure Level.Primed (size : Nat) (l : Level) : Prop where
  started : l.started = true
  backlog : size - 1 ≤ l.backlog

/-- A primed stage answers every request with samples. -/
theorem Level.Primed.ready (hp : l.Primed size) (h : l.Inv size) (hsize : 0 < size)
    (cushion n : Nat) :
    (l.accept size cushion n).ready size n = true := by
  have hmod : (l.accepted + n) % size < size := Nat.mod_lt _ hsize
  have hb := hp.backlog
  exact h.ready_of_mod_le hp.started (by omega)

/-- A primed stage stays primed. -/
theorem Level.Primed.step (hp : l.Primed size) (h : l.Inv size) (hsize : 0 < size) :
    (l.step size cushion n).Primed size := by
  have hready := hp.ready h hsize cushion n
  constructor
  · rw [Level.step_of_ready hready]
  · rw [Level.backlog_step_of_ready hready]
    exact hp.backlog

/-! ### Requests of at most one block -/

/-- Before the first answer with samples the gate is closed, and from then on the stage is
    primed. -/
def Level.SmallRequests (size : Nat) (l : Level) : Prop := l.started = false ∨ l.Primed size

/-- The first answer with samples to a small request primes the stage, and so does opening
    the gate. -/
theorem Level.SmallRequests.step (hs : l.SmallRequests size) (h : l.Inv size) (hsize : 0 < size)
    (hcushion : 2 * size ≤ cushion) (hn : n ≤ size) :
    (l.step size cushion n).SmallRequests size := by
  rcases hs with hclosed | hprimed
  · have hzero := h.closed hclosed
    have hdiv := whole_add_mod size (l.accepted + n)
    by_cases hopen : cushion ≤ size * ((l.accepted + n) / size) - l.emitted
    · have hready : (l.accept size cushion n).ready size n = true := by
        rw [Level.ready_iff]
        constructor
        · simp only [Level.accept, decide_eq_true hopen, Bool.or_true]
        · simp only [Level.available, Level.accept]
          omega
      right
      rw [Level.step_of_ready hready]
      constructor
      · rfl
      · simp only [Level.backlog]
        omega
    · have hstarted : (l.accept size cushion n).started = false := by
        simp only [Level.accept, hclosed, decide_eq_false hopen, Bool.or_self]
      have hsilent : (l.accept size cushion n).ready size n = false := by
        simp only [Level.ready, hstarted, Bool.false_and]
      left
      rw [Level.step_of_silent hsilent]
      exact hstarted
  · exact .inr (hprimed.step h hsize)

/-! ### Requests of one size -/

/-- After an answer with samples, all requests being of `n` samples: the stage is primed, or
    requests and input both are whole numbers of blocks. -/
def Level.Flowing (size n : Nat) (l : Level) : Prop :=
  l.started = true ∧ (size - 1 ≤ l.backlog ∨ size ∣ n ∧ size ∣ l.accepted)

/-- A flowing stage answers with samples. -/
theorem Level.Flowing.ready (hf : l.Flowing size n) (h : l.Inv size) (hsize : 0 < size)
    (cushion : Nat) :
    (l.accept size cushion n).ready size n = true := by
  obtain ⟨hstarted, hbacklog | ⟨hn, hacc⟩⟩ := hf
  · exact Level.Primed.ready ⟨hstarted, hbacklog⟩ h hsize cushion n
  · have hmod : (l.accepted + n) % size = 0 := Nat.mod_eq_zero_of_dvd (Nat.dvd_add hacc hn)
    exact h.ready_of_mod_le hstarted (by omega)

/-- A flowing stage keeps flowing. -/
theorem Level.Flowing.step (hf : l.Flowing size n) (h : l.Inv size) (hsize : 0 < size) :
    (l.step size cushion n).Flowing size n := by
  have hready := hf.ready h hsize cushion
  have hbacklog := Level.backlog_step_of_ready hready
  rw [Level.step_of_ready hready] at hbacklog ⊢
  constructor
  · rfl
  · rcases hf.2 with hb | ⟨hn, hacc⟩
    · left
      rw [hbacklog]
      exact hb
    · right
      exact ⟨hn, Nat.dvd_add hacc hn⟩

/-- All requests being of `n` samples: nothing was emitted, and an open gate means that a
    request is larger than a block; or the stage is flowing. -/
def Level.EqualRequests (size n : Nat) (l : Level) : Prop :=
  n ∣ l.accepted ∧ (l.emitted = 0 ∧ (l.started = true → size < n) ∨ l.Flowing size n)

/-- The first answer with samples starts the flow. -/
theorem Level.EqualRequests.flowing_of_ready (he : l.EqualRequests size n) (h : l.Inv size)
    (hsize : 0 < size) (hcushion : 2 * size ≤ cushion)
    (hready : (l.accept size cushion n).ready size n = true) :
    (l.step size cushion n).Flowing size n := by
  obtain ⟨hdvd, ⟨hzero, hgate⟩ | hflow⟩ := he
  · obtain ⟨hopen, havail⟩ := Level.ready_iff.mp hready
    have hdiv := whole_add_mod size (l.accepted + n)
    rw [Level.step_of_ready hready]
    constructor
    · rfl
    simp only [Level.backlog, Level.accept, Level.available] at *
    rcases Nat.lt_or_ge size n with hlarge | hsmall
    · rcases Nat.eq_zero_or_pos l.accepted with hfirst | hlater
      · -- the very first request: all of it was ready, so it is a whole number of blocks
        right
        have hrest : (l.accepted + n) % size = 0 := by omega
        have hblocks := Nat.dvd_of_mod_eq_zero hrest
        rw [hfirst, Nat.zero_add] at hblocks ⊢
        exact ⟨hblocks, hblocks⟩
      · left
        have hle : n ≤ l.accepted := Nat.le_of_dvd hlater hdvd
        omega
    · left
      -- small requests: the flow starts when the cushion is there
      have hclosed : l.started = false := by
        cases hs : l.started with
        | false => rfl
        | true => have hlt := hgate hs; omega
      simp only [hclosed, Bool.false_or, decide_eq_true_eq] at hopen
      omega
  · exact hflow.step h hsize

/-- Requests of one size keep the invariant. -/
theorem Level.EqualRequests.step (he : l.EqualRequests size n) (h : l.Inv size) (hsize : 0 < size)
    (hcushion : 2 * size ≤ cushion) :
    (l.step size cushion n).EqualRequests size n := by
  cases hready : (l.accept size cushion n).ready size n with
  | true =>
    have hflow := he.flowing_of_ready h hsize hcushion hready
    rw [Level.step_of_ready hready] at hflow ⊢
    exact ⟨Nat.dvd_add he.1 (Nat.dvd_refl n), .inr hflow⟩
  | false =>
    obtain ⟨hdvd, ⟨hzero, hgate⟩ | hflow⟩ := he
    · rw [Level.step_of_silent hready]
      refine ⟨Nat.dvd_add hdvd (Nat.dvd_refl n), .inl ⟨hzero, ?_⟩⟩
      intro hopen
      have hshort : ¬ n ≤ (l.accept size cushion n).available size := by
        intro hle
        rw [Level.ready_iff.mpr ⟨hopen, hle⟩] at hready
        exact nomatch hready
      cases hs : l.started with
      | true => exact hgate hs
      | false =>
        simp only [Level.accept, Level.available, hs, Bool.false_or, decide_eq_true_eq]
          at hopen hshort
        omega
    · rw [hflow.ready h hsize cushion] at hready
      exact nomatch hready

/-! ### Requests of one size, at most the cushion -/

/-- While the gate is closed, less than the cushion was accepted. -/
theorem Level.Inv.accepted_lt_of_closed (h : l.Inv size) (hsize : 0 < size) (hdvd : size ∣ cushion)
    (hclosed : (l.accept size cushion n).started = false) : l.accepted + n < cushion := by
  have hzero := (h.accept cushion n).closed hclosed
  simp only [Level.accept, Bool.or_eq_false_iff, decide_eq_false_iff_not] at hclosed hzero
  rw [hzero, Nat.sub_zero] at hclosed
  obtain ⟨blocks, rfl⟩ := hdvd
  have hlt : (l.accepted + n) / size < blocks :=
    Nat.lt_of_mul_lt_mul_left (Nat.lt_of_not_le hclosed.2)
  rw [Nat.mul_comm]
  exact (Nat.div_lt_iff_lt_mul hsize).mp hlt

/-- All requests being of `n` samples: the gate is closed or the stage is flowing, and the backlog
    and one more request are no more than the first multiple of `n` that fills the cushion. -/
structure Level.Paced (size cushion n : Nat) (l : Level) : Prop where
  dvd : n ∣ l.accepted
  flow : l.started = false ∨ l.Flowing size n
  backlog : l.backlog + n ≤ n * ((cushion + n - 1) / n)

/-- A multiple of `n` below the cushion is not the last one that is needed. -/
theorem add_le_of_dvd_of_lt {m : Nat} (hn : 0 < n) (hdvd : n ∣ m) (hlt : m < cushion) :
    m + n ≤ n * ((cushion + n - 1) / n) := by
  obtain ⟨k, rfl⟩ := hdvd
  have hle : k + 1 ≤ (cushion + n - 1) / n := by
    rw [Nat.le_div_iff_mul_le hn, Nat.add_mul, Nat.one_mul, Nat.mul_comm]
    omega
  exact Nat.mul_le_mul_left n hle

theorem Level.paced_start (hn : 0 < n) (hcushion : 0 < cushion) :
    Level.Paced size cushion n { accepted := 0, emitted := 0, started := false } where
  dvd := Nat.dvd_zero n
  flow := .inl rfl
  backlog := add_le_of_dvd_of_lt hn (Nat.dvd_zero n) hcushion

/-- Requests of one size keep their pace. -/
theorem Level.Paced.step (hp : l.Paced size cushion n) (h : l.Inv size) (hsize : 0 < size)
    (hdvd : size ∣ cushion) (hcushion : 2 * size ≤ cushion) (hn : 0 < n) (hle : n ≤ cushion) :
    (l.step size cushion n).Paced size cushion n := by
  cases hready : (l.accept size cushion n).ready size n with
  | true =>
    -- before the first answer with samples nothing was emitted
    have hequal : l.EqualRequests size n := by
      refine ⟨hp.dvd, ?_⟩
      rcases hp.flow with hclosed | hflow
      · exact .inl ⟨h.closed hclosed, fun hopen => nomatch hopen.symm.trans hclosed⟩
      · exact .inr hflow
    have hflow := hequal.flowing_of_ready h hsize hcushion hready
    have hbacklog := Level.backlog_step_of_ready hready
    refine ⟨?_, .inr hflow, ?_⟩
    · rw [Level.step_of_ready hready]
      exact Nat.dvd_add hp.dvd (Nat.dvd_refl n)
    · rw [hbacklog]
      exact hp.backlog
  | false =>
    have hclosed : l.started = false := by
      refine hp.flow.resolve_right fun hflow => ?_
      rw [hflow.ready h hsize cushion] at hready
      exact nomatch hready
    -- an open gate has the whole cushion for the request
    have hstill : (l.accept size cushion n).started = false := by
      by_contra hopen
      rw [Bool.not_eq_false] at hopen
      have hfull := hopen
      simp only [Level.accept, hclosed, Bool.false_or, decide_eq_true_eq] at hfull
      rw [Level.ready_iff.mpr ⟨hopen, Nat.le_trans hle hfull⟩] at hready
      exact nomatch hready
    have hzero := h.closed hclosed
    have hmore : n ∣ l.accepted + n := Nat.dvd_add hp.dvd (Nat.dvd_refl n)
    have hbelow := h.accepted_lt_of_closed hsize hdvd hstill
    have hbacklog := h.backlog_step_of_silent hready
    rw [Level.step_of_silent hready] at hbacklog ⊢
    refine ⟨hmore, .inl hstill, ?_⟩
    have hsum := add_le_of_dvd_of_lt hn hmore hbelow
    rw [hbacklog]
    simp only [Level.backlog, hzero, Nat.sub_zero]
    exact hsum

end Prefill
