import Mathlib.Data.List.Basic
import Mathlib.Data.List.TakeWhile
import Mathlib.Logic.Function.Iterate

/-!
# Circuit breakers

A breaker watches jobs that may be slow. When `limit` jobs in a row were slow it opens, lets
the next `period` jobs pass without doing them, and then does jobs again, counting from zero.
`Trigger` says from the history of the jobs alone which of them opened the breaker. A state
that `Tracks` a history passes, and is open, exactly when the history says so
(`Tracks.passes_iff`, `Tracks.isOpen_iff`), and every job keeps it that way (`Tracks.step`).
-/

namespace Breaker

/-- What became of a job. -/
inductive Kind where
  | passed
  | slow
  | fast
  deriving DecidableEq

structure State where
  count : Nat
  cooldown : Nat
  isOpen : Bool

/-- The next job is passed. -/
def State.passes (s : State) : Bool := s.isOpen && decide (0 < s.cooldown)

/-- Count a slow job, or forget the count. -/
def State.update (limit period : Nat) (s : State) (slow : Bool) : State :=
  if slow then
    if limit ≤ s.count + 1 then { count := s.count + 1, cooldown := period, isOpen := true }
    else { s with count := s.count + 1 }
  else { s with count := 0 }

/-- Close a breaker that was open. -/
def State.leave (s : State) : State :=
  if s.isOpen then { s with isOpen := false, count := 0 } else s

/-- One job; `slow` says how it goes if it is done. -/
def State.step (limit period : Nat) (s : State) (slow : Bool) : State :=
  if s.passes then { s with cooldown := s.cooldown - 1 } else s.leave.update limit period slow

def State.kind (s : State) (slow : Bool) : Kind :=
  if s.passes then .passed else if slow then .slow else .fast

/-! ## Histories -/

/-- How many jobs at the end of a history were slow. -/
def row (h : List Kind) : Nat := (h.reverse.takeWhile (· = .slow)).length

@[simp] theorem row_append (h : List Kind) (k : Kind) :
    row (h ++ [k]) = if k = .slow then row h + 1 else 0 := by
  unfold row
  rw [List.reverse_append, List.reverse_singleton, List.singleton_append, List.takeWhile_cons]
  split <;> simp_all

/-- Job `j` is the one that made the row of slow jobs up to it `limit` jobs long. -/
def Trigger (limit : Nat) (h : List Kind) (j : Nat) : Prop :=
  j < h.length ∧ row (h.take (j + 1)) = limit

variable {limit period : Nat} {h : List Kind} {s : State} {j : Nat} {k : Kind}

theorem trigger_append : Trigger limit (h ++ [k]) j ↔
    Trigger limit h j ∨ j = h.length ∧ row (h ++ [k]) = limit := by
  unfold Trigger
  rw [List.length_append, List.length_singleton]
  by_cases hj : j < h.length
  · rw [List.take_append_of_le_length (by omega)]
    constructor
    · exact fun htrigger => .inl ⟨hj, htrigger.2⟩
    · rintro (htrigger | ⟨hlast, _⟩)
      · exact ⟨by omega, htrigger.2⟩
      · omega
  · constructor
    · intro ⟨hlt, hrow⟩
      have hlast : j = h.length := by omega
      rw [hlast, List.take_of_length_le (by simp)] at hrow
      exact .inr ⟨hlast, hrow⟩
    · rintro (⟨hlt, _⟩ | ⟨hlast, hrow⟩)
      · omega
      · rw [hlast, List.take_of_length_le (by simp)]
        exact ⟨by omega, hrow⟩

/-- A trigger was a slow job. -/
theorem Trigger.slow (hlimit : 0 < limit) (ht : Trigger limit h j) : h[j]? = some .slow := by
  obtain ⟨hj, hrow⟩ := ht
  have htake : h.take (j + 1) = h.take j ++ [h[j]] := by
    rw [List.take_add_one, List.getElem?_eq_getElem hj]
    rfl
  rw [htake, row_append] at hrow
  rw [List.getElem?_eq_getElem hj]
  split at hrow
  · rename_i hslow
    rw [hslow]
  · omega

/-! ## What the state knows of the history -/

/-- The state after the history `h`. -/
structure Tracks (limit period : Nat) (s : State) (h : List Kind) : Prop where
  kinds : ∀ i, h[i]? = some .passed ↔
    i < h.length ∧ ∃ j, Trigger limit h j ∧ j < i ∧ i ≤ j + period
  closed : s.isOpen = false → s.cooldown = 0 ∧ s.count = row h ∧ row h < limit ∧
    ∀ j, Trigger limit h j → j + period + 1 < h.length
  opened : s.isOpen = true → s.count = limit ∧ s.cooldown ≤ period ∧
    ∃ j, Trigger limit h j ∧ h.length + s.cooldown = j + period + 1

/-- A breaker that has not done anything yet. -/
theorem tracks_nil (hlimit : 0 < limit) :
    Tracks limit period { count := 0, cooldown := 0, isOpen := false } [] where
  kinds := by simp
  closed := fun _ => ⟨rfl, rfl, hlimit, fun j ht => absurd ht.1 (Nat.not_lt_zero j)⟩
  opened := fun hopen => nomatch hopen

/-- While the breaker is open, no other trigger comes after the one that opened it. -/
theorem Tracks.le_of_trigger (ht : Tracks limit period s h) (hlimit : 0 < limit) {j j' : Nat}
    (hj : Trigger limit h j) (hlen : h.length ≤ j + period + 1) (hj' : Trigger limit h j') :
    j' ≤ j := by
  by_contra hlt
  have hpassed : h[j']? = some .passed :=
    (ht.kinds j').mpr ⟨hj'.1, j, hj, by omega, by have := hj'.1; omega⟩
  rw [hj'.slow hlimit] at hpassed
  exact nomatch hpassed

/-- The breaker is open from the end of a trigger until the job that follows the period. -/
theorem Tracks.isOpen_iff (ht : Tracks limit period s h) :
    s.isOpen = true ↔ ∃ j, Trigger limit h j ∧ h.length ≤ j + period + 1 := by
  constructor
  · intro hopen
    obtain ⟨_, _, j, hj, hlen⟩ := ht.opened hopen
    exact ⟨j, hj, by omega⟩
  · intro ⟨j, hj, hlen⟩
    by_contra hclosed
    have hlate := (ht.closed (Bool.eq_false_iff.mpr hclosed)).2.2.2 j hj
    omega

/-- The jobs that directly follow a trigger are passed, as many as the period says. -/
theorem Tracks.passes_iff (ht : Tracks limit period s h) (hlimit : 0 < limit) :
    s.passes = true ↔ ∃ j, Trigger limit h j ∧ h.length ≤ j + period := by
  unfold State.passes
  rw [Bool.and_eq_true, decide_eq_true_eq]
  constructor
  · intro ⟨hopen, hcool⟩
    obtain ⟨_, _, j, hj, hlen⟩ := ht.opened hopen
    exact ⟨j, hj, by omega⟩
  · intro ⟨j, hj, hlen⟩
    have hopen : s.isOpen = true := ht.isOpen_iff.mpr ⟨j, hj, by omega⟩
    obtain ⟨_, _, j', hj', hlen'⟩ := ht.opened hopen
    have hle := ht.le_of_trigger hlimit hj' (by omega) hj
    exact ⟨hopen, by omega⟩

/-- The first job after a period is done, and its row starts from zero. -/
theorem Tracks.row_after_period (ht : Tracks limit period s h) (hperiod : 0 < period)
    (hopen : s.isOpen = true) (hcool : s.cooldown = 0) : row h = 0 := by
  obtain ⟨_, _, j, hj, hlen⟩ := ht.opened hopen
  have hlast : h[h.length - 1]? = some .passed :=
    (ht.kinds _).mpr ⟨by omega, j, hj, by omega, by omega⟩
  have hne : h ≠ [] := by
    intro hnil
    rw [hnil] at hlast
    exact nomatch hlast
  have hsplit : h = h.dropLast ++ [.passed] := by
    have hget : h.getLast hne = .passed := by
      rw [← List.getLast?_eq_getElem?, List.getLast?_eq_getLast_of_ne_nil hne] at hlast
      exact Option.some.inj hlast
    rw [← hget, List.dropLast_append_getLast]
  rw [hsplit, row_append, if_neg (by decide)]

/-! ## One more job -/

/-- The kinds of a history are in order after one more job, if its own kind is. -/
theorem kinds_append
    (hkinds : ∀ i, h[i]? = some .passed ↔
      i < h.length ∧ ∃ j, Trigger limit h j ∧ j < i ∧ i ≤ j + period)
    (hlast : k = .passed ↔ ∃ j, Trigger limit h j ∧ h.length ≤ j + period) (i : Nat) :
    (h ++ [k])[i]? = some .passed ↔
      i < (h ++ [k]).length ∧ ∃ j, Trigger limit (h ++ [k]) j ∧ j < i ∧ i ≤ j + period := by
  have hold : ∀ {i}, i ≤ h.length → ((∃ j, Trigger limit (h ++ [k]) j ∧ j < i ∧ i ≤ j + period) ↔
      ∃ j, Trigger limit h j ∧ j < i ∧ i ≤ j + period) := by
    intro i hi
    constructor
    · rintro ⟨j, hj, hlt, hle⟩
      rcases trigger_append.mp hj with hj | ⟨rfl, _⟩
      · exact ⟨j, hj, hlt, hle⟩
      · omega
    · rintro ⟨j, hj, hlt, hle⟩
      exact ⟨j, trigger_append.mpr (.inl hj), hlt, hle⟩
  -- the jobs before keep their kinds, and the last one has the kind `k`
  rw [List.length_append, List.length_singleton]
  rcases Nat.lt_trichotomy i h.length with hi | hi | hi
  · rw [List.getElem?_append_left hi, hkinds, hold (by omega)]
    constructor
    · rintro ⟨_, hj⟩
      exact ⟨by omega, hj⟩
    · rintro ⟨_, hj⟩
      exact ⟨hi, hj⟩
  · subst hi
    rw [List.getElem?_append_right (Nat.le_refl _), Nat.sub_self, hold (Nat.le_refl _)]
    simp only [List.getElem?_cons_zero, Option.some.injEq, hlast]
    constructor
    · rintro ⟨j, hj, hle⟩
      exact ⟨by omega, j, hj, hj.1, hle⟩
    · rintro ⟨_, j, hj, _, hle⟩
      exact ⟨j, hj, hle⟩
  · rw [List.getElem?_eq_none (by simp; omega)]
    constructor
    · intro hnone
      cases hnone
    · rintro ⟨hlt, _⟩
      omega

/-- A passed job. -/
theorem Tracks.pass (ht : Tracks limit period s h) (hlimit : 0 < limit)
    (hpasses : s.passes = true) :
    Tracks limit period { s with cooldown := s.cooldown - 1 } (h ++ [.passed]) where
  kinds := kinds_append ht.kinds
    ⟨fun _ => (ht.passes_iff hlimit).mp hpasses, fun _ => rfl⟩
  closed := by
    intro hclosed
    have hopen : s.isOpen = true := (Bool.and_eq_true_iff.mp hpasses).1
    exact absurd (hopen.symm.trans hclosed) Bool.noConfusion
  opened := by
    intro hopen
    have hcool : 0 < s.cooldown := of_decide_eq_true (Bool.and_eq_true_iff.mp hpasses).2
    obtain ⟨hcount, hle, j, hj, hlen⟩ := ht.opened hopen
    refine ⟨hcount, by dsimp only; omega, j, trigger_append.mpr (.inl hj), ?_⟩
    rw [List.length_append, List.length_singleton]
    dsimp only
    omega

/-- A job that is done by a closed breaker whose count is the row so far. -/
theorem tracks_update (hlimit : 0 < limit)
    (hkinds : ∀ i, h[i]? = some .passed ↔
      i < h.length ∧ ∃ j, Trigger limit h j ∧ j < i ∧ i ≤ j + period)
    (hclosed : s.isOpen = false) (hcool : s.cooldown = 0) (hcount : s.count = row h)
    (hrow : row h < limit) (hlate : ∀ j, Trigger limit h j → j + period < h.length)
    (slow : Bool) :
    Tracks limit period (s.update limit period slow) (h ++ [if slow then .slow else .fast]) := by
  have hnext : ∀ k : Kind, k ≠ .passed → ∀ i, (h ++ [k])[i]? = some .passed ↔
      i < (h ++ [k]).length ∧ ∃ j, Trigger limit (h ++ [k]) j ∧ j < i ∧ i ≤ j + period := by
    intro k hk
    refine kinds_append hkinds ⟨fun heq => absurd heq hk, ?_⟩
    intro ⟨j, hj, hle⟩
    have := hlate j hj
    omega
  -- the triggers stay the same unless the row is complete
  have hsame : ∀ k : Kind, row (h ++ [k]) ≠ limit → ∀ j, Trigger limit (h ++ [k]) j →
      j + period + 1 < (h ++ [k]).length := by
    intro k hk j hj
    rw [List.length_append, List.length_singleton]
    rcases trigger_append.mp hj with hj | ⟨_, hcomplete⟩
    · have := hlate j hj
      omega
    · exact absurd hcomplete hk
  unfold State.update
  cases slow with
  | false =>
    refine ⟨hnext .fast (by decide), ?_, fun hopen => ?_⟩
    · intro _
      have hzero : row (h ++ [.fast]) = 0 := by simp
      refine ⟨hcool, ?_, ?_, hsame .fast ?_⟩
      · exact hzero.symm
      · show row (h ++ [.fast]) < limit
        omega
      · omega
    · exact absurd (hclosed.symm.trans hopen) Bool.noConfusion
  | true =>
    have hsucc : row (h ++ [.slow]) = row h + 1 := by simp
    rw [if_pos rfl, if_pos rfl, hcount]
    split
    · rename_i hfull
      refine ⟨hnext .slow (by decide), fun hclosed => (nomatch hclosed), fun _ => ?_⟩
      refine ⟨by dsimp only; omega, Nat.le_refl _, h.length, ?_, ?_⟩
      · exact trigger_append.mpr (.inr ⟨rfl, by omega⟩)
      · rw [List.length_append, List.length_singleton]
        dsimp only
        omega
    · refine ⟨hnext .slow (by decide), fun _ => ?_, fun hopen => ?_⟩
      · exact ⟨hcool, by dsimp only; omega, by omega, hsame .slow (by omega)⟩
      · exact absurd (hclosed.symm.trans hopen) Bool.noConfusion

/-- Every job keeps the state true to the history. -/
theorem Tracks.step (ht : Tracks limit period s h) (hlimit : 0 < limit) (hperiod : 0 < period)
    (slow : Bool) : Tracks limit period (s.step limit period slow) (h ++ [s.kind slow]) := by
  unfold State.step State.kind
  cases hpasses : s.passes with
  | true => exact ht.pass hlimit hpasses
  | false =>
    rw [if_neg Bool.false_ne_true, if_neg Bool.false_ne_true]
    unfold State.leave
    rcases Bool.eq_false_or_eq_true s.isOpen with hopen | hclosed
    · -- the period is over
      have hcool : s.cooldown = 0 := by
        unfold State.passes at hpasses
        rw [hopen, Bool.true_and, decide_eq_false_iff_not] at hpasses
        omega
      obtain ⟨_, _, j, hj, hlen⟩ := ht.opened hopen
      have hrow := ht.row_after_period hperiod hopen hcool
      rw [if_pos hopen]
      refine tracks_update (s := { s with isOpen := false, count := 0 }) hlimit ht.kinds rfl hcool
        hrow.symm (by omega) ?_ slow
      intro j' hj'
      have := ht.le_of_trigger hlimit hj (by omega) hj'
      omega
    · obtain ⟨hcool, hcount, hrow, hlate⟩ := ht.closed hclosed
      rw [if_neg (by rw [hclosed]; exact Bool.false_ne_true)]
      refine tracks_update hlimit ht.kinds hclosed hcool hcount hrow ?_ slow
      intro j hj
      have := hlate j hj
      omega

/-! ## Rows of slow jobs -/

/-- A row that has begun ends in a slow job. -/
theorem slow_mem_of_row (h : List Kind) (hrow : 0 < row h) : Kind.slow ∈ h := by
  unfold row at hrow
  obtain ⟨k, hk⟩ := List.exists_mem_of_length_pos hrow
  have hslow : decide (k = .slow) = true :=
    List.mem_takeWhile_imp (p := fun k => decide (k = Kind.slow)) hk
  rw [decide_eq_true_eq] at hslow
  rw [← hslow]
  exact List.mem_reverse.mp ((List.takeWhile_sublist _).subset hk)

theorem State.step_of_closed (hclosed : s.isOpen = false) (slow : Bool) :
    s.step limit period slow = s.update limit period slow := by
  unfold State.step State.passes State.leave
  rw [hclosed]
  rfl

/-- Fewer slow jobs than complete a row are counted. -/
theorem State.slow_jobs (hclosed : s.isOpen = false) {n : Nat} (hn : s.count + n < limit) :
    (fun s => State.step limit period s true)^[n] s = { s with count := s.count + n } := by
  induction n with
  | zero => rfl
  | succ n ih =>
    rw [Function.iterate_succ_apply', ih (by omega), State.step_of_closed (by exact hclosed)]
    unfold State.update
    rw [if_pos rfl, if_neg (by dsimp only; omega)]
    rfl

/-- The slow job that completes the row opens the breaker. -/
theorem State.slow_jobs_open (hclosed : s.isOpen = false) {n : Nat}
    (hn : s.count + (n + 1) = limit) :
    ((fun s => State.step limit period s true)^[n + 1] s).isOpen = true := by
  rw [Function.iterate_succ_apply', State.slow_jobs hclosed (by omega),
    State.step_of_closed (by exact hclosed)]
  unfold State.update
  rw [if_pos rfl, if_pos (by dsimp only; omega)]

end Breaker
