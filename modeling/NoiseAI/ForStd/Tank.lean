import Mathlib.Data.Int.GCD
import Mathlib.Tactic.Common

/-!
# A store with all-or-nothing transfers

A tank holds up to `cap` units. One side puts in blocks of exactly `n` units, the other
takes out blocks of exactly `m`; a transfer that does not fit is refused whole. The tank is
`Stuck` when both sides are refused.

Starting empty, every level is a multiple of `gcd n m`, so the tank cannot get stuck while
`n + m ≤ cap + gcd n m` (`not_stuck_of_dvd`). Beyond that bound it can: the side that puts
whenever there is room walks through the multiples of `n` modulo `n + m`, and one of them
is above `cap` (`exists_stuck`).
-/

namespace Tank

/-- Neither side can move its block. -/
def Stuck (cap n m level : Nat) : Prop := cap < level + n ∧ level < m

instance (cap n m level : Nat) : Decidable (Stuck cap n m level) :=
  inferInstanceAs (Decidable (_ ∧ _))

/-- Levels reached from empty by putting whenever there is room, and taking otherwise. -/
inductive Greedy (cap n m : Nat) : Nat → Prop where
  | empty : Greedy cap n m 0
  | put {level : Nat} (h : Greedy cap n m level) (hroom : level + n ≤ cap) :
    Greedy cap n m (level + n)
  | take {level : Nat} (h : Greedy cap n m level) (hfull : cap < level + n) (hm : m ≤ level) :
    Greedy cap n m (level - m)

variable {cap n m level : Nat}

/-- A greedy level fits. -/
theorem Greedy.le_cap (h : Greedy cap n m level) : level ≤ cap := by
  induction h with
  | empty => exact Nat.zero_le _
  | put _ hroom _ => exact hroom
  | take _ _ _ ih => omega

/-- Below the bound no level that is a multiple of the common divisor is stuck. -/
theorem not_stuck_of_dvd (hbound : n + m ≤ cap + Nat.gcd n m) (hdvd : Nat.gcd n m ∣ level) :
    ¬ Stuck cap n m level := by
  rintro ⟨hput, htake⟩
  -- the next multiple above `level` is still at most `m`
  have hgap : Nat.gcd n m ≤ m - level :=
    Nat.le_of_dvd (by omega) (Nat.dvd_sub (Nat.gcd_dvd_right n m) hdvd)
  omega

/-- One greedy move adds `n` modulo `n + m`. -/
theorem Greedy.next (hsmall : cap < n + m) (h : Greedy cap n m level)
    (hstuck : ¬ Stuck cap n m level) : Greedy cap n m ((level + n) % (n + m)) := by
  have hle := h.le_cap
  by_cases hroom : level + n ≤ cap
  · rw [Nat.mod_eq_of_lt (by omega)]
    exact h.put hroom
  · have hm : m ≤ level := by
      unfold Stuck at hstuck
      omega
    have hlevel : (level + n) % (n + m) = level - m := by
      rw [Nat.mod_eq_sub_mod (by omega), Nat.mod_eq_of_lt (by omega)]
      omega
    rw [hlevel]
    exact h.take (by omega) hm

/-- As long as the greedy walk does not get stuck it is at `t * n` modulo `n + m` after `t`
    moves. -/
theorem greedy_mul_mod (hsmall : cap < n + m)
    (hfree : ∀ level, Greedy cap n m level → ¬ Stuck cap n m level) (t : Nat) :
    Greedy cap n m (t * n % (n + m)) := by
  induction t with
  | zero =>
    rw [Nat.zero_mul, Nat.zero_mod]
    exact .empty
  | succ t ih =>
    have hnext := ih.next hsmall (hfree _ ih)
    rw [Nat.mod_add_mod] at hnext
    rw [Nat.succ_mul]
    exact hnext

/-- The largest multiple of `gcd n m` below `n + m` is a multiple of `n` modulo `n + m`. -/
theorem exists_mul_mod_eq_sub_gcd (hn : 0 < n) (hm : 0 < m) :
    ∃ t, t * n % (n + m) = n + m - Nat.gcd n m := by
  have hgcd : Nat.gcd n (n + m) = Nat.gcd n m := by simp
  have hlt : Nat.gcd n (n + m) < n + m := by
    have hle := Nat.gcd_le_left (n + m) hn
    omega
  obtain ⟨t, _, ht⟩ := Nat.exists_mul_mod_eq_gcd hlt
  rw [hgcd] at ht
  obtain ⟨q, hq⟩ : Nat.gcd n m ∣ n + m :=
    Nat.dvd_add (Nat.gcd_dvd_left n m) (Nat.gcd_dvd_right n m)
  have hpos : 0 < Nat.gcd n m := Nat.gcd_pos_of_pos_left m hn
  have hsub : (q - 1) * Nat.gcd n m = n + m - Nat.gcd n m := by
    rw [Nat.sub_mul, Nat.one_mul, Nat.mul_comm q, ← hq]
  refine ⟨(q - 1) * t, ?_⟩
  calc (q - 1) * t * n % (n + m)
      = (q - 1) * (n * t % (n + m)) % (n + m) := by
        rw [Nat.mul_assoc, Nat.mul_comm t, ← Nat.mul_mod_mod]
    _ = (n + m - Nat.gcd n m) % (n + m) := by rw [ht, hsub]
    _ = n + m - Nat.gcd n m := Nat.mod_eq_of_lt (by omega)

/-- Above the bound the greedy walk gets stuck. -/
theorem exists_stuck (hn : 0 < n) (hm : 0 < m) (hbound : cap + Nat.gcd n m < n + m) :
    ∃ level, Greedy cap n m level ∧ Stuck cap n m level := by
  by_contra hnone
  have hfree : ∀ level, Greedy cap n m level → ¬ Stuck cap n m level :=
    fun level h hs => hnone ⟨level, h, hs⟩
  obtain ⟨t, ht⟩ := exists_mul_mod_eq_sub_gcd hn hm
  have hlevel := greedy_mul_mod (by omega) hfree t
  rw [ht] at hlevel
  have hle := hlevel.le_cap
  omega

end Tank
