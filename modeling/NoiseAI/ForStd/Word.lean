import Mathlib.Algebra.Group.Nat.Defs
import Mathlib.Tactic.Common

/-!
# Machine words as natural numbers

Unsigned 32- and 64-bit values are kept as `Nat` and reduced where the machine
reduces them. `u64Sub` is the wrapping 64-bit subtraction: an underflow shows as
a huge number, never as zero.
-/

/-- Reduction to an unsigned 32-bit value. -/
def u32 (n : Nat) : Nat := n % 2 ^ 32

/-- Reduction to an unsigned 64-bit value. -/
def u64 (n : Nat) : Nat := n % 2 ^ 64

/-- The 64-bit difference `a - b`, wrapping below zero. -/
def u64Sub (a b : Nat) : Nat := (a + (2 ^ 64 - b % 2 ^ 64)) % 2 ^ 64

theorem u32_of_lt {n : Nat} (h : n < 2 ^ 32) : u32 n = n := Nat.mod_eq_of_lt h

theorem u64_of_lt {n : Nat} (h : n < 2 ^ 64) : u64 n = n := Nat.mod_eq_of_lt h

theorem u64_lt (n : Nat) : u64 n < 2 ^ 64 := Nat.mod_lt _ (by decide)

/-- Reducing before an addition does not change the reduced sum. -/
@[simp] theorem u64_u64_add (a b : Nat) : u64 (u64 a + b) = u64 (a + b) := Nat.mod_add_mod a _ b

/-- Without an underflow the 64-bit difference is the difference. -/
theorem u64Sub_of_le {a b : Nat} (ha : a < 2 ^ 64) (h : b ≤ a) : u64Sub a b = a - b := by
  have hb : b % 2 ^ 64 = b := Nat.mod_eq_of_lt (by omega)
  rw [u64Sub, hb]
  omega

/-- Two counters less than `2 ^ 64` apart keep their distance when both are reduced to
    64 bits, however far they have run. -/
theorem u64Sub_u64 {a b : Nat} (h : a ≤ b) (hlt : b - a < 2 ^ 64) :
    u64Sub (u64 b) (u64 a) = b - a := by
  simp only [u64Sub, u64]
  omega
