import Mathlib.Data.Nat.ModEq

/-!
# Positions in a circular array

A circular array with `cap` cells keeps the element at absolute position `p` in
cell `p % cap`. A block of `n ≤ cap` elements starting at `start` is stored in two
runs: up to the end of the array, and from its beginning. `blockCell` is the cell
of the `i`-th element computed with that split, `blockCell_eq` says that the split
is the modulus, and `mod_ne_of_lt` that positions less than `cap` apart never
share a cell. `Holds` is the list that the cells from a position on hold.
-/

namespace Circular

/-- The cell of element `i` of a block of `n` elements that starts at `start`: the first
    run goes up to the end of the array, the second one starts at cell `0`. -/
def blockCell (cap start n i : Nat) : Nat :=
  let index := start % cap
  let first := min n (cap - index)
  if i < first then index + i else i - first

/-- Two different positions less than `cap` apart lie in different cells. -/
theorem mod_ne_of_lt {cap a b : Nat} (hab : a < b) (hb : b < a + cap) : a % cap ≠ b % cap := by
  intro heq
  have hdvd : cap ∣ b - a := (Nat.modEq_iff_dvd' (Nat.le_of_lt hab)).mp heq
  have hle : cap ≤ b - a := Nat.le_of_dvd (by omega) hdvd
  omega

/-- The two-run split puts element `i` into the cell of position `start + i`. -/
theorem blockCell_eq {cap start n i : Nat} (hcap : 0 < cap) (hi : i < n) (hn : n ≤ cap) :
    blockCell cap start n i = (start + i) % cap := by
  have hindex : start % cap < cap := Nat.mod_lt _ hcap
  have hmod : (start + i) % cap = (start % cap + i) % cap := (Nat.mod_add_mod start cap i).symm
  rw [hmod]
  simp only [blockCell]
  generalize start % cap = index at hindex
  split
  · rename_i hfirst
    exact (Nat.mod_eq_of_lt (by omega)).symm
  · rename_i hsecond
    have hwrap : cap ≤ index + i := by omega
    rw [Nat.mod_eq_sub_mod hwrap, Nat.mod_eq_of_lt (by omega)]
    omega

/-- Every element of a block that fits lies inside the array. -/
theorem blockCell_lt {cap start n i : Nat} (hcap : 0 < cap) (hi : i < n) (hn : n ≤ cap) :
    blockCell cap start n i < cap := by
  rw [blockCell_eq hcap hi hn]
  exact Nat.mod_lt _ hcap

/-- The cells from position `start` on hold `items`. -/
def Holds {α : Type _} (cap : Nat) (mem : Nat → α) (start : Nat) (items : List α) : Prop :=
  ∀ j (hj : j < items.length), mem ((start + j) % cap) = items[j]

variable {α : Type _} {cap start : Nat} {mem mem' : Nat → α} {items : List α}

theorem holds_nil : Holds cap mem start [] := fun j hj => absurd hj (Nat.not_lt_zero j)

/-- A block behind the items, stored without touching their cells. -/
theorem Holds.append (h : Holds cap mem start items) {data : List α}
    (hblock : Holds cap mem' (start + items.length) data)
    (hframe : ∀ j < items.length, mem' ((start + j) % cap) = mem ((start + j) % cap)) :
    Holds cap mem' start (items ++ data) := by
  intro j hj
  by_cases hold : j < items.length
  · rw [List.getElem_append_left hold, hframe j hold]
    exact h j hold
  · rw [List.length_append] at hj
    rw [List.getElem_append_right (by omega), ← hblock (j - items.length) (by omega)]
    congr 2
    omega

/-- Without its first `n` items. -/
theorem Holds.drop (h : Holds cap mem start items) (n : Nat) :
    Holds cap mem (start + n) (items.drop n) := by
  intro j hj
  rw [List.length_drop] at hj
  rw [List.getElem_drop, ← h (n + j) (by omega), Nat.add_assoc]

end Circular
