import Mathlib.Data.List.Basic
import Mathlib.Logic.Function.Basic

/-!
# List lemmas

`slice l start n` is the block of `n` elements of `l` from index `start` on, as far
as `l` reaches.
-/

namespace List

variable {α : Type _}

/-- The `n` elements of `l` from index `start` on. -/
def slice (l : List α) (start n : Nat) : List α := (l.drop start).take n

theorem length_slice {l : List α} {start n : Nat} (h : start + n ≤ l.length) :
    (l.slice start n).length = n := by
  rw [slice, length_take, length_drop]
  omega

/-- A slice grows by the element after it. -/
theorem slice_succ (l : List α) {start n : Nat} (h : start + n < l.length) :
    l.slice start (n + 1) = l.slice start n ++ [l[start + n]] := by
  rw [slice, take_add_one, getElem?_drop, getElem?_eq_getElem h]
  rfl

/-- A slice inside `l` is the same slice of every extension of `l`. -/
theorem slice_append {l l' : List α} {start n : Nat} (h : start + n ≤ l.length) :
    (l ++ l').slice start n = l.slice start n := by
  have htake : n ≤ (l.drop start).length := by rw [length_drop]; omega
  rw [slice, drop_append_of_le_length (by omega), take_append_of_le_length htake]
  rfl

/-- A slice inside `l`, element by element. -/
theorem slice_eq_map_range {l : List α} {start n : Nat} (x : α) (h : start + n ≤ l.length) :
    l.slice start n = (List.range n).map fun i => l.getD (start + i) x := by
  induction n with
  | zero => rfl
  | succ n ih =>
    have hlt : start + n < l.length := by omega
    rw [slice_succ l hlt, ih (by omega), range_succ, map_append, map_singleton,
      getD_eq_getElem?_getD, getElem?_eq_getElem hlt]
    rfl

/-- The blocks of `size` elements before `size * n` are the elements before it. -/
theorem flatMap_slice_range {l : List α} {size n : Nat} :
    (List.range n).flatMap (fun k => l.slice (size * k) size) = l.take (size * n) := by
  induction n with
  | zero => simp
  | succ n ih =>
    rw [range_succ, flatMap_append, ih, Nat.mul_add, Nat.mul_one, take_add]
    simp only [flatMap_cons, flatMap_nil, append_nil, slice]

/-- Elements of two blocks, one behind the other. -/
theorem Pairwise.slice {R : α → α → Prop} {l : List α} (h : l.Pairwise R) {a m b n : Nat}
    (hle : a + m ≤ b) {x y : α} (hx : x ∈ l.slice a m) (hy : y ∈ l.slice b n) : R x y := by
  rw [← take_append_drop b l, pairwise_append] at h
  apply h.2.2
  · have hx' : x ∈ l.take (a + m) := by
      rw [take_add]
      exact mem_append_right _ hx
    exact (take_prefix_take_left hle).subset hx'
  · exact mem_of_mem_take hy

/-- A block of the frames of `n` equal elements each. -/
theorem slice_flatMap_replicate {β : Type _} (f : α → β) (n : Nat) (l : List α) (a m : Nat) :
    (l.flatMap fun x => replicate n (f x)).slice (n * a) (n * m) =
      (l.slice a m).flatMap fun x => replicate n (f x) := by
  -- `drop` and `take` of whole blocks, by induction on their number
  have hdrop : ∀ (k : Nat) (l : List α),
      (l.flatMap fun x => replicate n (f x)).drop (n * k) =
        (l.drop k).flatMap fun x => replicate n (f x) := by
    intro k
    induction k with
    | zero => intro l; rfl
    | succ k ih =>
      intro l
      cases l with
      | nil => simp
      | cons x l =>
        rw [flatMap_cons, Nat.mul_succ, Nat.add_comm, ← drop_drop, drop_left' length_replicate]
        exact ih l
  have htake : ∀ (k : Nat) (l : List α),
      (l.flatMap fun x => replicate n (f x)).take (n * k) =
        (l.take k).flatMap fun x => replicate n (f x) := by
    intro k
    induction k with
    | zero => intro l; simp
    | succ k ih =>
      intro l
      cases l with
      | nil => simp
      | cons x l =>
        rw [flatMap_cons, Nat.mul_succ, Nat.add_comm, take_add, take_left' length_replicate,
          drop_left' length_replicate, ih l]
        rfl
  rw [List.slice, hdrop, htake]
  rfl

/-! ## Lists in numbered places -/

/-- Only the places below `m` hold anything. -/
theorem flatMap_range_of_empty {f : Nat → List α} {m n : Nat} (hle : m ≤ n)
    (h : ∀ j, m ≤ j → f j = []) : (List.range n).flatMap f = (List.range m).flatMap f := by
  induction hle with
  | refl => rfl
  | step hle ih => rw [range_succ, flatMap_append, flatMap_singleton, h _ hle, append_nil, ih]

/-- More elements in the last place that holds any. -/
theorem flatMap_range_update {f : Nat → List α} {n i : Nat} (hi : i < n)
    (hlast : ∀ j, i < j → f j = []) (xs : List α) :
    (List.range n).flatMap (Function.update f i (f i ++ xs)) =
      (List.range n).flatMap f ++ xs := by
  have hfirst : (List.range (i + 1)).flatMap (Function.update f i (f i ++ xs)) =
      (List.range (i + 1)).flatMap f ++ xs := by
    have hbefore : (List.range i).flatMap (Function.update f i (f i ++ xs)) =
        (List.range i).flatMap f :=
      flatMap_congr fun j hj => Function.update_of_ne (Nat.ne_of_lt (mem_range.mp hj)) ..
    rw [range_succ, flatMap_append, flatMap_append, hbefore, flatMap_singleton, flatMap_singleton,
      Function.update_self, append_assoc]
  rw [flatMap_range_of_empty hi fun j hj => ?_, flatMap_range_of_empty hi fun j hj => hlast j hj,
    hfirst]
  rw [Function.update_of_ne (Nat.ne_of_gt hj)]
  exact hlast j hj

/-! ## Elements and what comes before them -/

/-- Every element satisfies `P` together with what comes before it, `before` included. -/
def Along {α : Type _} (P : List α → α → Prop) (before : List α) : List α → Prop
  | [] => True
  | x :: xs => P before x ∧ Along P (before ++ [x]) xs

theorem along_append {α : Type _} {P : List α → α → Prop} {before xs ys : List α} :
    Along P before (xs ++ ys) ↔ Along P before xs ∧ Along P (before ++ xs) ys := by
  induction xs generalizing before with
  | nil => simp [Along]
  | cons x xs ih =>
    show P before x ∧ Along P _ (xs ++ ys) ↔ (P before x ∧ Along P _ xs) ∧ _
    rw [ih, append_assoc, singleton_append, and_assoc]

/-- One element, where the list is split at it. -/
theorem Along.split {α : Type _} {P : List α → α → Prop} {before xs ys : List α} {x : α}
    (h : Along P before (xs ++ x :: ys)) : P (before ++ xs) x :=
  (along_append.mp h).2.1

end List
