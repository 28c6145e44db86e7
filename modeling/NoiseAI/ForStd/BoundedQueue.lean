import NoiseAI.ForStd.Observe

/-!
# Bounded queues

A first-in first-out queue of at most `cap` elements that takes and gives whole blocks: a
`write` is refused without effect unless the block fits, a `read` unless that many elements
are there. `call` is its interface, one operation at a time, and `replies` what a caller sees
of a sequence of operations on an implementation of it. An implementation that counts its
elements refines the queue for as long as its counters last, so `replies_of_refinement` gives
the relation a budget: the number of elements that the queue is going to take.
-/

/-- A queue of at most `cap` elements, the oldest first. -/
structure BoundedQueue (α : Type _) (cap : Nat) where
  items : List α
  length_le : items.length ≤ cap

namespace BoundedQueue

inductive Op (α : Type _) where
  | write (data : List α)
  | read (n : Nat)
  | availableRead
  | availableWrite
  | discard

/-- What a caller gets from an operation: whether the block was taken, the elements (`none`
    when they were refused), a count, or nothing. -/
inductive Reply (α : Type _) where
  | written (ok : Bool)
  | samples (buf : Option (List α))
  | count (n : Nat)
  | discarded
  deriving DecidableEq

variable {α : Type _} {cap : Nat}

/-- The empty queue. -/
def empty (α : Type _) (cap : Nat) : BoundedQueue α cap := ⟨[], Nat.zero_le cap⟩

/-- The block, if it fits. -/
def write (q : BoundedQueue α cap) (data : List α) : Bool × BoundedQueue α cap :=
  if h : q.items.length + data.length ≤ cap then
    (true, ⟨q.items ++ data, by rw [List.length_append]; exact h⟩)
  else (false, q)

/-- The oldest `n` elements, if there are as many. -/
def read (q : BoundedQueue α cap) (n : Nat) : Option (List α) × BoundedQueue α cap :=
  if n ≤ q.items.length then
    (some (q.items.take n), ⟨q.items.drop n, by
      rw [List.length_drop]
      exact Nat.le_trans (Nat.sub_le _ _) q.length_le⟩)
  else (none, q)

/-- The queue without its oldest `n` elements. -/
def drop (q : BoundedQueue α cap) (n : Nat) : BoundedQueue α cap :=
  ⟨q.items.drop n, by
    rw [List.length_drop]
    exact Nat.le_trans (Nat.sub_le _ _) q.length_le⟩

/-- One operation. -/
def call (q : BoundedQueue α cap) : Op α → Reply α × BoundedQueue α cap
  | .write data => (.written (q.write data).1, (q.write data).2)
  | .read n => (.samples (q.read n).1, (q.read n).2)
  | .availableRead => (.count q.items.length, q)
  | .availableWrite => (.count (cap - q.items.length), q)
  | .discard => (.discarded, empty α cap)

/-- The number of elements that an operation puts into the queue. -/
def taken (q : BoundedQueue α cap) : Op α → Nat
  | .write data => if q.items.length + data.length ≤ cap then data.length else 0
  | _ => 0

/-- The replies of an implementation to a sequence of operations. -/
def replies {σ : Type _} (call : σ → Op α → Reply α × σ) : σ → List (Op α) → List (Reply α) :=
  Observe.outputs (fun s op => (call s op).2) fun s op => [(call s op).1]

/-- The number of elements that a sequence of operations puts into the queue. -/
def accepted (q : BoundedQueue α cap) (ops : List (Op α)) : Nat :=
  Observe.total (fun q op => (q.call op).2) taken q ops

variable {q : BoundedQueue α cap}

theorem write_of_le {data : List α} (h : q.items.length + data.length ≤ cap) :
    q.write data = (true, ⟨q.items ++ data, by rw [List.length_append]; exact h⟩) := dif_pos h

theorem write_of_lt {data : List α} (h : cap < q.items.length + data.length) :
    q.write data = (false, q) := dif_neg (Nat.not_le_of_lt h)

theorem items_read_of_le {n : Nat} (h : n ≤ q.items.length) :
    (q.read n).1 = some (q.items.take n) ∧ (q.read n).2.items = q.items.drop n := by
  unfold read
  rw [if_pos h]
  exact ⟨rfl, rfl⟩

theorem read_of_lt {n : Nat} (h : q.items.length < n) : q.read n = (none, q) :=
  if_neg (Nat.not_le_of_lt h)

theorem length_read (q : BoundedQueue α cap) (n : Nat) :
    (q.read n).2.items.length =
      if n ≤ q.items.length then q.items.length - n else q.items.length := by
  split
  · rename_i hle
    rw [(items_read_of_le hle).2, List.length_drop]
  · rename_i hlt
    rw [read_of_lt (Nat.lt_of_not_le hlt)]

/-- Calls that reply as the queue does and stay related to it reply to every sequence as it
    does. -/
theorem replies_of_refinement {σ : Type _} {call' : σ → Op α → Reply α × σ}
    {S : Nat → σ → BoundedQueue α cap → Prop}
    (hcall : ∀ n s q op, S (q.taken op + n) s q →
      (call' s op).1 = (q.call op).1 ∧ S n (call' s op).2 (q.call op).2)
    {s : σ} {ops : List (Op α)} (h : S (q.accepted ops) s q) :
    replies call' s ops = replies call q ops := by
  have htotal : S (Observe.total (fun q op => (q.call op).2) taken q ops) s q := h
  apply Observe.outputs_of_refinement (S := S) _ htotal
  intro n s q op hs
  obtain ⟨hreply, hnext⟩ := hcall n s q op hs
  exact ⟨congrArg (fun reply => [reply]) hreply, hnext⟩

end BoundedQueue
