import NoiseAI.ForStd.BoundedQueue

/-!
# Queues between two clocks

A bounded queue whose producer and consumer keep their own time. A block that does not fit is
lost, and a request that cannot be served is refused. `ElasticQueue` is the queue with what was
sent, received, asked for and refused. As long as the producer is at most `early` elements ahead
of the consumer and at most `late` behind it, and no request is larger than `limit`, the queue
settles (`ElasticQueue.Settled`): after at most `late + limit - 1` refused elements it is never
empty when it is asked, and it is never full.
-/

structure ElasticQueue (α : Type _) (cap : Nat) where
  queue : BoundedQueue α cap
  sent : List α
  received : List α
  requested : Nat
  refused : Nat

namespace ElasticQueue

variable {α : Type _} {cap : Nat}

/-- Before the first block. -/
def empty (α : Type _) (cap : Nat) : ElasticQueue α cap := ⟨.empty α cap, [], [], 0, 0⟩

/-- The producer sends a block. -/
def write (f : ElasticQueue α cap) (data : List α) : ElasticQueue α cap :=
  { f with queue := (f.queue.write data).2, sent := f.sent ++ data }

/-- The consumer asks for `n` elements. -/
def read (f : ElasticQueue α cap) (n : Nat) : ElasticQueue α cap where
  queue := (f.queue.read n).2
  sent := f.sent
  received := f.received ++ (f.queue.read n).1.getD []
  requested := f.requested + n
  refused := if (f.queue.read n).1.isSome then f.refused else f.refused + n

/-- Nothing was lost, and no more was refused than the queue needs as a cushion. -/
structure Settled (late limit : Nat) (f : ElasticQueue α cap) : Prop where
  contents : f.received ++ f.queue.items = f.sent
  count : f.received.length + f.refused = f.requested
  refused : f.refused ≤ late + limit - 1

variable {f : ElasticQueue α cap} {early late limit : Nat}

theorem Settled.empty (late limit : Nat) : (empty α cap).Settled late limit :=
  ⟨rfl, rfl, Nat.zero_le _⟩

/-- What the queue holds is what was sent and not asked for, and what was refused. -/
theorem Settled.length (h : f.Settled late limit) :
    f.queue.items.length + f.requested = f.sent.length + f.refused := by
  have hlen := congrArg List.length h.contents
  have hcount := h.count
  rw [List.length_append] at hlen
  omega

/-- A block of a producer that is not too far ahead fits. -/
theorem Settled.fits (h : f.Settled late limit) (hroom : early + (late + limit - 1) ≤ cap)
    {data : List α} (hearly : f.sent.length + data.length ≤ f.requested + early) :
    f.queue.items.length + data.length ≤ cap := by
  have hlen := h.length
  have hrefused := h.refused
  omega

theorem Settled.write (h : f.Settled late limit) {data : List α}
    (hfits : f.queue.items.length + data.length ≤ cap) : (f.write data).Settled late limit := by
  refine ⟨?_, h.count, h.refused⟩
  show f.received ++ (f.queue.write data).2.items = f.sent ++ data
  rw [BoundedQueue.write_of_le hfits, ← h.contents, List.append_assoc]

/-- A request of a consumer that is not too far ahead. -/
theorem Settled.read (h : f.Settled late limit) {n : Nat} (hn : n ≤ limit)
    (hlate : f.requested + n ≤ f.sent.length + late) : (f.read n).Settled late limit := by
  have hcontents := h.contents
  have hcount := h.count
  have hrefused := h.refused
  by_cases hserved : n ≤ f.queue.items.length
  · obtain ⟨hbuf, hitems⟩ := BoundedQueue.items_read_of_le hserved
    refine ⟨?_, ?_, ?_⟩
    · simp only [ElasticQueue.read, hbuf, hitems, Option.getD_some]
      rw [List.append_assoc, List.take_append_drop]
      exact hcontents
    · simp only [ElasticQueue.read, hbuf, Option.getD_some, Option.isSome_some, ↓reduceIte,
        List.length_append, List.length_take_of_le hserved]
      omega
    · simp only [ElasticQueue.read, hbuf, Option.isSome_some, ↓reduceIte]
      exact hrefused
  · -- the queue holds less than was asked for, so not much was refused before
    have hlen := h.length
    have hread := BoundedQueue.read_of_lt (Nat.lt_of_not_le hserved)
    simp only [ElasticQueue.read, hread, Option.getD_none, Option.isSome_none, Bool.false_eq_true,
      ↓reduceIte, List.append_nil]
    exact ⟨hcontents, by dsimp only; omega, by dsimp only; omega⟩

end ElasticQueue
