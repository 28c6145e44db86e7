import NoiseAI.ForStd.List
import Mathlib.Data.Nat.Basic
import Mathlib.Tactic.Common

/-!
# Block transducers

A block transducer is a function `f` that turns block `k` of its input, a list of
`size` elements, into a list of results and carries a state from block to block.
`scan` runs it over consecutive blocks of a list. `Feed` is a transducer that gets
its input piece by piece and works on every block that has become complete; by
`feed_append` it does not matter how the input is cut into pieces.
-/

namespace Blocks

variable {σ α β : Type _}

/-- Run `f` over `n` consecutive blocks of `l`, from block `k` on. -/
def scan (f : σ → Nat → List α → List β × σ) (size : Nat) (l : List α) :
    Nat → Nat → σ → List β × σ
  | 0, _, s => ([], s)
  | n + 1, k, s =>
    let (out, s') := f s k (l.slice (size * k) size)
    let (outs, s'') := scan f size l n (k + 1) s'
    (out ++ outs, s'')

variable {f : σ → Nat → List α → List β × σ} {size : Nat}

/-- The blocks can be run in two goes. -/
theorem scan_add (l : List α) (m n k : Nat) (s : σ) :
    scan f size l (m + n) k s =
      ((scan f size l m k s).1 ++ (scan f size l n (k + m) (scan f size l m k s).2).1,
        (scan f size l n (k + m) (scan f size l m k s).2).2) := by
  induction m generalizing k s with
  | zero => simp only [Nat.zero_add, Nat.add_zero, scan, List.nil_append]
  | succ m ih =>
    have hsucc : m + 1 + n = m + n + 1 := by omega
    have hk : k + 1 + m = k + (m + 1) := by omega
    simp only [hsucc, scan, ih, hk, List.append_assoc]

/-- A block that starts inside a run of blocks of `l` lies in `l`. -/
theorem block_le {l : List α} {n k : Nat} (h : size * (k + (n + 1)) ≤ l.length) :
    size * k + size ≤ l.length ∧ size * (k + 1 + n) ≤ l.length := by
  have hle : size * (k + 1) ≤ size * (k + (n + 1)) := Nat.mul_le_mul_left _ (by omega)
  have hk : k + 1 + n = k + (n + 1) := by omega
  rw [Nat.mul_add, Nat.mul_one] at hle
  rw [hk]
  omega

/-- Blocks that lie inside `l` do not change when `l` is extended. -/
theorem scan_extend (l l' : List α) (n k : Nat) (s : σ) (h : size * (k + n) ≤ l.length) :
    scan f size (l ++ l') n k s = scan f size l n k s := by
  induction n generalizing k s with
  | zero => rfl
  | succ n ih =>
    obtain ⟨hblock, hrest⟩ := block_le h
    simp only [scan, List.slice_append hblock, ih (k + 1) _ hrest]

/-- A transducer that turns a block into a block gives `size` results a block. -/
theorem length_scan (hf : ∀ s k x, x.length = size → (f s k x).1.length = size) (l : List α)
    (n k : Nat) (s : σ) (h : size * (k + n) ≤ l.length) :
    (scan f size l n k s).1.length = size * n := by
  induction n generalizing k s with
  | zero => rfl
  | succ n ih =>
    obtain ⟨hblock, hrest⟩ := block_le h
    have hfirst := hf s k (l.slice (size * k) size) (List.length_slice hblock)
    simp only [scan, List.length_append, hfirst, ih (k + 1) _ hrest]
    rw [Nat.mul_add, Nat.mul_one, Nat.add_comm]

/-- What every block preserves of the state, a run over blocks preserves. -/
theorem scan_state (P : σ → Prop) (hf : ∀ s k x, P s → P (f s k x).2) (l : List α) (n k : Nat)
    (s : σ) (hs : P s) : P (scan f size l n k s).2 := by
  induction n generalizing k s with
  | zero => exact hs
  | succ n ih => exact ih (k + 1) _ (hf s k _ hs)

/-! ## Feeding piece by piece -/

/-- What has been fed, the results so far, and the state. -/
structure Feed (σ α β : Type _) where
  state : σ
  input : List α
  output : List β

/-- Feed `xs`, and work on every block that is complete by now. -/
def Feed.feed (f : σ → Nat → List α → List β × σ) (size : Nat) (t : Feed σ α β) (xs : List α) :
    Feed σ α β :=
  let l := t.input ++ xs
  let start := t.input.length / size
  let (out, s) := scan f size l (l.length / size - start) start t.state
  { state := s, input := l, output := t.output ++ out }

/-- Feeding nothing changes nothing. -/
@[simp] theorem feed_nil (t : Feed σ α β) : t.feed f size [] = t := by
  simp [Feed.feed, scan]

/-- The results so far stay. -/
theorem output_le_feed (t : Feed σ α β) (xs : List α) :
    t.output <+: (t.feed f size xs).output := List.prefix_append _ _

/-- Feeding two pieces is feeding their concatenation. -/
theorem feed_append (t : Feed σ α β) (xs ys : List α) :
    (t.feed f size xs).feed f size ys = t.feed f size (xs ++ ys) := by
  have hlen : (t.input ++ xs ++ ys).length = (t.input ++ xs).length + ys.length :=
    List.length_append
  have hmono₁ : t.input.length / size ≤ (t.input ++ xs).length / size :=
    Nat.div_le_div_right (by rw [List.length_append]; omega)
  have hmono₂ : (t.input ++ xs).length / size ≤ (t.input ++ xs ++ ys).length / size :=
    Nat.div_le_div_right (by omega)
  simp only [Feed.feed, ← List.append_assoc]
  generalize t.input.length / size = a at hmono₁ ⊢
  generalize hb : (t.input ++ xs).length / size = b at hmono₁ hmono₂ ⊢
  generalize (t.input ++ xs ++ ys).length / size = c at hmono₂ ⊢
  have hsum : c - a = (b - a) + (c - b) := by omega
  have hstart : a + (b - a) = b := by omega
  have hfits : size * (a + (b - a)) ≤ (t.input ++ xs).length := by
    rw [hstart, ← hb]
    exact Nat.mul_div_le _ _
  rw [hsum, scan_add, scan_extend _ ys _ _ _ hfits, hstart]
  simp only [List.append_assoc]

end Blocks
