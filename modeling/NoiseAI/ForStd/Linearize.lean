import NoiseAI.ForStd.Machine
import Mathlib.Logic.Function.Basic

/-!
# Linearizability

Parties call a shared object, each one call at a time. A sequential object is a function
`act`: what it does with a call at one moment, which gives the result or leaves a call still to
be acted on. The object behaves that way under concurrent use (`Linearizable`) when moments at
which it acts can be put between the calls and returns that the parties see, each between a
call and its return, so that every result is the one of these moments. A forward simulation
shows this of a system (`linearizable_of_simulation`).
-/

namespace Linearize

variable {P C R S σ ι : Type _}

/-- What the parties see. -/
inductive Event (P C R : Type _) where
  | call (p : P) (c : C)
  | ret (p : P) (r : R)
  deriving DecidableEq

/-- An event, or a moment at which the object acts on the call of a party. -/
inductive Point (P C R : Type _) where
  | event (e : Event P C R)
  | acts (p : P)
  deriving DecidableEq

/-- Where a party is: between two calls, with a call to be acted on, or with its result. -/
inductive Status (C R : Type _) where
  | idle
  | called (c : C)
  | done (r : R)
  deriving DecidableEq

/-- Where a party is when the object has acted on its call. -/
def Status.acted : C ⊕ R → Status C R
  | .inl c => .called c
  | .inr r => .done r

variable [DecidableEq P]

/-- From the object `q` with the parties at `st`, the points `xs` lead to `q'` and `st'`. -/
inductive Moves (act : S → C → S × (C ⊕ R)) :
    S → (P → Status C R) → List (Point P C R) → S → (P → Status C R) → Prop where
  | nil {q : S} {st : P → Status C R} : Moves act q st [] q st
  | call {q q' : S} {st st' : P → Status C R} {p : P} {c : C} {xs : List (Point P C R)} :
    st p = .idle → Moves act q (Function.update st p (.called c)) xs q' st' →
    Moves act q st (.event (.call p c) :: xs) q' st'
  | acts {q q' : S} {st st' : P → Status C R} {p : P} {c : C} {xs : List (Point P C R)} :
    st p = .called c →
    Moves act (act q c).1 (Function.update st p (.acted (act q c).2)) xs q' st' →
    Moves act q st (.acts p :: xs) q' st'
  | ret {q q' : S} {st st' : P → Status C R} {p : P} {r : R} {xs : List (Point P C R)} :
    st p = .done r → Moves act q (Function.update st p .idle) xs q' st' →
    Moves act q st (.event (.ret p r) :: xs) q' st'

/-- The events among the points. -/
def events (xs : List (Point P C R)) : List (Event P C R) :=
  xs.filterMap fun | .event e => some e | .acts _ => none

/-- The object, `q` at first, can have acted so that the parties see `es`. -/
def Linearizable (act : S → C → S × (C ⊕ R)) (q : S) (es : List (Event P C R)) : Prop :=
  ∃ xs q' st, events xs = es ∧ Moves act q (fun _ => .idle) xs q' st

variable {act : S → C → S × (C ⊕ R)} {q q' : S} {st st' : P → Status C R}

/-- Points follow one another. -/
theorem Moves.append {xs ys : List (Point P C R)} {q'' : S} {st'' : P → Status C R}
    (h : Moves act q st xs q' st') (h' : Moves act q' st' ys q'' st'') :
    Moves act q st (xs ++ ys) q'' st'' := by
  induction h with
  | nil => exact h'
  | call hidle _ ih => exact .call hidle (ih h')
  | acts hcalled _ ih => exact .acts hcalled (ih h')
  | ret hdone _ ih => exact .ret hdone (ih h')

/-- Nothing happens to a party that stays where it is. -/
theorem Moves.stay {p : P} {x : Status C R} (h : st p = x) :
    Moves act q st [] q (Function.update st p x) := by
  rw [← h, Function.update_eq_self]
  exact .nil

/-- The object answers a call. -/
theorem Moves.answers {p : P} {c : C} {r : R} (h : st p = .called c)
    (hact : act q c = (q', .inr r)) :
    Moves act q st [.acts p] q' (Function.update st p (.done r)) := by
  have hacts : Moves act q st [.acts p] _ _ := Moves.acts h .nil
  rwa [hact] at hacts

/-- The object acts on a call that it answers later. -/
theorem Moves.goes_on {p : P} {c c' : C} (h : st p = .called c)
    (hact : act q c = (q', .inl c')) :
    Moves act q st [.acts p] q' (Function.update st p (.called c')) := by
  have hacts : Moves act q st [.acts p] _ _ := Moves.acts h .nil
  rwa [hact] at hacts

/-- A party whose call is answered returns. -/
theorem Moves.returns {p : P} {r : R} (h : st p = .done r) :
    Moves act q st [.event (.ret p r)] q (Function.update st p .idle) := .ret h .nil

/-- The object answers a call, which returns at once. -/
theorem Moves.answers_returns {p : P} {c : C} {r : R} (h : st p = .called c)
    (hact : act q c = (q', .inr r)) :
    Moves act q st [.acts p, .event (.ret p r)] q' (Function.update st p .idle) := by
  have hdone : Function.update st p (.done r) p = Status.done r := Function.update_self ..
  have hmoves := (Moves.answers h hact).append (Moves.returns hdone)
  rwa [Function.update_idem] at hmoves

omit [DecidableEq P] in
theorem events_append (xs ys : List (Point P C R)) :
    events (xs ++ ys) = events xs ++ events ys := List.filterMap_append ..

/-- A system whose steps the object can follow is linearizable along every run. `Ok` is what
    the run is known to end in; it was so all along. -/
theorem linearizable_of_simulation {step : σ → ι → Option σ} {shown : σ → ι → List (Event P C R)}
    (Sim : σ → S → (P → Status C R) → Prop) (Ok : σ → Prop)
    (hback : ∀ s l s', step s l = some s' → Ok s' → Ok s)
    (hstep : ∀ s l s' q st, Ok s' → Sim s q st → step s l = some s' →
      ∃ xs q' st', events xs = shown s l ∧ Moves act q st xs q' st' ∧ Sim s' q' st')
    {s t : σ} {ls : List ι} (hstart : Sim s q fun _ => .idle) (hok : Ok t)
    (hrun : Machine.run step s ls = some t) :
    Linearizable act q (Machine.trace step shown s ls) := by
  suffices hall : ∀ st, Sim s q st → ∃ xs q' st',
      events xs = Machine.trace step shown s ls ∧ Moves act q st xs q' st' from
    hall _ hstart
  clear hstart
  induction ls generalizing s q with
  | nil => exact fun st _ => ⟨[], q, st, rfl, .nil⟩
  | cons l ls ih =>
    intro st hsim
    obtain ⟨s', hl, hrest⟩ := Machine.run_cons_some hrun
    have hok' : Ok s' := Machine.run_backward hback hrest hok
    obtain ⟨xs, q', st', hxs, hmoves, hsim'⟩ := hstep s l s' q st hok' hsim hl
    obtain ⟨ys, q'', st'', hys, hmoves'⟩ := ih hrest st' hsim'
    refine ⟨xs ++ ys, q'', st'', ?_, hmoves.append hmoves'⟩
    rw [events_append, hxs, hys, Machine.trace_cons hl]

end Linearize
