import NoiseAI.ForStd.List
import Mathlib.Data.List.Count

/-!
# The life time of resources

A program creates resources, uses them through a handle that may be null, and destroys them.
Its run is a list of events. In a `Disciplined` run nothing is created twice, and what is used
or destroyed has been created and not been destroyed before. `Holds` says in addition that the
one resource alive is the one that the program's handle points to; creating, using and
destroying through the handle keep it.
-/

namespace Ledger

/-- `used none` is a use of a null handle. -/
inductive Event (ι : Type _) where
  | created (i : ι)
  | used (handle : Option ι)
  | destroyed (i : ι)
  deriving DecidableEq

variable {ι : Type _} {events : List (Event ι)} {i : ι}

/-- Created and not destroyed yet. -/
def Live (events : List (Event ι)) (i : ι) : Prop :=
  .created i ∈ events ∧ .destroyed i ∉ events

/-- What may happen after `before`. -/
def Legal (before : List (Event ι)) : Event ι → Prop
  | .created i => .created i ∉ before
  | .used none => False
  | .used (some i) => Live before i
  | .destroyed i => Live before i

def Disciplined (events : List (Event ι)) : Prop := List.Along Legal [] events

theorem disciplined_append {events' : List (Event ι)} :
    Disciplined (events ++ events') ↔ Disciplined events ∧ List.Along Legal events events' :=
  List.along_append

theorem disciplined_concat {event : Event ι} :
    Disciplined (events ++ [event]) ↔ Disciplined events ∧ Legal events event := by
  rw [disciplined_append]
  simp [List.Along]

/-- What is destroyed has been created. -/
theorem Disciplined.created_of_destroyed (h : Disciplined events) (hi : .destroyed i ∈ events) :
    .created i ∈ events := by
  obtain ⟨before, later, rfl⟩ := List.append_of_mem hi
  have hlegal : Live ([] ++ before) i := List.Along.split h
  exact List.mem_append_left _ hlegal.1

/-- An event that may not happen twice happens at most once. -/
theorem count_le_one [DecidableEq ι] {x : Event ι}
    (honce : ∀ before : List (Event ι), Legal before x → x ∉ before)
    {before : List (Event ι)} (h : List.Along Legal before events) :
    events.count x ≤ 1 ∧ (x ∈ before → events.count x = 0) := by
  induction events generalizing before with
  | nil => simp
  | cons e events ih =>
    obtain ⟨hlegal, hrest⟩ := h
    obtain ⟨hle, hzero⟩ := ih hrest
    rw [List.count_cons]
    by_cases heq : e = x
    · subst heq
      have hnone : events.count e = 0 := hzero (by simp)
      have hnot := honce before hlegal
      rw [hnone]
      simp [hnot]
    · have hne : (e == x) = false := by simpa using heq
      rw [hne]
      refine ⟨by simpa using hle, fun hmem => ?_⟩
      simpa using hzero (List.mem_append_left _ hmem)

/-- Where all that was created is destroyed in the end, each of it was created once and
    destroyed once. -/
theorem Disciplined.count_eq_one [DecidableEq ι] (h : Disciplined events)
    (hall : ∀ i, ¬Live events i) (hi : .created i ∈ events) :
    events.count (.created i) = 1 ∧ events.count (.destroyed i) = 1 := by
  have hdestroyed : .destroyed i ∈ events := by
    by_contra hnot
    exact hall i ⟨hi, hnot⟩
  have hcreated := (count_le_one (x := .created i) (fun _ hlegal => hlegal) h).1
  have hdestroy := (count_le_one (x := .destroyed i) (fun _ hlegal => hlegal.2) h).1
  have hpos := List.count_pos_iff.mpr hi
  have hpos' := List.count_pos_iff.mpr hdestroyed
  exact ⟨by omega, by omega⟩

/-! ## One handle -/

/-- The resource alive is the one that the handle points to. -/
structure Holds (events : List (Event ι)) (handle : Option ι) : Prop where
  disciplined : Disciplined events
  live : ∀ i, Live events i ↔ handle = some i

theorem holds_nil : Holds ([] : List (Event ι)) none :=
  ⟨trivial, fun _ => ⟨fun h => absurd h.1 List.not_mem_nil, fun h => nomatch h⟩⟩

theorem Holds.use (h : Holds events (some i)) : Holds (events ++ [.used (some i)]) (some i) where
  disciplined := disciplined_concat.mpr ⟨h.disciplined, (h.live i).mpr rfl⟩
  live := by
    intro j
    rw [← h.live j]
    simp [Live]

/-- Any number of uses. -/
theorem Holds.uses (h : Holds events (some i)) {uses : List (Event ι)}
    (huses : ∀ event ∈ uses, event = .used (some i)) : Holds (events ++ uses) (some i) := by
  induction uses generalizing events with
  | nil =>
    rw [List.append_nil]
    exact h
  | cons event uses ih =>
    obtain ⟨rfl, hrest⟩ := List.forall_mem_cons.mp huses
    have hnext := ih h.use hrest
    rw [List.append_assoc] at hnext
    exact hnext

theorem Holds.destroy (h : Holds events (some i)) : Holds (events ++ [.destroyed i]) none where
  disciplined := disciplined_concat.mpr ⟨h.disciplined, (h.live i).mpr rfl⟩
  live := by
    intro j
    constructor
    · intro ⟨hcreated, hnot⟩
      simp only [List.mem_append, List.mem_singleton, reduceCtorEq, or_false] at hcreated
      simp only [List.mem_append, List.mem_singleton, Event.destroyed.injEq, not_or] at hnot
      have hsame := (h.live j).mp ⟨hcreated, hnot.1⟩
      exact absurd (Option.some.inj hsame).symm hnot.2
    · exact fun hnone => nomatch hnone

theorem Holds.create (h : Holds events none) (hfresh : .created i ∉ events) :
    Holds (events ++ [.created i]) (some i) where
  disciplined := disciplined_concat.mpr ⟨h.disciplined, hfresh⟩
  live := by
    intro j
    have hnone : ¬Live events j := fun hlive => nomatch (h.live j).mp hlive
    constructor
    · intro ⟨hcreated, hnot⟩
      simp only [List.mem_append, List.mem_singleton, Event.created.injEq] at hcreated
      simp only [List.mem_append, List.mem_singleton, reduceCtorEq, or_false] at hnot
      obtain hold | hsame := hcreated
      · exact absurd ⟨hold, hnot⟩ hnone
      · rw [hsame]
    · intro hsame
      obtain rfl := Option.some.inj hsame
      refine ⟨by simp, ?_⟩
      simp only [List.mem_append, List.mem_singleton, reduceCtorEq, or_false]
      exact fun hdestroyed => hfresh (h.disciplined.created_of_destroyed hdestroyed)

/-- Destroy what the handle points to, if it is not null. -/
theorem Holds.release {handle : Option ι} (h : Holds events handle) :
    Holds (events ++ (handle.map Event.destroyed).toList) none := by
  cases handle with
  | none =>
    show Holds (events ++ []) none
    rw [List.append_nil]
    exact h
  | some i => exact h.destroy

end Ledger
