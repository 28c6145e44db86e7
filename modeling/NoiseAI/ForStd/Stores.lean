import Mathlib.Logic.Function.Basic

/-!
# What a memory operation stores to

`Stores f writes`: the operation `f` on a memory leaves every address outside `writes` as it
is, and what it leaves at an address in `writes` does not depend on what was there. A loop of
such operations is one again.
-/

/-- `f` stores to the addresses in `writes`, and to no others. -/
structure Stores {ι α : Type _} (f : (ι → α) → ι → α) (writes : ι → Prop) : Prop where
  frame : ∀ m a, ¬writes a → f m a = m a
  defined : ∀ m m' a, writes a → f m a = f m' a

namespace Stores

variable {ι α β : Type _} {f g : (ι → α) → ι → α} {writes writes' : ι → Prop}

theorem congr (h : Stores f writes) (hiff : ∀ a, writes a ↔ writes' a) : Stores f writes' where
  frame := fun m a ha => h.frame m a fun hw => ha ((hiff a).mp hw)
  defined := fun m m' a ha => h.defined m m' a ((hiff a).mpr ha)

/-- Nothing is stored. -/
theorem none : Stores (fun m : ι → α => m) fun _ => False where
  frame := fun _ _ _ => rfl
  defined := fun _ _ _ ha => ha.elim

/-- One store. -/
theorem update [DecidableEq ι] (a : ι) (x : α) :
    Stores (fun m => Function.update m a x) (· = a) where
  frame := fun m b hb => Function.update_of_ne hb x m
  defined := by
    rintro m m' b rfl
    rw [Function.update_self, Function.update_self]

/-- A block is overwritten. -/
theorem block (P : ι → Prop) [DecidablePred P] (x : ι → α) :
    Stores (fun m a => if P a then x a else m a) P where
  frame := fun _ _ ha => if_neg ha
  defined := by
    intro m m' a ha
    rw [if_pos ha, if_pos ha]

/-- One operation after the other. -/
theorem comp (hf : Stores f writes) (hg : Stores g writes') :
    Stores (fun m => g (f m)) fun a => writes a ∨ writes' a where
  frame := by
    intro m a ha
    rw [not_or] at ha
    rw [hg.frame _ a ha.2, hf.frame m a ha.1]
  defined := by
    intro m m' a ha
    by_cases hlast : writes' a
    · exact hg.defined _ _ a hlast
    · -- the second operation leaves what the first one stored
      rw [hg.frame _ a hlast, hg.frame _ a hlast]
      exact hf.defined m m' a (ha.resolve_right hlast)

/-- A loop. -/
theorem foldl {step : (ι → α) → β → ι → α} {writes : β → ι → Prop} (xs : List β)
    (h : ∀ x ∈ xs, Stores (fun m => step m x) (writes x)) :
    Stores (fun m => xs.foldl step m) fun a => ∃ x ∈ xs, writes x a := by
  induction xs with
  | nil => exact none.congr fun a => by simp
  | cons x xs ih =>
    obtain ⟨hx, hxs⟩ := List.forall_mem_cons.mp h
    exact (hx.comp (ih hxs)).congr fun a => by simp

end Stores
