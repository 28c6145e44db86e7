import NoiseAI.ForStd.Machine
import Mathlib.Tactic.Common

/-!
# Bounded response by a rank

A system that waits for something, and a rank that every tick lowers: it comes within as many
ticks as the rank counts (`reached_within`), whatever else happens between them. For a guarded
step function the same holds of every run (`reached_within_run`).
-/

namespace Rank

variable {σ ι : Type _}

section

variable (step : σ → ι → σ) (tick : ι → Bool) (Waiting : σ → Prop) (rank : σ → Nat)
  (Done : σ → ι → Prop)

/-- From a waiting state, one of the next `rank` ticks is the one waited for. -/
theorem reached_within (hpos : ∀ s, Waiting s → 0 < rank s)
    (htick : ∀ s l, Waiting s → tick l = true →
      Done s l ∨ Waiting (step s l) ∧ rank (step s l) < rank s)
    (hother : ∀ s l, Waiting s → tick l = false →
      Waiting (step s l) ∧ rank (step s l) ≤ rank s)
    {s : σ} (hs : Waiting s) {ls : List ι} (hlong : rank s ≤ ls.countP tick) :
    ∃ p l q, ls = p ++ l :: q ∧ p.countP tick < rank s ∧ tick l = true ∧
      Waiting (p.foldl step s) ∧ Done (p.foldl step s) l := by
  -- a tick lowers the rank or is the one waited for, and other steps do not raise it
  induction ls generalizing s with
  | nil =>
    have hrank := hpos s hs
    rw [List.countP_nil] at hlong
    omega
  | cons l ls ih =>
    cases hl : tick l with
    | true =>
      rw [List.countP_cons_of_pos hl] at hlong
      rcases htick s l hs hl with hdone | ⟨hnext, hless⟩
      · exact ⟨[], l, ls, rfl, hpos s hs, hl, hs, hdone⟩
      · obtain ⟨p, l', q, rfl, hcount, hl', hwaiting, hdone⟩ := ih hnext (by omega)
        refine ⟨l :: p, l', q, rfl, ?_, hl', hwaiting, hdone⟩
        rw [List.countP_cons_of_pos hl]
        omega
    | false =>
      have hnot : ¬ tick l = true := by
        rw [hl]
        exact Bool.false_ne_true
      rw [List.countP_cons_of_neg hnot] at hlong
      obtain ⟨hnext, hle⟩ := hother s l hs hl
      obtain ⟨p, l', q, rfl, hcount, hl', hwaiting, hdone⟩ := ih hnext (by omega)
      refine ⟨l :: p, l', q, rfl, ?_, hl', hwaiting, hdone⟩
      rw [List.countP_cons_of_neg hnot]
      omega

end

/-- In a run that starts with waiting, what is waited for comes within the next `rank` ticks. -/
theorem reached_within_run {step : σ → ι → Option σ} {tick : ι → Bool} (Waiting Done : σ → Prop)
    (rank : σ → Nat) (hpos : ∀ s, Waiting s → 0 < rank s)
    (htick : ∀ s l s', Waiting s → tick l = true → step s l = some s' →
      Done s' ∨ Waiting s' ∧ rank s' < rank s)
    (hother : ∀ s l s', Waiting s → tick l = false → step s l = some s' →
      Done s' ∨ Waiting s' ∧ rank s' ≤ rank s)
    {s t : σ} (hs : Waiting s) {ls : List ι} (hrun : Machine.run step s ls = some t)
    (hlong : rank s ≤ ls.countP tick) :
    ∃ p q u, ls = p ++ q ∧ p.countP tick ≤ rank s ∧ Machine.run step s p = some u ∧ Done u := by
  induction ls generalizing s with
  | nil =>
    have hrank := hpos s hs
    rw [List.countP_nil] at hlong
    omega
  | cons l ls ih =>
    obtain ⟨s', hl, hrest⟩ := Machine.run_cons_some hrun
    have hone : Machine.run step s [l] = some s' := by
      rw [Machine.run_cons, hl]
      rfl
    -- a run from the next state, with `l` in front
    have hmore : ∀ n, Waiting s' → rank s' ≤ ls.countP tick → rank s' + n ≤ rank s →
        List.countP tick [l] = n →
        ∃ p q u, l :: ls = p ++ q ∧ p.countP tick ≤ rank s ∧ Machine.run step s p = some u ∧
          Done u := by
      intro n hwaiting hrank hle hn
      obtain ⟨p, q, u, rfl, hcount, hu, hdone⟩ := ih hwaiting hrest hrank
      refine ⟨l :: p, q, u, rfl, ?_, Machine.run_trans hone hu, hdone⟩
      rw [← List.singleton_append, List.countP_append, hn]
      omega
    cases htl : tick l with
    | true =>
      rw [List.countP_cons_of_pos htl] at hlong
      have hcount : List.countP tick [l] = 1 := by rw [List.countP_singleton, htl]; rfl
      rcases htick s l s' hs htl hl with hdone | ⟨hnext, hless⟩
      · have hrank := hpos s hs
        exact ⟨[l], ls, s', rfl, by omega, hone, hdone⟩
      · exact hmore 1 hnext (by omega) (by omega) hcount
    | false =>
      have hnot : ¬ tick l = true := by
        rw [htl]
        exact Bool.false_ne_true
      rw [List.countP_cons_of_neg hnot] at hlong
      have hcount : List.countP tick [l] = 0 := by rw [List.countP_singleton, htl]; rfl
      rcases hother s l s' hs htl hl with hdone | ⟨hnext, hle⟩
      · exact ⟨[l], ls, s', rfl, by omega, hone, hdone⟩
      · exact hmore 0 hnext (by omega) (by omega) hcount

end Rank
