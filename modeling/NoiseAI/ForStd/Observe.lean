/-!
# What an observer can tell apart

A deterministic system with outputs: `step s l` is the next state and `out s l` what the
observer sees of the step. Two states are `Distinct` when some sequence of allowed inputs
shows the observer different outputs. If every input shows as many outputs in one state as
in any other, an input can be put in front of a distinguishing sequence (`Distinct.of_step`).
A simulation (`outputs_of_simulation`) shows that two states look the same, a refinement
(`outputs_of_refinement`) that a system looks like another one with states of its own.
-/

namespace Observe

variable {σ ι ω : Type _} (step : σ → ι → σ) (out : σ → ι → List ω)

/-- Everything the observer sees from `s` on. -/
def outputs (s : σ) : List ι → List ω
  | [] => []
  | l :: ls => out s l ++ outputs (step s l) ls

@[simp] theorem outputs_cons (s : σ) (l : ι) (ls : List ι) :
    outputs step out s (l :: ls) = out s l ++ outputs step out (step s l) ls := rfl

/-- Some sequence of allowed inputs tells `s` and `t` apart. -/
def Distinct (Ok : ι → Prop) (s t : σ) : Prop :=
  ∃ ls, (∀ l ∈ ls, Ok l) ∧ outputs step out s ls ≠ outputs step out t ls

/-- What the steps from `s` on cost together. -/
def total (cost : σ → ι → Nat) (s : σ) : List ι → Nat
  | [] => 0
  | l :: ls => cost s l + total cost (step s l) ls

variable {step out} {Ok : ι → Prop} {s t : σ}

/-- The outputs of one more step. -/
theorem outputs_concat (s : σ) (ls : List ι) (l : ι) :
    outputs step out s (ls ++ [l]) = outputs step out s ls ++ out (ls.foldl step s) l := by
  induction ls generalizing s with
  | nil => exact List.append_nil (out s l)
  | cons l' ls ih => rw [List.cons_append, outputs_cons, ih, outputs_cons, List.append_assoc,
      List.foldl_cons]

/-- The cost of one more step. -/
theorem total_concat (cost : σ → ι → Nat) (s : σ) (ls : List ι) (l : ι) :
    total step cost s (ls ++ [l]) = total step cost s ls + cost (ls.foldl step s) l := by
  induction ls generalizing s with
  | nil => exact Nat.add_comm _ 0
  | cons l' ls ih =>
    simp only [List.cons_append, total, ih, List.foldl_cons]
    omega

/-- States related by a simulation stay related and show the observer the same. -/
theorem outputs_of_simulation {S : σ → σ → Prop}
    (hstep : ∀ s t l, Ok l → S s t → out t l = out s l ∧ S (step s l) (step t l)) (h : S s t)
    {ls : List ι} (hok : ∀ l ∈ ls, Ok l) :
    outputs step out t ls = outputs step out s ls ∧ S (ls.foldl step s) (ls.foldl step t) := by
  induction ls generalizing s t with
  | nil => exact ⟨rfl, h⟩
  | cons l ls ih =>
    obtain ⟨hout, hnext⟩ := hstep s t l (hok l List.mem_cons_self) h
    obtain ⟨houtputs, hlast⟩ := ih hnext fun l' hl' => hok l' (List.mem_cons_of_mem _ hl')
    exact ⟨by rw [outputs_cons, outputs_cons, hout, houtputs], hlast⟩

/-- A system refines another one when related states show the same and stay related. `S n`
    may ask for a budget `n`, of which each step takes its cost in the refined system. -/
theorem outputs_of_refinement {τ : Type _} {step' : τ → ι → τ} {out' : τ → ι → List ω}
    {cost : τ → ι → Nat} {S : Nat → σ → τ → Prop}
    (hstep : ∀ n s t l, S (cost t l + n) s t → out s l = out' t l ∧ S n (step s l) (step' t l))
    {t : τ} {ls : List ι} (h : S (total step' cost t ls) s t) :
    outputs step out s ls = outputs step' out' t ls := by
  induction ls generalizing s t with
  | nil => rfl
  | cons l ls ih =>
    obtain ⟨hout, hnext⟩ := hstep _ s t l h
    rw [outputs_cons, outputs_cons, hout, ih hnext]

theorem Distinct.symm (h : Distinct step out Ok s t) : Distinct step out Ok t s := by
  obtain ⟨ls, hok, hne⟩ := h
  exact ⟨ls, hok, hne.symm⟩

/-- States that an input leads to distinct states are distinct. -/
theorem Distinct.of_step (hlen : ∀ s t l, (out s l).length = (out t l).length) {l : ι}
    (hl : Ok l) (h : Distinct step out Ok (step s l) (step t l)) :
    Distinct step out Ok s t := by
  obtain ⟨ls, hok, hne⟩ := h
  refine ⟨l :: ls, List.forall_mem_cons.mpr ⟨hl, hok⟩, ?_⟩
  intro heq
  exact hne (List.append_inj heq (hlen s t l)).2

end Observe
