/-!
# Runs of guarded step functions

A system is given by a step function `step : σ → ι → Option σ`: `step s l` is the
state after the action labelled `l`, or `none` when `l` is not enabled in `s`.
A run is a list of labels. This file has the rules the rest of the development
reasons about runs with: composing runs, reaching one state from another, and
carrying an invariant along a run.
-/

namespace Machine

variable {σ τ ι κ : Type _}

/-- The state after the labels `ls`, or `none` if one of them is not enabled. -/
def run (step : σ → ι → Option σ) (s : σ) : List ι → Option σ
  | [] => some s
  | l :: ls => (step s l).bind fun s' => run step s' ls

/-- What the steps of a run show, one after the other. -/
def trace {ω : Type _} (step : σ → ι → Option σ) (shown : σ → ι → List ω) (s : σ) :
    List ι → List ω
  | [] => []
  | l :: ls => shown s l ++ (step s l).elim [] fun s' => trace step shown s' ls

theorem trace_cons {ω : Type _} {step : σ → ι → Option σ} {shown : σ → ι → List ω} {s s' : σ}
    {l : ι} {ls : List ι} (h : step s l = some s') :
    trace step shown s (l :: ls) = shown s l ++ trace step shown s' ls := by
  rw [trace, h]
  rfl

/-- A run over a nonempty list is one step followed by the rest. -/
theorem run_cons (step : σ → ι → Option σ) (s : σ) (l : ι) (ls : List ι) :
    run step s (l :: ls) = (step s l).bind fun s' => run step s' ls := rfl

/-- The first step of a successful run, and the run that follows it. -/
theorem run_cons_some {step : σ → ι → Option σ} {s t : σ} {l : ι} {ls : List ι}
    (h : run step s (l :: ls) = some t) :
    ∃ s', step s l = some s' ∧ run step s' ls = some t := by
  rw [run_cons] at h
  cases hs : step s l with
  | none => rw [hs] at h; exact nomatch h
  | some s' => rw [hs] at h; exact ⟨s', rfl, h⟩

/-- Running `ls ++ ls'` is running `ls`, then `ls'`. -/
theorem run_append (step : σ → ι → Option σ) (s : σ) (ls ls' : List ι) :
    run step s (ls ++ ls') = (run step s ls).bind fun s' => run step s' ls' := by
  induction ls generalizing s with
  | nil => rfl
  | cons l ls ih =>
    simp only [List.cons_append, run_cons]
    cases step s l with
    | none => rfl
    | some s' => exact ih s'

/-- Two runs compose. -/
theorem run_trans {step : σ → ι → Option σ} {s t u : σ} {ls ls' : List ι}
    (h : run step s ls = some t) (h' : run step t ls' = some u) :
    run step s (ls ++ ls') = some u := by
  rw [run_append, h]
  exact h'

/-- Some run leads from `s` to `t`. -/
def Reaches (step : σ → ι → Option σ) (s t : σ) : Prop := ∃ ls, run step s ls = some t

theorem Reaches.trans {step : σ → ι → Option σ} {s t u : σ} (h : Reaches step s t)
    (h' : Reaches step t u) : Reaches step s u := by
  obtain ⟨ls, hls⟩ := h
  obtain ⟨ls', hls'⟩ := h'
  exact ⟨ls ++ ls', run_trans hls hls'⟩

theorem Reaches.single {step : σ → ι → Option σ} {s t : σ} (l : ι) (h : step s l = some t) :
    Reaches step s t := by
  refine ⟨[l], ?_⟩
  rw [run_cons, h]
  rfl

/-- One step, then a run. -/
theorem Reaches.head {step : σ → ι → Option σ} {s t u : σ} (l : ι) (h : step s l = some t)
    (h' : Reaches step t u) : Reaches step s u := (Reaches.single l h).trans h'

/-- A property that every step under an allowed label preserves holds at the end of
    every run of allowed labels. -/
theorem run_invariant {step : σ → ι → Option σ} (Ok : ι → Prop) (P : σ → Prop)
    (hstep : ∀ s l s', Ok l → P s → step s l = some s' → P s')
    {s t : σ} {ls : List ι} (hs : P s) (hok : ∀ l ∈ ls, Ok l) (h : run step s ls = some t) :
    P t := by
  induction ls generalizing s with
  | nil => cases h; exact hs
  | cons l ls ih =>
    obtain ⟨s', hl, hrest⟩ := run_cons_some h
    have hs' : P s' := hstep s l s' (hok l List.mem_cons_self) hs hl
    exact ih hs' (fun l' hl' => hok l' (List.mem_cons_of_mem _ hl')) hrest

/-- What a step cannot make true holds at the start of every run that ends with it. -/
theorem run_backward {step : σ → ι → Option σ} {P : σ → Prop}
    (hback : ∀ s l s', step s l = some s' → P s' → P s)
    {s t : σ} {ls : List ι} (h : run step s ls = some t) (ht : P t) : P s := by
  induction ls generalizing s with
  | nil => cases h; exact ht
  | cons l ls ih =>
    obtain ⟨s', hl, hrest⟩ := run_cons_some h
    exact hback s l s' hl (ih hrest)

/-- If a step keeps `P` exactly when `K` holds of it (`C` being kept anyway as long as `P`
    holds), then `P` holds all along a run exactly when `K` holds of all its steps. -/
theorem run_forall_iff {step : σ → ι → Option σ} (C P : σ → Prop) (K : σ → ι → Prop)
    (hstep : ∀ s l s', C s → P s → step s l = some s' → C s' ∧ (P s' ↔ K s l))
    {s t : σ} {ls : List ι} (hC : C s) (hP : P s) (h : run step s ls = some t) :
    (∀ ls₁ ls₂ u, ls = ls₁ ++ ls₂ → run step s ls₁ = some u → P u) ↔
      ∀ ls₁ l ls₂ u, ls = ls₁ ++ l :: ls₂ → run step s ls₁ = some u → K u l := by
  induction ls generalizing s with
  | nil =>
    -- an empty run: there is no step, and `P` holds of the start
    constructor
    · intro _ ls₁ l ls₂ u hsplit
      simp at hsplit
    · intro _ ls₁ ls₂ u hsplit hu
      rw [(List.append_eq_nil_iff.mp hsplit.symm).1] at hu
      cases hu
      exact hP
  | cons l ls ih =>
    obtain ⟨s', hl, hrest⟩ := run_cons_some h
    obtain ⟨hC', hiff⟩ := hstep s l s' hC hP hl
    -- the runs that begin with `l`, by the step and by the induction hypothesis for the rest
    have hfirst : run step s [l] = some s' := by rw [run_cons, hl]; rfl
    have hlift : ∀ ls₁ u, run step s' ls₁ = some u → run step s (l :: ls₁) = some u := by
      intro ls₁ u hu
      rw [run_cons, hl]
      exact hu
    constructor
    · intro hall ls₁ l' ls₂ u hsplit hu
      have hP' : P s' := hall [l] ls s' rfl hfirst
      cases ls₁ with
      | nil =>
        cases hu
        cases hsplit
        exact hiff.mp hP'
      | cons l₁ ls₁ =>
        cases hsplit
        obtain ⟨s'', hl', hu'⟩ := run_cons_some hu
        rw [hl] at hl'
        cases hl'
        refine (ih hC' hP' hrest).mp ?_ ls₁ l' ls₂ u rfl hu'
        intro ls₃ ls₄ v hsplit' hv
        exact hall (l :: ls₃) ls₄ v (by rw [List.cons_append, ← hsplit']) (hlift _ _ hv)
    · intro hall ls₁ ls₂ u hsplit hu
      have hP' : P s' := hiff.mpr (hall [] l ls s rfl rfl)
      cases ls₁ with
      | nil =>
        cases hu
        exact hP
      | cons l₁ ls₁ =>
        cases hsplit
        obtain ⟨s'', hl', hu'⟩ := run_cons_some hu
        rw [hl] at hl'
        cases hl'
        refine (ih hC' hP' hrest).mpr ?_ ls₁ ls₂ u rfl hu'
        intro ls₃ l' ls₄ v hsplit' hv
        exact hall (l :: ls₃) l' ls₄ v (by rw [List.cons_append, ← hsplit']) (hlift _ _ hv)

/-! ## What a run shows -/

variable {ω : Type _} {step : σ → ι → Option σ} {shown : σ → ι → List ω} {s t : σ} {ls : List ι}

/-- What a run shows, and then what the run after it shows. -/
theorem trace_append (h : run step s ls = some t) (ls' : List ι) :
    trace step shown s (ls ++ ls') = trace step shown s ls ++ trace step shown t ls' := by
  induction ls generalizing s with
  | nil =>
    cases h
    rfl
  | cons l ls ih =>
    obtain ⟨s', hl, hrest⟩ := run_cons_some h
    rw [List.cons_append, trace_cons hl, trace_cons hl, ih hrest, List.append_assoc]

/-- A run is seen as the run of another system that takes what it shows. -/
theorem run_simulates {view : σ → τ} {step' : τ → ω → τ} {Ok : ι → Prop}
    (hstep : ∀ s l s', Ok l → step s l = some s' → view s' = (shown s l).foldl step' (view s))
    (hok : ∀ l ∈ ls, Ok l) (h : run step s ls = some t) :
    view t = (trace step shown s ls).foldl step' (view s) := by
  induction ls generalizing s with
  | nil =>
    cases h
    rfl
  | cons l ls ih =>
    obtain ⟨s', hl, hrest⟩ := run_cons_some h
    rw [trace_cons hl, List.foldl_append, ← hstep s l s' (hok l List.mem_cons_self) hl]
    exact ih (fun l' hl' => hok l' (List.mem_cons_of_mem _ hl')) hrest

/-- If every step shows at most one thing, a run can be split where something was shown. -/
theorem trace_split (hone : ∀ s l, (shown s l).length ≤ 1) {p q : List ω} {x : ω}
    (h : run step s ls = some t) (hsplit : trace step shown s ls = p ++ x :: q) :
    ∃ before l after u v, ls = before ++ l :: after ∧ run step s before = some u ∧
      step u l = some v ∧ run step v after = some t ∧ trace step shown s before = p ∧
      shown u l = [x] ∧ trace step shown v after = q := by
  induction ls generalizing s p with
  | nil =>
    rw [trace] at hsplit
    exact absurd hsplit.symm (List.append_ne_nil_of_right_ne_nil p (List.cons_ne_nil x q))
  | cons l ls ih =>
    obtain ⟨s', hl, hrest⟩ := run_cons_some h
    rw [trace_cons hl] at hsplit
    -- a step in front of the one that shows `x`, with what it shows
    have hmore : ∀ p', trace step shown s' ls = p' ++ x :: q → shown s l ++ p' = p →
        ∃ before l' after u v, l :: ls = before ++ l' :: after ∧ run step s before = some u ∧
          step u l' = some v ∧ run step v after = some t ∧ trace step shown s before = p ∧
          shown u l' = [x] ∧ trace step shown v after = q := by
      intro p' htrace hp
      obtain ⟨before, l', after, u, v, rfl, hu, hv, ht, hbefore, hshown, hafter⟩ :=
        ih hrest htrace
      refine ⟨l :: before, l', after, u, v, rfl, ?_, hv, ht, ?_, hshown, hafter⟩
      · rw [run_cons, hl]
        exact hu
      · rw [trace_cons hl, hbefore, hp]
    cases hs : shown s l with
    | nil =>
      rw [hs] at hsplit
      exact hmore p hsplit (by rw [hs]; rfl)
    | cons y ys =>
      have hlen := hone s l
      rw [hs, List.length_cons] at hlen
      obtain rfl : ys = [] := List.length_eq_zero_iff.mp (by omega)
      rw [hs] at hsplit
      cases p with
      | nil =>
        cases hsplit
        exact ⟨[], l, ls, s, s', rfl, rfl, hl, hrest, rfl, hs, rfl⟩
      | cons y' p =>
        obtain ⟨rfl, hrest'⟩ := List.cons_eq_cons.mp hsplit
        exact hmore p hrest' (by rw [hs]; rfl)

/-- What a run shows is counted step by step. -/
theorem countP_trace {f : ω → Bool} {g : ι → Bool}
    (hcount : ∀ s l, (shown s l).countP f = if g l then 1 else 0)
    (h : run step s ls = some t) : (trace step shown s ls).countP f = ls.countP g := by
  induction ls generalizing s with
  | nil => rfl
  | cons l ls ih =>
    obtain ⟨s', hl, hrest⟩ := run_cons_some h
    rw [trace_cons hl, List.countP_append, hcount, ih hrest, List.countP_cons, Nat.add_comm]

end Machine
