import NoiseAI.ForStd.Prefill
import Mathlib.Algebra.BigOperators.Group.List.Basic
import Mathlib.Algebra.GroupWithZero.Nat

/-!
# The silence of a stage with a prefill gate

A stage is silent up to its first answer with samples. `lead` counts the samples of the
requests until then: it depends on the sizes of the requests alone. A `Regime` is a kind of
requests under which no silence follows; requests of one size (`Regime.equal`) and requests of
at most one block (`Regime.small`) are regimes. All that a stage plays to such requests is the
silence of `lead`, and then everything it delivers (`Plays.eq_of_before`).
-/

namespace Prefill

variable {size cushion : Nat} {l : Level} {n : Nat}

/-- The samples of the requests before the first one for which the cushion and the request are
    ready, from `accepted` samples on. -/
def lead (size cushion accepted : Nat) : List Nat → Nat
  | [] => 0
  | n :: ns =>
    if max cushion n ≤ size * ((accepted + n) / size) then 0
    else n + lead size cushion (accepted + n) ns

/-- A silent stage holds back less than the cushion, or than the largest request and two
    blocks. -/
theorem lead_le {limit : Nat} (hsize : 0 < size) (hcushion : size ∣ cushion) {ns : List Nat}
    (hlimit : ∀ n ∈ ns, n ≤ limit) (accepted : Nat) :
    accepted + lead size cushion accepted ns ≤
      max accepted (max (cushion - 1) (limit + size - 2)) := by
  induction ns generalizing accepted with
  | nil => exact Nat.le_max_left _ _
  | cons n ns ih =>
    rw [lead]
    split
    · exact Nat.le_max_left _ _
    · rename_i hshort
      have hn := hlimit n List.mem_cons_self
      have ih := ih (fun m hm => hlimit m (List.mem_cons_of_mem n hm)) (accepted + n)
      -- what is accepted by now is less than the cushion or the request, but for a block
      have hwhole := whole_add_mod size (accepted + n)
      have hmod := Nat.mod_lt (accepted + n) hsize
      obtain ⟨k, rfl⟩ := hcushion
      have hless : size * ((accepted + n) / size) < n ∨ (accepted + n) / size + 1 ≤ k := by
        by_cases hk : (accepted + n) / size + 1 ≤ k
        · exact .inr hk
        · have hle : size * k ≤ size * ((accepted + n) / size) :=
            Nat.mul_le_mul_left size (by omega)
          omega
      rcases hless with hless | hless
      · omega
      · have hle : size * ((accepted + n) / size + 1) ≤ size * k := Nat.mul_le_mul_left size hless
        rw [Nat.mul_add, Nat.mul_one] at hle
        omega

/-- Nothing was emitted, and a gate that is open has its cushion. -/
structure Level.Unanswered (size cushion : Nat) (l : Level) : Prop where
  emitted : l.emitted = 0
  cushion : l.started = true → cushion ≤ size * (l.accepted / size)

theorem Level.Unanswered.start (size cushion : Nat) :
    Level.Unanswered size cushion { accepted := 0, emitted := 0, started := false } :=
  ⟨rfl, fun h => nomatch h⟩

/-- What the first answer with samples takes. -/
theorem Level.Unanswered.ready_iff (h : l.Unanswered size cushion) :
    (l.accept size cushion n).ready size n = true ↔
      max cushion n ≤ size * ((l.accepted + n) / size) := by
  have hmono : size * (l.accepted / size) ≤ size * ((l.accepted + n) / size) :=
    Nat.mul_le_mul_left _ (Nat.div_le_div_right (Nat.le_add_right _ _))
  rw [Level.ready_iff]
  simp only [Level.accept, Level.available, h.emitted, Nat.sub_zero, Bool.or_eq_true,
    decide_eq_true_eq, Nat.max_le]
  constructor
  · rintro ⟨hopen | hopen, hn⟩
    · exact ⟨Nat.le_trans (h.cushion hopen) hmono, hn⟩
    · exact ⟨hopen, hn⟩
  · rintro ⟨hopen, hn⟩
    exact ⟨.inr hopen, hn⟩

theorem Level.Unanswered.step (h : l.Unanswered size cushion)
    (hsilent : (l.accept size cushion n).ready size n = false) :
    (l.step size cushion n).Unanswered size cushion := by
  have hmono : size * (l.accepted / size) ≤ size * ((l.accepted + n) / size) :=
    Nat.mul_le_mul_left _ (Nat.div_le_div_right (Nat.le_add_right _ _))
  rw [Level.step_of_silent hsilent]
  refine ⟨h.emitted, fun hopen => ?_⟩
  simp only [Level.accept, h.emitted, Nat.sub_zero, Bool.or_eq_true, decide_eq_true_eq] at hopen ⊢
  rcases hopen with hopen | hopen
  · exact Nat.le_trans (h.cushion hopen) hmono
  · exact hopen

/-- With requests that `P` allows, `before` holds up to the first answer with samples and
    `after` from then on, and every request after the first is answered with samples. -/
structure Regime (size cushion : Nat) (P : Nat → Prop) (before after : Level → Prop) : Prop where
  start : before { accepted := 0, emitted := 0, started := false }
  silent : ∀ {l n}, l.Inv size → P n → before l →
    (l.accept size cushion n).ready size n = false → before (l.step size cushion n)
  first : ∀ {l n}, l.Inv size → P n → before l →
    (l.accept size cushion n).ready size n = true → after (l.step size cushion n)
  ready : ∀ {l n}, l.Inv size → P n → after l → (l.accept size cushion n).ready size n = true
  step : ∀ {l n}, l.Inv size → P n → after l → after (l.step size cushion n)

/-- Requests of one size. -/
theorem Regime.equal (hsize : 0 < size) (hcushion : 2 * size ≤ cushion) (n : Nat) :
    Regime size cushion (· = n) (·.EqualRequests size n) (·.Flowing size n) where
  start := ⟨Nat.dvd_zero n, .inl ⟨rfl, fun h => nomatch h⟩⟩
  silent := by
    rintro l m hinv rfl h -
    exact h.step hinv hsize hcushion
  first := by
    rintro l m hinv rfl h hready
    exact h.flowing_of_ready hinv hsize hcushion hready
  ready := by
    rintro l m hinv rfl h
    exact h.ready hinv hsize cushion
  step := by
    rintro l m hinv rfl h
    exact h.step hinv hsize

/-- Requests of at most one block. -/
theorem Regime.small (hsize : 0 < size) (hcushion : 2 * size ≤ cushion) :
    Regime size cushion (· ≤ size) (·.SmallRequests size) (·.Primed size) where
  start := .inl rfl
  silent := fun hinv hn h _ => h.step hinv hsize hcushion hn
  first := by
    intro l n hinv hn h hready
    -- an answer with samples opens the gate
    rcases h.step hinv hsize hcushion hn with hclosed | hprimed
    · rw [Level.step_of_ready hready] at hclosed
      exact nomatch hclosed
    · exact hprimed
  ready := fun hinv _ h => h.ready hinv hsize cushion _
  step := fun hinv _ h => h.step hinv hsize

/-! ## What a stage plays -/

variable {β : Type _} {blank : β}

/-- The answer to a request of `n` samples: silence, or samples that are delivered. -/
inductive Answered (size cushion : Nat) (blank : β) (l : Level) (n : Nat) :
    List β → List β → Prop where
  | silence (ready : (l.accept size cushion n).ready size n = false) :
    Answered size cushion blank l n (List.replicate n blank) []
  | audio {answer : List β} (ready : (l.accept size cushion n).ready size n = true)
      (length : answer.length = n) :
    Answered size cushion blank l n answer answer

/-- What is played to a sequence of requests, and what is delivered with it. -/
inductive Plays (size cushion : Nat) (blank : β) :
    Level → List Nat → List β → List β → Prop where
  | nil {l : Level} : Plays size cushion blank l [] [] []
  | cons {l : Level} {n : Nat} {ns : List Nat} {answer delivered played rest : List β}
      (first : Answered size cushion blank l n answer delivered)
      (others : Plays size cushion blank (l.step size cushion n) ns played rest) :
    Plays size cushion blank l (n :: ns) (answer ++ played) (delivered ++ rest)

/-- What is played to one request. -/
theorem Answered.plays {answer delivered : List β}
    (h : Answered size cushion blank l n answer delivered) :
    Plays size cushion blank l [n] answer delivered := by
  have hplays := Plays.cons h .nil
  rw [List.append_nil, List.append_nil] at hplays
  exact hplays

/-- Requests after others. -/
theorem Plays.append {ns ns' : List Nat} {played delivered played' delivered' : List β}
    (h : Plays size cushion blank l ns played delivered)
    (h' : Plays size cushion blank (ns.foldl (Level.step size cushion) l) ns' played' delivered') :
    Plays size cushion blank l (ns ++ ns') (played ++ played') (delivered ++ delivered') := by
  induction h with
  | nil => exact h'
  | cons hfirst _ ih =>
    rw [List.append_assoc, List.append_assoc]
    exact .cons hfirst (ih h')

section
variable {P : Nat → Prop} {before after : Level → Prop} {ns : List Nat} {played delivered : List β}
  (regime : Regime size cushion P before after)
include regime

/-- After the first answer with samples all that is played is delivered. -/
theorem Plays.eq_of_after (hplays : Plays size cushion blank l ns played delivered)
    (hinv : l.Inv size) (hafter : after l) (hP : ∀ n ∈ ns, P n) :
    played = delivered ∧ ns.sum = delivered.length := by
  induction hplays with
  | nil => exact ⟨rfl, rfl⟩
  | @cons l n ns answer delivered played rest hfirst _ ih =>
    have hn := hP n List.mem_cons_self
    obtain ⟨hall, hcount⟩ := ih hinv.step (regime.step hinv hn hafter)
      (fun m hm => hP m (List.mem_cons_of_mem n hm))
    cases hfirst with
    | silence hready =>
      rw [regime.ready hinv hn hafter] at hready
      cases hready
    | audio _ hlength =>
      rw [hall, List.sum_cons, List.length_append, hcount, hlength]
      exact ⟨rfl, rfl⟩

/-- Up to the first answer with samples everything is silence. -/
theorem Plays.eq_of_before (hplays : Plays size cushion blank l ns played delivered)
    (hinv : l.Inv size) (hbefore : before l) (hnone : l.Unanswered size cushion)
    (hP : ∀ n ∈ ns, P n) :
    played = List.replicate (lead size cushion l.accepted ns) blank ++ delivered ∧
      ns.sum = lead size cushion l.accepted ns + delivered.length := by
  induction hplays with
  | nil => exact ⟨rfl, rfl⟩
  | @cons l n ns answer delivered played rest hfirst hothers ih =>
    have hn := hP n List.mem_cons_self
    have hP' : ∀ m ∈ ns, P m := fun m hm => hP m (List.mem_cons_of_mem n hm)
    rw [lead, List.sum_cons]
    cases hfirst with
    | silence hready =>
      -- the gate stays closed for this request
      have hshort : ¬ max cushion n ≤ size * ((l.accepted + n) / size) := by
        intro hle
        rw [hnone.ready_iff.mpr hle] at hready
        cases hready
      have haccepted : (l.step size cushion n).accepted = l.accepted + n := by
        rw [Level.step_of_silent hready]
        rfl
      obtain ⟨hall, hcount⟩ :=
        ih hinv.step (regime.silent hinv hn hbefore hready) (hnone.step hready) hP'
      rw [haccepted] at hall hcount
      rw [if_neg hshort, hall, hcount, ← List.append_assoc, List.replicate_append_replicate,
        Nat.add_assoc]
      exact ⟨rfl, rfl⟩
    | audio hready hlength =>
      obtain ⟨hall, hcount⟩ :=
        hothers.eq_of_after regime hinv.step (regime.first hinv hn hbefore hready) hP'
      rw [if_pos (hnone.ready_iff.mp hready), hall, hcount, List.length_append, hlength,
        Nat.zero_add]
      exact ⟨rfl, rfl⟩

end

end Prefill
