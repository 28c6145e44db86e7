/-!
# Option lemmas

`Option.Rel r` relates two options that are both `none`, or hold related values.
-/

namespace Option

variable {α : Type _} {r : α → α → Prop}

theorem rel_self (h : ∀ a, r a a) (o : Option α) : Rel r o o := by
  cases o with
  | none => exact .none
  | some a => exact .some (h a)

theorem Rel.trans (h : ∀ a b c, r a b → r b c → r a c) {o o' o'' : Option α} (hr : Rel r o o')
    (hr' : Rel r o' o'') : Rel r o o'' := by
  cases hr with
  | none =>
    cases hr'
    exact .none
  | some hab =>
    cases hr' with
    | some hbc => exact .some (h _ _ _ hab hbc)

theorem Rel.isSome_eq {o o' : Option α} (hr : Rel r o o') : o'.isSome = o.isSome := by
  cases hr <;> rfl

end Option
