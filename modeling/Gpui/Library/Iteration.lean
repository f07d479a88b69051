import Mathlib

/-!
# Iterators run to their end

An iterator is a partial step function that yields an item with every step.
`Exhausts` relates a state to all items it yields before it ends; `collect`
computes them with an explicit bound on their number.
-/

namespace Gpui.Library

universe u v

variable {σ : Type u} {α : Type v}

/-- The items yielded from `state` on, at most `fuel` of them. -/
def collect (next : σ → Option (α × σ)) : Nat → σ → List α
  | 0, _ => []
  | fuel + 1, state =>
      match next state with
      | none => []
      | some (item, state) => item :: collect next fuel state

/-- The iteration from a state ends after exactly these items. -/
inductive Exhausts (next : σ → Option (α × σ)) : σ → List α → Prop where
  | done {state : σ} (ended : next state = none) : Exhausts next state []
  | yield {state following : σ} {item : α} {items : List α}
      (step : next state = some (item, following)) (rest : Exhausts next following items) :
      Exhausts next state (item :: items)

/-- When a measure falls with every step, that much fuel reaches the end. -/
theorem exhausts_collect {next : σ → Option (α × σ)} (measure : σ → Nat)
    (invariant : σ → Prop)
    (descends : ∀ {state item following}, invariant state →
      next state = some (item, following) →
      invariant following ∧ measure following < measure state)
    {fuel : Nat} {state : σ} (holds : invariant state) (bounded : measure state < fuel) :
    Exhausts next state (collect next fuel state) := by
  induction fuel generalizing state with
  | zero => omega
  | succ fuel ih =>
      cases stepped : next state with
      | none =>
          simp only [collect, stepped]
          exact .done stepped
      | some yielded =>
          obtain ⟨item, following⟩ := yielded
          obtain ⟨kept, lower⟩ := descends holds stepped
          simp only [collect, stepped]
          exact .yield stepped (ih kept (by omega))

/-- What holds of each item yielded under an invariant holds of all of them. -/
theorem Exhausts.forall_mem {next : σ → Option (α × σ)} (invariant : σ → Prop)
    (property : α → Prop)
    (yields : ∀ {state item following}, invariant state →
      next state = some (item, following) → invariant following ∧ property item)
    {state : σ} {items : List α} (exhausts : Exhausts next state items)
    (holds : invariant state) : ∀ item ∈ items, property item := by
  induction exhausts with
  | done _ => simp
  | yield step _ ih =>
      obtain ⟨kept, first⟩ := yields holds step
      simpa using ⟨first, ih kept⟩

end Gpui.Library
