import Mathlib

/-!
# Dry runs

A run that may fail is planned by a total function when it never gets ahead of the plan:
started no later than the plan, it succeeds and ends no later, as long as the plan ends within
a limit.  Plans of steps give plans of sequences of them.
-/

namespace Gpui.Library

universe u v

variable {α : Type u} [Preorder α] {ι : Type v}

structure Planned (limit : α) (run : α → Option α) (plan : α → α) : Prop where
  grows : ∀ start, start ≤ plan start
  stays : ∀ {start planned}, start ≤ planned → plan planned ≤ limit →
    ∃ next, run start = some next ∧ next ≤ plan planned

namespace Planned

variable {limit : α} {run otherRun : α → Option α} {plan otherPlan : α → α}

/-- What does nothing is planned by anything. -/
theorem skip (grows : ∀ start, start ≤ plan start) : Planned limit some plan where
  grows := grows
  stays {start planned} before _ := ⟨start, rfl, before.trans (grows planned)⟩

theorem nothing : Planned limit some (id : α → α) :=
  skip le_refl

/-- A plan that takes longer is one too. -/
theorem mono (planned : Planned limit run plan) (longer : ∀ start, plan start ≤ otherPlan start) :
    Planned limit run otherPlan where
  grows start := (planned.grows start).trans (longer start)
  stays {start plannedStart} before within := by
    rcases planned.stays before ((longer plannedStart).trans within) with ⟨next, runs, ends⟩
    exact ⟨next, runs, ends.trans (longer plannedStart)⟩

theorem bind (first : Planned limit run plan) (second : Planned limit otherRun otherPlan) :
    Planned limit (fun start => run start >>= otherRun) fun start => otherPlan (plan start) where
  grows start := (first.grows start).trans (second.grows _)
  stays before within := by
    rcases first.stays before ((second.grows _).trans within) with ⟨middle, runs, ends⟩
    rcases second.stays ends within with ⟨next, runsOn, endsOn⟩
    exact ⟨next, Option.bind_eq_some_iff.mpr ⟨middle, runs, runsOn⟩, endsOn⟩

/-- Steps that do not go back do not go back together. -/
theorem le_foldl {items : List ι} {plan : α → ι → α}
    (grows : ∀ start item, start ≤ plan start item) (start : α) :
    start ≤ items.foldl plan start := by
  induction items generalizing start with
  | nil => exact le_rfl
  | cons item items ih => exact (grows start item).trans (ih _)

/-- The steps of a list, one after the other. -/
theorem foldlM {items : List ι} {step : α → ι → Option α} {plan : α → ι → α}
    (each : ∀ item ∈ items, Planned limit (fun start => step start item) fun start =>
      plan start item) :
    Planned limit (fun start => items.foldlM step start) fun start => items.foldl plan start := by
  induction items with
  | nil => exact nothing
  | cons item items ih =>
      rw [List.forall_mem_cons] at each
      exact each.1.bind (ih each.2)

/-- The steps may also depend on where the items are. -/
theorem foldlM_zipIdx {items : List ι} {step : α → ι × Nat → Option α} {plan : α → ι → α}
    (each : ∀ entry ∈ items.zipIdx, Planned limit (fun start => step start entry) fun start =>
      plan start entry.1) :
    Planned limit (fun start => items.zipIdx.foldlM step start) fun start =>
      items.foldl plan start := by
  apply (foldlM each).mono
  intro start
  have same : (items.zipIdx.map Prod.fst).foldl plan start =
      items.zipIdx.foldl (fun start entry => plan start entry.1) start := List.foldl_map
  rw [List.zipIdx_map_fst] at same
  exact le_of_eq same.symm

end Planned

end Gpui.Library
