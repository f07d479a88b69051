import Mathlib

/-!
# Computations that log and may fail

A computation logs entries in order and fails or returns a value.  What it logged before it
failed stays.  A loop runs such a computation for one event after the other, and stops at the
first that fails.
-/

namespace Gpui.Library

structure Logged (ω α : Type) where
  log : List ω
  result : Option α

namespace Logged

variable {ω α β σ ε : Type}

def pure (value : α) : Logged ω α :=
  ⟨[], some value⟩

/-- Log an entry, and go on if there is a value. -/
def attempt (entry : ω) (value : Option α) : Logged ω α :=
  ⟨[entry], value⟩

def bind (first : Logged ω α) (next : α → Logged ω β) : Logged ω β :=
  match first.result with
  | some value => ⟨first.log ++ (next value).log, (next value).result⟩
  | none => ⟨first.log, none⟩

instance : Monad (Logged ω) where
  pure := pure
  bind := bind

theorem bind_result_eq_some {first : Logged ω α} {next : α → Logged ω β} {result : β}
    (returned : (first.bind next).result = some result) :
    ∃ value, first.result = some value ∧ (next value).result = some result := by
  cases found : first.result with
  | none => simp [bind, found] at returned
  | some value =>
      refine ⟨value, rfl, ?_⟩
      simpa [bind, found] using returned

theorem forall_log_bind {first : Logged ω α} {next : α → Logged ω β} {property : ω → Prop} :
    (∀ entry ∈ (first.bind next).log, property entry) ↔
      (∀ entry ∈ first.log, property entry) ∧
        ∀ value, first.result = some value → ∀ entry ∈ (next value).log, property entry := by
  cases found : first.result with
  | none =>
      simp only [bind, found]
      constructor
      · intro holds
        refine ⟨holds, ?_⟩
        intro value isValue
        cases isValue
      · intro holds
        exact holds.1
  | some value =>
      simp only [bind, found, List.forall_mem_append]
      constructor
      · rintro ⟨holds, holdsNext⟩
        refine ⟨holds, ?_⟩
        rintro other ⟨⟩
        exact holdsNext
      · rintro ⟨holds, holdsNext⟩
        exact ⟨holds, holdsNext value rfl⟩

/-- Run a step for one event after the other. -/
def iterate (step : σ → ε → Logged ω σ) : σ → List ε → Logged ω σ
  | state, [] => pure state
  | state, event :: events => (step state event).bind fun state => iterate step state events

theorem iterate_snoc_result {step : σ → ε → Logged ω σ} {state last : σ} {events : List ε}
    {event : ε} (returned : (iterate step state (events ++ [event])).result = some last) :
    ∃ before, (iterate step state events).result = some before ∧
      (step before event).result = some last := by
  induction events generalizing state with
  | nil =>
      rcases bind_result_eq_some returned with ⟨value, found, rest⟩
      refine ⟨state, rfl, ?_⟩
      rw [found]
      exact rest
  | cons first events ih =>
      rcases bind_result_eq_some returned with ⟨value, found, rest⟩
      rcases ih rest with ⟨before, isBefore, stepped⟩
      refine ⟨before, ?_, stepped⟩
      simp only [iterate, bind, found]
      exact isBefore

/-- What holds of all that a loop logs holds of what each of its steps logs. -/
theorem forall_log_iterate {step : σ → ε → Logged ω σ} {property : ω → Prop} {state : σ}
    {events : List ε} :
    (∀ entry ∈ (iterate step state events).log, property entry) ↔
      ∀ before event after reached, events = before ++ event :: after →
        (iterate step state before).result = some reached →
          ∀ entry ∈ (step reached event).log, property entry := by
  induction events generalizing state with
  | nil =>
      constructor
      · intro _ before event after reached split
        simp at split
      · intro _ entry member
        cases member
  | cons first events ih =>
      rw [iterate, forall_log_bind]
      constructor
      · rintro ⟨holds, holdsNext⟩ before event after reached split isReached
        cases before with
        | nil =>
            rcases List.cons.inj split with ⟨rfl, -⟩
            rcases Option.some.inj isReached with rfl
            exact holds
        | cons other before =>
            rcases List.cons.inj split with ⟨rfl, rest⟩
            rcases bind_result_eq_some isReached with ⟨value, found, later⟩
            exact ih.mp (holdsNext value found) before event after reached rest later
      · intro holds
        constructor
        · exact holds [] first events state rfl rfl
        · intro value found
          apply ih.mpr
          intro before event after reached rest isReached
          apply holds (first :: before) event after reached
          · rw [rest, List.cons_append]
          · simp only [iterate, bind, found]
            exact isReached

end Logged

end Gpui.Library
