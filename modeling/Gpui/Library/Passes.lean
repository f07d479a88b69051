import Mathlib

/-!
# A loop as two passes

The body of a loop reads an event, which may fail and moves a cursor, and then writes what
it has read.  Where the cursor does not depend on what is written, reading everything first
and then writing it comes to the same.
-/

namespace Gpui.Library

variable {σ τ ε μ : Type}

/-- Read each event where the events before it have left the cursor. -/
def readAll (read : σ → ε → Option (μ × σ)) : σ → List ε → Option (List μ × σ)
  | cursor, [] => some ([], cursor)
  | cursor, event :: events => do
      let (mark, cursor) ← read cursor event
      let (marks, cursor) ← readAll read cursor events
      return (mark :: marks, cursor)

/-- The body of a loop that reads an event and writes what it has read. -/
def readThenWrite (read : σ → ε → Option (μ × σ)) (write : τ → μ → τ) (state : σ × τ)
    (event : ε) : Option (σ × τ) := do
  let (mark, cursor) ← read state.1 event
  return (cursor, write state.2 mark)

/-- The loop reads as a pass of its own does, and writes what that has read. -/
theorem foldlM_readThenWrite (read : σ → ε → Option (μ × σ)) (write : τ → μ → τ)
    (events : List ε) (cursor : σ) (output : τ) :
    events.foldlM (readThenWrite read write) (cursor, output) =
      (readAll read cursor events).map fun done => (done.2, done.1.foldl write output) := by
  induction events generalizing cursor output with
  | nil => rfl
  | cons event events ih =>
      rw [List.foldlM_cons]
      cases found : read cursor event with
      | none => simp [readThenWrite, readAll, found]
      | some step =>
          simp only [readThenWrite, readAll, found, Option.bind_eq_bind, Option.bind_some,
            Option.pure_def]
          rw [ih step.2 (write output step.1)]
          cases readAll read step.2 events with
          | none => rfl
          | some done => rfl

/-- Reading succeeds where each read does. -/
theorem exists_readAll {read : σ → ε → Option (μ × σ)} (invariant : σ → Prop)
    (reads : ∀ cursor event, invariant cursor →
      ∃ mark next, read cursor event = some (mark, next) ∧ invariant next)
    {cursor : σ} (holds : invariant cursor) (events : List ε) :
    ∃ marks last, readAll read cursor events = some (marks, last) := by
  induction events generalizing cursor with
  | nil => exact ⟨[], cursor, rfl⟩
  | cons event events ih =>
      rcases reads cursor event holds with ⟨mark, next, found, kept⟩
      rcases ih kept with ⟨marks, last, foundAll⟩
      exact ⟨mark :: marks, last, by simp [readAll, found, foundAll]⟩

theorem readAll_cons {read : σ → ε → Option (μ × σ)} {cursor last : σ} {event : ε}
    {events : List ε} {marks : List μ}
    (found : readAll read cursor (event :: events) = some (marks, last)) :
    ∃ mark next rest, read cursor event = some (mark, next) ∧
      readAll read next events = some (rest, last) ∧ marks = mark :: rest := by
  cases step : read cursor event with
  | none => simp [readAll, step] at found
  | some reading =>
      cases further : readAll read reading.2 events with
      | none => simp [readAll, step, further] at found
      | some done =>
          simp only [readAll, step, further, Option.bind_eq_bind, Option.bind_some,
            Option.pure_def, Option.some.injEq, Prod.mk.injEq] at found
          rcases found with ⟨rfl, rfl⟩
          exact ⟨reading.1, reading.2, done.1, rfl, further, rfl⟩

/-- What each mark takes over from its event. -/
theorem map_readAll {α : Type} {read : σ → ε → Option (μ × σ)} {ofMark : μ → α}
    {ofEvent : ε → α}
    (keeps : ∀ {cursor event mark next}, read cursor event = some (mark, next) →
      ofMark mark = ofEvent event)
    {events : List ε} {cursor last : σ} {marks : List μ}
    (found : readAll read cursor events = some (marks, last)) :
    marks.map ofMark = events.map ofEvent := by
  induction events generalizing cursor marks with
  | nil =>
      simp only [readAll, Option.some.injEq, Prod.mk.injEq] at found
      rw [← found.1]
      rfl
  | cons event events ih =>
      rcases readAll_cons found with ⟨mark, next, rest, step, further, rfl⟩
      rw [List.map_cons, List.map_cons, keeps step, ih further]

/-- Where each read leaves its mark behind in the cursor, each mark is related to the one
before. -/
theorem isChain_readAll {read : σ → ε → Option (μ × σ)} (left : μ → σ → Prop)
    {relation : μ → μ → Prop}
    (leaves : ∀ {cursor event mark next}, read cursor event = some (mark, next) →
      left mark next)
    (relates : ∀ {before cursor event mark next}, left before cursor →
      read cursor event = some (mark, next) → relation before mark)
    {events : List ε} {cursor last : σ} {marks : List μ}
    (found : readAll read cursor events = some (marks, last)) : marks.IsChain relation := by
  induction events generalizing cursor marks with
  | nil =>
      simp only [readAll, Option.some.injEq, Prod.mk.injEq] at found
      rw [← found.1]
      exact .nil
  | cons event events ih =>
      rcases readAll_cons found with ⟨mark, next, rest, step, further, rfl⟩
      cases events with
      | nil =>
          simp only [readAll, Option.some.injEq, Prod.mk.injEq] at further
          rw [← further.1]
          exact .singleton mark
      | cons second events =>
          rcases readAll_cons further with ⟨following, _, tail, stepNext, -, rfl⟩
          exact .cons_cons (relates (leaves step) stepNext) (ih further)

end Gpui.Library
