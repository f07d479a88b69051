import Gpui.App.GlobalActions

/-!
# Dispatching mouse events

The mouse listeners of a frame run twice for an event: in the order in which they were
registered for the capture phase, and from the last back for the bubble phase.  A listener
that stops the propagation ends the dispatch.

A listener may change the app and the window in any way, and it tells what it did.  A panic
yields `none`.
-/

namespace Gpui

/-- What dispatching uses of the app, with all else that listeners may change. -/
structure MouseApp (V S : Type) where
  /-- The value that is dragged. -/
  activeDrag : Option V
  propagateEvent : Bool
  rest : S
deriving DecidableEq, Repr

/-- A listener, with what it does of note. -/
abbrev MouseListener (E V S : Type) :=
  DispatchPhase → MouseApp V S → Option (List E × MouseApp V S)

inductive MouseEventKind where
  | down
  | move
  | up
deriving DecidableEq, Repr

section Dispatch

variable {E V S : Type}

/-- Run one listener after the other, until one stops the propagation. -/
def runMouseListeners (phase : DispatchPhase) :
    List (MouseListener E V S) → MouseApp V S → Option (List E × MouseApp V S)
  | [], app => some ([], app)
  | listener :: listeners, app => do
      let (done, app) ← listener phase app
      if app.propagateEvent then
        let (more, app) ← runMouseListeners phase listeners app
        some (done ++ more, app)
      else some (done, app)

/-- What becomes of an active drag at the end of a dispatch.  `refresh` marks the window. -/
def endDispatch (refresh : S → S) (kind : MouseEventKind) (app : MouseApp V S) : MouseApp V S :=
  if app.activeDrag.isSome then
    match kind with
    | .down => app
    | .move => { app with rest := refresh app.rest }
    | .up => { app with activeDrag := none, rest := refresh app.rest }
  else app

def dispatchMouseEvent (refresh : S → S) (listeners : List (MouseListener E V S))
    (kind : MouseEventKind) (app : MouseApp V S) : Option (List E × MouseApp V S) := do
  let (captured, app) ← runMouseListeners .capture listeners { app with propagateEvent := true }
  let (bubbled, app) ←
    if app.propagateEvent then runMouseListeners .bubble listeners.reverse app
    else some ([], app)
  some (captured ++ bubbled, endDispatch refresh kind app)

variable {phase : DispatchPhase}

theorem runMouseListeners_cons {listener : MouseListener E V S} {done : List E}
    {app after : MouseApp V S} (runs : listener phase app = some (done, after))
    (listeners : List (MouseListener E V S)) :
    runMouseListeners phase (listener :: listeners) app =
      if after.propagateEvent then
        (runMouseListeners phase listeners after).map fun (more, last) => (done ++ more, last)
      else some (done, after) := by
  rw [runMouseListeners, runs]
  change (if after.propagateEvent then _ else _) = _
  by_cases propagates : after.propagateEvent
  · rw [if_pos propagates, if_pos propagates, Option.map_eq_bind]
    rfl
  · rw [if_neg propagates, if_neg propagates]

/-- Listeners that let the event through leave it to those behind them. -/
theorem runMouseListeners_append {front : List (MouseListener E V S)} {done : List E}
    {app after : MouseApp V S} (runs : runMouseListeners phase front app = some (done, after))
    (start : app.propagateEvent = true) (propagates : after.propagateEvent = true)
    (behind : List (MouseListener E V S)) :
    runMouseListeners phase (front ++ behind) app =
      (runMouseListeners phase behind after).map fun (more, last) => (done ++ more, last) := by
  induction front generalizing done app with
  | nil =>
      cases runs
      simp
  | cons listener rest ih =>
      rw [runMouseListeners] at runs
      rcases Option.bind_eq_some_iff.mp runs with ⟨⟨first, middle⟩, listens, goesOn⟩
      change (if middle.propagateEvent then _ else _) = _ at goesOn
      by_cases through : middle.propagateEvent
      · rw [if_pos through] at goesOn
        rcases Option.bind_eq_some_iff.mp goesOn with ⟨⟨more, last⟩, runsRest, same⟩
        cases same
        rw [List.cons_append, runMouseListeners_cons listens, if_pos through,
          ih runsRest through, Option.map_map]
        simp only [Function.comp_def, List.append_assoc]
      · rw [if_neg through] at goesOn
        cases goesOn
        exact absurd propagates through

/-- What listeners do together: the first of them stop the propagation, or those behind run
too. -/
theorem runMouseListeners_append_cases {front behind : List (MouseListener E V S)}
    {done : List E} {app last : MouseApp V S}
    (runs : runMouseListeners phase (front ++ behind) app = some (done, last))
    (start : app.propagateEvent = true) :
    ∃ first middle, runMouseListeners phase front app = some (first, middle) ∧
      (middle.propagateEvent = false ∧ done = first ∧ last = middle ∨
        middle.propagateEvent = true ∧ ∃ more,
          runMouseListeners phase behind middle = some (more, last) ∧ done = first ++ more) := by
  induction front generalizing done app with
  | nil => exact ⟨[], app, rfl, Or.inr ⟨start, done, runs, rfl⟩⟩
  | cons listener rest ih =>
      rw [List.cons_append, runMouseListeners] at runs
      rcases Option.bind_eq_some_iff.mp runs with ⟨⟨listened, next⟩, listens, goesOn⟩
      rw [runMouseListeners_cons listens]
      change (if next.propagateEvent then _ else _) = _ at goesOn
      by_cases through : next.propagateEvent
      · rw [if_pos through] at goesOn ⊢
        rcases Option.bind_eq_some_iff.mp goesOn with ⟨⟨others, finish⟩, runsRest, same⟩
        cases same
        rcases ih runsRest through with ⟨first, middle, runsFirst, ends⟩
        rw [runsFirst]
        refine ⟨listened ++ first, middle, rfl, ?_⟩
        rcases ends with ⟨stopped, rfl, rfl⟩ | ⟨passed, more, runsMore, rfl⟩
        · exact Or.inl ⟨stopped, rfl, rfl⟩
        · exact Or.inr ⟨passed, more, runsMore, (List.append_assoc _ _ _).symm⟩
      · rw [if_neg through] at goesOn ⊢
        cases goesOn
        exact ⟨done, last, rfl, Or.inl ⟨eq_false_of_ne_true through, rfl, rfl⟩⟩

/-- One listener among others: the propagation is stopped before it, or it runs. -/
theorem runMouseListeners_around {front behind : List (MouseListener E V S)}
    {listener : MouseListener E V S} {done : List E} {app last : MouseApp V S}
    (runs : runMouseListeners phase (front ++ listener :: behind) app = some (done, last))
    (start : app.propagateEvent = true) :
    ∃ first middle, runMouseListeners phase front app = some (first, middle) ∧
      (middle.propagateEvent = false ∧ done = first ∧ last = middle ∨
        middle.propagateEvent = true ∧ ∃ listened next more,
          listener phase middle = some (listened, next) ∧ done = first ++ (listened ++ more) ∧
          (next.propagateEvent = false ∧ more = [] ∧ last = next ∨
            next.propagateEvent = true ∧
              runMouseListeners phase behind next = some (more, last))) := by
  rcases runMouseListeners_append_cases runs start with
    ⟨first, middle, runsFront, stopped | ⟨through, others, runsOthers, rfl⟩⟩
  · exact ⟨first, middle, runsFront, Or.inl stopped⟩
  · refine ⟨first, middle, runsFront, Or.inr ⟨through, ?_⟩⟩
    rw [runMouseListeners] at runsOthers
    rcases Option.bind_eq_some_iff.mp runsOthers with ⟨⟨listened, next⟩, listens, goesOn⟩
    change (if next.propagateEvent then _ else _) = _ at goesOn
    by_cases propagates : next.propagateEvent
    · rw [if_pos propagates] at goesOn
      rcases Option.bind_eq_some_iff.mp goesOn with ⟨⟨more, finish⟩, runsMore, same⟩
      cases same
      exact ⟨listened, next, more, listens, rfl, Or.inr ⟨propagates, runsMore⟩⟩
    · rw [if_neg propagates] at goesOn
      cases goesOn
      refine ⟨others, last, [], listens, ?_, Or.inl ⟨eq_false_of_ne_true propagates, rfl, rfl⟩⟩
      rw [List.append_nil]

/-- A dispatch is its capture phase, and its bubble phase unless that was stopped. -/
theorem dispatchMouseEvent_phases {refresh : S → S} {listeners : List (MouseListener E V S)}
    {kind : MouseEventKind} {app last : MouseApp V S} {done : List E}
    (dispatched : dispatchMouseEvent refresh listeners kind app = some (done, last)) :
    ∃ captured middle,
      runMouseListeners .capture listeners { app with propagateEvent := true } =
        some (captured, middle) ∧
      (middle.propagateEvent = false ∧ done = captured ∧ last = endDispatch refresh kind middle ∨
        middle.propagateEvent = true ∧ ∃ bubbled after,
          runMouseListeners .bubble listeners.reverse middle = some (bubbled, after) ∧
          done = captured ++ bubbled ∧ last = endDispatch refresh kind after) := by
  rw [dispatchMouseEvent] at dispatched
  rcases Option.bind_eq_some_iff.mp dispatched with ⟨⟨captured, middle⟩, captures, goesOn⟩
  refine ⟨captured, middle, captures, ?_⟩
  change (if middle.propagateEvent then Option.bind _ _ else Option.bind _ _) = _ at goesOn
  by_cases through : middle.propagateEvent
  · rw [if_pos through] at goesOn
    rcases Option.bind_eq_some_iff.mp goesOn with ⟨⟨bubbled, after⟩, bubbles, same⟩
    cases same
    exact Or.inr ⟨through, bubbled, after, bubbles, rfl, rfl⟩
  · rw [if_neg through] at goesOn
    cases goesOn
    exact Or.inl ⟨eq_false_of_ne_true through, List.append_nil _, rfl⟩

/-- A dispatch, from where the bubble phase comes to the listeners behind those in front. -/
theorem dispatchMouseEvent_eq {refresh : S → S} {front behind : List (MouseListener E V S)}
    {kind : MouseEventKind} {first middle app : MouseApp V S} {captured done : List E}
    (captures : runMouseListeners .capture (behind.reverse ++ front.reverse)
      { first with propagateEvent := true } = some (captured, middle))
    (through : middle.propagateEvent = true)
    (bubbles : runMouseListeners .bubble front middle = some (done, app))
    (propagates : app.propagateEvent = true) :
    dispatchMouseEvent refresh (behind.reverse ++ front.reverse) kind first =
      (runMouseListeners .bubble behind app).map fun (more, last) =>
        (captured ++ (done ++ more), endDispatch refresh kind last) := by
  have reversed : (behind.reverse ++ front.reverse).reverse = front ++ behind := by simp
  rw [dispatchMouseEvent, captures]
  simp only [Option.bind_eq_bind, Option.bind_some, if_pos through, reversed,
    runMouseListeners_append bubbles through propagates]
  cases runMouseListeners .bubble behind app with
  | none => rfl
  | some result => rfl

end Dispatch

end Gpui
