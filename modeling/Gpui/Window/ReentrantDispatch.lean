import Gpui.Library.Transition
import Gpui.Window.PaintRanges

/-!
# Dispatching while dispatching

The dispatch of a mouse event takes the listeners out of the rendered frame and puts them
back when they have run, and whoever calls the input handler takes it out of the platform
window for so long.  What is called may notify views and dispatch again; and the dispatch
of a key event draws the window first, if it is dirty.

What a draw takes from the rendered frame is not there while it is out, and what is put
back after a draw is that of another frame.
-/

namespace Gpui

open Library

variable {V M H : Type} [DecidableEq V]

/-- A dispatch that has not returned, with what it has taken out. -/
inductive OngoingDispatch (M H : Type) where
  | mouse (mouseListeners : List (Option M))
  | key
  | input (inputHandler : H)

structure DispatchWindow (V M H : Type) where
  renderedFrame : FrameHandlers V M H
  platformHandler : Option H
  dirty : Bool
  /-- The innermost comes first. -/
  ongoing : List (OngoingDispatch M H)
  /-- The rendered frame as it was painted, which no code reads. -/
  painted : FrameHandlers V M H

inductive WindowEvent (V M H : Type) where
  /-- A view is notified. -/
  | notify
  | dispatchMouseEvent
  | mouseListenersDone
  /-- What would be painted, if the window is drawn. -/
  | dispatchKeyEvent (items : List (PaintItem V M H))
  | keyListenersDone
  | takeInputHandler
  | setInputHandler
  /-- The platform asks for a frame. -/
  | requestFrame (items : List (PaintItem V M H))

namespace DispatchWindow

def new : DispatchWindow V M H where
  renderedFrame := .new
  platformHandler := none
  dirty := false
  ongoing := []
  painted := .new

/-- The rendered frame with the input handler that the platform window has. -/
def restored (self : DispatchWindow V M H) : FrameHandlers V M H :=
  { self.renderedFrame with
    inputHandlers :=
      self.renderedFrame.inputHandlers ++ (self.platformHandler.map some).toList }

/-- The last input handler, which must not be missing. -/
def requestedInputHandler (inputHandlers : List (Option H)) : Option (Option H) :=
  match inputHandlers.getLast? with
  | some inputHandler => inputHandler.map some
  | none => some none

/-- Paint the next frame, hand its last input handler to the platform window, and render
it. -/
def draw (self : DispatchWindow V M H) (items : List (PaintItem V M H)) :
    Option (DispatchWindow V M H) := do
  let (next, _) ← FrameHandlers.paint items .new self.restored
  let platformHandler ← requestedInputHandler next.inputHandlers
  return { self with
    renderedFrame := { next with inputHandlers := next.inputHandlers.dropLast }
    platformHandler
    dirty := false
    painted := next }

def step (self : DispatchWindow V M H) : WindowEvent V M H → Option (DispatchWindow V M H)
  | .notify => some { self with dirty := true }
  | .dispatchMouseEvent =>
      some { self with
        renderedFrame := { self.renderedFrame with mouseListeners := [] }
        ongoing := .mouse self.renderedFrame.mouseListeners :: self.ongoing }
  | .mouseListenersDone =>
      match self.ongoing with
      | .mouse mouseListeners :: ongoing =>
          some { self with renderedFrame := { self.renderedFrame with mouseListeners }, ongoing }
      | _ => none
  | .dispatchKeyEvent items => do
      let self ← if self.dirty then self.draw items else some self
      return { self with ongoing := .key :: self.ongoing }
  | .keyListenersDone =>
      match self.ongoing with
      | .key :: ongoing => some { self with ongoing }
      | _ => none
  | .takeInputHandler => do
      let inputHandler ← self.platformHandler
      return { self with
        platformHandler := none, ongoing := .input inputHandler :: self.ongoing }
  | .setInputHandler =>
      match self.ongoing with
      | .input inputHandler :: ongoing =>
          some { self with platformHandler := some inputHandler, ongoing }
      | _ => none
  | .requestFrame items =>
      match self.ongoing with
      | [] => self.draw items
      | _ => none

/-- What the window draws with this event, if it does. -/
def drawnBy (self : DispatchWindow V M H) : WindowEvent V M H → Option (List (PaintItem V M H))
  | .dispatchKeyEvent items => if self.dirty then some items else none
  | .requestFrame items =>
      match self.ongoing with
      | [] => some items
      | _ => none
  | _ => none

/-- What a draw reuses was drawn in the frame before, and no view is drawn twice. -/
def Fits (self : DispatchWindow V M H) (event : WindowEvent V M H) : Prop :=
  ∀ items, self.drawnBy event = some items → self.renderedFrame.Reusable items

/-- If the window draws with this event, it does so within the bounds of the rendered frame,
and no handler is missing from what it paints. -/
def Finds (self : DispatchWindow V M H) (event : WindowEvent V M H) : Prop :=
  ∀ items, self.drawnBy event = some items →
    ∃ next, self.draw items = some next ∧ next.painted.Whole

/-- The outermost dispatch leaves the listeners of the frame that is rendered. -/
def ListenersKept (self : DispatchWindow V M H) : Prop :=
  self.ongoing = [] → self.renderedFrame.mouseListeners = self.painted.mouseListeners

/-- Neither the mouse listeners nor the input handler are out. -/
def NothingOut (self : DispatchWindow V M H) : Prop :=
  ∀ dispatch ∈ self.ongoing, dispatch matches .key

/-- The window does not draw while something is out. -/
def Undisturbed (self : DispatchWindow V M H) : WindowEvent V M H → Prop
  | .dispatchKeyEvent _ => self.dirty = true → self.NothingOut
  | _ => True

/-! ## What is out is what was painted -/

/-- Put back what the dispatches have taken, the innermost first, and the mouse listeners are
the painted ones. -/
def MouseHeld (painted : List (Option M)) : List (OngoingDispatch M H) → List (Option M) → Prop
  | [], mouseListeners => mouseListeners = painted
  | .mouse taken :: ongoing, _ => MouseHeld painted ongoing taken
  | .key :: ongoing, mouseListeners => MouseHeld painted ongoing mouseListeners
  | .input _ :: ongoing, mouseListeners => MouseHeld painted ongoing mouseListeners

/-- The same of the input handlers, the last of which the platform window has. -/
def InputHeld (painted inputHandlers : List (Option H)) :
    List (OngoingDispatch M H) → Option H → Prop
  | [], platformHandler => inputHandlers ++ (platformHandler.map some).toList = painted
  | .input taken :: ongoing, _ => InputHeld painted inputHandlers ongoing (some taken)
  | .key :: ongoing, platformHandler => InputHeld painted inputHandlers ongoing platformHandler
  | .mouse _ :: ongoing, platformHandler => InputHeld painted inputHandlers ongoing platformHandler

theorem mouseHeld_iff {ongoing : List (OngoingDispatch M H)}
    (out : ∀ dispatch ∈ ongoing, dispatch matches .key) {painted mouseListeners : List (Option M)} :
    MouseHeld painted ongoing mouseListeners ↔ mouseListeners = painted := by
  induction ongoing with
  | nil => rfl
  | cons dispatch ongoing ih =>
      have first := out dispatch List.mem_cons_self
      cases dispatch with
      | key => exact ih fun other member => out other (List.mem_cons_of_mem _ member)
      | mouse taken => cases first
      | input taken => cases first

theorem inputHeld_iff {ongoing : List (OngoingDispatch M H)}
    (out : ∀ dispatch ∈ ongoing, dispatch matches .key)
    {painted inputHandlers : List (Option H)} {platformHandler : Option H} :
    InputHeld painted inputHandlers ongoing platformHandler ↔
      inputHandlers ++ (platformHandler.map some).toList = painted := by
  induction ongoing with
  | nil => rfl
  | cons dispatch ongoing ih =>
      have first := out dispatch List.mem_cons_self
      cases dispatch with
      | key => exact ih fun other member => out other (List.mem_cons_of_mem _ member)
      | mouse taken => cases first
      | input taken => cases first

/-- The rendered frame was painted whole, and what it has lost since is out. -/
structure Holds (window : DispatchWindow V M H) : Prop where
  whole : window.painted.Whole
  recorded : window.painted.Recorded
  ranges : window.renderedFrame.paintRanges = window.painted.paintRanges
  mouse : MouseHeld window.painted.mouseListeners window.ongoing
    window.renderedFrame.mouseListeners
  input : InputHeld window.painted.inputHandlers window.renderedFrame.inputHandlers
    window.ongoing window.platformHandler

/-- Of handlers none of which is missing, the last is handed over. -/
theorem requestedInputHandler_of_isSome {inputHandlers : List (Option H)}
    (whole : ∀ slot ∈ inputHandlers, slot.isSome = true) :
    ∃ handler, requestedInputHandler inputHandlers = some handler ∧
      inputHandlers.dropLast ++ (handler.map some).toList = inputHandlers := by
  cases last : inputHandlers.getLast? with
  | none =>
      refine ⟨none, by rw [requestedInputHandler, last], ?_⟩
      rw [List.getLast?_eq_none_iff.mp last]
      rfl
  | some slot =>
      rcases Option.isSome_iff_exists.mp (whole slot (List.mem_of_getLast? last)) with
        ⟨handler, rfl⟩
      refine ⟨some handler, by rw [requestedInputHandler, last]; rfl, ?_⟩
      exact List.dropLast_append_getLast? _ last

variable {self next : DispatchWindow V M H}

omit [DecidableEq V] in
theorem holds_new : (new : DispatchWindow V M H).Holds where
  whole := by
    constructor
    · exact fun _ member => absurd member List.not_mem_nil
    · exact fun _ member => absurd member List.not_mem_nil
  recorded := by
    constructor
    · intro view range found
      cases found
    · intro view other range otherRange differs found
      cases found
  ranges := rfl
  mouse := rfl
  input := rfl

omit [DecidableEq V] in
/-- With nothing out, the frame is as it was painted. -/
theorem Holds.restored_eq (holds : self.Holds) (out : self.NothingOut) :
    self.restored = self.painted := by
  have mouse := (mouseHeld_iff out).mp holds.mouse
  have input := (inputHeld_iff out).mp holds.input
  have ranges := holds.ranges
  rw [restored, input, mouse, ranges]

/-- A draw with nothing out succeeds, and again all is as painted. -/
theorem Holds.draws (holds : self.Holds) (out : self.NothingOut)
    {items : List (PaintItem V M H)} (reusable : self.renderedFrame.Reusable items) :
    ∃ next, self.draw items = some next ∧ next.Holds := by
  have restored := holds.restored_eq out
  have reusableOld : self.painted.Reusable items := by
    constructor
    · exact reusable.once
    · rw [← holds.ranges]
      exact reusable.drawn
  have newWhole : (FrameHandlers.new : FrameHandlers V M H).Whole := holds_new.whole
  have newRecorded : (FrameHandlers.new : FrameHandlers V M H).Recorded := holds_new.recorded
  rcases FrameHandlers.paint_finds holds.recorded reusableOld newWhole newRecorded
    (congrArg FrameHandlers.paintRanges restored)
    (fun view range _ found => by
      rw [restored]
      exact holds.recorded.available holds.whole found) with ⟨frame, rest, paints, whole, recorded⟩
  rcases requestedInputHandler_of_isSome whole.inputHandlers with ⟨handler, requests, together⟩
  have draws : self.draw items = some { self with
      renderedFrame := { frame with inputHandlers := frame.inputHandlers.dropLast }
      platformHandler := handler
      dirty := false
      painted := frame } := by
    rw [draw, paints]
    simp only [Option.bind_eq_bind, Option.bind_some, requests]
    rfl
  refine ⟨_, draws, ?_⟩
  constructor
  · exact whole
  · exact recorded
  · rfl
  · exact (mouseHeld_iff out).mpr rfl
  · exact (inputHeld_iff out).mpr together

omit [DecidableEq V] in
/-- A window that may draw has nothing out. -/
theorem nothingOut_of_drawnBy {event : WindowEvent V M H} (undisturbed : self.Undisturbed event)
    {items : List (PaintItem V M H)} (drawn : self.drawnBy event = some items) :
    self.NothingOut := by
  cases event with
  | dispatchKeyEvent =>
      rw [drawnBy] at drawn
      split at drawn
      next dirty => exact undisturbed dirty
      next => cases drawn
  | requestFrame =>
      rw [drawnBy] at drawn
      split at drawn
      next idle =>
        intro dispatch member
        rw [idle] at member
        cases member
      next => cases drawn
  | notify => cases drawn
  | dispatchMouseEvent => cases drawn
  | mouseListenersDone => cases drawn
  | keyListenersDone => cases drawn
  | takeInputHandler => cases drawn
  | setInputHandler => cases drawn

theorem Holds.finds (holds : self.Holds) {event : WindowEvent V M H} (fits : self.Fits event)
    (undisturbed : self.Undisturbed event) : self.Finds event := by
  intro items drawn
  rcases holds.draws (nothingOut_of_drawnBy undisturbed drawn) (fits items drawn) with
    ⟨next, draws, nextHolds⟩
  exact ⟨next, draws, nextHolds.whole⟩

omit [DecidableEq V] in
/-- What an event other than a draw leaves. -/
theorem Holds.of_same (holds : self.Holds) (painted : next.painted = self.painted)
    (ranges : next.renderedFrame.paintRanges = self.renderedFrame.paintRanges)
    (mouse : MouseHeld self.painted.mouseListeners next.ongoing next.renderedFrame.mouseListeners)
    (input : InputHeld self.painted.inputHandlers next.renderedFrame.inputHandlers next.ongoing
      next.platformHandler) : next.Holds where
  whole := painted ▸ holds.whole
  recorded := painted ▸ holds.recorded
  ranges := by rw [ranges, painted, holds.ranges]
  mouse := by rw [painted]; exact mouse
  input := by rw [painted]; exact input

theorem Holds.step (holds : self.Holds) {event : WindowEvent V M H} (fits : self.Fits event)
    (undisturbed : self.Undisturbed event) (steps : self.step event = some next) :
    next.Holds := by
  have mouse := holds.mouse
  have input := holds.input
  cases event with
  | notify =>
      rcases Option.some.inj steps with rfl
      exact holds.of_same rfl rfl mouse input
  | dispatchMouseEvent =>
      rcases Option.some.inj steps with rfl
      exact holds.of_same rfl rfl mouse input
  | mouseListenersDone =>
      rw [DispatchWindow.step] at steps
      split at steps
      next innermost =>
        rcases Option.some.inj steps with rfl
        rw [innermost] at mouse input
        exact holds.of_same rfl rfl mouse input
      next => cases steps
  | dispatchKeyEvent items =>
      by_cases dirty : self.dirty = true
      · have drawn : self.drawnBy (.dispatchKeyEvent items) = some items := if_pos dirty
        rcases holds.draws (nothingOut_of_drawnBy undisturbed drawn) (fits items drawn) with
          ⟨redrawn, draws, holdsAgain⟩
        rw [DispatchWindow.step, if_pos dirty, draws] at steps
        rcases Option.some.inj steps with rfl
        exact holdsAgain.of_same rfl rfl holdsAgain.mouse holdsAgain.input
      · rw [DispatchWindow.step, if_neg dirty] at steps
        rcases Option.some.inj steps with rfl
        exact holds.of_same rfl rfl mouse input
  | keyListenersDone =>
      rw [DispatchWindow.step] at steps
      split at steps
      next innermost =>
        rcases Option.some.inj steps with rfl
        rw [innermost] at mouse input
        exact holds.of_same rfl rfl mouse input
      next => cases steps
  | takeInputHandler =>
      rcases Option.bind_eq_some_iff.mp steps with ⟨handler, found, same⟩
      rcases Option.some.inj same with rfl
      rw [found] at input
      exact holds.of_same rfl rfl mouse input
  | setInputHandler =>
      rw [DispatchWindow.step] at steps
      split at steps
      next innermost =>
        rcases Option.some.inj steps with rfl
        rw [innermost] at mouse input
        exact holds.of_same rfl rfl mouse input
      next => cases steps
  | requestFrame items =>
      rw [DispatchWindow.step] at steps
      split at steps
      next idle =>
        have drawn : self.drawnBy (.requestFrame items) = some items := by
          rw [drawnBy, idle]
        rcases holds.draws (nothingOut_of_drawnBy undisturbed drawn) (fits items drawn) with
          ⟨redrawn, draws, holdsAgain⟩
        rcases Option.some.inj (draws.symm.trans steps) with rfl
        exact holdsAgain
      next => cases steps

omit [DecidableEq V] in
theorem Holds.listenersKept (holds : self.Holds) : self.ListenersKept := by
  intro idle
  have mouse := holds.mouse
  rw [idle] at mouse
  exact mouse

/-- Where no draw comes while something is out, however the dispatches are nested, every draw
finds what it reuses, and the listeners after the outermost are those of the frame. -/
theorem run_handlersKept {events : List (WindowEvent V M H)} {last : DispatchWindow V M H}
    (run : Run step (fun self event => self.Fits event ∧ self.Undisturbed event) new events last) :
    (∀ event, last.Fits event → last.Undisturbed event → last.Finds event) ∧
      last.ListenersKept := by
  have holds : last.Holds := by
    apply run.invariant (fun _ window => window.Holds)
    · exact holds_new
    · intro _ _ _ _ holds may steps
      exact holds.step may.1 may.2 steps
  exact ⟨fun _ => holds.finds, holds.listenersKept⟩

/-- The frame of a view with a listener and a handler. -/
def viewPainted : List (PaintItem Nat Nat Nat) :=
  [.render 0 [.mouseListener 1, .inputHandler 2]]

def viewHandlers : FrameHandlers Nat Nat Nat where
  mouseListeners := [some 1]
  inputHandlers := [some 2]
  paintRanges := Function.update (fun _ => none) 0 (some ⟨⟨0, 0⟩, ⟨1, 1⟩⟩)

/-- A window that has drawn it. -/
def viewDrawn : DispatchWindow Nat Nat Nat where
  renderedFrame := { viewHandlers with inputHandlers := [] }
  platformHandler := some 2
  dirty := false
  ongoing := []
  painted := viewHandlers

omit [DecidableEq V] in
theorem fits_of_undrawn {event : WindowEvent V M H} (undrawn : self.drawnBy event = none) :
    self.Fits event := by
  intro items drawn
  cases undrawn.symm.trans drawn

theorem fits_viewPainted : (new : DispatchWindow Nat Nat Nat).Fits (.requestFrame viewPainted) := by
  intro items drawn
  rcases Option.some.inj drawn with rfl
  constructor
  · decide
  · intro view member
    cases List.mem_singleton.mp member

/-- The view can be reused as long as it is recorded. -/
theorem fits_reuse {window : DispatchWindow Nat Nat Nat}
    (ranges : window.renderedFrame.paintRanges = viewHandlers.paintRanges) :
    window.Fits (.dispatchKeyEvent [.reuse 0]) := by
  intro items drawn
  rw [drawnBy] at drawn
  split at drawn
  next =>
    rcases Option.some.inj drawn with rfl
    constructor
    · decide
    · intro view member
      rcases List.mem_singleton.mp member with ⟨⟩
      rw [ranges]
      rfl
  next => cases drawn

/-- A key event draws the notified window, and a listener dispatches a mouse event. -/
def drawnBefore : List (WindowEvent Nat Nat Nat) :=
  [.requestFrame viewPainted, .notify, .dispatchKeyEvent [.reuse 0], .dispatchMouseEvent,
    .mouseListenersDone, .keyListenersDone]

theorem run_handlersKept_drawnBefore :
    ∃ last : DispatchWindow Nat Nat Nat,
      Run step (fun self event => self.Fits event ∧ self.Undisturbed event) new drawnBefore last ∧
      (∀ event, last.Fits event → last.Undisturbed event → last.Finds event) ∧
        last.ListenersKept := by
  have run : Run step (fun self event => self.Fits event ∧ self.Undisturbed event) new drawnBefore
      viewDrawn := by
    apply Run.cons ⟨fits_viewPainted, trivial⟩ rfl
    apply Run.cons ⟨fits_of_undrawn rfl, trivial⟩ rfl
    apply Run.cons ⟨fits_reuse rfl, fun _ _ member => absurd member List.not_mem_nil⟩ rfl
    apply Run.cons ⟨fits_of_undrawn rfl, trivial⟩ rfl
    apply Run.cons ⟨fits_of_undrawn rfl, trivial⟩ rfl
    apply Run.cons ⟨fits_of_undrawn rfl, trivial⟩ rfl
    exact .nil
  exact ⟨viewDrawn, run, run_handlersKept run⟩

/-- A mouse listener of the view has notified another view. -/
def notifiedWhileOut : DispatchWindow Nat Nat Nat :=
  { viewDrawn with
    renderedFrame := { viewHandlers with mouseListeners := [], inputHandlers := [] }
    dirty := true
    ongoing := [.mouse [some 1]] }

theorem run_notifiedWhileOut :
    Run step Fits new [.requestFrame viewPainted, .dispatchMouseEvent, .notify]
      notifiedWhileOut := by
  apply Run.cons fits_viewPainted rfl
  apply Run.cons (fits_of_undrawn rfl) rfl
  apply Run.cons (fits_of_undrawn rfl) rfl
  exact .nil

/-- It has dispatched a key event, for which another listener was painted, and the old one
was put back. -/
def overwritten : DispatchWindow Nat Nat Nat where
  renderedFrame := ⟨[some 1], [], fun _ => none⟩
  platformHandler := none
  dirty := false
  ongoing := []
  painted := ⟨[some 3], [], fun _ => none⟩

/-- A key event that the listener dispatches may find the view's listener gone, or paint one
that does not stay. -/
theorem not_run_handlersKept :
    (∃ events last, Run step Fits (new : DispatchWindow Nat Nat Nat) events last ∧
      ∃ event, last.Fits event ∧ ¬ last.Finds event) ∧
    ∃ events last, Run step Fits (new : DispatchWindow Nat Nat Nat) events last ∧
      ¬ last.ListenersKept := by
  constructor
  · refine ⟨_, _, run_notifiedWhileOut, .dispatchKeyEvent [.reuse 0], fits_reuse rfl, ?_⟩
    intro finds
    rcases finds [.reuse 0] rfl with ⟨next, draws, _⟩
    cases draws
  · have fits : notifiedWhileOut.Fits (.dispatchKeyEvent [.paint (.mouseListener 3)]) := by
      intro items drawn
      rcases Option.some.inj drawn with rfl
      constructor
      · decide
      · intro view member
        cases List.mem_singleton.mp member
    have run : Run step Fits notifiedWhileOut [.dispatchKeyEvent [.paint (.mouseListener 3)],
        .keyListenersDone, .mouseListenersDone] overwritten := by
      apply Run.cons fits rfl
      apply Run.cons (fits_of_undrawn rfl) rfl
      apply Run.cons (fits_of_undrawn rfl) rfl
      exact .nil
    refine ⟨_, _, run_notifiedWhileOut.append run, ?_⟩
    intro kept
    cases kept rfl

end DispatchWindow

end Gpui
