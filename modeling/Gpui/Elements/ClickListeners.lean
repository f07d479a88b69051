import Gpui.Geometry
import Gpui.Window.MouseDispatch

/-!
# Click listeners

An element that is clicked or dragged has listeners for mouse-downs, mouse-moves and
mouse-ups.  A press is pending in the state of the element, and from the capture phase of
the mouse-up to its bubble phase it is held by the listener.

The other listeners of the window may change the app in any way, but they have no access to
the press.  Whether the element is hovered is tested once for an event.  Listeners take
notes: of the events, of drags that start and of clicks.
-/

namespace Gpui

inductive NavigationDirection where
  | back
  | forward
deriving DecidableEq, Repr

inductive MouseButton where
  | left
  | right
  | middle
  | navigate (direction : NavigationDirection)
deriving DecidableEq, Repr

structure MouseDownEvent (K : Type) where
  button : MouseButton
  position : Point K
deriving DecidableEq, Repr

structure MouseMoveEvent (K : Type) where
  position : Point K
deriving DecidableEq, Repr

structure MouseUpEvent (K : Type) where
  button : MouseButton
  position : Point K
deriving DecidableEq, Repr

structure MouseClickEvent (K : Type) where
  down : MouseDownEvent K
  up : MouseUpEvent K
deriving DecidableEq, Repr

inductive MouseInput (K : Type) where
  | down (event : MouseDownEvent K)
  | move (event : MouseMoveEvent K)
  | up (event : MouseUpEvent K)
deriving DecidableEq, Repr

def MouseInput.kind {K : Type} : MouseInput K → MouseEventKind
  | .down _ => .down
  | .move _ => .move
  | .up _ => .up

/-- What the listeners of an element share, and what they hold. -/
structure Press (K V W : Type) where
  pendingMouseDown : Option (MouseDownEvent K)
  /-- The variable of the listener for mouse-ups. -/
  capturedMouseDown : Option (MouseDownEvent K)
  dragListener : Option (V × (V → Point K → MouseApp V W → MouseApp V W))

namespace Press

variable {K V W : Type}

/-- The element holds a press. -/
def held (self : Press K V W) : Bool :=
  self.pendingMouseDown.isSome || self.capturedMouseDown.isSome

end Press

inductive ClickNote (K : Type) where
  | event (input : MouseInput K) (hovered : Bool)
  /-- The element has received a mouse-down. -/
  | received
  /-- A drag has started, while the element holds a press or not. -/
  | dragStart (held : Bool)
  | click (event : MouseClickEvent K)
deriving DecidableEq, Repr

/-- An element with the origin of its hitbox. -/
structure Clickable (K V W : Type) where
  origin : Point K
  clickListeners : List (MouseClickEvent K → MouseApp V W → MouseApp V W)

/-- A listener of something else. -/
abbrev OtherListener (V W : Type) :=
  DispatchPhase → MouseApp V W → Option (MouseApp V W)

section

variable {K V W : Type}

/-- The app without the press. -/
def MouseApp.others (app : MouseApp V (Press K V W × W)) : MouseApp V W :=
  ⟨app.activeDrag, app.propagateEvent, app.rest.2⟩

/-- The app with a press. -/
def MouseApp.withPress (app : MouseApp V W) (press : Press K V W) :
    MouseApp V (Press K V W × W) :=
  ⟨app.activeDrag, app.propagateEvent, (press, app.rest)⟩

@[simp]
theorem MouseApp.others_withPress (app : MouseApp V W) (press : Press K V W) :
    (app.withPress press).others = app :=
  rfl

/-- Take note of a drag that has started. -/
def watchDrag (press : Press K V W) (before after : MouseApp V W) : List (ClickNote K) :=
  if before.activeDrag.isNone && after.activeDrag.isSome then [.dragStart press.held] else []

/-- Another listener among the ones of the element. -/
def OtherListener.watched (listener : OtherListener V W) :
    MouseListener (ClickNote K) V (Press K V W × W) := fun phase app => do
  let after ← listener phase app.others
  some (watchDrag app.rest.1 app.others after, after.withPress app.rest.1)

namespace Clickable

variable [Field K] [LinearOrder K] (self : Clickable K V W) (refresh : W → W)

def onMouseDown (event : MouseDownEvent K) (hovered : Bool) :
    MouseListener (ClickNote K) V (Press K V W × W) := fun phase app =>
  if phase = .bubble ∧ event.button = .left ∧ hovered then
    some ([.received], { app with
      rest := ({ app.rest.1 with pendingMouseDown := some event }, refresh app.rest.2) })
  else some ([], app)

/-- `(event.position - mouse_down.position).magnitude() > DRAG_THRESHOLD`, squared. -/
def beyondDragThreshold (event : MouseMoveEvent K) (mouseDown : MouseDownEvent K) : Prop :=
  let moved := event.position.sub mouseDown.position
  moved.x * moved.x + moved.y * moved.y > ((4 : ℕ) : K)

instance (event : MouseMoveEvent K) (mouseDown : MouseDownEvent K) :
    Decidable (beyondDragThreshold event mouseDown) :=
  inferInstanceAs (Decidable (_ > _))

def onMouseMove (event : MouseMoveEvent K) :
    MouseListener (ClickNote K) V (Press K V W × W) := fun phase app =>
  match phase, app.rest.1.pendingMouseDown, app.rest.1.dragListener with
  | .bubble, some mouseDown, some (dragValue, dragListener) =>
      if app.activeDrag.isNone ∧ beyondDragThreshold event mouseDown then
        let press := { app.rest.1 with pendingMouseDown := none, dragListener := none }
        let cursorOffset := event.position.sub self.origin
        let after := dragListener dragValue cursorOffset app.others
        some ([.dragStart press.held], {
          activeDrag := some dragValue
          propagateEvent := false
          rest := (press, refresh after.rest) })
      else some ([], app)
  | _, _, _ => some ([], app)

def onMouseUp (event : MouseUpEvent K) (hovered : Bool) :
    MouseListener (ClickNote K) V (Press K V W × W) := fun phase app =>
  match phase with
  | .capture =>
      match app.rest.1.pendingMouseDown with
      | some mouseDown =>
          let capturedMouseDown :=
            if hovered then some mouseDown else app.rest.1.capturedMouseDown
          let press := { app.rest.1 with pendingMouseDown := none, capturedMouseDown }
          some ([], { app with rest := (press, refresh app.rest.2) })
      | none => some ([], app)
  | .bubble =>
      match app.rest.1.capturedMouseDown with
      | some mouseDown =>
          let press := { app.rest.1 with capturedMouseDown := none }
          let mouseClick := { down := mouseDown, up := event }
          let after := self.clickListeners.foldl (fun app listener => listener mouseClick app)
            app.others
          some (.click mouseClick :: watchDrag press app.others after, after.withPress press)
      | none => some ([], app)

/-- The listener for the type of the event. -/
def onMouseEvent (input : MouseInput K) (hovered : Bool) :
    MouseListener (ClickNote K) V (Press K V W × W) :=
  match input with
  | .down event => onMouseDown refresh event hovered
  | .move event => self.onMouseMove refresh event
  | .up event => self.onMouseUp refresh event hovered

/-- All mouse listeners, of which some are registered before the ones of the element. -/
def mouseListeners (input : MouseInput K) (hovered : Bool)
    (front behind : List (OtherListener V W)) :
    List (MouseListener (ClickNote K) V (Press K V W × W)) :=
  front.map OtherListener.watched ++
    self.onMouseEvent refresh input hovered :: behind.map OtherListener.watched

/-- What goes on between the events, and with them. -/
inductive Step (K V W : Type) where
  | dispatch (input : MouseInput K) (hovered : Bool) (front behind : List (OtherListener V W))
  | elsewhere (app : MouseApp V W)
  /-- The element is painted again, and its listeners are registered anew. -/
  | paint (dragListener : Option (V × (V → Point K → MouseApp V W → MouseApp V W)))

/-- The app, and the notes that have been taken. -/
structure State (K V W : Type) where
  app : MouseApp V (Press K V W × W)
  notes : List (ClickNote K)

def State.press (state : State K V W) : Press K V W :=
  state.app.rest.1

/-- Dispatch an event to all the listeners. -/
def dispatch (input : MouseInput K) (hovered : Bool) (front behind : List (OtherListener V W))
    (app : MouseApp V (Press K V W × W)) :
    Option (List (ClickNote K) × MouseApp V (Press K V W × W)) :=
  dispatchMouseEvent (fun rest => (rest.1, refresh rest.2))
    (self.mouseListeners refresh input hovered front behind) input.kind app

def step (state : State K V W) : Step K V W → Option (State K V W)
  | .dispatch input hovered front behind => do
      let (done, app) ← self.dispatch refresh input hovered front behind state.app
      some ⟨app, state.notes ++ .event input hovered :: done⟩
  | .elsewhere app =>
      some ⟨app.withPress state.press,
        state.notes ++ watchDrag state.press state.app.others app⟩
  | .paint dragListener =>
      let press := { state.press with capturedMouseDown := none, dragListener }
      some ⟨state.app.others.withPress press, state.notes⟩

/-- The element before any event. -/
def start (app : MouseApp V W) (dragListener : Option (V × (V → Point K → MouseApp V W →
    MouseApp V W))) : State K V W where
  app := app.withPress ⟨none, none, dragListener⟩
  notes := []

end Clickable

end

end Gpui
