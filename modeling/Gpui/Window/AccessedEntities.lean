import Gpui.Window.ElementState

/-!
# Accessed entities

The application notes which entities are read while a window is drawn, and afterwards
tracks them for the window.  A cached view keeps the ones that its prepaint read, and
notes them again where a later frame reuses it.

Views are called one inside the other.  An uncached view runs in several phases; a cached
one renders in its prepaint, and paints later.  Renders are numbered in the order they
begin, to be able to name them.  No entity is released while a window is drawn.
-/

namespace Gpui

open Gpui.Library

/-- What of the state of a cached view is about accessed entities; its ranges are ranges
of accessed element states. -/
structure AnyViewState (E : Type) where
  prepaintRange : Nat × Nat
  paintRange : Nat × Nat
  accessedEntities : E → Bool
  render : Nat

/-- A view whose code is running. -/
inductive ViewCall (E V : Type) where
  /-- A phase of an uncached view, or of what a view defers. -/
  | rendering (render : Nat)
  /-- The callback of `detect_accessed_entities`. -/
  | prepainting (render : Nat) (view : V) (accessedEntitiesStart : E → Bool) (prepaintStart : Nat)
      (refreshing : Bool)
  | painting (view : V) (state : AnyViewState E) (paintStart : Nat) (refreshing : Bool)

/-- The render whose code is running. -/
def ViewCall.render {E V : Type} : ViewCall E V → Nat
  | .rendering render | .prepainting render _ _ _ _ => render
  | .painting _ state _ _ => state.render

inductive DrawState (W : Type) where
  | idle
  | drawing (window : W)
  /-- The frame is finished, and the entities it accessed are not yet recorded. -/
  | finished (window : W)
deriving DecidableEq

structure ViewWindow (E V : Type) where
  elementStates : ElementStateWindow fun _ : V => AnyViewState E
  refreshing : Bool

structure EntityTracking (E V W : Type) where
  accessedEntities : E → Bool
  trackedEntities : W → E → Bool
  windowInvalidatorsByEntity : E → W → Bool
  windows : W → ViewWindow E V
  draw : DrawState W
  calls : List (ViewCall E V)
  nextRender : Nat
  /-- The first render of the frame that is drawn. -/
  firstRender : Nat

inductive TrackingEvent (E V W : Type) where
  | beginDraw (window : W)
  | access (entity : E)
  | beginRender
  /-- Another phase of a view that was rendered in this frame. -/
  | resumeRender (render : Nat)
  | endRender
  | beginPrepaint (view : V)
  | endPrepaint
  | reusePrepaint (view : V)
  | beginPaint (view : V)
  | endPaint
  | reusePaint (view : V)
  | finish
  | recordEntitiesAccessed
  | refresh (window : W)
deriving DecidableEq

namespace EntityTracking

variable {E V W : Type}

def new : EntityTracking E V W where
  accessedEntities _ := false
  trackedEntities _ _ := false
  windowInvalidatorsByEntity _ _ := false
  windows _ := { elementStates := .new, refreshing := false }
  draw := .idle
  calls := []
  nextRender := 0
  firstRender := 0

/-- What `detect_accessed_entities` returns with the result of its callback. -/
def entitiesAccessedInCallback (accessedEntitiesStart accessedEntitiesEnd : E → Bool) :
    E → Bool :=
  fun entity => accessedEntitiesEnd entity && !accessedEntitiesStart entity

def extendAccessed (self : EntityTracking E V W) (entities : E → Bool) : EntityTracking E V W :=
  { self with accessedEntities := fun entity => self.accessedEntities entity || entities entity }

def access [DecidableEq E] (self : EntityTracking E V W) (entity : E) : EntityTracking E V W :=
  { self with accessedEntities := Function.update self.accessedEntities entity true }

/-- The length of `accessed_element_states` of the window's next frame. -/
def accessedElementStatesIndex (self : ViewWindow E V) : Nat :=
  self.elementStates.nextFrame.accessedElementStates.length

variable [DecidableEq W]

def setWindow (self : EntityTracking E V W) (window : W) (viewWindow : ViewWindow E V) :
    EntityTracking E V W :=
  { self with windows := Function.update self.windows window viewWindow }

def beginDraw (self : EntityTracking E V W) (window : W) : EntityTracking E V W :=
  { self with
    accessedEntities := fun _ => false
    draw := .drawing window
    firstRender := self.nextRender }

def recordEntitiesAccessed (self : EntityTracking E V W) (window : W) (entities : E → Bool) :
    EntityTracking E V W :=
  let trackedEntities := self.trackedEntities window
  let removed := fun entity other =>
    self.windowInvalidatorsByEntity entity other && !(trackedEntities entity && other = window)
  { self with
    windowInvalidatorsByEntity := fun entity other =>
      removed entity other || (entities entity && other = window)
    trackedEntities := Function.update self.trackedEntities window entities }

def beginRender (self : EntityTracking E V W) : EntityTracking E V W :=
  { self with
    calls := .rendering self.nextRender :: self.calls
    nextRender := self.nextRender + 1 }

variable [DecidableEq V]

/-- `AnyView::prepaint` where it does not reuse, up to the callback. -/
def beginPrepaint (self : EntityTracking E V W) (window : W) (view : V) : EntityTracking E V W :=
  let (_, elementStates) := (self.windows window).elementStates.beginAccess view
  let viewWindow := { self.windows window with elementStates, refreshing := true }
  { self.setWindow window viewWindow with
    calls :=
      .prepainting self.nextRender view self.accessedEntities
        (accessedElementStatesIndex viewWindow) (self.windows window).refreshing :: self.calls
    nextRender := self.nextRender + 1 }

/-- The rest of `AnyView::prepaint`. -/
def endPrepaint (self : EntityTracking E V W) (window : W) : Option (EntityTracking E V W) :=
  match self.calls with
  | .prepainting render view accessedEntitiesStart prepaintStart refreshing :: calls => do
      let prepaintEnd := accessedElementStatesIndex (self.windows window)
      let elementStates ← (self.windows window).elementStates.endAccess view
        { prepaintRange := (prepaintStart, prepaintEnd)
          paintRange := (0, 0)
          accessedEntities := entitiesAccessedInCallback accessedEntitiesStart self.accessedEntities
          render }
      return { self.setWindow window { elementStates, refreshing } with calls }
  | _ => none

/-- `AnyView::prepaint` where it reuses what the state of the view holds.  Whether the
cache key fits and the view is clean is left open. -/
def reusePrepaint (self : EntityTracking E V W) (window : W) (view : V) :
    Option (AnyViewState E × EntityTracking E V W) := do
  let (state, elementStates) := (self.windows window).elementStates.beginAccess view
  let state ← state
  if (self.windows window).refreshing then none
  else do
    let prepaintStart := elementStates.nextFrame.accessedElementStates.length
    let elementStates ← elementStates.reuse state.prepaintRange.1 state.prepaintRange.2
    let self := self.extendAccessed state.accessedEntities
    let prepaintEnd := elementStates.nextFrame.accessedElementStates.length
    let elementStates ← elementStates.endAccess view
      { state with prepaintRange := (prepaintStart, prepaintEnd) }
    return (state, self.setWindow window { self.windows window with elementStates })

/-- `AnyView::paint` of a cached view that was rendered in this frame, up to its element. -/
def beginPaint (self : EntityTracking E V W) (window : W) (view : V) :
    Option (EntityTracking E V W) := do
  let (state, elementStates) := (self.windows window).elementStates.beginAccess view
  let state ← state
  let viewWindow := { self.windows window with elementStates, refreshing := true }
  if self.firstRender ≤ state.render then
    some { self.setWindow window viewWindow with
      calls :=
        .painting view state (accessedElementStatesIndex viewWindow)
          (self.windows window).refreshing :: self.calls }
  else none

/-- The rest of `AnyView::paint`. -/
def endPaint (self : EntityTracking E V W) (window : W) : Option (EntityTracking E V W) :=
  match self.calls with
  | .painting view state paintStart refreshing :: calls => do
      let paintEnd := accessedElementStatesIndex (self.windows window)
      let elementStates ← (self.windows window).elementStates.endAccess view
        { state with paintRange := (paintStart, paintEnd) }
      return { self.setWindow window { elementStates, refreshing } with calls }
  | _ => none

/-- `AnyView::paint` of a cached view that was reused. -/
def reusePaint (self : EntityTracking E V W) (window : W) (view : V) :
    Option (EntityTracking E V W) := do
  let (state, elementStates) := (self.windows window).elementStates.beginAccess view
  let state ← state
  if self.firstRender ≤ state.render then none
  else do
    let paintStart := elementStates.nextFrame.accessedElementStates.length
    let elementStates ← elementStates.reuse state.paintRange.1 state.paintRange.2
    let paintEnd := elementStates.nextFrame.accessedElementStates.length
    let elementStates ← elementStates.endAccess view
      { state with paintRange := (paintStart, paintEnd) }
    return self.setWindow window { self.windows window with elementStates }

def finish (self : EntityTracking E V W) (window : W) : Option (EntityTracking E V W) := do
  let elementStates ← (self.windows window).elementStates.finish
  return { self.setWindow window { self.windows window with elementStates } with
    draw := .finished window }

variable [DecidableEq E]

/-- One step.  Labels that do not fit the state have no step. -/
def step (self : EntityTracking E V W) : TrackingEvent E V W → Option (EntityTracking E V W)
  | .access entity => some (self.access entity)
  | .beginDraw window => if self.draw = .idle then some (self.beginDraw window) else none
  | .refresh window =>
      if self.draw = .idle then
        some (self.setWindow window { self.windows window with refreshing := true })
      else none
  | .recordEntitiesAccessed =>
      match self.draw with
      | .finished window =>
          let self := self.recordEntitiesAccessed window self.accessedEntities
          some { self.setWindow window { self.windows window with refreshing := false } with
            draw := .idle }
      | _ => none
  | event =>
      match self.draw with
      | .drawing window =>
          match event with
          | .beginRender => some self.beginRender
          | .resumeRender render =>
              if self.firstRender ≤ render ∧ render < self.nextRender then
                some { self with calls := .rendering render :: self.calls }
              else none
          | .endRender =>
              match self.calls with
              | .rendering _ :: calls => some { self with calls }
              | _ => none
          | .beginPrepaint view => some (self.beginPrepaint window view)
          | .endPrepaint => self.endPrepaint window
          | .reusePrepaint view => (self.reusePrepaint window view).map Prod.snd
          | .beginPaint view => self.beginPaint window view
          | .endPaint => self.endPaint window
          | .reusePaint view => self.reusePaint window view
          | .finish => if self.calls = [] then self.finish window else none
          | _ => none
      | _ => none

end EntityTracking

/-! ## What was read -/

/-- For each render the entities read in it and the renders shown in it, and the renders
that each window shows. -/
structure ReadLedger (E W : Type) where
  reads : Nat → E → Bool
  inside : Nat → List Nat
  shown : W → List Nat

namespace ReadLedger

variable {E V W : Type}

def new : ReadLedger E W where
  reads _ _ := false
  inside _ := []
  shown _ := []

/-- The render's code is running, or that of a render in it. -/
def Around (self : ReadLedger E W) (calls : List (ViewCall E V)) (render : Nat) : Prop :=
  ∃ call ∈ calls, call.render = render ∨ call.render ∈ self.inside render

instance (self : ReadLedger E W) (calls : List (ViewCall E V)) (render : Nat) :
    Decidable (self.Around calls render) :=
  inferInstanceAs (Decidable (∃ call ∈ calls, _))

/-- Renders appear in a window, and in the renders around. -/
def place [DecidableEq W] (self : ReadLedger E W) (calls : List (ViewCall E V)) (window : W)
    (renders : List Nat) : ReadLedger E W :=
  { self with
    inside := fun render =>
      if self.Around calls render then renders ++ self.inside render else self.inside render
    shown := Function.update self.shown window (renders ++ self.shown window) }

def read [DecidableEq E] (self : ReadLedger E W) (calls : List (ViewCall E V)) (entity : E) :
    ReadLedger E W :=
  { self with
    reads := fun render other =>
      self.reads render other || (other = entity ∧ self.Around calls render) }

variable [DecidableEq E] [DecidableEq V] [DecidableEq W]

def step (self : ReadLedger E W) (tracking : EntityTracking E V W) :
    TrackingEvent E V W → ReadLedger E W
  | .access entity => self.read tracking.calls entity
  | .beginDraw window => { self with shown := Function.update self.shown window [] }
  | event =>
      match tracking.draw with
      | .drawing window =>
          match event with
          | .beginRender | .beginPrepaint _ =>
              self.place tracking.calls window [tracking.nextRender]
          | .reusePrepaint view =>
              match tracking.reusePrepaint window view with
              | some (state, _) =>
                  self.place tracking.calls window (state.render :: self.inside state.render)
              | none => self
          | _ => self
      | _ => self

end ReadLedger

end Gpui
