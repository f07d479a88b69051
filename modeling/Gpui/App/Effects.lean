import Gpui.Subscription.Retained

/-!
# The effect queue

Updates nest.  The one that ends outermost flushes the effects that the updates
pushed: entities whose last handle is gone are released, and the effects are
applied in order, each of which may run callbacks that push more.

A flush is a sequence of steps, between which the callbacks of the application run.
The observers are a subscriber set; a notification is a pass of `retain` over it.
Destructors run anywhere, on other threads too.
-/

namespace Gpui

open Gpui.Library

/-- What a deferred callback does: set the activation cell of an observer, or
anything else. -/
inductive Deferred (C : Type) where
  | activate (subscriberId : Nat)
  | callback (callback : C)

inductive Effect (E T V W C : Type) where
  | notify (emitter : E)
  | emit (emitter : E) (eventType : T) (event : V)
  | refreshWindows
  | notifyGlobalObservers (globalType : T)
  | defer (callback : Deferred C)
  | entityCreated (entity : E) (tid : T) (window : Option W)

inductive DrawPhase where
  | none
  | prepaint
  | paint
  | focus
deriving DecidableEq

structure WindowInvalidator (E : Type) where
  dirty : Bool
  drawPhase : DrawPhase
  dirtyViews : E → Bool

/-- Where `flush_effects` is. -/
inductive FlushPoint (E : Type) where
  /-- In `release_dropped_entities`, with those still to release of the entities it took. -/
  | releasing (dropped : List E)
  /-- The release listeners of an entity run, and its box is dropped. -/
  | releaseListeners (dropped : List E)
  | popping
  /-- In the `retain` of `apply_notify_effect`. -/
  | notifying (emitter : E)
  /-- Another effect runs its callbacks. -/
  | applying
  /-- The queue was empty; a build for tests draws the dirty windows. -/
  | drawing

structure App (E T V W C : Type) where
  flushingEffects : Bool
  pendingUpdates : Nat
  pendingEffects : List (Effect E T V W C)
  pendingNotifications : E → Bool
  pendingGlobalNotifications : T → Bool
  observers : SubscriberSet E C
  entities : E → Bool
  droppedEntityIds : List E
  invalidators : W → WindowInvalidator E
  windowInvalidatorsByEntity : E → List W
  flush : Option (FlushPoint E)

inductive AppEvent (E T V W C : Type) where
  | startUpdate
  | finishUpdate
  | notify (entity : E)
  | emit (emitter : E) (eventType : T) (event : V)
  | refreshWindows
  | notifyGlobalObservers (globalType : T)
  | defer (callback : C)
  | insertEntity (entity : E) (tid : T) (window : Option W)
  | newObserver (key : E) (value : C) (id : Nat)
  | detach (key : E) (id : Nat)
  /-- What drawing does to the windows that are invalidated with an entity. -/
  | recordAccess (entity : E) (windows : List W)
  | setInvalidator (window : W) (invalidator : WindowInvalidator E)
  | dropSubscription (key : E) (id : Nat)
  /-- The last handle of an entity is dropped. -/
  | dropEntity (entity : E)
  | takeDropped
  | release (entity : E)
  | released
  | applyNotify (emitter : E) (pass : Nat)
  /-- There are no observers to take. -/
  | applyNotifyNone (emitter : E)
  | callObserver (pass id : Nat)
  /-- The observer is not active. -/
  | skipObserver (pass id : Nat)
  | observerReturns (pass id : Nat) (retained : Bool)
  | endNotify (emitter : E) (pass : Nat)
  | activateObserver (id : Nat)
  | applyEffect
  | applied
  | finishFlush
  | drawWindows
  | windowsDrawn

namespace AppEvent

variable {E T V W C : Type}

/-- What an event does to the observers. -/
def observed : AppEvent E T V W C → Option (SubscriberEvent E C)
  | .newObserver key value id => some (.insert key value id)
  | .detach key id => some (.detach key id)
  | .dropSubscription key id => some (.drop key id)
  | .release entity => some (.remove entity)
  | .applyNotify emitter pass => some (.beginRetain emitter pass)
  | .applyNotifyNone emitter => some (.emptyRetain emitter)
  | .callObserver pass id => some (.call pass id)
  | .skipObserver pass id => some (.skip pass id)
  | .observerReturns pass id retained => some (.finishCall pass id retained)
  | .endNotify emitter pass => some (.endRetain emitter pass)
  | .activateObserver id => some (.activate id)
  | _ => none

end AppEvent

namespace App

variable {E T V W C : Type} [DecidableEq E] [DecidableEq T] [DecidableEq W]

def new : App E T V W C where
  flushingEffects := false
  pendingUpdates := 0
  pendingEffects := []
  pendingNotifications _ := false
  pendingGlobalNotifications _ := false
  observers := .new
  entities _ := false
  droppedEntityIds := []
  invalidators _ := { dirty := true, drawPhase := .none, dirtyViews := fun _ => false }
  windowInvalidatorsByEntity _ := []
  flush := none

/-! ## Pushing effects -/

def pushBack (self : App E T V W C) (effect : Effect E T V W C) : App E T V W C :=
  { self with pendingEffects := self.pendingEffects ++ [effect] }

def pushEffect (self : App E T V W C) (effect : Effect E T V W C) : App E T V W C :=
  match effect with
  | .notify emitter =>
      if self.pendingNotifications emitter then self
      else
        { self with
          pendingNotifications := Function.update self.pendingNotifications emitter true
          pendingEffects := self.pendingEffects ++ [effect] }
  | .notifyGlobalObservers globalType =>
      if self.pendingGlobalNotifications globalType then self
      else
        { self with
          pendingGlobalNotifications :=
            Function.update self.pendingGlobalNotifications globalType true
          pendingEffects := self.pendingEffects ++ [effect] }
  | _ => self.pushBack effect

def invalidateView (self : App E T V W C) (window : W) (entity : E) : App E T V W C :=
  let inner := self.invalidators window
  let inner := { inner with dirtyViews := Function.update inner.dirtyViews entity true }
  if inner.drawPhase = .none then
    pushEffect
      { self with
        invalidators := Function.update self.invalidators window { inner with dirty := true } }
      (.notify entity)
  else { self with invalidators := Function.update self.invalidators window inner }

def notify (self : App E T V W C) (entity : E) : App E T V W C :=
  let windowInvalidators := self.windowInvalidatorsByEntity entity
  if windowInvalidators.isEmpty then
    if self.pendingNotifications entity then self
    else
      { self with
        pendingNotifications := Function.update self.pendingNotifications entity true
        pendingEffects := self.pendingEffects ++ [.notify entity] }
  else windowInvalidators.foldl (fun app window => app.invalidateView window entity) self

/-- The event notifies the observers of the emitter.  A view that is notified while all
windows that show it are drawing is only marked. -/
def Pushes (self : App E T V W C) (emitter : E) : AppEvent E T V W C → Prop
  | .notify entity =>
      entity = emitter ∧ (self.windowInvalidatorsByEntity entity = [] ∨
        ∃ window ∈ self.windowInvalidatorsByEntity entity,
          (self.invalidators window).drawPhase = .none)
  | _ => False

/-! ## Updates and flushes -/

def startUpdate (self : App E T V W C) : App E T V W C :=
  { self with pendingUpdates := self.pendingUpdates + 1 }

/-- Where the effects are flushed, the rest of `finish_update` follows the flush. -/
def finishUpdate (self : App E T V W C) : App E T V W C :=
  if !self.flushingEffects && self.pendingUpdates == 1 then
    { self with flushingEffects := true, flush := some (.releasing []) }
  else { self with pendingUpdates := self.pendingUpdates - 1 }

def finishFlush (self : App E T V W C) : App E T V W C :=
  { self with
    flushingEffects := false
    pendingUpdates := self.pendingUpdates - 1
    flush := none }

/-- A slot that was reserved and never filled has no entity to release. -/
def takeDropped (self : App E T V W C) : List E × App E T V W C :=
  (self.droppedEntityIds.filter self.entities,
    { self with
      droppedEntityIds := []
      entities := fun entity => self.entities entity && entity ∉ self.droppedEntityIds })

/-- Callbacks run with the application at hand. -/
def codeRuns (self : App E T V W C) : Bool :=
  match self.flush with
  | none | some (.releaseListeners _) | some .applying | some .drawing => true
  | some (.notifying _) => self.observers.passes.head?.any fun pass => pass.current.isSome
  | some (.releasing _) | some .popping => false

/-- What an effect does before its callbacks run. -/
def beginApply (self : App E T V W C) (effect : Effect E T V W C) : App E T V W C :=
  match effect with
  | .notifyGlobalObservers globalType =>
      { self with
        pendingGlobalNotifications :=
          Function.update self.pendingGlobalNotifications globalType false }
  | _ => self

/-- One step of the observers. -/
def observe (self : App E T V W C) (event : SubscriberEvent E C) : Option (App E T V W C) := do
  let observers ← self.observers.step event
  return { self with observers }

/-- One step.  Labels that do not fit the state have no step; `testSupport` is whether the
build draws windows at the end of a flush. -/
def step (testSupport : Bool) (self : App E T V W C) :
    AppEvent E T V W C → Option (App E T V W C)
  | .startUpdate => if self.codeRuns then some self.startUpdate else none
  | .finishUpdate =>
      if self.codeRuns ∧ self.pendingUpdates ≠ 0 then some self.finishUpdate else none
  | .notify entity => if self.codeRuns then some (self.notify entity) else none
  | .emit emitter eventType event =>
      if self.codeRuns then some (self.pushBack (.emit emitter eventType event)) else none
  | .refreshWindows => if self.codeRuns then some (self.pushBack .refreshWindows) else none
  | .notifyGlobalObservers globalType =>
      if self.codeRuns then some (self.pushEffect (.notifyGlobalObservers globalType)) else none
  | .defer callback =>
      if self.codeRuns then some (self.pushEffect (.defer (.callback callback))) else none
  | .insertEntity entity tid window =>
      if self.codeRuns then
        some (pushEffect { self with entities := Function.update self.entities entity true }
          (.entityCreated entity tid window))
      else none
  | .newObserver key value id =>
      if self.codeRuns then do
        let self ← self.observe (.insert key value id)
        return self.pushEffect (.defer (.activate id))
      else none
  | .detach key id => if self.codeRuns then self.observe (.detach key id) else none
  | .recordAccess entity windows =>
      if self.codeRuns then
        some { self with
          windowInvalidatorsByEntity :=
            Function.update self.windowInvalidatorsByEntity entity windows }
      else none
  | .setInvalidator window invalidator =>
      some { self with invalidators := Function.update self.invalidators window invalidator }
  | .dropSubscription key id => self.observe (.drop key id)
  | .dropEntity entity =>
      some { self with droppedEntityIds := self.droppedEntityIds ++ [entity] }
  | .takeDropped =>
      match self.flush with
      | some (.releasing []) =>
          let (dropped, app) := self.takeDropped
          -- the handles of focused elements are released next; this touches only windows
          some { app with
            flush := some (if dropped.isEmpty then .popping else .releasing dropped) }
      | _ => none
  | .release entity =>
      match self.flush with
      | some (.releasing (entityId :: dropped)) =>
          if entity = entityId then do
            let self ← self.observe (.remove entityId)
            return { self with flush := some (.releaseListeners dropped) }
          else none
      | _ => none
  | .released =>
      match self.flush with
      | some (.releaseListeners dropped) => some { self with flush := some (.releasing dropped) }
      | _ => none
  | .applyNotify emitter pass =>
      match self.flush, self.pendingEffects with
      | some .popping, .notify entity :: pendingEffects =>
          if emitter = entity then do
            let self ← self.observe (.beginRetain entity pass)
            return { self with
              pendingEffects
              pendingNotifications := Function.update self.pendingNotifications entity false
              flush := some (.notifying entity) }
          else none
      | _, _ => none
  | .applyNotifyNone emitter =>
      match self.flush, self.pendingEffects with
      | some .popping, .notify entity :: pendingEffects =>
          if emitter = entity then do
            let self ← self.observe (.emptyRetain entity)
            return { self with
              pendingEffects
              pendingNotifications := Function.update self.pendingNotifications entity false
              flush := some (.releasing []) }
          else none
      | _, _ => none
  | .callObserver pass id =>
      match self.flush with
      | some (.notifying _) => self.observe (.call pass id)
      | _ => none
  | .skipObserver pass id =>
      match self.flush with
      | some (.notifying _) => self.observe (.skip pass id)
      | _ => none
  | .observerReturns pass id retained =>
      match self.flush with
      | some (.notifying _) => self.observe (.finishCall pass id retained)
      | _ => none
  | .endNotify emitter pass =>
      match self.flush with
      | some (.notifying entity) =>
          if emitter = entity then do
            let self ← self.observe (.endRetain entity pass)
            return { self with flush := some (.releasing []) }
          else none
      | _ => none
  | .activateObserver id =>
      match self.flush, self.pendingEffects with
      | some .popping, .defer (.activate subscriberId) :: pendingEffects =>
          if id = subscriberId then do
            let self ← self.observe (.activate subscriberId)
            return { self with pendingEffects, flush := some (.releasing []) }
          else none
      | _, _ => none
  | .applyEffect =>
      match self.flush, self.pendingEffects with
      | some .popping, effect :: pendingEffects =>
          match effect with
          | .notify _ | .defer (.activate _) => none
          | _ => some { self.beginApply effect with pendingEffects, flush := some .applying }
      | _, _ => none
  | .applied =>
      match self.flush with
      | some .applying => some { self with flush := some (.releasing []) }
      | _ => none
  | .finishFlush =>
      match self.flush, self.pendingEffects with
      | some .popping, [] => if testSupport then none else some self.finishFlush
      | _, _ => none
  | .drawWindows =>
      match self.flush, self.pendingEffects with
      | some .popping, [] =>
          if testSupport then some { self with flush := some .drawing } else none
      | _, _ => none
  | .windowsDrawn =>
      match self.flush with
      | some .drawing =>
          if self.pendingEffects.isEmpty then some self.finishFlush
          else some { self with flush := some (.releasing []) }
      | _ => none

end App

end Gpui
