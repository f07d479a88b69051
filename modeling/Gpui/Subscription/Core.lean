import Gpui.Library.OrderedMap
import Gpui.Library.Transition

/-!
# Subscriber sets

A `retain` takes the emitter's map out of the set, calls the callbacks in it one
after the other and merges what is left back in.  The callbacks may use the set
in the meantime, so a pass of `retain` is a sequence of steps, and the passes
under way form a stack.

Passes are numbered in the order they begin, to be able to name them.
-/

namespace Gpui

open Gpui.Library

/-- The state behind the `RefCell`.  A taken map leaves `some none` behind. -/
structure SubscriberSetState (E C : Type) where
  subscribers : E → Option (Option (OrderedMap Nat C))
  droppedSubscribers : List (E × Nat)
  nextSubscriberId : Nat

namespace SubscriberSetState

variable {E C : Type} [DecidableEq E]

def new : SubscriberSetState E C where
  subscribers := fun _ => none
  droppedSubscribers := []
  nextSubscriberId := 0

/-- The map of an emitter, where it is in the set. -/
def mapOf (self : SubscriberSetState E C) (emitterKey : E) : OrderedMap Nat C :=
  ((self.subscribers emitterKey).getD none).getD .empty

def insert (self : SubscriberSetState E C) (emitterKey : E) (callback : C) :
    SubscriberSetState E C :=
  let subscriberId := self.nextSubscriberId
  { self with
    subscribers := Function.update self.subscribers emitterKey
      (some (some ((self.mapOf emitterKey).insert subscriberId callback)))
    nextSubscriberId := self.nextSubscriberId + 1 }

/-- The closure a `Subscription` runs when it is dropped. -/
def unsubscribe (self : SubscriberSetState E C) (emitterKey : E) (subscriberId : Nat) :
    SubscriberSetState E C :=
  match self.subscribers emitterKey with
  | none => self
  | some (some subscribers) =>
      let subscribers := subscribers.erase subscriberId
      { self with
        subscribers := Function.update self.subscribers emitterKey
          (if subscribers.isEmpty then none else some (some subscribers)) }
  | some none =>
      { self with
        droppedSubscribers := (emitterKey, subscriberId) :: self.droppedSubscribers }

/-- The callbacks of the emitter that are active, and the set without them. -/
def remove (self : SubscriberSetState E C) (active : List Nat) (emitter : E) :
    List C × SubscriberSetState E C :=
  ((((self.mapOf emitter).entries.filter fun entry => entry.1 ∈ active).map Prod.snd),
    { self with subscribers := Function.update self.subscribers emitter none })

/-- The beginning of `retain`: take the map, if there is one. -/
def take (self : SubscriberSetState E C) (emitter : E) :
    Option (OrderedMap Nat C × SubscriberSetState E C) :=
  match self.subscribers emitter with
  | some (some subscribers) =>
      some (subscribers,
        { self with subscribers := Function.update self.subscribers emitter (some none) })
  | _ => none

/-- The end of `retain`: merge with what was inserted meanwhile, remove what was
dropped meanwhile, and put the rest back. -/
def putBack (self : SubscriberSetState E C) (emitter : E) (subscribers : OrderedMap Nat C) :
    SubscriberSetState E C :=
  let subscribers := subscribers.extend (self.mapOf emitter)
  let subscribers := subscribers.eraseAll (self.droppedSubscribers.map Prod.snd)
  { self with
    subscribers := Function.update self.subscribers emitter
      (if subscribers.isEmpty then none else some (some subscribers))
    droppedSubscribers := [] }

end SubscriberSetState

/-! ## Passes of `retain` -/

/-- A pass under way: the subscribers it has kept, the one whose callback is
running, and those still to come. -/
structure Pass (E C : Type) where
  number : Nat
  emitter : E
  kept : OrderedMap Nat C
  current : Option (Nat × C)
  rest : List (Nat × C)

/-- The set, the activation cells, the subscriptions that may still be dropped,
and the passes under way, innermost first. -/
structure SubscriberSet (E C : Type) where
  state : SubscriberSetState E C
  active : List Nat
  subscriptions : List (E × Nat)
  passes : List (Pass E C)
  nextPass : Nat

inductive SubscriberEvent (E C : Type) where
  | insert (emitter : E) (callback : C) (id : Nat)
  | activate (id : Nat)
  | drop (emitter : E) (id : Nat)
  | detach (emitter : E) (id : Nat)
  | remove (emitter : E)
  | beginRetain (emitter : E) (pass : Nat)
  /-- A `retain` that finds nothing to take. -/
  | emptyRetain (emitter : E)
  | call (pass id : Nat)
  /-- Pass over a subscriber that is not active. -/
  | skip (pass id : Nat)
  | finishCall (pass id : Nat) (retained : Bool)
  | endRetain (emitter : E) (pass : Nat)
deriving DecidableEq

namespace SubscriberSet

variable {E C : Type} [DecidableEq E]

def new : SubscriberSet E C where
  state := .new
  active := []
  subscriptions := []
  passes := []
  nextPass := 0

/-- One step.  Labels that do not fit the state have no step; only the innermost
pass goes on. -/
def step (self : SubscriberSet E C) : SubscriberEvent E C → Option (SubscriberSet E C)
  | .insert emitter callback id =>
      if id = self.state.nextSubscriberId then
        some { self with
          state := self.state.insert emitter callback
          subscriptions := (emitter, id) :: self.subscriptions }
      else none
  | .activate id =>
      if id < self.state.nextSubscriberId then some { self with active := id :: self.active }
      else none
  | .drop emitter id =>
      if (emitter, id) ∈ self.subscriptions then
        some { self with
          state := self.state.unsubscribe emitter id
          subscriptions := self.subscriptions.filter (· ≠ (emitter, id)) }
      else none
  | .detach emitter id =>
      if (emitter, id) ∈ self.subscriptions then
        some { self with subscriptions := self.subscriptions.filter (· ≠ (emitter, id)) }
      else none
  | .remove emitter => some { self with state := (self.state.remove self.active emitter).2 }
  | .beginRetain emitter number =>
      match self.state.take emitter with
      | some (subscribers, state) =>
          if number = self.nextPass then
            some { self with
              state
              passes :=
                { number, emitter, kept := .empty, current := none, rest := subscribers.entries }
                  :: self.passes
              nextPass := self.nextPass + 1 }
          else none
      | none => none
  | .emptyRetain emitter =>
      match self.state.take emitter with
      | some _ => none
      | none => some self
  | .call number id =>
      match self.passes with
      | pass :: passes =>
          match pass.current, pass.rest with
          | none, (subscriberId, callback) :: rest =>
              if number = pass.number ∧ id = subscriberId ∧ id ∈ self.active then
                some { self with
                  passes := { pass with current := some (subscriberId, callback), rest }
                    :: passes }
              else none
          | _, _ => none
      | [] => none
  | .skip number id =>
      match self.passes with
      | pass :: passes =>
          match pass.current, pass.rest with
          | none, (subscriberId, callback) :: rest =>
              if number = pass.number ∧ id = subscriberId ∧ id ∉ self.active then
                some { self with
                  passes := { pass with kept := pass.kept.insert subscriberId callback, rest }
                    :: passes }
              else none
          | _, _ => none
      | [] => none
  | .finishCall number id retained =>
      match self.passes with
      | pass :: passes =>
          match pass.current with
          | some (subscriberId, callback) =>
              if number = pass.number ∧ id = subscriberId then
                some { self with
                  passes :=
                    { pass with
                      kept := if retained then pass.kept.insert subscriberId callback
                        else pass.kept
                      current := none }
                      :: passes }
              else none
          | none => none
      | [] => none
  | .endRetain emitter number =>
      match self.passes with
      | pass :: passes =>
          if number = pass.number ∧ emitter = pass.emitter ∧ pass.current = none ∧ pass.rest = []
          then some { self with state := self.state.putBack emitter pass.kept, passes }
          else none
      | [] => none

end SubscriberSet

end Gpui
