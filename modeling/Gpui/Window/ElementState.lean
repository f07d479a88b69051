import Gpui.Library.PartialMap
import Gpui.Library.Transition

/-!
# Element state

The state of an element lives in the map of the frame that last accessed it, and a frame
lists the keys accessed in it.  When the frame is finished, the states of the listed keys
move on from the frame before, and what is left there is dropped.

A key is the global id of an element with the type of its state, so that a key gives the
type of its value and taking the state out of its box does not fail.  The closures that
`with_element_state` and `transact` call are taken apart into a first and a last step, with
any steps between.
-/

namespace Gpui

open Gpui.Library

variable {Key : Type} {State : Key → Type}

/-- The part of a frame that is about element state. -/
structure ElementStateFrame (State : Key → Type) where
  elementStates : PartialMap Key State
  accessedElementStates : List Key

namespace ElementStateFrame

/-- `Frame::clear`. -/
def empty : ElementStateFrame State where
  elementStates := .empty
  accessedElementStates := []

/-- `Frame::finish`, which takes entries out of the previous frame. -/
def finish [DecidableEq Key] (self prevFrame : ElementStateFrame State) :
    ElementStateFrame State :=
  { self with
    elementStates :=
      (self.accessedElementStates.foldl PartialMap.promote
        (prevFrame.elementStates, self.elementStates)).2 }

end ElementStateFrame

/-- A call whose closure is running. -/
inductive ElementStateCaller (Key : Type) where
  | withElementState (key : Key)
  /-- `accessed_element_states_index` at the start. -/
  | transact (index : Nat)
deriving DecidableEq

/-- The key whose closure is running. -/
def ElementStateCaller.key : ElementStateCaller Key → Option Key
  | .withElementState key => some key
  | .transact _ => none

/-- The window's frames, and the calls that wait for their closures, the innermost first. -/
structure ElementStateWindow (State : Key → Type) where
  renderedFrame : ElementStateFrame State
  nextFrame : ElementStateFrame State
  callers : List (ElementStateCaller Key)

inductive ElementStateEvent (State : Key → Type) where
  | beginAccess (key : Key)
  | endAccess (key : Key) (state : State key)
  /-- A range of `reuse_prepaint` or `reuse_paint`. -/
  | reuse (start finish : Nat)
  | beginTransact
  | endTransact (isErr : Bool)
  /-- The end of a draw. -/
  | finish

namespace ElementStateWindow

def new : ElementStateWindow State where
  renderedFrame := .empty
  nextFrame := .empty
  callers := []

/-- Note that a key is accessed. -/
def pushAccessed (self : ElementStateWindow State) (key : Key) : ElementStateWindow State :=
  { self with
    nextFrame :=
      { self.nextFrame with
        accessedElementStates := self.nextFrame.accessedElementStates ++ [key] } }

variable [DecidableEq Key]

/-- Take the state of a key out of the frame that holds it. -/
def takeState (self : ElementStateWindow State) (key : Key) :
    Option (State key) × ElementStateWindow State :=
  match self.nextFrame.elementStates key with
  | some state =>
      (some state,
        { self with
          nextFrame :=
            { self.nextFrame with
              elementStates := self.nextFrame.elementStates.remove key } })
  | none =>
      (self.renderedFrame.elementStates key,
        { self with
          renderedFrame :=
            { self.renderedFrame with
              elementStates := self.renderedFrame.elementStates.remove key } })

/-- `with_element_state` up to its closure, which gets the state returned here. -/
def beginAccess (self : ElementStateWindow State) (key : Key) :
    Option (State key) × ElementStateWindow State :=
  let (state, self) := (self.pushAccessed key).takeState key
  (state, { self with callers := .withElementState key :: self.callers })

/-- `with_element_state` from the end of its closure. -/
def endAccess (self : ElementStateWindow State) (key : Key) (state : State key) :
    Option (ElementStateWindow State) :=
  match self.callers with
  | .withElementState caller :: callers =>
      if caller = key then
        some
          { self with
            nextFrame :=
              { self.nextFrame with
                elementStates := self.nextFrame.elementStates.insert key state }
            callers }
      else none
  | _ => none

omit [DecidableEq Key] in
/-- The accessed keys that a reused range copies; out of bounds it fails. -/
def reuse (self : ElementStateWindow State) (start finish : Nat) :
    Option (ElementStateWindow State) :=
  if start ≤ finish ∧ finish ≤ self.renderedFrame.accessedElementStates.length then
    some
      { self with
        nextFrame :=
          { self.nextFrame with
            accessedElementStates :=
              self.nextFrame.accessedElementStates ++
                (self.renderedFrame.accessedElementStates.take finish).drop start } }
  else none

omit [DecidableEq Key] in
/-- `transact` up to its closure. -/
def beginTransact (self : ElementStateWindow State) : ElementStateWindow State :=
  { self with
    callers := .transact self.nextFrame.accessedElementStates.length :: self.callers }

omit [DecidableEq Key] in
/-- `transact` from the end of its closure. -/
def endTransact (self : ElementStateWindow State) (isErr : Bool) :
    Option (ElementStateWindow State) :=
  match self.callers with
  | .transact index :: callers =>
      let self := { self with callers }
      if isErr then
        some
          { self with
            nextFrame :=
              { self.nextFrame with
                accessedElementStates := self.nextFrame.accessedElementStates.take index } }
      else some self
  | _ => none

/-- The next frame is finished, becomes the rendered one, and a cleared one follows. -/
def finish (self : ElementStateWindow State) : Option (ElementStateWindow State) :=
  if self.callers = [] then
    some
      { self with
        renderedFrame := self.nextFrame.finish self.renderedFrame
        nextFrame := .empty }
  else none

def step (self : ElementStateWindow State) :
    ElementStateEvent State → Option (ElementStateWindow State)
  | .beginAccess key => some (self.beginAccess key).2
  | .endAccess key state => self.endAccess key state
  | .reuse start finish => self.reuse start finish
  | .beginTransact => some self.beginTransact
  | .endTransact isErr => self.endTransact isErr
  | .finish => self.finish

omit [DecidableEq Key] in
/-- The keys whose closures are running. -/
def openKeys (self : ElementStateWindow State) : List Key :=
  self.callers.filterMap ElementStateCaller.key

end ElementStateWindow

/-! ## What should persist -/

/-- For each key the value its last access returned, as long as every frame since then
accessed it; and the keys given to `with_element_state` in this frame. -/
structure ElementStateLedger (State : Key → Type) where
  held : PartialMap Key State
  used : List Key

namespace ElementStateLedger

def new : ElementStateLedger State where
  held := .empty
  used := []

variable [DecidableEq Key]

omit [DecidableEq Key] in
/-- A frame keeps the state of a key: the key is recorded, or `with_element_state` was
called with it. -/
def Kept (ledger : ElementStateLedger State) (window : ElementStateWindow State) (key : Key) :
    Prop :=
  key ∈ window.nextFrame.accessedElementStates ∨ key ∈ ledger.used

instance (ledger : ElementStateLedger State) (window : ElementStateWindow State) (key : Key) :
    Decidable (ledger.Kept window key) :=
  inferInstanceAs (Decidable (_ ∨ _))

def step (ledger : ElementStateLedger State) (window : ElementStateWindow State) :
    ElementStateEvent State → ElementStateLedger State
  | .beginAccess key => { ledger with used := key :: ledger.used }
  | .endAccess key state => { ledger with held := ledger.held.insert key state }
  | .finish =>
      { held := fun key => if ledger.Kept window key then ledger.held key else none
        used := [] }
  | .reuse _ _ | .beginTransact | .endTransact _ => ledger

end ElementStateLedger

end Gpui
