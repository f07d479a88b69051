import Gpui.Dispatch.Tree
import Gpui.Library.OrderedSequence

/-!
# Tab stops

A frame records the focus handles of its elements in the order they are painted, with
the tab groups they are in.  Each handle gets a path, the tab indices of its groups and
its own, and the handles are visited in the order of their paths.

The nodes are kept by a sum tree, of which only what `OrderedSequence` says is used.
-/

namespace Gpui

open Gpui.Library

abbrev TabIndex := Int

/-- A focus handle without its reference to the table of all of them.  Handles are
compared by their ids. -/
structure FocusHandle where
  id : FocusId
  tabIndex : TabIndex
  tabStop : Bool
deriving DecidableEq, Repr

inductive TabStopOperation where
  | insert (focusHandle : FocusHandle)
  | group (tabIndex : TabIndex)
  | groupEnd
deriving DecidableEq, Repr

def TabStopOperation.focusHandle : TabStopOperation → Option FocusHandle
  | .insert focusHandle => some focusHandle
  | .group _ | .groupEnd => none

structure TabStopNode where
  path : List TabIndex
  nodeInsertionIndex : Nat
  tabStop : Bool
deriving DecidableEq, Repr

/-- Nodes are compared by their paths, and then by when they were inserted. -/
def TabStopNode.key (self : TabStopNode) : List TabIndex ×ₗ Nat :=
  toLex (self.path, self.nodeInsertionIndex)

abbrev SumTree := OrderedSequence TabStopNode.key

structure TabStopMap (S : SumTree) where
  currentPath : List TabIndex
  insertionHistory : List TabStopOperation
  byId : FocusId → Option TabStopNode
  order : S.Tree

namespace TabStopMap

/-- `TabStopMap::default`. -/
def new (S : SumTree) : TabStopMap S where
  currentPath := []
  insertionHistory := []
  byId _ := none
  order := S.new

variable {S : SumTree}

def insert (self : TabStopMap S) (focusHandle : FocusHandle) : TabStopMap S :=
  let insertionHistory := self.insertionHistory ++ [.insert focusHandle]
  let order : TabStopNode :=
    { path := self.currentPath ++ [focusHandle.tabIndex]
      nodeInsertionIndex := insertionHistory.length - 1
      tabStop := focusHandle.tabStop }
  { self with
    insertionHistory
    byId := Function.update self.byId focusHandle.id (some order)
    order := S.insertOrReplace order self.order }

def beginGroup (self : TabStopMap S) (tabIndex : TabIndex) : TabStopMap S :=
  { self with
    insertionHistory := self.insertionHistory ++ [.group tabIndex]
    currentPath := self.currentPath ++ [tabIndex] }

def endGroup (self : TabStopMap S) : TabStopMap S :=
  { self with
    insertionHistory := self.insertionHistory ++ [.groupEnd]
    currentPath := self.currentPath.dropLast }

def replayOne (self : TabStopMap S) : TabStopOperation → TabStopMap S
  | .insert focusHandle => self.insert focusHandle
  | .group tabIndex => self.beginGroup tabIndex
  | .groupEnd => self.endGroup

def replay (self : TabStopMap S) (nodes : List TabStopOperation) : TabStopMap S :=
  nodes.foldl replayOne self

/-- `none` also where the index is out of bounds, which would panic. -/
def focusHandleForOrder (self : TabStopMap S) (order : TabStopNode) : Option FocusHandle :=
  self.insertionHistory[order.nodeInsertionIndex]?.bind TabStopOperation.focusHandle

def nextInner (self : TabStopMap S) (node : TabStopNode) : Option TabStopNode :=
  let cursor := S.next (S.seekLeft self.order node.key)
  S.item (S.skipNext TabStopNode.tabStop cursor)

def prevInner (self : TabStopMap S) (node : TabStopNode) : Option TabStopNode :=
  let cursor := S.prev (S.seekLeft self.order node.key)
  S.item (S.skipPrev TabStopNode.tabStop cursor)

/-- `next(None)`. -/
def nextOfNone (self : TabStopMap S) : Option FocusHandle := do
  let first ← S.first self.order
  if first.tabStop then self.focusHandleForOrder first
  else (self.nextInner first).bind self.focusHandleForOrder

def next (self : TabStopMap S) : Option FocusId → Option FocusHandle
  | none => self.nextOfNone
  | some focusedId =>
      match self.byId focusedId with
      | none => self.nextOfNone
      | some node =>
          match self.nextInner node with
          | some item => self.focusHandleForOrder item
          | none => self.nextOfNone

/-- `prev(None)`. -/
def prevOfNone (self : TabStopMap S) : Option FocusHandle := do
  let last ← S.last self.order
  if last.tabStop then self.focusHandleForOrder last
  else (self.prevInner last).bind self.focusHandleForOrder

def prev (self : TabStopMap S) : Option FocusId → Option FocusHandle
  | none => self.prevOfNone
  | some focusedId =>
      match self.byId focusedId with
      | none => self.prevOfNone
      | some node =>
          match self.prevInner node with
          | some item => self.focusHandleForOrder item
          | none => self.prevOfNone

end TabStopMap

/-- The calls of a frame that change the map. -/
inductive TabStopCall where
  | insert (focusHandle : FocusHandle)
  | beginGroup (tabIndex : TabIndex)
  | endGroup
  | replay (nodes : List TabStopOperation)
deriving DecidableEq, Repr

/-- What a call adds to the history. -/
def TabStopCall.operations : TabStopCall → List TabStopOperation
  | .insert focusHandle => [.insert focusHandle]
  | .beginGroup tabIndex => [.group tabIndex]
  | .endGroup => [.groupEnd]
  | .replay nodes => nodes

namespace TabStopMap

variable {S : SumTree}

def call (self : TabStopMap S) : TabStopCall → TabStopMap S
  | .insert focusHandle => self.insert focusHandle
  | .beginGroup tabIndex => self.beginGroup tabIndex
  | .endGroup => self.endGroup
  | .replay nodes => self.replay nodes

def run (self : TabStopMap S) (calls : List TabStopCall) : TabStopMap S :=
  calls.foldl call self

theorem run_eq_replay (self : TabStopMap S) (calls : List TabStopCall) :
    self.run calls = self.replay (calls.flatMap TabStopCall.operations) := by
  induction calls generalizing self with
  | nil => rfl
  | cons call calls ih =>
      have first : self.call call = self.replay call.operations := by
        cases call <;> rfl
      rw [run, List.foldl_cons, ← run, ih, first, replay, replay, replay, ← List.foldl_append]
      rfl

end TabStopMap

end Gpui
