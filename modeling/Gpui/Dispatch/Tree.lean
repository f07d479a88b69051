import Gpui.Keymap.Context

/-!
# Dispatch trees

The nodes of a frame's elements, in the order they were pushed, and the stacks of
the node being built: its path, the key contexts and the views on that path.  The
stacks and the nodes grow at the end, as the vectors of the source do.

Panics (indexing out of bounds, `unwrap` of nothing) yield `none`.
-/

namespace Gpui

abbrev DispatchNodeId := Nat
abbrev FocusId := Nat
abbrev EntityId := Nat

/-- Listeners are opaque; an action listener comes with the type of its actions. -/
structure DispatchNode (L : Type) where
  keyListeners : List L
  actionListeners : List (Nat × L)
  modifiersChangedListeners : List L
  context : Option KeyContext
  focusId : Option FocusId
  viewId : Option EntityId
  parent : Option DispatchNodeId
deriving DecidableEq

namespace DispatchNode

variable {L : Type}

/-- `DispatchNode::default`, with a parent. -/
def new (parent : Option DispatchNodeId) : DispatchNode L where
  keyListeners := []
  actionListeners := []
  modifiersChangedListeners := []
  context := none
  focusId := none
  viewId := none
  parent

/-- What `mem::take` of its listeners leaves of a node. -/
def taken (self : DispatchNode L) : DispatchNode L :=
  { self with keyListeners := [], actionListeners := [], modifiersChangedListeners := [] }

end DispatchNode

structure DispatchTree (L : Type) where
  nodeStack : List DispatchNodeId
  contextStack : List KeyContext
  viewStack : List EntityId
  nodes : List (DispatchNode L)
  focusableNodeIds : FocusId → Option DispatchNodeId
  viewNodeIds : EntityId → Option DispatchNodeId

structure ReusedSubtree where
  oldStart : Nat
  oldStop : Nat
  newStart : Nat
  newStop : Nat
  containsFocus : Bool
deriving DecidableEq

/-- Nodes outside the reused range fail the assertion. -/
def ReusedSubtree.refreshNodeId (self : ReusedSubtree) (nodeId : DispatchNodeId) :
    Option DispatchNodeId :=
  if self.oldStart ≤ nodeId ∧ nodeId < self.oldStop then
    some (nodeId - self.oldStart + self.newStart)
  else none

namespace DispatchTree

variable {L : Type}

/-- Also what `clear` leaves. -/
def new : DispatchTree L where
  nodeStack := []
  contextStack := []
  viewStack := []
  nodes := []
  focusableNodeIds := fun _ => none
  viewNodeIds := fun _ => none

def len (self : DispatchTree L) : Nat :=
  self.nodes.length

def activeNodeId (self : DispatchTree L) : Option DispatchNodeId :=
  self.nodeStack.getLast?

/-- Change the active node through `active_node`. -/
def modifyActive (self : DispatchTree L) (change : DispatchNode L → DispatchNode L) :
    Option (DispatchTree L) := do
  let nodeId ← self.activeNodeId
  if nodeId < self.nodes.length then some { self with nodes := self.nodes.modify nodeId change }
  else none

def pushNode (self : DispatchTree L) : DispatchTree L :=
  let parent := self.nodeStack.getLast?
  let nodeId := self.nodes.length
  { self with nodes := self.nodes ++ [.new parent], nodeStack := self.nodeStack ++ [nodeId] }

def popNode (self : DispatchTree L) : Option (DispatchTree L) := do
  let nodeId ← self.activeNodeId
  let node ← self.nodes[nodeId]?
  return { self with
    contextStack := if node.context.isSome then self.contextStack.dropLast else self.contextStack
    viewStack := if node.viewId.isSome then self.viewStack.dropLast else self.viewStack
    nodeStack := self.nodeStack.dropLast }

def setKeyContext (self : DispatchTree L) (context : KeyContext) : Option (DispatchTree L) := do
  let self ← self.modifyActive fun node => { node with context := some context }
  return { self with contextStack := self.contextStack ++ [context] }

def setFocusId (self : DispatchTree L) (focusId : FocusId) : Option (DispatchTree L) := do
  let nodeId ← self.activeNodeId
  let self ← self.modifyActive fun node => { node with focusId := some focusId }
  return { self with
    focusableNodeIds := Function.update self.focusableNodeIds focusId (some nodeId) }

def setViewId (self : DispatchTree L) (viewId : EntityId) : Option (DispatchTree L) :=
  if self.viewStack.getLast? ≠ some viewId then do
    let nodeId ← self.activeNodeId
    let self ← self.modifyActive fun node => { node with viewId := some viewId }
    return { self with
      viewNodeIds := Function.update self.viewNodeIds viewId (some nodeId)
      viewStack := self.viewStack ++ [viewId] }
  else some self

def onKeyEvent (self : DispatchTree L) (listener : L) : Option (DispatchTree L) :=
  self.modifyActive fun node => { node with keyListeners := node.keyListeners ++ [listener] }

def onModifiersChanged (self : DispatchTree L) (listener : L) : Option (DispatchTree L) :=
  self.modifyActive fun node =>
    { node with modifiersChangedListeners := node.modifiersChangedListeners ++ [listener] }

def onAction (self : DispatchTree L) (actionType : Nat) (listener : L) :
    Option (DispatchTree L) :=
  self.modifyActive fun node =>
    { node with actionListeners := node.actionListeners ++ [(actionType, listener)] }

/-! ## Going back to an earlier node -/

/-- The loop of `set_active_node`: pop until the stack ends in `parent` or is empty.
Every round pops one node, so the height of the stack bounds the rounds. -/
def popUntil (parent : Option DispatchNodeId) :
    Nat → DispatchTree L → Option (DispatchTree L)
  | 0, self => some self
  | rounds + 1, self =>
      if self.nodeStack.getLast? ≠ parent ∧ self.nodeStack ≠ [] then do
        popUntil parent rounds (← self.popNode)
      else some self

/-- The path from a node to its root, the node first.  `none` stands for a node out
of bounds, or for a walk longer than the tree is large, which never ends. -/
def ancestry (self : DispatchTree L) :
    Nat → Option DispatchNodeId → Option (List DispatchNodeId)
  | _, none => some []
  | 0, some _ => none
  | rounds + 1, some nodeId => do
      let node ← self.nodes[nodeId]?
      return nodeId :: (← self.ancestry rounds node.parent)

/-- The contexts set on a path of nodes. -/
def contextsOf (self : DispatchTree L) (path : List DispatchNodeId) : List KeyContext :=
  path.filterMap fun nodeId => self.nodes[nodeId]?.bind DispatchNode.context

/-- The views set on a path of nodes. -/
def viewsOf (self : DispatchTree L) (path : List DispatchNodeId) : List EntityId :=
  path.filterMap fun nodeId => self.nodes[nodeId]?.bind DispatchNode.viewId

def setActiveNode (self : DispatchTree L) (nodeId : DispatchNodeId) :
    Option (DispatchTree L) := do
  let node ← self.nodes[nodeId]?
  let self ← popUntil node.parent self.nodeStack.length self
  if self.nodeStack.getLast? = node.parent then
    return { self with
      nodeStack := self.nodeStack ++ [nodeId]
      viewStack := self.viewStack ++ node.viewId.toList
      contextStack := self.contextStack ++ node.context.toList }
  else do
    let path ← self.ancestry (self.nodes.length + 1) (some nodeId)
    return { self with
      nodeStack := (self.nodeStack ++ path).reverse
      viewStack := (self.viewStack ++ self.viewsOf path).reverse
      contextStack := (self.contextStack ++ self.contextsOf path).reverse }

/-! ## Moving nodes from another tree -/

def setKeyContext? (self : DispatchTree L) : Option KeyContext → Option (DispatchTree L)
  | some context => self.setKeyContext context
  | none => some self

def setFocusId? (self : DispatchTree L) : Option FocusId → Option (DispatchTree L)
  | some focusId => self.setFocusId focusId
  | none => some self

def setViewId? (self : DispatchTree L) : Option EntityId → Option (DispatchTree L)
  | some viewId => self.setViewId viewId
  | none => some self

/-- The listeners leave the source; see `takeListeners`. -/
def moveNode (self : DispatchTree L) (source : DispatchNode L) : Option (DispatchTree L) := do
  let self ← self.pushNode.setKeyContext? source.context
  let self ← self.setFocusId? source.focusId
  let self ← self.setViewId? source.viewId
  self.modifyActive fun node =>
    { node with
      keyListeners := source.keyListeners
      actionListeners := source.actionListeners
      modifiersChangedListeners := source.modifiersChangedListeners }

/-- The inner loop of `reuse_subtree`: leave the source nodes that are not the parent
of the next one.  The source stack has its top first. -/
def leaveUntil (parent : Option DispatchNodeId) :
    List DispatchNodeId → DispatchTree L → Option (List DispatchNodeId × DispatchTree L)
  | [], self => some ([], self)
  | ancestor :: stack, self =>
      if parent = some ancestor then some (ancestor :: stack, self)
      else do leaveUntil parent stack (← self.popNode)

/-- The outer loop of `reuse_subtree`, over the nodes from `sourceId` on. -/
def reuseNodes : DispatchNodeId → List (DispatchNode L) →
    List DispatchNodeId × DispatchTree L → Option (List DispatchNodeId × DispatchTree L)
  | _, [], reached => some reached
  | sourceId, source :: sources, (stack, self) => do
      let (stack, self) ← leaveUntil source.parent stack self
      let self ← self.moveNode source
      reuseNodes (sourceId + 1) sources (sourceId :: stack, self)

/-- The source after its nodes in a range were moved. -/
def takeListeners (self : DispatchTree L) (start stop : Nat) : DispatchTree L :=
  { self with
    nodes := self.nodes.mapIdx fun index node =>
      if start ≤ index ∧ index < stop then node.taken else node }

def reuseSubtree (self source : DispatchTree L) (start stop : Nat) (focus : Option FocusId) :
    Option (ReusedSubtree × DispatchTree L × DispatchTree L) := do
  let sources := (source.nodes.drop start).take (stop - start)
  let (stack, reached) ← reuseNodes start sources ([], self)
  -- no node has the parent `none` of the source stack's bottom, so this pops it all
  let (_, reached) ← leaveUntil none stack reached
  return (
    { oldStart := start
      oldStop := stop
      newStart := self.nodes.length
      newStop := self.nodes.length + (stop - start)
      containsFocus := sources.any fun node => node.focusId.isSome && node.focusId == focus },
    reached, source.takeListeners start stop)

/-! ## Truncation -/

/-- Remove the entries of a node that is cut off. -/
def forget (self : DispatchTree L) (node : DispatchNode L) : DispatchTree L :=
  { self with
    focusableNodeIds := fun id => if node.focusId = some id then none else self.focusableNodeIds id
    viewNodeIds := fun id => if node.viewId = some id then none else self.viewNodeIds id }

def truncate (self : DispatchTree L) (index : Nat) : Option (DispatchTree L) :=
  if index ≤ self.nodes.length then
    some { (self.nodes.drop index).foldl forget self with nodes := self.nodes.take index }
  else none

end DispatchTree

end Gpui
