import Gpui.Dispatch.Recording

/-!
# The tree of a frame

A frame's tree is built by calls and cut back by transactions that fail.  However it was
built, parents are pushed before their children, and the node found for a view carries it.
-/

namespace Gpui

open Gpui.Library

variable {L : Type}

inductive FrameTreeEvent (L : Type) where
  | build (event : DispatchTreeEvent L)
  /-- A transaction that fails. -/
  | truncate (index : Nat)

namespace DispatchTree

def frameStep (self : DispatchTree L) : FrameTreeEvent L → Option (DispatchTree L)
  | .build event => self.step event
  | .truncate index => self.truncate index

/-- No node gets a second view, and a transaction has closed the nodes it opened. -/
def FrameProtocol (self : DispatchTree L) : FrameTreeEvent L → Prop
  | .build event => self.SetOnce event
  | .truncate index => ∀ nodeId ∈ self.nodeStack, nodeId < index

/-- The node carries the view. -/
def Shows (self : DispatchTree L) (nodeId : DispatchNodeId) (viewId : EntityId) : Prop :=
  ∃ node : DispatchNode L, self.nodes[nodeId]? = some node ∧ node.viewId = some viewId

structure Framed (tree : DispatchTree L) : Prop where
  older : tree.ParentsFirst
  bounded : tree.Bounded
  lookedUp : ∀ viewId nodeId, tree.viewNodeIds viewId = some nodeId → tree.Shows nodeId viewId

theorem framed_new : Framed (new : DispatchTree L) where
  older := by simp [ParentsFirst, new]
  bounded := by simp [Bounded, new]
  lookedUp viewId nodeId found := by simp [new] at found

/-! ## Steps that change no node -/

theorem Framed.of_sameNodes {self next : DispatchTree L} (framed : self.Framed)
    (same : SameNodes self next) (bounded : next.Bounded) : next.Framed where
  older := by
    rw [ParentsFirst, same.nodes]
    exact framed.older
  bounded
  lookedUp viewId nodeId found := by
    rw [Shows, same.nodes]
    exact framed.lookedUp viewId nodeId (same.viewNodeIds ▸ found)

theorem SameNodes.popUntil {parent : Option DispatchNodeId} {rounds : Nat}
    {self reached : DispatchTree L} (pops : popUntil parent rounds self = some reached) :
    SameNodes self reached := by
  have popped := popped_of_popUntil pops
  clear pops
  induction popped with
  | refl => exact .refl self
  | tail _ pop ih => exact ih.trans (.of_popNode pop)

theorem SameNodes.setActiveNode {self next : DispatchTree L} {nodeId : DispatchNodeId}
    (activates : self.setActiveNode nodeId = some next) : SameNodes self next := by
  simp only [DispatchTree.setActiveNode, Option.bind_eq_bind, Option.bind_eq_some_iff]
    at activates
  rcases activates with ⟨node, here, reached, pops, activates⟩
  have popped := SameNodes.popUntil pops
  split at activates
  case isTrue _ =>
    rcases Option.some.inj activates with rfl
    exact ⟨popped.nodes, popped.focusableNodeIds, popped.viewNodeIds⟩
  case isFalse _ =>
    rcases Option.bind_eq_some_iff.mp activates with ⟨walk, walks, activates⟩
    rcases Option.some.inj activates with rfl
    exact ⟨popped.nodes, popped.focusableNodeIds, popped.viewNodeIds⟩

/-! ## Steps that change the active node -/

/-- A change of a node that leaves its parent and its view. -/
theorem Framed.modify {self next : DispatchTree L} (framed : self.Framed)
    {nodeId : DispatchNodeId} {change : DispatchNode L → DispatchNode L}
    (nodes : next.nodes = self.nodes.modify nodeId change)
    (keeps : ∀ node, (change node).parent = node.parent ∧ (change node).viewId = node.viewId)
    (viewNodeIds : next.viewNodeIds = self.viewNodeIds) (bounded : next.Bounded) :
    next.Framed where
  older := by
    intro other node parent here isParent
    rw [nodes, List.getElem?_modify, Option.map_eq_map, Option.map_eq_some_iff] at here
    rcases here with ⟨before, there, rfl⟩
    refine framed.older other before parent there ?_
    split at isParent
    · exact (keeps before).1.symm.trans isParent
    · exact isParent
  bounded
  lookedUp viewId other found := by
    rw [viewNodeIds] at found
    rcases framed.lookedUp viewId other found with ⟨before, there, carried⟩
    rw [Shows, nodes, List.getElem?_modify, there]
    refine ⟨_, rfl, ?_⟩
    split
    · exact (keeps before).2.trans carried
    · exact carried

theorem Framed.modifyActive {self next : DispatchTree L} (framed : self.Framed)
    {change : DispatchNode L → DispatchNode L}
    (changes : self.modifyActive change = some next)
    (keeps : ∀ node, (change node).parent = node.parent ∧ (change node).viewId = node.viewId)
    (bounded : next.Bounded) :
    next.Framed := by
  rcases modifyActive_eq_some_iff.mp changes with ⟨nodeId, -, -, rfl⟩
  exact framed.modify rfl keeps rfl bounded

/-- A view set on a node that has none is found there, and the others where they were. -/
theorem Framed.setViewId {self next : DispatchTree L} (framed : self.Framed)
    {viewId : EntityId} (unset : self.viewStack.getLast? ≠ some viewId → self.ViewUnset)
    (sets : self.setViewId viewId = some next) (bounded : next.Bounded) : next.Framed := by
  rcases setViewId_eq_some_iff.mp sets with ⟨-, rfl⟩ | ⟨differs, nodeId, active, bound, rfl⟩
  · exact framed
  · constructor
    case older =>
      intro other node parent here isParent
      rw [List.getElem?_modify, Option.map_eq_map, Option.map_eq_some_iff] at here
      rcases here with ⟨before, there, rfl⟩
      refine framed.older other before parent there ?_
      split at isParent
      · exact isParent
      · exact isParent
    case bounded => exact bounded
    case lookedUp =>
      intro other place found
      by_cases same : other = viewId
      · subst same
        have here : nodeId = place := by simpa using found
        subst here
        exact ⟨{ self.nodes[nodeId] with viewId := some other }, by simp [bound], rfl⟩
      · have before : self.viewNodeIds other = some place := by simpa [same] using found
        rcases framed.lookedUp other place before with ⟨node, here, carried⟩
        have elsewhere : nodeId ≠ place := by
          intro there
          subst there
          rw [unset differs nodeId active node here] at carried
          cases carried
        exact ⟨node, by simp [elsewhere, here], carried⟩

theorem Framed.grow {self : DispatchTree L} (framed : self.Framed) {node : DispatchNode L}
    (parent : node.parent = self.nodeStack.getLast?) : (self.grow node).Framed where
  older := by
    intro nodeId other above here isParent
    rcases Nat.lt_or_ge nodeId self.nodes.length with less | atLeast
    · exact framed.older _ _ _ ((getElem?_grow_old less).symm.trans here) isParent
    · have last : nodeId = self.nodes.length := by
        have inside := (List.getElem?_eq_some_iff.mp here).1
        simp only [DispatchTree.grow, List.length_append, List.length_singleton] at inside
        exact Nat.le_antisymm (Nat.le_of_lt_succ inside) atLeast
      subst last
      rcases getElem?_grow_new.symm.trans here with ⟨⟩
      exact framed.bounded above (List.mem_of_getLast? (parent.symm.trans isParent))
  bounded := (Extends.grow self node).bounded framed.bounded
  lookedUp viewId nodeId found := by
    by_cases carried : node.viewId = some viewId
    · simp only [DispatchTree.grow, carried, if_true, Option.some.injEq] at found
      exact ⟨node, found ▸ getElem?_grow_new, carried⟩
    · simp only [DispatchTree.grow, carried, if_false] at found
      rcases framed.lookedUp viewId nodeId found with ⟨before, here, same⟩
      exact ⟨before, (getElem?_grow_old (List.getElem?_eq_some_iff.mp here).1).trans here, same⟩

/-! ## Cutting back -/

theorem foldl_forget_nodes (nodes : List (DispatchNode L)) (self : DispatchTree L) :
    (nodes.foldl forget self).nodeStack = self.nodeStack ∧
      ∀ viewId, (nodes.foldl forget self).viewNodeIds viewId =
        if some viewId ∈ nodes.map DispatchNode.viewId then none
        else self.viewNodeIds viewId := by
  induction nodes generalizing self with
  | nil => simp
  | cons node nodes ih =>
      obtain ⟨stack, views⟩ := ih (self.forget node)
      refine ⟨stack, fun viewId => ?_⟩
      simp only [List.foldl_cons, views, List.map_cons, List.mem_cons]
      by_cases later : some viewId ∈ nodes.map DispatchNode.viewId
      · simp [later]
      · by_cases here : node.viewId = some viewId
        · simp [forget, here]
        · simp [forget, later, here, Ne.symm here]

theorem Framed.truncate {self next : DispatchTree L} (framed : self.Framed) {index : Nat}
    (closed : ∀ nodeId ∈ self.nodeStack, nodeId < index)
    (truncates : self.truncate index = some next) : next.Framed := by
  rw [DispatchTree.truncate, Option.ite_none_right_eq_some] at truncates
  rcases truncates with ⟨inside, same⟩
  cases same
  rcases foldl_forget_nodes (self.nodes.drop index) self with ⟨stack, views⟩
  constructor
  case older =>
    intro nodeId node parent here isParent
    rw [List.getElem?_take] at here
    split at here
    · exact framed.older nodeId node parent here isParent
    · cases here
  case bounded =>
    intro nodeId member
    rw [List.length_take, Nat.min_eq_left inside]
    exact closed nodeId (stack ▸ member)
  case lookedUp =>
    intro viewId nodeId found
    rw [views] at found
    split at found
    next => cases found
    next kept =>
      rcases framed.lookedUp viewId nodeId found with ⟨node, here, carried⟩
      have below : nodeId < index := by
        by_contra beyond
        apply kept
        rw [List.mem_map]
        refine ⟨node, List.mem_of_getElem? (i := nodeId - index) ?_, carried⟩
        rw [List.getElem?_drop, Nat.add_sub_cancel' (not_lt.mp beyond), here]
      exact ⟨node, by rw [List.getElem?_take_of_lt below, here], carried⟩

/-! ## Runs -/

theorem Framed.step {self next : DispatchTree L} {event : DispatchTreeEvent L}
    (framed : self.Framed) (once : self.SetOnce event)
    (steps : self.step event = some next) : next.Framed := by
  have bounded := (Extends.step steps).bounded framed.bounded
  cases event with
  | pushNode =>
      rcases Option.some.inj steps with rfl
      rw [pushNode_eq]
      exact framed.grow rfl
  | setKeyContext context =>
      rcases setKeyContext_eq_some_iff.mp steps with ⟨nodeId, -, -, rfl⟩
      exact framed.modify rfl (fun _ => ⟨rfl, rfl⟩) rfl bounded
  | setFocusId focusId =>
      rcases setFocusId_eq_some_iff.mp steps with ⟨nodeId, -, -, rfl⟩
      exact framed.modify rfl (fun _ => ⟨rfl, rfl⟩) rfl bounded
  | setViewId viewId => exact framed.setViewId once steps bounded
  | setActiveNode nodeId => exact framed.of_sameNodes (.setActiveNode steps) bounded
  | reuseSubtree source start stop focus =>
      rcases Option.map_eq_some_iff.mp steps with ⟨⟨reused, reached, rest⟩, reuses, rfl⟩
      exact reuseSubtree_induct (motive := fun _ tree => tree.Framed)
        (fun framed pops => framed.of_sameNodes (.of_popNode pops)
          ((Extends.popNode pops).bounded framed.bounded))
        (fun _ framed => framed.grow rfl) framed reuses
  | onKeyEvent listener =>
      rw [DispatchTree.step, onKeyEvent] at steps
      exact framed.modifyActive steps (fun _ => ⟨rfl, rfl⟩) bounded
  | onModifiersChanged listener =>
      rw [DispatchTree.step, onModifiersChanged] at steps
      exact framed.modifyActive steps (fun _ => ⟨rfl, rfl⟩) bounded
  | onAction actionType listener =>
      rw [DispatchTree.step, onAction] at steps
      exact framed.modifyActive steps (fun _ => ⟨rfl, rfl⟩) bounded
  | popNode => exact framed.of_sameNodes (.of_popNode steps) bounded

theorem framed_of_run {events : List (FrameTreeEvent L)} {tree : DispatchTree L}
    (run : Run frameStep FrameProtocol new events tree) : tree.Framed := by
  refine run.invariant (fun _ tree => tree.Framed) framed_new ?_
  intro _ tree event next framed may steps
  cases event with
  | build event => exact framed.step may steps
  | truncate index => exact framed.truncate may steps

end DispatchTree

end Gpui
