import Gpui.Dispatch.Growth
import Gpui.Library.Transition

/-!
# The stacks of a dispatch tree

The three stacks describe one path: from a root of the tree to the active node,
with the contexts and the views of its nodes.
-/

namespace Gpui

open Gpui.Library

variable {L : Type}

namespace DispatchTree

/-! ## Paths from a root -/

/-- Parents are pushed before their children. -/
def ParentsFirst (self : DispatchTree L) : Prop :=
  ∀ (nodeId : DispatchNodeId) (node : DispatchNode L) (parent : DispatchNodeId),
    self.nodes[nodeId]? = some node → node.parent = some parent → parent < nodeId

theorem PathFrom.lt_last {self : DispatchTree L} (older : self.ParentsFirst)
    {path : List DispatchNodeId} (isPath : self.PathFrom [] path) {nodeId last : DispatchNodeId}
    (isLast : path.getLast? = some last) (member : nodeId ∈ path) : nodeId ≤ last := by
  induction isPath generalizing last with
  | nil => simp at member
  | @snoc front top node _ here parent ih =>
      rw [List.getLast?_concat, Option.some.injEq] at isLast
      subst isLast
      rcases List.mem_append.mp member with inFront | isTop
      · cases below : front.getLast? with
        | none =>
            rw [List.getLast?_eq_none_iff.mp below] at inFront
            cases inFront
        | some beneath =>
            exact (ih below inFront).trans (older _ _ _ here (parent.trans below)).le
      · exact (List.mem_singleton.mp isTop).le

/-- The active node is not below itself. -/
theorem PathFrom.not_mem_front {self : DispatchTree L} (older : self.ParentsFirst)
    {front : List DispatchNodeId} {nodeId : DispatchNodeId}
    (isPath : self.PathFrom [] (front ++ [nodeId])) : nodeId ∉ front := by
  intro member
  rcases pathFrom_snoc_iff.mp isPath with ⟨isFront, node, here, parent⟩
  cases below : front.getLast? with
  | none =>
      rw [List.getLast?_eq_none_iff.mp below] at member
      cases member
  | some beneath =>
      have less := older _ _ _ here (parent.trans below)
      exact absurd (isFront.lt_last older below member) (not_le.mpr less)

/-! ## The stacks -/

/-- The stacks are the path of the active node and what is set on it. -/
structure Mirrored (tree : DispatchTree L) : Prop where
  older : tree.ParentsFirst
  above : Above new tree tree.nodeStack

theorem Mirrored.path {self : DispatchTree L} (mirrored : self.Mirrored) :
    self.PathFrom [] self.nodeStack :=
  mirrored.above.path

theorem Mirrored.contexts {self : DispatchTree L} (mirrored : self.Mirrored) :
    self.contextStack = self.contextsOf self.nodeStack :=
  mirrored.above.contexts

theorem Mirrored.views {self : DispatchTree L} (mirrored : self.Mirrored) :
    self.viewStack = self.viewsOf self.nodeStack :=
  mirrored.above.views

theorem Mirrored.of_path {self : DispatchTree L} (older : self.ParentsFirst)
    (path : self.PathFrom [] self.nodeStack)
    (contexts : self.contextStack = self.contextsOf self.nodeStack)
    (views : self.viewStack = self.viewsOf self.nodeStack) : self.Mirrored :=
  ⟨older, rfl, path, contexts, views⟩

theorem mirrored_new : Mirrored (new : DispatchTree L) where
  older := by simp [ParentsFirst, new]
  above := .refl new

/-- Opening a node under the active one keeps the stacks in step. -/
theorem Mirrored.grow {self : DispatchTree L} (mirrored : self.Mirrored) {node : DispatchNode L}
    (parent : node.parent = self.nodeStack.getLast?) : (self.grow node).Mirrored where
  older := by
    intro nodeId other above here isParent
    rcases Nat.lt_trichotomy nodeId self.nodes.length with less | rfl | more
    · exact mirrored.older _ _ _ ((getElem?_grow_old less).symm.trans here) isParent
    · rcases getElem?_grow_new.symm.trans here with ⟨⟩
      exact mirrored.above.path.bound above (List.mem_of_getLast? (parent.symm.trans isParent))
    · have outside : (self.grow node).nodes[nodeId]? = none := by
        simp [DispatchTree.grow]
        omega
      rw [outside] at here
      cases here
  above := mirrored.above.grow parent

theorem Mirrored.popNode {self next : DispatchTree L} (mirrored : self.Mirrored)
    (pops : self.popNode = some next) : next.Mirrored ∧ next.nodes = self.nodes := by
  have same := SameNodes.of_popNode pops
  rcases popNode_eq_some_iff.mp pops with ⟨top, node, active, here, -⟩
  rcases List.getLast?_eq_some_iff.mp active with ⟨front, stack⟩
  have above := mirrored.above
  rw [stack] at above
  rcases above.popNode with ⟨closed, closes, stillAbove⟩
  rcases Option.some.inj (closes.symm.trans pops) with rfl
  refine ⟨⟨?_, ?_⟩, same.nodes⟩
  · rw [ParentsFirst, same.nodes]
    exact mirrored.older
  · rw [stillAbove.nodeStack]
    exact stillAbove

/-- A change of the active node that keeps its parent. -/
theorem Mirrored.modify {self next : DispatchTree L} (mirrored : self.Mirrored)
    {front : List DispatchNodeId} {nodeId : DispatchNodeId} {node : DispatchNode L}
    {change : DispatchNode L → DispatchNode L}
    (stack : self.nodeStack = front ++ [nodeId]) (here : self.nodes[nodeId]? = some node)
    (nodeStack : next.nodeStack = self.nodeStack)
    (nodes : next.nodes = self.nodes.modify nodeId change)
    (keeps : ∀ other, (change other).parent = other.parent)
    (contexts : next.contextStack = self.contextsOf front ++ (change node).context.toList)
    (views : next.viewStack = self.viewsOf front ++ (change node).viewId.toList) :
    next.Mirrored := by
  have isPath := mirrored.path
  rw [stack] at isPath
  have notBelow := isPath.not_mem_front mirrored.older
  have others {other : DispatchNodeId} (member : other ∈ front) :
      next.nodes[other]? = self.nodes[other]? := by
    have apart : nodeId ≠ other := fun same => notBelow (same ▸ member)
    simp [nodes, apart]
  have there : next.nodes[nodeId]? = some (change node) := by
    simp [nodes, here]
  have parents (other : DispatchNodeId) :
      next.nodes[other]?.map DispatchNode.parent = self.nodes[other]?.map DispatchNode.parent := by
    rw [nodes, List.getElem?_modify]
    cases self.nodes[other]? with
    | none => rfl
    | some found => by_cases same : nodeId = other <;> simp [same, keeps]
  apply Mirrored.of_path
  case older =>
    intro other found parent isThere isParent
    have same := parents other
    rw [isThere, Option.map_some, eq_comm, Option.map_eq_some_iff] at same
    rcases same with ⟨before, wasThere, sameParent⟩
    exact mirrored.older _ _ _ wasThere (sameParent.trans isParent)
  case path =>
    rw [nodeStack]
    refine mirrored.path.congr fun other found wasThere => ?_
    have same := parents other
    rw [wasThere, Option.map_some, Option.map_eq_some_iff] at same
    exact same
  case contexts =>
    have below : next.contextsOf front = self.contextsOf front :=
      contextsOf_congr fun other member => others member
    rw [nodeStack, stack, contextsOf_append, below, contextsOf_singleton there, contexts]
  case views =>
    have below : next.viewsOf front = self.viewsOf front :=
      viewsOf_congr fun other member => others member
    rw [nodeStack, stack, viewsOf_append, below, viewsOf_singleton there, views]

/-- The stacks with the active node taken apart. -/
theorem Mirrored.split {self : DispatchTree L} (mirrored : self.Mirrored)
    {nodeId : DispatchNodeId} (active : self.nodeStack.getLast? = some nodeId) :
    ∃ front, ∃ node : DispatchNode L, self.nodeStack = front ++ [nodeId] ∧
      self.nodes[nodeId]? = some node ∧
      self.contextStack = self.contextsOf front ++ node.context.toList ∧
      self.viewStack = self.viewsOf front ++ node.viewId.toList := by
  rcases List.getLast?_eq_some_iff.mp active with ⟨front, stack⟩
  have isPath := mirrored.path
  rw [stack, pathFrom_snoc_iff] at isPath
  rcases isPath with ⟨-, node, here, -⟩
  refine ⟨front, node, stack, here, ?_, ?_⟩
  · rw [mirrored.contexts, stack, contextsOf_append, contextsOf_singleton here]
  · rw [mirrored.views, stack, viewsOf_append, viewsOf_singleton here]

/-- Changes of what the stacks do not mirror: listeners and the focus. -/
theorem Mirrored.modifyActive {self next : DispatchTree L} (mirrored : self.Mirrored)
    {change : DispatchNode L → DispatchNode L} (changes : self.modifyActive change = some next)
    (keeps : ∀ node, (change node).parent = node.parent ∧ (change node).context = node.context ∧
      (change node).viewId = node.viewId) : next.Mirrored := by
  rcases modifyActive_eq_some_iff.mp changes with ⟨nodeId, active, -, rfl⟩
  rcases mirrored.split active with ⟨front, node, stack, here, contexts, views⟩
  refine mirrored.modify stack here rfl rfl (fun other => (keeps other).1) ?_ ?_
  · rw [(keeps node).2.1]
    exact contexts
  · rw [(keeps node).2.2]
    exact views

theorem Mirrored.setFocusId {self next : DispatchTree L} (mirrored : self.Mirrored)
    {focusId : FocusId} (sets : self.setFocusId focusId = some next) : next.Mirrored := by
  rcases setFocusId_eq_some_iff.mp sets with ⟨nodeId, active, -, rfl⟩
  rcases mirrored.split active with ⟨front, node, stack, here, contexts, views⟩
  exact mirrored.modify stack here rfl rfl (fun _ => rfl) contexts views

theorem setKeyContext_eq_some_iff {self next : DispatchTree L} {context : KeyContext} :
    self.setKeyContext context = some next ↔
      ∃ nodeId, self.nodeStack.getLast? = some nodeId ∧ nodeId < self.nodes.length ∧
        next = { self with
          nodes := self.nodes.modify nodeId fun node => { node with context := some context }
          contextStack := self.contextStack ++ [context] } := by
  simp only [setKeyContext, Option.bind_eq_bind, Option.bind_eq_some_iff,
    modifyActive_eq_some_iff, Option.pure_def, Option.some.injEq]
  constructor
  · rintro ⟨_, ⟨nodeId, active, bound, rfl⟩, rfl⟩
    exact ⟨nodeId, active, bound, rfl⟩
  · rintro ⟨nodeId, active, bound, rfl⟩
    exact ⟨_, ⟨nodeId, active, bound, rfl⟩, rfl⟩

/-- The active node has no context yet. -/
def ContextUnset (self : DispatchTree L) : Prop :=
  ∀ nodeId ∈ self.activeNodeId, ∀ node ∈ self.nodes[nodeId]?, node.context = none

/-- The active node has no view yet. -/
def ViewUnset (self : DispatchTree L) : Prop :=
  ∀ nodeId ∈ self.activeNodeId, ∀ node ∈ self.nodes[nodeId]?, node.viewId = none

theorem Mirrored.setKeyContext {self next : DispatchTree L} (mirrored : self.Mirrored)
    (unset : self.ContextUnset) {context : KeyContext}
    (sets : self.setKeyContext context = some next) : next.Mirrored := by
  rcases setKeyContext_eq_some_iff.mp sets with ⟨nodeId, active, -, rfl⟩
  rcases mirrored.split active with ⟨front, node, stack, here, contexts, views⟩
  rw [unset nodeId active node here, Option.toList_none, List.append_nil] at contexts
  refine mirrored.modify stack here rfl rfl (fun _ => rfl) ?_ ?_
  · rw [contexts]
    rfl
  · exact views

theorem Mirrored.setViewId {self next : DispatchTree L} (mirrored : self.Mirrored)
    {viewId : EntityId} (unset : self.viewStack.getLast? ≠ some viewId → self.ViewUnset)
    (sets : self.setViewId viewId = some next) : next.Mirrored := by
  rcases setViewId_eq_some_iff.mp sets with ⟨-, rfl⟩ | ⟨differs, nodeId, active, -, rfl⟩
  · exact mirrored
  · rcases mirrored.split active with ⟨front, node, stack, here, contexts, views⟩
    rw [unset differs nodeId active node here, Option.toList_none, List.append_nil] at views
    refine mirrored.modify stack here rfl rfl (fun _ => rfl) ?_ ?_
    · exact contexts
    · rw [views]
      rfl

/-! ## Going back to an earlier node -/

/-- Going back pops nodes, and does nothing else. -/
theorem popped_of_popUntil {parent : Option DispatchNodeId} {rounds : Nat}
    {self reached : DispatchTree L} (pops : popUntil parent rounds self = some reached) :
    Relation.ReflTransGen (fun tree next => tree.popNode = some next) self reached := by
  induction rounds generalizing self with
  | zero =>
      rcases Option.some.inj pops with rfl
      exact .refl
  | succ rounds ih =>
      rw [popUntil] at pops
      split at pops
      case isTrue _ =>
        rcases Option.bind_eq_some_iff.mp pops with ⟨popped, pop, rest⟩
        exact .head pop (ih rest)
      case isFalse _ =>
        rcases Option.some.inj pops with rfl
        exact .refl

theorem Mirrored.popUntil {parent : Option DispatchNodeId} {rounds : Nat}
    {self reached : DispatchTree L} (mirrored : self.Mirrored)
    (enough : self.nodeStack.length ≤ rounds)
    (pops : popUntil parent rounds self = some reached) :
    reached.Mirrored ∧ reached.nodes = self.nodes ∧
      (reached.nodeStack.getLast? = parent ∨ reached.nodeStack = []) := by
  induction rounds generalizing self with
  | zero =>
      rcases Option.some.inj pops with rfl
      exact ⟨mirrored, rfl, Or.inr (List.eq_nil_of_length_eq_zero (Nat.le_zero.mp enough))⟩
  | succ rounds ih =>
      rw [DispatchTree.popUntil] at pops
      split at pops
      case isTrue _ =>
        rcases Option.bind_eq_some_iff.mp pops with ⟨popped, pop, rest⟩
        rcases mirrored.popNode pop with ⟨stillMirrored, sameNodes⟩
        have shorter : popped.nodeStack.length ≤ rounds := by
          rcases popNode_eq_some_iff.mp pop with ⟨_, _, _, _, rfl⟩
          simpa using enough
        rw [← sameNodes]
        exact ih stillMirrored shorter rest
      case isFalse stops =>
        rcases Option.some.inj pops with rfl
        refine ⟨mirrored, rfl, ?_⟩
        simpa [or_iff_not_imp_left] using stops

/-- The walk up the parents, read backwards, is a path to where it began. -/
theorem pathTo_ancestry {self : DispatchTree L} {rounds : Nat} {nodeId : Option DispatchNodeId}
    {walk : List DispatchNodeId} (walks : self.ancestry rounds nodeId = some walk) :
    self.PathFrom [] walk.reverse ∧ walk.reverse.getLast? = nodeId := by
  induction rounds generalizing nodeId walk with
  | zero =>
      cases nodeId with
      | none =>
          rcases Option.some.inj walks with rfl
          exact ⟨.nil, rfl⟩
      | some nodeId => cases walks
  | succ rounds ih =>
      cases nodeId with
      | none =>
          rcases Option.some.inj walks with rfl
          exact ⟨.nil, rfl⟩
      | some nodeId =>
          simp only [ancestry, Option.bind_eq_bind, Option.bind_eq_some_iff, Option.pure_def,
            Option.some.injEq] at walks
          rcases walks with ⟨node, here, above, walksAbove, rfl⟩
          rcases ih walksAbove with ⟨isPath, top⟩
          rw [List.reverse_cons]
          exact ⟨isPath.snoc here top.symm, List.getLast?_concat⟩

/-- Parents come first, so the walk up ends within as many nodes as there are. -/
theorem ancestry_isSome {self : DispatchTree L} (older : self.ParentsFirst) {rounds : Nat}
    {nodeId : DispatchNodeId} (bound : nodeId < self.nodes.length) (enough : nodeId < rounds) :
    (self.ancestry rounds (some nodeId)).isSome := by
  induction rounds generalizing nodeId with
  | zero => cases enough
  | succ rounds ih =>
      have here : self.nodes[nodeId]? = some self.nodes[nodeId] := List.getElem?_eq_getElem bound
      cases parent : self.nodes[nodeId].parent with
      | none => cases rounds <;> simp [ancestry, here, parent]
      | some above =>
          have less := older _ _ _ here parent
          rcases Option.isSome_iff_exists.mp
            (ih (less.trans bound) (Nat.lt_of_lt_of_le less (Nat.le_of_lt_succ enough)))
            with ⟨walk, walks⟩
          simp [ancestry, here, parent, walks]

theorem Mirrored.setActiveNode {self next : DispatchTree L} (mirrored : self.Mirrored)
    {nodeId : DispatchNodeId} (activates : self.setActiveNode nodeId = some next) :
    next.Mirrored := by
  simp only [DispatchTree.setActiveNode, Option.bind_eq_bind, Option.bind_eq_some_iff]
    at activates
  rcases activates with ⟨node, here, reached, pops, activates⟩
  rcases mirrored.popUntil le_rfl pops with ⟨reachedMirrored, sameNodes, ended⟩
  rw [← sameNodes] at here
  by_cases top : reached.nodeStack.getLast? = node.parent
  · rw [if_pos top, Option.pure_def, Option.some.injEq] at activates
    subst activates
    apply Mirrored.of_path
    case older => exact reachedMirrored.older
    case path =>
      refine (reachedMirrored.path.snoc here top.symm).of_nodes ?_
      rfl
    case contexts =>
      change _ = reached.contextsOf (reached.nodeStack ++ [nodeId])
      rw [contextsOf_append, contextsOf_singleton here, reachedMirrored.contexts]
    case views =>
      change _ = reached.viewsOf (reached.nodeStack ++ [nodeId])
      rw [viewsOf_append, viewsOf_singleton here, reachedMirrored.views]
  · -- the stack is empty: the path is built anew, from the node up
    have empty := ended.resolve_left top
    have noContexts : reached.contextStack = [] := by
      rw [reachedMirrored.contexts, empty]
      rfl
    have noViews : reached.viewStack = [] := by
      rw [reachedMirrored.views, empty]
      rfl
    rw [if_neg top, Option.bind_eq_some_iff] at activates
    rcases activates with ⟨walk, walks, activates⟩
    rw [Option.pure_def, Option.some.injEq] at activates
    subst activates
    simp only [empty, noContexts, noViews, List.nil_append]
    apply Mirrored.of_path
    case older => exact reachedMirrored.older
    case path =>
      refine (pathTo_ancestry walks).1.of_nodes ?_
      rfl
    case contexts => exact List.filterMap_reverse.symm
    case views => exact List.filterMap_reverse.symm

theorem popUntil_isSome {self : DispatchTree L} (mirrored : self.Mirrored)
    (parent : Option DispatchNodeId) (rounds : Nat) : (popUntil parent rounds self).isSome := by
  induction rounds generalizing self with
  | zero => rfl
  | succ rounds ih =>
      rw [popUntil]
      split
      case isTrue continues =>
        rcases List.eq_nil_or_concat self.nodeStack with empty | ⟨front, top, stack⟩
        · exact absurd empty continues.2
        · rw [List.concat_eq_append] at stack
          have above := mirrored.above
          rw [stack] at above
          rcases above.popNode with ⟨popped, pops, -⟩
          simpa [pops] using ih (mirrored.popNode pops).1
      case isFalse _ => rfl

/-- Activating a node of the tree neither panics nor walks in circles. -/
theorem setActiveNode_isSome {self : DispatchTree L} (mirrored : self.Mirrored)
    {nodeId : DispatchNodeId} (bound : nodeId < self.nodes.length) :
    (self.setActiveNode nodeId).isSome := by
  have here : self.nodes[nodeId]? = some self.nodes[nodeId] := List.getElem?_eq_getElem bound
  rcases Option.isSome_iff_exists.mp (popUntil_isSome mirrored self.nodes[nodeId].parent
    self.nodeStack.length) with ⟨reached, pops⟩
  rcases mirrored.popUntil le_rfl pops with ⟨reachedMirrored, sameNodes, -⟩
  rw [← sameNodes] at bound
  rcases Option.isSome_iff_exists.mp (ancestry_isSome reachedMirrored.older bound
    (Nat.lt_succ_of_lt bound)) with ⟨walk, walks⟩
  simp only [setActiveNode, here, Option.bind_eq_bind, Option.bind_some, pops]
  split
  case isTrue _ => rfl
  case isFalse _ => simp [walks]

/-! ## Moving nodes from another tree -/

theorem Mirrored.reuseSubtree {self source reached rest : DispatchTree L}
    (mirrored : self.Mirrored) {start stop : Nat} {focus : Option FocusId}
    {reused : ReusedSubtree}
    (reuses : self.reuseSubtree source start stop focus = some (reused, reached, rest)) :
    reached.Mirrored :=
  reuseSubtree_induct (motive := fun _ tree => tree.Mirrored)
    (fun mirrored pops => (mirrored.popNode pops).1) (fun _ mirrored => mirrored.grow rfl)
    mirrored reuses

/-! ## Runs -/

end DispatchTree

/-- The calls that build a tree. -/
inductive DispatchTreeEvent (L : Type) where
  | pushNode
  | setKeyContext (context : KeyContext)
  | setFocusId (focusId : FocusId)
  | setViewId (viewId : EntityId)
  | setActiveNode (nodeId : DispatchNodeId)
  | reuseSubtree (source : DispatchTree L) (start stop : Nat) (focus : Option FocusId)
  | onKeyEvent (listener : L)
  | onModifiersChanged (listener : L)
  | onAction (actionType : Nat) (listener : L)
  | popNode

namespace DispatchTree

def step (self : DispatchTree L) : DispatchTreeEvent L → Option (DispatchTree L)
  | .pushNode => some self.pushNode
  | .setKeyContext context => self.setKeyContext context
  | .setFocusId focusId => self.setFocusId focusId
  | .setViewId viewId => self.setViewId viewId
  | .setActiveNode nodeId => self.setActiveNode nodeId
  | .reuseSubtree source start stop focus =>
      (self.reuseSubtree source start stop focus).map fun (_, next, _) => next
  | .onKeyEvent listener => self.onKeyEvent listener
  | .onModifiersChanged listener => self.onModifiersChanged listener
  | .onAction actionType listener => self.onAction actionType listener
  | .popNode => self.popNode

/-- No node gets a second context or a second view.  Setting the view that the view
stack ends in sets nothing. -/
def SetOnce (self : DispatchTree L) : DispatchTreeEvent L → Prop
  | .setKeyContext _ => self.ContextUnset
  | .setViewId viewId => self.viewStack.getLast? ≠ some viewId → self.ViewUnset
  | _ => True

theorem Mirrored.step {self next : DispatchTree L} {event : DispatchTreeEvent L}
    (mirrored : self.Mirrored) (once : self.SetOnce event)
    (steps : self.step event = some next) : next.Mirrored := by
  cases event with
  | pushNode =>
      rcases Option.some.inj steps with rfl
      rw [pushNode_eq]
      exact mirrored.grow rfl
  | setKeyContext context => exact mirrored.setKeyContext once steps
  | setFocusId focusId => exact mirrored.setFocusId steps
  | setViewId viewId => exact mirrored.setViewId once steps
  | setActiveNode nodeId => exact mirrored.setActiveNode steps
  | reuseSubtree source start stop focus =>
      rcases Option.map_eq_some_iff.mp steps with ⟨⟨reused, reached, rest⟩, reuses, rfl⟩
      exact mirrored.reuseSubtree reuses
  | onKeyEvent listener =>
      rw [DispatchTree.step, onKeyEvent] at steps
      exact mirrored.modifyActive steps fun _ => ⟨rfl, rfl, rfl⟩
  | onModifiersChanged listener =>
      rw [DispatchTree.step, onModifiersChanged] at steps
      exact mirrored.modifyActive steps fun _ => ⟨rfl, rfl, rfl⟩
  | onAction actionType listener =>
      rw [DispatchTree.step, onAction] at steps
      exact mirrored.modifyActive steps fun _ => ⟨rfl, rfl, rfl⟩
  | popNode => exact (mirrored.popNode steps).1

theorem mirrored_of_run {events : List (DispatchTreeEvent L)} {tree : DispatchTree L}
    (run : Run step SetOnce new events tree) : tree.Mirrored :=
  run.invariant (fun _ tree => tree.Mirrored) mirrored_new fun mirrored once steps =>
    mirrored.step once steps

/-- The stacks mirror the current path. -/
theorem stacks_mirror_path {events : List (DispatchTreeEvent L)} {tree : DispatchTree L}
    (run : Run step SetOnce new events tree) :
    tree.PathFrom [] tree.nodeStack ∧ tree.activeNodeId = tree.nodeStack.getLast? ∧
      tree.contextStack = tree.contextsOf tree.nodeStack ∧
      tree.viewStack = tree.viewsOf tree.nodeStack ∧
      (tree.nodeStack = [] → tree.contextStack = [] ∧ tree.viewStack = []) := by
  have mirrored := mirrored_of_run run
  refine ⟨mirrored.path, rfl, mirrored.contexts, mirrored.views, fun empty => ?_⟩
  rw [mirrored.contexts, mirrored.views, empty]
  exact ⟨rfl, rfl⟩

/-- A child with a view under a root with a context, which is then entered again. -/
theorem stacks_mirror_path_reentered :
    ∃ tree : DispatchTree Nat, tree.nodeStack = [0, 1] ∧ tree.PathFrom [] [0, 1] ∧
      tree.viewStack = [7] := by
  let events : List (DispatchTreeEvent Nat) :=
    [.pushNode, .setKeyContext ⟨[]⟩, .pushNode, .setViewId 7, .popNode, .popNode,
      .setActiveNode 1]
  have run : Run step SetOnce (new : DispatchTree Nat) events _ :=
    .cons trivial rfl <| .cons (by intro _ active node here; cases active; cases here; rfl) rfl <|
      .cons trivial rfl <|
      .cons (by intro _ _ active node here; cases active; cases here; rfl) rfl <|
      .cons trivial rfl <| .cons trivial rfl <| .cons trivial rfl .nil
  have mirror := stacks_mirror_path run
  exact ⟨_, rfl, mirror.1, rfl⟩

end DispatchTree

end Gpui
