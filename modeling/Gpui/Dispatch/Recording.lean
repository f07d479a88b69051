import Gpui.Dispatch.Stacks

/-!
# Recorded ranges

What is known of the nodes pushed between two moments at which the same nodes are
open: their parents follow a walk that pushes and pops above those open nodes.
-/

namespace Gpui

open Gpui.Library

variable {L : Type}

namespace DispatchTree

/-- Parents never change once a node is pushed. -/
def parents (self : DispatchTree L) : List (Option DispatchNodeId) :=
  self.nodes.map DispatchNode.parent

theorem parents_grow (self : DispatchTree L) (node : DispatchNode L) :
    (self.grow node).parents = self.parents ++ [node.parent] := by
  simp [parents, grow]

theorem length_parents (self : DispatchTree L) : self.parents.length = self.nodes.length :=
  List.length_map _

theorem parents_modify {self next : DispatchTree L} {nodeId : DispatchNodeId}
    {change : DispatchNode L → DispatchNode L}
    (nodes : next.nodes = self.nodes.modify nodeId change)
    (keeps : ∀ node, (change node).parent = node.parent) : next.parents = self.parents := by
  apply List.ext_getElem?
  intro other
  rw [parents, parents, nodes, List.getElem?_map, List.getElem?_map, List.getElem?_modify]
  cases self.nodes[other]? with
  | none => rfl
  | some node => by_cases same : nodeId = other <;> simp [same, keeps]

/-- A call that changes what is set on the active node, and neither opens nor
closes a node. -/
structure SameShape (tree next : DispatchTree L) : Prop where
  nodeStack : next.nodeStack = tree.nodeStack
  parents : next.parents = tree.parents

theorem SameShape.modifyActive {self next : DispatchTree L}
    {change : DispatchNode L → DispatchNode L} (changes : self.modifyActive change = some next)
    (keeps : ∀ node, (change node).parent = node.parent) : SameShape self next := by
  rcases modifyActive_eq_some_iff.mp changes with ⟨_, _, _, rfl⟩
  exact ⟨rfl, parents_modify rfl keeps⟩

theorem SameShape.setKeyContext {self next : DispatchTree L} {context : KeyContext}
    (sets : self.setKeyContext context = some next) : SameShape self next := by
  rcases setKeyContext_eq_some_iff.mp sets with ⟨_, _, _, rfl⟩
  exact ⟨rfl, parents_modify rfl fun _ => rfl⟩

theorem SameShape.setFocusId {self next : DispatchTree L} {focusId : FocusId}
    (sets : self.setFocusId focusId = some next) : SameShape self next := by
  rcases setFocusId_eq_some_iff.mp sets with ⟨_, _, _, rfl⟩
  exact ⟨rfl, parents_modify rfl fun _ => rfl⟩

theorem SameShape.setViewId {self next : DispatchTree L} {viewId : EntityId}
    (sets : self.setViewId viewId = some next) : SameShape self next := by
  rcases setViewId_eq_some_iff.mp sets with ⟨-, rfl⟩ | ⟨-, _, _, _, rfl⟩
  · exact ⟨rfl, rfl⟩
  · exact ⟨rfl, parents_modify rfl fun _ => rfl⟩

/-! ## Whole builds -/

/-- The open nodes are nodes of the tree. -/
def Bounded (self : DispatchTree L) : Prop :=
  ∀ nodeId ∈ self.nodeStack, nodeId < self.nodes.length

/-- Later trees have the earlier nodes under the same parents. -/
structure Extends (tree next : DispatchTree L) : Prop where
  parents : tree.parents <+: next.parents
  bounded : tree.Bounded → next.Bounded

theorem Extends.refl (self : DispatchTree L) : Extends self self :=
  ⟨List.prefix_rfl, id⟩

theorem Extends.trans {first second third : DispatchTree L} (front : Extends first second)
    (back : Extends second third) : Extends first third :=
  ⟨front.parents.trans back.parents, back.bounded ∘ front.bounded⟩

theorem SameShape.extends {self next : DispatchTree L} (same : SameShape self next) :
    Extends self next where
  parents := same.parents ▸ List.prefix_rfl
  bounded := by
    intro bounded nodeId member
    rw [← length_parents, same.parents, length_parents]
    exact bounded nodeId (same.nodeStack ▸ member)

theorem Extends.grow (self : DispatchTree L) (node : DispatchNode L) :
    Extends self (self.grow node) where
  parents := parents_grow self node ▸ List.prefix_append _ _
  bounded := by
    intro bounded nodeId member
    rw [← length_parents, parents_grow, List.length_append, length_parents]
    rcases List.mem_append.mp member with old | new
    · exact Nat.lt_succ_of_lt (bounded nodeId old)
    · rw [List.mem_singleton.mp new]
      exact Nat.lt_succ_self _

theorem Extends.popNode {self next : DispatchTree L} (pops : self.popNode = some next) :
    Extends self next := by
  rcases popNode_eq_some_iff.mp pops with ⟨_, _, _, _, rfl⟩
  exact ⟨List.prefix_rfl, fun bounded nodeId member =>
    bounded nodeId (List.dropLast_subset _ member)⟩

theorem Extends.popUntil {parent : Option DispatchNodeId} {rounds : Nat}
    {self reached : DispatchTree L} (pops : popUntil parent rounds self = some reached) :
    Extends self reached := by
  have popped := popped_of_popUntil pops
  clear pops
  induction popped with
  | refl => exact .refl self
  | tail _ pop ih => exact ih.trans (.popNode pop)

theorem Extends.setActiveNode {self next : DispatchTree L} {nodeId : DispatchNodeId}
    (activates : self.setActiveNode nodeId = some next) : Extends self next := by
  simp only [DispatchTree.setActiveNode, Option.bind_eq_bind, Option.bind_eq_some_iff]
    at activates
  rcases activates with ⟨node, here, reached, pops, activates⟩
  have popped := Extends.popUntil pops
  have bound : nodeId < reached.nodes.length := by
    have inside : nodeId < self.nodes.length := (List.getElem?_eq_some_iff.mp here).1
    have longer := popped.parents.length_le
    rw [length_parents, length_parents] at longer
    exact inside.trans_le longer
  refine popped.trans ?_
  split at activates
  case isTrue _ =>
    rcases Option.some.inj activates with rfl
    refine ⟨List.prefix_rfl, fun bounded other member => ?_⟩
    rcases List.mem_append.mp member with old | new
    · exact bounded other old
    · exact (List.mem_singleton.mp new) ▸ bound
  case isFalse _ =>
    rcases Option.bind_eq_some_iff.mp activates with ⟨walk, walks, activates⟩
    rcases Option.some.inj activates with rfl
    refine ⟨List.prefix_rfl, fun bounded other member => ?_⟩
    rcases List.mem_append.mp (List.mem_reverse.mp member) with old | new
    · exact bounded other old
    · exact (pathTo_ancestry walks).1.bound other (List.mem_reverse.mpr new)

theorem Extends.step {self next : DispatchTree L} {event : DispatchTreeEvent L}
    (steps : self.step event = some next) : Extends self next := by
  cases event with
  | pushNode =>
      rcases Option.some.inj steps with rfl
      rw [pushNode_eq]
      exact .grow self _
  | setKeyContext context => exact (SameShape.setKeyContext steps).extends
  | setFocusId focusId => exact (SameShape.setFocusId steps).extends
  | setViewId viewId => exact (SameShape.setViewId steps).extends
  | setActiveNode nodeId => exact .setActiveNode steps
  | reuseSubtree source start stop focus =>
      rcases Option.map_eq_some_iff.mp steps with ⟨⟨reused, reached, rest⟩, reuses, rfl⟩
      exact reuseSubtree_induct (motive := fun _ tree => Extends self tree)
        (fun extended pops => extended.trans (.popNode pops))
        (fun _ extended => extended.trans (.grow _ _)) (.refl self) reuses
  | onKeyEvent listener =>
      rw [DispatchTree.step, onKeyEvent] at steps
      exact (SameShape.modifyActive steps fun _ => rfl).extends
  | onModifiersChanged listener =>
      rw [DispatchTree.step, onModifiersChanged] at steps
      exact (SameShape.modifyActive steps fun _ => rfl).extends
  | onAction actionType listener =>
      rw [DispatchTree.step, onAction] at steps
      exact (SameShape.modifyActive steps fun _ => rfl).extends
  | popNode => exact .popNode steps

/-- A call of any kind, in any state. -/
def Anything (_ : DispatchTree L) (_ : DispatchTreeEvent L) : Prop :=
  True

theorem Extends.run {first last : DispatchTree L} {events : List (DispatchTreeEvent L)}
    (run : Run DispatchTree.step Anything first events last) : Extends first last :=
  run.invariant (fun _ tree => Extends first tree) (.refl first) fun extended _ steps =>
    extended.trans (.step steps)

theorem bounded_of_run {tree : DispatchTree L} {events : List (DispatchTreeEvent L)}
    (run : Run step Anything new events tree) : tree.Bounded :=
  (Extends.run run).bounded (by simp [Bounded, new])

/-! ## The walk over a range -/

/-- The parents of the nodes pushed above an outer node, from the id `start` on, and
those of these nodes that are still open. -/
inductive Walk (start : Nat) (outer : Option DispatchNodeId) :
    List (Option DispatchNodeId) → List DispatchNodeId → Prop where
  | nil : Walk start outer [] []
  | push {parents : List (Option DispatchNodeId)} {opened : List DispatchNodeId}
      (walk : Walk start outer parents opened) :
      Walk start outer (parents ++ [opened.getLast?.or outer]) (opened ++ [start + parents.length])
  | pop {parents : List (Option DispatchNodeId)} {opened : List DispatchNodeId}
      {top : DispatchNodeId} (walk : Walk start outer parents (opened ++ [top])) :
      Walk start outer parents opened

/-- The nodes pushed since a base, of which some are open. -/
structure Recorded (base tree : DispatchTree L) (opened : List DispatchNodeId) : Prop where
  nodeStack : tree.nodeStack = base.nodeStack ++ opened
  longer : base.nodes.length ≤ tree.nodes.length
  walk : Walk base.nodes.length base.nodeStack.getLast?
    (tree.parents.drop base.nodes.length) opened

theorem Recorded.refl (base : DispatchTree L) : Recorded base base [] where
  nodeStack := (List.append_nil _).symm
  longer := le_rfl
  walk := by
    rw [← length_parents, List.drop_length]
    exact .nil

theorem Recorded.sameShape {base tree next : DispatchTree L} {opened : List DispatchNodeId}
    (recorded : Recorded base tree opened) (same : SameShape tree next) :
    Recorded base next opened where
  nodeStack := same.nodeStack.trans recorded.nodeStack
  longer := by
    rw [← length_parents next, same.parents, length_parents]
    exact recorded.longer
  walk := same.parents ▸ recorded.walk

theorem Recorded.grow {base tree : DispatchTree L} {opened : List DispatchNodeId}
    (recorded : Recorded base tree opened) {node : DispatchNode L}
    (parent : node.parent = tree.nodeStack.getLast?) :
    Recorded base (tree.grow node) (opened ++ [tree.nodes.length]) where
  nodeStack := by
    change tree.nodeStack ++ [tree.nodes.length] = _
    rw [recorded.nodeStack, List.append_assoc]
  longer := by
    rw [← length_parents (tree.grow node), parents_grow, List.length_append, length_parents]
    exact recorded.longer.trans (Nat.le_succ _)
  walk := by
    have within : base.nodes.length ≤ tree.parents.length :=
      recorded.longer.trans_eq (length_parents tree).symm
    have walked := recorded.walk.push
    rw [List.length_drop, length_parents, Nat.add_sub_cancel' recorded.longer] at walked
    rw [parents_grow, List.drop_append_of_le_length within, parent, recorded.nodeStack,
      List.getLast?_append]
    exact walked

theorem Recorded.popNode {base tree next : DispatchTree L} {opened : List DispatchNodeId}
    {top : DispatchNodeId} (recorded : Recorded base tree (opened ++ [top]))
    (pops : tree.popNode = some next) : Recorded base next opened := by
  rcases popNode_eq_some_iff.mp pops with ⟨_, _, _, _, rfl⟩
  refine ⟨?_, recorded.longer, recorded.walk.pop⟩
  change tree.nodeStack.dropLast = _
  rw [recorded.nodeStack, ← List.append_assoc, List.dropLast_concat]

/-- Recording never jumps, and only closes what was opened since. -/
def Inside (base tree : DispatchTree L) : DispatchTreeEvent L → Prop
  | .setActiveNode _ => False
  | .popNode => tree.nodeStack ≠ base.nodeStack
  | _ => True

theorem Recorded.step {base tree next : DispatchTree L} {opened : List DispatchNodeId}
    {event : DispatchTreeEvent L} (recorded : Recorded base tree opened)
    (inside : Inside base tree event) (steps : tree.step event = some next) :
    ∃ opened, Recorded base next opened := by
  cases event with
  | pushNode =>
      rcases Option.some.inj steps with rfl
      rw [pushNode_eq]
      exact ⟨_, recorded.grow rfl⟩
  | setKeyContext context => exact ⟨_, recorded.sameShape (.setKeyContext steps)⟩
  | setFocusId focusId => exact ⟨_, recorded.sameShape (.setFocusId steps)⟩
  | setViewId viewId => exact ⟨_, recorded.sameShape (.setViewId steps)⟩
  | setActiveNode nodeId => cases inside
  | reuseSubtree source start stop focus =>
      rcases Option.map_eq_some_iff.mp steps with ⟨⟨reused, reached, rest⟩, reuses, rfl⟩
      -- above the open nodes reuse opens as many as it closes
      have ends := reuseSubtree_induct
        (motive := fun height tree => ∃ above : List DispatchNodeId,
          above.length = height ∧ Recorded base tree (opened ++ above))
        (by
          rintro height tree next ⟨above, tall, recorded⟩ pops
          rcases List.eq_nil_or_concat above with rfl | ⟨below, top, rfl⟩
          · cases tall
          · rw [List.concat_eq_append] at tall recorded
            rw [← List.append_assoc] at recorded
            exact ⟨below, by simpa using tall, recorded.popNode pops⟩)
        (by
          rintro height tree source ⟨above, tall, recorded⟩
          have grown : Recorded base (tree.grow (tree.moved source)) _ := recorded.grow rfl
          rw [List.append_assoc] at grown
          exact ⟨_, by simpa using tall, grown⟩)
        ⟨[], rfl, by simpa using recorded⟩ reuses
      rcases ends with ⟨above, tall, recorded⟩
      exact ⟨_, recorded⟩
  | onKeyEvent listener =>
      rw [DispatchTree.step, onKeyEvent] at steps
      exact ⟨_, recorded.sameShape (.modifyActive steps fun _ => rfl)⟩
  | onModifiersChanged listener =>
      rw [DispatchTree.step, onModifiersChanged] at steps
      exact ⟨_, recorded.sameShape (.modifyActive steps fun _ => rfl)⟩
  | onAction actionType listener =>
      rw [DispatchTree.step, onAction] at steps
      exact ⟨_, recorded.sameShape (.modifyActive steps fun _ => rfl)⟩
  | popNode =>
      rcases List.eq_nil_or_concat opened with rfl | ⟨below, top, rfl⟩
      · exact absurd (recorded.nodeStack.trans (List.append_nil _)) inside
      · rw [List.concat_eq_append] at recorded
        exact ⟨below, recorded.popNode steps⟩

/-- Between two moments with the same open nodes, every node pushed was popped. -/
theorem recorded_of_run {base tree : DispatchTree L} {events : List (DispatchTreeEvent L)}
    (run : Run step (Inside base) base events tree) (balanced : tree.nodeStack = base.nodeStack) :
    Recorded base tree [] := by
  have recorded : ∃ opened, Recorded base tree opened :=
    run.invariant (fun _ tree => ∃ opened, Recorded base tree opened) ⟨[], .refl base⟩
      fun ⟨_, recorded⟩ inside steps => recorded.step inside steps
  rcases recorded with ⟨opened, recorded⟩
  have closed : opened = [] := by
    have same := recorded.nodeStack
    rw [balanced] at same
    exact List.self_eq_append_right.mp same
  exact closed ▸ recorded

end DispatchTree

end Gpui
